import Restyle.Json.Value

/-!
Documents as text: ASCII only, without blanks.
-/

namespace Restyle.Json

def unitEscape (n : Nat) : List Char := '\\' :: 'u' :: Text.hexText 4 n

def writeChar (c : Char) : List Char :=
  let n := c.toNat
  if c == '"' then ['\\', '"']
  else if c == '\\' then ['\\', '\\']
  else if c == '\n' then ['\\', 'n']
  else if 32 ≤ n ∧ n < 127 then [c]
  else if n < 0x10000 then unitEscape n
  else unitEscape (0xd800 + (n - 0x10000) / 0x400) ++ unitEscape (0xdc00 + (n - 0x10000) % 0x400)

def writeString (s : String) : String :=
  "\"" ++ String.ofList (s.toList.flatMap writeChar) ++ "\""

def writeReal : Binary64 → String
  | .nan => "NaN"
  | .infinity negative => if negative then "-Infinity" else "Infinity"
  | x => x.text

mutual

def Value.write : Value → String
  | .null => "null"
  | .bool b => if b then "true" else "false"
  | .int n => toString n
  | .real x => writeReal x
  | .str s => writeString s
  | .arr items => "[" ++ String.intercalate "," (writeItems items) ++ "]"
  | .obj members => "\x7b" ++ String.intercalate "," (writeMembers members) ++ "\x7d"

def writeItems : List Value → List String
  | [] => []
  | v :: rest => v.write :: writeItems rest

def writeMembers : List (String × Value) → List String
  | [] => []
  | (k, v) :: rest => (writeString k ++ ":" ++ v.write) :: writeMembers rest

end

end Restyle.Json
