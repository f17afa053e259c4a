/-!
Tables of code points. A table is written in lines, one entry per word: `aa` is a single code
point, `c0-d6` an interval, `100-12e/2` every second code point of an interval. An entry of a
mapping continues with `>` and the image of its first code point, and the images advance with
the code points. Mappings are between characters of names; other entries are not read.
-/

namespace Restyle.Text

/-- Cuts a text at every `sep`. A text with `n` separators has `n + 1` pieces. -/
def splitOn (sep : Char) : List Char → List (List Char)
  | [] => [[]]
  | c :: cs =>
    if c = sep then [] :: splitOn sep cs
    else match splitOn sep cs with
      | [] => [[c]]
      | w :: ws => (c :: w) :: ws

@[simp] theorem splitOn_nil (sep : Char) : splitOn sep [] = [[]] := rfl

def hexDigit? (c : Char) : Option Nat :=
  if c.isDigit then some (c.toNat - '0'.toNat)
  else if 'a' ≤ c ∧ c ≤ 'f' then some (c.toNat - 'a'.toNat + 10)
  else if 'A' ≤ c ∧ c ≤ 'F' then some (c.toNat - 'A'.toNat + 10)
  else none

def hexValue (digits : List Char) : Nat :=
  digits.foldl (fun n c => 16 * n + (hexDigit? c).getD 0) 0

/-- The code points `first`, `first + step`, and so on up to `last`. -/
structure CodeRun where
  first : Nat
  last : Nat
  step : Nat
deriving DecidableEq, Repr

namespace CodeRun

def contains (r : CodeRun) (n : Nat) : Bool :=
  r.first ≤ n && n ≤ r.last && (n - r.first) % r.step == 0

def read (entry : List Char) : CodeRun :=
  let stepped := splitOn '/' entry
  let step := if stepped.length = 2 then 2 else 1
  match splitOn '-' (stepped.headD []) with
  | [a, b] => ⟨hexValue a, hexValue b, step⟩
  | ws => let n := hexValue (ws.headD []); ⟨n, n, 1⟩

end CodeRun

/-- The entries in the lines of a table, which blanks separate. -/
def entries (lines : List String) : List (List Char) :=
  lines.flatMap fun line => (splitOn ' ' line.toList).filter (!·.isEmpty)

structure CodeTable where
  runs : Array CodeRun

namespace CodeTable

def read (lines : List String) : CodeTable :=
  ⟨((entries lines).map CodeRun.read).toArray⟩

def contains (t : CodeTable) (c : Char) : Bool :=
  t.runs.any (·.contains c.toNat)

end CodeTable

/-- Characters that a name can be made of, as far as the first look goes. -/
def mayBeNameChar (c : Char) : Bool :=
  c.isAlphanum || c == '_' || c.toNat ≥ 128

/-- A run of code points and the image of the first of them. -/
structure MapRun where
  run : CodeRun
  image : Nat

namespace MapRun

def read? (entry : List Char) : Option MapRun :=
  match splitOn '>' entry with
  | [run, image] => some ⟨CodeRun.read run, hexValue image⟩
  | _ => none

def get (r : MapRun) (n : Nat) : Char := Char.ofNat (r.image + (n - r.run.first))

def isNaming (r : MapRun) : Bool :=
  (List.range (r.run.last + 1 - r.run.first)).all fun i =>
    r.run.contains (r.run.first + i) → mayBeNameChar (r.get (r.run.first + i))

end MapRun

/-- A map from characters of names to characters of names, the identity outside its runs. -/
structure CodeMap where
  runs : List MapRun
  naming : ∀ r ∈ runs, r.isNaming

namespace CodeMap

def read (lines : List String) : CodeMap where
  runs := ((entries lines).filterMap MapRun.read?).filter (·.isNaming)
  naming _ h := (List.mem_filter.mp h).2

def get? (m : CodeMap) (c : Char) : Option Char :=
  (m.runs.find? (·.run.contains c.toNat)).map (·.get c.toNat)

end CodeMap

structure CodeWord where
  code : Nat
  word : List Char

namespace CodeWord

def read? (entry : List Char) : Option CodeWord :=
  match splitOn '>' entry with
  | [code, image] =>
    some ⟨hexValue code, (splitOn '+' image).map fun digits => Char.ofNat (hexValue digits)⟩
  | _ => none

def isNaming (w : CodeWord) : Bool :=
  mayBeNameChar (Char.ofNat w.code) && w.word.all mayBeNameChar

end CodeWord

/-- A map from characters of names to longer texts of such characters. -/
structure CodeWords where
  words : List CodeWord
  naming : ∀ w ∈ words, w.isNaming

namespace CodeWords

def read (lines : List String) : CodeWords where
  words := ((entries lines).filterMap CodeWord.read?).filter (·.isNaming)
  naming _ h := (List.mem_filter.mp h).2

def get? (m : CodeWords) (c : Char) : Option (List Char) :=
  (m.words.find? (·.code == c.toNat)).map (·.word)

end CodeWords

end Restyle.Text
