/-!
Texts in texts.
-/

namespace Restyle.Text

def occursIn (word : List Char) : List Char → Bool
  | [] => word.isEmpty
  | c :: rest => word.isPrefixOf (c :: rest) || occursIn word rest

/-- The text with every occurrence of `old` replaced, from left to right; `skip` characters of an
occurrence are still to be passed over. -/
def replaceFrom (old new : List Char) (skip : Nat) : List Char → List Char
  | [] => []
  | c :: rest =>
    match skip with
    | n + 1 => replaceFrom old new n rest
    | 0 =>
      if old.isPrefixOf (c :: rest) then new ++ replaceFrom old new (old.length - 1) rest
      else c :: replaceFrom old new 0 rest

/-- Replaces every occurrence of a text. The empty text occurs around every character. -/
def replace (old new s : List Char) : List Char :=
  if old.isEmpty then new ++ s.flatMap fun c => c :: new else replaceFrom old new 0 s

end Restyle.Text
