import Restyle.Rename.Import

/-!
New names where names are used, and where they are defined, by the words around them.
-/

namespace Restyle.Rename

def wordCount (name s : List Char) : Nat := ((Pattern.word name).allMatches s).1.length

/-- A word before an opening bracket or an equals sign, after blanks. -/
def wordBefore (name : List Char) (c : Char) : Pattern :=
  Pattern.word name + Pattern.ahead (Pattern.blanks + Pattern.char (.exactly c))

/-- The forms of a use with their replacements: a call, an attribute, an assignment, and every
other use. -/
def usageForms (old new : List Char) : List (Pattern × List Char) :=
  [(wordBefore old '(', new),
   (Pattern.group 1 (Pattern.char (.exactly '.')) + Pattern.group 2 (Pattern.literal old) +
      Pattern.boundary, "\\1".toList ++ new),
   (wordBefore old '=', new),
   (Pattern.word old, new)]

/-- The gain in new names, less the loss of old ones. -/
def usageGain (old new before after : List Char) : Int :=
  (wordCount new after : Int) - ((wordCount old before : Int) - wordCount old after)

def renameUsage (state : Told) (old new : String) : Except TemplateFault Told := do
  let (before, told) := state
  if wordCount old.toList before = 0 then return state
  let after ← (usageForms old.toList new.toList).foldlM
    (fun s (pattern, template) => replaceAll pattern template s) before
  let gain := usageGain old.toList new.toList before after
  if after ≠ before ∧ gain > 0 then
    return (after, told ++ [s!"Updated {gain} usage(s) of '{old}' to '{new}'"])
  else return (after, told)

def renameUsages (names : NameMap) (s : List Char) : Except TemplateFault Told :=
  names.longestFirst.foldlM (fun state (old, new) => renameUsage state old new) (s, [])

/-! ### Definitions -/

/-- What a definition looks like around its name, the word for it, and its replacement. -/
structure DefinitionForm where
  label : String
  pattern : Pattern
  template : List Char

def definitionForms (old new : List Char) : List DefinitionForm :=
  let name := Pattern.literal old
  let opened := Pattern.blanks + Pattern.char (.exactly '(')
  let word (s : String) : Pattern := Pattern.boundary + Pattern.literal s.toList + Pattern.blanks1
  let around : List Char := "\\1".toList ++ new ++ "\\2".toList
  [⟨"class", Pattern.group 1 (word "class") + name + Pattern.group 2 (opened +
      Pattern.many (Pattern.char (.other ')')) + Pattern.optional (Pattern.char (.exactly ')'))),
      around⟩,
   ⟨"function", Pattern.group 1 (word "def") + name + Pattern.group 2 opened, around⟩,
   ⟨"async function", Pattern.group 1 (word "async" + Pattern.literal "def".toList +
      Pattern.blanks1) + name + Pattern.group 2 opened, around⟩,
   ⟨"variable", Pattern.group 1 (Pattern.alt Pattern.lineStart Pattern.blanks1) +
      Pattern.group 2 name + Pattern.group 3 (Pattern.blanks + Pattern.char (.exactly '=')),
      "\\1".toList ++ new ++ "\\3".toList⟩]

def renameForm (old new : String) (state : Told) (f : DefinitionForm) :
    Except TemplateFault Told :=
  if (f.pattern.find? state.1).isNone then .ok state
  else do
    let s ← replaceAll f.pattern f.template state.1
    return (s, state.2 ++ [s!"Updated {f.label} definition: '{old}' → '{new}'"])

def renameDefinitions (names : NameMap) (s : List Char) : Except TemplateFault Told :=
  names.entries.foldlM (fun state (old, new) =>
    (definitionForms old.toList new.toList).foldlM (renameForm old new) state) (s, [])

end Restyle.Rename
