import Mathlib.Data.List.Sublists
import Restyle.Proofs.Project.ReadBack

/-!
Files that follow a file because their changes mention one of its names. A name is looked for in
the wording of the changes. The main statement says when this finds just the files that have a name
in common: if there is none, no name may be part of any word that the changes are told with. These
are the words of the sentences, line numbers, and the old and the new names.
-/

namespace Restyle

namespace Project

open Disk (Path)
open Restyle.Symbol (SymbolMap)
open Naming (Spelled)
open Review (changedNames mentions)
open Text (mayBeNameChar Apart IsRun isRun_toDigits wordsIn wordsIn_append wordsIn_run
  wordsIn_run_append)

variable {r : FileResult}

theorem isRun_of_spelled {name : String} (h : Spelled name) : IsRun mayBeNameChar name.toList :=
  ⟨mt String.toList_eq_nil_iff.mp h.ne_empty, h.chars⟩

/-- What the engine tells of a file: that a name is another one now, or a note about the form. -/
inductive Worded : String → Prop
  | renamed {change label old new : String} {after : List Char}
      (h : Tells change label old new after) : Worded change
  | note {change : String} (h : IsNote change) : Worded change

theorem worded_result [Dialect] {changes : List String} (h : ∀ change ∈ changes, Worded change)
    (path : Path) (source : List Char) (s : Settings) (text : List Char) :
    ∀ change ∈ (result path source (format s text changes)).changes, Worded change := by
  rw [(addsPlain_format s text).adds changes]
  cases hformat : format s text [] with
  | error f => simp [Except.map, result]
  | ok r =>
    intro change hchange
    rcases List.mem_append.mp hchange with hold | hnew
    · exact h change hold
    · exact .note ((addsPlain_format s text).note r hformat change hnew)

theorem worded_alone [Dialect] (s : Settings) (d : Disk) (p : Path) :
    ∀ change ∈ (processAlone s d p).1.changes, Worded change := by
  unfold processAlone
  cases hsource : Source.ofFile d p with
  | error f =>
    rw [load_of_error hsource]
    simp
  | ok source =>
    rw [load_of_ok hsource]
    have hown := tellable_of_mem_renamings (s := s) hsource
    dsimp only
    unfold namingStep
    cases hrenamings : renamings s (elements source.tree) with
    | nil => exact worded_result (by simp) _ _ _ _
    | cons r rs =>
      rw [hrenamings] at hown
      dsimp only
      cases (Session.keep source).renamedText (renameMap (r :: rs)) with
      | error f => exact fun change hchange => absurd hchange List.not_mem_nil
      | ok text =>
        refine worded_result (fun change hchange => ?_) _ _ _ _
        obtain ⟨q, hq, rfl⟩ := List.mem_map.mp hchange
        exact .renamed (hown q hq).tells

theorem worded_together [Dialect] {s : Settings} {d : Disk} {m : SymbolMap} {cross : NameMap}
    {p : Path} (hcross : ∀ r ∈ cross.entries, Worded (describeCross m p r)) :
    ∀ change ∈ (processTogether s d m cross p).1.changes, Worded change := by
  unfold processTogether
  cases hsource : Source.ofFile d p with
  | error f =>
    rw [load_of_error hsource]
    simp
  | ok source =>
    rw [load_of_ok hsource]
    have hown := tellable_of_mem_renamings (s := s) hsource
    have hchanges : ∀ change ∈ combinedChanges m cross p (renamings s (elements source.tree)),
        Worded change := by
      rw [combinedChanges_eq m cross p hown]
      simp only [List.mem_append, List.mem_map, List.mem_filter]
      rintro change (⟨r, ⟨hr, -⟩, rfl⟩ | ⟨r, hr, rfl⟩)
      · exact .renamed (hown r hr).tells
      · exact hcross r hr
    dsimp only
    split
    · rw [combinedResult_eq_result]
      exact worded_result hchanges _ _ _ _
    · split
      · simp
      · rw [combinedResult_eq_result]
        exact worded_result hchanges _ _ _ _

/-- Results that the engine makes, of files for themselves or as part of a project. -/
inductive EngineMade [Dialect] : FileResult → Prop
  | alone (s : Settings) (d : Disk) (p : Path) : EngineMade (processAlone s d p).1
  | planned (s : Settings) (d : Disk) (root : Path) (paths : List Path) (d' : Disk) (p : Path)
      (hfault : (SymbolMap.empty.analyze d root paths).fault = none) :
      EngineMade ((projectEngine s d root paths).processFile d' p).1

theorem EngineMade.worded [Dialect] (h : EngineMade r) : ∀ change ∈ r.changes, Worded change := by
  cases h with
  | alone s d p => exact worded_alone s d p
  | planned s d root paths d' p hfault =>
    exact worded_together fun r hr => .renamed (tells_describeCross hfault hr)

theorem EngineMade.isRun_of_mem [Dialect] (h : EngineMade r) {n : String}
    (hn : n ∈ changedNames r) : IsRun mayBeNameChar n.toList := by
  obtain ⟨change, hchange, hread⟩ := List.mem_filterMap.mp hn
  cases h.worded change hchange with
  | note hnote =>
    rw [changedName?_eq_none hnote.plain.noQuote] at hread
    cases hread
  | renamed htells =>
    obtain rfl := Option.some.inj (htells.changedName?.symm.trans hread)
    exact isRun_of_spelled htells.old

/-! ### The words of changes -/

/-- The words of the sentences that changes are told with, apart from names and numbers. -/
def wording : List String :=
  kindWords ++ ["Renamed", "to", "cross", "file", "Formatted", "docstring", "at", "line",
    "capitalized", "first", "letter", "added", "period", "trimmed", "whitespace", "and", "Applied",
    "blank", "lines", "formatting"]

/-- Where the words of a change come from: the wording, a line number, or a name in quotes. -/
def Accounted (change : String) (w : List Char) : Prop :=
  String.ofList w ∈ wording ∨ w.all Char.isDigit = true ∨
    ∃ old new, quotedNames old new <:+: change.toList ∧ (w = old ∨ w = new)

theorem Tells.accounted {change label old new : String} {after : List Char}
    (h : Tells change label old new after) : ∀ w ∈ wordsIn change.toList, Accounted change w := by
  have hlabel : IsRun mayBeNameChar label.toList :=
    (by decide : ∀ k ∈ kindWords, IsRun mayBeNameChar k.toList) label h.label
  have htext : change.toList = "Renamed".toList ++ ' ' :: (label.toList ++ ' ' :: ([] ++ '\'' ::
      (old.toList ++ '\'' :: ([] ++ ' ' :: ("to".toList ++ ' ' :: ([] ++ '\'' ::
        (new.toList ++ '\'' :: after))))))) := by
    rw [h.text]
    simp [quotedNames, Text.singleQuote]
  have hquoted : quotedNames old.toList new.toList <:+: change.toList :=
    ⟨_, after, by rw [h.text, List.append_assoc]⟩
  have hafter := (by decide : ∀ after ∈ [[], " (cross-file)".toList], ∀ w ∈ wordsIn after,
    String.ofList w ∈ wording) after h.after
  have hfixed := (by decide : ∀ w ∈ wordsIn "Renamed".toList ++ wordsIn "to".toList,
    String.ofList w ∈ wording)
  have hkind : String.ofList label.toList ∈ wording := by
    rw [String.ofList_toList]
    exact List.mem_append_left _ h.label
  intro w hw
  rw [htext] at hw
  simp (disch := decide) only [wordsIn_append, wordsIn_run hlabel,
    wordsIn_run (isRun_of_spelled h.old), wordsIn_run (isRun_of_spelled h.new), List.mem_append,
    List.mem_singleton] at hw hfixed
  rcases hw with hw | rfl | hw | rfl | hw | hw | hw | rfl | hw
  · exact .inl (hfixed w (.inl hw))
  · exact .inl hkind
  · cases hw
  · exact .inr (.inr ⟨_, _, hquoted, .inl rfl⟩)
  · cases hw
  · exact .inl (hfixed w (.inr hw))
  · cases hw
  · exact .inr (.inr ⟨_, _, hquoted, .inr rfl⟩)
  · exact .inl (hafter w hw)

/-- What follows the number of the line in a note about a docstring. -/
def noteEnd (cs : List String) : List Char :=
  if cs = [] then [] else ':' :: ' ' :: (String.intercalate " and " cs).toList

theorem toList_describe (old new : List Char) (n : Nat) :
    (Docstring.describe old new n).toList = "Formatted docstring at line".toList ++
      ' ' :: (Nat.toDigits 10 n ++ noteEnd (Docstring.changes old new)) := by
  unfold Docstring.describe noteEnd
  split
  case h_1 hnone =>
    change ("Formatted docstring at line " ++ toString (n : Int)).toList = _
    rw [String.toList_append, toList_toString, if_pos hnone]
    simp
  case h_2 hsome =>
    change ("Formatted docstring at line " ++ toString (n : Int) ++ ": " ++ _).toList = _
    rw [String.toList_append, String.toList_append, String.toList_append, toList_toString,
      if_neg hsome]
    simp

theorem changes_sublist (old new : List Char) : (Docstring.changes old new).Sublist
    ["capitalized first letter", "added period", "trimmed whitespace"] := by
  have hone (b : Bool) (s : String) : (if b then [s] else []).Sublist [s] := by cases b <;> simp
  exact ((hone _ _).append (hone _ _)).append (hone _ _)

theorem apart_noteEnd (cs : List String) : Apart mayBeNameChar (noteEnd cs) := by
  unfold noteEnd
  split
  · exact Text.apart_nil
  · exact Text.apart_cons.mpr (by decide)

theorem IsNote.accounted {change : String} (h : IsNote change) :
    ∀ w ∈ wordsIn change.toList, Accounted change w := by
  intro w hw
  cases h with
  | blankLines =>
    exact .inl ((by decide : ∀ w ∈ wordsIn "Applied blank lines formatting".toList,
      String.ofList w ∈ wording) w hw)
  | docstring old new n =>
    have hend : ∀ w ∈ wordsIn (noteEnd (Docstring.changes old new)), String.ofList w ∈ wording :=
      (by decide +kernel : ∀ cs ∈ List.sublists
        ["capitalized first letter", "added period", "trimmed whitespace"],
        ∀ w ∈ wordsIn (noteEnd cs), String.ofList w ∈ wording)
        _ (List.mem_sublists.mpr (changes_sublist old new))
    have hstart := (by decide : ∀ w ∈ wordsIn "Formatted docstring at line".toList,
      String.ofList w ∈ wording)
    rw [toList_describe, wordsIn_append (by decide),
      wordsIn_run_append (isRun_toDigits n) (apart_noteEnd _)] at hw
    rcases List.mem_append.mp hw with hw | hw
    · exact .inl (hstart w hw)
    rcases List.mem_cons.mp hw with rfl | hw
    · exact .inr (.inl (List.all_eq_true.mpr fun c hc =>
        Nat.isDigit_of_mem_toDigits (by decide) (by decide) hc))
    · exact .inl (hend w hw)

theorem Worded.accounted {change : String} (h : Worded change) :
    ∀ w ∈ wordsIn change.toList, Accounted change w := by
  cases h with
  | renamed htells => exact htells.accounted
  | note hnote => exact hnote.accounted

/-! ### Mentioned names -/

def toldWords (r : FileResult) : List (List Char) :=
  r.changes.flatMap fun change => wordsIn change.toList

theorem mentions_iff {names : List String} (h : ∀ n ∈ names, IsRun mayBeNameChar n.toList) :
    mentions r names = true ↔ ∃ n ∈ names, ∃ w ∈ toldWords r, n.toList <:+: w := by
  simp only [mentions, List.any_eq_true, Text.occursIn_iff_isInfix, toldWords, List.mem_flatMap]
  constructor
  · rintro ⟨change, hchange, n, hn, hpart⟩
    obtain ⟨w, hw, hpart⟩ := (Text.isInfix_iff_wordsIn (h n hn) _).mp hpart
    exact ⟨n, hn, w, ⟨change, hchange, hw⟩, hpart⟩
  · rintro ⟨n, hn, w, ⟨change, hchange, hw⟩, hpart⟩
    exact ⟨change, hchange, n, hn, (Text.isInfix_iff_wordsIn (h n hn) _).mpr ⟨w, hw, hpart⟩⟩

theorem mentions_of_mem {names : List String} {n : String} (hn : n ∈ names)
    (hr : n ∈ changedNames r) : mentions r names = true := by
  obtain ⟨change, hchange, hread⟩ := List.mem_filterMap.mp hr
  obtain ⟨before, old, new, after, htext, rfl⟩ := exists_of_changedName? hread
  simp only [mentions, List.any_eq_true, Text.occursIn_iff_isInfix]
  refine ⟨change, hchange, _, hn, ?_⟩
  rw [htext, String.toList_ofList]
  exact ⟨before ++ [Text.singleQuote], _, by simp [quotedNames]; rfl⟩

/-- The changes of a file mention the names of another one just if the two have a name in common,
exactly if they do have one or no name of the other file is part of a word that the changes are
told with; and where each of these words comes from. -/
theorem mentions_agrees_iff [Dialect] {u r : FileResult} (hu : EngineMade u) (hr : EngineMade r) :
    ((mentions u (changedNames r) = true ↔ ∃ n, n ∈ changedNames u ∧ n ∈ changedNames r) ↔
      (∃ n, n ∈ changedNames u ∧ n ∈ changedNames r) ∨
        ∀ n ∈ changedNames r, ∀ w ∈ toldWords u, ¬ n.toList <:+: w) ∧
      ∀ change ∈ u.changes, ∀ w ∈ wordsIn change.toList, Accounted change w := by
  refine ⟨?_, fun change hchange => (hu.worded change hchange).accounted⟩
  have hmentions := mentions_iff (r := u) fun n hn => hr.isRun_of_mem hn
  have hshared : (∃ n, n ∈ changedNames u ∧ n ∈ changedNames r) →
      mentions u (changedNames r) = true := by
    rintro ⟨n, hu, hn⟩
    exact mentions_of_mem hn hu
  by_cases h : ∃ n, n ∈ changedNames u ∧ n ∈ changedNames r
  · simp [h, hshared h]
  · simp only [h, iff_false, false_or, hmentions, not_exists, not_and]

/-- A project with a class called `name`, in a file with a docstring, and a function of another
name. -/
def namedProject : Disk :=
  ⟨.dir .directory
    [("kinds.py", .file .file (Text.encode "\"\"\"kinds\"\"\"\nclass name: pass\n".toList)),
      ("names.py", .file .file (Text.encode "def oldName(): pass\n".toList))], false, some []⟩

def namedResult (file : String) : FileResult :=
  ((projectEngine .usual namedProject ⟨"", []⟩
    [⟨"", ["kinds.py"]⟩, ⟨"", ["names.py"]⟩]).processFile namedProject ⟨"", [file]⟩).1

theorem engineMade_namedResult (file : String) : EngineMade (namedResult file) :=
  .planned _ _ _ _ _ _ (by decide +kernel)

/-- The file with the class does not mention the function. -/
theorem mentions_agrees_iff_sample :
    mentions (namedResult "kinds.py") (changedNames (namedResult "names.py")) = true ↔
      ∃ n, n ∈ changedNames (namedResult "kinds.py") ∧ n ∈ changedNames (namedResult "names.py") :=
  (mentions_agrees_iff (engineMade_namedResult _) (engineMade_namedResult _)).1.mpr
    (.inr (by decide +kernel))

/-- The two files have no name in common, and still the one with the function follows the one with
the class: `name` is part of the word that tells of a renaming. -/
theorem name_mentioned_by_wording :
    Review.isDefinition (namedResult "kinds.py") = true ∧
      Review.isDefinition (namedResult "names.py") = false ∧
      changedNames (namedResult "kinds.py") = ["name"] ∧
      changedNames (namedResult "names.py") = ["oldName"] ∧
      mentions (namedResult "names.py") (changedNames (namedResult "kinds.py")) = true := by
  decide +kernel

end Project

end Restyle
