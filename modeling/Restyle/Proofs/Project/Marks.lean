import Mathlib.Data.List.Infix
import Restyle.Proofs.Docstring.Replace
import Restyle.Proofs.Project.Agreement
import Restyle.Proofs.Project.Wording
import Restyle.Review.Group

/-!
The marks of changes. The changes of a file are told one by one, and those that the project
decides about are marked. A file counts as a definition if one of its changes has no mark. The
main statement says when this is so: the file gives a name that the project does not plan, or its
docstrings or blank lines change. A file in which a planned name is defined has the mark there
too, so it need not count as a definition.
-/

namespace Restyle

namespace Project

open Disk (Path)
open Restyle.Symbol (SymbolMap)
open Review (crossMark isDefinition)

variable {m : SymbolMap} {cross : NameMap}

/-- Whether a change is told without the mark. -/
def Unmarked (change : String) : Prop := Text.occursIn crossMark change.toList = false

theorem unmarked_of_plain {change : String} (h : Plain change) : Unmarked change :=
  Text.occursIn_eq_false (by decide : '(' ∈ crossMark) h.noBracket

theorem not_unmarked_append (text : String) : ¬ Unmarked (text ++ "' (cross-file)") := by
  have hmark : crossMark <:+: (text ++ "' (cross-file)").toList := by
    have hend : crossMark <:+ "' (cross-file)".toList := by decide
    rw [String.toList_append]
    exact (hend.trans (List.suffix_append text.toList _)).isInfix
  rw [Unmarked, (Text.occursIn_iff_isInfix _ _).mpr hmark]
  nofun

theorem isDefinition_iff (r : FileResult) :
    isDefinition r = true ↔ ∃ change ∈ r.changes, Unmarked change := by
  simp [isDefinition, Unmarked]

/-! ### What formatting tells -/

theorem plain_toString (n : Nat) : Plain (toString (n : Int)) := by
  have hother (c : Char) (hc : c.isDigit = false) : c ∉ (toString (n : Int)).toList := by
    intro h
    rw [toList_toString] at h
    rw [Nat.isDigit_of_mem_toDigits (by decide) (by decide) h] at hc
    cases hc
  exact ⟨hother _ (by decide), hother _ (by decide)⟩

theorem plain_intercalate {sep : String} {parts : List String} (hsep : Plain sep)
    (hparts : ∀ part ∈ parts, Plain part) : Plain (String.intercalate sep parts) := by
  have hother {c : Char} (hc : c ∉ sep.toList) (hall : ∀ part ∈ parts, c ∉ part.toList) :
      c ∉ (String.intercalate sep parts).toList := by
    rw [String.toList_intercalate]
    intro h
    rcases Text.exists_of_mem_intercalate h with hmem | ⟨part, hpart, hmem⟩
    · exact hc hmem
    · obtain ⟨text, htext, rfl⟩ := List.mem_map.mp hpart
      exact hall text htext hmem
  exact ⟨hother hsep.noQuote fun part hpart => (hparts part hpart).noQuote,
    hother hsep.noBracket fun part hpart => (hparts part hpart).noBracket⟩

theorem plain_docstring (old new : List Char) (n : Nat) :
    Plain (Docstring.describe old new n) := by
  have hplace : Plain ("Formatted docstring at line " ++ toString (n : Int)) :=
    (by decide : Plain "Formatted docstring at line ").append (plain_toString n)
  have hparts : ∀ change ∈ Docstring.changes old new, Plain change := by
    intro change h
    unfold Docstring.changes at h
    simp only [List.mem_append] at h
    have hadded {told : String} {b : Bool} (htold : Plain told)
        (h : change ∈ if b then [told] else []) : Plain change := by
      split at h
      · rw [List.mem_singleton.mp h]
        exact htold
      · cases h
    rcases h with (h | h) | h
    · exact hadded (by decide) h
    · exact hadded (by decide) h
    · exact hadded (by decide) h
  unfold Docstring.describe
  split
  · exact hplace
  · exact (hplace.append (by decide)).append (plain_intercalate (by decide) hparts)

inductive IsNote : String → Prop
  | docstring (old new : List Char) (n : Nat) : IsNote (Docstring.describe old new n)
  | blankLines : IsNote "Applied blank lines formatting"

theorem IsNote.plain {change : String} (h : IsNote change) : Plain change := by
  cases h with
  | docstring old new n => exact plain_docstring old new n
  | blankLines => decide

theorem isNote_of_apply [Dialect] {source text : List Char} {told : List String}
    (h : Docstring.apply source = .ok (some (text, told))) : ∀ change ∈ told, IsNote change := by
  unfold Docstring.apply at h
  split at h
  case h_1 => cases h
  case h_2 t ht =>
    obtain ⟨after, hfold, hafter⟩ := Except.bind_eq_ok.mp h
    have hnotes : ∀ change ∈ after.2, IsNote change := by
      refine foldlM_induction (P := fun state => ∀ change ∈ state.2, IsNote change) ?_ ?_ hfold
      · intro state doc state' _ hstate hstep
        rcases Docstring.formatOne_cases hstep with ⟨-, rfl⟩ | ⟨-, text, -, rfl⟩
        · exact hstate
        · intro change hchange
          rcases List.mem_append.mp hchange with hold | hnew
          · exact hstate change hold
          · rw [List.mem_singleton.mp hnew]
            exact .docstring doc.2 _ doc.1
      · nofun
    have hsome : (if after.1 = source then none else some after) = some (text, told) :=
      Except.ok.inj hafter
    split at hsome
    · cases hsome
    · cases hsome
      exact hnotes

/-- A step of formatting adds what it tells to the changes made before. -/
structure AddsPlain (step : List String → Except Fault (List Char × List String)) : Prop where
  adds : ∀ changes, step changes = (step []).map fun r => (r.1, changes ++ r.2)
  note : ∀ r, step [] = .ok r → ∀ change ∈ r.2, IsNote change

theorem AddsPlain.plain {step : List String → Except Fault (List Char × List String)}
    (h : AddsPlain step) : ∀ r, step [] = .ok r → ∀ change ∈ r.2, Plain change :=
  fun r hr change hchange => (h.note r hr change hchange).plain

theorem addsPlain_nothing (text : List Char) : AddsPlain fun changes => .ok (text, changes) := by
  refine ⟨fun changes => ?_, ?_⟩
  · exact congrArg (fun all => Except.ok (text, all)) (List.append_nil changes).symm
  · rintro r ⟨⟩
    nofun

theorem addsPlain_docstrings [Dialect] (s : Settings) (text : List Char) :
    AddsPlain (formatDocstrings s text) := by
  unfold formatDocstrings
  by_cases hon : s.docstrings = true
  · simp only [hon, if_true]
    cases happly : Docstring.apply text with
    | error f => exact ⟨fun _ => rfl, nofun⟩
    | ok formatted =>
      cases formatted with
      | none => exact addsPlain_nothing text
      | some r =>
        refine ⟨fun _ => rfl, ?_⟩
        rintro _ ⟨⟩
        exact isNote_of_apply happly
  · simp only [hon, Bool.false_eq_true, if_false]
    exact addsPlain_nothing text

theorem addsPlain_blankLines (s : Settings) (text : List Char) :
    AddsPlain (formatBlankLines s text) := by
  unfold formatBlankLines
  cases Layout.apply s text with
  | error f => exact ⟨fun _ => rfl, nofun⟩
  | ok spaced =>
    cases spaced with
    | none => exact addsPlain_nothing text
    | some new =>
      refine ⟨fun _ => rfl, ?_⟩
      rintro r ⟨⟩ change hchange
      rw [List.mem_singleton.mp hchange]
      exact .blankLines

theorem addsPlain_format [Dialect] (s : Settings) (text : List Char) :
    AddsPlain (format s text) := by
  have hdocstrings := addsPlain_docstrings s text
  constructor
  · intro changes
    unfold format
    rw [hdocstrings.adds changes]
    cases formatDocstrings s text [] with
    | error f => rfl
    | ok r =>
      change formatBlankLines s r.1 (changes ++ r.2) =
        (formatBlankLines s r.1 r.2).map fun q => (q.1, changes ++ q.2)
      rw [(addsPlain_blankLines s r.1).adds (changes ++ r.2),
        (addsPlain_blankLines s r.1).adds r.2]
      cases formatBlankLines s r.1 [] with
      | error f => rfl
      | ok q => exact congrArg (fun all => Except.ok (q.1, all)) (List.append_assoc _ _ _)
  · intro r hr
    obtain ⟨q, hq, hblank⟩ := Except.bind_eq_ok.mp hr
    replace hblank : formatBlankLines s q.1 q.2 = .ok r := hblank
    rw [(addsPlain_blankLines s q.1).adds q.2] at hblank
    cases hempty : formatBlankLines s q.1 [] with
    | error f =>
      rw [hempty] at hblank
      cases hblank
    | ok told =>
      rw [hempty] at hblank
      cases hblank
      intro change hchange
      rcases List.mem_append.mp hchange with hold | hnew
      · exact hdocstrings.note q hq change hold
      · exact (addsPlain_blankLines s q.1).note told hempty change hnew

/-- Whether the docstrings or the blank lines of a text change. -/
def isReformatted [Dialect] (s : Settings) (text : List Char) : Bool :=
  match format s text [] with
  | .ok (_, told) => !told.isEmpty
  | .error _ => false

/-! ### What names tell -/

theorem Tellable.unmarked {r : Element × String} (h : Tellable r) : Unmarked (describe r) := by
  have hlabel := (plain_kindWord h.label).noBracket
  have hold := (plain_of_spelled h.old).noBracket
  have hnew := (plain_of_spelled h.new).noBracket
  apply Text.occursIn_eq_false (by decide : '(' ∈ crossMark)
  unfold describe
  simp only [String.toList_append, List.mem_append, not_or]
  exact ⟨⟨⟨⟨⟨⟨by decide, hlabel⟩, by decide⟩, hold⟩, by decide⟩, hnew⟩, by decide⟩

/-- The changes of a file without a mark are those to names that the project leaves alone. -/
theorem exists_unmarked_combinedChanges {path : Path} {own : List (Element × String)}
    (hown : ∀ r ∈ own, Tellable r) :
    (∃ change ∈ combinedChanges m cross path own, Unmarked change) ↔
      ∃ r ∈ own, cross.contains r.1.name = false := by
  rw [combinedChanges_eq m cross path hown]
  constructor
  · rintro ⟨change, hchange, hunmarked⟩
    rcases List.mem_append.mp hchange with hlocal | hcross
    · obtain ⟨r, hr, rfl⟩ := List.mem_map.mp hlocal
      obtain ⟨hmem, hfree⟩ := List.mem_filter.mp hr
      exact ⟨r, hmem, by simpa using hfree⟩
    · obtain ⟨r, -, rfl⟩ := List.mem_map.mp hcross
      exact absurd hunmarked (not_unmarked_append _)
  · rintro ⟨r, hr, hfree⟩
    refine ⟨describe r, List.mem_append_left _ (List.mem_map_of_mem ?_), (hown r hr).unmarked⟩
    exact List.mem_filter.mpr ⟨hr, by simp [hfree]⟩

/-! ### Files that count as definitions -/

/-- The text of a file with the names that an engine gives. -/
def Engine.renamedText? [Dialect] (e : Engine) (d : Disk) (p : Path) : Option (List Char) :=
  match e.context, load d p with
  | some c, .ok (session, text, es) =>
    let names := combinedNames (renamings e.settings es) (Symbol.renamesIn c.plan p)
    if names.isEmpty then some text else (session.renamedText names).toOption
  | _, _ => none

def projectResult [Dialect] (s : Settings) (d : Disk) (root : Path) (paths : List Path) (p : Path) :
    FileResult :=
  ((projectEngine s d root paths).processFile d p).1

theorem files_processProject [Dialect] (s : Settings) (d : Disk) (root : Path) (paths : List Path) :
    ((Engine.start s (some (projectMap d root paths))).processProject d paths).2.1.files =
      paths.map (projectResult s d root paths) := by
  simp only [Engine.processProject, Engine.planned, Engine.start, Option.map_some, List.map_map]
  rfl

section Definitions

variable {s : Settings} {d : Disk} {root : Path} {paths : List Path} {p : Path}
variable {source : Source}

theorem combinedResult_eq_result (path : Path) (source : List Char)
    (r : Except Fault (List Char × List String)) :
    combinedResult path source r = result path source r := by
  unfold combinedResult result
  cases r with
  | error f => rfl
  | ok r =>
    dsimp only
    split
    case isFalse => rfl
    case isTrue h =>
      -- nothing is told and the text is the old one, so it does not matter which one is kept
      simp only [Bool.and_eq_true, List.isEmpty_iff, decide_eq_true_eq] at h
      rw [h.1, h.2]

/-- The changes of a file that could be processed: those of its names, and what formatting the
text with the new names tells. -/
theorem changes_processTogether [Dialect] (hsource : Source.ofFile d p = .ok source)
    (hsuccess : (processTogether s d m cross p).1.success = true) :
    ∃ text told, (if (combinedNames (renamings s (elements source.tree)) cross).isEmpty
          then some source.text
          else ((Session.keep source).renamedText
            (combinedNames (renamings s (elements source.tree)) cross)).toOption) = some text ∧
      (∃ code, format s text [] = .ok (code, told)) ∧
      (processTogether s d m cross p).1.changes =
        combinedChanges m cross p (renamings s (elements source.tree)) ++ told := by
  -- formatting adds what it tells to the changes that it is given
  have hresult {text : List Char} {changes : List String}
      (h : (result p source.text (format s text changes)).success = true) :
      ∃ told, (∃ code, format s text [] = .ok (code, told)) ∧
        (result p source.text (format s text changes)).changes = changes ++ told := by
    rw [(addsPlain_format s text).adds changes] at h ⊢
    cases hformat : format s text [] with
    | error f =>
      rw [hformat] at h
      cases h
    | ok r => exact ⟨r.2, ⟨r.1, rfl⟩, rfl⟩
  unfold processTogether at hsuccess ⊢
  rw [load_of_ok hsource] at hsuccess ⊢
  dsimp only at hsuccess ⊢
  generalize combinedNames (renamings s (elements source.tree)) cross = names at hsuccess ⊢
  by_cases hempty : names.isEmpty = true
  · rw [if_pos hempty, combinedResult_eq_result] at hsuccess
    rw [if_pos hempty, if_pos hempty, combinedResult_eq_result]
    obtain ⟨told, hformat, hchanges⟩ := hresult hsuccess
    exact ⟨source.text, told, rfl, hformat, hchanges⟩
  · rw [if_neg hempty] at hsuccess
    rw [if_neg hempty, if_neg hempty]
    cases hrenamed : (Session.keep source).renamedText names with
    | error f =>
      rw [hrenamed] at hsuccess
      cases hsuccess
    | ok renamed =>
      rw [hrenamed] at hsuccess
      dsimp only at hsuccess ⊢
      rw [combinedResult_eq_result] at hsuccess ⊢
      obtain ⟨told, hformat, hchanges⟩ := hresult hsuccess
      exact ⟨renamed, told, rfl, hformat, hchanges⟩

theorem changes_projectResult [Dialect] (hsource : Source.ofFile d p = .ok source)
    (hsuccess : (projectResult s d root paths p).success = true) :
    ∃ text told, (projectEngine s d root paths).renamedText? d p = some text ∧
      (∃ code, format s text [] = .ok (code, told)) ∧
      (projectResult s d root paths p).changes =
        combinedChanges (projectMap d root paths)
          (Symbol.renamesIn ((projectMap d root paths).plan s) p) p
          (renamings s (elements source.tree)) ++ told := by
  obtain ⟨text, told, htext, htold⟩ := changes_processTogether hsource hsuccess
  refine ⟨text, told, ?_, htold⟩
  unfold Engine.renamedText?
  rw [load_of_ok hsource]
  exact htext

theorem get?_renameMap_ne_none (rs : List (Element × String)) (x : String) :
    (renameMap rs).get? x ≠ none ↔ ∃ r ∈ rs, r.1.name = x := by
  constructor
  · intro hgiven
    obtain ⟨new, hnew⟩ := Option.ne_none_iff_exists'.mp hgiven
    obtain ⟨r, hr, heq⟩ := List.mem_map.mp (Table.mem_of_get?_ofList hnew)
    exact ⟨r, hr, (Prod.mk.inj heq).1⟩
  · rintro ⟨r, hr, rfl⟩ hnone
    rw [renameMap, Table.get?_ofList, List.lookup_eq_none_iff] at hnone
    have hne := hnone (r.1.name, r.2) (List.mem_reverse.mpr (List.mem_map_of_mem hr))
    simp at hne

/-- A name that a file gives for itself is one of its renamings, and every renaming gives one. -/
theorem exists_renaming_iff [Dialect] (hsource : Source.ofFile d p = .ok source) (x : String) :
    ownName? s d p x ≠ none ↔ ∃ r ∈ renamings s (elements source.tree), r.1.name = x := by
  unfold ownName?
  rw [load_of_ok hsource]
  exact get?_renameMap_ne_none _ x

theorem exists_source_of_success [Dialect] (h : (processTogether s d m cross p).1.success = true) :
    ∃ source, Source.ofFile d p = .ok source := by
  cases hsource : Source.ofFile d p with
  | ok source => exact ⟨source, rfl⟩
  | error f =>
    unfold processTogether at h
    rw [load_of_error hsource] at h
    cases h

/-- A file that could be processed counts as a definition exactly if it gives a name that the
project does not plan, or if its docstrings or blank lines change. -/
theorem definition_iff_unplanned_or_reformatted [Dialect]
    (hfault : (SymbolMap.empty.analyze d root paths).fault = none) (hp : p ∈ paths)
    (hsuccess : (projectResult s d root paths p).success = true) :
    isDefinition (projectResult s d root paths p) = true ↔
      (∃ x, ownName? s d p x ≠ none ∧ (projectMap d root paths).plannedName? s x = none) ∨
        ∃ text, (projectEngine s d root paths).renamedText? d p = some text ∧
          isReformatted s text = true := by
  obtain ⟨source, hsource⟩ := exists_source_of_success hsuccess
  have htellable := tellable_of_mem_renamings (s := s) hsource
  obtain ⟨text, told, htext, ⟨code, hformat⟩, hchanges⟩ := changes_projectResult hsource hsuccess
  have htold : (∃ change ∈ told, Unmarked change) ↔ isReformatted s text = true := by
    have hall := (addsPlain_format s text).plain (code, told) hformat
    rw [isReformatted, hformat]
    cases told with
    | nil => simp
    | cons change rest =>
      simpa using .inl (unmarked_of_plain (hall change List.mem_cons_self))
  have hown : (∃ r ∈ renamings s (elements source.tree),
      (Symbol.renamesIn ((projectMap d root paths).plan s) p).contains r.1.name = false) ↔
      ∃ x, ownName? s d p x ≠ none ∧ (projectMap d root paths).plannedName? s x = none := by
    have hcross (x : String) (hx : ownName? s d p x ≠ none) :
        (Symbol.renamesIn ((projectMap d root paths).plan s) p).contains x = false ↔
          (projectMap d root paths).plannedName? s x = none := by
      -- the file is one of those that know the name
      obtain ⟨new, hnew⟩ := Option.ne_none_iff_exists'.mp hx
      have hknown := mem_filesWith_of_ownName? hfault hp hnew
      have hplan (planned : String) :
          (Symbol.renamesIn ((projectMap d root paths).plan s) p).get? x = some planned ↔
            (projectMap d root paths).plannedName? s x = some planned :=
        (SymbolMap.get?_renamesIn_plan (tidy_projectMap hfault)).trans (and_iff_right hknown)
      rw [Table.contains, Option.isSome_eq_false_iff, Option.isNone_iff_eq_none]
      exact Option.eq_none_iff_forall_ne_some.trans
        ((forall_congr' fun planned => not_congr (hplan planned)).trans
          Option.eq_none_iff_forall_ne_some.symm)
    constructor
    · rintro ⟨r, hr, hfree⟩
      have hgiven := (exists_renaming_iff hsource r.1.name).mpr ⟨r, hr, rfl⟩
      exact ⟨r.1.name, hgiven, (hcross _ hgiven).mp hfree⟩
    · rintro ⟨x, hgiven, hplanned⟩
      obtain ⟨r, hr, rfl⟩ := (exists_renaming_iff hsource x).mp hgiven
      exact ⟨r, hr, (hcross _ hgiven).mpr hplanned⟩
  rw [isDefinition_iff, hchanges]
  simp only [List.mem_append, or_and_right, exists_or]
  rw [exists_unmarked_combinedChanges htellable, hown, htold, htext]
  simp

end Definitions

theorem definition_iff_unplanned_or_reformatted_sample :
    (projectResult .usual shapeProject ⟨"", []⟩ shapePaths ⟨"", ["uses.py"]⟩).success = true ∧
      (isDefinition (projectResult .usual shapeProject ⟨"", []⟩ shapePaths ⟨"", ["uses.py"]⟩) =
          true ↔
        (∃ x, ownName? .usual shapeProject ⟨"", ["uses.py"]⟩ x ≠ none ∧
            (projectMap shapeProject ⟨"", []⟩ shapePaths).plannedName? .usual x = none) ∨
          ∃ text, (projectEngine .usual shapeProject ⟨"", []⟩ shapePaths).renamedText? shapeProject
            ⟨"", ["uses.py"]⟩ = some text ∧ isReformatted .usual text = true) :=
  have hsuccess : (projectResult .usual shapeProject ⟨"", []⟩ shapePaths
      ⟨"", ["uses.py"]⟩).success = true := by
    decide +kernel
  ⟨hsuccess, definition_iff_unplanned_or_reformatted (by decide +kernel) (by decide) hsuccess⟩

def singleProject : Disk :=
  ⟨.dir .directory [("names.py", .file .file (Text.encode "def oldName(): pass\n".toList))],
    false, some []⟩

/-- The function is defined in the file and gets its new name there, and still the file does not
count as a definition, because the project plans the name and so its change has the mark. -/
theorem planned_definition_marked :
    (∃ found ∈ Index.all (projectMap singleProject ⟨"", []⟩ [⟨"", ["names.py"]⟩]).definitions
        "oldName", found.path = ⟨"", ["names.py"]⟩) ∧
      (projectEngine .usual singleProject ⟨"", []⟩ [⟨"", ["names.py"]⟩]).givenName? singleProject
        ⟨"", ["names.py"]⟩ "oldName" = some "old_name" ∧
      (projectResult .usual singleProject ⟨"", []⟩ [⟨"", ["names.py"]⟩]
        ⟨"", ["names.py"]⟩).changes =
        ["Renamed function 'oldName' to 'old_name' (cross-file)"] ∧
      isDefinition (projectResult .usual singleProject ⟨"", []⟩ [⟨"", ["names.py"]⟩]
        ⟨"", ["names.py"]⟩) = false := by
  decide +kernel

end Project

end Restyle
