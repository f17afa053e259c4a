import Restyle.Proofs.Project.Marks

/-!
Reading the changes of a file back. A file is processed with its own new names and those that the
project plans, and the changes of the result are all that is left of them. The main statement says
that nothing is lost: the names read back from the changes are those that got a new name, whatever
else is told.
-/

namespace Restyle.Project

open Disk (Path)
open Restyle.Symbol (SymbolMap Definition)
open Naming (Spelled)
open Text (singleQuote)
open Review (changedNames)

section Planned

variable [Dialect] {s : Settings} {d : Disk} {root : Path} {paths : List Path} {x new : String}
  (hfault : (SymbolMap.empty.analyze d root paths).fault = none)

include hfault

theorem exists_source_of_definition {found : Definition}
    (h : found ∈ Index.all (projectMap d root paths).definitions x) :
    ∃ p source, Source.ofFile d p = .ok source ∧ found.element ∈ elements source.tree := by
  rw [projectMap, (Symbol.adds_analyze hfault).definitions] at h
  obtain ⟨p, -, hfound⟩ := List.mem_flatMap.mp (List.mem_filter.mp h).1
  unfold Symbol.definitionsOf at hfound
  split at hfound
  case h_1 source hsource =>
    obtain ⟨e, he, rfl⟩ := List.mem_map.mp hfound
    exact ⟨p, source, hsource, he⟩
  case h_2 => cases hfound

theorem kindIn_mem_kindWords (name : String) (p : Path) :
    (projectMap d root paths).kindIn name p ∈ kindWords := by
  unfold SymbolMap.kindIn
  split
  case h_1 found hfound =>
    obtain ⟨q, source, -, he⟩ :=
      exists_source_of_definition hfault (List.mem_of_find?_eq_some hfound)
    exact label_mem_kindWords (known_of_mem_elements he)
  case h_2 =>
    dsimp only
    cases hsome : List.findSome? _ _ with
    | none => decide
    | some word =>
      obtain ⟨u, -, hword⟩ := List.exists_of_findSome?_eq_some hsome
      split at hword
      · cases hword
        decide
      · split at hword
        · cases hword
          decide
        · cases hword

theorem spelled_of_planned
    (h : (projectMap d root paths).plannedName? s x = some new) : Spelled x ∧ Spelled new := by
  obtain ⟨found, hfound, hnew⟩ := Option.bind_eq_some_iff.mp h
  have hmem := Symbol.mem_of_primary? hfound
  obtain ⟨p, source, hsource, he⟩ := exists_source_of_definition hfault hmem
  have hname := spelled_of_mem_elements hsource found.element he
  refine ⟨?_, spelled_newName? hname hnew⟩
  rwa [(tidy_projectMap hfault).names x found hmem] at hname

theorem tells_describeCross {p : Path} {r : String × String}
    (hr : r ∈ (Symbol.renamesIn ((projectMap d root paths).plan s) p).entries) :
    Tells (describeCross (projectMap d root paths) p r) ((projectMap d root paths).kindIn r.1 p)
      r.1 r.2 " (cross-file)".toList := by
  have hget := (Table.get?_eq_some_iff_mem (Table.nodup_keys_ofList _)).mpr hr
  obtain ⟨hold, hnew⟩ := spelled_of_planned hfault
    ((SymbolMap.get?_renamesIn_plan (tidy_projectMap hfault)).mp hget).2
  refine ⟨?_, kindIn_mem_kindWords hfault r.1 p, hold, hnew, by decide⟩
  have hwording : describeCross (projectMap d root paths) p r =
      "Renamed " ++ (projectMap d root paths).kindIn r.1 p ++ " '" ++ r.1 ++ "' to '" ++ r.2 ++
        "' (cross-file)" := rfl
  rw [hwording]
  simp [quotedNames, singleQuote]

/-- The change of a planned name can be read back. -/
theorem changedName?_describeCross {p : Path} {r : String × String}
    (hr : r ∈ (Symbol.renamesIn ((projectMap d root paths).plan s) p).entries) :
    changedName? (describeCross (projectMap d root paths) p r) = some r.1 :=
  (tells_describeCross hfault hr).changedName?

end Planned

/-- The names read back from changes that can all be read back: the keys of the two maps that the
changes come from. -/
theorem mem_filterMap_combinedChanges {m : SymbolMap} {cross : NameMap} {path : Path}
    {own : List (Element × String)} (hown : ∀ r ∈ own, Tellable r)
    (hcross : ∀ r ∈ cross.entries, changedName? (describeCross m path r) = some r.1)
    (x : String) :
    x ∈ (combinedChanges m cross path own).filterMap changedName? ↔
      cross.get? x ≠ none ∨ ∃ r ∈ own, r.1.name = x := by
  have hkeys : x ∈ (cross.entries.map (describeCross m path)).filterMap changedName? ↔
      cross.get? x ≠ none := by
    rw [List.filterMap_map, List.mem_filterMap, Table.get?, ne_eq, List.lookup_eq_none_iff]
    constructor
    · rintro ⟨r, hr, hx⟩ hnone
      rw [Function.comp_apply, hcross r hr] at hx
      have hne := hnone r hr
      simp [Option.some.inj hx] at hne
    · intro hne
      simp only [not_forall] at hne
      obtain ⟨r, hr, heq⟩ := hne
      have hx : x = r.1 := by simpa using heq
      exact ⟨r, hr, by rw [Function.comp_apply, hcross r hr, hx]⟩
  have hlocal : x ∈ ((own.filter fun r => !cross.contains r.1.name).map describe).filterMap
      changedName? ↔ cross.get? x = none ∧ ∃ r ∈ own, r.1.name = x := by
    rw [List.filterMap_map, List.mem_filterMap]
    constructor
    · rintro ⟨r, hr, hx⟩
      obtain ⟨hmem, hfree⟩ := List.mem_filter.mp hr
      rw [Function.comp_apply, (hown r hmem).changedName?] at hx
      obtain rfl := Option.some.inj hx
      exact ⟨by simpa [Table.contains] using hfree, r, hmem, rfl⟩
    · rintro ⟨hnone, r, hr, rfl⟩
      refine ⟨r, List.mem_filter.mpr ⟨hr, by simp [Table.contains, hnone]⟩, ?_⟩
      exact (hown r hr).changedName?
  rw [combinedChanges_eq m cross path hown, List.filterMap_append, List.mem_append, hkeys, hlocal]
  by_cases h : cross.get? x = none <;> simp [h]

/-- The names read back from the changes of a file are those that got a new name in it. -/
theorem mem_changedNames_iff_given [Dialect] {s : Settings} {d d' : Disk} {root : Path}
    {paths : List Path} {p : Path} (hfault : (SymbolMap.empty.analyze d root paths).fault = none)
    (hsuccess : ((projectEngine s d root paths).processFile d' p).1.success = true) (x : String) :
    x ∈ changedNames ((projectEngine s d root paths).processFile d' p).1 ↔
      (projectEngine s d root paths).givenName? d' p x ≠ none := by
  obtain ⟨source, hsource⟩ := exists_source_of_success hsuccess
  obtain ⟨text, told, -, ⟨code, hformat⟩, hchanges⟩ := changes_processTogether hsource hsuccess
  -- what formatting tells is about no name
  have htold : told.filterMap changedName? = [] := by
    rw [List.filterMap_eq_nil_iff]
    intro change hchange
    exact changedName?_eq_none
      ((addsPlain_format s text).plain (code, told) hformat change hchange).noQuote
  have hread : x ∈ changedNames ((projectEngine s d root paths).processFile d' p).1 ↔
      (Symbol.renamesIn ((projectMap d root paths).plan s) p).get? x ≠ none ∨
        ∃ r ∈ renamings s (elements source.tree), r.1.name = x := by
    rw [changedNames]
    refine (congrArg (fun all => x ∈ all.filterMap changedName?) hchanges).to_iff.trans ?_
    rw [List.filterMap_append, htold, List.append_nil]
    exact mem_filterMap_combinedChanges (tellable_of_mem_renamings hsource)
      (fun r hr => changedName?_describeCross hfault hr) x
  rw [hread, givenName?_projectEngine hsource, ← exists_renaming_iff hsource]
  simp only [ne_eq, Option.or_eq_none_iff, not_and_or]

/-- A project with a class, and a file that imports the class, uses its name for a variable and has
a docstring. -/
def describedProject : Disk :=
  ⟨.dir .directory
    [("shapes.py", .file .file (Text.encode "class Shape: pass\n".toList)),
      ("uses.py", .file .file (Text.encode
        "\"\"\"uses\"\"\"\nfrom shapes import Shape\nShape = Shape()\n".toList))], false, some []⟩

theorem mem_changedNames_iff_given_sample :
    ((projectEngine .usual describedProject ⟨"", []⟩ shapePaths).processFile describedProject
        ⟨"", ["uses.py"]⟩).1.changes =
      ["Renamed variable 'Shape' to 'shape'",
        "Formatted docstring at line 1: capitalized first letter and added period"] ∧
      ("Shape" ∈ changedNames ((projectEngine .usual describedProject ⟨"", []⟩
          shapePaths).processFile describedProject ⟨"", ["uses.py"]⟩).1 ↔
        (projectEngine .usual describedProject ⟨"", []⟩ shapePaths).givenName? describedProject
          ⟨"", ["uses.py"]⟩ "Shape" ≠ none) :=
  ⟨by decide +kernel, mem_changedNames_iff_given (by decide +kernel) (by decide +kernel) "Shape"⟩

end Restyle.Project
