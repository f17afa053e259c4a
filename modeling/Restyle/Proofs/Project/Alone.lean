import Restyle.Proofs.Project.Marks

/-!
Files that are processed for themselves. New names have no backslashes, so replacing old names by
them never fails. The main statement says that a file for which a project plans no names is
processed as it would be without the project, whether this succeeds or fails.
-/

namespace Restyle

namespace Rename

theorem exists_replaceAll (p : Pattern) {new : List Char} (h : '\\' ∉ new) (s : List Char) :
    ∃ text, replaceAll p new s = .ok text := by
  unfold replaceAll Pattern.replaceAll
  rw [Template.parse_text h]
  exact ⟨_, rfl⟩

theorem exists_renameWord (old : List Char) {new : List Char} (h : '\\' ∉ new) (s : List Char) :
    ∃ text, renameWord old new s = .ok text := by
  have hdotted : '\\' ∉ '.' :: new := by simpa using h
  obtain ⟨words, hwords⟩ := exists_replaceAll (Pattern.word old) h s
  obtain ⟨text, htext⟩ := exists_replaceAll (attributePattern old) hdotted words
  refine ⟨text, ?_⟩
  rw [renameWord, hwords]
  exact htext

theorem exists_renameWords {names : NameMap} (h : ∀ r ∈ names.entries, '\\' ∉ r.2.toList)
    (s : List Char) : ∃ text, renameWords names s = .ok text := by
  have hsorted : ∀ r ∈ names.longestFirst, '\\' ∉ r.2.toList :=
    fun r hr => h r (List.mem_mergeSort.mp hr)
  unfold renameWords
  generalize names.longestFirst = rs at hsorted ⊢
  induction rs generalizing s with
  | nil => exact ⟨s, rfl⟩
  | cons r rest ih =>
    obtain ⟨next, hnext⟩ := exists_renameWord r.1.toList (hsorted r List.mem_cons_self) s
    rw [List.foldlM_cons]
    dsimp only
    rw [hnext]
    exact ih next fun q hq => hsorted q (List.mem_cons_of_mem r hq)

end Rename

namespace Project

open Disk (Path)
open Restyle.Symbol (SymbolMap)

theorem noBackslash_of_spelled {name : String} (h : Naming.Spelled name) :
    '\\' ∉ name.toList := fun hmem => absurd (h.chars _ hmem) (by decide)

/-- A loaded text can be given all names that are spelled as names are. -/
theorem exists_renamedText (source : Source) {names : NameMap}
    (h : ∀ r ∈ names.entries, Naming.Spelled r.2) :
    ∃ text, (Session.keep source).renamedText names = .ok text := by
  obtain ⟨text, htext⟩ := Rename.exists_renameWords
    (fun r hr => noBackslash_of_spelled (h r hr)) source.text
  have hloaded : (Session.keep source).text = .ok source.text := rfl
  refine ⟨text, ?_⟩
  unfold Session.renamedText
  rw [hloaded]
  dsimp only [bind, Except.bind]
  rw [htext]
  rfl

theorem spelled_renameMap {own : List (Element × String)} (hown : ∀ r ∈ own, Tellable r) :
    ∀ r ∈ (renameMap own).entries, Naming.Spelled r.2 := by
  intro r hr
  have hget := (Table.get?_eq_some_iff_mem (Table.nodup_keys_ofList _)).mpr hr
  obtain ⟨q, hq, heq⟩ := List.mem_map.mp (Table.mem_of_get?_ofList hget)
  have hnew : q.2 = r.2 := (Prod.mk.inj heq).2
  exact hnew ▸ (hown q hq).new

theorem isEmpty_renameMap_cons (r : Element × String) (rs : List (Element × String)) :
    (renameMap (r :: rs)).isEmpty = false := by
  have hne := (get?_renameMap_ne_none (r :: rs) r.1.name).mpr ⟨r, List.mem_cons_self, rfl⟩
  unfold Table.isEmpty
  cases hentries : (renameMap (r :: rs)).entries with
  | nil => simp [Table.get?, hentries] at hne
  | cons entry rest => rfl

/-- If the project plans no names, the changes of a file are those of its own names. -/
theorem combinedChanges_empty (m : SymbolMap) (path : Path) {own : List (Element × String)}
    (hown : ∀ r ∈ own, Tellable r) : combinedChanges m .empty path own = own.map describe := by
  have hall : (own.filter fun r => !(Table.empty : NameMap).contains r.1.name) = own :=
    List.filter_eq_self.mpr fun _ _ => rfl
  rw [combinedChanges_eq m .empty path hown, hall]
  exact List.append_nil _

/-- A file for which the project plans no names is processed as it would be for itself. -/
theorem processTogether_empty_eq_alone [Dialect] (s : Settings) (d : Disk) (m : SymbolMap)
    (path : Path) : (processTogether s d m .empty path).1 = (processAlone s d path).1 := by
  unfold processTogether processAlone
  cases hsource : Source.ofFile d path with
  | error f =>
    rw [load_of_error hsource]
  | ok source =>
    rw [load_of_ok hsource]
    have hown := tellable_of_mem_renamings (s := s) hsource
    have hnames (own : List (Element × String)) : combinedNames own .empty = renameMap own := rfl
    dsimp only
    rw [combinedChanges_empty m path hown, hnames]
    unfold namingStep
    cases hrenamings : renamings s (elements source.tree) with
    | nil => exact combinedResult_eq_result _ _ _
    | cons r rs =>
      rw [hrenamings] at hown
      -- the two ways would tell a failure differently, but there is none
      obtain ⟨text, htext⟩ := exists_renamedText source (spelled_renameMap hown)
      dsimp only
      rw [isEmpty_renameMap_cons, if_neg Bool.false_ne_true, htext]
      dsimp only
      rw [combinedResult_eq_result]
      change _ = result path source.text
        (format s (String.ofList text).toList ((r :: rs).map describe))
      rw [String.toList_ofList]

end Project

end Restyle
