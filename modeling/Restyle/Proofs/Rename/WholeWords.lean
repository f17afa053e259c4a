import Restyle.Proofs.Rename.Words
import Restyle.Source.Session

/-!
Renaming in text as one substitution. The names of a map are replaced in many passes, each over
what the earlier ones left. A text and its renamed form are related here without any passes: the
text is read once, piece by piece, and a whole word that is an old name gives way to its new name.
The main statement says that the passes do just this, in whatever order the entries stand.
-/

namespace Restyle.Rename

open Text (isWordChar pieces Apart IsRun)

variable {m : NameMap} {s t : List Char}

/-- A text, and the text with new names in the places of the old ones. Words are as long as they
can be: what follows one does not go on with a word character. -/
inductive Substituted (m : NameMap) : List Char → List Char → Prop
  | nil : Substituted m [] []
  | other {c : Char} {s t : List Char} (hc : isWordChar c = false) (hrest : Substituted m s t) :
      Substituted m (c :: s) (c :: t)
  | known {old new : String} {s t : List Char} (hold : IsRun isWordChar old.toList)
      (hentry : (old, new) ∈ m.entries) (hend : Apart isWordChar s) (hrest : Substituted m s t) :
      Substituted m (old.toList ++ s) (new.toList ++ t)
  | kept {w s t : List Char} (hw : IsRun isWordChar w) (hnone : String.ofList w ∉ m.keys)
      (hend : Apart isWordChar s) (hrest : Substituted m s t) : Substituted m (w ++ s) (w ++ t)

/-! ### New names of pieces -/

section

variable (hold : ∀ r ∈ m.entries, IsRun isWordChar r.1.toList)

include hold

theorem applyWord_other {c : Char} (hc : isWordChar c = false) : m.applyWord [c] = [c] := by
  refine applyWord_of_not_mem fun hmem => ?_
  obtain ⟨r, hr, hname⟩ := List.mem_map.mp hmem
  have hchar : c ∈ r.1.toList := by
    rw [hname, String.toList_ofList]
    exact List.mem_singleton_self c
  rw [(hold r hr).all c hchar] at hc
  cases hc

/-! ### The one substitution -/

/-- Every text has a renamed form: the pieces with their new names. -/
theorem substituted_flatMap (hkeys : m.keys.Nodup) (s : List Char) :
    Substituted m s ((pieces isWordChar s).flatMap m.applyWord) := by
  induction s using Text.pieces_induction isWordChar with
  | nil => exact .nil
  | other c s hc ih =>
    rw [Text.pieces_cons hc, List.flatMap_cons, applyWord_other hold hc]
    exact .other hc ih
  | run w s hw hend ih =>
    rw [Text.pieces_run_append hw hend, List.flatMap_cons]
    by_cases hmem : String.ofList w ∈ m.keys
    · obtain ⟨⟨old, new⟩, hentry, hname⟩ := List.mem_map.mp hmem
      obtain rfl : w = old.toList := by
        rw [show old = String.ofList w from hname, String.toList_ofList]
      rw [applyWord_of_mem hkeys hentry]
      exact .known hw hentry hend ih
    · rw [applyWord_of_not_mem hmem]
      exact .kept hw hmem hend ih

/-- The renamed form is determined by the text. -/
theorem Substituted.eq_flatMap (hkeys : m.keys.Nodup) (h : Substituted m s t) :
    t = (pieces isWordChar s).flatMap m.applyWord := by
  induction h with
  | nil => rfl
  | other hc _ ih =>
    rw [Text.pieces_cons hc, List.flatMap_cons, applyWord_other hold hc, ← ih,
      List.singleton_append]
  | known hrun hentry hend _ ih =>
    rw [Text.pieces_run_append hrun hend, List.flatMap_cons, applyWord_of_mem hkeys hentry, ← ih]
  | kept hw hnone hend _ ih =>
    rw [Text.pieces_run_append hw hend, List.flatMap_cons, applyWord_of_not_mem hnone, ← ih]

theorem substituted_iff (hkeys : m.keys.Nodup) :
    Substituted m s t ↔ t = (pieces isWordChar s).flatMap m.applyWord :=
  ⟨fun h => h.eq_flatMap hold hkeys, fun h => h ▸ substituted_flatMap hold hkeys s⟩

end

/-! ### Entries in another order -/

/-- Which text is a renamed form depends only on which entries there are. -/
theorem Substituted.of_perm {m' : NameMap} (hperm : m'.entries.Perm m.entries)
    (h : Substituted m s t) : Substituted m' s t := by
  induction h with
  | nil => exact .nil
  | other hc _ ih => exact .other hc ih
  | known hrun hentry hend _ ih => exact .known hrun (hperm.mem_iff.mpr hentry) hend ih
  | kept hw hnone hend _ ih =>
    refine .kept hw (fun hmem => hnone ?_) hend ih
    exact (hperm.map Prod.fst).mem_iff.mp hmem

/-- For words as old and new names, no new name being an old one, renaming in text gives the one
text in which all whole words that are old names are replaced at once. It gives the same text
however the entries of the map are ordered, and so does a session that holds the text. -/
theorem renameWords_simultaneous (hkeys : m.keys.Nodup) (hwords : WordMap m.entries)
    (s : List Char) :
    ∃ t, renameWords m s = .ok t ∧ (∀ t', Substituted m s t' ↔ t' = t) ∧
      (∀ m' : NameMap, m'.entries.Perm m.entries → renameWords m' s = .ok t) ∧
      ∀ session : Session, session.text = .ok s → session.renamedText m = .ok t := by
  have hrun := renameWords_eq_flatMap hwords hkeys s
  refine ⟨_, hrun, fun t' => substituted_iff hwords.old hkeys, ?_, ?_⟩
  · intro m' hperm
    have hkeys' : m'.keys.Nodup := (hperm.map Prod.fst).nodup_iff.mpr hkeys
    have hwords' : WordMap m'.entries := hwords.of_subset hperm.subset
    have hsame : Substituted m' s ((pieces isWordChar s).flatMap m.applyWord) :=
      (substituted_flatMap hwords.old hkeys s).of_perm hperm
    rw [renameWords_eq_flatMap hwords' hkeys', hsame.eq_flatMap hwords'.old hkeys']
  · intro session htext
    rw [Session.renamedText, htext]
    dsimp only [bind, Except.bind]
    rw [hrun]
    rfl

def nestedNames : NameMap := ⟨[("get", "read"), ("get_all", "read_all")]⟩

theorem renameWords_simultaneous_sample :
    renameWords nestedNames "get(x).get_all  # get_all2".toList =
      .ok "read(x).read_all  # get_all2".toList := by
  have hkeys : nestedNames.keys.Nodup := by decide
  have hwords : WordMap nestedNames.entries := by decide +kernel
  obtain ⟨t, hrun, ht, -⟩ :=
    renameWords_simultaneous hkeys hwords "get(x).get_all  # get_all2".toList
  rw [hrun, ← (ht _).mp (substituted_flatMap hwords.old hkeys _)]
  decide +kernel

end Restyle.Rename
