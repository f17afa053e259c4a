import Restyle.Proofs.Rename.Usages

/-!
What is told about the uses of names. The number is computed from how often both names are there
before and after a change: the new names that were there before are counted in, and the replaced
ones out. So what is told is how often the new name was there, and of a new name that was nowhere
nothing is told.
-/

namespace Restyle.Rename

open Text (isWordChar pieces IsRun)
open Pattern (swap)

variable {r : String × String} {s : List Char} {told : List String}

/-- How often a name is a word of a text. -/
def uses (s : List Char) (name : String) : Nat := (pieces isWordChar s).count name.toList

def tellUses (n : Nat) (r : String × String) : String :=
  s!"Updated {n} usage(s) of '{r.1}' to '{r.2}'"

def reports (count : String × String → Nat) (rs : List (String × String)) : List String :=
  rs.flatMap fun r => if count r = 0 then [] else [tellUses (count r) r]

/-- What renaming counts: if the old name is in the text, how often the new one is. -/
def countedUses (s : List Char) (r : String × String) : Nat :=
  if uses s r.1 = 0 then 0 else uses s r.2

/-! ### Counts -/

theorem uses_swapped (hold : isWordName r.1 = true) (hnew : isWordName r.2 = true)
    (hne : r.2 ≠ r.1) (s : List Char) (x : String) : uses (swapped r s) x =
      if x = r.1 then 0 else if x = r.2 then uses s r.1 + uses s r.2 else uses s x := by
  have hchars : r.2.toList ≠ r.1.toList := mt String.toList_inj.mp hne
  simp only [uses, pieces_swapped hold hnew, ← String.toList_inj]
  induction pieces isWordChar s with
  | nil => simp
  | cons v vs ih =>
    rw [List.map_cons, List.count_cons, ih]
    grind [swap]

theorem swapped_ne_iff (hold : isWordName r.1 = true) (hnew : isWordName r.2 = true)
    (hne : r.2 ≠ r.1) : swapped r s ≠ s ↔ uses s r.1 ≠ 0 := by
  refine not_congr ⟨fun heq => ?_, fun hzero => swapped_of_not_mem (List.count_eq_zero.mp hzero)⟩
  rw [← heq, uses_swapped hold hnew hne, if_pos rfl]

theorem usageGain_swapped (hold : isWordName r.1 = true) (hnew : isWordName r.2 = true)
    (hne : r.2 ≠ r.1) :
    usageGain r.1.toList r.2.toList s (swapped r s) = uses s r.2 := by
  have hcount {x : String} (hx : isWordName x = true) (t : List Char) :
      wordCount x.toList t = uses t x := wordCount_eq (isRun_of_isWordName hx) t
  rw [usageGain, hcount hnew, hcount hold, hcount hold, uses_swapped hold hnew hne,
    uses_swapped hold hnew hne, if_neg hne, if_pos rfl, if_pos rfl]
  omega

/-! ### Reports -/

theorem tellUses_inj {n k : Nat} (h : tellUses n r = tellUses k r) : n = k := by
  have hchars := congrArg String.toList h
  simp only [tellUses, String.toList_append, List.append_cancel_right_eq,
    List.append_cancel_left_eq] at hchars
  have hdigits : Nat.toDigits 10 n = Nat.toDigits 10 k := by
    simpa [toString, Nat.repr] using hchars
  simpa using congrArg (fun digits => Nat.ofDigitChars 10 digits 0) hdigits

/-- If a count is nothing wherever another one is, the same is told for both exactly if they
agree. -/
theorem reports_eq_iff {f g : String × String → Nat} (h : ∀ r, g r = 0 → f r = 0)
    (rs : List (String × String)) : reports f rs = reports g rs ↔ ∀ r ∈ rs, f r = g r := by
  have hlength (rs : List (String × String)) : (reports f rs).length ≤ (reports g rs).length := by
    unfold reports
    induction rs with
    | nil => exact Nat.le_refl _
    | cons r rs ih => grind
  induction rs with
  | nil => simp [reports]
  | cons r rs ih =>
    have hlonger (x : String) : reports f rs ≠ x :: reports g rs := fun heq => by
      have hle := hlength rs
      rw [heq, List.length_cons] at hle
      omega
    have hcons (count : String × String → Nat) : reports count (r :: rs) =
        (if count r = 0 then [] else [tellUses (count r) r]) ++ reports count rs := rfl
    rw [List.forall_mem_cons, hcons, hcons]
    by_cases hg : g r = 0
    · simpa [hg, h r hg] using ih
    · by_cases hf : f r = 0
      · simp [hg, hf, hlonger, Ne.symm hg]
      · simp only [hg, hf, if_false, List.singleton_append, List.cons.injEq, ih]
        exact and_congr_left' ⟨tellUses_inj, congrArg (tellUses · r)⟩

theorem renameUsage_told (hold : isWordName r.1 = true) (hnew : isWordName r.2 = true)
    (hne : r.2 ≠ r.1) :
    renameUsage (s, told) r.1 r.2 = .ok (swapped r s, told ++ reports (countedUses s) [r]) := by
  have hchanged := @swapped_ne_iff r s hold hnew hne
  rw [renameUsage_eq hold hnew, usageGain_swapped hold hnew hne]
  by_cases hzero : uses s r.1 = 0
  · rw [if_neg fun h => hchanged.mp h.1 hzero]
    simp [reports, countedUses, hzero]
  · by_cases hnone : uses s r.2 = 0
    · simp [reports, countedUses, hzero, hnone]
    · have hpos : (uses s r.2 : Int) > 0 := by omega
      rw [if_pos ⟨hchanged.mpr hzero, hpos⟩]
      simp only [reports, countedUses, List.flatMap_cons, List.flatMap_nil, hzero, hnone, if_false,
        List.append_nil]
      rfl

/-- What is told about all names. Renaming one name changes no count of another one. -/
theorem exists_foldlM_reports {rs : List (String × String)} (h : WordNames rs)
    (hkeys : (rs.map (·.1)).Nodup) (hvalues : (rs.map (·.2)).Nodup)
    (hapart : ∀ r ∈ rs, ∀ q ∈ rs, r.2 ≠ q.1) :
    ∃ t, rs.foldlM (fun state r => renameUsage state r.1 r.2) (s, told) =
      .ok (t, told ++ reports (countedUses s) rs) := by
  induction rs generalizing s told with
  | nil => exact ⟨s, by simp [reports]; rfl⟩
  | cons r rs ih =>
    obtain ⟨hold, hnew⟩ := h r List.mem_cons_self
    obtain ⟨hfirst, hkeys⟩ := List.nodup_cons.mp hkeys
    obtain ⟨hfirst', hvalues⟩ := List.nodup_cons.mp hvalues
    obtain ⟨⟨hne, hfresh⟩, hapart⟩ : (r.2 ≠ r.1 ∧ ∀ q ∈ rs, r.2 ≠ q.1) ∧
        ∀ q ∈ rs, q.2 ≠ r.1 ∧ ∀ p ∈ rs, q.2 ≠ p.1 := by
      simpa only [List.forall_mem_cons] using hapart
    obtain ⟨t, ht⟩ := @ih (swapped r s) (told ++ reports (countedUses s) [r])
      (fun q hq => h q (List.mem_cons_of_mem r hq)) hkeys hvalues fun q hq => (hapart q hq).2
    have hcount (q : String × String) (hq : q ∈ rs) :
        countedUses (swapped r s) q = countedUses s q := by
      have hkey : q.1 ≠ r.1 := fun heq => hfirst (List.mem_map.mpr ⟨q, hq, heq⟩)
      have hvalue : q.2 ≠ r.2 := fun heq => hfirst' (List.mem_map.mpr ⟨q, hq, heq⟩)
      simp only [countedUses, uses_swapped hold hnew hne, hkey, hvalue, (hfresh q hq).symm,
        (hapart q hq).1, if_false]
    have hsame : reports (countedUses (swapped r s)) rs = reports (countedUses s) rs :=
      List.flatMap_congr fun q hq => by rw [hcount q hq]
    refine ⟨t, ?_⟩
    rw [List.foldlM_cons, renameUsage_told hold hnew hne]
    refine ht.trans ?_
    rw [hsame]
    simp [reports]

/-- Of distinct names, what is told is how often the new names were there before. So the number
of the uses that are replaced is told exactly if each name in the text has its new name there just
as often. -/
theorem usages_reported_iff {m : NameMap} (h : WordNames m.entries) (hkeys : m.keys.Nodup)
    (hvalues : (m.entries.map (·.2)).Nodup) (hapart : ∀ r ∈ m.entries, r.2 ∉ m.keys)
    (s : List Char) :
    ∃ t, renameUsages m s = .ok (t, reports (countedUses s) m.longestFirst) ∧
      (reports (countedUses s) m.longestFirst = reports (fun r => uses s r.1) m.longestFirst ↔
        ∀ r ∈ m.entries, uses s r.1 ≠ 0 → uses s r.2 = uses s r.1) := by
  have hsorted : m.longestFirst.Perm m.entries := List.mergeSort_perm _ _
  obtain ⟨t, ht⟩ := @exists_foldlM_reports s [] _ (fun r hr => h r (hsorted.mem_iff.mp hr))
    ((hsorted.map _).nodup_iff.mpr hkeys) ((hsorted.map _).nodup_iff.mpr hvalues)
    (fun r hr q hq heq => hapart r (hsorted.mem_iff.mp hr)
      (heq ▸ List.mem_map_of_mem (hsorted.mem_iff.mp hq)))
  refine ⟨t, ht, ?_⟩
  have hnone (r : String × String) (hr : uses s r.1 = 0) : countedUses s r = 0 := if_pos hr
  rw [reports_eq_iff hnone]
  simp only [hsorted.mem_iff]
  refine forall₂_congr fun r _ => ?_
  unfold countedUses
  split <;> simp_all

/-- Two old names, of which one has its new name in the text as often as itself, and the other
has not. -/
theorem usages_reported_iff_sample : ∃ t told,
    renameUsages ⟨[("a", "b"), ("c", "d")]⟩ "a b c".toList = .ok (t, told) ∧
      told ≠ reports (fun r => uses "a b c".toList r.1)
        (NameMap.longestFirst ⟨[("a", "b"), ("c", "d")]⟩) := by
  obtain ⟨t, ht, htold⟩ := @usages_reported_iff ⟨[("a", "b"), ("c", "d")]⟩ (by decide) (by decide)
    (by decide) (by decide) "a b c".toList
  refine ⟨t, _, ht, fun h => ?_⟩
  have hcounts := htold.mp h ("c", "d") (by decide) (by decide +kernel)
  revert hcounts
  decide +kernel

/-- Of a new name that is nowhere nothing is told. -/
theorem fresh_name_untold :
    renameUsages ⟨[("oldName", "old_name")]⟩ "oldName()".toList =
        .ok ("old_name()".toList, []) ∧ uses "oldName()".toList "oldName" = 1 := by
  decide +kernel

end Restyle.Rename
