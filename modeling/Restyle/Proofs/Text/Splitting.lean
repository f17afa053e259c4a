import Mathlib.Data.List.Basic
import Restyle.Text.CodeTable

/-!
Texts cut at a separator. No piece has the separator in it, and texts without it that are joined by
it are got back.
-/

namespace Restyle.Text

variable {sep : Char}

theorem splitOn_eq (sep : Char) (s : List Char) : splitOn sep s = s.splitOn sep := by
  induction s with
  | nil => rfl
  | cons c s ih =>
    rw [splitOn, ih, List.splitOn_cons_eq_if_modifyHead]
    simp only [beq_iff_eq]
    split
    · rfl
    · split <;> simp_all

theorem splitOn_ne_nil (sep : Char) (s : List Char) : splitOn sep s ≠ [] := by
  rw [splitOn_eq]
  exact List.splitOn_ne_nil sep s

theorem subset_of_mem_splitOn {s word : List Char} (h : word ∈ splitOn sep s) : word ⊆ s := by
  induction s generalizing word with
  | nil => simp_all
  | cons c rest ih =>
    unfold splitOn at h
    split at h
    · rcases List.mem_cons.mp h with rfl | h
      · exact List.nil_subset _
      · exact List.subset_cons_of_subset c (ih h)
    · split at h
      · simp_all
      · case h_2 w ws hws =>
        rcases List.mem_cons.mp h with rfl | h
        · exact List.cons_subset_cons c (ih (hws ▸ List.mem_cons_self))
        · exact List.subset_cons_of_subset c (ih (hws ▸ List.mem_cons_of_mem w h))

theorem splitOn_cons_ne {c : Char} (h : c ≠ sep) (s : List Char) :
    splitOn sep (c :: s) = (c :: (splitOn sep s).headD []) :: (splitOn sep s).tail := by
  rw [splitOn, if_neg h]
  cases splitOn sep s <;> rfl

/-- Where two texts meet, the last piece of the first and the first piece of the second make
one. -/
theorem splitOn_append (sep : Char) (s t : List Char) :
    splitOn sep (s ++ t) = (splitOn sep s).dropLast ++
      ((splitOn sep s).getLastD [] ++ (splitOn sep t).headD []) :: (splitOn sep t).tail := by
  obtain ⟨v, vs, ht⟩ := List.exists_cons_of_ne_nil (splitOn_ne_nil sep t)
  induction s with
  | nil => simp [ht]
  | cons c s ih =>
    obtain ⟨w, ws, hs⟩ := List.exists_cons_of_ne_nil (splitOn_ne_nil sep s)
    rw [hs] at ih
    by_cases hc : c = sep
    · rw [List.cons_append, splitOn, if_pos hc, ih, splitOn, if_pos hc, hs]
      simp
    · rw [List.cons_append, splitOn_cons_ne hc, ih, splitOn_cons_ne hc, hs]
      cases ws with
      | nil => simp
      | cons w' ws => simp

theorem splitOn_of_notMem {s : List Char} (h : sep ∉ s) : splitOn sep s = [s] := by
  rw [splitOn_eq, List.splitOn_eq_singleton h]

/-- A text without separator between two others belongs to one piece. -/
theorem splitOn_append_append {mid : List Char} (h : sep ∉ mid) (s t : List Char) :
    splitOn sep (s ++ (mid ++ t)) = (splitOn sep s).dropLast ++
      ((splitOn sep s).getLastD [] ++ (mid ++ (splitOn sep t).headD [])) ::
        (splitOn sep t).tail := by
  rw [splitOn_append, splitOn_append sep mid t, splitOn_of_notMem h]
  simp

theorem notMem_of_mem_splitOn {s word : List Char} (h : word ∈ splitOn sep s) : sep ∉ word := by
  induction s generalizing word with
  | nil => simp_all
  | cons c s ih =>
    by_cases hc : c = sep
    · rw [splitOn, if_pos hc] at h
      rcases List.mem_cons.mp h with rfl | h
      · simp
      · exact ih h
    · obtain ⟨w, ws, hs⟩ := List.exists_cons_of_ne_nil (splitOn_ne_nil sep s)
      rw [splitOn_cons_ne hc, hs] at h
      rcases List.mem_cons.mp h with rfl | h
      · simpa [Ne.symm hc] using ih (hs ▸ List.mem_cons_self)
      · exact ih (hs ▸ List.mem_cons_of_mem w h)

theorem intercalate_sep_cons_cons (sep : Char) (w v : List Char) (words : List (List Char)) :
    List.intercalate [sep] (w :: v :: words) =
      w ++ sep :: List.intercalate [sep] (v :: words) := by
  rw [List.intercalate_cons_cons, List.append_assoc, List.singleton_append]

theorem intercalate_splitOn (sep : Char) (s : List Char) :
    List.intercalate [sep] (splitOn sep s) = s := by
  rw [splitOn_eq, List.intercalate_splitOn]

theorem splitOn_intercalate {words : List (List Char)} (hne : words ≠ [])
    (h : ∀ w ∈ words, sep ∉ w) : splitOn sep (List.intercalate [sep] words) = words := by
  rw [splitOn_eq, List.splitOn_intercalate sep h hne]

theorem exists_of_mem_intercalate {α : Type} {sep : List α} {parts : List (List α)} {a : α}
    (h : a ∈ List.intercalate sep parts) : a ∈ sep ∨ ∃ part ∈ parts, a ∈ part := by
  induction parts with
  | nil => simp at h
  | cons part rest ih =>
    cases rest with
    | nil => exact .inr ⟨part, by simp, by simpa using h⟩
    | cons next rest =>
      rw [List.intercalate_cons_cons, List.mem_append, List.mem_append] at h
      rcases h with (hpart | hsep) | hrest
      · exact .inr ⟨part, by simp, hpart⟩
      · exact .inl hsep
      · rcases ih hrest with hsep | ⟨other, hother, ha⟩
        · exact .inl hsep
        · exact .inr ⟨other, List.mem_cons_of_mem part hother, ha⟩

end Restyle.Text
