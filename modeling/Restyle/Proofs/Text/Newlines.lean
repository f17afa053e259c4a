import Restyle.Proofs.Text.Pieces
import Restyle.Proofs.Text.Splitting
import Restyle.Text.Blank
import Restyle.Text.Utf8

/-!
Line ends. Making all of them newlines goes piece by piece, unless a piece ends within a line end.
A text that is cut into lines is got back by joining them with newlines exactly if newlines were its
only line ends and the last line had none.
-/

namespace Restyle.Text

variable {c : Char} {s : List Char}

/-! ### Unified line ends -/

theorem unifyNewlines_cons {c : Char} (hc : c ≠ '\r') (s : List Char) :
    unifyNewlines (c :: s) = c :: unifyNewlines s := by
  rw [unifyNewlines.eq_def]
  split <;> simp_all

theorem unifyNewlines_word {w : List Char} (hw : ∀ c ∈ w, mayBeNameChar c = true) (s : List Char) :
    unifyNewlines (w ++ s) = w ++ unifyNewlines s := by
  induction w with
  | nil => rfl
  | cons c w ih =>
    have hc : c ≠ '\r' := ne_of_other (hw c List.mem_cons_self) (by decide)
    rw [List.cons_append, unifyNewlines_cons hc, ih fun d hd => hw d (List.mem_cons_of_mem c hd),
      List.cons_append]

theorem unifyNewlines_append {y : List Char} (hy : y.head? ≠ some '\n') (x : List Char) :
    unifyNewlines (x ++ y) = unifyNewlines x ++ unifyNewlines y := by
  fun_induction unifyNewlines x with
  | case1 rest ih => exact congrArg ('\n' :: ·) ih
  | case2 rest hrest ih =>
    have hnext : ∀ next, rest ++ y = '\n' :: next → False := by
      intro next hnext
      cases rest with
      | nil => exact hy (congrArg List.head? hnext)
      | cons c rest => exact hrest rest (by rw [(List.cons.inj hnext).1])
    rw [List.cons_append, unifyNewlines.eq_2 _ hnext, ih]
    rfl
  | case3 c rest _ hc ih => rw [List.cons_append, unifyNewlines_cons hc, ih, List.cons_append]
  | case4 => rfl

theorem mem_unifyNewlines (h : c ∈ unifyNewlines s) : c ∈ s ∨ c = '\n' := by
  fun_induction unifyNewlines s with
  | case1 rest ih => grind
  | case2 rest hrest ih => grind
  | case3 c rest _ _ ih => grind
  | case4 => cases h

/-- A line end of the text is one of the unified text, whatever comes before it. -/
theorem exists_unifyNewlines_line (s : List Char) :
    ∃ x, ∀ t, unifyNewlines (s ++ '\n' :: t) = x ++ '\n' :: unifyNewlines t := by
  fun_induction unifyNewlines s with
  | case1 rest ih =>
    obtain ⟨x, hx⟩ := ih
    exact ⟨'\n' :: x, fun t => congrArg ('\n' :: ·) (hx t)⟩
  | case2 rest hrest ih =>
    cases rest with
    | nil => exact ⟨[], fun t => rfl⟩
    | cons c rest =>
      obtain ⟨x, hx⟩ := ih
      refine ⟨'\n' :: x, fun t => ?_⟩
      have hc : ∀ next, c :: rest ++ '\n' :: t = '\n' :: next → False := by
        intro next hnext
        exact hrest rest (by rw [(List.cons.inj hnext).1])
      rw [List.cons_append, unifyNewlines.eq_2 _ hc, hx]
      rfl
  | case3 c rest _ hc ih =>
    obtain ⟨x, hx⟩ := ih
    exact ⟨c :: x, fun t => by rw [List.cons_append, unifyNewlines_cons hc, hx]; rfl⟩
  | case4 => exact ⟨[], fun t => rfl⟩

theorem unifyNewlines_eq_nil {s : List Char} : unifyNewlines s = [] ↔ s = [] := by
  fun_cases unifyNewlines s <;> simp

/-! ### Lines that are joined again -/

/-- The lines of a text are ended by newlines, except for the last one, which is not ended. -/
structure PlainlyEnded (s : List Char) : Prop where
  newlines : ∀ c ∈ s, isLineEnd c = true → c = '\n'
  unended : s.getLast? ≠ some '\n'

theorem plainlyEnded_nil : PlainlyEnded [] := ⟨by simp, by simp⟩

theorem plainlyEnded_cons_iff {c : Char} {s : List Char} :
    PlainlyEnded (c :: s) ↔ PlainlyEnded s ∧ (isLineEnd c = true → c = '\n' ∧ s ≠ []) := by
  have hnewline : isLineEnd '\n' = true := by decide
  constructor
  · rintro ⟨hends, hlast⟩
    obtain ⟨hc, hends⟩ := List.forall_mem_cons.mp hends
    cases s with
    | nil => exact ⟨plainlyEnded_nil, fun h => absurd (congrArg some (hc h)) hlast⟩
    | cons d s =>
      rw [List.getLast?_cons_cons] at hlast
      exact ⟨⟨hends, hlast⟩, fun h => ⟨hc h, List.cons_ne_nil d s⟩⟩
  · rintro ⟨⟨hends, hlast⟩, hc⟩
    refine ⟨List.forall_mem_cons.mpr ⟨fun h => (hc h).1, hends⟩, ?_⟩
    cases s with
    | nil =>
      intro h
      obtain rfl : c = '\n' := by simpa using h
      exact (hc hnewline).2 rfl
    | cons d s => rwa [List.getLast?_cons_cons]

theorem linesFrom_eq_nil_iff (line s : List Char) :
    linesFrom line s = [] ↔ line = [] ∧ s = [] := by
  fun_induction linesFrom line s <;> simp_all

theorem intercalate_line (line s : List Char) :
    List.intercalate ['\n'] (line :: linesFrom [] s) =
      line ++ if s = [] then [] else '\n' :: List.intercalate ['\n'] (linesFrom [] s) := by
  have hnil := linesFrom_eq_nil_iff [] s
  cases hlines : linesFrom [] s with
  | nil => simp_all
  | cons l ls =>
    rw [intercalate_sep_cons_cons, if_neg]
    simp_all

theorem intercalate_linesFrom_iff (line s : List Char) :
    List.intercalate ['\n'] (linesFrom line s) = line.reverse ++ s ↔ PlainlyEnded s := by
  fun_induction linesFrom line s with
  | case1 line hempty | case2 line hempty => simp_all [plainlyEnded_nil]
  | case3 line rest ih =>
    -- neither is a return a newline nor does it become one
    have hother : ¬ PlainlyEnded ('\r' :: '\n' :: rest) := fun h =>
      absurd (h.newlines '\r' List.mem_cons_self (by decide)) (by decide)
    rw [intercalate_line, List.append_cancel_left_eq, iff_false_right hother]
    split <;> simp
  | case4 line c rest hne hc ih =>
    rw [intercalate_line, List.append_cancel_left_eq, plainlyEnded_cons_iff, ← ih]
    by_cases hrest : rest = []
    · simp [hrest, hc]
    · simp [hrest, hc, eq_comm, and_comm]
  | case5 line c rest hne hc ih =>
    rw [plainlyEnded_cons_iff, ← ih]
    simp [hc]

end Restyle.Text
