import Mathlib.Data.List.Infix
import Restyle.Proofs.Text.UpperCase
import Restyle.Text.Letter

/-!
Blanks around texts. Trimming takes the blanks off both ends and nothing else, so what is left
starts and ends with other characters. No blank belongs to a word.
-/

namespace Restyle.Text

variable {c : Char} {s : List Char}

/-! ### Trimming -/

structure Tight (s : List Char) : Prop where
  head : ∀ c ∈ s.head?, isBlank c = false
  last : ∀ c ∈ s.getLast?, isBlank c = false

theorem head?_trimLeft (s : List Char) : ∀ c ∈ (trimLeft s).head?, isBlank c = false := by
  intro c hc
  have hstop := List.head?_dropWhile_not isBlank s
  rw [trimLeft] at hc
  simpa [Option.mem_def.mp hc] using hstop

theorem trimLeft_of_head (h : ∀ c ∈ s.head?, isBlank c = false) : trimLeft s = s := by
  cases s with
  | nil => rfl
  | cons c s => exact List.dropWhile_cons_of_neg (by simp [h c rfl])

theorem trimRight_eq (s : List Char) : trimRight s = (trimLeft s.reverse).reverse := rfl

theorem tight_trim (s : List Char) : Tight (trim s) := by
  rw [trim, trimRight_eq]
  have hhead := head?_trimLeft s
  generalize trimLeft s = u at hhead
  constructor
  · intro c hc
    have hstart : (trimLeft u.reverse).reverse <+: u := by
      rw [← List.reverse_suffix, List.reverse_reverse]
      exact List.dropWhile_suffix _
    obtain ⟨rest, hrest⟩ := hstart
    refine hhead c ?_
    rw [← hrest, List.head?_append_of_ne_nil _ fun hnil => by simp [hnil] at hc]
    exact hc
  · rw [List.getLast?_reverse]
    exact head?_trimLeft u.reverse

theorem trimLeft_append (h : s.all isBlank = true) (t : List Char) :
    trimLeft (s ++ t) = trimLeft t :=
  List.dropWhile_append_of_pos (List.all_eq_true.mp h)

theorem trimLeft_of_all (h : s.all isBlank = true) : trimLeft s = [] := by
  have hnil := trimLeft_append h []
  rwa [List.append_nil] at hnil

theorem trim_of_tight {a b : List Char} (ha : a.all isBlank = true) (hb : b.all isBlank = true)
    (h : Tight s) : trim (a ++ s ++ b) = s := by
  rw [trim, List.append_assoc, trimLeft_append ha]
  cases s with
  | nil => rw [List.nil_append, trimLeft_of_all hb]; rfl
  | cons c s =>
    have hleft : trimLeft (c :: s ++ b) = c :: s ++ b := trimLeft_of_head h.head
    have hright : trimLeft (c :: s).reverse = (c :: s).reverse :=
      trimLeft_of_head (by rw [List.head?_reverse]; exact h.last)
    rw [hleft, trimRight_eq, List.reverse_append, trimLeft_append (by rwa [List.all_reverse]),
      hright, List.reverse_reverse]

theorem exists_trim (s : List Char) :
    ∃ a b, a.all isBlank = true ∧ b.all isBlank = true ∧ s = a ++ trim s ++ b := by
  have hleft : s.takeWhile isBlank ++ trimLeft s = s := List.takeWhile_append_dropWhile
  generalize hu : trimLeft s = u at hleft
  have hright : trim s ++ (u.reverse.takeWhile isBlank).reverse = u := by
    rw [trim, hu, trimRight_eq, trimLeft, ← List.reverse_append, List.takeWhile_append_dropWhile,
      List.reverse_reverse]
  refine ⟨s.takeWhile isBlank, (u.reverse.takeWhile isBlank).reverse, List.all_takeWhile, ?_, ?_⟩
  · rw [List.all_reverse]
    exact List.all_takeWhile
  · rw [List.append_assoc, hright, hleft]

theorem isInfix_trim (s : List Char) : trim s <:+: s := by
  obtain ⟨a, b, -, -, hs⟩ := exists_trim s
  exact ⟨a, b, hs.symm⟩

/-- Blanks around a text make no difference. -/
theorem trim_append_append {a b : List Char} (ha : a.all isBlank = true)
    (hb : b.all isBlank = true) (s : List Char) : trim (a ++ s ++ b) = trim s := by
  obtain ⟨a', b', ha', hb', hs⟩ := exists_trim s
  have hparts : a ++ s ++ b = (a ++ a') ++ trim s ++ (b' ++ b) := by
    conv => lhs; rw [hs]
    simp
  rw [hparts, trim_of_tight (by rw [List.all_append, ha, ha']; rfl)
    (by rw [List.all_append, hb', hb]; rfl) (tight_trim s)]

theorem trim_eq_self (h : Tight s) : trim s = s := by
  have hsame := trim_of_tight (a := []) (b := []) rfl rfl h
  rwa [List.nil_append, List.append_nil] at hsame

/-! ### Blanks and other characters -/

theorem notMem_of_blank (hc : isBlank c = false) (h : s.all isBlank = true) : c ∉ s := by
  intro hmem
  rw [List.all_eq_true.mp h c hmem] at hc
  cases hc

theorem not_contains_of_isBlank {lines : List String} {letters : List (List Char)}
    (h : Lettered lines letters)
    (hnone : codesOf blankRuns &&& codesOf ((wordsOf letters).map CodeRun.read) = 0)
    (hc : isBlank c = true) : (CodeTable.read lines).contains c = false := by
  rw [← CodeTable.testBit_codesOf, CodeTable.runs_read h]
  refine testBit_of_disjoint hnone ?_
  rw [testBit_codesOf, ← isBlank_eq_any, hc]

theorem isWordChar_of_isBlank (hc : isBlank c = true) : isWordChar c = false := by
  have hletter : letterTable.contains c = false := by
    unfold letterTable
    refine not_contains_of_isBlank (by repeat constructor) ?_ hc
    decide +kernel
  have hnumeral : numeralTable.contains c = false := by
    unfold numeralTable
    refine not_contains_of_isBlank (by repeat constructor) ?_ hc
    decide +kernel
  have hcode : c.toNat ≤ 32 ∨ 128 ≤ c.toNat := by
    simp only [isBlank, Bool.or_eq_true, Bool.and_eq_true, decide_eq_true_eq, beq_iff_eq] at hc
    omega
  rw [isWordChar, isAlphanumeric, isLetter, isNumeral, hletter, hnumeral, ← Bool.not_eq_true]
  by_cases hascii : isAscii c = true
  · have hlow : c.toNat ≤ 32 := hcode.resolve_right (Nat.not_le.mpr (of_decide_eq_true hascii))
    simp only [hascii, if_true, Bool.or_eq_true, beq_iff_eq]
    rintro ((hletter | hdigit) | rfl)
    · rcases Bool.or_eq_true_iff.mp hletter with hupper | hlower
      · exact absurd (isUpper_iff.mp hupper).1 (by omega)
      · exact absurd (isLower_iff.mp hlower).1 (by omega)
    · have hbound : 48 ≤ c.toNat := of_decide_eq_true (Bool.and_eq_true_iff.mp hdigit).1
      omega
    · exact absurd hlow (by decide)
  · have hne : c ≠ '_' := fun heq => hascii (heq ▸ rfl)
    simp [hascii, hne]

end Restyle.Text
