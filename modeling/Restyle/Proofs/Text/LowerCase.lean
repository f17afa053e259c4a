import Restyle.Proofs.Text.CodeSet

/-!
Texts in another case. In ASCII each letter has one form in each case, so a text changes character
by character. Beyond ASCII only capitals have another form in lower case, which is checked on the
tables, so a text that is in lower case stays as it is.
-/

namespace Restyle.Text

variable {c : Char} {s : List Char}

/-! ### ASCII -/

theorem lowerChar_ascii (hc : isAscii c = true) : lowerChar c = [c.toLower] := if_pos hc

theorem upperChar_ascii (hc : isAscii c = true) : upperChar c = [c.toUpper] := if_pos hc

theorem titleChar_ascii (hc : isAscii c = true) : titleChar c = [c.toUpper] := if_pos hc

theorem toNat_toLower (c : Char) :
    c.toLower.toNat = if 65 ≤ c.toNat ∧ c.toNat ≤ 90 then c.toNat + 32 else c.toNat := by
  split
  case isTrue h =>
    obtain ⟨valid, hlower⟩ : ∃ valid, c.toLower = ⟨c.val + ('a'.val - 'A'.val), valid⟩ :=
      ⟨_, dif_pos h⟩
    have hshift : ('a'.val - 'A'.val).toNat = 32 := by decide
    have hnat : c.toLower.toNat = (c.toNat + 32) % 2 ^ 32 := by
      rw [hlower, ← hshift]
      exact UInt32.toNat_add _ _
    omega
  case isFalse h => exact congrArg Char.toNat (dif_neg h)

theorem toNat_toUpper (c : Char) :
    c.toUpper.toNat = if 97 ≤ c.toNat ∧ c.toNat ≤ 122 then c.toNat - 32 else c.toNat := by
  split
  case isTrue h =>
    obtain ⟨valid, hupper⟩ : ∃ valid, c.toUpper = ⟨c.val + ('A'.val - 'a'.val), valid⟩ :=
      ⟨_, dif_pos h⟩
    -- The shift is downwards, so it wraps around.
    have hshift : ('A'.val - 'a'.val).toNat = 2 ^ 32 - 32 := by decide
    have hnat : c.toUpper.toNat = (c.toNat + (2 ^ 32 - 32)) % 2 ^ 32 := by
      rw [hupper, ← hshift]
      exact UInt32.toNat_add _ _
    omega
  case isFalse h => exact congrArg Char.toNat (dif_neg h)

theorem isUpper_iff : c.isUpper = true ↔ 65 ≤ c.toNat ∧ c.toNat ≤ 90 :=
  decide_eq_true_iff (p := 'A'.val ≤ c.val ∧ c.val ≤ 'Z'.val)

theorem isDigit_iff : c.isDigit = true ↔ 48 ≤ c.toNat ∧ c.toNat ≤ 57 := by
  simp [Char.isDigit, UInt32.le_iff_toNat_le]

theorem isAscii_of_isDigit (h : c.isDigit = true) : isAscii c = true := by
  rw [isDigit_iff] at h
  exact decide_eq_true (by omega)

theorem toLower_facts (hc : isAscii c = true) :
    isAscii c.toLower = true ∧ c.toLower.toLower = c.toLower ∧ (c.toLower = '_' ↔ c = '_') := by
  simp only [isAscii, decide_eq_true_eq, ← Char.toNat_inj, toNat_toLower, Char.reduceToNat] at hc ⊢
  grind

theorem toUpper_facts (hc : isAscii c = true) :
    isAscii c.toUpper = true ∧ c.toUpper.toUpper = c.toUpper ∧ (c.toUpper = '_' ↔ c = '_') := by
  simp only [isAscii, decide_eq_true_eq, ← Char.toNat_inj, toNat_toUpper, Char.reduceToNat] at hc ⊢
  grind

theorem lowerAfter_ascii (hs : s.all isAscii = true) (before : List Char) :
    lowerAfter before s = s.map Char.toLower := by
  induction s generalizing before with
  | nil => rfl
  | cons c s ih =>
    rw [List.all_cons, Bool.and_eq_true] at hs
    have hsigma : c ≠ 'Σ' := by
      rintro rfl
      cases hs.1
    rw [lowerAfter, if_neg hsigma, lowerChar_ascii hs.1, ih hs.2, List.singleton_append,
      List.map_cons]

theorem lower_ascii (hs : s.all isAscii = true) : lower s = s.map Char.toLower :=
  lowerAfter_ascii hs []

theorem map_toLower_eq_self (h : ∀ c ∈ s, c.toLower = c) : s.map Char.toLower = s :=
  (List.map_congr_left h).trans (List.map_id s)

theorem capitalize_ascii (hc : isAscii c = true) (hs : s.all isAscii = true) :
    capitalize (c :: s) = c.toUpper :: s.map Char.toLower := by
  rw [capitalize, titleChar_ascii hc, lowerAfter_ascii hs, List.singleton_append]

/-! ### Capitals -/

/-- A table for the lower case that only has capitals as its code points. -/
@[mk_iff]
structure LowersCapitals (capitals : List CodeRun) (runs : List MapRun) (words : List CodeWord) :
    Prop where
  runs : ∀ r ∈ runs, r.run.codes &&& codesOf capitals = r.run.codes
  words : ∀ w ∈ words, (codesOf capitals).testBit w.code = true
  sigma : (codesOf capitals).testBit 'Σ'.toNat = true

instance {capitals : List CodeRun} {runs : List MapRun} {words : List CodeWord} :
    Decidable (LowersCapitals capitals runs words) :=
  decidable_of_iff' _ (lowersCapitals_iff capitals runs words)

section Lettered

variable {us ts ls lws : List String} {us' ts' ls' lws' : List (List Char)}

theorem lowersCapitals_of_lettered (hu : Lettered us us') (ht : Lettered ts ts')
    (hl : Lettered ls ls') (hlw : Lettered lws lws')
    (h : LowersCapitals ((wordsOf us').map CodeRun.read ++ (wordsOf ts').map CodeRun.read)
      ((wordsOf ls').filterMap MapRun.read?) ((wordsOf lws').filterMap CodeWord.read?)) :
    LowersCapitals ((CodeTable.read us).runs.toList ++ (CodeTable.read ts).runs.toList)
      (CodeMap.read ls).runs (CodeWords.read lws).words := by
  rw [CodeTable.runs_read hu, CodeTable.runs_read ht]
  exact {
    runs := fun r hr => h.runs r (CodeMap.mem_of_mem_read hl hr)
    words := fun w hw => h.words w (CodeWords.mem_of_mem_read hlw hw)
    sigma := h.sigma }

end Lettered

theorem lowersCapitals :
    LowersCapitals (uppercaseTable.runs.toList ++ titlecaseTable.runs.toList) toLowerMap.runs
      toLowerWords.words := by
  unfold uppercaseTable titlecaseTable toLowerMap toLowerWords
  apply lowersCapitals_of_lettered
  case hu => repeat constructor
  case ht => repeat constructor
  case hl => repeat constructor
  case hlw => repeat constructor
  decide +kernel

/-- A character whose case is upper or title. -/
def isCapitalChar (c : Char) : Bool := isUpperChar c || isTitleChar c

theorem isCapitalChar_ascii (hc : isAscii c = true) : isCapitalChar c = c.isUpper := by
  simp [isCapitalChar, isUpperChar, isTitleChar, hc]

theorem isCapitalChar_of_testBit (hc : isAscii c = false)
    (h : (codesOf (uppercaseTable.runs.toList ++ titlecaseTable.runs.toList)).testBit c.toNat =
      true) : isCapitalChar c = true := by
  rw [testBit_codesOf, List.any_append, ← testBit_codesOf, ← testBit_codesOf,
    CodeTable.testBit_codesOf, CodeTable.testBit_codesOf] at h
  rw [isCapitalChar, isUpperChar, isTitleChar, hc, if_neg Bool.false_ne_true, Bool.not_false,
    Bool.true_and, h]

/-- Only capitals have another form in lower case. -/
theorem lowerChar_of_not_capital (h : isCapitalChar c = false) : lowerChar c = [c] := by
  by_cases hascii : isAscii c = true
  · have hupper : ¬(65 ≤ c.toNat ∧ c.toNat ≤ 90) := by
      rwa [isCapitalChar_ascii hascii, ← Bool.not_eq_true, isUpper_iff] at h
    have hsame : c.toLower = c := by
      rw [← Char.toNat_inj, toNat_toLower, if_neg hupper]
    rw [lowerChar_ascii hascii, hsame]
  · rw [Bool.not_eq_true] at hascii
    have hcode : (codesOf (uppercaseTable.runs.toList ++ titlecaseTable.runs.toList)).testBit
        c.toNat ≠ true := fun hbit => by
      rw [isCapitalChar_of_testBit hascii hbit] at h
      cases h
    rw [lowerChar, hascii, if_neg Bool.false_ne_true]
    have hmapped := mapped_spec toLowerMap toLowerWords c
    generalize mapped toLowerMap toLowerWords c = s at hmapped ⊢
    cases hmapped with
    | same => rfl
    | run hr hrun _ => exact absurd (testBit_of_subset (lowersCapitals.runs _ hr) hrun) hcode
    | word hw hc => exact absurd (hc ▸ lowersCapitals.words _ hw) hcode

theorem lowerAfter_of_no_capital (h : ∀ c ∈ s, isCapitalChar c = false) (before : List Char) :
    lowerAfter before s = s := by
  induction s generalizing before with
  | nil => rfl
  | cons c s ih =>
    obtain ⟨hc, hs⟩ := List.forall_mem_cons.mp h
    have hsigma : c ≠ 'Σ' := by
      rintro rfl
      rw [isCapitalChar_of_testBit rfl lowersCapitals.sigma] at hc
      cases hc
    rw [lowerAfter, if_neg hsigma, lowerChar_of_not_capital hc, ih hs, List.singleton_append]

theorem not_capital_of_isLower (h : isLower s = true) : ∀ c ∈ s, isCapitalChar c = false := by
  intro c hc
  have hall := List.all_eq_true.mp (Bool.and_eq_true_iff.mp h).1 c hc
  simpa [isCapitalChar] using hall

theorem lower_of_isLower (h : isLower s = true) : lower s = s :=
  lowerAfter_of_no_capital (not_capital_of_isLower h) []

end Restyle.Text
