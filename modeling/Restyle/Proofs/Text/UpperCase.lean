import Restyle.Proofs.Text.LowerCase
import Restyle.Text.Blank

/-!
Texts in upper case. In ASCII each letter has one capital. Beyond ASCII a character may have several
characters for its capital, but these are never blank and are their own upper case. All this lies in
the tables and is checked on them once.
-/

namespace Restyle.Text

variable {c d : Char} {s : List Char}

/-! ### ASCII -/

theorem isLower_iff : c.isLower = true ↔ 97 ≤ c.toNat ∧ c.toNat ≤ 122 :=
  Bool.and_eq_true_iff.trans (and_congr decide_eq_true_iff decide_eq_true_iff)

theorem toUpper_toLower (c : Char) : c.toLower.toUpper = c.toUpper := by
  rw [← Char.toNat_inj]
  simp only [toNat_toUpper, toNat_toLower]
  grind

theorem upper_ascii (hs : s.all isAscii = true) : upper s = s.map Char.toUpper := by
  induction s with
  | nil => rfl
  | cons c s ih =>
    rw [List.all_cons, Bool.and_eq_true] at hs
    rw [upper, List.flatMap_cons, upperChar_ascii hs.1, ← upper, ih hs.2, List.singleton_append,
      List.map_cons]

theorem isDigit_toUpper (c : Char) : c.toUpper.isDigit = c.isDigit := by
  rw [Bool.eq_iff_iff, isDigit_iff, isDigit_iff, toNat_toUpper]
  split <;> omega

theorem underscore_mem_map_toUpper_iff (hs : s.all isAscii = true) :
    '_' ∈ s.map Char.toUpper ↔ '_' ∈ s := by
  rw [List.mem_map]
  constructor
  · rintro ⟨c, hc, hunderscore⟩
    rwa [(toUpper_facts (List.all_eq_true.mp hs c hc)).2.2.mp hunderscore] at hc
  · intro hmem
    exact ⟨'_', hmem, rfl⟩

theorem all_isAscii_map_toUpper (hs : s.all isAscii = true) :
    (s.map Char.toUpper).all isAscii = true := by
  rw [List.all_map]
  exact List.all_eq_true.mpr fun c hc => (toUpper_facts (List.all_eq_true.mp hs c hc)).1

theorem map_toUpper_map_toUpper (hs : s.all isAscii = true) :
    (s.map Char.toUpper).map Char.toUpper = s.map Char.toUpper := by
  rw [List.map_map]
  exact List.map_congr_left fun c hc => (toUpper_facts (List.all_eq_true.mp hs c hc)).2.1

/-! ### Checking the tables -/

def blankRuns : List CodeRun :=
  [⟨9, 13, 1⟩, ⟨0x1c, 0x20, 1⟩, ⟨0x85, 0x85, 1⟩, ⟨0xa0, 0xa0, 1⟩, ⟨0x1680, 0x1680, 1⟩,
    ⟨0x2000, 0x200a, 1⟩, ⟨0x2028, 0x2029, 1⟩, ⟨0x202f, 0x202f, 1⟩, ⟨0x205f, 0x205f, 1⟩,
    ⟨0x3000, 0x3000, 1⟩]

/-- The small letters of ASCII, the blanks, and the code points of a table. -/
def restless (runs : List MapRun) (words : List CodeWord) : Nat :=
  codesOf (⟨97, 122, 1⟩ :: blankRuns ++ runs.map (·.run) ++ words.map fun w => ⟨w.code, w.code, 1⟩)

/-- Code points among which are the small letters of ASCII, the blanks and those of a table for the
upper case, and none that the table leads to. -/
@[mk_iff]
structure CapitalsStay (codes : Nat) (runs : List MapRun) (words : List CodeWord) : Prop where
  hasBlanks : codesOf (⟨97, 122, 1⟩ :: blankRuns) &&& codes = codesOf (⟨97, 122, 1⟩ :: blankRuns)
  hasRuns : ∀ r ∈ runs, r.run.codes &&& codes = r.run.codes
  hasWords : ∀ w ∈ words, codes.testBit w.code = true
  noImage : ∀ r ∈ runs, r.imageRun.codes &&& codes = 0
  noLetter : ∀ w ∈ words, w.word.any (codes.testBit ·.toNat) = false

instance {codes : Nat} {runs : List MapRun} {words : List CodeWord} :
    Decidable (CapitalsStay codes runs words) :=
  decidable_of_iff' _ (capitalsStay_iff codes runs words)

theorem capitalsStay_of_lettered {ms ws : List String} {ms' ws' : List (List Char)}
    (hm : Lettered ms ms') (hw : Lettered ws ws')
    (h : CapitalsStay
      (restless ((wordsOf ms').filterMap MapRun.read?) ((wordsOf ws').filterMap CodeWord.read?))
      ((wordsOf ms').filterMap MapRun.read?) ((wordsOf ws').filterMap CodeWord.read?)) :
    ∃ codes, CapitalsStay codes (CodeMap.read ms).runs (CodeWords.read ws).words :=
  ⟨_, {
    hasBlanks := h.hasBlanks
    hasRuns := fun r hr => h.hasRuns r (CodeMap.mem_of_mem_read hm hr)
    hasWords := fun w hmem => h.hasWords w (CodeWords.mem_of_mem_read hw hmem)
    noImage := fun r hr => h.noImage r (CodeMap.mem_of_mem_read hm hr)
    noLetter := fun w hmem => h.noLetter w (CodeWords.mem_of_mem_read hw hmem) }⟩

theorem exists_capitalsStay : ∃ codes, CapitalsStay codes toUpperMap.runs toUpperWords.words := by
  unfold toUpperMap toUpperWords
  apply capitalsStay_of_lettered
  case hm => repeat constructor
  case hw => repeat constructor
  decide +kernel

/-! ### Capitals -/

theorem isBlank_eq_any (c : Char) : isBlank c = blankRuns.any (·.contains c.toNat) := by
  rw [Bool.eq_iff_iff]
  simp only [isBlank, Bool.or_eq_true, Bool.and_eq_true, decide_eq_true_eq, beq_iff_eq, blankRuns,
    List.any_cons, List.any_nil, CodeRun.contains_interval, Bool.false_eq_true, or_false]
  omega

theorem testBit_of_isBlank (h : isBlank c = true) :
    (codesOf (⟨97, 122, 1⟩ :: blankRuns)).testBit c.toNat = true := by
  rw [testBit_codesOf, List.any_cons, ← isBlank_eq_any, h, Bool.or_true]

theorem isBlank_toUpper (c : Char) : isBlank c.toUpper = isBlank c := by
  rw [Bool.eq_iff_iff, isBlank_eq_any, isBlank_eq_any, toNat_toUpper]
  simp only [blankRuns, List.any_cons, List.any_nil, Bool.or_eq_true, CodeRun.contains_interval,
    Bool.false_eq_true, or_false]
  split <;> omega

theorem testBit_of_small (h : 97 ≤ c.toNat ∧ c.toNat ≤ 122) :
    (codesOf (⟨97, 122, 1⟩ :: blankRuns)).testBit c.toNat = true := by
  rw [testBit_codesOf, List.any_cons, CodeRun.contains_interval.mpr h, Bool.true_or]

/-- A character that is none of the code points is no blank and its own upper case. -/
theorem CapitalsStay.stays {codes : Nat}
    (h : CapitalsStay codes toUpperMap.runs toUpperWords.words)
    (hd : codes.testBit d.toNat = false) : upperChar d = [d] ∧ isBlank d = false := by
  have hother {n : Nat} (hn : n &&& codes = n) : n.testBit d.toNat ≠ true := fun hbit => by
    rw [testBit_of_subset hn hbit] at hd
    cases hd
  refine ⟨?_, ?_⟩
  · unfold upperChar
    split
    case isTrue =>
      have hsame : d.toUpper = d := by
        rw [← Char.toNat_inj, toNat_toUpper,
          if_neg fun hsmall => hother h.hasBlanks (testBit_of_small hsmall)]
      rw [hsame]
    case isFalse =>
      have hmapped := mapped_spec toUpperMap toUpperWords d
      generalize mapped toUpperMap toUpperWords d = s at hmapped ⊢
      cases hmapped with
      | same => rfl
      | run hr hrun _ => exact absurd hrun (hother (h.hasRuns _ hr))
      | word hw hcode =>
        rw [← hcode, h.hasWords _ hw] at hd
        cases hd
  · rw [← Bool.not_eq_true]
    exact fun hblank => hother h.hasBlanks (testBit_of_isBlank hblank)

/-- A capital is its own upper case, and blank only if it is the capital of a blank. -/
theorem upperChar_of_mem (hd : d ∈ upperChar c) :
    upperChar d = [d] ∧ (isBlank c = false → isBlank d = false) := by
  obtain ⟨codes, hstay⟩ := exists_capitalsStay
  by_cases hascii : isAscii c = true
  · obtain ⟨hupper, htwice, -⟩ := toUpper_facts hascii
    rw [upperChar_ascii hascii, List.mem_singleton] at hd
    subst hd
    exact ⟨by rw [upperChar_ascii hupper, htwice], fun hblank => by rwa [isBlank_toUpper]⟩
  · have hmapped := mapped_spec toUpperMap toUpperWords c
    have hupper : upperChar c = mapped toUpperMap toUpperWords c := if_neg hascii
    rw [← hupper] at hmapped
    generalize hs : upperChar c = s at hmapped hd
    cases hmapped with
    | same =>
      rw [List.mem_singleton.mp hd]
      exact ⟨hs, id⟩
    | run hr _ himage =>
      rw [List.mem_singleton.mp hd]
      obtain ⟨hsame, hblank⟩ := hstay.stays (testBit_of_disjoint (hstay.noImage _ hr) himage)
      exact ⟨hsame, fun _ => hblank⟩
    | word hw _ =>
      obtain ⟨hsame, hblank⟩ :=
        hstay.stays (Bool.eq_false_iff.mpr (List.any_eq_false.mp (hstay.noLetter _ hw) d hd))
      exact ⟨hsame, fun _ => hblank⟩

theorem upperChar_ne_nil (c : Char) : upperChar c ≠ [] := by
  unfold upperChar mapped
  split
  case isTrue => exact List.cons_ne_nil _ _
  case isFalse =>
    split
    case h_1 => exact List.cons_ne_nil _ _
    case h_2 =>
      cases hword : toUpperWords.get? c with
      | none => exact List.cons_ne_nil _ _
      | some word => exact CodeWords.ne_nil_of_get?_read hword

end Restyle.Text
