import Restyle.Proofs.Naming.Unsettled

/-!
Recognising the convention of a converted name. The tests of the recognition overlap, but in the
end a text looks like snake case exactly if it is in lower case, and like upper case exactly if it
is in upper case, with or without underscores. So an ASCII name that is converted to one of these
conventions is recognised as such exactly if it has a letter.
-/

namespace Restyle.Naming

open Text

variable {c : Char} {s t : List Char}

/-! ### Texts in one case -/

theorem parts_of_oneCase {other own : Char → Bool}
    (h : (s.all (fun c => !other c && !isTitleChar c) && s.any own) = true) :
    (∀ c ∈ s, other c = false) ∧ s.any own = true := by
  rw [Bool.and_eq_true, List.all_eq_true] at h
  exact ⟨fun c hc => by simpa using (Bool.and_eq_true_iff.mp (h.1 c hc)).1, h.2⟩

theorem isUpper_of_isLower (h : isLower s = true) : isUpper s = false := by
  rw [← Bool.not_eq_true]
  intro hupper
  obtain ⟨c, hc, hlower⟩ := List.any_eq_true.mp (parts_of_oneCase h).2
  rw [(parts_of_oneCase hupper).1 c hc] at hlower
  cases hlower

theorem styleOf_eq_snake_iff : styleOf s = .snake ↔ isLower s = true := by
  cases s with
  | nil => decide
  | cons c s =>
    constructor
    · intro h
      unfold styleOf at h
      grind
    · intro h
      obtain ⟨hupper, -⟩ := parts_of_oneCase h
      have hfirst := hupper c List.mem_cons_self
      have hany : (c :: s).any isUpperChar = false :=
        List.any_eq_false.mpr fun d hd => by simp [hupper d hd]
      cases hjoined : (c :: s).contains '_' <;>
        simp only [styleOf, hjoined, h, isUpper_of_isLower h, hfirst, hany, Bool.not_true,
          Bool.not_false, Bool.true_and, Bool.and_true, Bool.false_and, Bool.and_false, if_pos,
          Bool.false_eq_true, if_false]

theorem styleOf_eq_upper_iff : styleOf s = .upper ↔ isUpper s = true := by
  cases s with
  | nil => decide
  | cons c s =>
    constructor
    · intro h
      unfold styleOf at h
      grind
    · intro h
      obtain ⟨hlower, -⟩ := parts_of_oneCase h
      have hfirst := hlower c List.mem_cons_self
      have hany : (c :: s).any isLowerChar = false :=
        List.any_eq_false.mpr fun d hd => by simp [hlower d hd]
      have hother : isLower (c :: s) = false := by
        rw [isLower, hany, Bool.and_false]
      -- a single word is upper case by the first test if it is all letters, else by the last one
      cases hjoined : (c :: s).contains '_' <;> cases hletters : isAlphabetic (c :: s) <;>
        simp only [styleOf, hjoined, hletters, h, hother, hfirst, hany, Bool.not_true,
          Bool.not_false, Bool.true_and, Bool.and_true, Bool.false_and, Bool.and_false,
          Bool.or_false, Bool.or_true, if_pos, Bool.false_eq_true, if_false]

/-! ### ASCII -/

theorem isUpperChar_ascii (hc : isAscii c = true) : isUpperChar c = isCapital c := by
  have hupper : isUpperChar c = c.isUpper := if_pos hc
  rw [hupper, Bool.eq_iff_iff, isUpper_iff, isCapital_iff]

theorem isLowerChar_ascii (hc : isAscii c = true) : isLowerChar c = isSmall c := by
  have hlower : isLowerChar c = c.isLower := if_pos hc
  rw [hlower, Bool.eq_iff_iff, isLower_iff, isSmall_iff]

theorem isTitleChar_ascii (hc : isAscii c = true) : isTitleChar c = false := by
  rw [isTitleChar, hc, Bool.not_true, Bool.false_and]

theorem oneCase_eq_any {other own : Char → Bool} (hs : s.all isAscii = true)
    (hother : ∀ c ∈ s, other c = false) (hown : ∀ c ∈ s, own c = isLetter c) :
    (s.all (fun c => !other c && !isTitleChar c) && s.any own) = s.any isLetter := by
  have hnone : s.all (fun c => !other c && !isTitleChar c) = true := by
    refine List.all_eq_true.mpr fun c hc => ?_
    rw [hother c hc, isTitleChar_ascii (List.all_eq_true.mp hs c hc), Bool.not_false, Bool.and_true]
  rw [hnone, Bool.true_and, any_eq_any_of_mem hown]

theorem any_isLetter_letters (hs : s.all isAscii = true) :
    (letters s).any isLetter = s.any isLetter := by
  rw [letters, List.any_map, List.any_filter]
  refine any_eq_any_of_mem fun c hc => ?_
  have hascii := List.all_eq_true.mp hs c hc
  rw [Function.comp_apply, isLetter_ascii (toLower_facts hascii).1, isLetter_ascii hascii,
    Bool.eq_iff_iff]
  simp only [Bool.and_eq_true, Bool.or_eq_true, bne_iff_ne, ne_eq, ← Char.toNat_inj, isCapital_iff,
    isSmall_iff, toNat_toLower, Char.reduceToNat]
  split <;> omega

theorem Respelled.any_isLetter (h : Respelled s t) (hs : s.all isAscii = true) :
    t.any isLetter = s.any isLetter := by
  obtain ⟨ht, hletters⟩ := h.letters_eq hs
  rw [← any_isLetter_letters ht, hletters, any_isLetter_letters hs]

/-! ### Converted names -/

theorem isLower_snake (hs : s.all isAscii = true) : isLower (snake s) = s.any isLetter := by
  have hcapital : ∀ c ∈ snake s, isCapital c = false := by
    rw [snake_ascii hs]
    intro c hc
    obtain ⟨d, -, rfl⟩ := List.mem_map.mp hc
    exact isCapital_toLower d
  have hascii := List.all_eq_true.mp (all_isAscii_snake hs)
  rw [← (respelled_snake s).any_isLetter hs]
  refine oneCase_eq_any (all_isAscii_snake hs) (fun c hc => ?_) fun c hc => ?_
  · rw [isUpperChar_ascii (hascii c hc), hcapital c hc]
  · rw [isLowerChar_ascii (hascii c hc), isLetter_ascii (hascii c hc), hcapital c hc, Bool.false_or]

theorem isUpper_upperSnake (hs : s.all isAscii = true) :
    isUpper (upperSnake s) = s.any isLetter := by
  have hsmall : ∀ c ∈ upperSnake s, isSmall c = false := by
    obtain ⟨t, ht⟩ : ∃ t : List Char, upperSnake s = t.map Char.toUpper := by
      by_cases h : '_' ∈ s
      · exact ⟨s, upperSnake_of_mem hs h⟩
      · exact ⟨breakWords s, upperSnake_of_notMem hs h⟩
    rw [ht]
    intro c hc
    obtain ⟨d, -, rfl⟩ := List.mem_map.mp hc
    exact isSmall_toUpper d
  have hrespelled := respelled_upperSnake s
  have hascii := List.all_eq_true.mp (hrespelled.letters_eq hs).1
  rw [← hrespelled.any_isLetter hs]
  refine oneCase_eq_any (hrespelled.letters_eq hs).1 (fun c hc => ?_) fun c hc => ?_
  · rw [isLowerChar_ascii (hascii c hc), hsmall c hc]
  · rw [isUpperChar_ascii (hascii c hc), isLetter_ascii (hascii c hc), hsmall c hc, Bool.or_false]

/-- An ASCII name in snake case or in upper case is recognised as such exactly if it has a
letter. -/
theorem style_of_recased_iff {name : String} (hname : name.toList.all isAscii = true)
    {c : Convention} (hc : c = .snake ∨ c = .upper) :
    ∃ new, recaseStrict name c.name = .ok new ∧ recaseAs name c.name = new ∧
      ((styleOf new.toList).name = c.name ↔ name.toList.any isLetter = true) := by
  have hname_iff {style : Style} : (style.name = Convention.snake.name ↔ style = .snake) ∧
      (style.name = Convention.upper.name ↔ style = .upper) := by
    cases style <;> decide
  refine ⟨c.recase name, recaseStrict_name c name, recaseAs_name c name, ?_⟩
  rw [Convention.recase, String.toList_ofList]
  rcases hc with rfl | rfl
  · rw [hname_iff.1, styleOf_eq_snake_iff, Convention.recaseChars, isLower_snake hname]
  · rw [hname_iff.2, styleOf_eq_upper_iff, Convention.recaseChars, isUpper_upperSnake hname]

theorem style_of_recased_iff_sample :
    "__HTTP2".toList.all isAscii = true ∧ "_2".toList.all isAscii = true ∧
      (styleOf (recaseAs "__HTTP2" Convention.snake.name).toList).name = "snake_case" ∧
      (styleOf (recaseAs "_2" Convention.upper.name).toList).name ≠ "UPPER_CASE" := by
  have hletters : "__HTTP2".toList.all isAscii = true := by decide +kernel
  have hnone : "_2".toList.all isAscii = true := by decide +kernel
  obtain ⟨_, -, rfl, hsnake⟩ := style_of_recased_iff hletters (.inl rfl)
  obtain ⟨_, -, rfl, hupper⟩ := style_of_recased_iff hnone (.inr rfl)
  exact ⟨hletters, hnone, hsnake.mpr (by decide +kernel), mt hupper.mp (by decide +kernel)⟩

end Restyle.Naming
