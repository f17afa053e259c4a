import Restyle.Proofs.Naming.Strict
import Restyle.Proofs.Naming.WordBreaks
import Restyle.Proofs.Text.IdentifierCase

/-!
Usable names in other conventions. A name that can be used is converted to an identifier, unless it
loses the underscores in front of a character that cannot start one, such as a digit. Small letters
and capitals can make a keyword of it, but not in upper case and not behind underscores. The main
statement says exactly which converted names can be used.
-/

namespace Restyle.Naming

open Restyle.Text

variable {s : List Char} {c : Char}

/-! ### Identifiers and keywords -/

def startsIdentifier (s : List Char) : Bool := s.head?.any isIdentifierStart

theorem isIdentifier_iff :
    isIdentifier s = true ↔
      startsIdentifier s = true ∧ ∀ c ∈ s, isIdentifierChar c = true := by
  cases s with
  | nil => simp [isIdentifier, startsIdentifier]
  | cons c rest =>
    simp only [isIdentifier, startsIdentifier, Bool.and_eq_true, List.all_eq_true,
      List.head?_cons, Option.any_some, List.forall_mem_cons]
    constructor
    · rintro ⟨hc, hrest⟩
      exact ⟨hc, isIdentifierChar_of_start hc, hrest⟩
    · rintro ⟨hc, -, hrest⟩
      exact ⟨hc, hrest⟩

theorem nameFault?_eq_none_iff {name : String} :
    nameFault? name = none ↔ isIdentifier name.toList = true ∧ isKeyword name = false := by
  unfold nameFault?
  by_cases hempty : name.isEmpty = true
  · have hname : name = "" := by simpa using hempty
    simp [hname, isIdentifier]
  · cases hident : isIdentifier name.toList <;> cases hkeyword : isKeyword name <;>
      simp [hempty]

/-- Keywords do not start with an underscore, and have a small letter. -/
theorem keyword_chars {name : String} (h : isKeyword name = true) :
    name.toList.head? ≠ some '_' ∧ name.toList.any (smallCodes.testBit ·.toNat) = true := by
  have hall : ∀ k ∈ keywords,
      k.toList.head? ≠ some '_' ∧ k.toList.any (smallCodes.testBit ·.toNat) = true := by
    decide +kernel
  exact hall name (List.contains_iff_mem.mp h)

/-! ### First characters -/

theorem startsIdentifier_of_leads {w : List Char} (h : Leads w) (rest : List Char) :
    startsIdentifier (w ++ rest) = true := by
  obtain ⟨d, hd, hlead⟩ := (Option.any_eq_true _ _).mp h.head
  obtain ⟨text, rfl⟩ := List.head?_eq_some_iff.mp hd
  exact isIdentifierStart_of_isLead hlead

theorem startsIdentifier_lower (h : startsIdentifier s = true) :
    startsIdentifier (lower s) = true := by
  cases s with
  | nil => cases h
  | cons c rest =>
    have hc : isIdentifierStart c = true := h
    obtain ⟨d, text, hlower, hd⟩ :=
      exists_lowerAfter_cons (isIdentifierChar_of_start hc) [] rest
    rw [lower, hlower]
    rcases hd with rfl | ⟨hlead, -⟩
    · exact hc
    · exact isIdentifierStart_of_isLead hlead

theorem startsIdentifier_upperChar (hc : isIdentifierStart c = true) (rest : List Char) :
    startsIdentifier (upperChar c ++ rest) = true := by
  rcases upperChar_cases (isIdentifierChar_of_start hc) with hsame | hleads
  · rw [hsame]
    exact hc
  · exact startsIdentifier_of_leads hleads rest

theorem startsIdentifier_upper (h : startsIdentifier s = true) :
    startsIdentifier (upper s) = true := by
  cases s with
  | nil => cases h
  | cons c rest => exact startsIdentifier_upperChar h (upper rest)

theorem startsIdentifier_snake (h : startsIdentifier s = true) :
    startsIdentifier (snake s) = true := by
  unfold snake
  split
  · exact h
  · refine startsIdentifier_lower ?_
    rwa [startsIdentifier, head?_breakAcronym, head?_breakAfterSmall]

theorem startsIdentifier_upperSnake (h : startsIdentifier s = true) :
    startsIdentifier (upperSnake s) = true := by
  unfold upperSnake
  split
  · exact startsIdentifier_upper h
  · exact startsIdentifier_upper (startsIdentifier_snake h)

/-! ### First words -/

/-- Whether what follows the underscores in front of a name can start an identifier when it is
capitalized. -/
def startsWord (s : List Char) : Bool :=
  (trimUnderscoresLeft s).head?.any fun c => isIdentifierStart c || c == iotaSubscript

theorem splitOn_of_ne (hc : c ≠ '_') (s : List Char) :
    ∃ word words, splitOn '_' (c :: s) = (c :: word) :: words :=
  ⟨_, _, splitOn_cons_ne hc s⟩

/-- The first word of a text that does not start with an underscore. -/
theorem exists_splitOn_lowerAfter (hc : isIdentifierChar c = true) (hne : c ≠ '_')
    (before rest : List Char) :
    ∃ d word words, splitOn '_' (lowerAfter before (c :: rest)) = (d :: word) :: words ∧
      (d = c ∨ isLead d = true ∧ isIdentifierStart c = true) := by
  obtain ⟨d, text, hlower, hd⟩ := exists_lowerAfter_cons hc before rest
  have hother : d ≠ '_' := by
    rcases hd with rfl | ⟨hlead, -⟩
    · exact hne
    · rintro rfl
      exact absurd hlead (by decide)
  obtain ⟨word, words, hsplit⟩ := splitOn_of_ne hother text
  exact ⟨d, word, words, by rw [hlower, hsplit], hd⟩

/-- The words of a name in lower case, without the empty ones. The first of them starts with what
follows the underscores in front. -/
theorem filter_splitOn_cases (h : ∀ c ∈ s, isIdentifierChar c = true) (before : List Char) :
    trimUnderscoresLeft s = [] ∧ (splitOn '_' (lowerAfter before s)).filter (!·.isEmpty) = [] ∨
      ∃ c rest d word words, trimUnderscoresLeft s = c :: rest ∧ isIdentifierChar c = true ∧
        (splitOn '_' (lowerAfter before s)).filter (!·.isEmpty) = (d :: word) :: words ∧
        (d = c ∨ isLead d = true ∧ isIdentifierStart c = true) := by
  induction s generalizing before with
  | nil => exact .inl ⟨rfl, rfl⟩
  | cons a rest ih =>
    obtain ⟨ha, hrest⟩ := List.forall_mem_cons.mp h
    by_cases hunderscore : a = '_'
    · -- an underscore in front adds an empty word, and is trimmed
      subst hunderscore
      exact ih hrest ('_' :: before)
    · obtain ⟨d, word, words, hsplit, hd⟩ := exists_splitOn_lowerAfter ha hunderscore before rest
      refine .inr ⟨a, rest, d, word, words.filter (!·.isEmpty), ?_, ha, ?_, hd⟩
      · exact trimUnderscoresLeft_of_ne hunderscore rest
      · rw [hsplit]
        rfl

theorem startsIdentifier_titleChar_iff (hc : isIdentifierChar c = true) (rest : List Char) :
    startsIdentifier (titleChar c ++ rest) = true ↔
      isIdentifierStart c = true ∨ c = iotaSubscript := by
  rcases titleChar_cases hc with hsame | ⟨hleads, hstart⟩
  · refine ⟨fun h => .inl ?_, ?_⟩
    · rw [hsame] at h
      exact h
    · rintro (hstart | rfl)
      · rw [hsame]
        exact hstart
      · exact startsIdentifier_of_leads leads_titleChar_iotaSubscript rest
  · exact iff_of_true (startsIdentifier_of_leads hleads rest) hstart

/-- Words that are put together with capitals in front. -/
theorem startsIdentifier_capitalized_iff (h : ∀ c ∈ s, isIdentifierChar c = true)
    (hne : (lowerWords s).flatMap capitalize ≠ []) :
    startsIdentifier ((lowerWords s).flatMap capitalize) = true ↔ startsWord s = true := by
  rw [lowerWords, lower, ← flatMap_capitalize_filter] at hne ⊢
  rcases filter_splitOn_cases h [] with
    ⟨-, hnone⟩ | ⟨c, rest, d, word, words, htrim, hc, hwords, hd⟩
  · exact absurd (by rw [hnone]; rfl) hne
  · have hword : startsWord s = true ↔ isIdentifierStart c = true ∨ c = iotaSubscript := by
      simp [startsWord, htrim]
    rw [hwords, hword, List.flatMap_cons, capitalize, List.append_assoc]
    rcases hd with rfl | ⟨hlead, hstart⟩
    · exact startsIdentifier_titleChar_iff hc _
    · have hd := isIdentifierStart_of_isLead hlead
      rw [startsIdentifier_titleChar_iff (isIdentifierChar_of_start hd)]
      exact iff_of_true (.inl hd) (.inl hstart)

theorem startsWord_of_ne {rest : List Char} (hc : isIdentifierStart c = true) (hne : c ≠ '_') :
    startsWord (c :: rest) = true := by
  simp [startsWord, trimUnderscoresLeft_of_ne hne, hc]

theorem startsIdentifier_pascal_iff (h : isIdentifier s = true) (hne : pascal s ≠ []) :
    startsIdentifier (pascal s) = true ↔ startsWord s = true := by
  obtain ⟨hstart, hall⟩ := isIdentifier_iff.mp h
  cases s with
  | nil => cases hstart
  | cons c rest =>
    rw [pascal] at hne ⊢
    split at hne
    case isTrue hunderscore =>
      rw [if_pos hunderscore]
      exact startsIdentifier_capitalized_iff hall hne
    case isFalse hunderscore =>
      have hother : c ≠ '_' := by
        rintro rfl
        simp at hunderscore
      rw [if_neg hunderscore]
      exact iff_of_true (startsIdentifier_upperChar hstart rest) (startsWord_of_ne hstart hother)

theorem startsIdentifier_camel_iff (h : isIdentifier s = true) (hne : camel s ≠ []) :
    startsIdentifier (camel s) = true ↔ startsWord s = true := by
  obtain ⟨hstart, hall⟩ := isIdentifier_iff.mp h
  cases s with
  | nil => cases hstart
  | cons c rest =>
    by_cases hunderscore : c = '_'
    · -- behind an underscore the first word is empty, and all others are capitalized
      subst hunderscore
      exact startsIdentifier_capitalized_iff hall hne
    · refine iff_of_true ?_ (startsWord_of_ne hstart hunderscore)
      have hc := isIdentifierChar_of_start hstart
      rw [camel]
      split
      · obtain ⟨d, word, words, hsplit, hd⟩ := exists_splitOn_lowerAfter hc hunderscore [] rest
        rw [lowerWords, lower, hsplit]
        rcases hd with rfl | ⟨hlead, -⟩
        · exact hstart
        · exact isIdentifierStart_of_isLead hlead
      · rcases lowerChar_cases hc with hsame | ⟨hleads, -⟩
        · rw [hsame]
          exact hstart
        · exact startsIdentifier_of_leads hleads rest

/-! ### Converted names -/

/-- Converted names are identifiers, unless camel or Pascal case lets them start with a character
that goes on in identifiers only. -/
theorem isIdentifier_recaseChars_iff (h : isIdentifier s = true) (convention : Convention)
    (hne : convention.recaseChars s ≠ []) :
    isIdentifier (convention.recaseChars s) = true ↔
      (convention ∈ [.camel, .pascal] → startsWord s = true) := by
  obtain ⟨hstart, hall⟩ := isIdentifier_iff.mp h
  rw [isIdentifier_iff, and_iff_left (all_recaseChars caseClosed_isIdentifierChar hall convention)]
  cases convention with
  | snake => exact iff_of_true (startsIdentifier_snake hstart) (by simp)
  | camel => exact (startsIdentifier_camel_iff h hne).trans (by simp)
  | pascal => exact (startsIdentifier_pascal_iff h hne).trans (by simp)
  | upper => exact iff_of_true (startsIdentifier_upperSnake hstart) (by simp)
  | privateSnake | privateCamel | dunderSnake | dunderCamel => exact iff_of_true rfl (by simp)

theorem not_isKeyword_of_head {name : String} (h : name.toList.head? = some '_') :
    isKeyword name = false := by
  by_contra hkeyword
  exact (keyword_chars (Bool.not_eq_false _ ▸ hkeyword)).1 h

theorem not_isKeyword_upper (s : List Char) : isKeyword (String.ofList (upper s)) = false := by
  by_contra hkeyword
  obtain ⟨c, hc, hsmall⟩ := List.any_eq_true.mp (keyword_chars (Bool.not_eq_false _ ▸ hkeyword)).2
  rw [String.toList_ofList] at hc
  obtain ⟨d, -, hd⟩ := List.mem_flatMap.mp hc
  rw [not_small_of_mem_upperChar hd] at hsmall
  cases hsmall

/-- Only three conventions can make a keyword of a name. -/
theorem not_isKeyword_recase {convention : Convention}
    (h : convention ∉ [.snake, .camel, .pascal]) (name : String) :
    isKeyword (convention.recase name) = false := by
  have hhead (text : List Char) : isKeyword (String.ofList ('_' :: text)) = false :=
    not_isKeyword_of_head (by rw [String.toList_ofList, List.head?_cons])
  cases convention with
  | snake | camel | pascal => simp at h
  | upper =>
    change isKeyword (String.ofList (upperSnake name.toList)) = false
    unfold upperSnake
    split <;> exact not_isKeyword_upper _
  | privateSnake | privateCamel | dunderSnake | dunderCamel => exact hhead _

/-- A usable name that is converted to one of the eight conventions, and does not vanish by that,
can be used again unless one of two things happens. Snake, camel or Pascal case makes a keyword of
it; or camel or Pascal case takes away the underscores in front of a character that cannot start an
identifier, not even as a capital. -/
theorem recased_usable_iff {name : String} (convention : Convention)
    (hname : nameFault? name = none) (hne : recaseAs name convention.name ≠ "") :
    nameFault? (recaseAs name convention.name) = none ↔
      (convention ∈ [.snake, .camel, .pascal] →
        isKeyword (recaseAs name convention.name) = false) ∧
      (convention ∈ [.camel, .pascal] → startsWord name.toList = true) := by
  rw [recaseAs_name] at hne ⊢
  have hident := (nameFault?_eq_none_iff.mp hname).1
  have hchars : convention.recaseChars name.toList ≠ [] := by
    intro hnil
    rw [Convention.recase, hnil] at hne
    exact hne rfl
  rw [nameFault?_eq_none_iff, Convention.recase, String.toList_ofList,
    isIdentifier_recaseChars_iff hident convention hchars, and_comm]
  refine and_congr_left fun _ => ⟨fun h _ => h, fun h => ?_⟩
  by_cases hmem : convention ∈ [.snake, .camel, .pascal]
  · exact h hmem
  · exact not_isKeyword_recase hmem name

theorem recased_usable_iff_sample :
    nameFault? "_load_2" = none ∧ recaseAs "_load_2" Convention.pascal.name = "Load2" ∧
      nameFault? (recaseAs "_load_2" Convention.pascal.name) = none := by
  have hname : nameFault? "_load_2" = none := by decide +kernel
  have hne : recaseAs "_load_2" Convention.pascal.name ≠ "" := by decide +kernel
  have hkeyword : isKeyword (recaseAs "_load_2" Convention.pascal.name) = false := by
    decide +kernel
  have hword : startsWord "_load_2".toList = true := by decide +kernel
  refine ⟨hname, by decide +kernel, ?_⟩
  exact (recased_usable_iff .pascal hname hne).mpr ⟨fun _ => hkeyword, fun _ => hword⟩

/-- Both things happen: a class becomes a keyword, and a number loses its underscore. -/
theorem unusable_after_recasing :
    (nameFault? "Class" = none ∧ recaseAs "Class" "snake_case" = "class" ∧
      nameFault? "class" = some (.keyword "class")) ∧
    nameFault? "_1" = none ∧ recaseAs "_1" "camelCase" = "1" ∧
      nameFault? "1" = some (.notIdentifier "1") := by
  decide +kernel

end Restyle.Naming
