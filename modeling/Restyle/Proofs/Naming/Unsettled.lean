import Mathlib.Data.List.Infix
import Restyle.Proofs.Naming.Idempotent
import Restyle.Proofs.Naming.Respelled
import Restyle.Proofs.Text.UpperCase

/-!
Names that a second conversion changes again. In camel case these are the names with underscores in
front of a letter: the words start with an empty one, so the first letter becomes a capital, and the
second conversion takes that back. In upper case they are the names that become a single word and
have a digit before a small letter: that letter becomes a capital, so the second conversion finds a
word break there. No other ASCII name is changed again.
-/

namespace Restyle.Naming

open Text

variable {c : Char} {s : List Char}

/-! ### Letters -/

theorem isLetter_ascii (hc : isAscii c = true) : isLetter c = (isCapital c || isSmall c) := by
  have hletter : isLetter c = (c.isUpper || c.isLower) := if_pos hc
  rw [hletter, Bool.eq_iff_iff, Bool.or_eq_true, Bool.or_eq_true, isUpper_iff, isLower_iff,
    isCapital_iff, isSmall_iff]

theorem isCapital_toUpper (c : Char) : isCapital c.toUpper = (isCapital c || isSmall c) := by
  rw [Bool.eq_iff_iff, Bool.or_eq_true, isCapital_iff, isCapital_iff, isSmall_iff, toNat_toUpper]
  split <;> omega

theorem isSmall_toUpper (c : Char) : isSmall c.toUpper = false := by
  rw [← Bool.not_eq_true, isSmall_iff, toNat_toUpper]
  split <;> omega

theorem toLower_eq_self_iff : c.toLower = c ↔ isCapital c = false := by
  rw [← Char.toNat_inj, toNat_toLower, ← Bool.not_eq_true, isCapital_iff]
  split <;> omega

/-! ### Camel case -/

theorem lowerWords_underscore (hs : s.all isAscii = true) :
    lowerWords ('_' :: s) = [] :: lowerWords s := by
  have hascii : ('_' :: s).all isAscii = true := by rwa [List.all_cons]
  rw [lowerWords, lower_ascii hascii, lowerWords, lower_ascii hs]
  rfl

theorem camel_underscore (hs : s.all isAscii = true) :
    camel ('_' :: s) = (lowerWords s).flatMap capitalize := by
  rw [camel, List.contains_cons, beq_self_eq_true, Bool.true_or, if_pos rfl,
    lowerWords_underscore hs]
  rfl

/-- The first letter becomes a capital, whatever underscores stand in front of it. -/
theorem head?_flatMap_capitalize (hs : s.all isAscii = true) :
    ((lowerWords s).flatMap capitalize).head? =
      (trimUnderscoresLeft s).head?.map Char.toUpper := by
  induction s with
  | nil => rfl
  | cons c s ih =>
    have hparts := hs
    rw [List.all_cons, Bool.and_eq_true] at hparts
    obtain ⟨hlower, -, hunderscore⟩ := toLower_facts hparts.1
    by_cases hc : c = '_'
    · subst hc
      rw [lowerWords_underscore hparts.2, trimUnderscoresLeft_underscore, ← ih hparts.2]
      rfl
    · obtain ⟨w, ws, hwords⟩ : ∃ w ws, lowerWords (c :: s) = (c.toLower :: w) :: ws := by
        rw [lowerWords, lower_ascii hs, List.map_cons,
          splitOn_cons_ne fun heq => hc (hunderscore.mp heq)]
        exact ⟨_, _, rfl⟩
      rw [hwords, trimUnderscoresLeft_of_ne hc, List.flatMap_cons, capitalize,
        titleChar_ascii hlower, toUpper_toLower]
      rfl

theorem camel_eq_self_iff (hs : s.all isAscii = true) (h : '_' ∉ s) :
    camel s = s ↔ s.head?.any isCapital = false := by
  cases s with
  | nil => exact iff_of_true rfl rfl
  | cons c s =>
    have hc := List.all_eq_true.mp hs c List.mem_cons_self
    have hjoined : (c :: s).contains '_' = false := by simpa using h
    rw [camel, hjoined, if_neg Bool.false_ne_true, lowerChar_ascii hc, List.singleton_append,
      List.cons.injEq, and_iff_left rfl, toLower_eq_self_iff, List.head?_cons, Option.any_some]

/-- A name with underscores in front whose first other character is a letter. -/
def PrivateLetter (s : List Char) : Prop :=
  s.head? = some '_' ∧ (trimUnderscoresLeft s).head?.any isLetter = true

theorem camel_camel_iff (hs : s.all isAscii = true) :
    camel (camel s) = camel s ↔ ¬ PrivateLetter s := by
  by_cases hhead : s.head? = some '_'
  · obtain ⟨r, rfl⟩ := List.head?_eq_some_iff.mp hhead
    have hr : r.all isAscii = true := by rwa [List.all_cons] at hs
    have hcamel : (camel ('_' :: r)).all isAscii = true := ((respelled_camel _).letters_eq hs).1
    rw [camel_underscore hr] at hcamel ⊢
    rw [camel_eq_self_iff hcamel (underscore_notMem_flatMap_capitalize (lowerWords_facts hr)),
      head?_flatMap_capitalize hr, PrivateLetter, and_iff_right hhead,
      trimUnderscoresLeft_underscore, ← Bool.not_eq_true, not_iff_not]
    cases hfirst : (trimUnderscoresLeft r).head? with
    | none => rfl
    | some d =>
      have hd := List.all_eq_true.mp (all_isAscii_trimUnderscoresLeft hr) d
        (List.mem_of_mem_head? hfirst)
      rw [Option.map_some, Option.any_some, Option.any_some, isCapital_toUpper,
        isLetter_ascii hd]
  · exact iff_of_true (camel_of_compact (compact_camel hs hhead)) fun h => hhead h.1

/-! ### Word breaks -/

/-- A name has no breaks exactly if none is found at any of its places. -/
theorem breakWords_eq_self_iff :
    breakWords s = s ↔ ∀ a b rest, a :: b :: rest <:+ s → isWordBreak a b rest.head? = false := by
  fun_induction breakWords s with
  | case1 a b rest hbreak ih =>
    refine iff_of_false (fun heq => ?_) fun h => ?_
    · -- the underscore would have to be the capital that starts the word
      have hb : b = '_' := (List.cons.inj (List.cons.inj heq).2).1.symm
      subst hb
      simp [isWordBreak, show isCapital '_' = false by decide] at hbreak
    · rw [h a b rest List.suffix_rfl] at hbreak
      cases hbreak
  | case2 a b rest hbreak ih =>
    rw [List.cons.injEq, and_iff_right rfl, ih]
    constructor
    · intro h a' b' rest' hsuffix
      rcases List.suffix_cons_iff.mp hsuffix with heq | hlater
      · cases heq
        simpa using hbreak
      · exact h a' b' rest' hlater
    · intro h a' b' rest' hsuffix
      exact h a' b' rest' (hsuffix.trans (List.suffix_cons a (b :: rest)))
  | case3 s hshort =>
    refine iff_of_true rfl fun a b rest hsuffix => ?_
    obtain ⟨before, rfl⟩ := hsuffix
    cases before with
    | nil => exact (hshort a b rest rfl).elim
    | cons x before => cases before <;> exact (hshort _ _ _ rfl).elim

theorem breakWords_eq_self_of_notMem (h : '_' ∉ breakWords s) : breakWords s = s := by
  fun_induction breakWords s with
  | case1 a b rest hbreak ih => simp at h
  | case2 a b rest hbreak ih => rw [ih fun hmem => h (List.mem_cons_of_mem a hmem)]
  | case3 s => rfl

/-- In a name without small letters a word only starts after a digit. -/
theorem breakWords_eq_self_iff_digits (h : ∀ c ∈ s, isSmall c = false) :
    breakWords s = s ↔ ∀ a b, [a, b] <:+: s → a.isDigit = true → isCapital b = false := by
  have hbreak {a b : Char} {rest : List Char} (hsuffix : a :: b :: rest <:+ s) :
      isWordBreak a b rest.head? = (a.isDigit && isCapital b) := by
    have hnext : rest.head?.any isSmall = false := by
      cases rest with
      | nil => rfl
      | cons c rest => exact h c (hsuffix.subset (by simp))
    rw [isWordBreak, h a (hsuffix.subset (by simp)), hnext, Bool.false_or, Bool.and_false,
      Bool.or_false]
  rw [breakWords_eq_self_iff]
  constructor
  · rintro hnone a b ⟨before, rest, hparts⟩ hdigit
    have hsuffix : a :: b :: rest <:+ s := ⟨before, by simpa using hparts⟩
    have hjoined := hnone a b rest hsuffix
    rwa [hbreak hsuffix, hdigit, Bool.true_and] at hjoined
  · rintro hnone a b rest hsuffix
    have hnear : [a, b] <:+: s := ((List.prefix_append [a, b] rest).isInfix).trans hsuffix.isInfix
    rw [hbreak hsuffix, Bool.and_eq_false_imp]
    exact hnone a b hnear

/-! ### Upper case -/

section

variable (hs : s.all isAscii = true)

include hs

theorem underscore_mem_snake_iff : '_' ∈ snake s ↔ '_' ∈ breakWords s := by
  rw [snake_ascii hs, List.mem_map]
  constructor
  · rintro ⟨c, hc, hunderscore⟩
    have hascii := List.all_eq_true.mp (all_isAscii_breakWords hs) c hc
    rwa [(toLower_facts hascii).2.2.mp hunderscore] at hc
  · intro hmem
    exact ⟨'_', hmem, rfl⟩

theorem upperSnake_of_mem (h : '_' ∈ s) : upperSnake s = s.map Char.toUpper := by
  rw [upperSnake, if_pos (List.contains_iff_mem.mpr h), upper_ascii hs]

theorem upperSnake_of_notMem (h : '_' ∉ s) : upperSnake s = (breakWords s).map Char.toUpper := by
  rw [upperSnake, if_neg fun hmem => h (List.contains_iff_mem.mp hmem),
    upper_ascii (all_isAscii_snake hs), snake_ascii hs, List.map_map]
  exact List.map_congr_left fun c _ => toUpper_toLower c

/-- With an underscore, a name in upper case stays. -/
theorem upperSnake_map_toUpper (h : '_' ∈ s) :
    upperSnake (s.map Char.toUpper) = s.map Char.toUpper := by
  rw [upperSnake_of_mem (all_isAscii_map_toUpper hs) ((underscore_mem_map_toUpper_iff hs).mpr h),
    map_toUpper_map_toUpper hs]

/-- Without one, it stays if no break is found in it. -/
theorem upperSnake_map_toUpper_iff (h : '_' ∉ s) :
    upperSnake (s.map Char.toUpper) = s.map Char.toUpper ↔
      ∀ a b, [a, b] <:+: s → a.isDigit = true → isCapital b = false ∧ isSmall b = false := by
  have hupper := all_isAscii_map_toUpper hs
  have hjoined : '_' ∉ s.map Char.toUpper := mt (underscore_mem_map_toUpper_iff hs).mp h
  have hsmall : ∀ c ∈ s.map Char.toUpper, isSmall c = false := by
    intro c hc
    obtain ⟨d, -, rfl⟩ := List.mem_map.mp hc
    exact isSmall_toUpper d
  have hbreaks : (breakWords (s.map Char.toUpper)).map Char.toUpper = s.map Char.toUpper ↔
      breakWords (s.map Char.toUpper) = s.map Char.toUpper := by
    constructor
    · intro hsame
      refine breakWords_eq_self_of_notMem fun hmem => hjoined ?_
      rw [← hsame]
      exact (underscore_mem_map_toUpper_iff (all_isAscii_breakWords hupper)).mpr hmem
    · intro hsame
      rw [hsame, map_toUpper_map_toUpper hs]
  rw [upperSnake_of_notMem hupper hjoined, hbreaks, breakWords_eq_self_iff_digits hsmall]
  constructor
  · intro hnone a b hnear hdigit
    have hcapital := hnone a.toUpper b.toUpper (hnear.map Char.toUpper) (by rwa [isDigit_toUpper])
    rwa [isCapital_toUpper, Bool.or_eq_false_iff] at hcapital
  · intro hnone a b hnear hdigit
    obtain ⟨w, hw, hpair⟩ := List.infix_map_iff.mp hnear
    obtain ⟨a', w, rfl, rfl, hrest⟩ := List.map_eq_cons_iff.mp hpair.symm
    obtain ⟨b', w, rfl, rfl, hnil⟩ := List.map_eq_cons_iff.mp hrest
    obtain rfl := List.map_eq_nil_iff.mp hnil
    rw [isDigit_toUpper] at hdigit
    rw [isCapital_toUpper, Bool.or_eq_false_iff]
    exact hnone a' b' hw hdigit

/-- A name that is a single word and has a digit before a small letter. -/
def HiddenBreak (s : List Char) : Prop :=
  '_' ∉ snake s ∧ ∃ a b, [a, b] <:+: s ∧ a.isDigit = true ∧ isSmall b = true

theorem upperSnake_upperSnake_iff : upperSnake (upperSnake s) = upperSnake s ↔ ¬ HiddenBreak s := by
  by_cases hsnake : '_' ∈ snake s
  · refine iff_of_true ?_ fun h => h.1 hsnake
    rw [underscore_mem_snake_iff hs] at hsnake
    by_cases hmem : '_' ∈ s
    · rw [upperSnake_of_mem hs hmem, upperSnake_map_toUpper hs hmem]
    · rw [upperSnake_of_notMem hs hmem,
        upperSnake_map_toUpper (all_isAscii_breakWords hs) hsnake]
  · -- a single word, in which no capital stands after a digit
    have hword := breakWords_eq_self_of_notMem (mt (underscore_mem_snake_iff hs).mpr hsnake)
    have hjoined : '_' ∉ s := by
      rw [← hword]
      exact mt (underscore_mem_snake_iff hs).mpr hsnake
    have hcapital {a b : Char} (hnear : [a, b] <:+: s) (hdigit : a.isDigit = true) :
        isCapital b = false := by
      obtain ⟨before, rest, hparts⟩ := hnear
      have hnone := breakWords_eq_self_iff.mp hword a b rest ⟨before, by simpa using hparts⟩
      rw [isWordBreak, hdigit, Bool.or_true, Bool.true_and, Bool.or_eq_false_iff] at hnone
      exact hnone.1
    rw [upperSnake_of_notMem hs hjoined, hword, upperSnake_map_toUpper_iff hs hjoined, HiddenBreak,
      and_iff_right hsnake]
    constructor
    · rintro hnone ⟨a, b, hnear, hdigit, hsmall⟩
      rw [(hnone a b hnear hdigit).2] at hsmall
      cases hsmall
    · intro hnone a b hnear hdigit
      refine ⟨hcapital hnear hdigit, ?_⟩
      rw [← Bool.not_eq_true]
      exact fun hsmall => hnone ⟨a, b, hnear, hdigit, hsmall⟩

end

/-! ### Converting again -/

/-- What a conversion makes of a name stays as it is when it is converted again, by the lenient and
by the strict conversion. -/
def Settles (c : Convention) (name : String) : Prop :=
  recaseAs (recaseAs name c.name) c.name = recaseAs name c.name ∧
    ∃ new, recaseStrict name c.name = .ok new ∧ recaseStrict new c.name = .ok new

theorem settles_iff {c : Convention} {name : String} :
    Settles c name ↔ c.recaseChars (c.recaseChars name.toList) = c.recaseChars name.toList := by
  have htwice : c.recase (c.recase name) = c.recase name ↔
      c.recaseChars (c.recaseChars name.toList) = c.recaseChars name.toList := by
    rw [Convention.recase, Convention.recase, String.toList_ofList, String.ofList_inj]
  rw [Settles, recaseAs_name, recaseAs_name, recaseStrict_name, ← htwice]
  constructor
  · exact And.left
  · intro hsame
    exact ⟨hsame, c.recase name, rfl, by rw [recaseStrict_name, hsame]⟩

/-- An ASCII name settles in camel case unless it has underscores in front of a letter, and in upper
case unless it is a single word with a digit before a small letter. -/
theorem settles_unless_hidden {name : String} (hname : name.toList.all isAscii = true) :
    (Settles .camel name ↔ ¬ PrivateLetter name.toList) ∧
      (Settles .upper name ↔ ¬ HiddenBreak name.toList) := by
  rw [settles_iff, settles_iff]
  exact ⟨camel_camel_iff hname, upperSnake_upperSnake_iff hname⟩

theorem settles_unless_hidden_sample :
    "utf8bom".toList.all isAscii = true ∧
      Settles .camel "utf8bom" ∧ ¬ Settles .upper "utf8bom" := by
  have hascii : "utf8bom".toList.all isAscii = true := by decide +kernel
  obtain ⟨hcamel, hupper⟩ := settles_unless_hidden hascii
  refine ⟨hascii, hcamel.mpr fun h => ?_, fun h => hupper.mp h ⟨by decide +kernel, '8', 'b', ?_⟩⟩
  · exact absurd h.1 (by decide +kernel)
  · exact ⟨⟨"utf".toList, "om".toList, by decide +kernel⟩, by decide, by decide⟩

/-- Two names that can be used and are changed by a second conversion. -/
theorem converted_twice_differs :
    (nameFault? "_name" = none ∧ recaseAs "_name" "camelCase" = "Name" ∧
        recaseAs "Name" "camelCase" = "name") ∧
      nameFault? "utf8bom" = none ∧ recaseAs "utf8bom" "UPPER_CASE" = "UTF8BOM" ∧
        recaseAs "UTF8BOM" "UPPER_CASE" = "UTF8_BOM" := by
  decide +kernel

end Restyle.Naming
