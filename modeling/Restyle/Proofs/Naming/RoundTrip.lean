import Restyle.Proofs.Naming.WordBreaks

/-!
From snake case to camel or Pascal case and back. The words are put together without underscores,
and the way back has to find where they met. It does so at every word of two characters or more,
since a small letter or a digit stands at its end. A word of one letter is a capital by then, and is
told from the next word only if a small letter is second there. The main statement says that the
name comes back exactly if this holds of all words of one letter, except for the first one in camel
case, which stays small.
-/

namespace Restyle.Naming

open Text (isAscii isAscii_of_isDigit isDigit_iff)

/-- What the words of snake case go on with. -/
def isPlain (c : Char) : Bool := isSmall c || c.isDigit

/-- A small letter, then small letters and digits. -/
def isSnakeWord : List Char → Bool
  | [] => false
  | c :: w => isSmall c && w.all isPlain

def joined (words : List (List Char)) : List Char := List.intercalate ['_'] words

/-- A word of one letter has to be followed by a word with a small letter at its second place. -/
def ToldApart (w next : List Char) : Prop := w.length = 1 → next[1]?.any isSmall = true

instance (w next : List Char) : Decidable (ToldApart w next) :=
  inferInstanceAs (Decidable (_ → _))

/-! ### Characters and words -/

section Words

variable {a b c : Char} {w rest : List Char} {words : List (List Char)}

theorem isSmall_facts (h : isSmall c = true) :
    isCapital c.toUpper = true ∧ c.toUpper.toLower = c ∧ isPlain c = true := by
  refine ⟨?_, ?_, by rw [isPlain, h, Bool.true_or]⟩ <;> rw [isSmall_iff] at h
  · rw [isCapital_iff, Text.toNat_toUpper, if_pos h]
    omega
  · rw [← Char.toNat_inj, Text.toNat_toLower, Text.toNat_toUpper, if_pos h, if_pos (by omega)]
    omega

theorem isAscii_of_isPlain (h : isPlain c = true) : isAscii c = true :=
  (Bool.or_eq_true_iff.mp h).elim isAscii_of_isSmall isAscii_of_isDigit

theorem isPlain_facts (h : isPlain c = true) :
    isCapital c = false ∧ c.toLower = c ∧ c ≠ '_' := by
  rw [isPlain, Bool.or_eq_true, isSmall_iff, isDigit_iff] at h
  have hother : ¬(65 ≤ c.toNat ∧ c.toNat ≤ 90) := by omega
  refine ⟨?_, by rw [← Char.toNat_inj, Text.toNat_toLower, if_neg hother], ?_⟩
  · rwa [← Bool.not_eq_true, isCapital_iff]
  · rintro rfl
    simp at h

theorem isSnakeWord_cons : isSnakeWord (c :: w) = true ↔ isSmall c = true ∧ w.all isPlain = true :=
  Bool.and_eq_true_iff

theorem exists_of_isSnakeWord (h : isSnakeWord w = true) :
    ∃ c v, w = c :: v ∧ isSmall c = true ∧ v.all isPlain = true := by
  cases w with
  | nil => cases h
  | cons c w => exact ⟨c, w, rfl, isSnakeWord_cons.mp h⟩

theorem isPlain_of_isSnakeWord (h : isSnakeWord w = true) : ∀ c ∈ w, isPlain c = true := by
  obtain ⟨c, v, rfl, hc, hv⟩ := exists_of_isSnakeWord h
  exact List.forall_mem_cons.mpr ⟨(isSmall_facts hc).2.2, List.all_eq_true.mp hv⟩

theorem map_toLower_of_isPlain (h : w.all isPlain = true) : w.map Char.toLower = w :=
  Text.map_toLower_eq_self fun c hc => (isPlain_facts (List.all_eq_true.mp h c hc)).2.1

theorem all_isAscii_of_isPlain (h : w.all isPlain = true) : w.all isAscii = true :=
  List.all_eq_true.mpr fun c hc => isAscii_of_isPlain (List.all_eq_true.mp h c hc)

theorem capitalize_snakeWord (hc : isSmall c = true) (hw : w.all isPlain = true) :
    Text.capitalize (c :: w) = c.toUpper :: w := by
  rw [Text.capitalize_ascii (isAscii_of_isSmall hc) (all_isAscii_of_isPlain hw),
    map_toLower_of_isPlain hw]

theorem all_isAscii_flatMap_capitalize (h : ∀ w ∈ words, isSnakeWord w = true) :
    (words.flatMap Text.capitalize).all isAscii = true := by
  refine List.all_eq_true.mpr fun d hd => ?_
  obtain ⟨w, hw, hmem⟩ := List.mem_flatMap.mp hd
  obtain ⟨c, v, rfl, hc, hv⟩ := exists_of_isSnakeWord (h w hw)
  rw [capitalize_snakeWord hc hv] at hmem
  rcases List.mem_cons.mp hmem with rfl | hmem
  · exact isAscii_of_isCapital (isSmall_facts hc).1
  · exact isAscii_of_isPlain (List.all_eq_true.mp hv d hmem)

/-! ### Joined words -/

@[simp] theorem joined_singleton (w : List Char) : joined [w] = w := by
  simp [joined]

@[simp] theorem joined_cons_cons (w v : List Char) (words : List (List Char)) :
    joined (w :: v :: words) = w ++ '_' :: joined (v :: words) :=
  Text.intercalate_sep_cons_cons '_' w v words

theorem mem_joined {d : Char} (hd : d ∈ joined words) : d = '_' ∨ ∃ w ∈ words, d ∈ w := by
  induction words with
  | nil => cases hd
  | cons w words ih =>
    cases words with
    | nil => exact .inr ⟨w, List.mem_cons_self, by simpa using hd⟩
    | cons v words =>
      rw [joined_cons_cons, List.mem_append, List.mem_cons] at hd
      rcases hd with hd | rfl | hd
      · exact .inr ⟨w, List.mem_cons_self, hd⟩
      · exact .inl rfl
      · rcases ih hd with rfl | ⟨u, hu, hmem⟩
        · exact .inl rfl
        · exact .inr ⟨u, List.mem_cons_of_mem w hu, hmem⟩

theorem lower_joined (h : ∀ w ∈ words, isSnakeWord w = true) :
    Text.lower (joined words) = joined words := by
  have hchars : ∀ d ∈ joined words, isAscii d = true ∧ d.toLower = d := by
    intro d hd
    rcases mem_joined hd with rfl | ⟨w, hw, hmem⟩
    · decide
    · have hplain := isPlain_of_isSnakeWord (h w hw) d hmem
      exact ⟨isAscii_of_isPlain hplain, (isPlain_facts hplain).2.1⟩
  rw [Text.lower_ascii (List.all_eq_true.mpr fun d hd => (hchars d hd).1)]
  exact Text.map_toLower_eq_self fun d hd => (hchars d hd).2

theorem underscore_notMem (h : isSnakeWord w = true) : '_' ∉ w :=
  fun hmem => (isPlain_facts (isPlain_of_isSnakeWord h '_' hmem)).2.2 rfl

theorem lowerWords_joined (hne : words ≠ []) (h : ∀ w ∈ words, isSnakeWord w = true) :
    lowerWords (joined words) = words := by
  rw [lowerWords, lower_joined h]
  exact Text.splitOn_intercalate hne fun w hw => underscore_notMem (h w hw)

theorem pascal_joined (hne : words ≠ []) (h : ∀ w ∈ words, isSnakeWord w = true) :
    pascal (joined words) = words.flatMap Text.capitalize := by
  have hwords := lowerWords_joined hne h
  obtain ⟨w, words, rfl⟩ := List.exists_cons_of_ne_nil hne
  obtain ⟨hw, -⟩ := List.forall_mem_cons.mp h
  obtain ⟨c, v, rfl, hc, hv⟩ := exists_of_isSnakeWord hw
  cases words with
  | nil =>
    have hcontains : (c :: v).contains '_' = false := by simpa using underscore_notMem hw
    rw [joined_singleton, pascal, hcontains, if_neg Bool.false_ne_true,
      Text.upperChar_ascii (isAscii_of_isSmall hc), List.flatMap_singleton,
      capitalize_snakeWord hc hv, List.singleton_append]
  | cons u words =>
    rw [joined_cons_cons, List.cons_append] at hwords ⊢
    rw [pascal, hwords, if_pos (by simp)]

theorem camel_joined {words : List (List Char)} (h : ∀ u ∈ w :: words, isSnakeWord u = true) :
    camel (joined (w :: words)) = w ++ words.flatMap Text.capitalize := by
  have hwords := lowerWords_joined (List.cons_ne_nil w words) h
  obtain ⟨hw, -⟩ := List.forall_mem_cons.mp h
  obtain ⟨c, v, rfl, hc, hv⟩ := exists_of_isSnakeWord hw
  cases words with
  | nil =>
    have hcontains : (c :: v).contains '_' = false := by simpa using underscore_notMem hw
    have hlower := (isPlain_facts (isSmall_facts hc).2.2).2.1
    rw [joined_singleton, camel, hcontains, if_neg Bool.false_ne_true,
      Text.lowerChar_ascii (isAscii_of_isSmall hc), hlower]
    simp
  | cons u words =>
    rw [joined_cons_cons, List.cons_append] at hwords ⊢
    rw [camel, hwords, if_pos (by simp)]

/-! ### Finding the words again -/

theorem isWordBreak_of_isPlain (ha : isPlain a = true) (hb : isCapital b = true)
    (next : Option Char) : isWordBreak a b next = true := by
  rw [isPlain] at ha
  simp [isWordBreak, ha, hb]

theorem isWordBreak_of_isCapital (ha : isCapital a = true) (hb : isCapital b = true)
    (next : Option Char) : isWordBreak a b next = next.any isSmall := by
  simp [isWordBreak, others_of_isCapital ha, ha, hb]

/-- Behind a word of two characters or more there is a break, and behind a single character there
may be one. -/
theorem breakWords_word (hw : w.all isPlain = true) (hb : isCapital b = true) (a : Char)
    (rest : List Char) :
    breakWords (a :: (w ++ b :: rest)) =
      a :: (w ++ if w.isEmpty && !isWordBreak a b rest.head? then breakWords (b :: rest)
        else '_' :: breakWords (b :: rest)) := by
  induction w generalizing a with
  | nil =>
    rw [List.nil_append, breakWords]
    cases isWordBreak a b rest.head? <;> rfl
  | cons d w ih =>
    rw [List.all_cons, Bool.and_eq_true] at hw
    have hinside : isWordBreak a d (w ++ b :: rest).head? = false := by
      simp [isWordBreak, (isPlain_facts hw.1).1]
    rw [List.cons_append, breakWords, hinside, if_neg Bool.false_ne_true, ih hw.2,
      isWordBreak_of_isPlain hw.1 hb]
    simp

/-- Where a word of one letter ends, the character after the next capital is that of the next word,
or none that is small. -/
theorem any_head?_append_capitalized {v : List Char} (h : ∀ w ∈ words, isSnakeWord w = true) :
    (v ++ words.flatMap Text.capitalize).head?.any isSmall = v.head?.any isSmall := by
  cases v with
  | cons d v => rfl
  | nil =>
    cases words with
    | nil => rfl
    | cons w words =>
      obtain ⟨hw, -⟩ := List.forall_mem_cons.mp h
      obtain ⟨c, w, rfl, hc, hplain⟩ := exists_of_isSnakeWord hw
      have hcapital := (isSmall_facts hc).1
      simp [capitalize_snakeWord hc hplain, (others_of_isCapital hcapital).1]

/-- What comes back of a name: its words in lower case, with underscores where there are breaks. -/
def foundWords (words : List (List Char)) : List Char :=
  (breakWords (words.flatMap Text.capitalize)).map Char.toLower

theorem foundWords_cons_ne (hw : isSnakeWord w = true) (words : List (List Char))
    (t : List Char) : foundWords (w :: words) ≠ '_' :: t := by
  obtain ⟨c, v, rfl, hc, hv⟩ := exists_of_isSnakeWord hw
  intro heq
  have hhead : (foundWords ((c :: v) :: words)).head? = some c := by
    rw [foundWords, List.head?_map, head?_breakWords, List.flatMap_cons,
      capitalize_snakeWord hc hv, List.cons_append, List.head?_cons, Option.map_some,
      (isSmall_facts hc).2.1]
  rw [heq, List.head?_cons, Option.some_inj] at hhead
  exact (isPlain_facts (isSmall_facts hc).2.2).2.2 hhead.symm

/-- The first word comes back, and is parted from the others, if it does not end in a capital that
the next word cannot be told from. -/
theorem breakWords_append_eq_iff {v : List Char} (ha : isPlain a = true ∨ isCapital a = true)
    (hw : w.all isPlain = true) (h : ∀ u ∈ v :: words, isSnakeWord u = true) :
    (breakWords (a :: w ++ (v :: words).flatMap Text.capitalize)).map Char.toLower =
        a.toLower :: w ++ '_' :: joined (v :: words) ↔
      (isCapital a = true → w = [] → v[1]?.any isSmall = true) ∧
        foundWords (v :: words) = joined (v :: words) := by
  obtain ⟨hv, hwords⟩ := List.forall_mem_cons.mp h
  have hne := foundWords_cons_ne hv words (joined (v :: words))
  obtain ⟨c, v, rfl, hc, hplain⟩ := exists_of_isSnakeWord hv
  have hcapital := (isSmall_facts hc).1
  have htext : ((c :: v) :: words).flatMap Text.capitalize =
      c.toUpper :: (v ++ words.flatMap Text.capitalize) := by
    rw [List.flatMap_cons, capitalize_snakeWord hc hplain, List.cons_append]
  -- Only a capital alone can lack a break behind it, and then an underscore is missing: what comes
  -- next does not start with one.
  have hmissed : (w.isEmpty && !isWordBreak a c.toUpper
      (v ++ words.flatMap Text.capitalize).head?) = false ↔
        (isCapital a = true → w = [] → (c :: v)[1]?.any isSmall = true) := by
    rcases ha with ha | ha
    · simp [isWordBreak_of_isPlain ha hcapital, (isPlain_facts ha).1]
    · rw [isWordBreak_of_isCapital ha hcapital, any_head?_append_capitalized hwords]
      cases w <;> simp [ha, List.head?_eq_getElem?]
  rw [foundWords, htext] at hne ⊢
  rw [List.cons_append, breakWords_word hw hcapital, ← hmissed, List.map_cons, List.map_append,
    map_toLower_of_isPlain hw, List.cons_append, List.cons_inj_right, List.append_cancel_left_eq]
  cases w.isEmpty && !isWordBreak a c.toUpper (v ++ words.flatMap Text.capitalize).head? with
  | true => simpa using hne
  | false => simp [show '_'.toLower = '_' from rfl]

/-- In Pascal case all words start with capitals. -/
theorem foundWords_eq_joined_iff (hne : words ≠ []) (h : ∀ w ∈ words, isSnakeWord w = true) :
    foundWords words = joined words ↔ words.IsChain ToldApart := by
  induction words with
  | nil => exact absurd rfl hne
  | cons w words ih =>
    obtain ⟨hw, hwords⟩ := List.forall_mem_cons.mp h
    obtain ⟨c, w, rfl, hc, hplain⟩ := exists_of_isSnakeWord hw
    obtain ⟨hcapital, hback, -⟩ := isSmall_facts hc
    cases words with
    | nil =>
      have htail : ∀ d ∈ (c.toUpper :: w).tail, isCapital d = false :=
        fun d hd => (isPlain_facts (List.all_eq_true.mp hplain d hd)).1
      simp [foundWords, capitalize_snakeWord hc hplain, breakWords_of_tail htail, hback,
        map_toLower_of_isPlain hplain]
    | cons v words =>
      have hstep := breakWords_append_eq_iff (.inr hcapital) hplain hwords
      rw [hback, ih (List.cons_ne_nil v words) hwords] at hstep
      rw [foundWords, List.flatMap_cons, capitalize_snakeWord hc hplain, joined_cons_cons,
        hstep, List.isChain_cons_cons]
      simp [ToldApart, hcapital]

/-- In camel case the first word stays small. -/
theorem breakWords_camel_eq_joined_iff (h : ∀ u ∈ w :: words, isSnakeWord u = true) :
    (breakWords (w ++ words.flatMap Text.capitalize)).map Char.toLower = joined (w :: words) ↔
      words.IsChain ToldApart := by
  obtain ⟨hw, hwords⟩ := List.forall_mem_cons.mp h
  obtain ⟨c, w, rfl, hc, hplain⟩ := exists_of_isSnakeWord hw
  obtain ⟨hcapital, hlower, -⟩ := isPlain_facts (isSmall_facts hc).2.2
  cases words with
  | nil =>
    have htail : ∀ d ∈ (c :: w).tail, isCapital d = false :=
      fun d hd => (isPlain_facts (List.all_eq_true.mp hplain d hd)).1
    simp [breakWords_of_tail htail, hlower, map_toLower_of_isPlain hplain]
  | cons v words =>
    have hstep := breakWords_append_eq_iff (.inl (isSmall_facts hc).2.2) hplain hwords
    rw [hlower, foundWords_eq_joined_iff (List.cons_ne_nil v words) hwords] at hstep
    rw [joined_cons_cons, hstep]
    simp [hcapital]

end Words

/-- A name of snake case comes back from camel case exactly if every word of one letter from the
second word on, if another word follows, is followed by one with a small letter at its second place.
It comes back from Pascal case exactly if the same holds from the first word on. -/
theorem snake_of_joined_iff {words : List (List Char)} (hne : words ≠ [])
    (hwords : ∀ w ∈ words, isSnakeWord w = true) :
    (snake (camel (joined words)) = joined words ↔ words.tail.IsChain ToldApart) ∧
      (snake (pascal (joined words)) = joined words ↔ words.IsChain ToldApart) := by
  constructor
  · obtain ⟨w, words, rfl⟩ := List.exists_cons_of_ne_nil hne
    obtain ⟨hw, hrest⟩ := List.forall_mem_cons.mp hwords
    have hascii : (w ++ words.flatMap Text.capitalize).all isAscii = true := by
      have hplain := List.all_eq_true.mpr (isPlain_of_isSnakeWord hw)
      rw [List.all_append, all_isAscii_of_isPlain hplain, all_isAscii_flatMap_capitalize hrest]
      rfl
    rw [camel_joined hwords, snake_ascii hascii, List.tail_cons]
    exact breakWords_camel_eq_joined_iff hwords
  · rw [pascal_joined hne hwords, snake_ascii (all_isAscii_flatMap_capitalize hwords)]
    exact foundWords_eq_joined_iff hne hwords

/-- The first letter is told from the second word in camel case, and not in Pascal case. -/
theorem snake_of_joined_iff_sample :
    (∀ w ∈ [['a'], ['b', '2'], ['c', 'd']], isSnakeWord w = true) ∧
      snake (camel "a_b2_cd".toList) = "a_b2_cd".toList ∧
      snake (pascal "a_b2_cd".toList) ≠ "a_b2_cd".toList := by
  have hwords : ∀ w ∈ [['a'], ['b', '2'], ['c', 'd']], isSnakeWord w = true := by decide
  have hname : joined [['a'], ['b', '2'], ['c', 'd']] = "a_b2_cd".toList := by decide +kernel
  have hback := snake_of_joined_iff (by simp) hwords
  rw [hname] at hback
  refine ⟨hwords, hback.1.mpr (by decide), fun hpascal => ?_⟩
  exact absurd (hback.2.mp hpascal) (by decide)

end Restyle.Naming
