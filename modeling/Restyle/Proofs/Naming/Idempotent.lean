import Restyle.Proofs.Config.Settings
import Restyle.Proofs.Naming.Strict
import Restyle.Proofs.Naming.WordBreaks

/-!
Converting a name twice. What a conversion gives has a form that the same conversion leaves alone.
Snake case has no capitals. Pascal case has no underscores and starts with no small letter. Camel
case has none either and starts with no capital, if the name does not start with an underscore.
Underscores that are put around a name are the ones that the second conversion takes away first,
since the name between them neither starts nor ends with one. So a second conversion changes
nothing.
-/

namespace Restyle.Naming

open Text

variable {c : Char} {s t : List Char}

/-! ### Snake case -/

theorem isCapital_toLower (c : Char) : isCapital c.toLower = false := by
  rw [← Bool.not_eq_true, isCapital_iff, toNat_toLower]
  split <;> omega

theorem all_isAscii_snake (hs : s.all isAscii = true) : (snake s).all isAscii = true := by
  rw [snake_ascii hs, List.all_map]
  refine List.all_eq_true.mpr fun c hc => ?_
  exact (toLower_facts (List.all_eq_true.mp (all_isAscii_breakWords hs) c hc)).1

theorem snake_snake (hs : s.all isAscii = true) : snake (snake s) = snake s := by
  have hchars : ∀ d ∈ snake s, isCapital d = false ∧ d.toLower = d := by
    rw [snake_ascii hs]
    intro d hd
    obtain ⟨c, hc, rfl⟩ := List.mem_map.mp hd
    have hascii := List.all_eq_true.mp (all_isAscii_breakWords hs) c hc
    exact ⟨isCapital_toLower c, (toLower_facts hascii).2.1⟩
  -- Without capitals there is no break, and each character is its own lower case.
  rw [snake_ascii (all_isAscii_snake hs),
    breakWords_of_tail fun d hd => (hchars d (List.mem_of_mem_tail hd)).1,
    map_toLower_eq_self fun d hd => (hchars d hd).2]

theorem breakWords_cons_ne_nil (c : Char) (s : List Char) : breakWords (c :: s) ≠ [] := by
  intro hnil
  have hhead := head?_breakWords (c :: s)
  simp [hnil] at hhead

theorem getLast?_breakWords (s : List Char) : (breakWords s).getLast? = s.getLast? := by
  fun_induction breakWords s with
  | case1 a b rest hbreak ih =>
    rw [List.getLast?_cons_cons, List.getLast?_cons_of_ne_nil (breakWords_cons_ne_nil b rest), ih,
      List.getLast?_cons_cons]
  | case2 a b rest hbreak ih =>
    rw [List.getLast?_cons_of_ne_nil (breakWords_cons_ne_nil b rest), ih, List.getLast?_cons_cons]
  | case3 s => rfl

/-! ### Underscores at the ends -/

structure Trimmed (s : List Char) : Prop where
  head : s.head? ≠ some '_'
  last : s.getLast? ≠ some '_'

theorem head?_trimUnderscoresLeft (s : List Char) : (trimUnderscoresLeft s).head? ≠ some '_' := by
  intro hhead
  have hstop := List.head?_dropWhile_not (· == '_') s
  rw [trimUnderscoresLeft] at hhead
  simp [hhead] at hstop

theorem trimUnderscoresLeft_of_head (h : t.head? ≠ some '_') : trimUnderscoresLeft t = t := by
  cases t with
  | nil => rfl
  | cons c t => exact trimUnderscoresLeft_of_ne (by simpa using h) t

theorem trimUnderscores_eq (s : List Char) :
    trimUnderscores s = (trimUnderscoresLeft (trimUnderscoresLeft s).reverse).reverse := rfl

theorem trimmed_trimUnderscores (s : List Char) : Trimmed (trimUnderscores s) := by
  rw [trimUnderscores_eq]
  have hhead := head?_trimUnderscoresLeft s
  generalize trimUnderscoresLeft s = u at hhead
  constructor
  · have hstart : (trimUnderscoresLeft u.reverse).reverse <+: u := by
      rw [← List.reverse_suffix, List.reverse_reverse]
      exact List.dropWhile_suffix _
    obtain ⟨rest, hrest⟩ := hstart
    intro hunderscore
    rw [← hrest, List.head?_append_of_ne_nil _ fun hnil => by simp [hnil] at hunderscore] at hhead
    exact hhead hunderscore
  · rw [List.getLast?_reverse]
    exact head?_trimUnderscoresLeft u.reverse

theorem trimUnderscores_dunder (h : Trimmed t) :
    trimUnderscores (['_', '_'] ++ t ++ ['_', '_']) = t := by
  cases t with
  | nil => rfl
  | cons c t =>
    have hc : c ≠ '_' := by simpa using h.head
    have hreverse : trimUnderscoresLeft (c :: t).reverse = (c :: t).reverse := by
      refine trimUnderscoresLeft_of_head ?_
      rw [List.head?_reverse]
      exact h.last
    have hleft : trimUnderscoresLeft (['_', '_'] ++ c :: t ++ ['_', '_']) =
        c :: t ++ ['_', '_'] := trimUnderscoresLeft_of_ne hc _
    rw [trimUnderscores_eq, hleft, List.reverse_append]
    change (trimUnderscoresLeft (c :: t).reverse).reverse = c :: t
    rw [hreverse, List.reverse_reverse]

theorem map_toLower_ne_underscore {d : Option Char} (hd : ∀ c ∈ d, isAscii c = true)
    (h : d ≠ some '_') : d.map Char.toLower ≠ some '_' := by
  intro hlower
  obtain ⟨c, rfl, hc⟩ := Option.map_eq_some_iff.mp hlower
  exact h (congrArg some ((toLower_facts (hd c rfl)).2.2.mp hc))

/-- Snake case does not put underscores at the ends. -/
theorem head?_snake (hs : s.all isAscii = true) (h : s.head? ≠ some '_') :
    (snake s).head? ≠ some '_' := by
  rw [snake_ascii hs, List.head?_map, head?_breakWords]
  exact map_toLower_ne_underscore
    (fun c hc => List.all_eq_true.mp hs c (List.mem_of_mem_head? hc)) h

theorem getLast?_snake (hs : s.all isAscii = true) (h : s.getLast? ≠ some '_') :
    (snake s).getLast? ≠ some '_' := by
  rw [snake_ascii hs, List.getLast?_map, getLast?_breakWords]
  exact map_toLower_ne_underscore
    (fun c hc => List.all_eq_true.mp hs c (List.mem_of_mem_getLast? hc)) h

/-! ### Pascal and camel case -/

/-- A name without underscores whose first character, in ASCII, is its own form in a case. -/
structure Compact (form : Char → Char) (s : List Char) : Prop where
  joined : '_' ∉ s
  head : ∀ c ∈ s.head?, isAscii c = true ∧ form c = c

theorem Compact.contains {form : Char → Char} (h : Compact form s) : s.contains '_' = false := by
  simpa using h.joined

theorem pascal_of_compact (h : Compact Char.toUpper s) : pascal s = s := by
  cases s with
  | nil => rfl
  | cons c s =>
    obtain ⟨hascii, hupper⟩ := h.head c rfl
    rw [pascal, h.contains, if_neg Bool.false_ne_true, upperChar_ascii hascii, hupper,
      List.singleton_append]

theorem camel_of_compact (h : Compact Char.toLower s) : camel s = s := by
  cases s with
  | nil => rfl
  | cons c s =>
    obtain ⟨hascii, hlower⟩ := h.head c rfl
    rw [camel, h.contains, if_neg Bool.false_ne_true, lowerChar_ascii hascii, hlower,
      List.singleton_append]

/-- The words of a name, which are cut at underscores. -/
theorem lowerWords_facts (hs : s.all isAscii = true) :
    ∀ w ∈ lowerWords s, w.all isAscii = true ∧ '_' ∉ w := by
  intro w hw
  refine ⟨List.all_eq_true.mpr fun d hd => ?_, notMem_of_mem_splitOn hw⟩
  have hmem := subset_of_mem_splitOn hw hd
  rw [lower_ascii hs] at hmem
  obtain ⟨c, hc, rfl⟩ := List.mem_map.mp hmem
  exact (toLower_facts (List.all_eq_true.mp hs c hc)).1

section Words

variable {words : List (List Char)}
  (h : ∀ w ∈ words, w.all isAscii = true ∧ '_' ∉ w)
include h

theorem underscore_notMem_flatMap_capitalize : '_' ∉ words.flatMap capitalize := by
  intro hmem
  obtain ⟨w, hw, hmem⟩ := List.mem_flatMap.mp hmem
  obtain ⟨hascii, hbare⟩ := h w hw
  cases w with
  | nil => cases hmem
  | cons c w =>
    rw [List.all_cons, Bool.and_eq_true] at hascii
    rw [capitalize_ascii hascii.1 hascii.2, List.mem_cons, List.mem_map] at hmem
    rcases hmem with hmem | ⟨d, hd, hmem⟩
    · have hc := (toUpper_facts hascii.1).2.2.mp hmem.symm
      exact hbare (hc ▸ List.mem_cons_self)
    · have hd' := (toLower_facts (List.all_eq_true.mp hascii.2 d hd)).2.2.mp hmem
      exact hbare (List.mem_cons_of_mem c (hd' ▸ hd))

theorem compact_flatMap_capitalize : Compact Char.toUpper (words.flatMap capitalize) := by
  refine ⟨underscore_notMem_flatMap_capitalize h, ?_⟩
  induction words with
  | nil => simp
  | cons w words ih =>
    obtain ⟨⟨hw, -⟩, hwords⟩ := List.forall_mem_cons.mp h
    cases w with
    | nil => exact ih hwords
    | cons c w =>
      rw [List.all_cons, Bool.and_eq_true] at hw
      obtain ⟨hupper, htwice, -⟩ := toUpper_facts hw.1
      simp [capitalize_ascii hw.1 hw.2, hupper, htwice]

end Words

theorem compact_pascal (hs : s.all isAscii = true) : Compact Char.toUpper (pascal s) := by
  cases s with
  | nil => exact ⟨by simp [pascal], by simp [pascal]⟩
  | cons c s =>
    have hc := List.all_eq_true.mp hs c List.mem_cons_self
    obtain ⟨hupper, htwice, hunderscore⟩ := toUpper_facts hc
    rw [pascal]
    split
    case isTrue => exact compact_flatMap_capitalize (lowerWords_facts hs)
    case isFalse hjoined =>
      rw [upperChar_ascii hc]
      refine ⟨?_, by simp [hupper, htwice]⟩
      simp only [List.contains_cons, Bool.or_eq_true, beq_iff_eq, List.contains_iff_mem, not_or]
        at hjoined
      simp only [List.singleton_append, List.mem_cons, not_or]
      exact ⟨fun h => hjoined.1 (hunderscore.mp h.symm).symm, hjoined.2⟩

/-- A name with an underscore in front has an empty first word, so its second one is capitalized. -/
theorem compact_camel (hs : s.all isAscii = true) (h : s.head? ≠ some '_') :
    Compact Char.toLower (camel s) := by
  cases s with
  | nil => exact ⟨by simp [camel], by simp [camel]⟩
  | cons c s =>
    have hc := List.all_eq_true.mp hs c List.mem_cons_self
    obtain ⟨hlower, htwice, hunderscore⟩ := toLower_facts hc
    have hbare : c.toLower ≠ '_' := fun heq => h (hunderscore.mp heq ▸ rfl)
    rw [camel]
    split
    case isTrue =>
      obtain ⟨w, ws, hwords⟩ : ∃ w ws, lowerWords (c :: s) = (c.toLower :: w) :: ws := by
        rw [lowerWords, lower_ascii hs, List.map_cons, splitOn_cons_ne hbare]
        exact ⟨_, _, rfl⟩
      have hfacts := lowerWords_facts hs
      rw [hwords] at hfacts
      obtain ⟨⟨-, hw⟩, hws⟩ := List.forall_mem_cons.mp hfacts
      rw [hwords]
      refine ⟨?_, by simp [hlower, htwice]⟩
      rw [List.mem_append, not_or]
      exact ⟨hw, underscore_notMem_flatMap_capitalize hws⟩
    case isFalse hjoined =>
      rw [lowerChar_ascii hc]
      refine ⟨?_, by simp [hlower, htwice]⟩
      rw [List.contains_iff_mem, List.mem_cons, not_or] at hjoined
      rw [List.singleton_append, List.mem_cons, not_or]
      exact ⟨Ne.symm hbare, hjoined.2⟩

theorem Compact.trimmed {form : Char → Char} (h : Compact form s) : Trimmed s :=
  ⟨fun hhead => h.joined (List.mem_of_mem_head? hhead),
    fun hlast => h.joined (List.mem_of_mem_getLast? hlast)⟩

/-! ### Converting again -/

theorem all_isAscii_trimUnderscoresLeft (hs : s.all isAscii = true) :
    (trimUnderscoresLeft s).all isAscii = true :=
  List.all_eq_true.mpr fun c hc =>
    List.all_eq_true.mp hs c (trimUnderscoresLeft_subset s hc)

theorem all_isAscii_trimUnderscores (hs : s.all isAscii = true) :
    (trimUnderscores s).all isAscii = true :=
  List.all_eq_true.mpr fun c hc => List.all_eq_true.mp hs c (trimUnderscores_subset s hc)

theorem trimUnderscoresLeft_private (h : t.head? ≠ some '_') :
    trimUnderscoresLeft ('_' :: t) = t := by
  rw [trimUnderscoresLeft_underscore, trimUnderscoresLeft_of_head h]

theorem recaseChars_recaseChars (hs : s.all isAscii = true) {c : Convention}
    (hcamel : c ≠ .camel) (hupper : c ≠ .upper) :
    c.recaseChars (c.recaseChars s) = c.recaseChars s := by
  have hleft := all_isAscii_trimUnderscoresLeft hs
  have hboth := all_isAscii_trimUnderscores hs
  cases c with
  | camel => exact absurd rfl hcamel
  | upper => exact absurd rfl hupper
  | snake => exact snake_snake hs
  | pascal => exact pascal_of_compact (compact_pascal hs)
  | privateSnake =>
    have hhead := head?_snake hleft (head?_trimUnderscoresLeft s)
    simp only [Convention.recaseChars, trimUnderscoresLeft_private hhead, snake_snake hleft]
  | privateCamel =>
    have hform := compact_camel hleft (head?_trimUnderscoresLeft s)
    simp only [Convention.recaseChars, trimUnderscoresLeft_private hform.trimmed.head,
      camel_of_compact hform]
  | dunderSnake =>
    obtain ⟨hhead, hlast⟩ := trimmed_trimUnderscores s
    have htrimmed : Trimmed (snake (trimUnderscores s)) :=
      ⟨head?_snake hboth hhead, getLast?_snake hboth hlast⟩
    simp only [Convention.recaseChars, trimUnderscores_dunder htrimmed, snake_snake hboth]
  | dunderCamel =>
    have hform := compact_camel hboth (trimmed_trimUnderscores s).head
    simp only [Convention.recaseChars, trimUnderscores_dunder hform.trimmed,
      camel_of_compact hform]

/-- In six of the conventions an ASCII name that was converted, by the lenient or by the strict
conversion, stays as it is when it is converted again. So an element with such a name does not get
another one. -/
theorem recased_stays {name : String} (hname : name.toList.all isAscii = true) {c : Convention}
    (hc : c ∈ [.snake, .pascal, .privateSnake, .privateCamel, .dunderSnake, .dunderCamel]) :
    recaseAs (recaseAs name c.name) c.name = recaseAs name c.name ∧
      (∃ new, recaseStrict name c.name = .ok new ∧ recaseStrict new c.name = .ok new) ∧
      ∀ (settings : Settings) (e : Element) (g : NamingGroup),
        NamingGroup.ofKind? e.kind = some g → settings.convention g = some c.name →
          e.name = recaseAs name c.name → settings.newName? e = none := by
  have hchars : c.recaseChars (c.recaseChars name.toList) = c.recaseChars name.toList :=
    recaseChars_recaseChars hname (fun heq => by simp [heq] at hc) (fun heq => by simp [heq] at hc)
  have htwice : c.recase (c.recase name) = c.recase name := by
    rw [Convention.recase, Convention.recase, String.toList_ofList, hchars]
  have hagain : recaseAs (recaseAs name c.name) c.name = recaseAs name c.name := by
    rw [recaseAs_name, recaseAs_name, htwice]
  refine ⟨hagain, ⟨c.recase name, recaseStrict_name c name, ?_⟩, ?_⟩
  · rw [recaseStrict_name, htwice]
  · intro settings e g hg hconvention he
    exact Settings.newName?_eq_none hg hconvention (by rw [he, hagain])

theorem recased_stays_sample :
    "__HTTPServer_2x".toList.all isAscii = true ∧
      recaseAs "__HTTPServer_2x" Convention.snake.name = "__http_server_2x" ∧
      recaseAs "__http_server_2x" Convention.snake.name = "__http_server_2x" ∧
      Settings.usual.newName? ⟨.function, "__http_server_2x", 1, 0, ""⟩ = none := by
  have hascii : "__HTTPServer_2x".toList.all isAscii = true := by decide +kernel
  have honce : recaseAs "__HTTPServer_2x" Convention.snake.name = "__http_server_2x" := by
    decide +kernel
  obtain ⟨htwice, -, hkeeps⟩ := recased_stays hascii (c := .snake) (by simp)
  rw [honce] at htwice hkeeps
  exact ⟨hascii, honce, htwice, hkeeps Settings.usual _ .functions rfl rfl rfl⟩

end Restyle.Naming
