import Restyle.Proofs.Naming.Spelled
import Restyle.Proofs.Naming.Strict
import Restyle.Proofs.Text.LowerCase

/-!
What conversions keep of a name. They change the case of characters, put underscores in and leave
underscores out, and nothing else, so a new name is a respelling of the old one. Two names that can
become the same are akin. ASCII names are akin if they have the same letters and digits in the same
order, if case does not count, and only then. So has an ASCII name in any of the conventions.
-/

namespace Restyle.Naming

open Text

/-! ### Respelling -/

/-- The forms of a character in lower, upper and title case. A capital sigma has two forms in lower
case. -/
def caseForms (c : Char) : List (List Char) :=
  [[c], lowerChar c, upperChar c, titleChar c] ++ if c = 'Σ' then [['σ'], ['ς']] else []

/-- A text is another one up to case and underscores. -/
inductive Respelled : List Char → List Char → Prop
  | nil : Respelled [] []
  | char {c : Char} {form s t : List Char} (hform : form ∈ caseForms c) (h : Respelled s t) :
      Respelled (c :: s) (form ++ t)
  | insert {s t : List Char} (h : Respelled s t) : Respelled s ('_' :: t)
  | drop {s t : List Char} (h : Respelled s t) : Respelled ('_' :: s) t
  | trans {s t u : List Char} (h : Respelled s t) (h' : Respelled t u) : Respelled s u

namespace Respelled

variable {s s' t t' : List Char}

theorem cons (c : Char) (h : Respelled s t) : Respelled (c :: s) (c :: t) := by
  have hform : [c] ∈ caseForms c := by simp [caseForms]
  exact .char hform h

@[refl] theorem refl (s : List Char) : Respelled s s := by
  induction s with
  | nil => exact .nil
  | cons c s ih => exact ih.cons c

theorem append (h : Respelled s t) (h' : Respelled s' t') :
    Respelled (s ++ s') (t ++ t') := by
  induction h generalizing s' t' with
  | nil => exact h'
  | char hform _ ih =>
    rw [List.append_assoc]
    exact .char hform (ih h')
  | insert _ ih => exact .insert (ih h')
  | drop _ ih => exact .drop (ih h')
  | trans _ _ ih ih' => exact (ih h').trans (ih' (refl t'))

theorem flatMap {f : Char → List Char} (h : ∀ c, f c ∈ caseForms c) (s : List Char) :
    Respelled s (s.flatMap f) := by
  induction s with
  | nil => exact .nil
  | cons c s ih => exact .char (h c) ih

theorem flatMap_words {f : List Char → List Char} (h : ∀ word, Respelled word (f word))
    (words : List (List Char)) : Respelled words.flatten (words.flatMap f) := by
  induction words with
  | nil => exact .nil
  | cons word words ih => exact (h word).append ih

theorem of_underscores (h : ∀ c ∈ s, c = '_') : Respelled s [] := by
  induction s with
  | nil => exact .nil
  | cons c s ih =>
    obtain ⟨rfl, hs⟩ := List.forall_mem_cons.mp h
    exact .drop (ih hs)

end Respelled

/-! ### Conversions -/

theorem respelled_lowerAfter (before s : List Char) : Respelled s (lowerAfter before s) := by
  induction s generalizing before with
  | nil => exact .nil
  | cons c s ih =>
    refine .char ?_ (ih (c :: before))
    split
    case isTrue hsigma => split <;> simp [caseForms, hsigma]
    case isFalse => simp [caseForms]

theorem respelled_lower (s : List Char) : Respelled s (lower s) := respelled_lowerAfter [] s

theorem respelled_upper (s : List Char) : Respelled s (upper s) :=
  .flatMap (fun c => by simp [caseForms]) s

theorem respelled_capitalize (s : List Char) : Respelled s (capitalize s) := by
  cases s with
  | nil => exact .nil
  | cons c s => exact .char (by simp [caseForms]) (respelled_lowerAfter [c] s)

theorem respelled_breakAfterSmall (s : List Char) : Respelled s (breakAfterSmall s) := by
  fun_induction breakAfterSmall s with
  | case1 a b rest _ ih => exact .cons a (.insert ih)
  | case2 a b rest _ ih => exact .cons a ih
  | case3 s => exact .refl s

theorem respelled_breakAcronym (s : List Char) : Respelled s (breakAcronym s) := by
  fun_induction breakAcronym s with
  | case1 a b c rest _ ih => exact .cons a (.insert ih)
  | case2 a b c rest _ ih => exact .cons a ih
  | case3 s => exact .refl s

theorem respelled_flatten_splitOn (s : List Char) : Respelled s (splitOn '_' s).flatten := by
  induction s with
  | nil => exact .nil
  | cons c s ih =>
    unfold splitOn
    split
    case isTrue hc =>
      subst hc
      exact .drop ih
    case isFalse =>
      obtain ⟨w, ws, hwords⟩ := List.exists_cons_of_ne_nil (splitOn_ne_nil '_' s)
      rw [hwords] at ih ⊢
      exact .cons c ih

theorem respelled_lowerWords (s : List Char) : Respelled s (lowerWords s).flatten :=
  (respelled_lower s).trans (respelled_flatten_splitOn (lower s))

theorem respelled_snake (s : List Char) : Respelled s (snake s) := by
  unfold snake
  split
  · exact .refl s
  · exact (respelled_breakAfterSmall s).trans
      ((respelled_breakAcronym _).trans (respelled_lower _))

theorem respelled_camel (s : List Char) : Respelled s (camel s) := by
  cases s with
  | nil => exact .nil
  | cons c s =>
    rw [camel]
    split
    · split
      · case h_1 hwords => exact absurd hwords (splitOn_ne_nil '_' _)
      · case h_2 w ws hwords =>
        have hflatten := respelled_lowerWords (c :: s)
        rw [hwords] at hflatten
        exact hflatten.trans ((Respelled.refl w).append (.flatMap_words respelled_capitalize ws))
    · exact .char (by simp [caseForms]) (.refl s)

theorem respelled_pascal (s : List Char) : Respelled s (pascal s) := by
  cases s with
  | nil => exact .nil
  | cons c s =>
    rw [pascal]
    split
    · exact (respelled_lowerWords (c :: s)).trans (.flatMap_words respelled_capitalize _)
    · exact .char (by simp [caseForms]) (.refl s)

theorem respelled_upperSnake (s : List Char) : Respelled s (upperSnake s) := by
  unfold upperSnake
  split
  · exact respelled_upper s
  · exact (respelled_snake s).trans (respelled_upper _)

theorem respelled_trimUnderscoresLeft (s : List Char) : Respelled s (trimUnderscoresLeft s) := by
  have hparts : s.takeWhile (· == '_') ++ trimUnderscoresLeft s = s :=
    List.takeWhile_append_dropWhile
  have hfront : Respelled (s.takeWhile (· == '_')) [] :=
    .of_underscores fun c hc => by simpa using List.all_eq_true.mp List.all_takeWhile c hc
  have htrimmed := hfront.append (.refl (trimUnderscoresLeft s))
  rwa [hparts] at htrimmed

theorem respelled_trimUnderscores (s : List Char) : Respelled s (trimUnderscores s) := by
  generalize htrimmed : trimUnderscoresLeft s = t
  have hparts : (t.reverse.dropWhile (· == '_')).reverse ++
      (t.reverse.takeWhile (· == '_')).reverse = t := by
    rw [← List.reverse_append, List.takeWhile_append_dropWhile, List.reverse_reverse]
  have hback : Respelled (t.reverse.takeWhile (· == '_')).reverse [] :=
    .of_underscores fun c hc => by
      simpa using List.all_eq_true.mp List.all_takeWhile c (List.mem_reverse.mp hc)
  have hboth := (Respelled.refl (t.reverse.dropWhile (· == '_')).reverse).append hback
  rw [hparts, List.append_nil] at hboth
  unfold trimUnderscores
  rw [htrimmed]
  exact (htrimmed ▸ respelled_trimUnderscoresLeft s).trans hboth

theorem respelled_recaseChars (s : List Char) (c : Convention) :
    Respelled s (c.recaseChars s) := by
  have hleft := respelled_trimUnderscoresLeft s
  have hdunder {t : List Char} (h : Respelled (trimUnderscores s) t) :
      Respelled s (['_', '_'] ++ t ++ ['_', '_']) := by
    have hafter : Respelled [] ['_', '_'] := .insert (.insert .nil)
    have hends := ((hafter.append h).append hafter)
    rw [List.nil_append, List.append_nil] at hends
    exact (respelled_trimUnderscores s).trans hends
  cases c with
  | snake => exact respelled_snake s
  | camel => exact respelled_camel s
  | pascal => exact respelled_pascal s
  | upper => exact respelled_upperSnake s
  | privateSnake => exact hleft.trans (.insert (respelled_snake _))
  | privateCamel => exact hleft.trans (.insert (respelled_camel _))
  | dunderSnake => exact hdunder (respelled_snake _)
  | dunderCamel => exact hdunder (respelled_camel _)

theorem respelled_recaseAs (name convention : String) :
    Respelled name.toList (recaseAs name convention).toList := by
  unfold recaseAs
  split
  case h_1 c _ =>
    rw [Convention.recase, String.toList_ofList]
    exact respelled_recaseChars name.toList c
  case h_2 => exact .refl _

/-! ### Names that can become the same -/

/-- Two names have a respelling in common. -/
def Akin (x y : String) : Prop := ∃ t, Respelled x.toList t ∧ Respelled y.toList t

/-- The letters and digits of a text, in lower case. -/
def letters (s : List Char) : List Char := (s.filter (· != '_')).map Char.toLower

theorem letters_append (s t : List Char) : letters (s ++ t) = letters s ++ letters t := by
  simp [letters]

/-- An ASCII character keeps its letter in all its forms. -/
theorem letters_caseForms {c : Char} (hc : isAscii c = true) :
    ∀ form ∈ caseForms c, form.all isAscii = true ∧ letters form = letters [c] := by
  have hsigma : c ≠ 'Σ' := by
    rintro rfl
    cases hc
  have hforms : caseForms c = [[c], [c.toLower], [c.toUpper], [c.toUpper]] := by
    simp [caseForms, lowerChar, upperChar, titleChar, hc, hsigma]
  rw [hforms]
  exact forall_ascii (P := fun c => ∀ form ∈ [[c], [c.toLower], [c.toUpper], [c.toUpper]],
      form.all isAscii = true ∧ letters form = letters [c])
    (by decide +kernel) (of_decide_eq_true hc)

theorem Respelled.letters_eq {s t : List Char} (h : Respelled s t) (hs : s.all isAscii = true) :
    t.all isAscii = true ∧ letters t = letters s := by
  induction h with
  | nil => exact ⟨hs, rfl⟩
  | @char c form s t hform _ ih =>
    rw [List.all_cons, Bool.and_eq_true] at hs
    obtain ⟨ht, hletters⟩ := ih hs.2
    obtain ⟨hascii, hsame⟩ := letters_caseForms hs.1 form hform
    refine ⟨by rw [List.all_append, hascii, ht, Bool.and_self], ?_⟩
    rw [letters_append, hsame, hletters, ← letters_append, List.singleton_append]
  | insert _ ih =>
    obtain ⟨ht, hletters⟩ := ih hs
    exact ⟨by rw [List.all_cons, ht]; rfl, hletters⟩
  | drop _ ih =>
    rw [List.all_cons, Bool.and_eq_true] at hs
    exact ih hs.2
  | trans _ _ ih ih' =>
    obtain ⟨ht, hletters⟩ := ih hs
    obtain ⟨hu, hletters'⟩ := ih' ht
    exact ⟨hu, hletters'.trans hletters⟩

theorem respelled_letters {s : List Char} (hs : s.all isAscii = true) :
    Respelled s (letters s) := by
  induction s with
  | nil => exact .nil
  | cons c s ih =>
    rw [List.all_cons, Bool.and_eq_true] at hs
    by_cases hc : c = '_'
    · subst hc
      exact .drop (ih hs.2)
    · have hlower : [c.toLower] ∈ caseForms c := by simp [caseForms, lowerChar, hs.1]
      have hletters : letters (c :: s) = [c.toLower] ++ letters s := by simp [letters, hc]
      rw [hletters]
      exact .char hlower (ih hs.2)

/-- ASCII names are akin exactly if they have the same letters and digits in the same order. -/
theorem akin_iff_letters_eq {x y : String} (hx : x.toList.all isAscii = true)
    (hy : y.toList.all isAscii = true) : Akin x y ↔ letters x.toList = letters y.toList := by
  constructor
  · rintro ⟨t, hxt, hyt⟩
    rw [← (hxt.letters_eq hx).2, (hyt.letters_eq hy).2]
  · intro h
    exact ⟨letters x.toList, respelled_letters hx, h ▸ respelled_letters hy⟩

/-! ### Letters of converted names -/

/-- What is left of a text in lower case without its underscores. -/
def bare (s : List Char) : List Char := (lower s).filter (· != '_')

theorem bare_ascii {s : List Char} (hs : s.all isAscii = true) : bare s = letters s := by
  have hsame : ∀ c ∈ s, (c.toLower != '_') = (c != '_') := by
    intro c hc
    have hunderscore := (toLower_facts (List.all_eq_true.mp hs c hc)).2.2
    rw [bne, bne, Bool.beq_eq_decide_eq, Bool.beq_eq_decide_eq, decide_eq_decide.mpr hunderscore]
  rw [bare, lower_ascii hs, letters, List.filter_map]
  exact congrArg (List.map Char.toLower) (List.filter_congr hsame)

/-- A conversion of an ASCII name, the lenient or the strict one, neither loses nor adds nor moves a
letter or digit. So two names can only become the same if they agree up to case and underscores. -/
theorem recased_keeps_letters {name : String} (hname : name.toList.all isAscii = true)
    (c : Convention) :
    bare (recaseAs name c.name).toList = bare name.toList ∧
      (∃ new, recaseStrict name c.name = .ok new ∧ bare new.toList = bare name.toList) ∧
      ∀ other : String, other.toList.all isAscii = true →
        recaseAs other c.name = recaseAs name c.name → bare other.toList = bare name.toList := by
  have hkeeps {s : String} (hs : s.toList.all isAscii = true) :
      bare (recaseAs s c.name).toList = bare s.toList := by
    obtain ⟨hascii, hletters⟩ := (respelled_recaseAs s c.name).letters_eq hs
    rw [bare_ascii hascii, hletters, bare_ascii hs]
  refine ⟨hkeeps hname, ⟨c.recase name, recaseStrict_name c name, ?_⟩, fun other hother hsame => ?_⟩
  · rw [← recaseAs_name]
    exact hkeeps hname
  · rw [← hkeeps hother, hsame, hkeeps hname]

theorem recased_keeps_letters_sample :
    ("HTTPServer2x".toList.all isAscii = true ∧ "http_server2x".toList.all isAscii = true) ∧
      recaseAs "HTTPServer2x" Convention.snake.name = "http_server2x" ∧
      bare (recaseAs "HTTPServer2x" Convention.snake.name).toList = bare "HTTPServer2x".toList ∧
      bare "http_server2x".toList = bare "HTTPServer2x".toList := by
  have hname : "HTTPServer2x".toList.all isAscii = true := by decide +kernel
  have hother : "http_server2x".toList.all isAscii = true := by decide +kernel
  have hsame : recaseAs "http_server2x" Convention.snake.name =
      recaseAs "HTTPServer2x" Convention.snake.name := by decide +kernel
  obtain ⟨hkeeps, -, hcollide⟩ := recased_keeps_letters hname .snake
  exact ⟨⟨hname, hother⟩, by decide +kernel, hkeeps, hcollide "http_server2x" hother hsame⟩

end Restyle.Naming
