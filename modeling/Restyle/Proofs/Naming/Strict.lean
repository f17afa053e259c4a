import Restyle.Naming.Words
import Restyle.Proofs.Text.Splitting

/-!
The strict conversion and the lenient one. The strict one drops the empty words of a name before it
puts capitals in front of the others, and looks out for names without any word; the lenient one does
neither. They agree all the same: on every name they give the same result for the eight conventions,
and they only differ in what they do about a convention nobody knows.
-/

namespace Restyle.Naming

open Restyle.Text

/-! ### Empty words -/

/-- An empty word adds nothing to a name in Pascal case, so it can be dropped. -/
theorem flatMap_capitalize_filter (words : List (List Char)) :
    (words.filter (!·.isEmpty)).flatMap capitalize = words.flatMap capitalize := by
  induction words with
  | nil => rfl
  | cons word words ih =>
    cases word with
    | nil => simpa using ih
    | cons c word => simpa using ih

theorem pascalOfWords_eq_pascal (s : List Char) : pascalOfWords s = pascal s := by
  cases s with
  | nil => rfl
  | cons c rest => rw [pascalOfWords, pascal, flatMap_capitalize_filter]

/-- There always is a word, if only an empty one. -/
theorem camelOfWords_eq_camel (s : List Char) : camelOfWords s = camel s := by
  cases s with
  | nil => rfl
  | cons c rest =>
    rw [camelOfWords, camel]
    cases hwords : lowerWords (c :: rest) with
    | nil => exact absurd hwords (splitOn_ne_nil '_' _)
    | cons w ws => rfl

/-! ### Known and unknown conventions -/

theorem Convention.ofName?_name (c : Convention) : ofName? c.name = some c := by
  cases c <;> decide

theorem Convention.ofName?_eq_none {s : String} (h : ∀ c : Convention, c.name ≠ s) :
    ofName? s = none := by
  simpa [ofName?] using fun c _ => h c

theorem recaseAs_name (c : Convention) (name : String) : recaseAs name c.name = c.recase name := by
  rw [recaseAs, c.ofName?_name]

theorem recaseStrict_name (c : Convention) (name : String) :
    recaseStrict name c.name = .ok (c.recase name) := by
  rw [recaseStrict, c.ofName?_name]
  cases c with
  | pascal => simp only [pascalOfWords_eq_pascal, Convention.recase, Convention.recaseChars]
  | camel | privateCamel | dunderCamel =>
    simp only [camelOfWords_eq_camel, Convention.recase, Convention.recaseChars]
  | _ => rfl

/-- The two conversions give the same name in each of the eight conventions. In any other one the
strict conversion fails, and the lenient one leaves the name alone. -/
theorem recaseStrict_recaseAs_agree (name convention : String) :
    (convention ∈ Convention.all.map Convention.name →
      recaseStrict name convention = .ok (recaseAs name convention)) ∧
    (convention ∉ Convention.all.map Convention.name →
      recaseStrict name convention = .error ⟨convention⟩ ∧ recaseAs name convention = name) := by
  constructor
  · intro hknown
    obtain ⟨c, -, rfl⟩ := List.mem_map.mp hknown
    rw [recaseStrict_name, recaseAs_name]
  · intro hunknown
    have hnone : Convention.ofName? convention = none := by
      refine Convention.ofName?_eq_none fun c hc => hunknown ?_
      exact List.mem_map.mpr ⟨c, c.mem_all, hc⟩
    rw [recaseStrict, recaseAs, hnone]
    exact ⟨rfl, rfl⟩

theorem recaseStrict_recaseAs_agree_sample :
    recaseStrict "__my__name_" "PascalCase" = .ok (recaseAs "__my__name_" "PascalCase") ∧
      recaseAs "__my__name_" "PascalCase" = "MyName" ∧
      recaseStrict "__my__name_" "pascalcase" = .error ⟨"pascalcase"⟩ ∧
      recaseAs "__my__name_" "pascalcase" = "__my__name_" :=
  ⟨(recaseStrict_recaseAs_agree "__my__name_" "PascalCase").1 (by decide), by decide +kernel,
    (recaseStrict_recaseAs_agree "__my__name_" "pascalcase").2 (by decide)⟩

end Restyle.Naming
