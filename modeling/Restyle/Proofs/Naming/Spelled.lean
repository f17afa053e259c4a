import Restyle.Naming.Recase
import Restyle.Proofs.Text.NameChars

/-!
The characters of converted names. Converting a name to a convention keeps it a text of letters,
digits, underscores and characters beyond ASCII, since the conversions only take characters away,
put underscores in and look characters up.
-/

namespace Restyle

variable {c : Char} {word : List Char}

namespace Naming

open Text

section CaseClosed

variable {kind : Char → Bool} {s : List Char} (h : CaseClosed kind)
include h

section

variable (hs : ∀ c ∈ s, kind c = true)

include hs

theorem all_breakAfterSmall : ∀ c ∈ breakAfterSmall s, kind c = true := by
  fun_induction breakAfterSmall s with
  | case1 a b rest hbreak ih => simp_all [h.underscore]
  | case2 a b rest hbreak ih => simp_all
  | case3 s => exact hs

theorem all_breakAcronym : ∀ c ∈ breakAcronym s, kind c = true := by
  fun_induction breakAcronym s with
  | case1 a b c rest hbreak ih => simp_all [h.underscore]
  | case2 a b c rest hbreak ih => simp_all
  | case3 s => exact hs

theorem all_snake : ∀ c ∈ snake s, kind c = true := by
  unfold snake
  split
  · exact hs
  · exact h.lowerAfter (all_breakAcronym h (all_breakAfterSmall h hs)) []

theorem all_of_mem_lowerWords (hword : word ∈ lowerWords s) : ∀ c ∈ word, kind c = true :=
  fun c hc => h.lowerAfter hs [] c (subset_of_mem_splitOn hword hc)

theorem all_camel : ∀ c ∈ camel s, kind c = true := by
  cases s with
  | nil => exact hs
  | cons c rest =>
    rw [camel]
    split
    · split
      · exact List.forall_mem_nil _
      · case h_2 w ws hwords =>
        have hall : ∀ word ∈ w :: ws, ∀ c ∈ word, kind c = true :=
          fun word hword => all_of_mem_lowerWords h hs (hwords ▸ hword)
        exact List.forall_mem_append.mpr ⟨hall w List.mem_cons_self,
          h.flatMap_capitalize fun word hword => hall word (.tail w hword)⟩
    · obtain ⟨hc, hrest⟩ := List.forall_mem_cons.mp hs
      exact List.forall_mem_append.mpr ⟨h.lower c hc, hrest⟩

theorem all_pascal : ∀ c ∈ pascal s, kind c = true := by
  cases s with
  | nil => exact hs
  | cons c rest =>
    rw [pascal]
    split
    · exact h.flatMap_capitalize fun word hword => all_of_mem_lowerWords h hs hword
    · obtain ⟨hc, hrest⟩ := List.forall_mem_cons.mp hs
      exact List.forall_mem_append.mpr ⟨h.upper c hc, hrest⟩

theorem all_upperSnake : ∀ c ∈ upperSnake s, kind c = true := by
  unfold upperSnake
  split
  · exact h.upperText hs
  · exact h.upperText (all_snake h hs)

end

end CaseClosed

theorem trimUnderscoresLeft_subset (s : List Char) : trimUnderscoresLeft s ⊆ s :=
  (List.dropWhile_suffix _).subset

theorem trimUnderscoresLeft_of_ne (hc : c ≠ '_') (s : List Char) :
    trimUnderscoresLeft (c :: s) = c :: s := by
  simp [trimUnderscoresLeft, hc]

theorem trimUnderscores_subset (s : List Char) : trimUnderscores s ⊆ s := by
  intro c hc
  have hmem := (List.dropWhile_suffix _).subset (List.mem_reverse.mp hc)
  exact trimUnderscoresLeft_subset s (List.mem_reverse.mp hmem)

/-- Converting a name does not lead out of a kind of characters that other cases do not lead out
of. -/
theorem all_recaseChars {kind : Char → Bool} {s : List Char} (h : CaseClosed kind)
    (hs : ∀ c ∈ s, kind c = true) (convention : Convention) :
    ∀ c ∈ convention.recaseChars s, kind c = true := by
  have hleft : ∀ c ∈ trimUnderscoresLeft s, kind c = true :=
    fun c hc => hs c (trimUnderscoresLeft_subset s hc)
  have hboth : ∀ c ∈ trimUnderscores s, kind c = true :=
    fun c hc => hs c (trimUnderscores_subset s hc)
  have hmarks : ∀ c ∈ ['_', '_'], kind c = true := by simp [h.underscore]
  cases convention with
  | snake => exact all_snake h hs
  | camel => exact all_camel h hs
  | pascal => exact all_pascal h hs
  | upper => exact all_upperSnake h hs
  | privateSnake => exact List.forall_mem_cons.mpr ⟨h.underscore, all_snake h hleft⟩
  | privateCamel => exact List.forall_mem_cons.mpr ⟨h.underscore, all_camel h hleft⟩
  | dunderSnake =>
    exact List.forall_mem_append.mpr
      ⟨List.forall_mem_append.mpr ⟨hmarks, all_snake h hboth⟩, hmarks⟩
  | dunderCamel =>
    exact List.forall_mem_append.mpr
      ⟨List.forall_mem_append.mpr ⟨hmarks, all_camel h hboth⟩, hmarks⟩

theorem nameChars_recaseAs {name : String} (h : NameChars name.toList) (convention : String) :
    NameChars (recaseAs name convention).toList := by
  unfold recaseAs
  split
  case h_1 c _ =>
    rw [Convention.recase, String.toList_ofList]
    exact all_recaseChars caseClosed_mayBeNameChar h c
  case h_2 => exact h

/-- A name is a text of such characters, and there is at least one. -/
structure Spelled (name : String) : Prop where
  chars : NameChars name.toList
  ne_empty : name ≠ ""

end Naming

end Restyle
