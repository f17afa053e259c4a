import Mathlib.Data.List.Forall2

/-!
Lists and options that agree under a relation, and a few more laws of lists. What is done to both
sides alike keeps the relation.
-/

namespace Restyle

/-! ### Relations -/

section Relations

variable {α α' β β' : Type} {R : α → α' → Prop} {Q : β → β' → Prop}
variable {x : Option α} {x' : Option α'} {xs : List α} {xs' : List α'}
variable {p : α → Bool} {p' : α' → Bool}

theorem rel_eq (x : Option α) : Option.Rel Eq x x := by
  cases x with
  | none => exact .none
  | some a => exact .some rfl

theorem rel_imp {R' : α → α' → Prop} (h : Option.Rel R x x') (himp : ∀ a a', R a a' → R' a a') :
    Option.Rel R' x x' := by
  cases h with
  | none => exact .none
  | some h => exact .some (himp _ _ h)

theorem rel_map {f : α → β} {f' : α' → β'} (h : Option.Rel R x x')
    (hf : ∀ a a', R a a' → Q (f a) (f' a')) : Option.Rel Q (x.map f) (x'.map f') := by
  cases h with
  | none => exact .none
  | some h => exact .some (hf _ _ h)

theorem rel_bind {f : α → Option β} {f' : α' → Option β'} (h : Option.Rel R x x')
    (hf : ∀ a a', R a a' → Option.Rel Q (f a) (f' a')) : Option.Rel Q (x >>= f) (x' >>= f') := by
  cases h with
  | none => exact .none
  | some h => exact hf _ _ h

theorem rel_filter (h : Option.Rel R x x') (hp : ∀ a a', R a a' → p a = p' a') :
    Option.Rel R (x.filter p) (x'.filter p') := by
  cases h with
  | none => exact .none
  | @some a a' ha =>
    rw [Option.filter_some, Option.filter_some, hp a a' ha]
    split
    · exact .some ha
    · exact .none

theorem rel_mem (h : Option.Rel R x x') :
    Option.Rel (fun a a' => (a ∈ x ∧ a' ∈ x') ∧ R a a') x x' := by
  cases h with
  | none => exact .none
  | some h => exact .some ⟨⟨rfl, rfl⟩, h⟩

theorem rel_flip (h : Option.Rel R x x') : Option.Rel (flip R) x' x := by
  cases h with
  | none => exact .none
  | some h => exact .some h

theorem rel_mapM {f : α → Option β} {f' : α' → Option β'}
    (h : List.Forall₂ R xs xs') (hf : ∀ a a', R a a' → Option.Rel Q (f a) (f' a')) :
    Option.Rel (List.Forall₂ Q) (xs.mapM f) (xs'.mapM f') := by
  induction h with
  | nil => exact .some .nil
  | cons ha _ ih =>
    rw [List.mapM_cons, List.mapM_cons]
    refine rel_bind (hf _ _ ha) fun b b' hb => ?_
    exact rel_bind ih fun bs bs' hbs => .some (.cons hb hbs)

theorem eq_of_rel {R : α → α → Prop} {x y : Option α} (h : Option.Rel R x y)
    (hR : ∀ a b, R a b → a = b) : x = y := by
  cases h with
  | none => rfl
  | some h => rw [hR _ _ h]

theorem rel_isSome (h : Option.Rel R x x') : x.isSome = x'.isSome := by
  cases h <;> rfl

theorem rel_toList (h : Option.Rel R x x') : List.Forall₂ R x.toList x'.toList := by
  cases h with
  | none => exact .nil
  | some h => exact .cons h .nil

theorem rel_isEmpty (h : List.Forall₂ R xs xs') : xs.isEmpty = xs'.isEmpty := by
  cases h <;> rfl

theorem all_eq_of_forall₂ (h : List.Forall₂ R xs xs') (hp : ∀ a a', R a a' → p a = p' a') :
    xs.all p = xs'.all p' := by
  induction h with
  | nil => rfl
  | cons h _ ih => rw [List.all_cons, List.all_cons, hp _ _ h, ih]

theorem any_eq_of_forall₂ (h : List.Forall₂ R xs xs') (hp : ∀ a a', R a a' → p a = p' a') :
    xs.any p = xs'.any p' := by
  induction h with
  | nil => rfl
  | cons h _ ih => rw [List.any_cons, List.any_cons, hp _ _ h, ih]

theorem rel_find? (h : List.Forall₂ R xs xs') (hp : ∀ a a', R a a' → p a = p' a') :
    Option.Rel R (xs.find? p) (xs'.find? p') := by
  induction h with
  | nil => exact .none
  | @cons a a' xs xs' ha _ ih =>
    rw [List.find?_cons, List.find?_cons, hp a a' ha]
    cases p' a' with
    | false => exact ih
    | true => exact .some ha

end Relations

/-! ### Members -/

theorem flatMap_filter {α β : Type} (xs : List α) (p : α → Bool) (f : α → List β) :
    (xs.filter p).flatMap f = xs.flatMap fun x => if p x then f x else [] := by
  induction xs with
  | nil => rfl
  | cons x xs ih => cases h : p x <;> simp [h, ih]

theorem flatMap_ne_nil {α β : Type} {l : List α} {f : α → List β} (hl : l ≠ [])
    (hf : ∀ a, f a ≠ []) : l.flatMap f ≠ [] := by
  obtain ⟨a, rest, rfl⟩ := List.exists_cons_of_ne_nil hl
  simp [hf a]

theorem any_eq_any_of_mem {α : Type} {xs : List α} {p q : α → Bool} (h : ∀ a ∈ xs, p a = q a) :
    xs.any p = xs.any q := by
  rw [Bool.eq_iff_iff, List.any_eq_true, List.any_eq_true]
  exact exists_congr fun a => and_congr_right fun ha => by rw [h a ha]

/-- The items with a number from `a` to `b`. -/
theorem filter_zipIdx {α : Type} (l : List α) (n : Nat) (a b : Int) :
    (l.zipIdx n).filter (fun p => a ≤ p.2 ∧ p.2 ≤ b) =
      ((l.take (b + 1 - n).toNat).zipIdx n).drop (a - n).toNat := by
  induction l generalizing n with
  | nil => simp
  | cons x l ih =>
    rw [List.zipIdx_cons, List.filter_cons, ih]
    by_cases hb : b < n
    · have hstop : (b + 1 - n).toNat = 0 := by omega
      have hnext : (b + 1 - (n + 1 : Nat)).toNat = 0 := by omega
      rw [hstop, hnext]
      simp [Int.not_le.mpr hb]
    · have hstop : (b + 1 - n).toNat = (b + 1 - (n + 1 : Nat)).toNat + 1 := by omega
      rw [hstop, List.take_succ_cons, List.zipIdx_cons]
      by_cases ha : a ≤ n
      · have hstart : (a - n).toNat = 0 := by omega
        have hnext : (a - (n + 1 : Nat)).toNat = 0 := by omega
        rw [hstart, hnext]
        simp [ha, Int.not_lt.mp hb]
      · have hstart : (a - n).toNat = (a - (n + 1 : Nat)).toNat + 1 := by omega
        rw [hstart]
        simp [ha]

theorem nodup_eraseDups {α : Type} [DecidableEq α] (l : List α) : l.eraseDups.Nodup := by
  cases l with
  | nil => simp
  | cons a l =>
    rw [List.eraseDups_cons, List.nodup_cons, List.mem_eraseDups]
    exact ⟨by simp, nodup_eraseDups (l.filter fun b => !b == a)⟩
termination_by l.length
decreasing_by exact Nat.lt_succ_of_le (List.length_filter_le _ _)

/-! ### Ends of texts -/

theorem isPrefixOf_append {A word : List Char} (h : ∀ c ∈ A.head?, c ∉ word) (x : List Char) :
    word.isPrefixOf (x ++ A) = word.isPrefixOf x := by
  induction word generalizing x with
  | nil => simp
  | cons w word ih =>
    cases x with
    | nil =>
      cases A with
      | nil => rfl
      | cons c A =>
        have hne : w ≠ c := by
          rintro rfl
          exact h w rfl List.mem_cons_self
        simp [List.isPrefixOf, hne]
    | cons c x =>
      simp [List.isPrefixOf, ih (fun d hd hmem => h d hd (List.mem_cons_of_mem w hmem)) x]

theorem take_append_sub {α : Type} (A x y : List α) :
    (x ++ A).take ((x ++ A).length - (y ++ A).length) = x.take (x.length - y.length) := by
  have hlength : (x ++ A).length - (y ++ A).length = x.length - y.length := by
    simp only [List.length_append]
    omega
  rw [hlength]
  exact List.take_append_of_le_length (Nat.sub_le _ _)

theorem getLast?_ne_of_suffix {α : Type} {c : α} {x y : List α} (h : y <:+ x)
    (hx : x.getLast? ≠ some c) : y.getLast? ≠ some c := by
  obtain ⟨p, rfl⟩ := h
  rw [List.getLast?_append] at hx
  intro hy
  rw [hy] at hx
  exact hx rfl

theorem toList_toString (n : Nat) : (toString (n : Int)).toList = Nat.toDigits 10 n := by
  change (String.ofList (Nat.toDigits 10 n)).toList = _
  exact String.toList_ofList

end Restyle
