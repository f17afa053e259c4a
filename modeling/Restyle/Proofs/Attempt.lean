/-!
Laws of attempts, which end with a result or with an error. What is done in steps succeeds exactly
if every step does.
-/

namespace Restyle

namespace Except

variable {ε ε' α β : Type}

theorem bind_eq_ok {x : Except ε α} {f : α → Except ε β} {b : β} :
    x >>= f = .ok b ↔ ∃ a, x = .ok a ∧ f a = .ok b := by
  cases x with
  | error e => simp [bind, Except.bind]
  | ok a => simp [bind, Except.bind]

theorem mapError_eq_ok {x : Except ε α} {f : ε → ε'} {a : α} :
    x.mapError f = .ok a ↔ x = .ok a := by
  cases x with
  | error e => constructor <;> intro h <;> cases h
  | ok b => constructor <;> intro h <;> cases h <;> rfl

theorem unless_throw_eq_ok {b : Bool} {e : ε} {x : Except ε α} {a : α} :
    (if (!b) = true then (throw e : Except ε PUnit) >>= fun _ => x else x) = .ok a ↔
      b = true ∧ x = .ok a := by
  cases b with
  | true => simp
  | false => simp [throw, throwThe, MonadExceptOf.throw, bind, Except.bind]

end Except

theorem exists_ok_of_any {ε α : Type} {x : Except ε α} {p : α → Bool}
    (h : x.toOption.any p = true) : ∃ a, x = .ok a ∧ p a = true := by
  cases x with
  | error e => simp [Except.toOption] at h
  | ok a => exact ⟨a, rfl, h⟩

theorem exists_error_of_isNone {ε α : Type} {x : Except ε α} (h : x.toOption.isNone = true) :
    ∃ e, x = .error e := by
  cases x with
  | error e => exact ⟨e, rfl⟩
  | ok a => simp [Except.toOption] at h

/-! ### Steps along a list -/

section Steps

variable {ε α β σ : Type}

/-- What every step of a fold keeps is kept by the fold. -/
theorem foldlM_induction {f : σ → α → Except ε σ} {P : σ → Prop} {xs : List α}
    {before after : σ} (hstep : ∀ s x s', x ∈ xs → P s → f s x = .ok s' → P s') (hbefore : P before)
    (h : xs.foldlM f before = .ok after) : P after := by
  induction xs generalizing before with
  | nil =>
    cases h
    exact hbefore
  | cons x xs ih =>
    rw [List.foldlM_cons] at h
    obtain ⟨middle, hmiddle, hrest⟩ := Except.bind_eq_ok.mp h
    refine ih ?_ ?_ hrest
    · intro s y s' hy
      exact hstep s y s' (List.mem_cons_of_mem x hy)
    · exact hstep before x middle List.mem_cons_self hbefore hmiddle

/-- If only the element decides whether a step succeeds then a fold succeeds exactly if all elements
allow it. -/
theorem exists_foldlM_ok_iff {f : σ → α → Except ε σ} {P : α → Prop}
    (hstep : ∀ s x, (∃ s', f s x = .ok s') ↔ P x) (xs : List α) (before : σ) :
    (∃ after, xs.foldlM f before = .ok after) ↔ ∀ x ∈ xs, P x := by
  induction xs generalizing before with
  | nil => simp [pure, Except.pure]
  | cons x xs ih =>
    simp only [List.foldlM_cons, Except.bind_eq_ok, List.forall_mem_cons]
    constructor
    · rintro ⟨after, middle, hmiddle, hrest⟩
      exact ⟨(hstep before x).mp ⟨middle, hmiddle⟩, (ih middle).mp ⟨after, hrest⟩⟩
    · rintro ⟨hx, hxs⟩
      obtain ⟨middle, hmiddle⟩ := (hstep before x).mpr hx
      obtain ⟨after, hrest⟩ := (ih middle).mpr hxs
      exact ⟨after, middle, hmiddle, hrest⟩

theorem exists_of_mem_mapM {f : α → Except ε β} {xs : List α} {ys : List β} {y : β}
    (h : xs.mapM f = .ok ys) (hy : y ∈ ys) : ∃ x ∈ xs, f x = .ok y := by
  induction xs generalizing ys with
  | nil =>
    cases h
    cases hy
  | cons x xs ih =>
    rw [List.mapM_cons] at h
    obtain ⟨first, hfirst, h⟩ := Except.bind_eq_ok.mp h
    obtain ⟨rest, hrest, h⟩ := Except.bind_eq_ok.mp h
    obtain rfl := Except.ok.inj h
    rcases List.mem_cons.mp hy with rfl | hmem
    · exact ⟨x, List.mem_cons_self, hfirst⟩
    · obtain ⟨x', hx', hy'⟩ := ih hrest hmem
      exact ⟨x', List.mem_cons_of_mem x hx', hy'⟩

/-- If a step succeeds under a condition, with one result, then all steps along a list succeed under
the conditions together, with the list of the results. -/
theorem mapM_eq_ok_iff {f : α → Except ε β} {P : α → Prop} {g : α → β}
    (hf : ∀ x y, f x = .ok y ↔ P x ∧ y = g x) {xs : List α} {ys : List β} :
    xs.mapM f = .ok ys ↔ (∀ x ∈ xs, P x) ∧ ys = xs.map g := by
  induction xs generalizing ys with
  | nil => simp [pure, Except.pure, eq_comm]
  | cons x xs ih =>
    simp only [List.mapM_cons, Except.bind_eq_ok, hf, ih, List.forall_mem_cons, List.map_cons]
    constructor
    · rintro ⟨y, ⟨hx, rfl⟩, rest, ⟨hxs, rfl⟩, hys⟩
      exact ⟨⟨hx, hxs⟩, (Except.ok.inj hys).symm⟩
    · rintro ⟨⟨hx, hxs⟩, rfl⟩
      exact ⟨g x, ⟨hx, rfl⟩, xs.map g, ⟨hxs, rfl⟩, rfl⟩

end Steps

end Restyle
