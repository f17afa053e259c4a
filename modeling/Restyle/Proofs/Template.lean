import Restyle.Pattern.Template

/-!
Reading templates. A character that is no backslash stands for itself, so a text without
backslashes is a template for itself. Digits after a reference belong to it, though, and change what
it refers to.
-/

namespace Restyle.Template

theorem units_append {new : List Char} (h : '\\' ∉ new) (rest : List Char) :
    units (new ++ rest) = (new.map Template.Unit.plain ++ (units rest).1, (units rest).2) := by
  induction new with
  | nil => rfl
  | cons c new ih =>
    have hc : c ≠ '\\' := fun heq => h (heq ▸ List.mem_cons_self)
    have hnew := ih fun hmem => h (List.mem_cons_of_mem c hmem)
    rw [List.cons_append, units.eq_def]
    split <;> simp_all

theorem skip_cons (place : Nat) (u : Template.Unit) (rest : List Template.Unit) :
    Reader.skip ⟨place, u :: rest, false⟩ = .ok ⟨place + u.chars.length, rest, false⟩ := by
  simp [Reader.skip, Reader.check]

section Pieces

variable {groups place fuel : Nat} {c : Char} {us : List Template.Unit} {ps : List Piece}

theorem piecesFrom_plain (h : piecesFrom groups fuel ⟨place + 1, us, false⟩ = .ok ps) :
    piecesFrom groups (fuel + 1) ⟨place, .plain c :: us, false⟩ = .ok (.text [c] :: ps) := by
  rw [piecesFrom]
  dsimp only
  rw [skip_cons]
  change (piecesFrom groups fuel ⟨place + 1, us, false⟩ >>= fun ps =>
    pure (Piece.text [c] :: ps)) = _
  rw [h]
  rfl

theorem piecesFrom_cons_escaped : piecesFrom groups (fuel + 1) ⟨place, .escaped c :: us, false⟩ =
    escapePiece groups c place ⟨place + 2, us, false⟩ >>= fun r =>
      piecesFrom groups fuel r.2 >>= fun ps => pure (r.1 :: ps) := by
  rw [piecesFrom]
  dsimp only
  rw [skip_cons]
  rfl

theorem piecesFrom_escaped {piece : Piece} {r : Reader}
    (hpiece : escapePiece groups c place ⟨place + 2, us, false⟩ = .ok (piece, r))
    (h : piecesFrom groups fuel r = .ok ps) :
    piecesFrom groups (fuel + 1) ⟨place, .escaped c :: us, false⟩ = .ok (piece :: ps) := by
  rw [piecesFrom_cons_escaped, hpiece]
  change (piecesFrom groups fuel r >>= fun ps => pure (piece :: ps)) = _
  rw [h]
  rfl

theorem piecesFrom_escaped_error {fault : Fault}
    (h : escapePiece groups c place ⟨place + 2, us, false⟩ = .error fault) :
    piecesFrom groups (fuel + 1) ⟨place, .escaped c :: us, false⟩ = .error fault := by
  rw [piecesFrom_cons_escaped, h]
  rfl

end Pieces

theorem piecesFrom_text (groups : Nat) (s : List Char) (place : Nat) :
    piecesFrom groups (s.length + 1) ⟨place, s.map Unit.plain, false⟩ =
      .ok (s.map fun c => .text [c]) := by
  induction s generalizing place with
  | nil => rfl
  | cons c s ih => exact piecesFrom_plain (ih (place + 1))

theorem parse_text {s : List Char} (h : '\\' ∉ s) (groups : Nat) :
    Template.parse groups s = .ok (s.map fun c => .text [c]) := by
  have hunits : units s = (s.map Unit.plain, false) := by
    simpa [units] using units_append h []
  have hpieces := piecesFrom_text groups s 0
  unfold Template.parse
  rw [hunits]
  dsimp only
  rw [Reader.check, Bool.and_false, if_neg Bool.false_ne_true, List.length_map]
  exact hpieces

theorem escapePiece_one {groups : Nat} (hgroups : 0 < groups) {r : Reader}
    (h : r.plainIf Char.isDigit = none) : escapePiece groups '1' 0 r = .ok (.group 1, r) := by
  unfold escapePiece takeIf
  rw [h]
  simp [isOctal, groupPiece, decimalValue, Nat.not_lt.mpr hgroups, bind, Except.bind, pure,
    Except.pure]

/-- A reference to the first group stays one before a text that starts with no digit. -/
theorem parse_reference {groups : Nat} (hgroups : 0 < groups) {s : List Char} (h : '\\' ∉ s)
    (hdigit : ∀ c ∈ s.head?, c.isDigit = false) :
    Template.parse groups ('\\' :: '1' :: s) = .ok (.group 1 :: s.map fun c => .text [c]) := by
  have hunits : units ('\\' :: '1' :: s) = (.escaped '1' :: s.map Unit.plain, false) := by
    have hrest := units_append h []
    rw [List.append_nil] at hrest
    rw [units, hrest]
    simp [units]
  have hnone : Reader.plainIf ⟨2, s.map Unit.plain, false⟩ Char.isDigit = none := by
    cases s with
    | nil => rfl
    | cons c s => simp [Reader.plainIf, hdigit c rfl]
  unfold Template.parse
  rw [hunits]
  have hpieces := piecesFrom_escaped (escapePiece_one hgroups hnone) (piecesFrom_text groups s 2)
  simpa [Reader.check, bind, Except.bind] using hpieces

/-! ### Digits after a reference -/

section Digits

variable {place groups : Nat} {a b : Char} {us : List Template.Unit}

theorem takeIf_cons {p : Char → Bool} (h : p a = true) :
    takeIf ⟨place, .plain a :: us, false⟩ p = .ok ([a], ⟨place + 1, us, false⟩) := by
  have hnext : Reader.plainIf ⟨place, .plain a :: us, false⟩ p = some a := if_pos h
  unfold takeIf
  rw [hnext]
  dsimp only
  rw [skip_cons]
  rfl

theorem isOctal_iff : isOctal a = true ↔ 48 ≤ a.toNat ∧ a.toNat ≤ 55 := by
  rw [isOctal, Bool.and_eq_true, decide_eq_true_eq, decide_eq_true_eq]
  rfl

theorem isDigit_of_isOctal (h : isOctal a = true) : a.isDigit = true := by
  obtain ⟨hlow, hhigh⟩ := isOctal_iff.mp h
  exact Bool.and_eq_true_iff.mpr
    ⟨decide_eq_true hlow, decide_eq_true (Nat.le_trans hhigh (by decide))⟩

theorem octalValue_one_le (ha : isOctal a = true) (hb : isOctal b = true) :
    octalValue ['1', a, b] ≤ 255 := by
  have hone := isOctal_iff.mp ha
  have htwo := isOctal_iff.mp hb
  change 8 * (8 * (8 * 0 + (49 - 48)) + (a.toNat - 48)) + (b.toNat - 48) ≤ 255
  omega

/-- Two octal digits after a reference to the first group make it the code of a character. -/
theorem escapePiece_octal (ha : isOctal a = true) (hb : isOctal b = true) (start : Nat) :
    escapePiece groups '1' start ⟨place, .plain a :: .plain b :: us, false⟩ =
      .ok (.text [Char.ofNat (octalValue ['1', a, b])], ⟨place + 2, us, false⟩) := by
  have hoctal : (isOctal '1' && !([a] : List Char).isEmpty && [a].all isOctal) = true := by
    rw [List.all_cons, ha]
    rfl
  rw [escapePiece, if_neg (by decide), if_neg (by decide), if_pos (by decide),
    takeIf_cons (isDigit_of_isOctal ha)]
  refine Eq.trans (if_pos hoctal) ?_
  rw [takeIf_cons hb]
  exact if_neg (Nat.not_lt.mpr (octalValue_one_le ha hb))

/-- Any other digit makes it a reference to a later group. -/
theorem escapePiece_number (ha : a.isDigit = true)
    (hnext : isOctal a = true → Reader.plainIf ⟨place + 1, us, false⟩ isOctal = none)
    (hgroups : groups < 10) (start : Nat) :
    escapePiece groups '1' start ⟨place, .plain a :: us, false⟩ =
      .error (.malformed (.noSuchGroup (decimalValue ['1', a])) (start + 1)) := by
  have hvalue : groups < decimalValue ['1', a] := by
    change groups < 10 * (10 * 0 + (49 - 48)) + (a.toNat - 48)
    omega
  have hpiece (r : Reader) : (groupPiece groups (decimalValue ['1', a]) (start + 1) >>= fun piece =>
      pure (piece, r)) =
        .error (.malformed (.noSuchGroup (decimalValue ['1', a])) (start + 1)) := by
    rw [groupPiece, if_pos hvalue]
    rfl
  rw [escapePiece, if_neg (by decide), if_neg (by decide), if_pos (by decide), takeIf_cons ha]
  by_cases hoctal : (isOctal '1' && !([a] : List Char).isEmpty && [a].all isOctal) = true
  · have hnone : takeIf ⟨place + 1, us, false⟩ isOctal = .ok ([], ⟨place + 1, us, false⟩) := by
      have hother := hnext (by simpa [isOctal] using hoctal)
      unfold takeIf
      rw [hother]
    refine Eq.trans (if_pos hoctal) ?_
    rw [hnone]
    exact hpiece _
  · refine Eq.trans (if_neg hoctal) ?_
    exact hpiece _

end Digits

end Restyle.Template
