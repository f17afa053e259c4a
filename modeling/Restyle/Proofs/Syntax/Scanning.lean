import Restyle.Proofs.Lists
import Restyle.Proofs.Naming.Spelled
import Restyle.Proofs.Text.Pieces
import Restyle.Syntax.Lexer

/-!
Reading words and numbers up to a quote or a line end. For them these are like the end of the text:
what is read before, and whether it can be read, does not depend on what follows. For digits this is
so with every character that is in no word.
-/

namespace Restyle.Syntax

open LexState (isQuote)
open Text (Apart mayBeNameChar)

variable {rest s : List Char} {c quote : Char} {isDigit p : Char → Bool} {kind : NumberKind}
  {triple : Bool}

def isBound (c : Char) : Bool := isQuote c || c == '\n'

/-- A text that is empty or starts with a quote or a line end. -/
def Ends (A : List Char) : Prop := ∀ c, A.head? = some c → isBound c = true

theorem ends_nil : Ends [] := nofun

theorem ends_cons {A : List Char} (h : isBound c = true) : Ends (c :: A) := by
  intro d hd
  cases hd
  exact h

theorem eq_of_isQuote (h : isQuote c = true) : c = '"' ∨ c = Text.singleQuote := by
  simpa [isQuote] using h

theorem eq_of_isBound (h : isBound c = true) : (c = '"' ∨ c = Text.singleQuote) ∨ c = '\n' := by
  rw [isBound, Bool.or_eq_true, beq_iff_eq] at h
  exact h.imp_left eq_of_isQuote

/-- What holds neither of quotes nor of line ends. -/
structure Unbound (p : Char → Bool) : Prop where
  double : p '"' = false
  single : p Text.singleQuote = false
  line : p '\n' = false

theorem Unbound.eq_false (hp : Unbound p) (h : isBound c = true) : p c = false := by
  rcases eq_of_isBound h with (rfl | rfl) | rfl
  · exact hp.double
  · exact hp.single
  · exact hp.line

theorem more_cons (hc : c ≠ '_') :
    digitGroups.more isDigit (c :: s) =
      if isDigit c then digitGroups.more isDigit s else some (c :: s) := by
  rw [digitGroups.more.eq_def]
  split <;> simp_all

/-- An integer, or a number with an exponent or an imaginary mark and no point. -/
theorem decimalNumber?_pointless (h : digitGroups Char.isDigit s = some rest)
    (hpoint : ∀ after, rest ≠ '.' :: after) :
    decimalNumber? s = (decimalEnd false rest).filter fun r =>
      r.1 != .integer || isInteger (s.take (s.length - r.2.length)) := by
  unfold decimalNumber?
  rw [h]
  split
  case h_1 hnone => cases hnone
  case h_2 after hafter => exact absurd (Option.some.inj hafter) (hpoint after)
  case h_3 other _ hother =>
    cases hother
    rfl

theorem number?_decimal (h : ∀ c rest, s = '0' :: c :: rest → radix? c = none) :
    number? s = decimalNumber? s := by
  unfold number?
  split
  case h_1 c rest =>
    rw [h c rest rfl]
  case h_2 => rfl

/-! ### Digits and what follows them -/

/-- Digits of any kind are characters of words. -/
def InWords (p : Char → Bool) : Prop := ∀ c, p c = true → mayBeNameChar c = true

theorem InWords.eq_false (hp : InWords p) (h : mayBeNameChar c = false) :
    p c = false := Text.eq_false_of_narrower hp h

/-- All characters beyond ASCII are characters of words, so only ASCII has to be checked. -/
theorem inWords_of_ascii
    (h : ∀ n < 128, p (Char.ofNat n) = true → mayBeNameChar (Char.ofNat n) = true) : InWords p := by
  intro c
  by_cases hc : c.toNat < 128
  · exact Text.forall_ascii (P := fun c => p c = true → mayBeNameChar c = true) h hc
  · exact fun _ => Text.mayBeNameChar_of_le (Nat.le_of_not_lt hc)

theorem inWords_isDigit : InWords Char.isDigit := inWords_of_ascii (by decide)

section Apart

variable {A : List Char} (hA : Apart mayBeNameChar A)
include hA

theorem endsNumber_append (x : List Char) : endsNumber (x ++ A) = endsNumber x := by
  have hfollowers : numberFollowers.all (·.all mayBeNameChar) = true := by decide
  have hword {word : List Char} (hmem : word ∈ numberFollowers) : ∀ c ∈ A.head?, c ∉ word :=
    fun c hc hin => Text.ne_of_other
      (List.all_eq_true.mp (List.all_eq_true.mp hfollowers word hmem) c hin) (hA c hc) rfl
  cases x with
  | nil =>
    cases A with
    | nil => rfl
    | cons c A => simp [endsNumber, Text.apart_cons.mp hA]
  | cons c x =>
    have hany : numberFollowers.any (·.isPrefixOf (c :: x ++ A)) =
        numberFollowers.any (·.isPrefixOf (c :: x)) := by
      rw [Bool.eq_iff_iff, List.any_eq_true, List.any_eq_true]
      refine exists_congr fun word => and_congr_right fun hmem => ?_
      rw [isPrefixOf_append (hword hmem)]
    simp only [endsNumber, List.cons_append] at hany ⊢
    rw [hany]

theorem more_append (hdigit : InWords isDigit) (x : List Char) :
    digitGroups.more isDigit (x ++ A) = (digitGroups.more isDigit x).map (· ++ A) := by
  fun_induction digitGroups.more isDigit x with
  | case1 c rest hc ih => simp [digitGroups.more, hc, ih]
  | case2 c rest hc => simp [digitGroups.more, hc]
  | case3 =>
    cases A with
    | nil => rfl
    | cons c A => simp [digitGroups.more, hdigit.eq_false (hA c rfl)]
  | case4 c rest hpair hlast hc ih =>
    have hne : c ≠ '_' := by
      rintro rfl
      cases rest with
      | nil => exact hlast rfl rfl
      | cons d rest => exact hpair d rest rfl rfl
    rw [List.cons_append, more_cons hne, if_pos hc, ih]
  | case5 c rest hpair hlast hc =>
    have hne : c ≠ '_' := by
      rintro rfl
      cases rest with
      | nil => exact hlast rfl rfl
      | cons d rest => exact hpair d rest rfl rfl
    rw [List.cons_append, more_cons hne, if_neg hc]
    rfl
  | case6 =>
    cases A with
    | nil => rfl
    | cons c A =>
      have hne : c ≠ '_' := by
        rintro rfl
        exact absurd (hA '_' rfl) (by decide)
      simp [more_cons hne, hdigit.eq_false (hA c rfl)]

theorem digitGroups_append (hdigit : InWords isDigit) (x : List Char) :
    digitGroups isDigit (x ++ A) = (digitGroups isDigit x).map (· ++ A) := by
  cases x with
  | nil =>
    cases A with
    | nil => rfl
    | cons c A => simp [digitGroups, hdigit.eq_false (hA c rfl)]
  | cons c x =>
    simp only [List.cons_append, digitGroups, more_append hA hdigit x]
    split <;> rfl

theorem skipUnderscore_append (x : List Char) :
    skipUnderscore (x ++ A) = skipUnderscore x ++ A := by
  cases x with
  | nil =>
    cases A with
    | nil => rfl
    | cons c A =>
      have hne : c ≠ '_' := by
        rintro rfl
        exact absurd (hA '_' rfl) (by decide)
      simp [skipUnderscore, hne]
  | cons c x =>
    rw [List.cons_append, skipUnderscore.eq_def, skipUnderscore.eq_def (c :: x)]
    split <;> simp_all

theorem radixDigits_append (hdigit : InWords isDigit) (x : List Char) :
    radixDigits isDigit (x ++ A) = (radixDigits isDigit x).map (· ++ A) := by
  unfold radixDigits
  rw [skipUnderscore_append hA, digitGroups_append hA hdigit, Option.filter_map]
  congr 2
  funext rest
  cases rest with
  | nil =>
    cases A with
    | nil => rfl
    | cons c A => simp [inWords_isDigit.eq_false (hA c rfl)]
  | cons c rest => rfl

theorem endNumber?_append (kind : NumberKind) (x : List Char) :
    endNumber? kind (x ++ A) = (endNumber? kind x).map fun r => (r.1, r.2 ++ A) := by
  unfold endNumber?
  rw [endsNumber_append hA]
  split <;> rfl

theorem radixNumber?_append (hdigit : InWords isDigit) (x : List Char) :
    radixNumber? isDigit (x ++ A) = (radixNumber? isDigit x).map fun r => (r.1, r.2 ++ A) := by
  unfold radixNumber?
  rw [radixDigits_append hA hdigit]
  cases radixDigits isDigit x with
  | none => rfl
  | some rest => exact endNumber?_append hA _ rest

end Apart

theorem inWords_of_radix? (h : radix? c = some isDigit) : InWords isDigit := by
  unfold radix? at h
  split at h
  · cases h
    exact inWords_of_ascii (by decide)
  · split at h
    · cases h
      exact inWords_of_ascii (by decide)
    · rw [Option.ite_none_right_eq_some] at h
      cases h.2
      exact inWords_of_ascii (by decide)

section Ends

variable {A : List Char} (hA : Ends A)
include hA

theorem takeWhile_append_ends (hp : Unbound p) (x : List Char) :
    (x ++ A).takeWhile p = x.takeWhile p := by
  induction x with
  | nil =>
    cases A with
    | nil => rfl
    | cons c A => simp [hp.eq_false (hA c rfl)]
  | cons c x ih => simp [List.takeWhile_cons, ih]

theorem apart_of_ends : Apart mayBeNameChar A :=
  fun c hc => Unbound.eq_false ⟨by decide, by decide, by decide⟩ (hA c hc)

theorem isPrefixOf_append_ends {word : List Char} (hword : word.any isBound = false)
    (x : List Char) : word.isPrefixOf (x ++ A) = word.isPrefixOf x := by
  refine isPrefixOf_append (fun c hc hmem => ?_) x
  simpa [hA c hc] using List.any_eq_false.mp hword c hmem

/-! ### Numbers -/

theorem exponentPart_append (x : List Char) :
    exponentPart (x ++ A) = (exponentPart x).map fun r => (r.1, r.2 ++ A) := by
  have hmark : Unbound fun c => c == 'e' || c == 'E' := ⟨by decide, by decide, by decide⟩
  have hsign : Unbound fun c => c == '+' || c == '-' := ⟨by decide, by decide, by decide⟩
  match x with
  | [] =>
    cases A with
    | nil => rfl
    | cons c A => simp [exponentPart, hmark.eq_false (hA c rfl)]
  | [e] =>
    cases A with
    | nil => simp [exponentPart]
    | cons c A =>
      simp only [exponentPart, List.cons_append, List.nil_append]
      rw [hsign.eq_false (hA c rfl), inWords_isDigit.eq_false (apart_of_ends hA c rfl)]
      split <;> rfl
  | e :: sign :: digits =>
    simp only [exponentPart, List.cons_append]
    rw [digitGroups_append (apart_of_ends hA) inWords_isDigit digits]
    have hgroups := digitGroups_append (apart_of_ends hA) inWords_isDigit (sign :: digits)
    rw [List.cons_append] at hgroups
    rw [hgroups]
    split
    · split
      · simp [Function.comp_def]
      · split
        · simp [Function.comp_def]
        · rfl
    · rfl

theorem decimalEnd_append (isReal : Bool) (x : List Char) :
    decimalEnd isReal (x ++ A) = (decimalEnd isReal x).map fun r => (r.1, r.2 ++ A) := by
  have hmark : Unbound fun c => c == 'j' || c == 'J' := ⟨by decide, by decide, by decide⟩
  unfold decimalEnd
  rw [exponentPart_append hA]
  cases exponentPart x with
  | none => rfl
  | some r =>
    obtain ⟨hasExponent, rest⟩ := r
    simp only [Option.map_some]
    cases rest with
    | nil =>
      cases A with
      | nil => simp
      | cons c A =>
        simp only [List.nil_append]
        rw [hmark.eq_false (hA c rfl)]
        exact endNumber?_append (apart_of_ends hA) _ []
    | cons c rest =>
      simp only [List.cons_append]
      split
      · exact endNumber?_append (apart_of_ends hA) _ rest
      · exact endNumber?_append (apart_of_ends hA) _ (c :: rest)

theorem fractionEnd_append (x : List Char) :
    fractionEnd (x ++ A) = (fractionEnd x).map fun r => (r.1, r.2 ++ A) := by
  cases x with
  | nil =>
    cases A with
    | nil => simp
    | cons c A =>
      simp only [fractionEnd, List.nil_append]
      rw [inWords_isDigit.eq_false (apart_of_ends hA c rfl)]
      exact decimalEnd_append hA true []
  | cons c x =>
    have hgroups := digitGroups_append (apart_of_ends hA) inWords_isDigit (c :: x)
    have hend := decimalEnd_append hA true (c :: x)
    simp only [fractionEnd, List.cons_append] at hgroups hend ⊢
    rw [hgroups, hend]
    split
    · cases digitGroups Char.isDigit (c :: x) with
      | none => rfl
      | some rest => exact decimalEnd_append hA true rest
    · rfl

theorem decimalNumber?_append (x : List Char) :
    decimalNumber? (x ++ A) = (decimalNumber? x).map fun r => (r.1, r.2 ++ A) := by
  have hgroups := digitGroups_append (apart_of_ends hA) inWords_isDigit x
  cases hx : digitGroups Char.isDigit x with
  | none =>
    rw [hx] at hgroups
    simp [decimalNumber?, hx, hgroups]
  | some rest =>
    rw [hx, Option.map_some] at hgroups
    by_cases hpoint : ∃ after, rest = '.' :: after
    · obtain ⟨after, rfl⟩ := hpoint
      simp only [decimalNumber?, hx, hgroups, List.cons_append]
      exact fractionEnd_append hA after
    · have hother : ∀ after, rest ++ A ≠ '.' :: after := by
        intro after h
        cases rest with
        | nil => exact absurd (hA '.' (by rw [← List.nil_append A, h]; rfl)) (by decide)
        | cons c rest => exact hpoint ⟨rest, by rw [(List.cons.inj h).1]⟩
      rw [decimalNumber?_pointless hgroups hother,
        decimalNumber?_pointless hx fun after h => hpoint ⟨after, h⟩, decimalEnd_append hA,
        Option.filter_map]
      simp only [Function.comp_def, take_append_sub]

theorem number?_append (x : List Char) :
    number? (x ++ A) = (number? x).map fun r => (r.1, r.2 ++ A) := by
  by_cases hmark : ∃ c rest, x = '0' :: c :: rest ∧ radix? c ≠ none
  · obtain ⟨c, rest, rfl, hradix⟩ := hmark
    obtain ⟨isDigit, hdigit⟩ := Option.ne_none_iff_exists'.mp hradix
    simp only [number?, List.cons_append, hdigit]
    exact radixNumber?_append (apart_of_ends hA) (inWords_of_radix? hdigit) rest
  · have hdecimal : ∀ c rest, x = '0' :: c :: rest → radix? c = none := by
      intro c rest h
      by_contra hradix
      exact hmark ⟨c, rest, h, hradix⟩
    have hdecimal' : ∀ c rest, x ++ A = '0' :: c :: rest → radix? c = none := by
      intro c rest h
      match x with
      | [] => exact absurd (hA '0' (by rw [← List.nil_append A, h]; rfl)) (by decide)
      | [d] =>
        -- the mark would be a quote or a line end
        have hA' : A = c :: rest := (List.cons.inj h).2
        have hbound := hA c (by rw [hA']; rfl)
        rcases eq_of_isBound hbound with (rfl | rfl) | rfl <;> rfl
      | d :: e :: y =>
        simp only [List.cons_append, List.cons.injEq] at h
        obtain ⟨rfl, rfl, -⟩ := h
        exact hdecimal e y rfl
    rw [number?_decimal hdecimal, number?_decimal hdecimal', decimalNumber?_append hA]

end Ends

/-! What follows a number is an end of the text, and not all of it. -/

theorem suffix_more (h : digitGroups.more isDigit s = some rest) : rest <:+ s := by
  fun_induction digitGroups.more isDigit s with
  | case1 c s hc ih => exact (ih h).trans ((List.suffix_cons c s).trans (List.suffix_cons _ _))
  | case2 => cases h
  | case3 => cases h
  | case4 c s _ _ hc ih => exact (ih h).trans (List.suffix_cons c s)
  | case5 c s _ _ hc =>
    cases h
    exact List.suffix_rfl
  | case6 =>
    cases h
    exact List.suffix_rfl

theorem suffix_digitGroups (h : digitGroups isDigit s = some rest) : rest <:+ s.tail := by
  cases s with
  | nil => cases h
  | cons c s =>
    rw [digitGroups, Option.ite_none_right_eq_some] at h
    exact suffix_more h.2

theorem suffix_exponentPart {hasExponent : Bool} (h : exponentPart s = some (hasExponent, rest)) :
    rest <:+ s := by
  unfold exponentPart at h
  split at h
  · split at h
    · split at h
      case h_1 =>
        split at h
        · obtain ⟨r, hr, heq⟩ := Option.map_eq_some_iff.mp h
          cases heq
          exact (suffix_digitGroups hr).trans ((List.tail_suffix _).trans
            ((List.suffix_cons _ _).trans (List.suffix_cons _ _)))
        · split at h
          · obtain ⟨r, hr, heq⟩ := Option.map_eq_some_iff.mp h
            cases heq
            exact (suffix_digitGroups hr).trans
              ((List.tail_suffix _).trans (List.suffix_cons _ _))
          · cases h
            exact List.suffix_rfl
      case h_2 =>
        cases h
        exact List.suffix_rfl
    · cases h
      exact List.suffix_rfl
  · cases h
    exact List.suffix_rfl

theorem endNumber?_eq_some {kind' : NumberKind} (h : endNumber? kind s = some (kind', rest)) :
    rest = s := by
  rw [endNumber?, Option.ite_none_right_eq_some] at h
  cases h.2
  rfl

theorem suffix_decimalEnd {isReal : Bool} (h : decimalEnd isReal s = some (kind, rest)) :
    rest <:+ s := by
  unfold decimalEnd at h
  split at h
  case h_1 => cases h
  case h_2 hasExponent after hexponent =>
    have hafter := suffix_exponentPart hexponent
    split at h
    case h_1 =>
      split at h
      · rw [endNumber?_eq_some h]
        exact (List.suffix_cons _ _).trans hafter
      · rw [endNumber?_eq_some h]
        exact hafter
    case h_2 =>
      rw [endNumber?_eq_some h]
      exact hafter

theorem suffix_fractionEnd (h : fractionEnd s = some (kind, rest)) : rest <:+ s := by
  unfold fractionEnd at h
  split at h
  case h_1 c s _ =>
    split at h
    · obtain ⟨after, hafter, hend⟩ := Option.bind_eq_some_iff.mp h
      exact (suffix_decimalEnd hend).trans
        ((suffix_digitGroups hafter).trans (List.tail_suffix _))
    · exact suffix_decimalEnd h
  case h_2 => exact suffix_decimalEnd h

theorem suffix_skipUnderscore (s : List Char) : skipUnderscore s <:+ s := by
  unfold skipUnderscore
  split
  · exact List.suffix_cons _ _
  · exact List.suffix_rfl

theorem suffix_number? (h : number? s = some (kind, rest)) : rest <:+ s.tail := by
  have hdecimal (h : decimalNumber? s = some (kind, rest)) : rest <:+ s.tail := by
    unfold decimalNumber? at h
    split at h
    case h_1 => cases h
    case h_2 after hgroups =>
      exact (suffix_fractionEnd h).trans
        ((List.suffix_cons _ after).trans (suffix_digitGroups hgroups))
    case h_3 after _ hgroups =>
      have hend := (Option.filter_eq_some_iff.mp h).1
      exact (suffix_decimalEnd hend).trans (suffix_digitGroups hgroups)
  unfold number? at h
  split at h
  case h_1 c digits =>
    split at h
    case h_1 isDigit _ =>
      obtain ⟨after, hafter, hend⟩ := Option.bind_eq_some_iff.mp h
      have hgroups := (Option.filter_eq_some_iff.mp hafter).1
      rw [endNumber?_eq_some hend]
      exact (suffix_digitGroups hgroups).trans ((List.tail_suffix _).trans
        ((suffix_skipUnderscore digits).trans (List.suffix_cons c digits)))
    case h_2 => exact hdecimal h
  case h_2 => exact hdecimal h

/-! ### Seams -/

/-- Two ends of a text, two texts that open a string with the same three quotes, or two texts that
start with a line end. What is read before is the same. -/
inductive Seam : List Char → List Char → Prop
  | nil : Seam [] []
  | quotes {q : Char} (h : isQuote q = true) (A B : List Char) :
      Seam (q :: q :: q :: A) (q :: q :: q :: B)
  | line (A B : List Char) : Seam ('\n' :: A) ('\n' :: B)

namespace Seam

variable {A B : List Char}

theorem symm (h : Seam A B) : Seam B A := by
  cases h with
  | nil => exact .nil
  | quotes h A B => exact .quotes h B A
  | line A B => exact .line B A

theorem ends (h : Seam A B) : Ends A := by
  cases h with
  | nil => exact ends_nil
  | quotes h A B => exact ends_cons (by rw [isBound, h, Bool.true_or])
  | line A B => exact ends_cons rfl

theorem eq_nil_iff (h : Seam A B) : A = [] ↔ B = [] := by
  cases h <;> simp

theorem take_eq_iff (h : Seam A B) {q : Char} (hq : q ≠ '\n') (x : List Char) :
    (x ++ A).take 2 = [q, q] ↔ (x ++ B).take 2 = [q, q] := by
  cases h with
  | nil => rfl
  | quotes h A B =>
    match x with
    | [] => rfl
    | [_] => rfl
    | _ :: _ :: _ => rfl
  | line A B =>
    match x with
    | [] => simp [hq.symm]
    | [_] => rfl
    | _ :: _ :: _ => rfl

theorem head?_append (h : Seam A B) (x : List Char) : (x ++ A).head? = (x ++ B).head? := by
  cases h with
  | nil => rfl
  | quotes h A B => cases x <;> rfl
  | line A B => cases x <;> rfl

end Seam

theorem suffix_stringBody {done body : List Char}
    (h : LexState.stringBody quote triple done s = some (body, rest)) : rest <:+ s.tail := by
  fun_induction LexState.stringBody quote triple done s with
  | case1 => cases h
  | case2 done c s ih => exact (ih h).trans ((List.tail_suffix s).trans (List.suffix_cons c s))
  | case3 => cases h
  | case4 done s _ _ htriple =>
    cases h
    exact List.suffix_rfl
  | case5 done s _ _ htriple htake =>
    cases h
    exact List.drop_suffix 2 s
  | case6 done s _ _ htriple htake ih => exact (ih h).trans (List.tail_suffix s)
  | case7 => cases h
  | case8 done c s _ _ hc hline ih => exact (ih h).trans (List.tail_suffix s)

theorem length_stringBody {done body : List Char}
    (h : LexState.stringBody quote triple done s = some (body, rest)) : rest.length < s.length := by
  have hle := (suffix_stringBody h).length_le
  cases s with
  | nil => cases h
  | cons c s =>
    simp only [List.tail_cons, List.length_cons] at hle ⊢
    omega

theorem stringBody_cons {done : List Char} (hc : c ≠ '\\') :
    LexState.stringBody quote triple done (c :: s) =
      if c = quote then
        if !triple then some (done.reverse, s)
        else if s.take 2 = [quote, quote] then some (done.reverse, s.drop 2)
        else LexState.stringBody quote triple (c :: done) s
      else if c = '\n' ∧ !triple then none
      else LexState.stringBody quote triple (c :: done) s := by
  rw [LexState.stringBody.eq_def]
  split <;> simp_all

theorem stringBody_seam {A B : List Char} (hseam : Seam A B) (hnew : quote ≠ '\n')
    {done x y body : List Char}
    (h : LexState.stringBody quote triple done (x ++ A) = some (body, y ++ A)) :
    LexState.stringBody quote triple done (x ++ B) = some (body, y ++ B) := by
  have hlong : A.length ≤ (y ++ A).length := by simp
  induction hn : x.length using Nat.strongRecOn generalizing done x with
  | _ n ih =>
    subst hn
    cases x with
    | nil =>
      have hshort := length_stringBody h
      simp only [List.nil_append] at hshort
      omega
    | cons c x =>
      by_cases hc : c = '\\'
      · subst hc
        cases x with
        | nil =>
          -- the escape would take a character after the seam
          cases A with
          | nil => cases h
          | cons d A =>
            have hshort := length_stringBody (show LexState.stringBody quote triple
              (d :: '\\' :: done) A = some (body, y ++ d :: A) from h)
            simp only [List.length_cons] at hlong
            omega
        | cons d x =>
          replace h : LexState.stringBody quote triple (d :: '\\' :: done) (x ++ A) =
            some (body, y ++ A) := h
          change LexState.stringBody quote triple (d :: '\\' :: done) (x ++ B) = _
          exact ih x.length (by simp only [List.length_cons]; omega) h rfl
      · rw [List.cons_append, stringBody_cons hc] at h ⊢
        rw [if_congr (hseam.take_eq_iff hnew x).symm rfl rfl]
        by_cases hquote : c = quote
        · rw [if_pos hquote] at h ⊢
          by_cases htriple : (!triple) = true
          · rw [if_pos htriple] at h ⊢
            simp only [Option.some.injEq, Prod.mk.injEq, List.append_cancel_right_eq] at h ⊢
            exact h
          · rw [if_neg htriple] at h ⊢
            by_cases htake : (x ++ A).take 2 = [quote, quote]
            · rw [if_pos htake] at h ⊢
              obtain ⟨hbody, hrest⟩ := Prod.mk.inj (Option.some.inj h)
              -- all three quotes stand before the seam
              have hbefore : 2 ≤ x.length := by
                have htwo := congrArg List.length htake
                have hdrop := congrArg List.length hrest
                simp only [List.length_take, List.length_drop, List.length_append,
                  List.length_cons, List.length_nil] at htwo hdrop
                omega
              rw [List.drop_append_of_le_length hbefore] at hrest ⊢
              rw [hbody, List.append_cancel_right hrest]
            · rw [if_neg htake] at h ⊢
              exact ih x.length (by simp) h rfl
        · rw [if_neg hquote] at h ⊢
          by_cases hline : c = '\n' ∧ (!triple) = true
          · rw [if_pos hline] at h
            cases h
          · rw [if_neg hline] at h ⊢
            exact ih x.length (by simp) h rfl

theorem suffix_openString (q : Char) (s : List Char) :
    (LexState.openString q s).2.tail <:+ s.tail := by
  unfold LexState.openString
  split
  · rw [List.tail_drop, ← List.drop_tail]
    exact List.drop_suffix 2 s.tail
  · exact List.suffix_rfl

theorem openString_seam {A B : List Char} (hseam : Seam A B) {q : Char} (hnew : q ≠ '\n')
    {z y body : List Char}
    (h : LexState.stringBody q (LexState.openString q (z ++ A)).1 []
      (LexState.openString q (z ++ A)).2 = some (body, y ++ A)) :
    LexState.stringBody q (LexState.openString q (z ++ B)).1 []
      (LexState.openString q (z ++ B)).2 = some (body, y ++ B) := by
  have hshort := length_stringBody h
  unfold LexState.openString at h hshort ⊢
  rw [if_congr (hseam.take_eq_iff hnew z).symm rfl rfl]
  by_cases htake : (z ++ A).take 2 = [q, q]
  · rw [if_pos htake] at h hshort ⊢
    have hbefore : 2 ≤ z.length := by
      simp only [List.length_append, List.length_drop] at hshort
      omega
    rw [List.drop_append_of_le_length hbefore] at h ⊢
    exact stringBody_seam hseam hnew h
  · rw [if_neg htake] at h ⊢
    exact stringBody_seam hseam hnew h

theorem dropWhile_seam {A B : List Char} (hseam : Seam A B) {x y : List Char}
    (h : (x ++ A).dropWhile (· != '\n') = y ++ A) : (x ++ B).dropWhile (· != '\n') = y ++ B := by
  induction x with
  | nil =>
    cases hseam with
    | nil => exact h
    | @quotes q hq A B =>
      -- the comment would take the quotes
      have hline : (q != '\n') = true := by
        rcases eq_of_isQuote hq with rfl | rfl <;> rfl
      rw [List.nil_append, List.dropWhile_cons, if_pos hline] at h
      have hshort := (List.dropWhile_suffix (· != '\n') (l := q :: q :: A)).length_le
      rw [h] at hshort
      simp only [List.length_append, List.length_cons] at hshort
      omega
    | line A B =>
      have hy : y = [] := by simpa using h
      rw [hy]
      rfl
  | cons c x ih =>
    simp only [List.cons_append, List.dropWhile_cons] at h ⊢
    by_cases hc : (c != '\n') = true
    · rw [if_pos hc] at h ⊢
      exact ih h
    · rw [if_neg hc] at h ⊢
      rw [← List.cons_append] at h
      rw [← List.append_cancel_right h, List.cons_append]

theorem joinedLine?_eq_some_iff :
    LexState.joinedLine? s = some rest ↔ s = '\n' :: rest ∧ rest ≠ [] := by
  unfold LexState.joinedLine?
  split
  case h_1 c after => simp +contextual [eq_comm]
  case h_2 hother =>
    refine iff_of_false nofun ?_
    rintro ⟨rfl, hne⟩
    obtain ⟨c, after, rfl⟩ := List.exists_cons_of_ne_nil hne
    exact hother c after rfl

theorem joinedLine?_seam {A B : List Char} (hseam : Seam A B) {x y : List Char}
    (h : LexState.joinedLine? (x ++ A) = some (y ++ A)) :
    x = '\n' :: y ∧ LexState.joinedLine? (x ++ B) = some (y ++ B) := by
  obtain ⟨hline, hne⟩ := joinedLine?_eq_some_iff.mp h
  have hx : x = '\n' :: y := by
    rw [← List.cons_append] at hline
    exact List.append_cancel_right hline
  refine ⟨hx, joinedLine?_eq_some_iff.mpr ⟨by rw [hx, List.cons_append], fun hnil => hne ?_⟩⟩
  obtain ⟨hy, hB⟩ := List.append_eq_nil_iff.mp hnil
  rw [hy, hseam.eq_nil_iff.mpr hB, List.append_nil]

def isIndenting (c : Char) : Bool := c == ' ' || c == '\t' || c == '\x0c' || c == '\\'

theorem measure_cons {width : Width} {joined : Nat} (hc : isIndenting c = false) :
    LexState.measure width joined (c :: s) = some (width, joined, c :: s) := by
  rw [LexState.measure.eq_def]
  split <;> simp_all [isIndenting]

theorem measure_backslash (width : Width) (joined : Nat) (s : List Char) :
    LexState.measure width joined ('\\' :: s) = (LexState.joinedLine? s).bind
      (LexState.measure width (if joined = 0 then width.tabbed else joined)) := by
  by_cases h : ∃ c rest, s = '\n' :: c :: rest
  · obtain ⟨c, rest, rfl⟩ := h
    rfl
  · have hnone : LexState.joinedLine? s = none := by
      unfold LexState.joinedLine?
      split
      case h_1 c rest => exact absurd ⟨c, rest, rfl⟩ h
      case h_2 => rfl
    rw [hnone, LexState.measure.eq_def]
    split <;> simp_all

theorem suffix_joinedLine? (h : LexState.joinedLine? s = some rest) : rest <:+ s := by
  rw [(joinedLine?_eq_some_iff.mp h).1]
  exact List.suffix_cons _ _

theorem suffix_measure {width width' : Width} {joined joined' : Nat}
    (h : LexState.measure width joined s = some (width', joined', rest)) : rest <:+ s := by
  fun_induction LexState.measure width joined s with
  | case1 width joined s ih => exact (ih h).trans (List.suffix_cons _ s)
  | case2 width joined s ih => exact (ih h).trans (List.suffix_cons _ s)
  | case3 width joined s ih => exact (ih h).trans (List.suffix_cons _ s)
  | case4 width joined c s ih =>
    exact (ih h).trans ((List.suffix_cons _ _).trans (List.suffix_cons _ _))
  | case5 => cases h
  | case6 =>
    cases h
    exact List.suffix_rfl

theorem measure_seam {A B : List Char} (hseam : Seam A B) {width width' : Width}
    {joined joined' : Nat} {x y : List Char}
    (h : LexState.measure width joined (x ++ A) = some (width', joined', y ++ A)) :
    LexState.measure width joined (x ++ B) = some (width', joined', y ++ B) := by
  have hbound {c : Char} (hc : isBound c = true) : isIndenting c = false := by
    rcases eq_of_isBound hc with (rfl | rfl) | rfl <;> rfl
  induction hn : x.length using Nat.strongRecOn generalizing x width joined with
  | _ n ih =>
    subst hn
    cases x with
    | nil =>
      -- the indentation ends at the seam, since no blank stands there
      obtain rfl : y = [] := List.suffix_nil.mp (List.suffix_append_self_iff.mp (suffix_measure h))
      cases hseam with
      | nil => exact h
      | quotes hq A B =>
        have hq : isIndenting _ = false := hbound (by rw [isBound, hq, Bool.true_or])
        rw [List.nil_append, measure_cons hq] at h
        cases h
        rw [List.nil_append, measure_cons hq]
      | line A B =>
        rw [List.nil_append, measure_cons rfl] at h
        cases h
        rw [List.nil_append, measure_cons rfl]
    | cons c x =>
      rw [List.cons_append] at h ⊢
      by_cases hc : isIndenting c = false
      · rw [measure_cons hc] at h ⊢
        simp only [Option.some.injEq, Prod.mk.injEq] at h
        obtain ⟨rfl, rfl, hrest⟩ := h
        rw [← List.cons_append] at hrest ⊢
        rw [List.append_cancel_right hrest]
      · simp only [isIndenting, Bool.or_eq_false_iff, beq_eq_false_iff_ne, ne_eq, not_and_or,
          not_not] at hc
        rcases hc with ((rfl | rfl) | rfl) | rfl
        · exact ih x.length (by simp) h rfl
        · exact ih x.length (by simp) h rfl
        · exact ih x.length (by simp) h rfl
        · rw [measure_backslash] at h ⊢
          obtain ⟨rest, hjoined, hmore⟩ := Option.bind_eq_some_iff.mp h
          obtain ⟨z, rfl⟩ : A <:+ rest := (List.suffix_append y A).trans (suffix_measure hmore)
          obtain ⟨rfl, hjoined'⟩ := joinedLine?_seam hseam hjoined
          rw [hjoined']
          have hshorter : z.length < ('\\' :: '\n' :: z).length := by
            simp only [List.length_cons]
            omega
          exact ih z.length hshorter hmore rfl

end Restyle.Syntax
