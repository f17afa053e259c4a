import Restyle.Proofs.Syntax.Lexing

/-!
Scanning two texts that are worded alike. Numbers, operators, strings, comments and blanks start and
end at the same places among the words and marks of both texts, and what follows them is worded
alike again. If one scan fails, so does the other one.
-/

namespace Restyle.Syntax

open LexState (isQuote)
open Text (Apart IsRun mayBeNameChar)

variable {ν : NameLikeness} {site : Site} {c : Char} {s s' t t' u w : List Char}
variable {q quote : Char}

namespace Reworded

/-- What may stay or change after a number or a mark may do so elsewhere. -/
theorem toPlain (h : Reworded ν site s s') : Reworded ν .plain s s' := by
  induction h with
  | nil => exact .nil _
  | @mark site c s s' hc h ih =>
    refine .mark hc ?_
    unfold Site.afterMark at h ⊢
    split
    · simpa [*] using h
    split
    · simpa [*] using h
    · simpa using ih
  | kept hw h _ =>
    exact .kept ⟨hw.run, hw.apart, hw.keeps, fun hd => hw.ends (.inl (hd.resolve_right nofun)),
      nofun⟩ h
  | changed hw h _ => exact .changed ⟨hw.old, hw.new, hw.rel, ⟨rfl, rfl⟩, hw.apart, hw.unmarked⟩ h

end Reworded

/-! ### Numbers -/

/-- Two texts that go on with the rest of a word that stays, and with texts that are worded alike.
The rest of the word may be needed as a word. -/
structure Continued (ν : NameLikeness) (u t t' : List Char) : Prop where
  chars : ∀ c ∈ u, mayBeNameChar c = true
  apart : Apart mayBeNameChar t
  ends : ∀ v, v <:+ u → startsWithFollower v = true → ν.Keeps v
  tail : Reworded ν .plain t t'

theorem Continued.apart' (h : Continued ν u t t') : Apart mayBeNameChar t' := h.tail.apart h.apart

theorem Continued.suffix (h : Continued ν u t t') {v : List Char} (hv : v <:+ u) :
    Continued ν v t t' :=
  ⟨fun c hc => h.chars c (hv.subset hc), h.apart, fun x hx => h.ends x (hx.trans hv), h.tail⟩

/-- Two texts are read up to one place, in the middle of a word or at its end. -/
def CutAlike (ν : NameLikeness) (s s' r r' : List Char) : Prop :=
  ∃ p u t t', s = p ++ r ∧ s' = p ++ r' ∧ r = u ++ t ∧ r' = u ++ t' ∧ Continued ν u t t'

theorem Continued.cut (h : Continued ν u t t') {p v : List Char} (hu : u = p ++ v) :
    CutAlike ν (u ++ t) (u ++ t') (v ++ t) (v ++ t') := by
  subst hu
  exact ⟨p, v, t, t', by simp, by simp, rfl, rfl, h.suffix (List.suffix_append p v)⟩

theorem CutAlike.after {r r' : List Char} (h : CutAlike ν s s' r r') (p : List Char) :
    CutAlike ν (p ++ s) (p ++ s') r r' := by
  obtain ⟨q, u, t, t', rfl, rfl, hr, hr', hcont⟩ := h
  exact ⟨p ++ q, u, t, t', by simp, by simp, hr, hr', hcont⟩

/-- Two texts have the same number at their start, and go on worded alike. -/
def NumberAlike (ν : NameLikeness) (s s' : List Char) (r r' : NumberKind × List Char) : Prop :=
  r.1 = r'.1 ∧ ∃ p, s = p ++ r.2 ∧ s' = p ++ r'.2 ∧ Reworded ν .plain r.2 r'.2

theorem NumberAlike.after {r r' : NumberKind × List Char} (h : NumberAlike ν s s' r r')
    (p : List Char) : NumberAlike ν (p ++ s) (p ++ s') r r' := by
  obtain ⟨hkind, q, hs, hs', hrest⟩ := h
  exact ⟨hkind, p ++ q, by rw [hs, List.append_assoc], by rw [hs', List.append_assoc], hrest⟩

theorem rel_digitGroups {isDigit : Char → Bool} (hdigit : InWords isDigit)
    (h : Continued ν u t t') : Option.Rel (CutAlike ν (u ++ t) (u ++ t'))
      (digitGroups isDigit (u ++ t)) (digitGroups isDigit (u ++ t')) := by
  rw [digitGroups_append h.apart hdigit, digitGroups_append h.apart' hdigit]
  cases hu : digitGroups isDigit u with
  | none => exact .none
  | some v =>
    obtain ⟨p, hp⟩ := (suffix_digitGroups hu).trans (List.tail_suffix u)
    exact .some (h.cut hp.symm)

theorem digitGroups_eq_none (hs : startsWithDigit s = false) :
    digitGroups Char.isDigit s = none := by
  cases s with
  | nil => rfl
  | cons c s =>
    have hc : c.isDigit = false := hs
    simp [digitGroups, hc]

/-- A word that starts with a digit stays. -/
theorem Kept.continued (hw : Kept ν site w s) (hnumber : startsWithDigit w = true ∨ site = .point)
    {site' : Site} (h : Reworded ν site' s s') : Continued ν w s s' :=
  ⟨hw.run.all, hw.apart, hw.ends hnumber, h.toPlain⟩

theorem Reworded.startsWithDigit_eq (h : Reworded ν site s s') :
    startsWithDigit s = startsWithDigit s' := by
  cases h with
  | nil => rfl
  | mark => rfl
  | kept hw _ =>
    obtain ⟨c, rest, rfl⟩ := List.exists_cons_of_ne_nil hw.run.ne_nil
    rfl
  | changed hw _ => rw [hw.old.startsWithDigit_append, hw.new.startsWithDigit_append]

theorem Reworded.continued_of_digit (h : Reworded ν site s s') (hs : startsWithDigit s = true) :
    ∃ u t t', s = u ++ t ∧ s' = u ++ t' ∧ Continued ν u t t' := by
  cases h with
  | nil => cases hs
  | mark hc _ => exact absurd (inWords_isDigit.eq_false hc) (by simpa [startsWithDigit] using hs)
  | @kept _ w t t' hw h =>
    have hdigit : startsWithDigit w = true := by
      obtain ⟨c, v, rfl⟩ := List.exists_cons_of_ne_nil hw.run.ne_nil
      exact hs
    exact ⟨w, t, t', rfl, rfl, hw.continued (.inl hdigit) h⟩
  | changed hw _ =>
    rw [hw.old.startsWithDigit_append] at hs
    cases hs

theorem rel_digits (h : Reworded ν site s s') : Option.Rel (CutAlike ν s s')
    (digitGroups Char.isDigit s) (digitGroups Char.isDigit s') := by
  cases hd : startsWithDigit s with
  | true =>
    obtain ⟨u, t, t', rfl, rfl, hcont⟩ := h.continued_of_digit hd
    exact rel_digitGroups inWords_isDigit hcont
  | false =>
    rw [digitGroups_eq_none hd, digitGroups_eq_none (h.startsWithDigit_eq.symm.trans hd)]
    exact .none

theorem exponentPart_apart (hs : Apart mayBeNameChar s) : exponentPart s = some (false, s) := by
  cases s with
  | nil => rfl
  | cons c s =>
    have hmark : InWords fun c => c == 'e' || c == 'E' := inWords_of_ascii (by decide)
    have hc : (c == 'e' || c == 'E') = false := hmark.eq_false (Text.apart_cons.mp hs)
    simp [exponentPart, hc]

theorem rel_exponentPart (h : Continued ν u t t') :
    Option.Rel (fun r r' => r.1 = r'.1 ∧ CutAlike ν (u ++ t) (u ++ t') r.2 r'.2)
      (exponentPart (u ++ t)) (exponentPart (u ++ t')) := by
  have hself : CutAlike ν (u ++ t) (u ++ t') (u ++ t) (u ++ t') :=
    h.cut (List.nil_append u).symm
  match u, h, hself with
  | [], h, hself =>
    rw [List.nil_append, List.nil_append, exponentPart_apart h.apart, exponentPart_apart h.apart']
    exact .some ⟨rfl, hself⟩
  | [e], h, hself =>
    -- the exponent may go on after the word, with a sign
    cases he : e == 'e' || e == 'E' with
    | false =>
      simp only [exponentPart, List.cons_append, List.nil_append, he]
      exact .some ⟨rfl, hself⟩
    | true =>
      obtain ⟨hchars, hapart, -, htail⟩ := h
      cases htail with
      | nil =>
        simp only [exponentPart, List.cons_append, List.nil_append, he]
        exact .some ⟨rfl, hself⟩
      | @mark _ c s s' hc hs =>
        simp only [exponentPart, List.cons_append, List.nil_append, he, if_true,
          inWords_isDigit.eq_false hc]
        split
        · refine rel_map (rel_digits hs) fun r r' hr => ⟨rfl, ?_⟩
          exact hr.after [e, c]
        · exact .some ⟨rfl, hself⟩
      | kept hw => exact absurd hapart hw.run.not_apart
      | changed hw => exact absurd hapart hw.old.isRun.not_apart
  | e :: d :: v, h, hself =>
    -- within a word no sign follows, but digits may
    have hsign : (d == '+' || d == '-') = false := by
      have hd := h.chars d (by simp)
      by_contra hsign
      simp only [Bool.not_eq_false, Bool.or_eq_true, beq_iff_eq] at hsign
      rcases hsign with rfl | rfl <;> exact absurd hd (by decide)
    simp only [exponentPart, List.cons_append, hsign]
    split
    · split
      · rename_i h1 h2
        exact absurd h2 (by simp)
      · split
        · have hdigits := rel_digitGroups inWords_isDigit (h.suffix (List.suffix_cons e (d :: v)))
          exact rel_map hdigits fun r r' hr => ⟨rfl, hr.after [e]⟩
        · exact .some ⟨rfl, hself⟩
    · exact .some ⟨rfl, hself⟩

theorem startsWithDigit_of_follower (h : startsWithFollower s = true) :
    startsWithDigit s = false := by
  have hletters : ∀ word ∈ numberFollowers, word ≠ [] ∧ startsWithDigit word = false := by decide
  obtain ⟨word, hword, hstarts⟩ := List.any_eq_true.mp h
  obtain ⟨rest, rfl⟩ := List.isPrefixOf_iff_prefix.mp hstarts
  obtain ⟨hne, hletter⟩ := hletters word hword
  obtain ⟨c, word, rfl⟩ := List.exists_cons_of_ne_nil hne
  exact hletter

theorem rel_endNumber? (kind : NumberKind) (h : Continued ν u t t') :
    Option.Rel (NumberAlike ν (u ++ t) (u ++ t')) (endNumber? kind (u ++ t))
      (endNumber? kind (u ++ t')) := by
  unfold endNumber?
  rw [endsNumber_append h.apart, endsNumber_append h.apart']
  split
  case isFalse => exact .none
  case isTrue hends =>
    refine .some ⟨rfl, [], rfl, rfl, ?_⟩
    cases u with
    | nil => exact h.tail
    | cons c v =>
      -- the word after the number is one of those that may follow it, or a name
      have hfollower : startsWithFollower (c :: v) = true := by
        rwa [endsNumber, h.chars c List.mem_cons_self, Bool.not_true, Bool.false_or] at hends
      have hdigit := startsWithDigit_of_follower hfollower
      refine .kept ⟨⟨List.cons_ne_nil _ _, h.chars⟩, h.apart, h.ends _ List.suffix_rfl hfollower,
        fun hd => ?_, by simp⟩ ?_
      · rcases hd with hd | hd
        · simp [hdigit] at hd
        · cases hd
      · simpa [Site.afterWord, hdigit] using h.tail

/-- Whether a text starts with the mark of an imaginary number. -/
def startsImaginary (s : List Char) : Bool := s.head?.any fun c => c == 'j' || c == 'J'

theorem decimalEnd_eq (isReal : Bool) (s : List Char) : decimalEnd isReal s =
    exponentPart s >>= fun r =>
      if startsImaginary r.2 then endNumber? .imaginary r.2.tail
      else endNumber? (if isReal || r.1 then .real else .integer) r.2 := by
  unfold decimalEnd
  cases exponentPart s with
  | none => rfl
  | some r =>
    obtain ⟨hasExponent, rest⟩ := r
    cases rest with
    | nil => rfl
    | cons c rest => rfl

theorem startsImaginary_apart (h : Apart mayBeNameChar s) : startsImaginary s = false := by
  have hmark : InWords fun c => c == 'j' || c == 'J' := inWords_of_ascii (by decide)
  cases s with
  | nil => rfl
  | cons c s => exact hmark.eq_false (Text.apart_cons.mp h)

theorem rel_decimalEnd (isReal : Bool) (h : Continued ν u t t') :
    Option.Rel (NumberAlike ν (u ++ t) (u ++ t')) (decimalEnd isReal (u ++ t))
      (decimalEnd isReal (u ++ t')) := by
  rw [decimalEnd_eq, decimalEnd_eq]
  refine rel_bind (rel_exponentPart h) fun r r' hr => ?_
  obtain ⟨hexponent, p, v, a, a', hs, hs', hr, hr', hcont⟩ := hr
  rw [hexponent, hs, hs', hr, hr']
  cases v with
  | nil =>
    rw [List.nil_append, List.nil_append, startsImaginary_apart hcont.apart,
      startsImaginary_apart hcont.apart']
    exact rel_imp (rel_endNumber? _ hcont) fun _ _ hr => hr.after p
  | cons c v =>
    have hsame (a : List Char) : startsImaginary (c :: v ++ a) = startsImaginary [c] := rfl
    rw [hsame, hsame]
    split
    · have hend := rel_endNumber? .imaginary (hcont.suffix (List.suffix_cons c v))
      refine rel_imp hend fun _ _ hr => ?_
      have hafter := hr.after (p ++ [c])
      rwa [List.append_assoc, List.append_assoc] at hafter
    · exact rel_imp (rel_endNumber? _ hcont) fun _ _ hr => hr.after p

theorem rel_fractionEnd (h : Continued ν u t t') :
    Option.Rel (NumberAlike ν (u ++ t) (u ++ t')) (fractionEnd (u ++ t))
      (fractionEnd (u ++ t')) := by
  have hdirect {s : List Char} (hs : startsWithDigit s = false) :
      fractionEnd s = decimalEnd true s := by
    cases s with
    | nil => rfl
    | cons c s =>
      have hc : c.isDigit = false := hs
      simp [fractionEnd, hc]
  have hdigits {s : List Char} (hs : startsWithDigit s = true) :
      fractionEnd s = (digitGroups Char.isDigit s).bind (decimalEnd true) := by
    cases s with
    | nil => cases hs
    | cons c s =>
      have hc : c.isDigit = true := hs
      simp [fractionEnd, hc]
  have hsame : startsWithDigit (u ++ t) = startsWithDigit (u ++ t') := by
    cases u with
    | nil => exact h.tail.startsWithDigit_eq
    | cons c u => rfl
  cases hd : startsWithDigit (u ++ t) with
  | false =>
    rw [hdirect hd, hdirect (hsame ▸ hd)]
    exact rel_decimalEnd true h
  | true =>
    rw [hdigits hd, hdigits (hsame ▸ hd)]
    refine rel_bind (rel_digitGroups inWords_isDigit h) fun r r' hr => ?_
    obtain ⟨p, v, a, a', hs, hs', rfl, rfl, hcont⟩ := hr
    rw [hs, hs']
    exact rel_imp (rel_decimalEnd true hcont) fun _ _ hr => hr.after p

theorem Continued.of_apart (hs : Apart mayBeNameChar s) (h : Reworded ν site s s') :
    Continued ν [] s s' := by
  refine ⟨nofun, hs, fun v hv hfollower => ?_, h.toPlain⟩
  rw [List.suffix_nil.mp hv] at hfollower
  exact absurd hfollower (by decide)

/-- A name does not go on with the number before it. -/
theorem fractionEnd_name (hw : IsPlainName w) (hsite : Site.admits .point w = true)
    (hs : Apart mayBeNameChar s) : fractionEnd (w ++ s) = none := by
  have hrun := hw.isRun
  obtain ⟨c, v, rfl, hdigit⟩ := hw.exists_cons
  obtain ⟨hmark, hfollower⟩ := Bool.and_eq_true_iff.mp hsite
  simp only [List.head?_cons, Option.any_some, List.contains_cons, List.contains_nil, Bool.or_false,
    Bool.not_eq_true', Bool.or_eq_false_iff] at hmark hfollower
  obtain ⟨he, hE, hj, hJ⟩ := hmark
  have hends : endsNumber (c :: v ++ s) = false := by
    rw [endsNumber_append hs, endsNumber, hrun.all c List.mem_cons_self]
    exact hfollower
  have hexponent : exponentPart (c :: v ++ s) = some (false, c :: v ++ s) := by
    simp [exponentPart, he, hE]
  have himaginary : startsImaginary (c :: v ++ s) = false := by simp [startsImaginary, hj, hJ]
  calc fractionEnd (c :: v ++ s)
      = decimalEnd true (c :: v ++ s) := by simp [fractionEnd, hdigit]
    _ = endNumber? .real (c :: v ++ s) := by
        simp only [decimalEnd_eq, hexponent, Option.bind_eq_bind, Option.bind_some, himaginary]
        rfl
    _ = none := by rw [endNumber?, hends, if_neg Bool.false_ne_true]

theorem rel_fraction (h : Reworded ν .point s s') :
    Option.Rel (NumberAlike ν s s') (fractionEnd s) (fractionEnd s') := by
  cases h with
  | nil => exact rel_fractionEnd (.of_apart Text.apart_nil (.nil .plain))
  | mark hc h => exact rel_fractionEnd (.of_apart (Text.apart_cons.mpr hc) (.mark hc h))
  | kept hw h => exact rel_fractionEnd (hw.continued (.inr rfl) h)
  | changed hw h =>
    rw [fractionEnd_name hw.old hw.admits.1 hw.apart,
      fractionEnd_name hw.new hw.admits.2 (h.apart hw.apart)]
    exact .none

theorem rel_decimalNumber? (h : Continued ν u t t') (ht : Reworded ν .numeral t t') :
    Option.Rel (NumberAlike ν (u ++ t) (u ++ t')) (decimalNumber? (u ++ t))
      (decimalNumber? (u ++ t')) := by
  have hgroups := digitGroups_append h.apart inWords_isDigit u
  have hgroups' := digitGroups_append h.apart' inWords_isDigit u
  cases hu : digitGroups Char.isDigit u with
  | none =>
    rw [hu] at hgroups hgroups'
    rw [decimalNumber?, decimalNumber?, hgroups, hgroups']
    exact .none
  | some v =>
    rw [hu, Option.map_some] at hgroups hgroups'
    obtain ⟨p, rfl⟩ := (suffix_digitGroups hu).trans (List.tail_suffix u)
    by_cases hpoint : ∃ after, v ++ t = '.' :: after
    · obtain ⟨after, hafter⟩ := hpoint
      have hv : v = [] := by
        cases v with
        | nil => rfl
        | cons c v =>
          have hc := h.chars c (by simp)
          cases hafter
          exact absurd hc (by decide)
      subst hv
      subst hafter
      obtain ⟨after', rfl, hrest⟩ := ht.cons_mark (by decide)
      have hrest : Reworded ν .point after after' := hrest
      rw [decimalNumber?, decimalNumber?, hgroups, hgroups']
      refine rel_imp (rel_fraction hrest) fun r r' hr => ?_
      simpa using hr.after (p ++ ['.'])
    · have hpoint' : ∀ after, v ++ t' ≠ '.' :: after := by
        intro after hafter
        cases v with
        | nil =>
          have hhead := ht.head?_eq h.apart
          rw [List.nil_append] at hafter
          rw [hafter] at hhead
          obtain ⟨tail, htail⟩ := List.head?_eq_some_iff.mp hhead
          exact hpoint ⟨tail, htail⟩
        | cons c v =>
          cases hafter
          exact hpoint ⟨_, rfl⟩
      rw [decimalNumber?_pointless hgroups (not_exists.mp hpoint),
        decimalNumber?_pointless hgroups' hpoint']
      have hend := rel_decimalEnd false (h.suffix (List.suffix_append p v))
      rw [List.append_assoc, List.append_assoc]
      refine rel_filter (rel_imp hend fun r r' hr => hr.after p) fun r r' hr => ?_
      -- both integers have the same digits
      obtain ⟨hkind, q, hs, hs', -⟩ := hr
      have htake (a b : List Char) : (a ++ b).take ((a ++ b).length - b.length) = a := by simp
      rw [hkind, hs, hs', htake, htake]

theorem rel_number? (hu : startsWithDigit u = true) (h : Continued ν u t t')
    (ht : Reworded ν .numeral t t') :
    Option.Rel (NumberAlike ν (u ++ t) (u ++ t')) (number? (u ++ t)) (number? (u ++ t')) := by
  have hmark : InWords fun c => (radix? c).isSome := inWords_of_ascii (by decide)
  have hdecimal {x : List Char} (hx : Apart mayBeNameChar x) (d : Char) :
      number? (d :: x) = decimalNumber? (d :: x) := by
    refine number?_decimal fun c rest heq => ?_
    cases heq
    simpa using hmark.eq_false (Text.apart_cons.mp hx)
  match u, hu, h with
  | [d], hu, h =>
    rw [List.singleton_append, List.singleton_append, hdecimal h.apart, hdecimal h.apart']
    exact rel_decimalNumber? h ht
  | d :: c :: v, hu, h =>
    -- the second character may be the mark of another base
    by_cases hradix : d = '0' ∧ (radix? c).isSome = true
    · obtain ⟨rfl, hsome⟩ := hradix
      obtain ⟨isDigit, hdigit⟩ := Option.isSome_iff_exists.mp hsome
      have hnumber (x : List Char) :
          number? ('0' :: c :: v ++ x) = radixNumber? isDigit (v ++ x) := by
        simp only [List.cons_append, number?, hdigit]
      have hin := inWords_of_radix? hdigit
      rw [hnumber, hnumber, radixNumber?, radixNumber?, radixDigits_append h.apart hin,
        radixDigits_append h.apart' hin]
      cases hdigits : radixDigits isDigit v with
      | none => exact .none
      | some rest =>
        have hsuffix : rest <:+ v := (suffix_digitGroups (Option.filter_eq_some_iff.mp
          hdigits).1).trans ((List.tail_suffix _).trans (suffix_skipUnderscore v))
        obtain ⟨p, rfl⟩ := hsuffix
        have hcont := h.suffix (v := rest) ⟨'0' :: c :: p, by simp⟩
        refine rel_imp (rel_endNumber? .integer hcont) fun r r' hr => ?_
        simpa using hr.after ('0' :: c :: p)
    · have hnumber (x : List Char) :
          number? (d :: c :: v ++ x) = decimalNumber? (d :: c :: v ++ x) := by
        refine number?_decimal fun c' rest heq => ?_
        cases heq
        simpa using hradix
      rw [hnumber, hnumber]
      exact rel_decimalNumber? h ht

/-! ### Marks -/

/-- Both texts start with given marks, or neither does. -/
theorem Reworded.append_marks {op : List Char} (hop : ∀ c ∈ op, mayBeNameChar c = false)
    (h : Reworded ν site s s') (hs : op <+: s) :
    ∃ site' r r', s = op ++ r ∧ s' = op ++ r' ∧ Reworded ν site' r r' := by
  induction op generalizing site s s' with
  | nil => exact ⟨site, s, s', rfl, rfl, h⟩
  | cons c op ih =>
    obtain ⟨t, rfl⟩ := hs
    obtain ⟨t', rfl, ht⟩ := h.cons_mark (hop c List.mem_cons_self)
    obtain ⟨site', r, r', hr, rfl, hrest⟩ :=
      ih (fun d hd => hop d (List.mem_cons_of_mem c hd)) ht (List.prefix_append op t)
    rw [List.append_cancel_left hr]
    exact ⟨site', r, r', rfl, rfl, hrest⟩

theorem Reworded.prefix_iff {op : List Char} (hop : ∀ c ∈ op, mayBeNameChar c = false)
    (h : Reworded ν site s s') : op <+: s ↔ op <+: s' := by
  induction op generalizing site s s' with
  | nil => simp
  | cons c op ih =>
    have hc := hop c List.mem_cons_self
    have hrest : ∀ d ∈ op, mayBeNameChar d = false :=
      fun d hd => hop d (List.mem_cons_of_mem c hd)
    constructor
    · rintro ⟨t, rfl⟩
      obtain ⟨t', rfl, ht⟩ := h.cons_mark hc
      exact List.cons_prefix_cons.mpr ⟨rfl, (ih hrest ht).mp (List.prefix_append op t)⟩
    · rintro ⟨t', rfl⟩
      obtain ⟨t, rfl, ht⟩ := h.cons_mark_right hc
      exact List.cons_prefix_cons.mpr ⟨rfl, (ih hrest ht).mpr (List.prefix_append op t')⟩

/-! ### Strings -/

theorem mark_of_isQuote (hq : isQuote q = true) : mayBeNameChar q = false := by
  rcases eq_of_isQuote hq with rfl | rfl <;> decide

theorem take_two_eq : s.take 2 = [q, q] ↔ [q, q] <+: s := by
  rw [List.prefix_iff_eq_take]
  exact eq_comm

theorem Reworded.take_quotes (hq : isQuote q = true) (h : Reworded ν site s s') :
    s.take 2 = [q, q] ↔ s'.take 2 = [q, q] := by
  rw [take_two_eq, take_two_eq]
  exact h.prefix_iff (by simpa using mark_of_isQuote hq)

theorem Reworded.drop_quotes (hq : isQuote q = true) (h : Reworded ν site s s')
    (hs : s.take 2 = [q, q]) : ∃ site', Reworded ν site' (s.drop 2) (s'.drop 2) := by
  obtain ⟨site', r, r', rfl, rfl, hr⟩ :=
    h.append_marks (by simpa using mark_of_isQuote hq) (take_two_eq.mp hs)
  exact ⟨site', hr⟩

theorem stringBody_word (hquote : isQuote quote = true) (triple : Bool) {done : List Char}
    (hw : ∀ c ∈ w, mayBeNameChar c = true) :
    LexState.stringBody quote triple done (w ++ s) =
      LexState.stringBody quote triple (w.reverse ++ done) s := by
  induction w generalizing done with
  | nil => rfl
  | cons c w ih =>
    have hne {d : Char} (hd : mayBeNameChar d = false) : c ≠ d :=
      Text.ne_of_other (hw c List.mem_cons_self) hd
    rw [List.cons_append, stringBody_cons (hne (by decide)),
      if_neg (hne (mark_of_isQuote hquote)), if_neg (fun h => hne (by decide) h.1),
      ih fun d hd => hw d (List.mem_cons_of_mem c hd)]
    simp

theorem stringBody_escape (hquote : isQuote quote = true) (triple : Bool) {done : List Char}
    (hw : IsRun mayBeNameChar w) :
    LexState.stringBody quote triple done ('\\' :: (w ++ s)) =
      LexState.stringBody quote triple (w.reverse ++ '\\' :: done) s := by
  obtain ⟨c, v, rfl⟩ := List.exists_cons_of_ne_nil hw.ne_nil
  have hv : ∀ d ∈ v, mayBeNameChar d = true := fun d hd => hw.all d (List.mem_cons_of_mem c hd)
  calc LexState.stringBody quote triple done ('\\' :: (c :: v ++ s))
      = LexState.stringBody quote triple (c :: '\\' :: done) (v ++ s) := rfl
    _ = LexState.stringBody quote triple ((c :: v).reverse ++ '\\' :: done) s := by
        rw [stringBody_word hquote triple hv]
        simp

/-- The bodies of two strings and what follows them are worded alike. -/
def BodyAlike (ν : NameLikeness) (site : Site) (s done done' : List Char)
    (r r' : List Char × List Char) : Prop :=
  ∃ x x', r.1 = done.reverse ++ x ∧ r'.1 = done'.reverse ++ x' ∧ x <+: s ∧ Reworded ν site x x' ∧
    Reworded ν .plain r.2 r'.2

theorem follows_start {x : List Char} (hx : x <+: s) : Follows s x := by
  intro c hc
  obtain ⟨t, rfl⟩ := hx
  cases x with
  | nil => cases hc
  | cons d x => exact .inl hc

namespace BodyAlike

variable {done done' w' : List Char} {r r' : List Char × List Char}

theorem mark (hc : mayBeNameChar c = false)
    (h : BodyAlike ν (site.afterMark c) s (c :: done) (c :: done') r r') :
    BodyAlike ν site (c :: s) done done' r r' := by
  obtain ⟨x, x', hbody, hbody', hx, hreworded, hrest⟩ := h
  exact ⟨c :: x, c :: x', by simp [hbody], by simp [hbody'],
    List.cons_prefix_cons.mpr ⟨rfl, hx⟩, .mark hc hreworded, hrest⟩

theorem kept (hw : Kept ν site w s)
    (h : BodyAlike ν (.afterWord w) s (w.reverse ++ done) (w.reverse ++ done') r r') :
    BodyAlike ν site (w ++ s) done done' r r' := by
  obtain ⟨x, x', hbody, hbody', hx, hreworded, hrest⟩ := h
  exact ⟨w ++ x, w ++ x', by simp [hbody], by simp [hbody'],
    (List.prefix_append_right_inj w).mpr hx, .kept (hw.before (follows_start hx)) hreworded, hrest⟩

theorem changed (hw : Changed ν site w w' s)
    (h : BodyAlike ν .plain s (w.reverse ++ done) (w'.reverse ++ done') r r') :
    BodyAlike ν site (w ++ s) done done' r r' := by
  obtain ⟨x, x', hbody, hbody', hx, hreworded, hrest⟩ := h
  exact ⟨w ++ x, w' ++ x', by simp [hbody], by simp [hbody'],
    (List.prefix_append_right_inj w).mpr hx, .changed (hw.before (follows_start hx)) hreworded,
    hrest⟩

end BodyAlike

theorem rel_stringBody (hquote : isQuote quote = true) (triple : Bool) (h : Reworded ν site s s')
    (done done' : List Char) :
    Option.Rel (BodyAlike ν site s done done') (LexState.stringBody quote triple done s)
      (LexState.stringBody quote triple done' s') := by
  suffices hboth : (∀ done done', Option.Rel (BodyAlike ν site s done done')
      (LexState.stringBody quote triple done s) (LexState.stringBody quote triple done' s')) ∧
      (site = .escape → ∀ done done', Option.Rel (BodyAlike ν site s ('\\' :: done) ('\\' :: done'))
        (LexState.stringBody quote triple done ('\\' :: s))
        (LexState.stringBody quote triple done' ('\\' :: s'))) from hboth.1 done done'
  -- the second part is about texts after a backslash, whose first piece is passed over
  induction h with
  | nil => exact ⟨fun _ _ => .none, fun _ _ _ => .none⟩
  | @mark site c s s' hc h ih =>
    refine ⟨fun done done' => ?_, fun _ done done' => ?_⟩
    · by_cases hbackslash : c = '\\'
      · subst hbackslash
        exact rel_imp (ih.2 rfl done done') fun _ _ hr => hr.mark hc
      · rw [stringBody_cons hbackslash, stringBody_cons hbackslash]
        have hgo := rel_imp (ih.1 (c :: done) (c :: done')) fun _ _ hr => hr.mark hc
        have hend {site' : Site} {r r' : List Char} (hr : Reworded ν site' r r') :
            Option.Rel (BodyAlike ν site (c :: s) done done') (some (done.reverse, r))
              (some (done'.reverse, r')) :=
          .some ⟨[], [], by simp, by simp, List.nil_prefix, .nil _, hr.toPlain⟩
        by_cases hc : c = quote
        · rw [if_pos hc, if_pos hc]
          cases triple with
          | false => exact hend h
          | true =>
            -- three quotes close the string, and fewer belong to its body
            simp only [Bool.not_true, Bool.false_eq_true, if_false]
            by_cases htake : s.take 2 = [quote, quote]
            · rw [if_pos htake, if_pos ((h.take_quotes hquote).mp htake)]
              obtain ⟨site', hdrop⟩ := h.drop_quotes hquote htake
              exact hend hdrop
            · rw [if_neg htake, if_neg (mt (h.take_quotes hquote).mpr htake)]
              exact hgo
        · rw [if_neg hc, if_neg hc]
          split
          · exact .none
          · exact hgo
    · exact rel_imp (ih.1 (c :: '\\' :: done) (c :: '\\' :: done')) fun _ _ hr => hr.mark hc
  | @kept site w s s' hw h ih =>
    refine ⟨fun done done' => ?_, fun _ done done' => ?_⟩
    · rw [stringBody_word hquote triple hw.run.all, stringBody_word hquote triple hw.run.all]
      exact rel_imp (ih.1 _ _) fun _ _ hr => hr.kept hw
    · rw [stringBody_escape hquote triple hw.run, stringBody_escape hquote triple hw.run]
      exact rel_imp (ih.1 _ _) fun _ _ hr => hr.kept hw
  | changed hw h ih =>
    refine ⟨fun done done' => ?_, fun _ done done' => ?_⟩
    · rw [stringBody_word hquote triple hw.old.isRun.all,
        stringBody_word hquote triple hw.new.isRun.all]
      exact rel_imp (ih.1 _ _) fun _ _ hr => hr.changed hw
    · rw [stringBody_escape hquote triple hw.old.isRun,
        stringBody_escape hquote triple hw.new.isRun]
      exact rel_imp (ih.1 _ _) fun _ _ hr => hr.changed hw

theorem Reworded.openString (hq : isQuote q = true) (h : Reworded ν site s s') :
    (LexState.openString q s).1 = (LexState.openString q s').1 ∧
      ∃ site', Reworded ν site' (LexState.openString q s).2 (LexState.openString q s').2 := by
  unfold LexState.openString
  by_cases htake : s.take 2 = [q, q]
  · rw [if_pos htake, if_pos ((h.take_quotes hq).mp htake)]
    exact ⟨rfl, h.drop_quotes hq htake⟩
  · rw [if_neg htake, if_neg (mt (h.take_quotes hq).mpr htake)]
    exact ⟨rfl, site, h⟩

/-! ### Comments and blanks -/

theorem Reworded.dropWhile_line (h : Reworded ν site s s') :
    Reworded ν .plain (s.dropWhile (· != '\n')) (s'.dropWhile (· != '\n')) := by
  have hword {w : List Char} (hw : IsRun mayBeNameChar w) (x : List Char) :
      (w ++ x).dropWhile (· != '\n') = x.dropWhile (· != '\n') := by
    refine List.dropWhile_append_of_pos fun c hc => ?_
    rw [bne_iff_ne]
    rintro rfl
    exact absurd (hw.all _ hc) (by decide)
  induction h with
  | nil => exact .nil _
  | @mark site c s s' hc h ih =>
    rw [List.dropWhile_cons, List.dropWhile_cons]
    split
    · exact ih
    · have hall : Reworded ν site (c :: s) (c :: s') := .mark hc h
      exact hall.toPlain
  | kept hw _ ih => rwa [hword hw.run, hword hw.run]
  | changed hw _ ih => rwa [hword hw.old.isRun, hword hw.new.isRun]

theorem rel_joinedLine? (h : Reworded ν site s s') :
    Option.Rel (Reworded ν .plain) (LexState.joinedLine? s) (LexState.joinedLine? s') := by
  have hjoined (t : List Char) :
      LexState.joinedLine? t = if t.head? = some '\n' ∧ t.tail ≠ [] then some t.tail else none := by
    unfold LexState.joinedLine?
    split
    case h_1 c rest => simp
    case h_2 hother =>
      rw [if_neg]
      rintro ⟨hhead, htail⟩
      obtain ⟨t, rfl⟩ := List.head?_eq_some_iff.mp hhead
      obtain ⟨c, t, rfl⟩ := List.exists_cons_of_ne_nil htail
      exact hother c t rfl
  rw [hjoined, hjoined]
  by_cases hline : s.head? = some '\n'
  · obtain ⟨t, rfl⟩ := List.head?_eq_some_iff.mp hline
    obtain ⟨t', rfl, ht⟩ := h.cons_mark (by decide)
    simp only [List.head?_cons, List.tail_cons, true_and, ne_eq, ht.eq_nil_iff]
    split
    · exact .some ht.toPlain
    · exact .none
  · rw [if_neg fun h => hline h.1, if_neg fun h' => hline ((h.head?_eq_iff (by decide)).mpr h'.1)]
    exact .none

theorem measure_word (hw : IsRun mayBeNameChar w) (width : Width) (joined : Nat) (s : List Char) :
    LexState.measure width joined (w ++ s) = some (width, joined, w ++ s) := by
  obtain ⟨c, v, rfl⟩ := List.exists_cons_of_ne_nil hw.ne_nil
  refine measure_cons ?_
  by_contra hc
  simp only [isIndenting, Bool.not_eq_false, Bool.or_eq_true, beq_iff_eq] at hc
  have hchar := hw.all c List.mem_cons_self
  rcases hc with ((rfl | rfl) | rfl) | rfl <;> exact absurd hchar (by decide)

theorem rel_measure (h : Reworded ν site s s') (width : Width) (joined : Nat) :
    Option.Rel (fun r r' => r.1 = r'.1 ∧ r.2.1 = r'.2.1 ∧ Reworded ν .plain r.2.2 r'.2.2)
      (LexState.measure width joined s) (LexState.measure width joined s') := by
  induction hn : s.length using Nat.strongRecOn generalizing site s s' width joined with
  | _ n ih =>
    subst hn
    have hall := h.toPlain
    cases h with
    | nil => exact .some ⟨rfl, rfl, hall⟩
    | kept hw _ =>
      rw [measure_word hw.run, measure_word hw.run]
      exact .some ⟨rfl, rfl, hall⟩
    | changed hw _ =>
      rw [measure_word hw.old.isRun, measure_word hw.new.isRun]
      exact .some ⟨rfl, rfl, hall⟩
    | @mark _ c s s' hc h =>
      by_cases hblank : isIndenting c = false
      · rw [measure_cons hblank, measure_cons hblank]
        exact .some ⟨rfl, rfl, hall⟩
      · simp only [isIndenting, Bool.or_eq_false_iff, beq_eq_false_iff_ne, ne_eq, not_and_or,
          not_not] at hblank
        -- a blank is one step, and a joined line takes more than one character away
        rcases hblank with ((rfl | rfl) | rfl) | rfl
        · exact ih s.length (by simp) h _ _ rfl
        · exact ih s.length (by simp) h _ _ rfl
        · exact ih s.length (by simp) h _ _ rfl
        · rw [measure_backslash, measure_backslash]
          have hjoined := rel_joinedLine? h
          generalize hx : LexState.joinedLine? s = x at hjoined ⊢
          generalize LexState.joinedLine? s' = x' at hjoined ⊢
          cases hjoined with
          | none => exact .none
          | some hr =>
            have hle := (suffix_joinedLine? hx).length_le
            exact ih _ (by simp only [List.length_cons]; omega) hr _ _ rfl

end Restyle.Syntax
