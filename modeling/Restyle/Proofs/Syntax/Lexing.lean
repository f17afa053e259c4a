import Mathlib.Data.List.Find
import Mathlib.Logic.Relation
import Restyle.Proofs.Syntax.Alike
import Restyle.Proofs.Syntax.Scanning

/-!
Reading tokens from two texts that are alike. The two texts are one up to a seam, and so are the
states of the two readers, but for the places of tokens. As long as the readers stay before the
seam, they find the same tokens.
-/

namespace Restyle.Syntax

open Naming (Spelled)
open Text (mayBeNameChar)

variable {mark rest : List Char} {c q : Char}

namespace Cursor

theorem rest_next (c : Cursor) : c.next.rest = c.rest.tail := by
  unfold next
  split
  case h_1 h => rw [h]; rfl
  case h_2 a rest h =>
    rw [h]
    split <;> rfl

theorem rest_skip (c : Cursor) (n : Nat) : (c.skip n).rest = c.rest.drop n := by
  induction n generalizing c with
  | zero => rfl
  | succ n ih => rw [skip, ih, rest_next, List.drop_tail]

theorem rest_skipTo {c : Cursor} (h : rest <:+ c.rest) : (c.skipTo rest).rest = rest := by
  obtain ⟨p, hp⟩ := h
  rw [skipTo, rest_skip, ← hp, List.length_append, Nat.add_sub_cancel, List.drop_left]

end Cursor

namespace LexState

theorem literalLike_literal (mark body : List Char) (c c' : Cursor) :
    LiteralLike .same (literal mark body c) (literal mark body c') :=
  ⟨rfl, rfl, rfl, .plain, .same .plain body⟩

theorem stringToken_cases {s t : LexState} {inner : List Char}
    (hinner : (s.cursor.rest.drop mark.length).drop 1 = inner) (h : s.stringToken mark q = some t) :
    ∃ body rest start, stringBody q (openString q inner).1 [] (openString q inner).2 =
        some (body, rest) ∧ t = s.push (.string (literal mark body start)) rest ∧
      t.cursor.rest = rest ∧ rest <:+ inner.tail := by
  subst hinner
  obtain ⟨⟨body, rest⟩, hbody, rfl⟩ := Option.map_eq_some_iff.mp h
  have hsuffix := (suffix_stringBody hbody).trans (suffix_openString q _)
  have hall := (List.tail_suffix _).trans ((List.drop_suffix 1 _).trans
    (List.drop_suffix mark.length s.cursor.rest))
  exact ⟨body, rest, _, hbody, rfl, Cursor.rest_skipTo (hsuffix.trans hall), hsuffix⟩

/-! ### What a step leaves -/

section Left

variable {s t : LexState}

theorem suffix_stringToken (h : s.stringToken mark q = some t) :
    t.cursor.rest <:+ s.cursor.rest.tail := by
  obtain ⟨body, rest, start, -, -, hleft, hsuffix⟩ := stringToken_cases rfl h
  rw [hleft]
  refine hsuffix.trans ((List.tail_suffix _).trans ?_)
  rw [List.drop_one, List.tail_drop, ← List.drop_tail]
  exact List.drop_suffix _ _

theorem suffix_push (k : TokenKind) (h : rest <:+ s.cursor.rest.tail) :
    (s.push k rest).cursor.rest <:+ s.cursor.rest.tail := by
  have hrest : (s.push k rest).cursor.rest = rest :=
    Cursor.rest_skipTo (h.trans (List.tail_suffix _))
  rwa [hrest]

theorem suffix_wordToken (hrest : s.cursor.rest = c :: rest) (hc : mayBeNameChar c = true)
    (h : s.wordToken = some t) : t.cursor.rest <:+ s.cursor.rest.tail := by
  have hplain (h : wordToken.plain s (s.cursor.rest.takeWhile mayBeNameChar)
      (s.cursor.rest.drop (s.cursor.rest.takeWhile mayBeNameChar).length) = some t) :
      t.cursor.rest <:+ s.cursor.rest.tail := by
    have hsuffix : s.cursor.rest.drop (s.cursor.rest.takeWhile mayBeNameChar).length <:+
        s.cursor.rest.tail := by
      rw [hrest, List.takeWhile_cons, if_pos hc]
      exact List.drop_suffix _ rest
    unfold wordToken.plain at h
    split at h
    · cases h
      exact suffix_push _ hsuffix
    · rw [Option.ite_none_right_eq_some] at h
      cases h.2
      exact suffix_push _ hsuffix
  unfold wordToken at h
  dsimp only at h
  split at h
  · split at h
    · exact suffix_stringToken h
    · exact hplain h
  · exact hplain h

theorem suffix_operatorToken (h : s.operatorToken = some t) :
    t.cursor.rest <:+ s.cursor.rest.tail := by
  have hnonempty : ∀ op ∈ operators, op ≠ [] := by decide
  unfold operatorToken at h
  split at h
  case h_1 => cases h
  case h_2 op hop =>
    obtain ⟨brackets, -, rfl⟩ := Option.map_eq_some_iff.mp h
    obtain ⟨c, op, rfl⟩ := List.exists_cons_of_ne_nil (hnonempty op (List.mem_of_find?_eq_some hop))
    have hsuffix : s.cursor.rest.drop (c :: op).length <:+ s.cursor.rest.tail := by
      rw [List.length_cons, ← List.drop_tail]
      exact List.drop_suffix _ _
    exact suffix_push (.op (String.ofList (c :: op))) hsuffix

theorem rest_endLine (s : LexState) : s.endLine.cursor.rest = s.cursor.rest.tail := by
  unfold endLine
  split <;> exact Cursor.rest_next s.cursor

/-- A step in a line takes a character, unless there is none. -/
theorem suffix_inLine (h : s.inLine = some t) : t.cursor.rest <:+ s.cursor.rest.tail := by
  unfold inLine at h
  split at h
  case h_1 hrest =>
    cases h
    rw [hrest]
    exact List.suffix_rfl
  case h_2 c rest hrest =>
    have hmove {r : List Char} (hr : r <:+ rest) :
        (s.cursor.skipTo r).rest <:+ s.cursor.rest.tail := by
      have hsuffix : r <:+ s.cursor.rest := by
        rw [hrest]
        exact hr.trans (List.suffix_cons c rest)
      rwa [Cursor.rest_skipTo hsuffix, hrest]
    split at h
    · cases h
      simp only [Cursor.rest_next, List.suffix_rfl]
    split at h
    · cases h
      exact hmove (List.dropWhile_suffix _)
    split at h
    · cases h
      simp only [rest_endLine, List.suffix_rfl]
    split at h
    · obtain ⟨joined, hjoined, rfl⟩ := Option.map_eq_some_iff.mp h
      exact hmove (suffix_joinedLine? hjoined)
    split at h
    · exact suffix_stringToken h
    split at h
    · obtain ⟨⟨kind, after⟩, hnumber, rfl⟩ := Option.map_eq_some_iff.mp h
      exact suffix_push _ (suffix_number? hnumber)
    split at h
    · obtain ⟨⟨kind, after⟩, hnumber, rfl⟩ := Option.map_eq_some_iff.mp h
      refine suffix_push _ ?_
      rw [hrest]
      exact suffix_fractionEnd hnumber
    split at h
    case isTrue hname => exact suffix_wordToken hrest hname h
    case isFalse => exact suffix_operatorToken h

theorem measure_of_startLine (h : s.startLine = some t) :
    (∃ width joined, measure ⟨0, 0⟩ 0 s.cursor.rest = some (width, joined, t.cursor.rest)) ∧
      t.atLineStart = false := by
  unfold startLine at h
  split at h
  case h_1 => cases h
  case h_2 width joined rest hmeasure =>
    have hrest : (s.cursor.skipTo rest).rest = rest := Cursor.rest_skipTo (suffix_measure hmeasure)
    dsimp only at h
    split at h
    · cases h
      exact ⟨⟨width, joined, by rw [hmeasure, hrest]⟩, rfl⟩
    · split at h
      · cases h
      · cases h
        exact ⟨⟨width, joined, by rw [hmeasure, hrest]⟩, rfl⟩

theorem suffix_startLine (h : s.startLine = some t) : t.cursor.rest <:+ s.cursor.rest := by
  obtain ⟨⟨width, joined, hmeasure⟩, -⟩ := measure_of_startLine h
  exact suffix_measure hmeasure

theorem suffix_step (h : s.step = some t) : t.cursor.rest <:+ s.cursor.rest := by
  unfold step at h
  split at h
  · exact suffix_startLine h
  · exact (suffix_inLine h).trans (List.tail_suffix _)

/-- What is left to do. A step does some of it, until there is nothing left. -/
def left (s : LexState) : Nat := 2 * s.cursor.rest.length + if s.atLineStart then 1 else 0

theorem left_step (h : s.step = some t) (hleft : 0 < s.left) : t.left < s.left := by
  unfold left at hleft ⊢
  unfold step at h
  by_cases hstart : s.atLineStart = true
  · rw [if_pos hstart] at h
    have hle := (suffix_startLine h).length_le
    rw [if_pos hstart, (measure_of_startLine h).2, if_neg nofun]
    omega
  · rw [if_neg hstart] at h
    have hle := (suffix_inLine h).length_le
    rw [if_neg hstart] at hleft ⊢
    rw [List.length_tail] at hle
    split <;> omega

theorem left_eq_zero : s.left = 0 ↔ s.cursor.rest = [] ∧ s.atLineStart = false := by
  unfold left
  rw [← List.length_eq_zero_iff]
  cases s.atLineStart with
  | false =>
    simp only [Bool.false_eq_true, if_false, and_true]
    omega
  | true => simp

/-- A state that is passed on the way from another one. -/
def Reaches (s t : LexState) : Prop := Relation.ReflTransGen (fun a b => a.step = some b) s t

theorem suffix_of_reaches (h : Reaches s t) : t.cursor.rest <:+ s.cursor.rest := by
  induction h with
  | refl => exact List.suffix_rfl
  | tail _ hstep ih => exact (suffix_step hstep).trans ih

theorem eq_of_reaches (h : Reaches s t) (hleft : s.left = 0) : t = s := by
  induction h with
  | refl => rfl
  | tail _ hstep ih =>
    subst ih
    obtain ⟨hrest, hstart⟩ := left_eq_zero.mp hleft
    unfold step inLine at hstep
    rw [hstart, if_neg nofun, hrest] at hstep
    cases hstep
    rfl

/-- A reader with enough fuel comes to the end of the text, if the steps lead there. -/
theorem run_eq_some_iff {fuel : Nat} (hfuel : s.left < fuel) :
    s.run fuel = some t ↔ Reaches s t ∧ t.left = 0 := by
  induction fuel generalizing s with
  | zero => omega
  | succ fuel ih =>
    unfold run
    by_cases hend : s.left = 0
    · obtain ⟨hrest, hstart⟩ := left_eq_zero.mp hend
      rw [if_pos (by simp [hrest, hstart])]
      constructor
      · intro h
        cases h
        exact ⟨.refl, hend⟩
      · rintro ⟨h, -⟩
        rw [eq_of_reaches h hend]
    · rw [if_neg (by
        intro h
        exact hend (left_eq_zero.mpr ⟨by simpa using h.1, by simpa using h.2⟩))]
      cases hstep : s.step with
      | none =>
        refine iff_of_false nofun ?_
        rintro ⟨h, ht⟩
        rcases Relation.ReflTransGen.cases_head h with rfl | ⟨m, hm, -⟩
        · exact hend ht
        · rw [hstep] at hm
          cases hm
      | some m =>
        -- a step leaves less to read, so the fuel that is left is enough
        have hless := left_step hstep (Nat.pos_of_ne_zero hend)
        rw [ih (by omega)]
        constructor
        · rintro ⟨h, ht⟩
          exact ⟨.head hstep h, ht⟩
        · rintro ⟨h, ht⟩
          rcases Relation.ReflTransGen.cases_head h with rfl | ⟨m', hm, h⟩
          · exact absurd ht hend
          · rw [hstep] at hm
            cases hm
            exact ⟨h, ht⟩

end Left

end LexState

/-- The tokens of two readers at the start of a line. -/
theorem forall₂_layout [Dialect] {ν : NameLikeness} {F : Places} (closed : Nat) (opened : Bool)
    (c c' : Cursor) {done done' : List Token} (h : List.Forall₂ (TokenLike ν F) done done') :
    List.Forall₂ (TokenLike ν F)
      (List.replicate closed (LexState.layoutToken .dedent c) ++
        (if opened then [LexState.layoutToken .indent c] else []) ++ done)
      (List.replicate closed (LexState.layoutToken .dedent c') ++
        (if opened then [LexState.layoutToken .indent c'] else []) ++ done') := by
  refine List.rel_append (List.rel_append ?_ ?_) h
  · induction closed with
    | zero => exact .nil
    | succ n ih => exact .cons .dedent ih
  · cases opened with
    | false => exact .nil
    | true => exact .cons .indent .nil

/-- States of two readers with the same text up to a seam. At the start of a line it does not matter
whether the line before was blank. -/
structure Near [Dialect] (F : Places) (A B x : List Char) (s s' : LexState) : Prop where
  rest : s.cursor.rest = x ++ A
  rest' : s'.cursor.rest = x ++ B
  indents : s.indents = s'.indents
  brackets : s.brackets = s'.brackets
  atLineStart : s.atLineStart = s'.atLineStart
  isBlankLine : s.atLineStart = false → s.isBlankLine = s'.isBlankLine
  done : List.Forall₂ (TokenLike .same F) s.done s'.done

namespace Near

open LexState

variable [Dialect] {F : Places} {A B x : List Char} {s s' : LexState}
variable {y : List Char} {t : LexState}

theorem suffix (h : Near F A B x s s') (hy : y <:+ x) :
    y ++ A <:+ s.cursor.rest ∧ y ++ B <:+ s'.cursor.rest := by
  obtain ⟨p, rfl⟩ := hy
  rw [h.rest, h.rest', List.append_assoc, List.append_assoc]
  exact ⟨List.suffix_append p _, List.suffix_append p _⟩

theorem push (h : Near F A B x s s') {k k' : TokenKind}
    (hk : KindLike .same (F s.cursor.line s.cursor.column) k k') (hy : y <:+ x) :
    Near F A B y (s.push k (y ++ A)) (s'.push k' (y ++ B)) where
  rest := Cursor.rest_skipTo (h.suffix hy).1
  rest' := Cursor.rest_skipTo (h.suffix hy).2
  indents := h.indents
  brackets := h.brackets
  atLineStart := h.atLineStart
  isBlankLine := h.isBlankLine
  done := .cons hk h.done

/-- Both readers find a token that ends behind the seam, where the texts are one again. -/
theorem pushPast (h : Near F A B x s s') {k k' : TokenKind} (hy : y <:+ s.cursor.rest)
    (hy' : y <:+ s'.cursor.rest) (hk : KindLike .same (F s.cursor.line s.cursor.column) k k') :
    Near F [] [] y (s.push k y) (s'.push k' y) where
  rest := (Cursor.rest_skipTo hy).trans (List.append_nil y).symm
  rest' := (Cursor.rest_skipTo hy').trans (List.append_nil y).symm
  indents := h.indents
  brackets := h.brackets
  atLineStart := h.atLineStart
  isBlankLine := h.isBlankLine
  done := .cons hk h.done

theorem startLine (hseam : Seam A B) (h : Near F A B x s s') (ht : s.startLine = some t)
    (hleft : t.cursor.rest = y ++ A) : ∃ t', s'.startLine = some t' ∧ Near F A B y t t' := by
  obtain ⟨⟨width, joined, hmeasure⟩, -⟩ := measure_of_startLine ht
  rw [hleft, h.rest] at hmeasure
  have hy : y <:+ x := List.suffix_append_self_iff.mp (suffix_measure hmeasure)
  have hmeasure' := measure_seam hseam hmeasure
  unfold LexState.startLine at ht ⊢
  rw [h.rest, hmeasure] at ht
  rw [h.rest', hmeasure']
  dsimp only at ht ⊢
  rw [← hseam.head?_append y, ← h.brackets, ← h.indents]
  have hrest := Cursor.rest_skipTo (h.suffix hy).1
  have hrest' := Cursor.rest_skipTo (h.suffix hy).2
  by_cases hblank : ((y ++ A).head? = some '#' ∨ (y ++ A).head? = some '\n') ∨
      (!s.brackets.isEmpty) = true
  · rw [if_pos hblank] at ht ⊢
    cases ht
    exact ⟨_, rfl, hrest, hrest', rfl, rfl, rfl, fun _ => rfl, h.done⟩
  · rw [if_neg hblank] at ht ⊢
    split at ht
    case h_1 => cases ht
    case h_2 closed opened indents hindents =>
      cases ht
      exact ⟨_, rfl, hrest, hrest', rfl, rfl, rfl, fun _ => rfl,
        forall₂_layout closed opened _ _ h.done⟩

theorem stringToken (hseam : Seam A B) {z : List Char} (hq : isQuote q = true)
    (h : Near F A B (mark ++ q :: z) s s') (ht : s.stringToken mark q = some t)
    (hrest : t.cursor.rest = y ++ A) :
    ∃ t', s'.stringToken mark q = some t' ∧ Near F A B y t t' := by
  have hinner : (s.cursor.rest.drop mark.length).drop 1 = z ++ A := by
    rw [h.rest, List.append_assoc, List.drop_left]
    rfl
  have hinner' : (s'.cursor.rest.drop mark.length).drop 1 = z ++ B := by
    rw [h.rest', List.append_assoc, List.drop_left]
    rfl
  obtain ⟨body, rest, start, hbody, rfl, hleft, hsuffix⟩ := stringToken_cases hinner ht
  rw [hrest] at hleft
  subst hleft
  have hyz : y <:+ z := List.suffix_append_self_iff.mp (hsuffix.trans (List.tail_suffix _))
  have hy : y <:+ mark ++ q :: z :=
    hyz.trans ((List.suffix_cons q z).trans (List.suffix_append mark _))
  have hnew : q ≠ '\n' := by
    rintro rfl
    cases hq
  have hbody' := openString_seam hseam hnew hbody
  refine ⟨_, ?_, h.push (.string (literalLike_literal mark body _
    (s'.cursor.skipTo (openString q (z ++ B)).2))) hy⟩
  rw [LexState.stringToken, hinner', hbody', Option.map_some]

theorem plainWord (h : Near F A B x s s') {word z : List Char} (hz : z <:+ x)
    (hword : Text.NameChars word) (ht : wordToken.plain s word (z ++ A) = some t) :
    ∃ t', wordToken.plain s' word (z ++ B) = some t' ∧ Near F A B z t t' := by
  unfold wordToken.plain at ht ⊢
  by_cases hkeyword : Text.isKeyword (String.ofList word) = true
  · rw [if_pos hkeyword] at ht ⊢
    cases ht
    exact ⟨_, rfl, h.push (.keyword _) hz⟩
  · rw [if_neg hkeyword] at ht ⊢
    rw [Option.ite_none_right_eq_some] at ht
    obtain ⟨hidentifier, ht⟩ := ht
    cases ht
    rw [if_pos hidentifier]
    have hspelled : Spelled (Parser.identifier (String.ofList word)) := by
      have hne : word ≠ [] := by
        rintro rfl
        cases hidentifier
      rw [Parser.identifier, String.toList_ofList]
      refine ⟨?_, mt String.ofList_eq_empty_iff.mp (Text.normalize_ne_nil hne)⟩
      rw [String.toList_ofList]
      exact Text.nameChars_normalize hword
    exact ⟨_, rfl, h.push (.name ⟨rfl, hspelled⟩ fun _ _ => Iff.rfl) hz⟩

theorem wordToken (hseam : Seam A B) (h : Near F A B x s s') (ht : s.wordToken = some t)
    (hrest : t.cursor.rest = y ++ A) : ∃ t', s'.wordToken = some t' ∧ Near F A B y t t' := by
  have hname : Unbound mayBeNameChar := ⟨by decide, by decide, by decide⟩
  have hword : Text.NameChars (x.takeWhile mayBeNameChar) := List.all_eq_true.mp List.all_takeWhile
  have hx : x.takeWhile mayBeNameChar ++ x.dropWhile mayBeNameChar = x :=
    List.takeWhile_append_dropWhile
  have htake : s.cursor.rest.takeWhile mayBeNameChar = x.takeWhile mayBeNameChar := by
    rw [h.rest, takeWhile_append_ends hseam.ends hname]
  have htake' : s'.cursor.rest.takeWhile mayBeNameChar = x.takeWhile mayBeNameChar := by
    rw [h.rest', takeWhile_append_ends hseam.symm.ends hname]
  unfold LexState.wordToken at ht ⊢
  dsimp only at ht ⊢
  rw [htake] at ht
  rw [htake']
  generalize x.takeWhile mayBeNameChar = word at hword hx ht ⊢
  generalize x.dropWhile mayBeNameChar = z at hx
  subst hx
  have hdrop : s.cursor.rest.drop word.length = z ++ A := by
    rw [h.rest, List.append_assoc, List.drop_left]
  have hdrop' : s'.cursor.rest.drop word.length = z ++ B := by
    rw [h.rest', List.append_assoc, List.drop_left]
  rw [hdrop] at ht
  rw [hdrop', ← hseam.head?_append z]
  have hplain {t : LexState} (ht : wordToken.plain s word (z ++ A) = some t)
      (hrest : t.cursor.rest = y ++ A) :
      ∃ t', wordToken.plain s' word (z ++ B) = some t' ∧ Near F A B y t t' := by
    obtain ⟨t', ht', hnear⟩ := h.plainWord (List.suffix_append word z) hword ht
    rw [hnear.rest] at hrest
    rw [← List.append_cancel_right hrest]
    exact ⟨t', ht', hnear⟩
  cases hquote : (z ++ A).head?.filter isQuote with
  | none =>
    rw [hquote] at ht
    exact hplain ht hrest
  | some q =>
    rw [hquote] at ht
    dsimp only at ht ⊢
    by_cases hmark : stringMarks.contains (String.ofList (word.map Char.toLower)) = true
    · rw [if_pos hmark] at ht ⊢
      obtain ⟨hhead, hq⟩ := Option.filter_eq_some_iff.mp hquote
      cases z with
      | nil =>
        -- the string would stand after the seam
        have hinner : (s.cursor.rest.drop word.length).drop 1 = A.tail := by
          rw [hdrop, List.nil_append, List.drop_one]
        obtain ⟨body, rest, start, -, -, hleft, hsuffix⟩ := stringToken_cases hinner ht
        have hshort := hsuffix.length_le
        rw [← hleft, hrest] at hshort
        cases A with
        | nil => cases hhead
        | cons c A =>
          simp only [List.tail_cons, List.length_append, List.length_cons,
            List.length_tail] at hshort
          omega
      | cons c z =>
        cases hhead
        exact h.stringToken hseam hq ht hrest
    · rw [if_neg hmark] at ht ⊢
      exact hplain ht hrest

theorem withBrackets (h : Near F A B x s s') (brackets : List Char) :
    Near F A B x { s with brackets } { s' with brackets } :=
  ⟨h.rest, h.rest', h.indents, rfl, h.atLineStart, h.isBlankLine, h.done⟩

theorem operatorToken (hseam : Seam A B) (h : Near F A B x s s') (ht : s.operatorToken = some t) :
    ∃ y t', s'.operatorToken = some t' ∧ Near F A B y t t' := by
  have hplain : ∀ op ∈ operators, op.any isBound = false := by decide
  have hfind {A : List Char} (hA : Ends A) : operators.find? (·.isPrefixOf (x ++ A)) =
      operators.find? (·.isPrefixOf x) :=
    List.find?_congr fun op hop => isPrefixOf_append_ends hA (hplain op hop) x
  unfold LexState.operatorToken at ht ⊢
  rw [h.rest, hfind hseam.ends] at ht
  rw [h.rest', hfind hseam.symm.ends]
  cases hop : operators.find? (·.isPrefixOf x) with
  | none =>
    rw [hop] at ht
    cases ht
  | some op =>
    rw [hop] at ht
    have hstarts : op.isPrefixOf x = true := by simpa using List.find?_some hop
    obtain ⟨z, rfl⟩ := List.isPrefixOf_iff_prefix.mp hstarts
    have hdrop (A : List Char) : (op ++ z ++ A).drop op.length = z ++ A := by
      rw [List.append_assoc, List.drop_left]
    obtain ⟨brackets, hbrackets, rfl⟩ := Option.map_eq_some_iff.mp ht
    dsimp only
    rw [← h.brackets, hbrackets, hdrop, hdrop]
    exact ⟨z, _, rfl, (h.push (.op (String.ofList op)) (List.suffix_append op z)).withBrackets _⟩

theorem moveTo (h : Near F A B x s s') (hy : y <:+ x) :
    Near F A B y { s with cursor := s.cursor.skipTo (y ++ A) }
      { s' with cursor := s'.cursor.skipTo (y ++ B) } :=
  ⟨Cursor.rest_skipTo (h.suffix hy).1, Cursor.rest_skipTo (h.suffix hy).2, h.indents, h.brackets,
    h.atLineStart, h.isBlankLine, h.done⟩

theorem next (h : Near F A B (c :: x) s s') :
    Near F A B x { s with cursor := s.cursor.next } { s' with cursor := s'.cursor.next } :=
  ⟨by rw [Cursor.rest_next, h.rest]; rfl, by rw [Cursor.rest_next, h.rest']; rfl, h.indents,
    h.brackets, h.atLineStart, h.isBlankLine, h.done⟩

theorem endLine (h : Near F A B (c :: x) s s') (hstart : s.atLineStart = false) :
    Near F A B x s.endLine s'.endLine := by
  unfold LexState.endLine
  rw [← h.isBlankLine hstart, ← h.brackets]
  split
  · exact ⟨h.next.rest, h.next.rest', h.indents, rfl, rfl, fun _ => rfl, h.done⟩
  · exact ⟨h.next.rest, h.next.rest', h.indents, rfl, rfl, fun _ => rfl, .cons .newline h.done⟩

theorem number (h : Near F A B x s s') (kind : NumberKind) (hy : y <:+ x) :
    Near F A B y (s.push (inLine.numberKind s kind (y ++ A)) (y ++ A))
      (s'.push (inLine.numberKind s' kind (y ++ B)) (y ++ B)) := by
  have htext : inLine.numberKind s kind (y ++ A) = inLine.numberKind s' kind (y ++ B) := by
    rw [inLine.numberKind, inLine.numberKind, h.rest, h.rest', take_append_sub, take_append_sub]
  rw [htext]
  exact h.push (.number _ _) hy

/-- What a scanner of numbers finds before the seam, both readers find. -/
theorem scanned {scan : List Char → Option (NumberKind × List Char)} {z : List Char}
    (hseam : Seam A B) (h : Near F A B x s s')
    (happend : ∀ {C}, Ends C → scan (z ++ C) = (scan z).map fun r => (r.1, r.2 ++ C))
    (hsuffix : ∀ {kind rest}, scan z = some (kind, rest) → rest <:+ x)
    (ht : (scan (z ++ A)).map (fun r => s.push (inLine.numberKind s r.1 r.2) r.2) = some t) :
    ∃ y t', (scan (z ++ B)).map (fun r => s'.push (inLine.numberKind s' r.1 r.2) r.2) = some t' ∧
      Near F A B y t t' := by
  rw [happend hseam.ends, Option.map_map] at ht
  rw [happend hseam.symm.ends, Option.map_map]
  obtain ⟨⟨kind, rest⟩, hscan, rfl⟩ := Option.map_eq_some_iff.mp ht
  rw [hscan]
  exact ⟨rest, _, rfl, h.number kind (hsuffix hscan)⟩

theorem comment (hseam : Seam A B) (h : Near F A B (c :: x) s s')
    (hrest : (s.cursor.skipTo ((x ++ A).dropWhile (· != '\n'))).rest = y ++ A) :
    Near F A B y { s with cursor := s.cursor.skipTo ((x ++ A).dropWhile (· != '\n')) }
      { s' with cursor := s'.cursor.skipTo ((x ++ B).dropWhile (· != '\n')) } := by
  have hsuffix : (x ++ A).dropWhile (· != '\n') <:+ s.cursor.rest := by
    rw [h.rest]
    exact (List.dropWhile_suffix _).trans (List.suffix_cons c _)
  have hleft := (Cursor.rest_skipTo hsuffix).symm.trans hrest
  rw [dropWhile_seam hseam hleft, hleft]
  rw [hleft, h.rest] at hsuffix
  exact h.moveTo (List.suffix_append_self_iff.mp hsuffix)

theorem joinedLine (hseam : Seam A B) (h : Near F A B (c :: x) s s')
    (ht : ((joinedLine? (x ++ A)).map fun rest => { s with cursor := s.cursor.skipTo rest }) =
      some t) (hrest : t.cursor.rest = y ++ A) :
    ∃ t', ((joinedLine? (x ++ B)).map fun rest => { s' with cursor := s'.cursor.skipTo rest }) =
      some t' ∧ Near F A B y t t' := by
  obtain ⟨rest, hjoined, rfl⟩ := Option.map_eq_some_iff.mp ht
  have hsuffix : rest <:+ s.cursor.rest := by
    rw [h.rest]
    exact (suffix_joinedLine? hjoined).trans (List.suffix_cons c _)
  obtain rfl := (Cursor.rest_skipTo hsuffix).symm.trans hrest
  rw [(joinedLine?_seam hseam hjoined).2]
  rw [h.rest] at hsuffix
  exact ⟨_, rfl, h.moveTo (List.suffix_append_self_iff.mp hsuffix)⟩

/-- At the seam a reader can only stand still: the string or the line would end after the seam. -/
theorem inLine_seam (hseam : Seam A B) (h : Near F A B [] s s') (ht : s.inLine = some t)
    (hrest : t.cursor.rest = y ++ A) : ∃ t', s'.inLine = some t' ∧ Near F A B y t t' := by
  unfold LexState.inLine at ht ⊢
  rw [h.rest] at ht
  rw [h.rest']
  cases hseam with
  | nil =>
    cases ht
    rw [h.rest] at hrest
    rw [← List.append_cancel_right hrest]
    exact ⟨s', rfl, h⟩
  | @quotes q hq A B =>
    have hstring : s.stringToken [] q = some t := by
      rcases eq_of_isQuote hq with rfl | rfl <;> exact ht
    have hinner : (s.cursor.rest.drop ([] : List Char).length).drop 1 = q :: q :: A := by
      rw [h.rest]
      rfl
    obtain ⟨body, rest, start, -, -, hleft, hsuffix⟩ := stringToken_cases hinner hstring
    have hshort := hsuffix.length_le
    rw [← hleft, hrest] at hshort
    simp only [List.tail_cons, List.length_append, List.length_cons] at hshort
    omega
  | line A B =>
    have hend : s.endLine = t := Option.some.inj ht
    have hshort := congrArg List.length hrest
    rw [← hend, rest_endLine, h.rest] at hshort
    simp only [List.nil_append, List.tail_cons, List.length_append, List.length_cons] at hshort
    omega

theorem inLine (hseam : Seam A B) (h : Near F A B x s s') (hstart : s.atLineStart = false)
    (ht : s.inLine = some t) (hrest : t.cursor.rest = y ++ A) :
    ∃ t', s'.inLine = some t' ∧ Near F A B y t t' := by
  -- a state that is near this one is so with this rest
  have hclose {z : List Char} {t' : LexState} (hnear : Near F A B z t t') : Near F A B y t t' := by
    rw [hnear.rest] at hrest
    rw [← List.append_cancel_right hrest]
    exact hnear
  cases x with
  | nil => exact h.inLine_seam hseam ht hrest
  | cons c x =>
    unfold LexState.inLine at ht ⊢
    rw [h.rest] at ht
    rw [h.rest']
    dsimp only [List.cons_append] at ht ⊢
    by_cases hblank : c = ' ' ∨ c = '\t' ∨ c = '\x0c'
    · rw [if_pos hblank] at ht ⊢
      cases ht
      exact ⟨_, rfl, hclose h.next⟩
    rw [if_neg hblank] at ht ⊢
    by_cases hcomment : c = '#'
    · rw [if_pos hcomment] at ht ⊢
      cases ht
      exact ⟨_, rfl, h.comment hseam hrest⟩
    rw [if_neg hcomment] at ht ⊢
    by_cases hline : c = '\n'
    · rw [if_pos hline] at ht ⊢
      cases ht
      exact ⟨_, rfl, hclose (h.endLine hstart)⟩
    rw [if_neg hline] at ht ⊢
    by_cases hbackslash : c = '\\'
    · rw [if_pos hbackslash] at ht ⊢
      exact h.joinedLine hseam ht hrest
    rw [if_neg hbackslash] at ht ⊢
    by_cases hquote : isQuote c = true
    · rw [if_pos hquote] at ht ⊢
      have hstring : Near F A B ([] ++ c :: x) s s' := h
      exact hstring.stringToken hseam hquote ht hrest
    rw [if_neg hquote] at ht ⊢
    by_cases hdigit : c.isDigit = true
    · rw [if_pos hdigit] at ht ⊢
      obtain ⟨z, t', ht', hnear⟩ := h.scanned hseam (fun hC => number?_append hC (c :: x))
        (fun hscan => (suffix_number? hscan).trans (List.tail_suffix _)) ht
      exact ⟨t', ht', hclose hnear⟩
    rw [if_neg hdigit] at ht ⊢
    rw [← hseam.head?_append x]
    by_cases hpoint : c = '.' ∧ ((x ++ A).head?.map Char.isDigit).getD false = true
    · rw [if_pos hpoint] at ht ⊢
      obtain ⟨z, t', ht', hnear⟩ := h.scanned hseam (fun hC => fractionEnd_append hC x)
        (fun hscan => (suffix_fractionEnd hscan).trans (List.suffix_cons c x)) ht
      exact ⟨t', ht', hclose hnear⟩
    rw [if_neg hpoint] at ht ⊢
    by_cases hname : mayBeNameChar c = true
    · rw [if_pos hname] at ht ⊢
      exact h.wordToken hseam ht hrest
    rw [if_neg hname] at ht ⊢
    obtain ⟨z, t', ht', hnear⟩ := h.operatorToken hseam ht
    exact ⟨t', ht', hclose hnear⟩

/-- A step of one reader that does not pass the seam is a step of the other one. -/
theorem step (hseam : Seam A B) (h : Near F A B x s s') (ht : s.step = some t)
    (hrest : t.cursor.rest = y ++ A) : ∃ t', s'.step = some t' ∧ Near F A B y t t' := by
  unfold LexState.step at ht ⊢
  by_cases hstart : s.atLineStart = true
  · rw [if_pos hstart] at ht
    rw [if_pos (h.atLineStart ▸ hstart)]
    exact h.startLine hseam ht hrest
  · rw [if_neg hstart] at ht
    rw [if_neg (h.atLineStart ▸ hstart)]
    exact h.inLine hseam (by simpa using hstart) ht hrest

theorem reaches (hseam : Seam A B) (h : Near F A B x s s') (ht : Reaches s t)
    (hrest : t.cursor.rest = y ++ A) : ∃ t', Reaches s' t' ∧ Near F A B y t t' := by
  induction ht using Relation.ReflTransGen.head_induction_on generalizing x s' with
  | refl =>
    rw [h.rest] at hrest
    rw [← List.append_cancel_right hrest]
    exact ⟨s', .refl, h⟩
  | @head s m hstep hm ih =>
    -- the state between is before the seam as well
    obtain ⟨z, hz⟩ : A <:+ m.cursor.rest :=
      (hrest ▸ List.suffix_append y A).trans (suffix_of_reaches hm)
    obtain ⟨m', hm', hnear⟩ := h.step hseam hstep hz.symm
    obtain ⟨t', ht', hnear⟩ := ih hnear
    exact ⟨t', .head hm' ht', hnear⟩

end Near

theorem tokensAt_eq_some_iff {line column : Nat} {text : List Char} {toks : List Token} :
    tokensAt line column text = some toks ↔
      ∃ t, LexState.Reaches (.start line column text) t ∧ t.left = 0 ∧ t.brackets = [] ∧
        t.done.reverse = toks := by
  have hrun {t : LexState} : (LexState.start line column text).run (2 * text.length + 4) = some t ↔
      LexState.Reaches (.start line column text) t ∧ t.left = 0 :=
    LexState.run_eq_some_iff (by simp [LexState.start, LexState.left])
  unfold tokensAt
  cases h : (LexState.start line column text).run (2 * text.length + 4) with
  | none =>
    refine iff_of_false nofun ?_
    rintro ⟨t, hreach, hleft, -⟩
    rw [hrun.mpr ⟨hreach, hleft⟩] at h
    cases h
  | some t =>
    obtain ⟨hreach, hleft⟩ := hrun.mp h
    dsimp only
    rw [Option.ite_none_right_eq_some, List.isEmpty_iff, Option.some.injEq]
    constructor
    · rintro ⟨hbrackets, htoks⟩
      exact ⟨t, hreach, hleft, hbrackets, htoks⟩
    · rintro ⟨t', hreach', hleft', hbrackets, htoks⟩
      rw [hrun.mpr ⟨hreach', hleft'⟩] at h
      cases h
      exact ⟨hbrackets, htoks⟩

theorem near_start [Dialect] (F : Places) (line column line' column' : Nat) (A B x : List Char) :
    Near F A B x (.start line column (x ++ A)) (.start line' column' (x ++ B)) :=
  ⟨rfl, rfl, rfl, rfl, rfl, fun _ => rfl, .nil⟩

/-- Readers that have come to the end of the text in near states have found alike tokens. -/
theorem Near.tokens [Dialect] {F : Places} {line column : Nat} {text x : List Char}
    {t t' : LexState} (h : Near F [] [] x t t')
    (ht' : LexState.Reaches (.start line column text) t') (hleft : t.left = 0)
    (hbrackets : t.brackets = []) :
    tokensAt line column text = some t'.done.reverse ∧
      List.Forall₂ (TokenLike .same F) t.done.reverse t'.done.reverse := by
  obtain ⟨hrest, hstart⟩ := LexState.left_eq_zero.mp hleft
  refine ⟨tokensAt_eq_some_iff.mpr ⟨t', ht', ?_, ?_, rfl⟩, ?_⟩
  · rw [LexState.left_eq_zero, h.rest', ← h.rest, ← h.atLineStart]
    exact ⟨hrest, hstart⟩
  · rw [← h.brackets, hbrackets]
  · exact List.rel_reverse h.done

end Restyle.Syntax
