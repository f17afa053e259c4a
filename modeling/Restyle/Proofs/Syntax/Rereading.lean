import Restyle.Proofs.Syntax.Rewording
import Restyle.Proofs.Text.Newlines

/-!
The tokens of two texts that are worded alike. Two readers go over the texts in steps that match,
so both come to the end, or neither does. The tokens that they find are alike.
-/

namespace Restyle.Syntax

open LexState (Reaches isQuote)
open Text (Apart IsRun mayBeNameChar)

variable {ν : NameLikeness} {site : Site} {c q : Char} {w x x' z z' : List Char}
  {s s' t t' : LexState}

theorem Parser.identifier_ofList (w : List Char) :
    Parser.identifier (String.ofList w) = String.ofList (Text.normalize w) := by
  rw [Parser.identifier, String.toList_ofList]

theorem IsPlainName.identifier_eq (hw : IsPlainName w) :
    Parser.identifier (String.ofList w) = String.ofList w := by
  rw [Parser.identifier_ofList, hw.normalize_eq]

/-! ### One reader at a word -/

namespace LexState

/-- A word with a quote after it that it makes a string of. -/
theorem wordToken_mark (hrest : s.cursor.rest = w ++ q :: z) (hw : IsRun mayBeNameChar w)
    (hq : isQuote q = true) (hmark : isStringMark w = true) :
    s.wordToken = s.stringToken w q := by
  have htake : s.cursor.rest.takeWhile mayBeNameChar = w := by
    rw [hrest, Text.takeWhile_run hw.all (Text.apart_cons.mpr (mark_of_isQuote hq))]
  unfold wordToken
  dsimp only
  rw [htake, hrest, List.drop_left, List.head?_cons, Option.filter_some, if_pos hq]
  exact if_pos hmark

theorem wordToken_plain (hrest : s.cursor.rest = w ++ x) (hw : IsRun mayBeNameChar w)
    (hx : Apart mayBeNameChar x) (hmark : x.head?.any isQuote = true → isStringMark w = false) :
    s.wordToken = wordToken.plain s w x := by
  have htake : s.cursor.rest.takeWhile mayBeNameChar = w := by
    rw [hrest, Text.takeWhile_run hw.all hx]
  unfold wordToken
  dsimp only
  rw [htake, hrest, List.drop_left]
  split
  case h_1 q hq =>
    obtain ⟨hhead, hquote⟩ := Option.filter_eq_some_iff.mp hq
    have hplain := hmark ((Option.any_eq_true _ _).mpr ⟨q, hhead, hquote⟩)
    exact if_neg (by simpa [isStringMark] using hplain)
  case h_2 => rfl

theorem plain_name (hw : IsPlainName w) :
    wordToken.plain s w x = some (s.push (.name (String.ofList w)) x) := by
  rw [wordToken.plain, hw.notKeyword, hw.identifier]
  rfl

theorem inLine_word (hrest : s.cursor.rest = w ++ x) (hw : IsRun mayBeNameChar w) :
    s.inLine = if startsWithDigit w then
        (number? s.cursor.rest).map fun r => s.push (inLine.numberKind s r.1 r.2) r.2
      else s.wordToken := by
  obtain ⟨c, v, rfl⟩ := List.exists_cons_of_ne_nil hw.ne_nil
  have hc := hw.all c List.mem_cons_self
  have hne {d : Char} (hd : mayBeNameChar d = false) : c ≠ d := Text.ne_of_other hc hd
  have hquote : isQuote c = false := by
    by_contra h
    exact absurd (mark_of_isQuote (by simpa using h)) (by simp [hc])
  have hdigit : startsWithDigit (c :: v) = c.isDigit := rfl
  unfold inLine
  rw [hrest, List.cons_append, hdigit]
  simp [hne (d := ' ') (by decide), hne (d := '\t') (by decide), hne (d := '\x0c') (by decide),
    hne (d := '#') (by decide), hne (d := '\n') (by decide), hne (d := '\\') (by decide),
    hne (d := '.') (by decide), hquote, hc]

end LexState

/-! ### Two readers -/

section Readers

variable [Dialect]

/-- States of two readers that have found alike tokens and have texts left that are worded
alike. -/
structure ReadAlike (ν : NameLikeness) (s s' : LexState) : Prop where
  rest : Reworded ν .plain s.cursor.rest s'.cursor.rest
  indents : s.indents = s'.indents
  brackets : s.brackets = s'.brackets
  atLineStart : s.atLineStart = s'.atLineStart
  isBlankLine : s.isBlankLine = s'.isBlankLine
  done : List.Forall₂ (TokenLike ν .none) s.done s'.done

namespace ReadAlike

section

variable (h : ReadAlike ν s s')

include h

theorem push {k k' : TokenKind} (hk : KindLike ν (Places.none s.cursor.line s.cursor.column) k k')
    (hx : x <:+ s.cursor.rest) (hx' : x' <:+ s'.cursor.rest) (hreworded : Reworded ν site x x') :
    ReadAlike ν (s.push k x) (s'.push k' x') where
  rest := by
    have hrest : (s.push k x).cursor.rest = x := Cursor.rest_skipTo hx
    have hrest' : (s'.push k' x').cursor.rest = x' := Cursor.rest_skipTo hx'
    rw [hrest, hrest']
    exact hreworded.toPlain
  indents := h.indents
  brackets := h.brackets
  atLineStart := h.atLineStart
  isBlankLine := h.isBlankLine
  done := .cons hk h.done

theorem moveTo (hx : x <:+ s.cursor.rest) (hx' : x' <:+ s'.cursor.rest)
    (hreworded : Reworded ν site x x') :
    ReadAlike ν { s with cursor := s.cursor.skipTo x }
      { s' with cursor := s'.cursor.skipTo x' } := by
  refine ⟨?_, h.indents, h.brackets, h.atLineStart, h.isBlankLine, h.done⟩
  dsimp only
  rw [Cursor.rest_skipTo hx, Cursor.rest_skipTo hx']
  exact hreworded.toPlain

theorem next (hrest : s.cursor.rest = c :: x) (hrest' : s'.cursor.rest = c :: x')
    (hreworded : Reworded ν site x x') :
    ReadAlike ν { s with cursor := s.cursor.next } { s' with cursor := s'.cursor.next } := by
  refine ⟨?_, h.indents, h.brackets, h.atLineStart, h.isBlankLine, h.done⟩
  dsimp only
  rw [Cursor.rest_next, Cursor.rest_next, hrest, hrest']
  exact hreworded.toPlain

theorem endLine (hrest : s.cursor.rest = c :: x) (hrest' : s'.cursor.rest = c :: x')
    (hreworded : Reworded ν site x x') : ReadAlike ν s.endLine s'.endLine := by
  have hnext := (h.next hrest hrest' hreworded).rest
  unfold LexState.endLine
  rw [h.isBlankLine, h.brackets]
  split
  · exact ⟨hnext, h.indents, rfl, rfl, rfl, h.done⟩
  · exact ⟨hnext, h.indents, rfl, rfl, rfl, .cons .newline h.done⟩

theorem stringToken (hq : isQuote q = true) (hrest : s.cursor.rest = w ++ q :: z)
    (hrest' : s'.cursor.rest = w ++ q :: z') (hreworded : Reworded ν site z z') :
    Option.Rel (ReadAlike ν) (s.stringToken w q) (s'.stringToken w q) := by
  have hinner : (s.cursor.rest.drop w.length).drop 1 = z := by rw [hrest, List.drop_left]; rfl
  have hinner' : (s'.cursor.rest.drop w.length).drop 1 = z' := by rw [hrest', List.drop_left]; rfl
  obtain ⟨hopen, site', hbody⟩ := hreworded.openString hq
  have hbodies := rel_stringBody hq (LexState.openString q z).1 hbody [] []
  unfold LexState.stringToken
  rw [hinner, hinner']
  dsimp only
  rw [← hopen]
  generalize hb : LexState.stringBody q _ [] (LexState.openString q z).2 = b at hbodies ⊢
  generalize hb' : LexState.stringBody q _ [] (LexState.openString q z').2 = b' at hbodies ⊢
  cases hbodies with
  | none => exact .none
  | @some r r' hr =>
    obtain ⟨y, y', hy, hy', -, hlike, hafter⟩ := hr
    rw [List.reverse_nil, List.nil_append] at hy hy'
    have hsuffix {s : LexState} {z : List Char} {triple : Bool} {r : List Char × List Char}
        (hrest : s.cursor.rest = w ++ q :: z)
        (h : LexState.stringBody q triple [] (LexState.openString q z).2 = some r) :
        r.2 <:+ s.cursor.rest := by
      rw [hrest]
      exact (suffix_stringBody h).trans ((suffix_openString q z).trans ((List.tail_suffix z).trans
        ((List.suffix_cons q z).trans (List.suffix_append w _))))
    refine .some (h.push (.string ⟨rfl, rfl, rfl, site', ?_⟩) (hsuffix hrest hb)
      (hsuffix hrest' hb') hafter)
    rw [← hy, ← hy'] at hlike
    exact hlike

theorem operatorToken : Option.Rel (ReadAlike ν) s.operatorToken s'.operatorToken := by
  have hmarks : ∀ op ∈ LexState.operators, ∀ c ∈ op, mayBeNameChar c = false := by
    have hall : LexState.operators.all (·.all (!mayBeNameChar ·)) = true := by decide
    simpa using hall
  have hfind : LexState.operators.find? (·.isPrefixOf s.cursor.rest) =
      LexState.operators.find? (·.isPrefixOf s'.cursor.rest) := by
    refine List.find?_congr fun op hop => ?_
    rw [Bool.eq_iff_iff, List.isPrefixOf_iff_prefix, List.isPrefixOf_iff_prefix]
    exact h.rest.prefix_iff (hmarks op hop)
  unfold LexState.operatorToken
  rw [← hfind, ← h.brackets]
  cases hop : LexState.operators.find? (·.isPrefixOf s.cursor.rest) with
  | none => exact .none
  | some op =>
    have hstarts : op.isPrefixOf s.cursor.rest = true := by simpa using List.find?_some hop
    obtain ⟨site', r, r', hr, hr', hreworded⟩ := h.rest.append_marks
      (hmarks op (List.mem_of_find?_eq_some hop)) (List.isPrefixOf_iff_prefix.mp hstarts)
    dsimp only
    rw [hr, hr', List.drop_left, List.drop_left]
    refine rel_map (rel_eq _) fun brackets _ hbrackets => ?_
    subst hbrackets
    have hpush := h.push (.op (String.ofList op)) (hr ▸ List.suffix_append op r)
      (hr' ▸ List.suffix_append op r') hreworded
    exact ⟨hpush.rest, h.indents, rfl, h.atLineStart, h.isBlankLine, hpush.done⟩

/-- A word that stays and is no string mark here. -/
theorem keptWord (hw : Kept ν site w x) (hrest : s.cursor.rest = w ++ x)
    (hrest' : s'.cursor.rest = w ++ x') (hreworded : Reworded ν (.afterWord w) x x') :
    Option.Rel (ReadAlike ν) (LexState.wordToken.plain s w x)
      (LexState.wordToken.plain s' w x') := by
  have hpush {k : TokenKind} (hk : KindLike ν (Places.none s.cursor.line s.cursor.column) k k) :
      ReadAlike ν (s.push k x) (s'.push k x') :=
    h.push hk (hrest ▸ List.suffix_append w x) (hrest' ▸ List.suffix_append w x') hreworded
  unfold LexState.wordToken.plain
  split
  · exact .some (hpush (.keyword _))
  · split
    · have hkeeps := hw.keeps
      rw [NameLikeness.Keeps, ← Parser.identifier_ofList] at hkeeps
      exact .some (hpush (.name hkeeps fun _ _ => Iff.rfl))
    · exact .none

theorem changedWord {w' : List Char} (hw : Changed ν site w w' x) (hrest : s.cursor.rest = w ++ x)
    (hrest' : s'.cursor.rest = w' ++ x') (hreworded : Reworded ν .plain x x') :
    Option.Rel (ReadAlike ν) (LexState.wordToken.plain s w x)
      (LexState.wordToken.plain s' w' x') := by
  rw [LexState.plain_name hw.old, LexState.plain_name hw.new]
  have hnames : KindLike ν (Places.none s.cursor.line s.cursor.column) (.name (String.ofList w))
      (.name (String.ofList w')) := by
    refine .name ?_ (ν.soft hw.rel)
    rw [hw.old.identifier_eq, hw.new.identifier_eq]
    exact hw.rel
  exact .some (h.push hnames (hrest ▸ List.suffix_append w x)
    (hrest' ▸ List.suffix_append w' x') hreworded)

theorem number {p : List Char} (hs : s.cursor.rest = p ++ x) (hs' : s'.cursor.rest = p ++ x')
    (kind : NumberKind) (hreworded : Reworded ν .plain x x') :
    ReadAlike ν (s.push (LexState.inLine.numberKind s kind x) x)
      (s'.push (LexState.inLine.numberKind s' kind x') x') := by
  have htext : LexState.inLine.numberKind s kind x = LexState.inLine.numberKind s' kind x' := by
    have htake (a : List Char) : (p ++ a).take ((p ++ a).length - a.length) = p := by simp
    rw [LexState.inLine.numberKind, LexState.inLine.numberKind, hs, hs', htake, htake]
  rw [htext]
  exact h.push (.number _ _) (hs ▸ List.suffix_append p x) (hs' ▸ List.suffix_append p x') hreworded

theorem startLine : Option.Rel (ReadAlike ν) s.startLine s'.startLine := by
  have hmeasure := rel_measure h.rest ⟨0, 0⟩ 0
  unfold LexState.startLine
  generalize hm : LexState.measure ⟨0, 0⟩ 0 s.cursor.rest = m at hmeasure ⊢
  generalize hm' : LexState.measure ⟨0, 0⟩ 0 s'.cursor.rest = m' at hmeasure ⊢
  cases hmeasure with
  | none => exact .none
  | @some r r' hr =>
    obtain ⟨width, joined, x⟩ := r
    obtain ⟨width', joined', x'⟩ := r'
    obtain ⟨rfl, rfl, hreworded⟩ :
        width = width' ∧ joined = joined' ∧ Reworded ν .plain x x' := hr
    have hmove := h.moveTo (suffix_measure hm) (suffix_measure hm') hreworded
    have hblank : (x.head? = some '#' ∨ x.head? = some '\n') ↔
        (x'.head? = some '#' ∨ x'.head? = some '\n') :=
      or_congr (hreworded.head?_eq_iff (by decide)) (hreworded.head?_eq_iff (by decide))
    dsimp only
    simp only [hblank, ← h.brackets, ← h.indents]
    split
    · exact .some ⟨hmove.rest, rfl, rfl, rfl, rfl, h.done⟩
    · split
      · exact .none
      · rename_i closed opened indents hindents
        exact .some ⟨hmove.rest, rfl, rfl, rfl, rfl, forall₂_layout closed opened _ _ h.done⟩

theorem inLine_mark (hc : mayBeNameChar c = false) (hrest : s.cursor.rest = c :: x)
    (hrest' : s'.cursor.rest = c :: x') (hreworded : Reworded ν (Site.afterMark .plain c) x x') :
    Option.Rel (ReadAlike ν) s.inLine s'.inLine := by
  have hsuffix {y : List Char} (hy : y <:+ x) : y <:+ s.cursor.rest := by
    rw [hrest]
    exact hy.trans (List.suffix_cons c x)
  have hsuffix' {y : List Char} (hy : y <:+ x') : y <:+ s'.cursor.rest := by
    rw [hrest']
    exact hy.trans (List.suffix_cons c x')
  have hdigit := inWords_isDigit.eq_false hc
  unfold LexState.inLine
  rw [hrest, hrest']
  dsimp only
  -- a blank, a comment, a line end or a joined line
  split
  · exact .some (h.next hrest hrest' hreworded)
  split
  · exact .some (h.moveTo (hsuffix (List.dropWhile_suffix _)) (hsuffix' (List.dropWhile_suffix _))
      hreworded.dropWhile_line)
  split
  · exact .some (h.endLine hrest hrest' hreworded)
  split
  · have hjoined := rel_joinedLine? hreworded
    generalize hj : LexState.joinedLine? x = j at hjoined ⊢
    generalize hj' : LexState.joinedLine? x' = j' at hjoined ⊢
    cases hjoined with
    | none => exact .none
    | some hr =>
      exact .some (h.moveTo (hsuffix (suffix_joinedLine? hj))
        (hsuffix' (suffix_joinedLine? hj')) hr)
  split
  case isTrue hquote => exact h.stringToken (w := []) hquote hrest hrest' hreworded
  -- what is left is a number that starts with its point, or an operator
  rw [hdigit]
  simp only [Bool.false_eq_true, if_false, hc]
  have hhead (y : List Char) : (y.head?.map Char.isDigit).getD false = startsWithDigit y := by
    cases y <;> rfl
  rw [hhead, hhead, hreworded.startsWithDigit_eq]
  split
  case isTrue hfraction =>
    obtain ⟨u, y, y', rfl, rfl, hcont⟩ :=
      hreworded.continued_of_digit (hreworded.startsWithDigit_eq.trans hfraction.2)
    refine rel_map (rel_fractionEnd hcont) ?_
    rintro ⟨kind, r⟩ ⟨_, r'⟩ ⟨rfl, p, hp, hp', hr⟩
    exact h.number (p := c :: p) (by rw [hrest, hp]; rfl) (by rw [hrest', hp']; rfl) kind hr
  case isFalse => exact h.operatorToken

theorem inLine : Option.Rel (ReadAlike ν) s.inLine s'.inLine := by
  have hreworded := h.rest
  generalize hrest : s.cursor.rest = x at hreworded
  generalize hrest' : s'.cursor.rest = x' at hreworded
  cases hreworded with
  | nil =>
    rw [LexState.inLine, LexState.inLine, hrest, hrest']
    exact .some h
  | mark hc hreworded => exact h.inLine_mark hc hrest hrest' hreworded
  | @kept _ w x x' hw hreworded =>
    rw [LexState.inLine_word hrest hw.run, LexState.inLine_word hrest' hw.run]
    split
    case isTrue hdigit =>
      have hnumber : Reworded ν .numeral x x' := by
        rwa [Site.afterWord, if_pos hdigit] at hreworded
      rw [hrest, hrest']
      refine rel_map (rel_number? hdigit (hw.continued (.inl hdigit) hnumber) hnumber) ?_
      rintro ⟨kind, r⟩ ⟨_, r'⟩ ⟨rfl, p, hp, hp', hr⟩
      exact h.number (hrest.trans hp) (hrest'.trans hp') kind hr
    case isFalse =>
      -- a word before a quote may be the mark of a string
      by_cases hmark : isStringMark w = true ∧ ∃ q z, x = q :: z ∧ isQuote q = true
      · obtain ⟨hmark, q, z, rfl, hq⟩ := hmark
        obtain ⟨z', rfl, hz⟩ := hreworded.cons_mark (mark_of_isQuote hq)
        rw [LexState.wordToken_mark hrest hw.run hq hmark,
          LexState.wordToken_mark hrest' hw.run hq hmark]
        exact h.stringToken hq hrest hrest' hz
      · have hplain : x.head?.any isQuote = true → isStringMark w = false := by
          intro hquoted
          obtain ⟨q, hq, hquote⟩ := (Option.any_eq_true _ _).mp hquoted
          obtain ⟨z, rfl⟩ := List.head?_eq_some_iff.mp hq
          by_contra hw
          exact hmark ⟨by simpa using hw, q, z, rfl, hquote⟩
        have hplain' : x'.head?.any isQuote = true → isStringMark w = false := by
          rwa [← hreworded.head?_eq hw.apart]
        rw [LexState.wordToken_plain hrest hw.run hw.apart hplain,
          LexState.wordToken_plain hrest' hw.run (hreworded.apart hw.apart) hplain']
        exact h.keptWord hw hrest hrest' hreworded
  | @changed _ w w' x x' hw hreworded =>
    have hdigit {w : List Char} (hw : IsPlainName w) : startsWithDigit w = false := by
      simpa using hw.startsWithDigit_append []
    have hplain' : x'.head?.any isQuote = true → isStringMark w' = false := by
      rw [← hreworded.head?_eq hw.apart]
      exact fun hquoted => (hw.unmarked hquoted).2
    rw [LexState.inLine_word hrest hw.old.isRun, LexState.inLine_word hrest' hw.new.isRun,
      hdigit hw.old, hdigit hw.new, if_neg Bool.false_ne_true, if_neg Bool.false_ne_true,
      LexState.wordToken_plain hrest hw.old.isRun hw.apart fun hquoted => (hw.unmarked hquoted).1,
      LexState.wordToken_plain hrest' hw.new.isRun (hreworded.apart hw.apart) hplain']
    exact h.changedWord hw hrest hrest' hreworded

theorem step : Option.Rel (ReadAlike ν) s.step s'.step := by
  unfold LexState.step
  rw [h.atLineStart]
  split
  · exact h.startLine
  · exact h.inLine

theorem left_iff : s.left = 0 ↔ s'.left = 0 := by
  rw [LexState.left_eq_zero, LexState.left_eq_zero, h.rest.eq_nil_iff, h.atLineStart]

end

end ReadAlike

end Readers

/-! ### Runs -/

/-- Where each step has a step that matches it, so has each way. -/
theorem reaches_of_rel {R : LexState → LexState → Prop}
    (hstep : ∀ s s', R s s' → Option.Rel R s.step s'.step) (h : R s s') (ht : Reaches s t) :
    ∃ t', Reaches s' t' ∧ R t t' := by
  induction ht with
  | refl => exact ⟨s', .refl, h⟩
  | @tail m t _ hm ih =>
    obtain ⟨m', hm', hR⟩ := ih
    have hrel := hstep m m' hR
    rw [hm] at hrel
    generalize ht' : m'.step = t' at hrel
    cases hrel with
    | some hR => exact ⟨_, hm'.tail ht', hR⟩

theorem rel_tokensAt [Dialect] (h : Reworded ν site x x') (line column line' column' : Nat) :
    Option.Rel (List.Forall₂ (TokenLike ν .none)) (tokensAt line column x)
      (tokensAt line' column' x') := by
  have hstart : ReadAlike ν (.start line column x) (.start line' column' x') :=
    ⟨h.toPlain, rfl, rfl, rfl, rfl, .nil⟩
  cases htoks : tokensAt line column x with
  | some toks =>
    obtain ⟨t, hreach, hleft, hbrackets, rfl⟩ := tokensAt_eq_some_iff.mp htoks
    obtain ⟨t', hreach', hlike⟩ := reaches_of_rel (fun _ _ hs => hs.step) hstart hreach
    rw [tokensAt_eq_some_iff.mpr
      ⟨t', hreach', hlike.left_iff.mp hleft, hlike.brackets ▸ hbrackets, rfl⟩]
    exact .some (List.rel_reverse hlike.done)
  | none =>
    cases htoks' : tokensAt line' column' x' with
    | none => exact .none
    | some toks' =>
      obtain ⟨t', hreach', hleft, hbrackets, -⟩ := tokensAt_eq_some_iff.mp htoks'
      obtain ⟨t, hreach, hlike⟩ := reaches_of_rel (R := flip (ReadAlike ν))
        (fun _ _ hs => rel_flip (ReadAlike.step hs)) hstart hreach'
      have hlike : ReadAlike ν t t' := hlike
      rw [tokensAt_eq_some_iff.mpr
        ⟨t, hreach, hlike.left_iff.mpr hleft, hlike.brackets.trans hbrackets, rfl⟩] at htoks
      cases htoks

/-! ### Whole sources -/

theorem follows_unifyNewlines (s : List Char) : Follows s (Text.unifyNewlines s) := by
  intro c hc
  unfold Text.unifyNewlines at hc
  split at hc
  · cases hc
    exact .inr (by decide)
  · cases hc
    exact .inr (by decide)
  · cases hc
    exact .inl rfl
  · cases hc

theorem Reworded.unifyNewlines (h : Reworded ν site x x') :
    Reworded ν site (Text.unifyNewlines x) (Text.unifyNewlines x') := by
  induction hn : x.length using Nat.strongRecOn generalizing site x x' with
  | _ n ih =>
    subst hn
    cases h with
    | nil => exact .nil _
    | @mark _ c x x' hc h =>
      by_cases hreturn : c = '\r'
      · subst hreturn
        have hsite : site.afterMark '\n' = site.afterMark '\r' := by simp [Site.afterMark]
        -- a return and the newline after it are one line end
        by_cases hline : x.head? = some '\n'
        · obtain ⟨y, rfl⟩ := List.head?_eq_some_iff.mp hline
          obtain ⟨y', rfl, hy⟩ := h.cons_mark (by decide)
          refine .mark (by decide) (ih y.length (by simp only [List.length_cons]; omega) ?_ rfl)
          simpa [Site.afterMark] using hy
        · have hreturn {y : List Char} (hy : y.head? ≠ some '\n') :
              Text.unifyNewlines ('\r' :: y) = '\n' :: Text.unifyNewlines y := by
            refine Text.unifyNewlines.eq_2 y fun rest hrest => ?_
            rw [hrest] at hy
            exact hy rfl
          rw [hreturn hline, hreturn (mt (h.head?_eq_iff (by decide)).mpr hline)]
          exact .mark (by decide) (hsite ▸ ih x.length (by simp) h rfl)
      · rw [Text.unifyNewlines_cons hreturn, Text.unifyNewlines_cons hreturn]
        exact .mark hc (ih x.length (by simp) h rfl)
    | @kept _ w x x' hw h =>
      rw [Text.unifyNewlines_word hw.run.all, Text.unifyNewlines_word hw.run.all]
      have hshorter : x.length < (w ++ x).length := by
        simpa using List.length_pos_of_ne_nil hw.run.ne_nil
      exact .kept (hw.before (follows_unifyNewlines x)) (ih x.length hshorter h rfl)
    | @changed _ w w' x x' hw h =>
      rw [Text.unifyNewlines_word hw.old.isRun.all, Text.unifyNewlines_word hw.new.isRun.all]
      have hshorter : x.length < (w ++ x).length := by
        simpa using List.length_pos_of_ne_nil hw.old.isRun.ne_nil
      exact .changed (hw.before (follows_unifyNewlines x)) (ih x.length hshorter h rfl)

theorem Reworded.getLast?_eq_iff (hc : mayBeNameChar c = false) (h : Reworded ν site x x') :
    x.getLast? = some c ↔ x'.getLast? = some c := by
  have hword {w : List Char} (hw : IsRun mayBeNameChar w) (x : List Char) :
      (w ++ x).getLast? = some c ↔ x.getLast? = some c := by
    cases x with
    | nil =>
      refine iff_of_false (fun hlast => ?_) nofun
      rw [List.append_nil] at hlast
      exact absurd (hw.all c (List.mem_of_getLast? hlast)) (by simp [hc])
    | cons d x => rw [List.getLast?_append_cons]
  induction h with
  | nil => rfl
  | @mark _ d x x' _ h ih =>
    cases x with
    | nil =>
      rw [h.eq_nil_iff.mp rfl]
    | cons e x =>
      obtain ⟨e', y, rfl⟩ :=
        List.exists_cons_of_ne_nil (mt h.eq_nil_iff.mpr (List.cons_ne_nil e x))
      rwa [List.getLast?_cons_cons, List.getLast?_cons_cons]
  | kept hw _ ih => rwa [hword hw.run, hword hw.run]
  | changed hw _ ih => rwa [hword hw.old.isRun, hword hw.new.isRun]

theorem Reworded.prepare (h : Reworded ν site x x') :
    Reworded ν site (prepare x) (prepare x') := by
  have hunified := h.unifyNewlines
  unfold Syntax.prepare
  dsimp only
  by_cases hlast : (Text.unifyNewlines x).getLast? = some '\n'
  · rw [if_pos hlast, if_pos ((hunified.getLast?_eq_iff (by decide)).mp hlast)]
    exact hunified
  · rw [if_neg hlast, if_neg (mt (hunified.getLast?_eq_iff (by decide)).mpr hlast)]
    exact hunified.append (by decide) (by decide) (by decide) fun _ => .mark (by decide) (.nil _)

theorem rel_tokens [Dialect] (h : Reworded ν site x x') :
    Option.Rel (List.Forall₂ (TokenLike ν .none)) (tokens x) (tokens x') := by
  have hname {w : List Char} (hw : IsPlainName w) : w.any (·.toNat == 0) = false := by
    rw [List.any_eq_false]
    intro c hc hzero
    have hnul : c = Char.ofNat 0 := by rw [← Char.ofNat_toNat c, beq_iff_eq.mp hzero]
    exact absurd (hw.isRun.all c hc) (by rw [hnul]; decide)
  unfold tokens
  rw [h.any_eq hname]
  split
  · exact .none
  · exact rel_tokensAt h.prepare 1 0 1 0

end Restyle.Syntax
