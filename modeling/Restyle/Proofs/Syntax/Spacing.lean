import Restyle.Proofs.Syntax.Positions

/-!
Blank lines between the lines of a text. Where no string goes on over the end of a line, a reader
comes to the line end between two tokens, and blank lines after it are passed without a trace. So
texts that differ in such blank lines have the same tokens but for their places.
-/

namespace Restyle.Syntax

open Text (mayBeNameChar)

/-! ### Up to the end of a line -/

section LineEnd

variable {x r : List Char}

theorem suffix_joinedLine?_of_getLast? {rest : List Char} (hx : ('\\' :: x).getLast? ≠ some '\\')
    (h : LexState.joinedLine? (x ++ '\n' :: r) = some rest) : '\n' :: r <:+ rest := by
  obtain ⟨hline, -⟩ := joinedLine?_eq_some_iff.mp h
  cases x with
  | nil => exact absurd rfl hx
  | cons c x =>
    obtain rfl : x ++ '\n' :: r = rest := (List.cons.inj hline).2
    exact List.suffix_append x _

theorem suffix_measure_of_getLast? {width width' : Width} {joined joined' : Nat}
    {rest : List Char} (hx : x.getLast? ≠ some '\\')
    (h : LexState.measure width joined (x ++ '\n' :: r) = some (width', joined', rest)) :
    '\n' :: r <:+ rest := by
  induction hn : x.length using Nat.strongRecOn generalizing x width joined with
  | _ n ih =>
    subst hn
    cases x with
    | nil =>
      rw [List.nil_append, measure_cons rfl] at h
      cases h
      exact List.suffix_rfl
    | cons c x =>
      have hx' := getLast?_ne_of_suffix (List.suffix_cons c x) hx
      rw [List.cons_append] at h
      by_cases hc : isIndenting c = false
      · rw [measure_cons hc] at h
        cases h
        exact (List.suffix_append x _).trans (List.suffix_cons c _)
      · simp only [isIndenting, Bool.or_eq_false_iff, beq_eq_false_iff_ne, ne_eq, not_and_or,
          not_not] at hc
        rcases hc with ((rfl | rfl) | rfl) | rfl
        · exact ih x.length (by simp) hx' h rfl
        · exact ih x.length (by simp) hx' h rfl
        · exact ih x.length (by simp) hx' h rfl
        · -- the last line has no backslash at its end, so it is not joined to the next one
          rw [measure_backslash] at h
          obtain ⟨left, hjoined, hmore⟩ := Option.bind_eq_some_iff.mp h
          obtain ⟨z, rfl⟩ := suffix_joinedLine?_of_getLast? hx hjoined
          have hz : z <:+ x := List.suffix_append_self_iff.mp (suffix_joinedLine? hjoined)
          have hshorter : z.length < ('\\' :: x).length := by
            rw [List.length_cons]
            exact Nat.lt_succ_of_le hz.length_le
          exact ih z.length hshorter (getLast?_ne_of_suffix hz hx') hmore rfl

end LineEnd

namespace LexState

variable {s t : LexState} {x r : List Char}

/-- A step that finds a string. -/
def FindsString (s t : LexState) : Prop :=
  ∃ tok : Token, t.done = tok :: s.done ∧ tok.isString = true ∧ tok.span.line = s.cursor.line ∧
    tok.span.lastLine = t.cursor.line

theorem findsString_of_stringToken {mark : List Char} {q : Char}
    (h : s.stringToken mark q = some t) : FindsString s t := by
  obtain ⟨body, -, rfl⟩ := Option.map_eq_some_iff.mp h
  exact ⟨_, rfl, rfl, rfl, rfl⟩

theorem suffix_rest_push (k : TokenKind) {z : List Char} (hz : z <:+ x)
    (hrest : s.cursor.rest = x ++ '\n' :: r) :
    '\n' :: r <:+ (s.push k (z ++ '\n' :: r)).cursor.rest := by
  have hsuffix : z ++ '\n' :: r <:+ s.cursor.rest := by
    obtain ⟨p, rfl⟩ := hz
    rw [hrest, List.append_assoc]
    exact List.suffix_append p _
  have hpush : (s.push k (z ++ '\n' :: r)).cursor.rest = z ++ '\n' :: r :=
    Cursor.rest_skipTo hsuffix
  rw [hpush]
  exact List.suffix_append z _

theorem wordToken_before_line (hrest : s.cursor.rest = x ++ '\n' :: r)
    (h : s.wordToken = some t) : '\n' :: r <:+ t.cursor.rest ∨ FindsString s t := by
  have hname : Unbound mayBeNameChar := ⟨by decide, by decide, by decide⟩
  have hends : Ends ('\n' :: r) := ends_cons rfl
  have hx : x.takeWhile mayBeNameChar ++ x.dropWhile mayBeNameChar = x :=
    List.takeWhile_append_dropWhile
  have htake : s.cursor.rest.takeWhile mayBeNameChar = x.takeWhile mayBeNameChar := by
    rw [hrest, takeWhile_append_ends hends hname]
  have hdrop : s.cursor.rest.drop (x.takeWhile mayBeNameChar).length =
      x.dropWhile mayBeNameChar ++ '\n' :: r := by
    rw [hrest]
    nth_rewrite 2 [← hx]
    rw [List.append_assoc, List.drop_left]
  have hplain {word : List Char}
      (h : wordToken.plain s word (x.dropWhile mayBeNameChar ++ '\n' :: r) = some t) :
      '\n' :: r <:+ t.cursor.rest := by
    unfold wordToken.plain at h
    split at h
    · cases h
      exact suffix_rest_push _ (List.dropWhile_suffix _) hrest
    · rw [Option.ite_none_right_eq_some] at h
      cases h.2
      exact suffix_rest_push _ (List.dropWhile_suffix _) hrest
  unfold wordToken at h
  dsimp only at h
  rw [htake, hdrop] at h
  split at h
  · split at h
    · exact .inr (findsString_of_stringToken h)
    · exact .inl (hplain h)
  · exact .inl (hplain h)

theorem operatorToken_before_line (hrest : s.cursor.rest = x ++ '\n' :: r)
    (h : s.operatorToken = some t) : '\n' :: r <:+ t.cursor.rest := by
  have hplain : ∀ op ∈ operators, op.any isBound = false := by decide
  unfold operatorToken at h
  split at h
  case h_1 => cases h
  case h_2 op hop =>
    obtain ⟨brackets, -, rfl⟩ := Option.map_eq_some_iff.mp h
    have hstarts : op.isPrefixOf s.cursor.rest = true := by simpa using List.find?_some hop
    rw [hrest, isPrefixOf_append_ends (ends_cons rfl) (hplain op (List.mem_of_find?_eq_some hop)),
      List.isPrefixOf_iff_prefix] at hstarts
    obtain ⟨z, rfl⟩ := hstarts
    have hdrop : s.cursor.rest.drop op.length = z ++ '\n' :: r := by
      rw [hrest, List.append_assoc, List.drop_left]
    dsimp only
    rw [hdrop]
    exact suffix_rest_push (.op (String.ofList op)) (List.suffix_append op z) hrest

theorem inLine_before_line {c : Char} (hrest : s.cursor.rest = c :: x ++ '\n' :: r)
    (hx : (c :: x).getLast? ≠ some '\\') (h : s.inLine = some t) :
    '\n' :: r <:+ t.cursor.rest ∨ FindsString s t := by
  have hends : Ends ('\n' :: r) := ends_cons rfl
  have hnext : s.cursor.next.rest = x ++ '\n' :: r := by
    rw [Cursor.rest_next, hrest]
    rfl
  have hmove {rest : List Char} (hr : rest <:+ x ++ '\n' :: r) (hline : '\n' :: r <:+ rest) :
      '\n' :: r <:+ (s.cursor.skipTo rest).rest := by
    have hsuffix : rest <:+ s.cursor.rest := by
      rw [hrest]
      exact hr.trans (List.suffix_cons c _)
    rwa [Cursor.rest_skipTo hsuffix]
  unfold inLine at h
  rw [hrest] at h
  dsimp only [List.cons_append] at h
  -- a blank
  split at h
  · cases h
    rw [hnext]
    exact .inl (List.suffix_append x _)
  -- a comment, which ends before the line does
  split at h
  · cases h
    refine .inl (hmove (List.dropWhile_suffix _) ?_)
    rw [List.dropWhile_append]
    split
    · exact List.suffix_rfl
    · exact List.suffix_append _ _
  -- a line end within the text
  split at h
  · cases h
    rw [rest_endLine, hrest]
    exact .inl (List.suffix_append x _)
  -- a joined line, which the last one is not, as it has no backslash at its end
  split at h
  case isTrue hbackslash =>
    obtain ⟨rest, hjoined, rfl⟩ := Option.map_eq_some_iff.mp h
    rw [hbackslash] at hx
    exact .inl (hmove (suffix_joinedLine? hjoined) (suffix_joinedLine?_of_getLast? hx hjoined))
  -- only a string may go over the line end
  split at h
  · exact .inr (findsString_of_stringToken h)
  split at h
  · rw [← List.cons_append, number?_append hends, Option.map_map] at h
    obtain ⟨⟨kind, rest⟩, hnumber, rfl⟩ := Option.map_eq_some_iff.mp h
    exact .inl (suffix_rest_push _ ((suffix_number? hnumber).trans (List.tail_suffix _)) hrest)
  split at h
  · rw [fractionEnd_append hends, Option.map_map] at h
    obtain ⟨⟨kind, rest⟩, hnumber, rfl⟩ := Option.map_eq_some_iff.mp h
    exact .inl (suffix_rest_push _ ((suffix_fractionEnd hnumber).trans (List.suffix_cons c x))
      hrest)
  split at h
  · exact wordToken_before_line hrest h
  · exact .inl (operatorToken_before_line hrest h)

/-- A step before the end of a line does not pass it, unless it finds a string. -/
theorem step_before_line (hrest : s.cursor.rest = x ++ '\n' :: r) (hx : x.getLast? ≠ some '\\')
    (hbefore : x ≠ [] ∨ s.atLineStart = true) (h : s.step = some t) :
    '\n' :: r <:+ t.cursor.rest ∨ FindsString s t := by
  unfold step at h
  split at h
  case isTrue =>
    obtain ⟨⟨width, joined, hmeasure⟩, -⟩ := measure_of_startLine h
    rw [hrest] at hmeasure
    exact .inl (suffix_measure_of_getLast? hx hmeasure)
  case isFalse hstart =>
    obtain ⟨c, x, rfl⟩ := List.exists_cons_of_ne_nil (hbefore.resolve_right hstart)
    exact inLine_before_line hrest hx h

end LexState

/-! ### Lines that no string goes over -/

/-- Whether a token is a string that goes over the end of a line, given by its number. -/
def Token.goesOver (n : Nat) (tok : Token) : Bool :=
  tok.isString && decide (tok.span.line ≤ n ∧ n < tok.span.lastLine)

/-- The lines that end between two tokens, as far as strings are concerned. -/
def Uncut (toks : List Token) (n : Nat) : Prop := ∀ tok ∈ toks, tok.goesOver n = false

/-- The line of a reader and the line ends to come make one number along the text. -/
theorem Cursor.line_add_count_skip (c : Cursor) (n : Nat) :
    (c.skip n).line + (c.skip n).rest.count '\n' = c.line + c.rest.count '\n' := by
  induction n generalizing c with
  | zero => rfl
  | succ n ih =>
    rw [skip, ih, next]
    split
    case h_1 hrest => rw [hrest]
    case h_2 a rest hrest =>
      rw [hrest]
      split
      case isTrue ha =>
        rw [ha, List.count_cons_self]
        dsimp only
        omega
      case isFalse ha => rw [List.count_cons_of_ne ha]

namespace LexState

variable {s t stop : LexState} {x r : List Char}

theorem line_add_count_of_step (h : s.step = some t) :
    t.cursor.line + t.cursor.rest.count '\n' = s.cursor.line + s.cursor.rest.count '\n' := by
  obtain ⟨n, hn⟩ := exists_skip_of_step h
  rw [hn, Cursor.line_add_count_skip]

theorem line_add_count_of_reaches (h : Reaches s t) :
    t.cursor.line + t.cursor.rest.count '\n' = s.cursor.line + s.cursor.rest.count '\n' := by
  induction h with
  | refl => rfl
  | tail _ hstep ih => rw [line_add_count_of_step hstep, ih]

/-- A string that is found before the end of a line and ends behind it goes over it. -/
theorem goesOver_of_findsString {tok : Token} (hrest : s.cursor.rest = x ++ '\n' :: r)
    (hstep : s.step = some t) (hpast : t.cursor.rest <:+ r) (hstring : tok.isString = true)
    (hline : tok.span.line = s.cursor.line) (hlast : tok.span.lastLine = t.cursor.line) :
    tok.goesOver (s.cursor.line + x.count '\n') = true := by
  have hcount := line_add_count_of_step hstep
  have hle := hpast.sublist.count_le '\n'
  rw [hrest, List.count_append, List.count_cons_self] at hcount
  rw [Token.goesOver, hstring, hline, hlast, Bool.true_and, decide_eq_true_iff]
  omega

theorem exists_reaches_line (h : Reaches s stop) (hstop : stop.cursor.rest = [])
    (hrest : s.cursor.rest = x ++ '\n' :: r) (hx : x.getLast? ≠ some '\\')
    (huncut : Uncut stop.done (s.cursor.line + x.count '\n')) :
    ∃ m, Reaches s m ∧ Reaches m stop ∧ m.cursor.rest = '\n' :: r ∧ m.atLineStart = false := by
  induction h using Relation.ReflTransGen.head_induction_on generalizing x with
  | refl =>
    rw [hstop] at hrest
    cases x <;> cases hrest
  | @head s t hstep hreach ih =>
    by_cases hend : x = [] ∧ s.atLineStart = false
    · obtain ⟨rfl, hstart⟩ := hend
      exact ⟨s, .refl, .head hstep hreach, hrest, hstart⟩
    have hbefore : x ≠ [] ∨ s.atLineStart = true := by
      rwa [not_and_or, Bool.not_eq_false] at hend
    have hafter : '\n' :: r <:+ t.cursor.rest := by
      rcases step_before_line hrest hx hbefore hstep with hafter | hfinds
      · exact hafter
      obtain ⟨tok, hdone, hstring, hline, hlast⟩ := hfinds
      have hline' : '\n' :: r <:+ s.cursor.rest := hrest ▸ List.suffix_append x _
      rcases List.suffix_or_suffix_of_suffix hline' (suffix_step hstep) with hafter | hpast
      · exact hafter
      rcases List.suffix_cons_iff.mp hpast with heq | hpast
      · exact heq ▸ List.suffix_rfl
      -- the string would go over the line end
      have hmem : tok ∈ stop.done :=
        (suffix_done_of_reaches hreach).subset (hdone ▸ List.mem_cons_self)
      have hover := goesOver_of_findsString hrest hstep hpast hstring hline hlast
      rw [huncut tok hmem] at hover
      cases hover
    obtain ⟨y, hy⟩ := hafter
    have hsuffix : y <:+ x := List.suffix_append_self_iff.mp (hy ▸ hrest ▸ suffix_step hstep)
    have hcount := line_add_count_of_step hstep
    rw [← hy, hrest, List.count_append, List.count_append, ← Nat.add_assoc, ← Nat.add_assoc,
      Nat.add_right_cancel_iff] at hcount
    obtain ⟨m, hm, hstop⟩ := ih hy.symm (getLast?_ne_of_suffix hsuffix hx) (hcount ▸ huncut)
    exact ⟨m, .head hstep hm, hstop⟩

theorem Reaches.of_step (h : Reaches s stop) (hstep : s.step = some t) (hne : s ≠ stop) :
    Reaches t stop := by
  rcases Relation.ReflTransGen.cases_head h with rfl | ⟨m, hm, hafter⟩
  · exact absurd rfl hne
  · rw [hstep] at hm
    cases hm
    exact hafter

theorem atLineStart_endLine (s : LexState) : s.endLine.atLineStart = true := by
  unfold endLine
  split <;> rfl

theorem step_eq_endLine (hrest : s.cursor.rest = '\n' :: r) (hstart : s.atLineStart = false) :
    s.step = some s.endLine := by
  unfold step inLine
  rw [hstart, if_neg Bool.false_ne_true, hrest]
  rfl

theorem reaches_blankLine (hrest : s.cursor.rest = '\n' :: r) (hstart : s.atLineStart = true) :
    Reaches s { s with cursor := s.cursor.next, isBlankLine := true } := by
  let m : LexState := { s with atLineStart := false, isBlankLine := true }
  have hskip : s.cursor.skipTo s.cursor.rest = s.cursor := by
    rw [Cursor.skipTo, Nat.sub_self]
    rfl
  have hfirst : s.step = some m := by
    have hmeasure : measure ⟨0, 0⟩ 0 s.cursor.rest = some (⟨0, 0⟩, 0, s.cursor.rest) := by
      rw [hrest]
      exact measure_cons rfl
    unfold step startLine
    rw [if_pos hstart, hmeasure]
    dsimp only
    rw [hskip, hrest, if_pos (.inl (.inr rfl))]
    rfl
  have hsecond : m.step = some m.endLine := step_eq_endLine hrest rfl
  have hend : m.endLine = { s with cursor := s.cursor.next, isBlankLine := true } := by
    unfold endLine
    rw [if_pos (.inl rfl)]
    dsimp only [m]
    rw [hstart]
  rw [← hend]
  exact .head hfirst (.single hsecond)

end LexState

/-! ### Texts with blank lines added -/

/-- Texts of which the second one has more blank lines, after lines whose numbers are of a kind.
The first number is the line on which the texts start. -/
inductive Spaced (P : Nat → Prop) : Nat → List Char → List Char → Prop
  | same (n : Nat) (x : List Char) : Spaced P n x x
  | gap {n : Nat} {x r r' : List Char} (k : Nat) (hx : x.getLast? ≠ some '\\')
      (hP : P (n + x.count '\n')) (h : Spaced P (n + x.count '\n' + 1) r r') :
      Spaced P n (x ++ '\n' :: r) (x ++ '\n' :: (List.replicate k '\n' ++ r'))

section Spaced

open LexState

variable [Dialect] {F : Places} {s s' stop : LexState}

theorem Near.moved {A B x y : List Char} (h : Near F (y ++ A) (y ++ B) x s s') :
    Near F A B (x ++ y) s s' :=
  { h with
    rest := by rw [h.rest, List.append_assoc]
    rest' := by rw [h.rest', List.append_assoc] }

/-- Blank lines at the start of a line do not matter. -/
theorem Near.pastBlankLines {k : Nat} {r r' : List Char}
    (h : Near F r (List.replicate k '\n' ++ r') [] s s') (hstart : s.atLineStart = true) :
    ∃ t', Reaches s' t' ∧ Near F r r' [] s t' := by
  induction k generalizing s' with
  | zero => exact ⟨s', .refl, h⟩
  | succ k ih =>
    have hrest' : s'.cursor.rest = '\n' :: (List.replicate k '\n' ++ r') := h.rest'
    have hpass := reaches_blankLine hrest' (h.atLineStart ▸ hstart)
    have hnext : Near F r (List.replicate k '\n' ++ r') [] s
        { s' with cursor := s'.cursor.next, isBlankLine := true } :=
      { h with
        rest' := by rw [Cursor.rest_next, hrest']; rfl
        isBlankLine := by
          intro hinside
          rw [hstart] at hinside
          cases hinside }
    obtain ⟨t', ht', hnear⟩ := ih hnext
    exact ⟨t', hpass.trans ht', hnear⟩

/-- Readers of such texts come to the ends of the texts in near states. -/
theorem Spaced.reaches {P : Nat → Prop} {n : Nat} {z z' : List Char} (h : Spaced P n z z')
    (hP : ∀ n, P n → Uncut stop.done n) (hreach : Reaches s stop) (hstop : stop.cursor.rest = [])
    (hline : s.cursor.line = n) (hnear : Near F z z' [] s s') :
    ∃ stop', Reaches s' stop' ∧ Near F [] [] [] stop stop' := by
  induction h generalizing s s' with
  | same n x =>
    rw [← List.append_nil x] at hnear
    exact hnear.moved.reaches .nil hreach (hstop.trans (List.append_nil []).symm)
  | @gap n x r r' k hx hn h ih =>
    have hrest : s.cursor.rest = x ++ '\n' :: r := hnear.rest
    obtain ⟨m, hm, hmstop, hmrest, hmstart⟩ :=
      exists_reaches_line hreach hstop hrest hx (hline ▸ hP _ hn)
    obtain ⟨m', hm', hmnear⟩ :=
      hnear.moved.reaches (.line r _) hm (hmrest.trans (List.nil_append _).symm)
    -- both readers take the line end, and one of them the blank lines
    have hend : Near F r (List.replicate k '\n' ++ r') ['\n'] m m' :=
      Near.moved (x := []) (y := ['\n']) hmnear
    obtain ⟨t', ht', hnext⟩ := (hend.endLine hmstart).pastBlankLines (atLineStart_endLine m)
    have hstep := step_eq_endLine hmrest hmstart
    have hstep' := step_eq_endLine hmnear.rest' (hmnear.atLineStart ▸ hmstart)
    have hafter : Reaches m.endLine stop := by
      refine hmstop.of_step hstep ?_
      rintro rfl
      rw [hstop] at hmrest
      cases hmrest
    have hcount := line_add_count_of_reaches hm
    have hcount' := line_add_count_of_step hstep
    have hline' : m.endLine.cursor.line = n + x.count '\n' + 1 := by
      rw [rest_endLine] at hcount'
      rw [hmrest, hrest, List.count_append] at hcount
      rw [hmrest, List.tail_cons] at hcount'
      rw [List.count_cons_self] at hcount hcount'
      omega
    obtain ⟨stop', hstop', hnear'⟩ := ih hafter hline' hnext
    exact ⟨stop', hm'.trans (.head hstep' (ht'.trans hstop')), hnear'⟩

/-- Blank lines between the lines of a text leave its tokens as they are. -/
theorem exists_tokens_of_spaced {text text' : List Char} {toks : List Token}
    (h : tokensAt 1 0 text = some toks) (hspaced : Spaced (Uncut toks) 1 text text') (F : Places) :
    ∃ toks', tokensAt 1 0 text' = some toks' ∧ List.Forall₂ (TokenLike .same F) toks toks' := by
  obtain ⟨stop, hreach, hleft, hbrackets, rfl⟩ := tokensAt_eq_some_iff.mp h
  have huncut (n : Nat) (hn : Uncut stop.done.reverse n) : Uncut stop.done n :=
    fun tok htok => hn tok (List.mem_reverse.mpr htok)
  obtain ⟨stop', hstop', hend⟩ := hspaced.reaches huncut hreach (left_eq_zero.mp hleft).1 rfl
    (near_start F 1 0 1 0 text text' [])
  exact ⟨_, hend.tokens hstop' hleft hbrackets⟩

end Spaced

end Restyle.Syntax
