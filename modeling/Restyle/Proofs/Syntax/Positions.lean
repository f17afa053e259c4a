import Restyle.Proofs.Syntax.Lexing

/-!
The places of tokens. A place is a line and a column, which follow from the text before it. Along a
text no two places are the same, so the place of a token tells what text the reader had before it
when it found the token.
-/

namespace Restyle.Syntax

def advance (p : Nat × Nat) (c : Char) : Nat × Nat :=
  if c = '\n' then (p.1 + 1, 0) else (p.1, p.2 + c.utf8Size)

/-- The place after a text that a source starts with. -/
def placeAfter (s : List Char) : Nat × Nat := s.foldl advance (1, 0)

def Token.place (t : Token) : Nat × Nat := (t.span.line, t.span.column)

/-! ### Places along a text -/

def Before (p q : Nat × Nat) : Prop := p.1 < q.1 ∨ p.1 = q.1 ∧ p.2 < q.2

theorem Before.trans {p q r : Nat × Nat} (h : Before p q) (k : Before q r) : Before p r := by
  unfold Before at *
  omega

theorem Before.ne {p q : Nat × Nat} (h : Before p q) : p ≠ q := by
  rintro rfl
  unfold Before at h
  omega

theorem before_advance (p : Nat × Nat) (c : Char) : Before p (advance p c) := by
  have hsize := c.utf8Size_pos
  unfold Before advance
  split <;> dsimp only <;> omega

theorem before_foldl_advance (p : Nat × Nat) (c : Char) (s : List Char) :
    Before p ((c :: s).foldl advance p) := by
  induction s generalizing p c with
  | nil => exact before_advance p c
  | cons d s ih => exact (before_advance p c).trans (ih (advance p c) d)

/-- A place is that of one position in the text only. -/
theorem eq_of_placeAfter_eq {a b text : List Char} (ha : a <+: text) (hb : b <+: text)
    (h : placeAfter a = placeAfter b) : a = b := by
  have hextended {a d : List Char} (h : placeAfter a = placeAfter (a ++ d)) : a = a ++ d := by
    cases d with
    | nil => exact (List.append_nil a).symm
    | cons c d =>
      rw [placeAfter, placeAfter, List.foldl_append] at h
      exact absurd h (before_foldl_advance _ c d).ne
  rcases List.prefix_or_prefix_of_prefix ha hb with ⟨d, rfl⟩ | ⟨d, rfl⟩
  · exact hextended h
  · exact (hextended h.symm).symm

namespace Cursor

def place (c : Cursor) : Nat × Nat := (c.line, c.column)

theorem place_skip (c : Cursor) (n : Nat) :
    (c.skip n).place = (c.rest.take n).foldl advance c.place := by
  induction n generalizing c with
  | zero => rfl
  | succ n ih =>
    rw [skip, ih, rest_next]
    cases hrest : c.rest with
    | nil =>
      have hnext : c.next = c := by rw [next, hrest]
      rw [hnext]
      simp
    | cons a rest =>
      have hnext : c.next.place = advance c.place a := by
        rw [next, hrest, advance]
        dsimp only
        split <;> rfl
      rw [hnext]
      rfl

theorem skip_skip (c : Cursor) (m n : Nat) : (c.skip m).skip n = c.skip (m + n) := by
  induction m generalizing c with
  | zero => rw [Nat.zero_add]; rfl
  | succ m ih => rw [Nat.succ_add, skip, skip, ih]

end Cursor

/-! ### The place of a reader -/

namespace LexState

variable {s t : LexState}

/-- A reader that goes on in the text, and finds at most one token, at the place where it was. -/
structure Advances (s t : LexState) : Prop where
  cursor : ∃ n, t.cursor = s.cursor.skip n
  done : t.done = s.done ∨ ∃ tok : Token, t.done = tok :: s.done ∧ tok.place = s.cursor.place

theorem advances_push (s : LexState) (k : TokenKind) (rest : List Char) :
    Advances s (s.push k rest) := ⟨⟨_, rfl⟩, .inr ⟨_, rfl, rfl⟩⟩

theorem advances_stringToken {mark : List Char} {q : Char} (h : s.stringToken mark q = some t) :
    Advances s t := by
  obtain ⟨r, -, rfl⟩ := Option.map_eq_some_iff.mp h
  exact advances_push s _ _

theorem advances_wordToken (h : s.wordToken = some t) : Advances s t := by
  have hplain {word rest : List Char} (h : wordToken.plain s word rest = some t) :
      Advances s t := by
    unfold wordToken.plain at h
    split at h
    · cases h
      exact advances_push s _ _
    · rw [Option.ite_none_right_eq_some] at h
      cases h.2
      exact advances_push s _ _
  unfold wordToken at h
  dsimp only at h
  split at h
  · split at h
    · exact advances_stringToken h
    · exact hplain h
  · exact hplain h

theorem advances_operatorToken (h : s.operatorToken = some t) : Advances s t := by
  unfold operatorToken at h
  split at h
  · cases h
  · obtain ⟨brackets, -, rfl⟩ := Option.map_eq_some_iff.mp h
    exact ⟨⟨_, rfl⟩, .inr ⟨_, rfl, rfl⟩⟩

theorem advances_endLine (s : LexState) : Advances s s.endLine := by
  unfold endLine
  split
  · exact ⟨⟨1, rfl⟩, .inl rfl⟩
  · exact ⟨⟨1, rfl⟩, .inr ⟨_, rfl, rfl⟩⟩

theorem advances_inLine (h : s.inLine = some t) : Advances s t := by
  unfold inLine at h
  split at h
  · cases h
    exact ⟨⟨0, rfl⟩, .inl rfl⟩
  split at h
  · cases h
    exact ⟨⟨1, rfl⟩, .inl rfl⟩
  split at h
  · cases h
    exact ⟨⟨_, rfl⟩, .inl rfl⟩
  split at h
  · cases h
    exact advances_endLine s
  split at h
  · obtain ⟨rest, -, rfl⟩ := Option.map_eq_some_iff.mp h
    exact ⟨⟨_, rfl⟩, .inl rfl⟩
  split at h
  · exact advances_stringToken h
  split at h
  · obtain ⟨r, -, rfl⟩ := Option.map_eq_some_iff.mp h
    exact advances_push s _ _
  split at h
  · obtain ⟨r, -, rfl⟩ := Option.map_eq_some_iff.mp h
    exact advances_push s _ _
  split at h
  · exact advances_wordToken h
  · exact advances_operatorToken h

/-- At the start of a line only the layout of lines is found. -/
theorem startLine_cases (h : s.startLine = some t) :
    (∃ n, t.cursor = s.cursor.skip n) ∧
      ∃ layout, t.done = layout ++ s.done ∧ ∀ tok ∈ layout, tok.isString = false := by
  unfold startLine at h
  split at h
  · cases h
  dsimp only at h
  split at h
  · cases h
    exact ⟨⟨_, rfl⟩, [], rfl, nofun⟩
  split at h
  · cases h
  case h_2 closed opened indents _ =>
    cases h
    refine ⟨⟨_, rfl⟩, _, rfl, ?_⟩
    intro tok htok
    rcases List.mem_append.mp htok with hdedent | hindent
    · rw [(List.mem_replicate.mp hdedent).2]
      rfl
    · cases opened with
      | false => cases hindent
      | true =>
        rw [List.mem_singleton.mp hindent]
        rfl

theorem exists_skip_of_step (h : s.step = some t) : ∃ n, t.cursor = s.cursor.skip n := by
  unfold step at h
  split at h
  · exact (startLine_cases h).1
  · exact (advances_inLine h).cursor

theorem exists_skip_of_reaches (h : Reaches s t) : ∃ n, t.cursor = s.cursor.skip n := by
  induction h with
  | refl => exact ⟨0, rfl⟩
  | tail _ hstep ih =>
    obtain ⟨m, hm⟩ := ih
    obtain ⟨n, hn⟩ := exists_skip_of_step hstep
    exact ⟨m + n, by rw [hn, hm, Cursor.skip_skip]⟩

theorem suffix_done_of_step (h : s.step = some t) : s.done <:+ t.done := by
  unfold step at h
  split at h
  · obtain ⟨layout, hdone, -⟩ := (startLine_cases h).2
    exact ⟨layout, hdone.symm⟩
  · rcases (advances_inLine h).done with hdone | ⟨tok, hdone, -⟩
    · exact hdone ▸ List.suffix_rfl
    · exact ⟨[tok], hdone.symm⟩

theorem suffix_done_of_reaches (h : Reaches s t) : s.done <:+ t.done := by
  induction h with
  | refl => exact List.suffix_rfl
  | tail _ hstep ih => exact ih.trans (suffix_done_of_step hstep)

/-- A string is found by one step, at the place of the reader. -/
theorem string_of_step {tok : Token} (h : s.step = some t) (htok : tok ∈ t.done)
    (hstring : tok.isString = true) :
    tok ∈ s.done ∨ s.atLineStart = false ∧ t.done = tok :: s.done ∧ tok.place = s.cursor.place := by
  unfold step at h
  split at h
  case isTrue =>
    obtain ⟨layout, hdone, hlayout⟩ := (startLine_cases h).2
    rw [hdone, List.mem_append] at htok
    rcases htok with hnew | hold
    · rw [hlayout tok hnew] at hstring
      cases hstring
    · exact .inl hold
  case isFalse hstart =>
    rcases (advances_inLine h).done with hdone | ⟨new, hdone, hplace⟩
    · exact .inl (hdone ▸ htok)
    · rw [hdone, List.mem_cons] at htok
      rcases htok with rfl | hold
      · exact .inr ⟨by simpa using hstart, hdone, hplace⟩
      · exact .inl hold

/-- A step on the way to a state, with the token that it finds. -/
structure Finds (start stop : LexState) (tok : Token) (s t : LexState) : Prop where
  before : Reaches start s
  step : s.step = some t
  after : Reaches t stop
  atLineStart : s.atLineStart = false
  done : t.done = tok :: s.done
  place : tok.place = s.cursor.place

/-- Every string that a reader has found was found by a step on its way. -/
theorem exists_finds {start stop : LexState} {tok : Token} (h : Reaches start stop)
    (htok : tok ∈ stop.done) (hstring : tok.isString = true) :
    tok ∈ start.done ∨ ∃ s t, Finds start stop tok s t := by
  induction h with
  | refl => exact .inl htok
  | @tail s t hreach hstep ih =>
    rcases string_of_step hstep htok hstring with hold | ⟨hstart, hdone, hplace⟩
    · rcases ih hold with hfirst | ⟨m, m', hfinds⟩
      · exact .inl hfirst
      · exact .inr ⟨m, m', { hfinds with after := hfinds.after.tail hstep }⟩
    · exact .inr ⟨s, t, hreach, hstep, .refl, hstart, hdone, hplace⟩

/-! ### Strings at different places -/

/-- A reader whose strings were found at places before it, each at another one. -/
structure Placed (s : LexState) : Prop where
  before : ∀ tok ∈ s.done, tok.isString = true → Before tok.place s.cursor.place
  nodup : ((s.done.filter (·.isString)).map Token.place).Nodup

theorem rest_lt_of_done {tok : Token} (h : s.step = some t) (hstart : s.atLineStart = false)
    (hdone : t.done = tok :: s.done) : t.cursor.rest.length < s.cursor.rest.length := by
  have hleft : 0 < s.left := by
    rw [Nat.pos_iff_ne_zero]
    intro hend
    obtain rfl := eq_of_reaches (.single h) hend
    exact List.cons_ne_self tok t.done hdone.symm
  have hless := left_step h hleft
  unfold left at hless
  rw [hstart] at hless
  simp only [Bool.false_eq_true, if_false] at hless
  omega

theorem place_of_step (h : s.step = some t) :
    t.cursor.place = s.cursor.place ∨ Before s.cursor.place t.cursor.place := by
  obtain ⟨n, hn⟩ := exists_skip_of_step h
  rw [hn, Cursor.place_skip]
  cases s.cursor.rest.take n with
  | nil => exact .inl rfl
  | cons c rest => exact .inr (before_foldl_advance _ c rest)

/-- A step finds no string, or one token at the place of the reader. -/
theorem filter_of_step (h : s.step = some t) :
    t.done.filter (·.isString) = s.done.filter (·.isString) ∨
      ∃ tok : Token, s.atLineStart = false ∧ t.done = tok :: s.done ∧
        tok.place = s.cursor.place := by
  unfold step at h
  split at h
  case isTrue =>
    obtain ⟨layout, hdone, hlayout⟩ := (startLine_cases h).2
    refine .inl ?_
    rw [hdone, List.filter_append, List.filter_eq_nil_iff.mpr, List.nil_append]
    simpa using hlayout
  case isFalse hstart =>
    rcases (advances_inLine h).done with hdone | ⟨tok, hdone, hplace⟩
    · exact .inl (by rw [hdone])
    · exact .inr ⟨tok, by simpa using hstart, hdone, hplace⟩

theorem Placed.step (h : Placed s) (hstep : s.step = some t) : Placed t := by
  have hlater {p : Nat × Nat} (hp : Before p s.cursor.place) : Before p t.cursor.place := by
    rcases place_of_step hstep with hsame | hbefore
    · rwa [hsame]
    · exact hp.trans hbefore
  rcases filter_of_step hstep with hsame | ⟨tok, hstart, hdone, hplace⟩
  · refine ⟨fun tok htok hstring => hlater (h.before tok ?_ hstring), by rw [hsame]; exact h.nodup⟩
    have hmem : tok ∈ t.done.filter (·.isString) := List.mem_filter.mpr ⟨htok, hstring⟩
    rw [hsame] at hmem
    exact (List.mem_filter.mp hmem).1
  · have hmoved : Before s.cursor.place t.cursor.place := by
      have hshort := rest_lt_of_done hstep hstart hdone
      obtain ⟨n, hn⟩ := exists_skip_of_step hstep
      rw [hn, Cursor.rest_skip, List.length_drop] at hshort
      rw [hn, Cursor.place_skip]
      cases htake : s.cursor.rest.take n with
      | nil =>
        have hzero := congrArg List.length htake
        rw [List.length_take, List.length_nil] at hzero
        omega
      | cons c rest => exact before_foldl_advance _ c rest
    constructor
    · intro tok' htok' hstring
      rw [hdone, List.mem_cons] at htok'
      rcases htok' with rfl | hold
      · rwa [hplace]
      · exact hlater (h.before tok' hold hstring)
    · rw [hdone, List.filter_cons]
      split
      · refine List.nodup_cons.mpr ⟨fun hmem => ?_, h.nodup⟩
        obtain ⟨tok', htok', hsame⟩ := List.mem_map.mp hmem
        obtain ⟨hold, hstring⟩ := List.mem_filter.mp htok'
        exact (h.before tok' hold hstring).ne (hsame.trans hplace)
      · exact h.nodup

theorem Placed.reaches (h : Placed s) (hreach : Reaches s t) : Placed t := by
  induction hreach with
  | refl => exact h
  | tail _ hstep ih => exact ih.step hstep

end LexState

theorem nodup_place_of_tokensAt {line column : Nat} {text : List Char} {toks : List Token}
    (h : tokensAt line column text = some toks) :
    ((toks.filter (·.isString)).map Token.place).Nodup := by
  obtain ⟨stop, hreach, -, -, rfl⟩ := tokensAt_eq_some_iff.mp h
  have hstart : LexState.Placed (.start line column text) := ⟨nofun, .nil⟩
  rw [List.filter_reverse, List.map_reverse, (List.reverse_perm _).nodup_iff]
  exact (hstart.reaches hreach).nodup

/-- A string of a text was found where the text goes on after the string's place. -/
theorem exists_finds_of_tokensAt {pre rest : List Char} {toks : List Token} {tok : Token}
    (h : tokensAt 1 0 (pre ++ rest) = some toks) (htok : tok ∈ toks)
    (hstring : tok.isString = true) (hplace : tok.place = placeAfter pre) :
    ∃ stop s t, LexState.Finds (.start 1 0 (pre ++ rest)) stop tok s t ∧ s.cursor.rest = rest ∧
      stop.left = 0 ∧ stop.brackets = [] ∧ stop.done.reverse = toks := by
  obtain ⟨stop, hreach, hleft, hbrackets, rfl⟩ := tokensAt_eq_some_iff.mp h
  rcases LexState.exists_finds hreach (List.mem_reverse.mp htok) hstring with hnone | ⟨s, t, hfinds⟩
  · cases hnone
  refine ⟨stop, s, t, hfinds, ?_, hleft, hbrackets, rfl⟩
  obtain ⟨n, hn⟩ := LexState.exists_skip_of_reaches hfinds.before
  -- the text before the reader is the text before the place
  have hbefore : (pre ++ rest).take n = pre := by
    refine eq_of_placeAfter_eq (List.take_prefix n _) (List.prefix_append pre rest) ?_
    rw [← hplace, hfinds.place, hn, Cursor.place_skip]
    rfl
  have hrest : s.cursor.rest = (pre ++ rest).drop n := by
    rw [hn, Cursor.rest_skip]
    rfl
  have hall : pre ++ (pre ++ rest).drop n = pre ++ rest := by
    nth_rewrite 1 [← hbefore]
    rw [List.take_append_drop]
  rw [hrest]
  exact List.append_cancel_left hall

end Restyle.Syntax
