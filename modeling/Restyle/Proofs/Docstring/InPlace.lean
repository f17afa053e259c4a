import Restyle.Proofs.Docstring.Form
import Restyle.Proofs.Docstring.Replace
import Restyle.Proofs.Syntax.AlikeStatements
import Restyle.Proofs.Syntax.Positions

/-!
A docstring that is formatted in its place. If the content is found in a literal of its own, the
literal stays one literal: its quotes still close it, and all other tokens stay. So the text is
still a source, and its tree is alike.
-/

namespace Restyle

variable {s : List Char} {c : Char}

namespace Syntax

open LexState (stringBody)

variable {q : Char} {body mark rest : List Char}

/-! ### Closing quotes -/

theorem stringBody_parts {triple : Bool} {done : List Char} (htriple : triple = true)
    (h : stringBody q triple done s = some (body, rest)) :
    done.reverse ++ s = body ++ q :: q :: q :: rest := by
  fun_induction stringBody q triple done s with
  | case1 => cases h
  | case2 done c s ih => simpa using ih h
  | case3 => cases h
  | case4 done s hsingle => simp [htriple] at hsingle
  | case5 done s _ htake =>
    cases h
    rw [← List.take_append_drop 2 s, htake]
    simp
  | case6 done s _ _ _ htake ih => simpa using ih h
  | case7 => cases h
  | case8 done c s _ _ hc hline ih => simpa using ih h

theorem prefix_iff_take (s tail : List Char) :
    [q, q] <+: s ++ [q, q] ↔ (s ++ q :: q :: q :: tail).take 2 = [q, q] := by
  match s with
  | [] => simp
  | [d] => simp [List.cons_prefix_cons, eq_comm]
  | d :: e :: s => simp [List.cons_prefix_cons, eq_comm]

/-- Without backslashes, three quotes close a text if it has no three quotes in a row. -/
theorem stringBody_eq_some_iff (hq : q ≠ '\\') (hs : '\\' ∉ s) (done tail : List Char) :
    stringBody q true done (s ++ q :: q :: q :: tail) = some (done.reverse ++ s, tail) ↔
      ¬ [q, q, q] <:+: s ++ [q, q] := by
  induction s generalizing done with
  | nil =>
    rw [List.nil_append, stringBody_cons hq]
    simp [List.infix_cons_iff]
  | cons c s ih =>
    rw [List.mem_cons, not_or] at hs
    have hnext := ih hs.2 (c :: done)
    rw [List.reverse_cons, List.append_assoc, List.singleton_append] at hnext
    rw [List.cons_append, stringBody_cons (Ne.symm hs.1), List.cons_append, List.infix_cons_iff,
      List.cons_prefix_cons, prefix_iff_take s tail]
    by_cases hc : c = q
    · subst hc
      by_cases htake : (s ++ c :: c :: c :: tail).take 2 = [c, c]
      · -- the quotes would close the text before its end
        simp [htake]
      · simpa [htake] using hnext
    · simpa [hc, Ne.symm hc] using hnext

/-- Line ends take no part in a row of quotes. -/
theorem replicate_prefix_unifyNewlines (hreturn : '\r' ≠ q) (hline : '\n' ≠ q) (n : Nat)
    (s : List Char) : List.replicate n q <+: Text.unifyNewlines s ++ [q, q] ↔
      List.replicate n q <+: s ++ [q, q] := by
  fun_induction Text.unifyNewlines s generalizing n with
  | case1 rest ih => cases n <;> simp [List.replicate_succ, hreturn.symm, hline.symm]
  | case2 rest hrest ih => cases n <;> simp [List.replicate_succ, hreturn.symm, hline.symm]
  | case3 c rest _ hc ih => cases n <;> simp [List.replicate_succ, ih]
  | case4 => rfl

theorem triple_infix_unifyNewlines (hreturn : '\r' ≠ q) (hline : '\n' ≠ q) (s : List Char) :
    [q, q, q] <:+: Text.unifyNewlines s ++ [q, q] ↔
      [q, q, q] <:+: s ++ [q, q] := by
  fun_induction Text.unifyNewlines s with
  | case1 rest ih =>
    rw [List.cons_append, List.cons_append, List.cons_append,
      Docstring.triple_infix_cons hline, Docstring.triple_infix_cons hreturn,
      Docstring.triple_infix_cons hline, ih]
  | case2 rest hrest ih =>
    rw [List.cons_append, List.cons_append, Docstring.triple_infix_cons hline,
      Docstring.triple_infix_cons hreturn, ih]
  | case3 c rest _ hc ih =>
    have hstarts := replicate_prefix_unifyNewlines hreturn hline 2 rest
    rw [List.cons_append, List.cons_append, List.infix_cons_iff, List.infix_cons_iff, ih,
      List.cons_prefix_cons, List.cons_prefix_cons]
    exact or_congr_left (and_congr_right fun _ => hstarts)
  | case4 => rfl

theorem unescape_eq_some [Dialect] {isBytes isRaw : Bool} (h : '\\' ∉ s) :
    unescape isBytes isRaw s = some s := by
  have hfrom : unescapeFrom isBytes 0 s = some s := by
    induction s with
    | nil => rfl
    | cons c s ih =>
      rw [List.mem_cons, not_or] at h
      rw [unescapeFrom, if_neg (Ne.symm h.1), ih h.2]
      rfl
  unfold unescape
  split
  · rfl
  · exact hfrom

/-! ### Literals with plain marks -/

/-- The marks that a docstring may have before its quotes. -/
def plainMarks : List (List Char) := ["", "r", "R", "u", "U"].map String.toList

theorem readable_literal [Dialect] (hmark : mark ∈ plainMarks) (hbody : '\\' ∉ body)
    (start : Cursor) : Readable (LexState.literal mark body start) where
  isBytes := by
    have hall : ∀ mark ∈ plainMarks, (mark.map Char.toLower).contains 'b' = false := by decide
    exact hall mark hmark
  isFormat := by
    have hall : ∀ mark ∈ plainMarks, (mark.map Char.toLower).contains 'f' = false := by decide
    exact hall mark hmark
  text := by
    have hplain : '\\' ∉ (LexState.literal mark body start).body := hbody
    rw [unescape_eq_some hplain]
    rfl

/-- A reader takes a literal whose mark is plain. -/
theorem step_eq_stringToken {s : LexState} (hmark : mark ∈ plainMarks)
    (hq : LexState.isQuote q = true) (hstart : s.atLineStart = false)
    (hrest : s.cursor.rest = mark ++ q :: rest) : s.step = s.stringToken mark q := by
  unfold LexState.step LexState.inLine LexState.wordToken
  rw [hstart, if_neg nofun, hrest]
  simp only [plainMarks, List.map_cons, List.map_nil, List.mem_cons, List.not_mem_nil,
    or_false] at hmark
  rcases hmark with rfl | rfl | rfl | rfl | rfl <;> rcases eq_of_isQuote hq with rfl | rfl <;> rfl

theorem prepare_append (hreturn : c ≠ '\r') (hline : c ≠ '\n') (x y : List Char) :
    prepare (x ++ c :: y) = Text.unifyNewlines x ++ prepare (c :: y) := by
  have hunify : Text.unifyNewlines (x ++ c :: y) =
      Text.unifyNewlines x ++ c :: Text.unifyNewlines y := by
    rw [Text.unifyNewlines_append (by simpa using hline), Text.unifyNewlines_cons hreturn]
  unfold prepare
  dsimp only
  rw [hunify, Text.unifyNewlines_cons hreturn, List.getLast?_append_of_ne_nil _ (by simp)]
  split <;> simp

theorem exists_prepare_quotes (hreturn : q ≠ '\r') (hline : q ≠ '\n') (after : List Char) :
    ∃ rest, prepare (q :: q :: q :: after) = q :: q :: q :: rest := by
  have hcons (y : List Char) : prepare (q :: q :: y) = q :: prepare (q :: y) := by
    have hone := prepare_append hreturn hline [q] y
    rwa [Text.unifyNewlines_cons hreturn] at hone
  have hlast : ∃ rest, prepare (q :: after) = q :: rest := by
    unfold prepare
    rw [Text.unifyNewlines_cons hreturn]
    dsimp only
    split
    · exact ⟨_, rfl⟩
    · exact ⟨_, rfl⟩
  obtain ⟨rest, hrest⟩ := hlast
  exact ⟨rest, by rw [hcons, hcons, hrest]⟩

/-- A text with a literal in it, as the reader sees it. -/
theorem prepare_literal (hreturn : q ≠ '\r') (hline : q ≠ '\n') (hmark : mark ∈ plainMarks)
    (before after : List Char) :
    ∃ rest, ∀ body, prepare (before ++ mark ++ [q, q, q] ++ body ++ [q, q, q] ++ after) =
      Text.unifyNewlines before ++
        (mark ++ q :: q :: q :: (Text.unifyNewlines body ++ q :: q :: q :: rest)) := by
  obtain ⟨rest, hrest⟩ := exists_prepare_quotes hreturn hline after
  refine ⟨rest, fun body => ?_⟩
  have hplain : ∀ mark ∈ plainMarks, Text.unifyNewlines mark = mark ∧
      mark.head? ≠ some '\n' := by decide
  obtain ⟨hsame, hhead⟩ := hplain mark hmark
  have hopen : Text.unifyNewlines (q :: q :: q :: body) =
      q :: q :: q :: Text.unifyNewlines body := by
    rw [Text.unifyNewlines_cons hreturn, Text.unifyNewlines_cons hreturn,
      Text.unifyNewlines_cons hreturn]
  have hstart : (mark ++ q :: q :: q :: body).head? ≠ some '\n' := by
    cases mark with
    | nil => simpa using hline
    | cons c mark => simpa using hhead
  have hparts : before ++ mark ++ [q, q, q] ++ body ++ [q, q, q] ++ after =
      (before ++ (mark ++ q :: q :: q :: body)) ++ q :: q :: q :: after := by simp
  rw [hparts, prepare_append hreturn hline, hrest, Text.unifyNewlines_append hstart,
    Text.unifyNewlines_append (by simpa using hline), hsame, hopen]
  simp

theorem stringToken_eq {s : LexState} (hrest : s.cursor.rest = mark ++ q :: q :: q :: rest) :
    s.stringToken mark q = (stringBody q true [] rest).map fun r =>
      s.push (.string (LexState.literal mark r.1 (s.cursor.skipTo rest))) r.2 := by
  have hopened :
      LexState.openString q ((s.cursor.rest.drop mark.length).drop 1) = (true, rest) := by
    rw [hrest, List.drop_left]
    simp [LexState.openString]
  rw [LexState.stringToken, hopened]

/-- A token that is a literal for a text. -/
def Token.Holds [Dialect] (tok : Token) (text : List Char) : Prop :=
  ∃ lit, tok.kind = .string lit ∧ lit.isBytes = false ∧ lit.isFormat = false ∧
    unescape false lit.isRaw lit.body = some text

theorem holds_literal [Dialect] (hmark : mark ∈ plainMarks) (hbody : '\\' ∉ body) (start : Cursor)
    (span : Span) : Token.Holds ⟨.string (LexState.literal mark body start), span⟩ body :=
  have hreadable := readable_literal hmark hbody start
  ⟨_, rfl, hreadable.isBytes, hreadable.isFormat, unescape_eq_some hbody⟩

/-- Tokens that differ in one literal, which holds another text. -/
structure Rebodied [Dialect] (tok : Token) (old new : List Char) (toks toks' : List Token) :
    Prop where
  alike : List.Forall₂ (TokenLike .same fun line column => (line, column) = tok.place) toks toks'
  holds : tok.Holds old
  partner : ∃ (n : Nat) (tok' : Token), toks[n]? = some tok ∧ toks'[n]? = some tok' ∧
    tok'.Holds new

/-- Another body for a literal that stands alone leaves the other tokens as they are. -/
theorem exists_tokens_of_literal [Dialect] (hq : LexState.isQuote q = true)
    (hmark : mark ∈ plainMarks) {pre body' : List Char} {toks : List Token} {tok : Token}
    {lit : StringToken}
    (hkind : tok.kind = .string lit) (hlit : lit.body = body) (hplace : tok.place = placeAfter pre)
    (hmem : tok ∈ toks) (hbody : '\\' ∉ body) (hbody' : '\\' ∉ body')
    (htriple : ¬ [q, q, q] <:+: body ++ [q, q] → ¬ [q, q, q] <:+: body' ++ [q, q])
    (h : tokensAt 1 0 (pre ++ (mark ++ q :: q :: q :: (body ++ q :: q :: q :: rest))) = some toks) :
    ∃ toks', tokensAt 1 0 (pre ++ (mark ++ q :: q :: q :: (body' ++ q :: q :: q :: rest))) =
      some toks' ∧ Rebodied tok body body' toks toks' := by
  have hbackslash : q ≠ '\\' := by
    rcases eq_of_isQuote hq with rfl | rfl <;> decide
  have hstring : tok.isString = true := by
    rw [Token.isString, hkind]
  obtain ⟨stop, s, t, hfinds, hrest, hleft, hbrackets, rfl⟩ :=
    exists_finds_of_tokensAt h hmem hstring hplace
  -- the reader takes the literal up to its closing quotes
  have hstep := hfinds.step
  rw [step_eq_stringToken hmark hq hfinds.atLineStart hrest, stringToken_eq hrest] at hstep
  obtain ⟨⟨taken, left⟩, htaken, rfl⟩ := Option.map_eq_some_iff.mp hstep
  have htoken : tok = ⟨.string (LexState.literal mark taken _), _⟩ :=
    (List.cons.inj hfinds.done).1.symm
  have hsame : taken = body := by
    rw [htoken] at hkind
    cases hkind
    exact hlit
  subst hsame
  have hparts := stringBody_parts rfl htaken
  have hleft' : left = rest := by
    simpa using hparts.symm
  subst hleft'
  have hclosed := (stringBody_eq_some_iff hbackslash hbody [] left).mp htaken
  have htaken' := (stringBody_eq_some_iff hbackslash hbody' [] left).mpr (htriple hclosed)
  -- the other reader comes to the same place, and takes the other literal
  let A := q :: q :: q :: (taken ++ q :: q :: q :: left)
  let B := q :: q :: q :: (body' ++ q :: q :: q :: left)
  have hseam : Seam A B := .quotes hq _ _
  let F : Places := fun line column => (line, column) = tok.place
  have hstart := near_start F 1 0 1 0 A B (pre ++ mark)
  rw [List.append_assoc, List.append_assoc] at hstart
  obtain ⟨s', hreach, hnear⟩ := hstart.reaches hseam hfinds.before hrest
  have hstep' := step_eq_stringToken hmark hq (hnear.atLineStart ▸ hfinds.atLineStart) hnear.rest'
  rw [stringToken_eq hnear.rest', htaken', Option.map_some] at hstep'
  have hsuffix (body : List Char) : left <:+ mark ++ q :: q :: q :: (body ++ q :: q :: q :: left) :=
    ⟨mark ++ q :: q :: q :: (body ++ [q, q, q]), by simp⟩
  have hnext (start start' : Cursor) :=
    hnear.pushPast (hrest ▸ hsuffix taken) (hnear.rest' ▸ hsuffix body')
      (.changed hfinds.place.symm (readable_literal hmark hbody start)
        (readable_literal hmark hbody' start'))
  -- after the literals the texts are the same
  obtain ⟨stop', hafter, hend⟩ := (hnext _ _).reaches .nil hfinds.after (List.append_nil _).symm
  obtain ⟨htokens', halike⟩ := hend.tokens (hreach.trans (.head hstep' hafter)) hleft hbrackets
  have hindex {u stop : LexState} {tok : Token} {later : List Token}
      (hlater : later ++ tok :: u.done = stop.done) :
      stop.done.reverse[u.done.length]? = some tok := by
    rw [← hlater]
    simp
  obtain ⟨later, hlater⟩ := LexState.suffix_done_of_reaches hfinds.after
  obtain ⟨later', hlater'⟩ := LexState.suffix_done_of_reaches hafter
  rw [hfinds.done] at hlater
  have hpartner := hindex hlater'
  rw [← hnear.done.length_eq] at hpartner
  exact ⟨_, htokens', halike, htoken ▸ holds_literal hmark hbody _ _, _, _, hindex hlater, hpartner,
    holds_literal hmark hbody' _ _⟩

end Syntax

namespace Docstring

open Syntax

/-- A match that is a literal of its own: one token of the text has the match as its quotes and its
body, after at most a plain mark, and no string stands next to it. -/
structure OwnToken (source : List Char) (m : Pattern.Match) where
  toks : List Token
  tokens_eq : tokens source = some toks
  token : Token
  mem : token ∈ toks
  literal : StringToken
  kind_eq : token.kind = .string literal
  before : List Char
  mark : List Char
  mark_mem : mark ∈ plainMarks
  skipped_eq : m.skipped = before ++ mark
  place_eq : token.place = placeAfter (Text.unifyNewlines before)
  quotes : List Char
  quotes_mem : quotes ∈ quoteMarks
  text_eq : Text.unifyNewlines m.text = quotes ++ literal.body ++ quotes
  alone : Standalone (fun line column => (line, column) = token.place) toks

def OwnToken.places {source : List Char} {m : Pattern.Match} (own : OwnToken source m) : Places :=
  fun line column => (line, column) = own.token.place

section Splices

variable {source text old : List Char} {m : Pattern.Match}

theorem backslash_notMem_format (h : '\\' ∉ old) : '\\' ∉ format old := by
  intro hmem
  have hold : ∀ c ∈ old, c ≠ '\\' := fun c hc heq => h (heq ▸ hc)
  refine forall_mem_format (P := (· ≠ '\\')) (by decide) ?_ hold _ hmem rfl
  rintro c hc rfl
  cases hc

/-- Blanks and line ends bring no backslash into the body of a literal. -/
theorem backslash_notMem (splice : Splice source text old (format old)) {content : List Char}
    (h : '\\' ∉ content) :
    '\\' ∉ Text.unifyNewlines (splice.left ++ content ++ splice.right) := by
  intro hmem
  rcases Text.mem_unifyNewlines hmem with hbody | hline
  · simp only [List.mem_append] at hbody
    have hleft := Text.notMem_of_blank (c := '\\') (by decide) splice.left_blank
    have hright := Text.notMem_of_blank (c := '\\') (by decide) splice.right_blank
    tauto
  · cases hline

/-- The two texts as the reader sees them: they differ in the body of one literal. -/
theorem exists_prepare_splice (own : OwnToken source m)
    (splice : Splice source text old (format old)) (hskipped : m.skipped = splice.before) :
    ∃ q rest, LexState.isQuote q = true ∧ splice.quotes = [q, q, q] ∧
      prepare source = Text.unifyNewlines own.before ++ (own.mark ++ q :: q :: q ::
        (Text.unifyNewlines (splice.left ++ old ++ splice.right) ++ q :: q :: q :: rest)) ∧
      prepare text = Text.unifyNewlines own.before ++ (own.mark ++ q :: q :: q ::
        (Text.unifyNewlines (splice.left ++ format old ++ splice.right) ++
          q :: q :: q :: rest)) := by
  obtain ⟨q, hq, hquotes⟩ : ∃ q, LexState.isQuote q = true ∧ splice.quotes = [q, q, q] := by
    rcases List.mem_cons.mp splice.mem with h | h
    · exact ⟨'"', rfl, h⟩
    · exact ⟨Text.singleQuote, rfl, List.mem_singleton.mp h⟩
  have hends : q ≠ '\r' ∧ q ≠ '\n' := by
    rcases eq_of_isQuote hq with rfl | rfl <;> decide
  obtain ⟨rest, hprepare⟩ := prepare_literal hends.1 hends.2 own.mark_mem own.before splice.after
  have hbefore : splice.before = own.before ++ own.mark := hskipped.symm.trans own.skipped_eq
  refine ⟨q, rest, hq, hquotes, ?_, ?_⟩
  · rw [← hprepare]
    refine congrArg prepare (splice.source_eq.trans ?_)
    rw [hbefore, hquotes]
    simp
  · rw [← hprepare]
    refine congrArg prepare (splice.text_eq.trans ?_)
    rw [hbefore, hquotes]
    simp

theorem OwnToken.body_eq (own : OwnToken source m) {q : Char} {content : List Char}
    (hreturn : q ≠ '\r') (hline : q ≠ '\n') (htext : m.text = [q, q, q] ++ content ++ [q, q, q]) :
    own.literal.body = Text.unifyNewlines content := by
  have hunify : own.quotes ++ (own.literal.body ++ own.quotes) =
      [q, q, q] ++ (Text.unifyNewlines content ++ [q, q, q]) := by
    rw [← List.append_assoc, ← own.text_eq, htext, List.append_assoc]
    simp only [List.cons_append, List.nil_append, Text.unifyNewlines_cons hreturn]
    rw [Text.unifyNewlines_append (by simpa using hline)]
    simp only [Text.unifyNewlines_cons hreturn]
    rfl
  -- the quotes are equally long, so what stands between them is the same
  have hlength : ∀ quotes ∈ quoteMarks, quotes.length = 3 := by decide
  obtain ⟨hsame, hrest⟩ := List.append_inj hunify (hlength _ own.quotes_mem)
  rw [hsame] at hrest
  exact List.append_cancel_right hrest

theorem null_notMem_of_splice (splice : Splice source text old (format old))
    (h : ∀ c ∈ source, c.toNat ≠ 0) : ∀ c ∈ text, c.toNat ≠ 0 := by
  have hform : (∀ c ∈ old, c.toNat ≠ 0) → ∀ c ∈ format old, c.toNat ≠ 0 := by
    refine forall_mem_format (P := (·.toNat ≠ 0)) (by decide) fun c hc hzero => ?_
    rw [← Char.ofNat_toNat c, hzero] at hc
    cases hc
  rw [splice.source_eq] at h
  rw [splice.text_eq]
  simp only [List.forall_mem_append] at h ⊢
  tauto

/-- Putting a docstring in form where it is found in a literal of its own leaves all the other
tokens as they are. -/
theorem exists_tokens_of_splice [Dialect] (own : OwnToken source m)
    (splice : Splice source text old (format old)) (hskipped : m.skipped = splice.before)
    (hmatch : m.text = splice.quotes ++ splice.left ++ old ++ splice.right ++ splice.quotes)
    (hold : '\\' ∉ old) :
    ∃ toks', tokens text = some toks' ∧ Rebodied own.token
      (Text.unifyNewlines (splice.left ++ old ++ splice.right))
      (Text.unifyNewlines (splice.left ++ format old ++ splice.right)) own.toks toks' := by
  obtain ⟨q, rest, hq, hquotes, hsource, htext⟩ := exists_prepare_splice own splice hskipped
  have hplain : q ≠ '\r' ∧ q ≠ '\n' ∧ '.' ≠ q ∧ Text.mayBeNameChar q = false ∧
      Text.isBlank q = false := by
    rcases eq_of_isQuote hq with rfl | rfl <;> decide
  obtain ⟨hreturn, hline, hperiod, hname, hblank⟩ := hplain
  obtain ⟨hnull, htokens⟩ := Option.ite_none_left_eq_some.mp own.tokens_eq
  rw [hsource] at htokens
  have hbody : own.literal.body = Text.unifyNewlines (splice.left ++ old ++ splice.right) :=
    own.body_eq hreturn hline (by rw [hmatch, hquotes]; simp)
  have htriple :
      ¬ [q, q, q] <:+: Text.unifyNewlines (splice.left ++ old ++ splice.right) ++ [q, q] →
      ¬ [q, q, q] <:+:
        Text.unifyNewlines (splice.left ++ format old ++ splice.right) ++ [q, q] := by
    rw [triple_infix_unifyNewlines hreturn.symm hline.symm,
      triple_infix_unifyNewlines hreturn.symm hline.symm]
    simp only [List.append_assoc]
    rw [triple_infix_append (Text.notMem_of_blank hblank splice.left_blank),
      triple_infix_append (Text.notMem_of_blank hblank splice.left_blank)]
    exact not_triple_format hname hperiod hline.symm
  obtain ⟨toks', htoks', halike⟩ := exists_tokens_of_literal hq own.mark_mem own.kind_eq hbody
    own.place_eq own.mem (backslash_notMem splice hold)
    (backslash_notMem splice (backslash_notMem_format hold)) htriple htokens
  refine ⟨toks', Option.ite_none_left_eq_some.mpr ⟨?_, ?_⟩, halike⟩
  · simpa using null_notMem_of_splice splice (by simpa using hnull)
  · rw [htext]
    exact htoks'

/-- The text is still a source then, and its tree is alike. -/
theorem exists_tree_of_splice [Dialect] {t : Tree} (ht : parse? source = some t)
    (own : OwnToken source m) (splice : Splice source text old (format old))
    (hskipped : m.skipped = splice.before)
    (hmatch : m.text = splice.quotes ++ splice.left ++ old ++ splice.right ++ splice.quotes)
    (hold : '\\' ∉ old) : ∃ t', parse? text = some t' ∧ TreeLike .same own.places t t' := by
  obtain ⟨toks', htoks', halike⟩ := exists_tokens_of_splice own splice hskipped hmatch hold
  have htree := rel_parse? own.tokens_eq htoks' halike.alike own.alone
  rw [ht] at htree
  generalize parse? text = x at htree ⊢
  cases htree with
  | some h => exact ⟨_, rfl, h⟩

end Splices

end Docstring

end Restyle
