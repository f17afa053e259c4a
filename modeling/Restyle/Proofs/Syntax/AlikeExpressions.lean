import Restyle.Proofs.Syntax.AlikeArguments
import Restyle.Proofs.Syntax.Literals
import Restyle.Proofs.Syntax.Rereading

/-!
The grammar on alike tokens: strings, atoms and expressions with operators. This is the place where
the contents of strings are read. Contents that are worded alike have alike parts, and the sources
of their fields are parsed in turn. A string with contents of any kind stands alone, so it becomes
one constant, with the string's place.
-/

open Restyle.Syntax.Parser

namespace Restyle.Syntax.Grammar

/-! ### Strings -/

variable [Dialect] {ν : NameLikeness} {F : Places} {r r' : Rules} {start start' : Span}

variable (hr : RulesLike ν r r')

theorem isVisible_eq {t u : Token} (h : TokenLike ν F t u) : t.isVisible = u.isVisible := by
  obtain ⟨k, s⟩ := t
  obtain ⟨k', s'⟩ := u
  cases h <;> rfl

theorem isString_eq {t u : Token} (h : TokenLike ν F t u) : t.isString = u.isString := by
  obtain ⟨k, s⟩ := t
  obtain ⟨k', s'⟩ := u
  cases h <;> rfl

theorem rel_fieldExpression (hr : RulesLike ν r r') {site : Site} {source source' : List Char}
    (hsource : Reworded ν site source source') (line column line' column' : Nat) :
    Option.Rel (TreeLike ν F) (fieldExpression r source line column)
      (fieldExpression r' source' line' column') := by
  have hbrackets :
      Reworded ν .plain ('(' :: source ++ [')', '\n']) ('(' :: source' ++ [')', '\n']) :=
    .mark (by decide) (hsource.toPlain.append (by decide) (by decide) (by decide)
      fun _ => .mark (by decide) (.mark (by decide) (.nil _)))
  have htoks := rel_tokensAt hbrackets line (column - 1) line' (column' - 1)
  unfold fieldExpression
  generalize tokensAt line (column - 1) ('(' :: source ++ [')', '\n']) = x at htoks ⊢
  generalize tokensAt line' (column' - 1) ('(' :: source' ++ [')', '\n']) = x' at htoks ⊢
  cases htoks with
  | none => exact .none
  | @some toks toks' htoks =>
    have hstate : StateLike ν .none ⟨toks, line⟩ ⟨toks', line'⟩ :=
      ⟨htoks, standalone_none toks⟩
    have htree := hr.starExpressions _ _ hstate
    dsimp only
    generalize r.starExpressions ⟨toks, line⟩ = y at htree ⊢
    generalize r'.starExpressions ⟨toks', line'⟩ = y' at htree ⊢
    cases htree with
    | none => exact .none
    | @some x x' hxx' =>
      obtain ⟨t, s⟩ := x
      obtain ⟨t', s'⟩ := x'
      obtain ⟨ht, hs⟩ := hxx'
      have hvisible := all_eq_of_forall₂ hs.tokens fun _ _ h => congrArg (!·) (isVisible_eq h)
      dsimp only at ht ⊢
      rw [hvisible]
      split
      · exact .some (ht.weaken (fun _ _ h => h.elim) _ _)
      · exact .none

omit [Dialect] in
theorem labelLike_text {free : Prop} {s t : List Char} (h : TextLike ν s t) :
    LabelLike ν free (.constant (.string (String.ofList s)))
      (.constant (.string (String.ofList t))) := by
  by_cases hν : ν = .same
  · rw [h.1 hν]
    exact .same rfl
  · exact .changed (.inr hν) _ _

omit [Dialect] in
theorem labelLike_bytes {free : Prop} {s t : List Char} (h : TextLike ν s t) :
    LabelLike ν free (.constant (.bytes (String.ofList s)))
      (.constant (.bytes (String.ofList t))) := by
  by_cases hν : ν = .same
  · rw [h.1 hν]
    exact .same rfl
  · exact .changedBytes hν _ _

omit [Dialect] in
theorem treesLike_textTree (span span' : Span) {s t : List Char} (h : TextLike ν s t) :
    TreesLike ν F (textTree span s) (textTree span' t) := by
  unfold textTree
  simp only [List.isEmpty_iff, h.2]
  split
  · exact .nil
  · exact .cons (.node _ (labelLike_text h) .nil rfl) .nil

mutual

theorem rel_partTrees (hr : RulesLike ν r r') (span span' : Span) :
    ∀ (pending pending' : List Char) (ps ps' : List FormatPart), TextLike ν pending pending' →
      PartsLike ν ps ps' →
      Option.Rel (TreesLike ν F) (partTrees r span pending ps) (partTrees r' span' pending' ps')
  | pending, pending', [], [], hpending, _ => by
    simp only [partTrees]
    exact .some (treesLike_textTree span span' hpending)
  | pending, pending', .text s :: ps, p' :: ps', hpending, h => by
    obtain ⟨hp, hps⟩ := List.forall₂_cons.mp h
    cases hp with
    | @text _ t hs =>
      simp only [partTrees]
      exact rel_partTrees hr span span' (pending ++ s) (pending' ++ t) ps ps'
        (hpending.append hs) hps
  | pending, pending', .field source line column conversion spec :: ps, p' :: ps', hpending, h => by
    obtain ⟨hp, hps⟩ := List.forall₂_cons.mp h
    cases hp with
    | @field site _ source' hsource _ _ line' column' _ _ spec' hspec =>
      simp only [partTrees]
      have hvalue : Option.Rel (TreeLike ν F) (fieldExpression r source line column)
          (fieldExpression r' source' line' column') :=
        rel_fieldExpression hr hsource line column line' column'
      have hformat : Option.Rel (TreesLike ν F) (specTrees r span spec)
          (specTrees r' span' spec') := rel_specTrees hr span span' spec spec' hspec
      refine rel_bind hvalue fun value value' hvalue => ?_
      refine rel_bind hformat fun format format' hformat => ?_
      refine rel_bind (rel_partTrees hr span span' [] [] ps ps' (.nil ν) hps)
        fun rest rest' hrest => ?_
      exact .some ((treesLike_textTree span span' hpending).append
        (.cons (.node _ (.same rfl) (.cons (hvalue.as _) hformat) rfl) hrest))

theorem rel_specTrees (hr : RulesLike ν r r') (span span' : Span) :
    ∀ spec spec' : Option (List FormatPart), Option.Rel (PartsLike ν) spec spec' →
      Option.Rel (TreesLike ν F) (specTrees r span spec) (specTrees r' span' spec')
  | none, none, _ => by
    simp only [specTrees]
    exact .some .nil
  | some parts, some parts', h => by
    cases h with
    | some h =>
      simp only [specTrees]
      exact rel_map (rel_partTrees hr span span' [] [] parts parts' (.nil ν) h) fun _ _ hts =>
        .single (.node _ (.same rfl) hts rfl)

end

theorem rel_literalParts {s t : StringToken} (h : LiteralLike ν s t) :
    Option.Rel (PartsLike ν) (literalParts s) (literalParts t) := by
  obtain ⟨site, hbody⟩ := h.body
  unfold literalParts
  rw [← h.isFormat, ← h.isBytes, ← h.isRaw]
  split
  · exact rel_formatParts h
  · exact rel_map (rel_unescape _ _ hbody) fun _ _ htext => .cons (.text htext) .nil

omit [Dialect] in
theorem textLike_plainText {ps ps' : List FormatPart} (h : PartsLike ν ps ps') :
    TextLike ν (plainText ps) (plainText ps') := by
  unfold plainText
  induction h with
  | nil => exact .nil ν
  | cons hp _ ih =>
    rw [List.flatMap_cons, List.flatMap_cons]
    cases hp with
    | text h => exact h.append ih
    | field => exact ih

omit [Dialect] in
theorem any_beyond_ascii {s t : StringToken} (h : LiteralLike ν s t) :
    s.body.any (·.toNat ≥ 128) = t.body.any (·.toNat ≥ 128) := by
  obtain ⟨site, hbody⟩ := h.body
  refine hbody.any_eq fun {w} hw => ?_
  rw [List.any_eq_false]
  intro c hc
  simpa using List.all_eq_true.mp hw.ascii c hc

theorem rel_joinLiterals (hr : RulesLike ν r r') (span span' : Span) {ls ls' : List StringToken}
    (h : List.Forall₂ (LiteralLike ν) ls ls') :
    Option.Rel (ReadLike ν F) (joinLiterals r span ls) (joinLiterals r' span' ls') := by
  refine rel_bind (rel_mapM h fun _ _ h => rel_literalParts h) fun parts parts' hparts => ?_
  have hflat : PartsLike ν parts.flatten parts'.flatten := List.rel_flatten hparts
  have htext := textLike_plainText hflat
  rw [all_eq_of_forall₂ h fun _ _ h => h.isBytes, any_eq_of_forall₂ h fun _ _ h => h.isBytes,
    any_eq_of_forall₂ h fun _ _ h => h.isFormat,
    any_eq_of_forall₂ h fun _ _ h => any_beyond_ascii h]
  split
  · split
    · exact .none
    · exact .some ⟨.node _ (labelLike_bytes htext) .nil rfl, rfl⟩
  split
  · exact .none
  split
  · exact rel_map (rel_partTrees hr span span' [] [] _ _ (.nil ν) hflat) fun _ _ hts =>
      ⟨.node _ (.same rfl) hts rfl, rfl⟩
  · exact .some ⟨.node _ (labelLike_text htext) .nil rfl, rfl⟩

theorem joinLiterals_single {s : StringToken} (h : Readable s) (span : Span) : ∃ text,
    joinLiterals r span [s] = some (.node (.constant (.string text)) .root span []) := by
  obtain ⟨text, htext⟩ := Option.isSome_iff_exists.mp h.text
  refine ⟨String.ofList text, ?_⟩
  simp [joinLiterals, literalParts, plainText, h.isBytes, h.isFormat, htext]

theorem literalLike_of_kindLike {free : Prop} {s t : StringToken}
    (h : KindLike ν free (.string s) (.string t)) (hfree : ¬ free) : LiteralLike ν s t := by
  cases h with
  | string h => exact h
  | changed h => exact absurd h hfree

/-- Whether the next tokens, if they are strings, are alike literals. -/
def AlikeNext (ν : NameLikeness) (s s' : ParseState) : Prop :=
  ∀ l l', s.tokens.head?.map (·.kind) = some (.string l) →
    s'.tokens.head?.map (·.kind) = some (.string l') → LiteralLike ν l l'

/-- A string after a string is not at one of the places, so its content is not free. -/
theorem alikeNext_tail {l l' : StringToken} {sp sp' : Span} {ts us : List Token} {n m : Nat}
    (hs : StateLike ν F ⟨⟨.string l, sp⟩ :: ts, n⟩ ⟨⟨.string l', sp'⟩ :: us, m⟩) (n' m' : Nat) :
    AlikeNext ν ⟨ts, n'⟩ ⟨us, m'⟩ := by
  intro k k' hk hk'
  obtain ⟨htokens, halone⟩ := hs
  obtain ⟨-, hrest⟩ := List.forall₂_cons.mp htokens
  cases hrest with
  | nil => cases hk
  | @cons t u ts us htu _ =>
    obtain ⟨_, st⟩ := t
    obtain ⟨_, su⟩ := u
    cases hk
    cases hk'
    have happart := (List.isChain_cons_cons.mp halone).1 rfl rfl
    exact literalLike_of_kindLike htu happart.2

theorem like_isString : Like ν F Eq isString isString :=
  like_kind?_bind (Like.pure rfl) fun h => by cases h <;> exact Like.pure rfl

theorem rel_go_strings (n : Nat) {s s' : ParseState} (hs : StateLike ν F s s')
    (hnext : AlikeNext ν s s') :
    Option.Rel (fun x y => List.Forall₂ (LiteralLike ν) x.1 y.1 ∧ StateLike ν F x.2 y.2)
      (repeatWhile.go isString stringLiteral n s) (repeatWhile.go isString stringLiteral n s') := by
  induction n generalizing s s' with
  | zero => exact (like_isString.branch Like.failure (Like.pure .nil)) s s' hs
  | succ n ih =>
    obtain ⟨ts, a⟩ := s
    obtain ⟨us, b⟩ := s'
    match ts, us, hs.tokens with
    | [], [], _ => exact .some ⟨.nil, hs⟩
    | ⟨k, sp⟩ :: ts, ⟨k', sp'⟩ :: us, .cons ht _ =>
      have hrest := hs.tail sp.lastLine sp'.lastLine
      have htake {l l' : StringToken} (hk : k = .string l) (hk' : k' = .string l') :
          Option.Rel (fun x y => List.Forall₂ (LiteralLike ν) x.1 y.1 ∧ StateLike ν F x.2 y.2)
            (repeatWhile.go isString stringLiteral (n + 1) ⟨⟨k, sp⟩ :: ts, a⟩)
            (repeatWhile.go isString stringLiteral (n + 1) ⟨⟨k', sp'⟩ :: us, b⟩) := by
        subst hk hk'
        refine rel_bind (ih hrest (alikeNext_tail hs _ _)) fun x y hxy => ?_
        exact .some ⟨.cons (hnext l l' rfl rfl) hxy.1, hxy.2⟩
      cases ht with
      | string _ => exact htake rfl rfl
      | changed _ _ _ => exact htake rfl rfl
      | _ => exact .some ⟨.nil, hs⟩

omit [Dialect] in
theorem repeatWhile_string {l : StringToken} {sp : Span} {ts : List Token} {n : Nat}
    (h : ∀ t ∈ ts.head?, t.isString = false) :
    repeatWhile isString stringLiteral ⟨⟨.string l, sp⟩ :: ts, n⟩ =
      some ([l], ⟨ts, sp.lastLine⟩) := by
  match ts, h with
  | [], _ => rfl
  | ⟨k, st⟩ :: ts, h =>
    have hk := h _ rfl
    cases k with
    | string => cases hk
    | _ => rfl

/-- What a list of literals may become: alike literals, or one that stands for another text. -/
inductive LiteralsLike (ν : NameLikeness) (free : Prop) : List StringToken → List StringToken → Prop
  | alike {ls ls' : List StringToken} (h : List.Forall₂ (LiteralLike ν) ls ls') :
      LiteralsLike ν free ls ls'
  | changed {l l' : StringToken} (h : free) (hl : Readable l) (hl' : Readable l') :
      LiteralsLike ν free [l] [l']

theorem rel_literals {t u : Token} {ts us : List Token} {n m : Nat}
    (hs : StateLike ν F ⟨t :: ts, n⟩ ⟨u :: us, m⟩) :
    Option.Rel (fun x y => LiteralsLike ν (t.StartsAt F) x.1 y.1 ∧ StateLike ν F x.2 y.2)
      (repeatWhile isString stringLiteral ⟨t :: ts, n⟩)
      (repeatWhile isString stringLiteral ⟨u :: us, m⟩) := by
  obtain ⟨k, sp⟩ := t
  obtain ⟨k', sp'⟩ := u
  have hsame (hnext : AlikeNext ν ⟨⟨k, sp⟩ :: ts, n⟩ ⟨⟨k', sp'⟩ :: us, m⟩) :
      Option.Rel (fun x y => LiteralsLike ν (F sp.line sp.column) x.1 y.1 ∧ StateLike ν F x.2 y.2)
        (repeatWhile isString stringLiteral ⟨⟨k, sp⟩ :: ts, n⟩)
        (repeatWhile isString stringLiteral ⟨⟨k', sp'⟩ :: us, m⟩) := by
    unfold repeatWhile
    rw [hs.tokens.length_eq]
    exact rel_imp (rel_go_strings _ hs hnext) fun _ _ h => ⟨.alike h.1, h.2⟩
  obtain ⟨htokens, halone⟩ := hs
  obtain ⟨ht, hrest⟩ := List.forall₂_cons.mp htokens
  cases ht with
  | string h =>
    apply hsame
    rintro l l' ⟨⟩ ⟨⟩
    exact h
  | changed hfree hl hl' =>
    -- a string that may differ stands alone, so no other one is joined to it
    have hlast : ∀ v ∈ ts.head?, v.isString = false := by
      intro v hv
      by_contra hstring
      obtain ⟨ts, rfl⟩ := List.head?_eq_some_iff.mp hv
      exact ((List.isChain_cons_cons.mp halone).1 rfl (by simpa using hstring)).1 hfree
    have hlast' : ∀ v ∈ us.head?, v.isString = false := by
      intro v hv
      cases hrest with
      | nil => cases hv
      | @cons t u ts us h _ =>
        cases hv
        rw [← isString_eq h]
        exact hlast t rfl
    rw [repeatWhile_string hlast, repeatWhile_string hlast']
    exact .some ⟨.changed hfree hl hl', StateLike.tail ⟨htokens, halone⟩ _ _⟩
  | _ =>
    apply hsame
    rintro l l' ⟨⟩

theorem like_strings (hr : RulesLike ν r r') : LikeRead ν F (strings r) (strings r') := by
  rintro ⟨ts, n⟩ ⟨us, m⟩ hs
  match ts, us, hs.tokens with
  | [], [], _ => exact .none
  | t :: ts, u :: us, _ =>
    refine rel_bind (rel_literals hs) fun x y hxy => ?_
    obtain ⟨hliterals, hstate⟩ := hxy
    refine like_lift ?_ _ _ hstate
    generalize x.1 = ls at hliterals ⊢
    generalize y.1 = ls' at hliterals ⊢
    cases hliterals with
    | alike h => exact rel_joinLiterals hr _ _ h
    | changed hfree hl hl' =>
      obtain ⟨text, htext⟩ := joinLiterals_single (r := r) hl
        ⟨t.span.line, t.span.column, x.2.lastLine⟩
      obtain ⟨text', htext'⟩ := joinLiterals_single (r := r') hl'
        ⟨u.span.line, u.span.column, y.2.lastLine⟩
      rw [htext, htext']
      exact .some ⟨.node _ (.changed (.inl hfree) text text') .nil rfl, rfl⟩

/-! ### Atoms -/

def ItemLike (ν : NameLikeness) (F : Places) (x y : Option Tree × Tree) : Prop :=
  Option.Rel (TreeLike ν F) x.1 y.1 ∧ TreeLike ν F x.2 y.2

theorem like_dictNode {items items' : List (Option Tree × Tree)}
    (h : List.Forall₂ (ItemLike ν F) items items') :
    LikeRead ν F (dictNode start items) (dictNode start' items') := by
  have hkeys : TreesLike ν F (items.filterMap (·.1)) (items'.filterMap (·.1)) :=
    List.rel_filterMap (fun _ _ h => h.1) h
  have hvalues : TreesLike ν F (items.map (·.2.as .value)) (items'.map (·.2.as .value)) :=
    List.rel_map (fun _ _ h => h.2.as _) h
  exact like_expr rfl ((hkeys.as _).append hvalues)

include hr

theorem like_roundAtom : LikeRead ν F (roundAtom r start) (roundAtom r' start') := by
  refine (like_acceptOp ")").branch (like_expr rfl .nil) ?_
  refine (like_isKeyword "yield").branch ?_ ?_
  · refine (like_yieldExpr hr).bind fun ht => ?_
    exact (like_op ")").seq (Like.pure ht)
  refine (like_isOp "*").bind_eq fun isStar => ?_
  refine (like_starNamed hr).bind fun hfirst => ?_
  refine like_isFor.bind_eq fun isFor => ?_
  refine Like.ite ?_ ((like_acceptOp ",").branch ?_ ?_)
  · refine (like_clauses hr).bind fun hgens => ?_
    refine (like_op ")").seq ?_
    exact like_expr rfl (.cons (hfirst.as _) hgens)
  · refine (like_itemsUpTo ")" (like_starNamed hr).tree).bind fun hrest => ?_
    refine (like_op ")").seq ?_
    exact like_expr rfl (TreesLike.as (.cons hfirst.tree hrest) _)
  · refine (like_guardThat _).seq ?_
    exact (like_op ")").seq (Like.pure hfirst)

theorem like_squareAtom : LikeRead ν F (squareAtom r start) (squareAtom r' start') := by
  refine (like_acceptOp "]").branch (like_expr rfl .nil) ?_
  refine (like_isOp "*").bind_eq fun isStar => ?_
  refine (like_starNamed hr).bind fun hfirst => ?_
  refine like_isFor.bind_eq fun isFor => ?_
  refine Like.ite ?_ ?_
  · refine (like_clauses hr).bind fun hgens => ?_
    refine (like_op "]").seq ?_
    exact like_expr rfl (.cons (hfirst.as _) hgens)
  · refine (like_moreItems "]" (like_starNamed hr).tree).bind fun hrest => ?_
    refine (like_op "]").seq ?_
    exact like_expr rfl (TreesLike.as (.cons hfirst.tree hrest) _)

theorem like_dictItem : Like ν F (ItemLike ν F) (dictItem r) (dictItem r') := by
  refine (like_acceptOp "**").branch ?_ ?_
  · exact hr.bitwiseOr.bind fun ht => Like.pure ⟨.none, ht.tree⟩
  · refine hr.expression.bind fun hkey => ?_
    refine (like_op ":").seq ?_
    exact hr.expression.bind fun ht => Like.pure ⟨.some hkey.tree, ht.tree⟩

theorem like_braceAtom : LikeRead ν F (braceAtom r start) (braceAtom r' start') := by
  refine (like_acceptOp _).branch (like_expr rfl .nil) ?_
  refine (like_isOp "**").branch ?_ ?_
  · refine (like_commaList (like_isOp _) (like_dictItem hr)).bind fun hitems => ?_
    exact (like_op _).seq (like_dictNode hitems.1)
  refine (like_isOp "*").bind_eq fun isStar => ?_
  refine like_isBinding.bind_eq fun isBound => ?_
  refine (like_starNamed hr).bind fun hfirst => ?_
  refine (like_isOp ":").bind_eq fun isPair => ?_
  refine Like.ite ?_ (like_isFor.bind_eq fun isFor => ?_)
  · refine (like_op ":").seq ?_
    refine hr.expression.bind fun hvalue => like_isFor.branch ?_ ?_
    · refine (like_clauses hr).bind fun hgens => (like_op _).seq ?_
      exact like_expr rfl (.cons (hfirst.as _) (.cons (hvalue.as _) hgens))
    · refine (like_moreItems _ (like_dictItem hr)).bind fun hrest => ?_
      refine (like_op _).seq ?_
      exact like_dictNode (.cons ⟨.some hfirst.tree, hvalue.tree⟩ hrest)
  refine Like.ite ?_ ?_
  · refine (like_clauses hr).bind fun hgens => (like_op _).seq ?_
    exact like_expr rfl (.cons (hfirst.as _) hgens)
  · refine (like_moreItems _ (like_starNamed hr).tree).bind fun hrest => ?_
    refine (like_op _).seq ?_
    exact like_expr rfl (TreesLike.as (.cons hfirst.tree hrest) _)

theorem like_atom : LikeRead ν F (atom r) (atom r') := by
  refine like_here.bind fun _ => ?_
  refine like_kind?_bind Like.failure fun hk => ?_
  cases hk with
  | name h => exact like_take.seq (like_read (.name h .load) .nil rfl)
  | number kind text => exact like_take.seq (like_expr rfl .nil)
  | string _ => exact like_strings hr
  | changed _ _ _ => exact like_strings hr
  | keyword k =>
    refine (like_lift (rel_eq (constantWord? k))).bind_eq fun value => ?_
    exact like_take.seq (like_expr rfl .nil)
  | op o =>
    refine like_take.seq ?_
    refine Like.ite (like_roundAtom hr) (Like.ite (like_squareAtom hr) ?_)
    refine Like.ite (like_braceAtom hr) ?_
    exact Like.ite (like_expr rfl .nil) Like.failure
  | newline => exact Like.failure
  | indent => exact Like.failure
  | dedent => exact Like.failure

/-! ### Operators -/

omit hr

theorem like_isTrailer : Like ν F Eq isTrailer isTrailer := by
  refine (like_isOp ".").bind_eq fun isDot => ?_
  refine (like_isOp "(").bind_eq fun isRound => ?_
  refine (like_isOp "[").bind_eq fun isSquare => ?_
  exact Like.pure rfl

theorem like_extendWhile {more more' : Parser Bool} {extend extend' : Tree → Parser Tree}
    (hmore : Like ν F Eq more more')
    (hextend : ∀ t t', ReadLike ν F t t' → LikeRead ν F (extend t) (extend' t')) {t t' : Tree}
    (ht : ReadLike ν F t t') :
    LikeRead ν F (extendWhile more extend t) (extendWhile more' extend' t') := by
  have hgo (n : Nat) {t t' : Tree} (ht : ReadLike ν F t t') :
      LikeRead ν F (extendWhile.go more extend n t)
        (extendWhile.go more' extend' n t') := by
    induction n generalizing t t' with
    | zero => exact hmore.branch Like.failure (Like.pure ht)
    | succ n ih => exact hmore.branch ((hextend _ _ ht).bind fun h => ih h) (Like.pure ht)
  intro s s' hs
  unfold extendWhile
  rw [hs.tokens.length_eq]
  exact hgo _ ht s s' hs

theorem like_leftAssoc (ops : List String) {p p' : Parser Tree} (hp : LikeRead ν F p p') :
    LikeRead ν F (leftAssoc ops p) (leftAssoc ops p') := by
  refine like_here.bind fun _ => hp.bind fun hfirst => ?_
  refine like_extendWhile (like_kind?_bind (Like.pure rfl) fun h => ?_)
    (fun left left' hleft => ?_) hfirst
  · cases h <;> exact Like.pure rfl
  · refine (like_anyOp ops).bind_eq fun o => ?_
    cases o with
    | none => exact Like.failure
    | some o =>
      refine hp.bind fun hright => ?_
      exact like_expr rfl (.cons (hleft.as _) (.cons (hright.as _) .nil))

theorem like_foldr_leftAssoc (levels : List (List String)) {p p' : Parser Tree}
    (hp : LikeRead ν F p p') :
    LikeRead ν F (levels.foldr leftAssoc p) (levels.foldr leftAssoc p') := by
  induction levels with
  | nil => exact hp
  | cons ops levels ih => exact like_leftAssoc ops ih

theorem like_comparator? : Like ν F Eq comparator? comparator? := by
  refine like_kind?_bind (Like.pure rfl) fun h => ?_
  cases h with
  | op o => exact like_anyOp _
  | keyword k =>
    split
    case h_1 h => cases h
    case h_2 => exact like_take.seq (Like.pure rfl)
    case h_3 =>
        refine like_take.seq ((like_acceptKeyword "not").bind_eq fun b => ?_)
        exact Like.pure rfl
    case h_4 =>
        refine like_second?.bind fun hnext => ?_
        rw [(steady_keyword "in").beq_eq hnext]
        refine Like.ite ?_ (Like.pure rfl)
        exact like_take.seq (like_take.seq (Like.pure rfl))
    case h_5 => exact Like.pure rfl
  | _ => exact Like.pure rfl

theorem like_isComparator : Like ν F Eq isComparator isComparator := by
  intro s s' hs
  have h := like_comparator? s s' hs
  unfold isComparator
  generalize comparator? s = x at h ⊢
  generalize comparator? s' = x' at h ⊢
  cases h with
  | none => exact .some ⟨rfl, hs⟩
  | some h => exact .some ⟨congrArg Option.isSome h.1, hs⟩

def ComparisonLike (ν : NameLikeness) (F : Places) (x y : String × Tree) : Prop :=
  x.1 = y.1 ∧ TreeLike ν F x.2 y.2

theorem like_boolean (word : String) {p p' : Parser Tree} (hp : LikeRead ν F p p') :
    LikeRead ν F (boolean word p) (boolean word p') := by
  refine like_here.bind fun _ => hp.bind fun hfirst => ?_
  refine (like_repeatWhile (like_isKeyword word)
    ((like_keyword word).seq hp.tree)).bind fun hrest => ?_
  rw [rel_isEmpty hrest]
  exact Like.ite (Like.pure hfirst) (like_expr rfl (TreesLike.as (.cons hfirst.tree hrest) _))

include hr

theorem like_call {func func' : Tree} (hfunc : ReadLike ν F func func') :
    LikeRead ν F (call r start func) (call r' start' func') := by
  refine like_here.bind fun _ => (like_op "(").seq ?_
  refine (like_acceptOp ")").branch (like_expr hfunc.read (.cons (hfunc.as _) .nil)) ?_
  refine (like_callItem hr).bind fun {first first'} hfirst => like_isFor.bind_eq fun isFor => ?_
  have hplain : LikeRead ν F
      (moreArguments r first >>= fun x => node .call start (func.as .func :: x.1 ++ x.2))
      (moreArguments r' first' >>= fun x => node .call start' (func'.as .func :: x.1 ++ x.2)) := by
    refine (like_moreArguments hr hfirst).bind fun hargs => ?_
    exact like_expr hfunc.read (TreesLike.append (.cons (hfunc.as _) hargs.1) hargs.2)
  cases isFor with
  | false => cases hfirst <;> exact hplain
  | true =>
    cases hfirst with
    | positional h =>
      refine (like_clauses hr).bind fun hgens => (like_op ")").seq ?_
      refine (like_expr rfl (.cons (h.as _) hgens)).bind fun ht => ?_
      exact like_expr hfunc.read (.cons (hfunc.as _) (.cons (ht.as _) .nil))
    | _ => exact hplain

theorem like_trailer {t t' : Tree} (ht : ReadLike ν F t t') :
    LikeRead ν F (trailer r start t) (trailer r' start' t') := by
  refine (like_acceptOp ".").branch ?_ ((like_isOp "(").branch (like_call hr ht) ?_)
  · refine like_name.bind fun hid => ?_
    exact like_read (.attr hid .load) (.cons (ht.as _) .nil) rfl
  · refine (like_op "[").seq ?_
    refine (like_subscriptItems hr).bind fun hindex => ?_
    refine (like_op "]").seq ?_
    exact like_expr rfl (.cons (ht.as _) (.cons (hindex.as _) .nil))

theorem like_primary : LikeRead ν F (primary r) (primary r') := by
  refine like_here.bind fun _ => (like_atom hr).bind fun ht => ?_
  exact like_extendWhile like_isTrailer (fun _ _ h => like_trailer hr h) ht

theorem like_awaited : LikeRead ν F (awaited r) (awaited r') := by
  refine like_here.bind fun _ => ?_
  refine (like_acceptKeyword "await").branch ?_ (like_primary hr)
  exact (like_primary hr).bind fun ht => like_expr rfl (.cons (ht.as _) .nil)

theorem like_power : LikeRead ν F (power r) (power r') := by
  refine like_here.bind fun _ => ?_
  refine (like_awaited hr).bind fun hbase => ?_
  refine (like_acceptOp "**").branch ?_ (Like.pure hbase)
  refine hr.factor.bind fun hright => ?_
  exact like_expr rfl (.cons (hbase.as _) (.cons (hright.as _) .nil))

theorem like_factor : LikeRead ν F (factor r) (factor r') := by
  refine like_here.bind fun _ => (like_anyOp _).bind_eq fun o => ?_
  cases o with
  | none => exact like_power hr
  | some o =>
    exact hr.factor.bind fun ht => like_expr rfl (.cons (ht.as _) .nil)

theorem like_bitwiseOr : LikeRead ν F (bitwiseOr r) (bitwiseOr r') :=
  like_foldr_leftAssoc binaryLevels (like_factor hr)

theorem like_comparison : LikeRead ν F (comparison r) (comparison r') := by
  refine like_here.bind fun _ => ?_
  refine (like_bitwiseOr hr).bind fun hleft => ?_
  refine Like.bind (R := List.Forall₂ (ComparisonLike ν F))
    (like_repeatWhile like_isComparator (like_comparator?.bind_eq fun o => ?_))
    fun {pairs pairs'} hpairs => ?_
  · cases o with
    | none => exact Like.failure
    | some o => exact (like_bitwiseOr hr).bind fun ht => Like.pure ⟨rfl, ht.tree⟩
  have hops : pairs.map (·.1) = pairs'.map (·.1) :=
    List.forall₂_eq_eq_eq ▸ List.rel_map (fun _ _ h => h.1) hpairs
  have hoperands : TreesLike ν F (pairs.map (·.2.as .comparator))
      (pairs'.map (·.2.as .comparator)) := List.rel_map (fun _ _ h => h.2.as _) hpairs
  rw [rel_isEmpty hpairs, hops]
  exact Like.ite (Like.pure hleft) (like_expr rfl (.cons (hleft.as _) hoperands))

theorem like_inversion : LikeRead ν F (inversion r) (inversion r') := by
  refine like_here.bind fun _ => ?_
  refine (like_acceptKeyword "not").branch ?_ (like_comparison hr)
  exact hr.inversion.bind fun ht => like_expr rfl (.cons (ht.as _) .nil)

theorem like_disjunction : LikeRead ν F (disjunction r) (disjunction r') :=
  like_boolean "or" (like_boolean "and" (like_inversion hr))

theorem like_expression : LikeRead ν F (expression r) (expression r') := by
  refine (like_isKeyword "lambda").branch (like_lambda hr) ?_
  refine like_here.bind fun _ => ?_
  refine (like_disjunction hr).bind fun hbody => ?_
  refine (like_acceptKeyword "if").branch ?_ (Like.pure hbody)
  refine (like_disjunction hr).bind fun htest => ?_
  refine (like_keyword "else").seq ?_
  refine hr.expression.bind fun horelse => ?_
  exact like_expr rfl (.cons (htest.as _) (.cons (hbody.as _) (.cons (horelse.as _) .nil)))

end Restyle.Syntax.Grammar
