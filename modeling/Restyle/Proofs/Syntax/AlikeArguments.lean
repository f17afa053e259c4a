import Restyle.Proofs.Syntax.Alike

/-!
The grammar on alike tokens: lists of expressions, comprehensions, arguments and parameters. Every
rule gives alike trees, if the rules that it comes back to do.
-/

open Restyle.Syntax.Parser

namespace Restyle.Syntax

/-- Rules that are alike, wherever the strings stand whose contents may differ. -/
structure RulesLike [Dialect] (ν : NameLikeness) (r r' : Rules) : Prop where
  expression : ∀ {F}, LikeRead ν F r.expression r'.expression
  starExpressions : ∀ {F}, LikeTree ν F r.starExpressions r'.starExpressions
  disjunction : ∀ {F}, LikeRead ν F r.disjunction r'.disjunction
  inversion : ∀ {F}, LikeRead ν F r.inversion r'.inversion
  bitwiseOr : ∀ {F}, LikeRead ν F r.bitwiseOr r'.bitwiseOr
  factor : ∀ {F}, LikeRead ν F r.factor r'.factor
  primary : ∀ {F}, LikeRead ν F r.primary r'.primary
  block : ∀ {F}, Like ν F (TreesLike ν F) r.block r'.block
  pattern : ∀ {F}, LikeTree ν F r.pattern r'.pattern

namespace Grammar

variable [Dialect] {ν : NameLikeness} {F : Places} {r r' : Rules}

variable (hr : RulesLike ν r r')

/-! ### Lists of expressions -/

theorem like_startsExpression : Like ν F Eq startsExpression startsExpression :=
  like_kind?_bind (Like.pure rfl) fun h => by cases h <;> exact Like.pure rfl

theorem like_noExpression : Like ν F Eq noExpression noExpression :=
  like_startsExpression.bind fun h => Like.pure (congrArg (!·) h)

theorem like_isBinding : Like ν F Eq isBinding isBinding := by
  refine like_isName.bind fun hb => ?_
  refine like_second?.bind fun hnext => ?_
  exact Like.pure (by rw [hb, (steady_op ":=").beq_eq hnext])

include hr

theorem like_starOr {p p' : Parser Tree} (hp : LikeRead ν F p p') :
    LikeRead ν F (starOr r p) (starOr r' p') := by
  refine like_here.bind fun _ => ?_
  refine (like_acceptOp "*").branch ?_ hp
  refine hr.bitwiseOr.bind fun hinner => ?_
  exact like_expr rfl (.cons (hinner.as _) .nil)

theorem like_starExpressions : LikeTree ν F (starExpressions r) (starExpressions r') := by
  refine like_here.bind fun _ => ?_
  have hitem := like_starOr (F := F) hr hr.expression
  refine (like_commaList like_noExpression hitem.tree).bind fun h => ?_
  exact like_oneOr h (fun ht => Like.pure ht) fun hts => like_same rfl (hts.as _)

theorem like_named : LikeRead ν F (named r) (named r') := by
  refine like_here.bind fun _ => ?_
  refine like_isBinding.branch ?_ ?_
  · refine like_name.bind fun hid => ?_
    refine (like_node (.name hid .store) .nil rfl).bind fun htarget => ?_
    refine (like_op ":=").seq ?_
    refine hr.expression.bind fun hvalue => ?_
    exact like_expr rfl (.cons (htarget.as _) (.cons (hvalue.as _) .nil))
  · refine hr.expression.bind fun ht => ?_
    refine (like_isOp ":=").bind_eq fun b => ?_
    exact (like_guardThat _).seq (Like.pure ht)

theorem like_starNamed : LikeRead ν F (starNamed r) (starNamed r') := like_starOr hr (like_named hr)

theorem like_yieldExpr : LikeRead ν F (yieldExpr r) (yieldExpr r') := by
  refine like_here.bind fun _ => ?_
  refine (like_keyword "yield").seq ?_
  refine (like_acceptKeyword "from").branch ?_ (like_startsExpression.branch ?_ ?_)
  · refine hr.expression.bind fun hvalue => ?_
    exact like_expr rfl (.cons (hvalue.as _) .nil)
  · refine hr.starExpressions.bind fun hvalue => ?_
    exact like_expr rfl (.cons (hvalue.as _) .nil)
  · exact like_expr rfl .nil

theorem like_yieldOrExpressions : LikeTree ν F (yieldOrExpressions r) (yieldOrExpressions r') :=
  (like_isKeyword "yield").branch (like_yieldExpr hr).tree (like_starExpressions hr)

/-! ### Targets and comprehensions -/

end Grammar

section Targets

variable {ν : NameLikeness} {F : Places}

theorem rel_asPlace? (access : Access) {t t' : Tree} (h : TreeLike ν F t t') :
    Option.Rel (TreeLike ν F) (t.asPlace? access) (t'.asPlace? access) := by
  cases h with
  | @node l l' r s s' cs cs' hl hcs =>
    cases hl with
    | name h => exact .some (.node r (.name h access) hcs rfl)
    | attr h => exact .some (.node r (.attr h access) hcs rfl)
    | same h =>
      cases l with
      | subscript => exact .some (.node r (.same rfl) hcs rfl)
      | name => cases h
      | attr => cases h
      | _ => exact .none
    | _ => exact .none

mutual

theorem rel_asTarget? (access : Access) (stars : Bool) : ∀ t t' : Tree, TreeLike ν F t t' →
    Option.Rel (TreeLike ν F) (t.asTarget? access stars) (t'.asTarget? access stars)
  | .node l r s cs, .node l' r' s' cs', h => by
    cases h with
    | node _ hl hcs =>
      have hitems := rel_asTargets? access cs cs' hcs
      cases hl with
      | name h => exact .some (.node r (.name h access) hcs rfl)
      | attr h => exact .some (.node r (.attr h access) hcs rfl)
      | same h =>
        cases l with
        | subscript => exact .some (.node r (.same rfl) hcs rfl)
        | tuple => exact rel_map hitems fun _ _ hts => .node r (.same rfl) hts rfl
        | list => exact rel_map hitems fun _ _ hts => .node r (.same rfl) hts rfl
        | starred =>
          match cs, cs', hcs with
          | [], [], _ => cases stars <;> exact .none
          | _ :: _ :: _, _ :: _ :: _, _ => cases stars <;> exact .none
          | [t], [t'], hcs =>
            have ht := rel_asTarget? access false t t' (List.forall₂_cons.mp hcs).1
            cases stars with
            | false => exact .none
            | true => exact rel_map ht fun _ _ h => .node r (.same rfl) (.cons h .nil) rfl
        | name => cases h
        | attr => cases h
        | _ => exact .none
      | _ => exact .none

theorem rel_asTargets? (access : Access) : ∀ ts ts' : List Tree, TreesLike ν F ts ts' →
    Option.Rel (TreesLike ν F) (Tree.asTargets? access ts) (Tree.asTargets? access ts')
  | [], [], _ => .some .nil
  | t :: ts, t' :: ts', h => by
    have ht := rel_asTarget? access (access == .store) t t' (List.forall₂_cons.mp h).1
    have hts := rel_asTargets? access ts ts' (List.forall₂_cons.mp h).2
    simp only [Tree.asTargets?]
    generalize t.asTarget? access (access == .store) = x at ht ⊢
    generalize t'.asTarget? access (access == .store) = x' at ht ⊢
    generalize Tree.asTargets? access ts = xs at hts ⊢
    generalize Tree.asTargets? access ts' = xs' at hts ⊢
    cases ht with
    | none => exact .none
    | some ht =>
      cases hts with
      | none => exact .none
      | some hts => exact .some (.cons ht hts)

end

end Targets

namespace Grammar

variable [Dialect] {ν : NameLikeness} {F : Places} {r r' : Rules}

variable (hr : RulesLike ν r r')

theorem like_isFor : Like ν F Eq isFor isFor := by
  refine (like_isKeyword "for").branch (Like.pure rfl) ?_
  refine (like_isKeyword "async").bind fun hb => ?_
  refine like_second?.bind fun hnext => ?_
  exact Like.pure (by rw [hb, (steady_keyword "for").beq_eq hnext])

include hr

theorem like_starTarget : LikeTree ν F (starTarget r) (starTarget r') := by
  refine like_here.bind fun _ => (like_acceptOp "*").branch ?_ ?_
  · refine hr.primary.bind fun hinner => ?_
    refine (like_lift (rel_asTarget? .store false _ _ hinner.tree)).bind fun ht => ?_
    exact like_same rfl (.cons (ht.as _) .nil)
  · exact hr.primary.bind fun ht => like_lift (rel_asTarget? .store false _ _ ht.tree)

theorem like_targets : LikeTree ν F (targets r) (targets r') := by
  refine like_here.bind fun _ => ?_
  refine (like_commaList (like_isKeyword "in") (like_starTarget hr)).bind fun h => ?_
  exact like_oneOr h (fun ht => Like.pure ht) fun hts => like_same rfl (hts.as _)

theorem like_clauses : Like ν F (TreesLike ν F) (clauses r) (clauses r') := by
  refine like_repeatWhile like_isFor (like_here.bind fun _ => ?_)
  refine (like_acceptKeyword "async").bind_eq fun isAsync => ?_
  refine (like_keyword "for").seq ?_
  refine (like_targets hr).bind fun htarget => ?_
  refine (like_keyword "in").seq ?_
  refine hr.disjunction.bind fun hiter => ?_
  refine (like_repeatWhile (like_isKeyword "if")
    ((like_keyword "if").seq hr.disjunction.tree)).bind fun htests => ?_
  refine (like_same rfl
    (.cons (htarget.as _) (.cons (hiter.as _) (TreesLike.as htests _)))).bind fun ht => ?_
  exact Like.pure (ht.as _)

/-! ### Arguments -/

inductive CallItemLike (ν : NameLikeness) (F : Places) : CallItem → CallItem → Prop
  | positional {t t' : Tree} (h : TreeLike ν F t t') :
      CallItemLike ν F (.positional t) (.positional t')
  | starred {t t' : Tree} (h : TreeLike ν F t t') : CallItemLike ν F (.starred t) (.starred t')
  | keyword {t t' : Tree} (h : TreeLike ν F t t') : CallItemLike ν F (.keyword t) (.keyword t')
  | doubleStar {t t' : Tree} (h : TreeLike ν F t t') :
      CallItemLike ν F (.doubleStar t) (.doubleStar t')

def PairLike (ν : NameLikeness) (F : Places) (x y : List Tree × List Tree) : Prop :=
  TreesLike ν F x.1 y.1 ∧ TreesLike ν F x.2 y.2

omit hr

omit [Dialect] in
theorem rel_arrange {items items' : List CallItem}
    (h : List.Forall₂ (CallItemLike ν F) items items') (keywords doubles : Bool) :
    Option.Rel (PairLike ν F)
      (CallItem.arrange keywords doubles items) (CallItem.arrange keywords doubles items') := by
  induction h generalizing keywords doubles with
  | nil => exact .some ⟨.nil, .nil⟩
  | cons hitem _ ih =>
    cases hitem with
    | positional ht =>
      simp only [CallItem.arrange]
      split
      · exact .none
      · exact rel_map (ih false false) fun _ _ h => ⟨.cons (ht.as _) h.1, h.2⟩
    | starred ht =>
      simp only [CallItem.arrange]
      split
      · exact .none
      · exact rel_map (ih keywords false) fun _ _ h => ⟨.cons (ht.as _) h.1, h.2⟩
    | keyword ht => exact rel_map (ih true doubles) fun _ _ h => ⟨h.1, .cons (ht.as _) h.2⟩
    | doubleStar ht => exact rel_map (ih keywords true) fun _ _ h => ⟨h.1, .cons (ht.as _) h.2⟩

include hr

theorem like_callItem : Like ν F (CallItemLike ν F) (callItem r) (callItem r') := by
  refine like_here.bind fun _ => ?_
  refine (like_acceptOp "*").branch ?_ ((like_acceptOp "**").branch ?_ ?_)
  · refine hr.expression.bind fun hvalue => ?_
    refine (like_same rfl (.cons (hvalue.as _) .nil)).bind fun ht => ?_
    exact Like.pure (.starred ht)
  · refine hr.expression.bind fun hvalue => ?_
    refine (like_node (.keyword .none) (.cons (hvalue.as _) .nil) rfl).bind fun ht => ?_
    exact Like.pure (.doubleStar ht)
  · refine like_isName.bind_eq fun b => ?_
    refine like_second?.bind fun hnext => ?_
    rw [(steady_op "=").beq_eq hnext]
    split
    · refine like_name.bind fun hid => ?_
      refine (like_op "=").seq ?_
      refine hr.expression.bind fun hvalue => ?_
      refine (like_node (.keyword (.some hid)) (.cons (hvalue.as _) .nil) rfl).bind fun ht => ?_
      exact Like.pure (.keyword ht)
    · exact (like_named hr).bind fun ht => Like.pure (.positional ht.tree)

theorem like_moreArguments {first first' : CallItem} (hfirst : CallItemLike ν F first first') :
    Like ν F (PairLike ν F) (moreArguments r first) (moreArguments r' first') := by
  refine (like_moreItems ")" (like_callItem hr)).bind fun hrest => ?_
  refine (like_op ")").seq ?_
  exact like_lift (rel_arrange (.cons hfirst hrest) false false)

theorem like_callArguments : Like ν F (PairLike ν F) (callArguments r) (callArguments r') := by
  refine (like_acceptOp ")").branch (Like.pure ⟨.nil, .nil⟩) ?_
  exact (like_callItem hr).bind fun hfirst => like_moreArguments hr hfirst

theorem like_sliceBound : Like ν F (TreesLike ν F) (sliceBound r) (sliceBound r') :=
  like_optionally like_startsExpression hr.expression.tree

theorem like_subscriptItem : LikeTree ν F (subscriptItem r) (subscriptItem r') := by
  refine like_here.bind fun _ => (like_acceptOp "*").branch ?_ ?_
  · refine hr.expression.bind fun hvalue => ?_
    exact like_same rfl (.cons (hvalue.as _) .nil)
  · refine like_isBinding.bind_eq fun isBound => ?_
    have hcolon : Like ν F Eq (do return !(← isOp ":")) (do return !(← isOp ":")) :=
      (like_isOp ":").bind fun h => Like.pure (congrArg (!·) h)
    refine (like_optionally hcolon (like_named hr).tree).bind fun {first first'} hfirst => ?_
    refine (like_isOp ":").bind_eq fun b => ?_
    split
    · refine (like_op ":").seq ?_
      refine (like_sliceBound hr).bind fun hupper => ?_
      refine (like_acceptOp ":").bind_eq fun b => ?_
      refine (Like.ite (like_sliceBound hr) (Like.pure .nil)).bind fun hstep => ?_
      exact like_same rfl
        (TreesLike.append (TreesLike.append (TreesLike.as hfirst _) (TreesLike.as hupper _))
          (TreesLike.as hstep _))
    · match first, first', hfirst with
      | [], [], _ => exact Like.failure
      | [t], [t'], .cons ht _ => exact Like.pure ht
      | _ :: _ :: _, _ :: _ :: _, _ => exact Like.failure

theorem like_subscriptItems : LikeTree ν F (subscriptItems r) (subscriptItems r') := by
  refine like_here.bind fun _ => ?_
  refine (like_commaList (like_isOp "]") (like_subscriptItem hr)).bind fun h => ?_
  refine like_oneOr h ?_ fun hts => like_same rfl (hts.as _)
  intro t t' ht
  have hl := ht.label
  generalize t.label = l at hl ⊢
  generalize t'.label = l' at hl ⊢
  cases hl with
  | same h =>
    cases l with
    | starred access => exact like_same rfl (.cons (ht.as _) .nil)
    | _ => exact Like.pure ht
  | _ => exact Like.pure ht

/-! ### Parameters -/

inductive ParamItemLike (ν : NameLikeness) (F : Places) : ParamItem → ParamItem → Prop
  | plain {t t' : Tree} {d d' : Option Tree} (h : TreeLike ν F t t')
      (hd : Option.Rel (TreeLike ν F) d d') : ParamItemLike ν F (.plain t d) (.plain t' d')
  | slash : ParamItemLike ν F .slash .slash
  | star {t t' : Option Tree} (h : Option.Rel (TreeLike ν F) t t') :
      ParamItemLike ν F (.star t) (.star t')
  | doubleStar {t t' : Tree} (h : TreeLike ν F t t') :
      ParamItemLike ν F (.doubleStar t) (.doubleStar t')

structure ParamsLike (ν : NameLikeness) (F : Places) (p p' : Params) : Prop where
  positionalOnly : TreesLike ν F p.positionalOnly p'.positionalOnly
  positional : TreesLike ν F p.positional p'.positional
  defaults : TreesLike ν F p.defaults p'.defaults
  vararg : Option.Rel (TreeLike ν F) p.vararg p'.vararg
  hasStar : p.hasStar = p'.hasStar
  keywordOnly : TreesLike ν F p.keywordOnly p'.keywordOnly
  keywordDefaults : TreesLike ν F p.keywordDefaults p'.keywordDefaults
  kwarg : Option.Rel (TreeLike ν F) p.kwarg p'.kwarg

omit hr

omit [Dialect] in
theorem rel_add {p p' : Params} {item item' : ParamItem} (hp : ParamsLike ν F p p')
    (hitem : ParamItemLike ν F item item') :
    Option.Rel (ParamsLike ν F) (p.add item) (p'.add item') := by
  unfold Params.add
  rw [rel_isSome hp.kwarg]
  split
  · exact .none
  cases hitem with
  | @plain t t' d d' ht hd =>
    have hdefault : d.isNone = d'.isNone := by
      cases hd <;> rfl
    dsimp only
    rw [hp.hasStar, hdefault, rel_isEmpty hp.defaults]
    split
    · exact .some { hp with
        hasStar := rfl
        keywordOnly := hp.keywordOnly.append (.single ht)
        keywordDefaults := hp.keywordDefaults.append (rel_toList hd) }
    split
    · exact .none
    · exact .some { hp with
        hasStar := rfl
        positional := hp.positional.append (.single ht)
        defaults := hp.defaults.append (rel_toList hd) }
  | slash =>
    dsimp only
    rw [hp.hasStar, rel_isEmpty hp.positional, rel_isEmpty hp.positionalOnly]
    split
    · exact .none
    · exact .some { hp with hasStar := rfl, positionalOnly := hp.positional, positional := .nil }
  | star h =>
    dsimp only
    rw [hp.hasStar]
    split
    · exact .none
    · exact .some { hp with hasStar := rfl, vararg := h }
  | doubleStar h => exact .some { hp with kwarg := .some h }

omit [Dialect] in
theorem rel_foldlM_add {items items' : List ParamItem}
    (h : List.Forall₂ (ParamItemLike ν F) items items') {p p' : Params}
    (hp : ParamsLike ν F p p') :
    Option.Rel (ParamsLike ν F) (items.foldlM Params.add p) (items'.foldlM Params.add p') := by
  induction h generalizing p p' with
  | nil => exact .some hp
  | cons hitem _ ih =>
    rw [List.foldlM_cons, List.foldlM_cons]
    exact rel_bind (rel_add hp hitem) fun _ _ hq => ih hq

omit [Dialect] in
theorem ParamsLike.children {p p' : Params} (hp : ParamsLike ν F p p') :
    TreesLike ν F p.children p'.children := by
  unfold Params.children
  exact ((((((hp.positionalOnly.as _).append (hp.positional.as _)).append
    (TreesLike.as (rel_toList hp.vararg) _)).append (hp.keywordOnly.as _)).append
    (hp.keywordDefaults.as _)).append (TreesLike.as (rel_toList hp.kwarg) _)).append
    (hp.defaults.as _)

omit [Dialect] in
theorem ParamsLike.isComplete {p p' : Params} (hp : ParamsLike ν F p p') :
    p.isComplete = p'.isComplete := by
  unfold Params.isComplete
  rw [hp.hasStar, rel_isSome hp.vararg, rel_isEmpty hp.keywordOnly]

include hr

theorem like_paramHint (annotated starred : Bool) :
    Like ν F (TreesLike ν F) (paramHint r annotated starred) (paramHint r' annotated starred) :=
  Like.ite (like_optionally (like_acceptOp ":")
    (Like.ite (like_starOr hr hr.expression) hr.expression).tree) (Like.pure .nil)

theorem like_param (annotated starred : Bool) :
    LikeTree ν F (param r annotated starred) (param r' annotated starred) := by
  refine like_here.bind fun _ => ?_
  refine like_name.bind fun hid => ?_
  refine (like_paramHint hr annotated starred).bind fun hhint => ?_
  exact like_node (.arg hid) (TreesLike.as hhint _) rfl

theorem like_paramItem (annotated : Bool) :
    Like ν F (ParamItemLike ν F) (paramItem r annotated) (paramItem r' annotated) := by
  refine (like_acceptOp "/").branch (Like.pure .slash) ?_
  refine (like_acceptOp "*").branch ?_ ((like_acceptOp "**").branch ?_ ?_)
  · refine (like_isOp ",").branch (Like.pure (.star .none)) ?_
    exact (like_param hr annotated true).bind fun ht => Like.pure (.star (.some ht))
  · exact (like_param hr annotated false).bind fun ht => Like.pure (.doubleStar ht)
  · refine (like_param hr annotated false).bind fun harg => ?_
    refine (like_acceptOp "=").branch ?_ (Like.pure (.plain harg .none))
    exact hr.expression.bind fun ht => Like.pure (.plain harg (.some ht.tree))

theorem like_parameters (annotated : Bool) (close : String) :
    LikeTree ν F (parameters r annotated close) (parameters r' annotated close) := by
  refine like_here.bind fun _ => ?_
  refine (like_isOp close).branch (like_same rfl .nil) ?_
  refine (like_commaList (like_isOp close) (like_paramItem hr annotated)).bind
    fun hitems => ?_
  have hempty : ParamsLike ν F Params.empty Params.empty :=
    ⟨.nil, .nil, .nil, .none, rfl, .nil, .nil, .none⟩
  refine (like_lift (rel_foldlM_add hitems.1 hempty)).bind fun hp => ?_
  rw [hp.isComplete]
  refine (like_guardThat _).seq ?_
  exact like_same rfl hp.children

theorem like_lambda : LikeRead ν F (lambda r) (lambda r') := by
  refine like_here.bind fun _ => ?_
  refine (like_keyword "lambda").seq ?_
  refine (like_parameters hr false ":").bind fun hparams => ?_
  refine (like_op ":").seq ?_
  refine hr.expression.bind fun hbody => ?_
  exact like_expr rfl (.cons (hparams.as _) (.cons (hbody.as _) .nil))

end Grammar

end Restyle.Syntax
