import Restyle.Proofs.Syntax.Balance

/-!
The grammar is balanced: lists of expressions, comprehensions, arguments and parameters. Every rule
gives trees that hold the texts of their parts, each of them once, if the rules that it comes back
to do.
-/

open Restyle.Syntax.Parser

namespace Restyle.Syntax

/-- Rules that are balanced. A block may hold definitions, so it is balanced where these weigh
nothing. -/
structure RulesBalanced [Dialect] (r : Rules) : Prop where
  expression : ∀ {σ : Scale}, Balanced σ 0 σ.weight r.expression
  starExpressions : ∀ {σ : Scale}, Balanced σ 0 σ.weight r.starExpressions
  disjunction : ∀ {σ : Scale}, Balanced σ 0 σ.weight r.disjunction
  inversion : ∀ {σ : Scale}, Balanced σ 0 σ.weight r.inversion
  bitwiseOr : ∀ {σ : Scale}, Balanced σ 0 σ.weight r.bitwiseOr
  factor : ∀ {σ : Scale}, Balanced σ 0 σ.weight r.factor
  primary : ∀ {σ : Scale}, Balanced σ 0 σ.weight r.primary
  block : ∀ {σ : Scale}, σ.definition = 0 →
    Balanced σ 0 (fun ts => (ts.map σ.weight).sum) r.block
  pattern : ∀ {σ : Scale}, Balanced σ 0 σ.weight r.pattern

namespace Grammar

variable [Dialect] {σ : Scale} {r : Rules}

variable (hr : RulesBalanced r)

/-! ### Lists of expressions -/

theorem silent_startsExpression : Silent startsExpression := by
  refine silent_kind?.andThen fun k => ?_
  split <;> exact silent_pure _

theorem silent_isBinding : Silent isBinding :=
  silent_isName.andThen fun _ => silent_second?.andThen fun _ => silent_pure _

include hr

theorem balanced_starOr {p : Parser Tree} (hp : BalancedTree σ p) :
    BalancedTree σ (starOr r p) := by
  refine silent_here.bind fun start => (silent_acceptOp "*").branch ?_ hp
  exact hr.bitwiseOr.bind fun inner => balanced_node rfl (by simp)

theorem balanced_starExpressions : BalancedTree σ (starExpressions r) := by
  refine silent_here.bind fun start => ?_
  refine (balanced_starOr hr hr.expression).commaList.bind fun items => ?_
  exact balanced_oneOr (fun t => .pure rfl) fun ts => balanced_node rfl (by simp)

theorem balanced_named : BalancedTree σ (named r) := by
  refine silent_here.bind fun start => silent_isBinding.branch ?_ ?_
  · refine silent_name.bind fun id => ?_
    refine balanced_node_bind rfl fun target htarget => (silent_op ":=").seq ?_
    exact hr.expression.bind fun value => balanced_node rfl (by simp [htarget])
  · refine hr.expression.bind fun t => (silent_isOp ":=").bind fun b => ?_
    exact (silent_guardThat _).seq (.pure rfl)

theorem balanced_starNamed : BalancedTree σ (starNamed r) :=
  balanced_starOr hr (balanced_named hr)

theorem balanced_yieldExpr : BalancedTree σ (yieldExpr r) := by
  refine silent_here.bind fun start => (silent_keyword "yield").seq ?_
  refine (silent_acceptKeyword "from").branch ?_ (silent_startsExpression.branch ?_ ?_)
  · exact hr.expression.bind fun value => balanced_node rfl (by simp)
  · exact hr.starExpressions.bind fun value => balanced_node rfl (by simp)
  · exact balanced_node rfl rfl

theorem balanced_yieldOrExpressions : BalancedTree σ (yieldOrExpressions r) :=
  (silent_isKeyword "yield").branch (balanced_yieldExpr hr) (balanced_starExpressions hr)

/-! ### Targets and comprehensions -/

end Grammar

section Targets

variable {σ : Scale}

theorem weight_asPlace? {access : Access} {t t' : Tree} (h : t.asPlace? access = some t') :
    σ.weight t' = σ.weight t := by
  obtain ⟨l, r, s, cs⟩ := t
  cases l with
  | name | attr | subscript =>
    cases h
    rw [Scale.weight_of_isPlain rfl, Scale.weight_of_isPlain rfl]
  | _ => cases h

mutual

theorem weight_asTarget? {access : Access} : ∀ {stars : Bool} {t t' : Tree},
    t.asTarget? access stars = some t' → σ.weight t' = σ.weight t
  | stars, .node l r s cs, t', h => by
    cases l with
    | name | attr | subscript =>
      cases h
      rw [Scale.weight_of_isPlain rfl, Scale.weight_of_isPlain rfl]
    | tuple | list =>
      obtain ⟨ts, hts, rfl⟩ := Option.map_eq_some_iff.mp h
      rw [Scale.weight_of_isPlain rfl, Scale.weight_of_isPlain rfl, weight_asTargets? hts]
    | starred =>
      match cs with
      | [] => cases stars <;> cases h
      | _ :: _ :: _ => cases stars <;> cases h
      | [inner] =>
        cases stars with
        | false => cases h
        | true =>
          obtain ⟨u, hu, rfl⟩ := Option.map_eq_some_iff.mp h
          rw [Scale.weight_of_isPlain rfl, Scale.weight_of_isPlain rfl]
          simp [weight_asTarget? hu]
    | _ => cases h

theorem weight_asTargets? {access : Access} : ∀ {ts ts' : List Tree},
    Tree.asTargets? access ts = some ts' → (ts'.map σ.weight).sum = (ts.map σ.weight).sum
  | [], ts', h => by
    cases h
    rfl
  | t :: ts, ts', h => by
    rw [Tree.asTargets?] at h
    split at h
    case h_1 u us hu hus =>
      cases h
      simp [weight_asTarget? hu, weight_asTargets? hus]
    case h_2 => cases h

end

theorem weight_mapM_asTarget? {access : Access} {stars : Bool} {ts ts' : List Tree}
    (h : ts.mapM (·.asTarget? access stars) = some ts') :
    (ts'.map σ.weight).sum = (ts.map σ.weight).sum := by
  induction ts generalizing ts' with
  | nil =>
    cases h
    rfl
  | cons t ts ih =>
    rw [List.mapM_cons] at h
    obtain ⟨u, hu, h⟩ := Option.bind_eq_some_iff.mp h
    obtain ⟨us, hus, h⟩ := Option.bind_eq_some_iff.mp h
    cases h
    simp [weight_asTarget? hu, ih hus]

end Targets

namespace Grammar

variable [Dialect] {σ : Scale} {r : Rules}

variable (hr : RulesBalanced r)

theorem silent_isFor : Silent isFor := by
  refine (silent_isKeyword "for").andThen fun _ => .ite (silent_pure _) ?_
  refine (silent_isKeyword "async").andThen fun _ => silent_second?.andThen fun _ => ?_
  exact silent_pure _

include hr

theorem balanced_starTarget : BalancedTree σ (starTarget r) := by
  refine silent_here.bind fun start => (silent_acceptOp "*").branch ?_ ?_
  · refine hr.primary.bind fun inner => balanced_lift_bind fun t ht => ?_
    exact balanced_node rfl (by simp [weight_asTarget? ht])
  · exact hr.primary.bind fun t => .lift fun t' ht' => weight_asTarget? ht'

theorem balanced_targets : BalancedTree σ (targets r) := by
  refine silent_here.bind fun start => (balanced_starTarget hr).commaList.bind fun items => ?_
  exact balanced_oneOr (fun t => .pure rfl) fun ts => balanced_node rfl (by simp)

theorem balanced_clauses : BalancedTrees σ (clauses r) := by
  refine .repeatWhile silent_isFor (silent_here.bind fun start => ?_)
  refine (silent_acceptKeyword "async").bind fun isAsync => (silent_keyword "for").seq ?_
  refine (balanced_targets hr).bind fun target => (silent_keyword "in").seq ?_
  refine hr.disjunction.bind fun iter => ?_
  refine (Balanced.repeatWhile (silent_isKeyword "if")
    ((silent_keyword "if").seq hr.disjunction)).bind fun conditions => ?_
  exact balanced_node_bind rfl fun t ht => .pure (by simp +arith [ht])

/-! ### Arguments -/

def CallItem.weight (σ : Scale) : CallItem → Nat
  | .positional t => σ.weight t
  | .starred t => σ.weight t
  | .keyword t => σ.weight t
  | .doubleStar t => σ.weight t

def pairWeight (σ : Scale) (x : List Tree × List Tree) : Nat :=
  (x.1.map σ.weight).sum + (x.2.map σ.weight).sum

omit hr

omit [Dialect] in
theorem weight_arrange {keywords doubles : Bool} {items : List CallItem}
    {x : List Tree × List Tree} (h : CallItem.arrange keywords doubles items = some x) :
    pairWeight σ x = (items.map (CallItem.weight σ)).sum := by
  induction items generalizing keywords doubles x with
  | nil =>
    cases h
    rfl
  | cons item items ih =>
    have hmap {keywords doubles : Bool} {f : List Tree × List Tree → List Tree × List Tree}
        (h : (CallItem.arrange keywords doubles items).map f = some x)
        (hf : ∀ y, pairWeight σ (f y) = item.weight σ + pairWeight σ y) :
        pairWeight σ x = ((item :: items).map (CallItem.weight σ)).sum := by
      obtain ⟨y, hy, rfl⟩ := Option.map_eq_some_iff.mp h
      rw [hf, ih hy, List.map_cons, List.sum_cons]
    cases item with
    | positional t =>
      rw [CallItem.arrange] at h
      exact hmap (Option.ite_none_left_eq_some.mp h).2 fun y => by
        simp [pairWeight, CallItem.weight, Nat.add_assoc]
    | starred t =>
      rw [CallItem.arrange] at h
      exact hmap (Option.ite_none_left_eq_some.mp h).2 fun y => by
        simp [pairWeight, CallItem.weight, Nat.add_assoc]
    | keyword t =>
      exact hmap h fun y => by simp [pairWeight, CallItem.weight, Nat.add_left_comm]
    | doubleStar t =>
      exact hmap h fun y => by simp [pairWeight, CallItem.weight, Nat.add_left_comm]

include hr

theorem balanced_callItem : Balanced σ 0 (CallItem.weight σ) (callItem r) := by
  refine silent_here.bind fun start => ?_
  refine (silent_acceptOp "*").branch ?_ ((silent_acceptOp "**").branch ?_ ?_)
  · refine hr.expression.bind fun value => ?_
    exact balanced_node_bind rfl fun t ht => .pure (by simp [CallItem.weight, ht])
  · refine hr.expression.bind fun value => ?_
    exact balanced_node_bind rfl fun t ht => .pure (by simp [CallItem.weight, ht])
  · refine silent_isName.bind fun _ => silent_second?.bind fun _ => .ite ?_ ?_
    · refine silent_name.bind fun id => (silent_op "=").seq ?_
      refine hr.expression.bind fun value => ?_
      exact balanced_node_bind rfl fun t ht => .pure (by simp [CallItem.weight, ht])
    · exact (balanced_named hr).bind fun t => .pure rfl

theorem balanced_moreArguments (first : CallItem) :
    Balanced σ (first.weight σ) (pairWeight σ) (moreArguments r first) := by
  refine ((balanced_callItem hr).moreItems ")").bind fun rest => (silent_op ")").seq ?_
  refine .lift fun x hx => ?_
  rw [weight_arrange hx]
  simp [Nat.add_comm]

theorem balanced_callArguments : Balanced σ 0 (pairWeight σ) (callArguments r) := by
  refine (silent_acceptOp ")").branch (.pure rfl) ?_
  exact (balanced_callItem hr).bind fun first => balanced_moreArguments hr first

theorem balanced_sliceBound : BalancedTrees σ (sliceBound r) :=
  hr.expression.optionally silent_startsExpression

theorem balanced_subscriptItem : BalancedTree σ (subscriptItem r) := by
  refine silent_here.bind fun start => (silent_acceptOp "*").branch ?_ ?_
  · exact hr.expression.bind fun value => balanced_node rfl (by simp)
  · refine silent_isBinding.bind fun isBound => ?_
    have hcolon : Silent (do return !(← isOp ":")) :=
      (silent_isOp ":").andThen fun _ => silent_pure _
    refine ((balanced_named hr).optionally hcolon).bind fun first => ?_
    refine (silent_isOp ":").bind fun _ => .ite ?_ ?_
    · refine (silent_op ":").seq ((balanced_sliceBound hr).bind fun upper => ?_)
      refine (silent_acceptOp ":").bind fun _ => ?_
      refine (Balanced.ite (balanced_sliceBound hr) (.pure rfl)).bind fun step => ?_
      exact balanced_node rfl (by simp +arith)
    · split
      case h_1 t => exact .pure (by simp)
      case h_2 => exact .failure

theorem balanced_subscriptItems : BalancedTree σ (subscriptItems r) := by
  refine silent_here.bind fun start => (balanced_subscriptItem hr).commaList.bind fun items => ?_
  refine balanced_oneOr (fun t => ?_) fun ts => balanced_node rfl (by simp)
  split
  · exact balanced_node rfl (by simp)
  · exact .pure rfl

/-! ### Parameters -/

def optionWeight (σ : Scale) (t : Option Tree) : Nat := (t.toList.map σ.weight).sum

def ParamItem.weight (σ : Scale) : ParamItem → Nat
  | .plain t d => σ.weight t + optionWeight σ d
  | .slash => 0
  | .star t => optionWeight σ t
  | .doubleStar t => σ.weight t

def Params.weight (σ : Scale) (p : Params) : Nat := (p.children.map σ.weight).sum

/-- A starred parameter comes with its star. -/
def Params.Starred (p : Params) : Prop := p.hasStar = false → p.vararg = none

omit hr

omit [Dialect] in
/-- One more parameter adds its weight, as it takes no place that is taken already. -/
theorem weight_add {p q : Params} {item : ParamItem} (hp : p.Starred) (h : p.add item = some q) :
    q.Starred ∧ q.weight σ = item.weight σ + p.weight σ := by
  unfold Params.add at h
  obtain ⟨hkwarg, h⟩ := Option.ite_none_left_eq_some.mp h
  cases item with
  | plain t d =>
    dsimp only at h
    split at h
    · cases h
      refine ⟨hp, ?_⟩
      simp +arith [Params.weight, Params.children, ParamItem.weight, optionWeight]
    · obtain ⟨-, h⟩ := Option.ite_none_left_eq_some.mp h
      cases h
      refine ⟨hp, ?_⟩
      simp +arith [Params.weight, Params.children, ParamItem.weight, optionWeight]
  | slash =>
    obtain ⟨hempty, h⟩ := Option.ite_none_left_eq_some.mp h
    cases h
    have hfree : p.positionalOnly = [] := by
      simp only [Bool.or_eq_true, not_or] at hempty
      simpa using hempty.2
    refine ⟨hp, ?_⟩
    simp +arith [Params.weight, Params.children, ParamItem.weight, hfree]
  | star t =>
    obtain ⟨hstar, h⟩ := Option.ite_none_left_eq_some.mp h
    cases h
    have hfree : p.vararg = none := hp (by simpa using hstar)
    refine ⟨nofun, ?_⟩
    simp +arith [Params.weight, Params.children, ParamItem.weight, optionWeight, hfree]
  | doubleStar t =>
    cases h
    have hfree : p.kwarg = none := by simpa using hkwarg
    refine ⟨hp, ?_⟩
    simp +arith [Params.weight, Params.children, ParamItem.weight, hfree]

omit [Dialect] in
theorem weight_foldlM_add {items : List ParamItem} {p q : Params} (hp : p.Starred)
    (h : items.foldlM Params.add p = some q) :
    q.weight σ = (items.map (ParamItem.weight σ)).sum + p.weight σ := by
  induction items generalizing p with
  | nil =>
    cases h
    exact (Nat.zero_add _).symm
  | cons item items ih =>
    rw [List.foldlM_cons] at h
    obtain ⟨p', hadd, hrest⟩ := Option.bind_eq_some_iff.mp h
    obtain ⟨hp', hweight⟩ := weight_add hp hadd
    rw [ih hp' hrest, hweight]
    simp +arith

include hr

theorem balanced_paramHint (annotated starred : Bool) :
    BalancedTrees σ (paramHint r annotated starred) := by
  refine .ite (Balanced.optionally (.ite ?_ hr.expression) (silent_acceptOp ":")) (.pure rfl)
  exact balanced_starOr hr hr.expression

theorem balanced_param (annotated starred : Bool) : BalancedTree σ (param r annotated starred) := by
  refine silent_here.bind fun start => silent_name.bind fun id => ?_
  exact (balanced_paramHint hr annotated starred).bind fun hint => balanced_node rfl (by simp)

theorem balanced_paramItem (annotated : Bool) :
    Balanced σ 0 (ParamItem.weight σ) (paramItem r annotated) := by
  refine (silent_acceptOp "/").branch (.pure rfl) ?_
  refine (silent_acceptOp "*").branch ?_ ((silent_acceptOp "**").branch ?_ ?_)
  · refine (silent_isOp ",").branch (.pure rfl) ?_
    exact (balanced_param hr annotated true).bind fun t => .pure rfl
  · exact (balanced_param hr annotated false).bind fun t => .pure rfl
  · refine (balanced_param hr annotated false).bind fun arg => ?_
    refine (silent_acceptOp "=").branch ?_ (.pure rfl)
    refine hr.expression.bind fun t => .pure ?_
    simp +arith [ParamItem.weight, optionWeight]

theorem balanced_parameters (annotated : Bool) (close : String) :
    BalancedTree σ (parameters r annotated close) := by
  refine silent_here.bind fun start => (silent_isOp close).branch (balanced_node rfl rfl) ?_
  refine (balanced_paramItem hr annotated).commaList.bind fun items => ?_
  refine balanced_lift_bind fun p hp => (silent_guardThat _).seq (balanced_node rfl ?_)
  exact weight_foldlM_add (fun _ => rfl) hp

theorem balanced_lambda : BalancedTree σ (lambda r) := by
  refine silent_here.bind fun start => (silent_keyword "lambda").seq ?_
  refine (balanced_parameters hr false ":").bind fun params => (silent_op ":").seq ?_
  exact hr.expression.bind fun body => balanced_node rfl (by simp +arith)

end Grammar

end Restyle.Syntax
