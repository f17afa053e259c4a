import Restyle.Proofs.Syntax.BalanceExpressions

/-!
The grammar is balanced: statements and files. The rules are balanced at every depth, so the texts
of a file are those of its tokens. Main statement: the texts of a syntax tree are, up to their
order, the string literals of its source, each at its place.
-/

open Restyle.Syntax.Parser

namespace Restyle.Syntax.Grammar

variable [Dialect] {σ : Scale} {r : Rules} {start : Span}

/-! ### Statements without blocks -/

theorem balanced_assignedSides (hr : RulesBalanced r) : BalancedTrees σ (assignedSides r) :=
  .repeatWhile (silent_isOp "=") ((silent_op "=").seq (balanced_yieldOrExpressions hr))

theorem balanced_assignment (first : Tree) (rest : List Tree) :
    Balanced σ ((rest.map σ.weight).sum + σ.weight first) σ.weight
      (assignment start first rest) := by
  refine balanced_lift_bind fun value hvalue => balanced_lift_bind fun targets htargets => ?_
  have hrest : rest.dropLast ++ [value] = rest := List.dropLast_append_getLast? value hvalue
  have hsides := weight_mapM_asTarget? (σ := σ) htargets
  refine balanced_node rfl ?_
  rw [← hrest]
  simp +arith [hsides]

theorem balanced_expressionStatement (hr : RulesBalanced r) :
    BalancedTree σ (expressionStatement r) := by
  refine silent_here.bind fun start => (balanced_yieldOrExpressions hr).bind fun first => ?_
  refine (silent_isOp "=").branch ?_ ((silent_acceptOp ":").branch ?_ ?_)
  · exact (balanced_assignedSides hr).bind fun rest => balanced_assignment first rest
  · refine balanced_lift_bind fun target htarget => hr.expression.bind fun hint => ?_
    refine ((balanced_yieldOrExpressions hr).optionally (silent_acceptOp "=")).bind fun value => ?_
    exact balanced_node rfl (by simp +arith [weight_asPlace? htarget])
  · refine (silent_anyOp _).bind fun o => ?_
    cases o with
    | none => exact balanced_node rfl (by simp)
    | some o =>
      refine balanced_lift_bind fun target htarget => ?_
      refine (balanced_yieldOrExpressions hr).bind fun value => ?_
      exact balanced_node rfl (by simp +arith [weight_asPlace? htarget])

theorem balanced_returnStatement (hr : RulesBalanced r) :
    BalancedTree σ (returnStatement r start) := by
  refine silent_startsExpression.branch ?_ (balanced_node rfl rfl)
  exact (balanced_starExpressions hr).bind fun t => balanced_node rfl (by simp)

theorem balanced_raiseStatement (hr : RulesBalanced r) :
    BalancedTree σ (raiseStatement r start) := by
  refine silent_startsExpression.branch ?_ (balanced_node rfl rfl)
  refine hr.expression.bind fun exc => (silent_acceptKeyword "from").branch ?_ ?_
  · exact hr.expression.bind fun cause => balanced_node rfl (by simp +arith)
  · exact balanced_node rfl (by simp)

theorem balanced_deleteStatement (hr : RulesBalanced r) :
    BalancedTree σ (deleteStatement r start) := by
  refine hr.primary.commaList.bind fun items => balanced_lift_bind fun targets htargets => ?_
  exact balanced_node rfl (by simp [weight_mapM_asTarget? htargets])

theorem balanced_assertStatement (hr : RulesBalanced r) :
    BalancedTree σ (assertStatement r start) := by
  refine hr.expression.bind fun test => (silent_acceptOp ",").branch ?_ ?_
  · exact hr.expression.bind fun message => balanced_node rfl (by simp +arith)
  · exact balanced_node rfl (by simp)

theorem silent_nameList : Silent nameList := by
  refine silent_name.andThen fun first => ?_
  exact (Silent.repeatWhile (silent_isOp ",") ((silent_op ",").andThen fun _ =>
    silent_name)).andThen fun rest => silent_pure _

theorem silent_dottedName : Silent dottedName := by
  refine silent_name.andThen fun first => ?_
  exact (Silent.repeatWhile (silent_isOp ".") ((silent_op ".").andThen fun _ =>
    silent_name)).andThen fun rest => silent_pure _

theorem silent_asName : Silent asName := by
  refine (silent_acceptKeyword "as").andThen fun _ => .ite ?_ (silent_pure none)
  exact silent_name.andThen fun id => silent_pure _

theorem balanced_aliasOf {p : Parser String} (hp : Silent p) : BalancedTree σ (aliasOf p) := by
  refine silent_here.bind fun start => hp.bind fun id => silent_asName.bind fun other => ?_
  exact balanced_node_bind rfl fun t ht => .pure ((σ.weight_as t _).trans ht)

theorem balanced_importStatement : BalancedTree σ (importStatement start) := by
  refine (balanced_aliasOf silent_dottedName).bind fun first => ?_
  refine (Balanced.repeatWhile (silent_isOp ",")
    ((silent_op ",").seq (balanced_aliasOf silent_dottedName))).bind fun rest => ?_
  exact balanced_node rfl (by simp +arith)

theorem balanced_importedNames : BalancedTrees σ importedNames := by
  refine silent_here.bind fun start => ?_
  refine (silent_acceptOp "*").branch ?_ ((silent_acceptOp "(").branch ?_ ?_)
  · exact balanced_node_bind rfl fun t ht => .pure (by simp [ht])
  · refine (balanced_aliasOf silent_name).commaList.bind fun names => ?_
    exact (silent_op ")").seq (.pure rfl)
  · refine (balanced_aliasOf silent_name).bind fun first => ?_
    refine (Balanced.repeatWhile (silent_isOp ",")
      ((silent_op ",").seq (balanced_aliasOf silent_name))).bind fun rest => ?_
    exact .pure (by simp +arith)

theorem silent_isDots : Silent isDots :=
  (silent_isOp ".").andThen fun _ => (silent_isOp "...").andThen fun _ => silent_pure _

theorem silent_importPath (level : Nat) : Silent (importPath level) := by
  refine silent_isName.andThen fun _ => .ite (silent_dottedName.andThen fun _ => silent_pure _) ?_
  exact (silent_guardThat _).andThen fun _ => silent_pure _

theorem balanced_importFromStatement : BalancedTree σ (importFromStatement start) := by
  refine (Silent.repeatWhile silent_isDots ?_).bind fun dots => ?_
  · refine (silent_acceptOp "...").andThen fun _ => .ite (silent_pure _) ?_
    exact (silent_op ".").andThen fun _ => silent_pure _
  refine (silent_importPath _).bind fun path => (silent_keyword "import").seq ?_
  exact balanced_importedNames.bind fun names => balanced_node rfl rfl

theorem balanced_simpleStatement (hr : RulesBalanced r) : BalancedTree σ (simpleStatement r) := by
  refine silent_here.bind fun start => balanced_kind? fun k => ?_
  cases k with
  | none => exact (balanced_expressionStatement hr).at
  | some k =>
    cases k with
    | keyword k =>
      refine .ite (balancedAt_take rfl fun _ => balanced_returnStatement hr) ?_
      refine .ite (balancedAt_take rfl fun _ => balanced_importStatement) ?_
      refine .ite (balancedAt_take rfl fun _ => balanced_importFromStatement) ?_
      refine .ite (balancedAt_take rfl fun _ => balanced_raiseStatement hr) ?_
      refine .ite (balancedAt_take rfl fun _ => balanced_node rfl rfl) ?_
      refine .ite (balancedAt_take rfl fun _ => balanced_node rfl rfl) ?_
      refine .ite (balancedAt_take rfl fun _ => balanced_node rfl rfl) ?_
      refine .ite (balancedAt_take rfl fun _ => balanced_deleteStatement hr) ?_
      refine .ite (balancedAt_take rfl fun _ => balanced_assertStatement hr) ?_
      refine .ite (balancedAt_take rfl fun _ => silent_nameList.bind fun _ =>
        balanced_node rfl rfl) ?_
      exact .ite (balancedAt_take rfl fun _ => silent_nameList.bind fun _ =>
        balanced_node rfl rfl) (balanced_expressionStatement hr).at
    | _ => exact (balanced_expressionStatement hr).at

theorem balanced_simpleStatements (hr : RulesBalanced r) :
    BalancedTrees σ (simpleStatements r) := by
  refine (balanced_simpleStatement hr).bind fun first => ?_
  refine (Balanced.repeatWhile ((silent_isOp ";").andThen fun _ => silent_second?.andThen fun _ =>
    silent_pure _) ((silent_op ";").seq (balanced_simpleStatement hr))).bind fun rest => ?_
  refine (silent_acceptOp ";").seq ((silent_expect rfl).seq ?_)
  exact .pure (by simp +arith)

/-! ### Statements with blocks -/

section Blocks

variable (hσ : σ.definition = 0)

include hσ

/-- The node of a definition weighs what its children weigh, if definitions weigh nothing. -/
theorem balanced_definitionNode {l : Label} {start : Span} {cs : List Tree} {m : Nat}
    (hcost : ∀ s, σ.cost s l = σ.definition) (hbelow : σ.below l = σ)
    (hcs : (cs.map σ.weight).sum = m) : Balanced σ m σ.weight (node l start cs) := by
  intro s x s' hrun
  cases hrun
  rw [Scale.weight_node, hcost, hσ, hbelow, hcs, Nat.zero_add]

theorem balanced_suite (hr : RulesBalanced r) : BalancedTrees σ (suite r) :=
  (silent_op ":").seq (hr.block hσ)

theorem balanced_optionalSuite (hr : RulesBalanced r) (word : String) (role : Role) :
    BalancedTrees σ (optionalSuite r word role) := by
  refine (silent_acceptKeyword word).branch ?_ (.pure rfl)
  exact (balanced_suite hσ hr).bind fun body => .pure (by simp)

omit hσ in
def elifWeight (σ : Scale) (x : Span × Tree × List Tree) : Nat :=
  σ.weight x.2.1 + (x.2.2.map σ.weight).sum

theorem balanced_elifClauses (hr : RulesBalanced r) :
    Balanced σ 0 (fun xs => (xs.map (elifWeight σ)).sum) (elifClauses r) := by
  refine .repeatWhile (silent_isKeyword "elif") (silent_here.bind fun start => ?_)
  refine (silent_keyword "elif").seq ((balanced_named hr).bind fun test => ?_)
  exact (balanced_suite hσ hr).bind fun body => .pure (by simp +arith [elifWeight])

omit hσ in
omit [Dialect] in
theorem weight_chainElse (lastLine : Nat) (last : List Tree)
    (clauses : List (Span × Tree × List Tree)) :
    ((chainElse lastLine last clauses).map σ.weight).sum =
      (clauses.map (elifWeight σ)).sum + (last.map σ.weight).sum := by
  induction clauses with
  | nil => simp [chainElse]
  | cons clause clauses ih =>
    obtain ⟨start, test, body⟩ := clause
    rw [chainElse, List.map_singleton, List.sum_singleton, Scale.weight_of_isPlain rfl]
    simp +arith [asBody, elifWeight, ih]

section

variable (hr : RulesBalanced r)

include hr

theorem balanced_ifStatement : BalancedTree σ (ifStatement r start) := by
  refine (balanced_named hr).bind fun test => (balanced_suite hσ hr).bind fun body => ?_
  refine (balanced_elifClauses hσ hr).bind fun clauses => ?_
  refine (balanced_optionalSuite hσ hr "else" .orelse).bind fun last => silent_get.bind fun s => ?_
  exact balanced_node rfl (by simp +arith [asBody, weight_chainElse])

theorem balanced_whileStatement : BalancedTree σ (whileStatement r start) := by
  refine (balanced_named hr).bind fun test => (balanced_suite hσ hr).bind fun body => ?_
  refine (balanced_optionalSuite hσ hr "else" .orelse).bind fun orelse => ?_
  exact balanced_node rfl (by simp +arith [asBody])

theorem balanced_forStatement (isAsync : Bool) : BalancedTree σ (forStatement r isAsync start) := by
  refine (balanced_targets hr).bind fun target => (silent_keyword "in").seq ?_
  refine (balanced_starExpressions hr).bind fun iter => (balanced_suite hσ hr).bind fun body => ?_
  refine (balanced_optionalSuite hσ hr "else" .orelse).bind fun orelse => ?_
  exact balanced_node rfl (by simp +arith [asBody])

omit hσ in
theorem balanced_withItem : BalancedTree σ (withItem r) := by
  refine silent_here.bind fun start => hr.expression.bind fun context => ?_
  refine ((balanced_starTarget hr).optionally (silent_acceptKeyword "as")).bind fun bound => ?_
  exact balanced_node_bind rfl fun t ht => .pure (by simp +arith [ht])

omit hσ in
theorem balanced_bracketedItems :
    BalancedTrees σ (bracketedItems r) := by
  refine (silent_op "(").seq ((balanced_withItem hr).commaList.bind fun items => ?_)
  refine (silent_op ")").bind fun _ => (silent_isOp ":").bind fun _ => ?_
  exact (silent_guardThat _).bind fun _ => .pure rfl

omit hσ in
theorem balanced_plainItems : BalancedTrees σ (plainItems r) := by
  refine (balanced_withItem hr).bind fun first => ?_
  refine (Balanced.repeatWhile (silent_isOp ",")
    ((silent_op ",").seq (balanced_withItem hr))).bind fun rest => ?_
  exact .pure (by simp +arith)

theorem balanced_withStatement (isAsync : Bool) :
    BalancedTree σ (withStatement r isAsync start) := by
  refine ((balanced_bracketedItems hr).orElse (balanced_plainItems hr)).bind fun items => ?_
  exact (balanced_suite hσ hr).bind fun body => balanced_node rfl (by simp +arith [asBody])

omit hσ in
theorem balanced_handled (isGroup : Bool) :
    Balanced σ 0 (fun x => (x.1.map σ.weight).sum) (handled r isGroup) := by
  refine (silent_isOp ":").branch ((silent_guardThat _).seq (.pure rfl)) ?_
  exact hr.expression.bind fun t => silent_asName.bind fun id => .pure (by simp)

theorem balanced_exceptHandler (isGroup : Bool) : BalancedTree σ (exceptHandler r isGroup) := by
  refine silent_here.bind fun start => (silent_keyword "except").seq ?_
  refine (Silent.ite (silent_op "*") (silent_pure ())).seq ?_
  refine (balanced_handled hr isGroup).bind fun x => (balanced_suite hσ hr).bind fun body => ?_
  exact balanced_node_bind rfl fun t ht => .pure (by simp +arith [ht, asBody])

theorem balanced_tryStatement : BalancedTree σ (tryStatement r start) := by
  refine (balanced_suite hσ hr).bind fun body => (silent_isKeyword "except").bind fun _ => ?_
  refine silent_second?.bind fun _ => ?_
  refine (Balanced.repeatWhile (silent_isKeyword "except")
    (balanced_exceptHandler hσ hr _)).bind fun handlers => ?_
  refine Balanced.bind (v := fun ts => (ts.map σ.weight).sum)
    (.ite (.pure rfl) (balanced_optionalSuite hσ hr "else" .orelse)) fun orelse => ?_
  refine (balanced_optionalSuite hσ hr "finally" .finalbody).bind fun final => ?_
  refine (silent_guardThat _).seq (balanced_node rfl ?_)
  simp +arith [asBody]

theorem balanced_functionStatement (isAsync : Bool) (decorators : List Tree) :
    Balanced σ (decorators.map σ.weight).sum σ.weight
      (functionStatement r isAsync start decorators) := by
  refine (silent_keyword "def").seq (silent_name.bind fun id => ?_)
  refine (silent_op "(").bind fun _ => (balanced_parameters hr true ")").bind fun params => ?_
  refine (silent_op ")").seq ?_
  refine (hr.expression.optionally (silent_acceptOp "->")).bind fun returns => ?_
  refine (balanced_suite hσ hr).bind fun body => ?_
  exact balanced_definitionNode hσ (fun _ => rfl) rfl (by simp +arith [asBody])

omit hσ in
theorem balanced_classArguments : Balanced σ 0 (pairWeight σ) (classArguments r) :=
  (silent_acceptOp "(").branch (balanced_callArguments hr) (.pure rfl)

theorem balanced_classStatement (decorators : List Tree) :
    Balanced σ (decorators.map σ.weight).sum σ.weight (classStatement r start decorators) := by
  refine (silent_keyword "class").seq (silent_name.bind fun id => ?_)
  refine (balanced_classArguments hr).bind fun x => (balanced_suite hσ hr).bind fun body => ?_
  exact balanced_definitionNode hσ (fun _ => rfl) rfl (by simp +arith [asBody, pairWeight])

theorem balanced_definition (decorators : List Tree) :
    Balanced σ (decorators.map σ.weight).sum σ.weight (definition r decorators) := by
  refine silent_here.bind fun start => ?_
  refine (silent_isKeyword "class").branch (balanced_classStatement hσ hr decorators) ?_
  refine (silent_acceptKeyword "async").bind fun isAsync => ?_
  exact balanced_functionStatement hσ hr isAsync decorators

theorem balanced_decorated : BalancedTree σ (decorated r) := by
  refine Balanced.pass (.repeatWhile (w := σ.weight) (silent_isOp "@") ?_) fun decorators =>
    balanced_definition hσ hr decorators
  refine (silent_op "@").seq ((balanced_named hr).bind fun t => ?_)
  exact (silent_expect rfl).seq (.pure (by simp))

theorem balanced_asyncStatement : BalancedTree σ (asyncStatement r start) := by
  refine silent_second?.bind fun _ => .ite (balanced_definition hσ hr []) ?_
  refine (silent_keyword "async").bind fun _ => ?_
  refine (silent_acceptKeyword "for").branch (balanced_forStatement hσ hr true) ?_
  exact (silent_keyword "with").seq (balanced_withStatement hσ hr true)

/-! ### The `match` statement -/

theorem balanced_caseBlock : BalancedTree σ (caseBlock r) := by
  refine silent_here.bind fun start => (silent_expect rfl).seq ?_
  refine (balanced_casePattern hr).bind fun pattern => ?_
  refine ((balanced_named hr).optionally (silent_acceptKeyword "if")).bind fun guard => ?_
  refine (balanced_suite hσ hr).bind fun body => ?_
  exact balanced_node_bind rfl fun t ht => .pure (by simp +arith [ht, asBody])

omit hσ in
theorem balanced_matchSubject : BalancedTree σ (matchSubject r) := by
  refine silent_here.bind fun start => (silent_isOp "*").bind fun isStar => ?_
  refine (balanced_starNamed hr).commaList.bind fun items => ?_
  refine balanced_oneOr (fun t => (silent_guardThat _).seq (.pure rfl)) fun ts => ?_
  exact balanced_node rfl (by simp)

theorem balanced_matchStatement : BalancedTree σ (matchStatement r) := by
  refine silent_here.bind fun start => (silent_expect rfl).seq ?_
  refine (balanced_matchSubject hr).bind fun subject => (silent_op ":").seq ?_
  refine (silent_expect rfl).seq ((silent_expect rfl).seq ?_)
  refine (balanced_caseBlock hσ hr).bind fun first => ?_
  refine (Balanced.repeatWhile (silent_isNext _) (balanced_caseBlock hσ hr)).bind fun rest => ?_
  exact (silent_expect rfl).seq (balanced_node rfl (by simp +arith))

end

/-! ### Statements, blocks and files -/

omit hσ in
theorem balanced_single {p : Parser Tree} (hp : BalancedTree σ p) :
    BalancedTrees σ (p >>= fun t => pure [t]) :=
  hp.bind fun _ => .pure (by simp)

theorem balanced_statement (hr : RulesBalanced r) : BalancedTrees σ (statement r) := by
  refine silent_here.bind fun start => balanced_kind? fun k => ?_
  have hsimple : BalancedTrees σ (simpleStatements r) :=
    balanced_simpleStatements hr
  cases k with
  | none => exact hsimple.at
  | some k =>
    cases k with
    | keyword k =>
      refine .ite (balancedAt_take rfl fun _ => balanced_single
        (balanced_ifStatement hσ hr)) ?_
      refine .ite (balancedAt_take rfl fun _ => balanced_single
        (balanced_whileStatement hσ hr)) ?_
      refine .ite (balancedAt_take rfl fun _ => balanced_single
        (balanced_forStatement hσ hr false)) ?_
      refine .ite (balancedAt_take rfl fun _ => balanced_single
        (balanced_tryStatement hσ hr)) ?_
      refine .ite (balancedAt_take rfl fun _ => balanced_single
        (balanced_withStatement hσ hr false)) ?_
      refine .ite (balanced_single (balanced_definition hσ hr [])).at ?_
      exact .ite (balanced_single (balanced_asyncStatement hσ hr)).at hsimple.at
    | op o => exact .ite (balanced_single (balanced_decorated hσ hr)).at hsimple.at
    | name id =>
      exact .ite ((balanced_single (balanced_matchStatement hσ hr)).orElse hsimple).at
        hsimple.at
    | _ => exact hsimple.at

theorem balanced_block (hr : RulesBalanced r) : BalancedTrees σ (block r) := by
  refine (silent_accept rfl).branch ?_ (balanced_simpleStatements hr)
  refine (silent_expect rfl).seq ((balanced_statement hσ hr).bind fun first => ?_)
  refine (Balanced.repeatWhile ((silent_isNext _).andThen fun _ => silent_pure _)
    (balanced_statement hσ hr)).bind fun rest => ?_
  refine (silent_expect rfl).seq (.pure ?_)
  simp +arith [List.sum_flatten, Function.comp_def]

end Blocks

theorem rulesBalanced_step (hr : RulesBalanced r) : RulesBalanced (step r) where
  expression := balanced_expression hr
  starExpressions := balanced_starExpressions hr
  disjunction := balanced_disjunction hr
  inversion := balanced_inversion hr
  bitwiseOr := balanced_bitwiseOr hr
  factor := balanced_factor hr
  primary := balanced_primary hr
  block := fun hσ => balanced_block hσ hr
  pattern := balanced_pattern hr

theorem rulesBalanced_rules (depth : Nat) : RulesBalanced (rules depth) := by
  induction depth with
  | zero =>
    exact ⟨.failure, .failure, .failure, .failure, .failure, .failure, .failure,
      fun _ => .failure, .failure⟩
  | succ depth ih => exact rulesBalanced_step ih

theorem balanced_file (hσ : σ.definition = 0) (hr : RulesBalanced r) :
    BalancedTrees σ (file r) := by
  refine (Balanced.repeatWhile (silent_token?.andThen fun _ => silent_pure _)
    (balanced_statement hσ hr)).bind fun statements => .pure ?_
  simp [List.sum_flatten, Function.comp_def]

omit [Dialect] in
theorem tokens_file {s s' : ParseState} {ts : List Tree} (h : file r s = some (ts, s')) :
    s'.tokens = [] := by
  obtain ⟨statements, u, hrun, hpure⟩ := bind_eq_some h
  cases hpure
  unfold repeatWhile at hrun
  generalize s.tokens.length = n at hrun
  clear h
  induction n generalizing s statements with
  | zero =>
    obtain ⟨b, v, hmore, hrest⟩ := bind_eq_some hrun
    cases hmore
    split at hrest
    · cases hrest
    case isFalse hend =>
      cases hrest
      simpa using hend
  | succ n ih =>
    obtain ⟨b, v, hmore, hrest⟩ := bind_eq_some hrun
    cases hmore
    split at hrest
    · obtain ⟨x, v, -, hrest⟩ := bind_eq_some hrest
      obtain ⟨xs, v', hmore, hpure⟩ := bind_eq_some hrest
      cases hpure
      exact ih xs hmore
    case isFalse hend =>
      cases hrest
      simpa using hend

end Restyle.Syntax.Grammar

namespace Restyle.Syntax

variable {source : List Char} {t : Tree} {toks : List Token}

theorem weight_of_parse? [Dialect] {σ : Scale} (hσ : σ.definition = 0) (ht : parse? source = some t)
    (htoks : tokens source = some toks) : σ.weight t = σ.total (written toks) := by
  simp only [parse?, htoks] at ht
  split at ht
  case h_1 body s hrun =>
    cases ht
    have hrules := Grammar.rulesBalanced_rules (2 * (toks.map Token.depth).foldr (· + ·) 0 + 8)
    have hfile := Grammar.balanced_file hσ hrules _ _ _ hrun
    rw [Grammar.tokens_file hrun] at hfile
    rw [Scale.weight_node]
    simpa [Scale.cost, Scale.below, hσ, Grammar.asBody, Scale.total, written, writtenFrom]
      using hfile
  case h_2 => cases ht

/-! ### The texts of a tree -/

def Label.ownText (s : Span) : Label → List PlacedText
  | .constant (.string v) => [⟨(s.line, s.column), v⟩]
  | _ => []

mutual

/-- The texts of a tree, but for those inside of format strings. -/
def Tree.written : Tree → List PlacedText
  | .node l _ s cs => l.ownText s ++ if l = .joinedStr then [] else writtenIn cs

def Tree.writtenIn : List Tree → List PlacedText
  | [] => []
  | t :: ts => t.written ++ writtenIn ts

end

namespace Scale

variable {σ : Scale}

/-- A scale on which only the definitions inside of format strings weigh anything. -/
def hidden : Scale := ⟨fun _ => 0, 0⟩

theorem total_append (σ : Scale) (ts us : List PlacedText) :
    σ.total (ts ++ us) = σ.total ts + σ.total us := by
  simp [total]

theorem total_hidden (ts : List PlacedText) : hidden.total ts = 0 := by
  induction ts with
  | nil => rfl
  | cons t ts ih => exact (Nat.zero_add _).trans ih

theorem cost_eq_total (hσ : σ.definition = 0) (s : Span) (l : Label) :
    σ.cost s l = σ.total (l.ownText s) := by
  cases l with
  | constant c => cases c <;> rfl
  | file | functionDef | classDef => exact hσ
  | _ => rfl

theorem below_of_ne {l : Label} (h : l ≠ .joinedStr) : σ.below l = σ := by
  cases l with
  | joinedStr => exact absurd rfl h
  | _ => rfl

mutual

/-- A tree weighs what its texts weigh, and what is hidden in its format strings. -/
theorem weight_eq_total (hσ : σ.definition = 0) :
    ∀ t : Tree, σ.weight t = σ.total t.written + hidden.weight t
  | .node l r s cs => by
    have hbelow := weights_eq_total hσ cs
    rw [weight, weight, Tree.written, total_append, cost_eq_total hσ, cost_eq_total rfl s l,
      total_hidden]
    by_cases hl : l = .joinedStr
    · subst hl
      simp [below, total, Label.ownText]
    · rw [below_of_ne hl, below_of_ne hl, if_neg hl, hbelow]
      omega

theorem weights_eq_total (hσ : σ.definition = 0) :
    ∀ ts : List Tree, σ.weights ts = σ.total (Tree.writtenIn ts) + hidden.weights ts
  | [] => rfl
  | t :: ts => by
    rw [weights, weights, Tree.writtenIn, total_append, weight_eq_total hσ t,
      weights_eq_total hσ ts]
    omega

end

def counting (x : PlacedText) : Scale := ⟨fun y => if y = x then 1 else 0, 0⟩

theorem total_counting (x : PlacedText) (ts : List PlacedText) :
    (counting x).total ts = ts.count x := by
  induction ts with
  | nil => rfl
  | cons t ts ih =>
    rw [total] at ih ⊢
    simp [List.count_cons, ← ih, counting, Nat.add_comm]

end Scale

/-- There are no definitions in format strings. -/
theorem hidden_of_parse? [Dialect] (ht : parse? source = some t) : Scale.hidden.weight t = 0 := by
  cases htoks : tokens source with
  | none => simp [parse?, htoks] at ht
  | some toks => rw [weight_of_parse? rfl ht htoks, Scale.total_hidden]

/-- The texts of a file are, up to their order, those of its tokens. -/
theorem perm_written [Dialect] (ht : parse? source = some t) (htoks : tokens source = some toks) :
    t.written.Perm (written toks) := by
  refine List.perm_iff_count.mpr fun x => ?_
  have hfile := weight_of_parse? (σ := .counting x) rfl ht htoks
  rw [Scale.weight_eq_total rfl, hidden_of_parse? ht, Nat.add_zero] at hfile
  rwa [Scale.total_counting, Scale.total_counting] at hfile

end Restyle.Syntax
