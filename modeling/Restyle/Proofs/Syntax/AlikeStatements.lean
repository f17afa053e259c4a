import Restyle.Proofs.Syntax.AlikePatterns

/-!
The grammar on alike tokens: statements and files. The rules are alike at every depth, so alike
tokens are the tokens of alike trees. Main statement: two texts with alike tokens are both the text
of a file or both not, and the trees of the files are alike.
-/

open Restyle.Syntax.Parser

namespace Restyle.Syntax.Grammar

variable [Dialect] {ν : NameLikeness} {F : Places} {r r' : Rules} {start start' : Span}

variable (hr : RulesLike ν r r')

/-! ### Statements without blocks -/

theorem like_assignment {t t' : Tree} {ts ts' : List Tree} (ht : TreeLike ν F t t')
    (hts : TreesLike ν F ts ts') :
    LikeTree ν F (assignment start t ts) (assignment start' t' ts') := by
  have hlast : Option.Rel (TreeLike ν F) ts.getLast? ts'.getLast? := by
    rw [List.getLast?_eq_head?_reverse, List.getLast?_eq_head?_reverse]
    have hreverse := List.rel_reverse hts
    generalize ts.reverse = us at hreverse ⊢
    generalize ts'.reverse = us' at hreverse ⊢
    cases hreverse with
    | nil => exact .none
    | cons h _ => exact .some h
  have hsides : TreesLike ν F (t :: ts.dropLast) (t' :: ts'.dropLast) := by
    rw [List.dropLast_eq_take, List.dropLast_eq_take, hts.length_eq]
    exact .cons ht (List.forall₂_take _ hts)
  refine (like_lift hlast).bind fun hvalue => ?_
  refine (like_lift (rel_mapM hsides fun _ _ h => rel_asTarget? .store true _ _ h)).bind
    fun htargets => ?_
  exact like_same rfl ((TreesLike.as htargets _).append (.single (hvalue.as _)))

theorem like_nameList : Like ν F (List.Forall₂ ν.rel) nameList nameList := by
  refine like_name.bind fun hfirst => ?_
  refine (like_repeatWhile (like_isOp ",") ((like_op ",").seq like_name)).bind
    fun hrest => ?_
  exact Like.pure (.cons hfirst hrest)

theorem like_dottedName : Like ν F ν.Dotted dottedName dottedName := by
  refine like_name.bind fun hfirst => ?_
  refine (like_repeatWhile (like_isOp ".") ((like_op ".").seq like_name)).bind
    fun hrest => ?_
  exact Like.pure ⟨_, _, .cons hfirst hrest, rfl, rfl⟩

theorem like_asName : Like ν F (Option.Rel ν.rel) asName asName :=
  (like_acceptKeyword "as").branch (like_name.bind fun h => Like.pure (.some h))
    (Like.pure .none)

theorem like_aliasOf {p p' : Parser String} (hp : Like ν F ν.Dotted p p') :
    LikeTree ν F (aliasOf p) (aliasOf p') := by
  refine like_here.bind fun _ => hp.bind fun hid => ?_
  refine like_asName.bind fun hother => ?_
  exact (like_node (.importName hid hother) .nil rfl).bind fun ht => Like.pure (ht.as _)

theorem like_importStatement : LikeTree ν F (importStatement start) (importStatement start') := by
  refine (like_aliasOf like_dottedName).bind fun hfirst => ?_
  refine (like_repeatWhile (like_isOp ",")
    ((like_op ",").seq (like_aliasOf like_dottedName))).bind fun hrest => ?_
  exact like_same rfl (.cons hfirst hrest)

theorem like_importedNames : Like ν F (TreesLike ν F) importedNames importedNames := by
  have halias : LikeTree ν F (aliasOf name) (aliasOf name) :=
    like_aliasOf (like_name.mono NameLikeness.dotted_single)
  refine like_here.bind fun _ => ?_
  refine (like_acceptOp "*").branch ?_ ((like_acceptOp "(").branch ?_ ?_)
  · exact (like_node .importAll .nil rfl).bind fun ht => Like.pure (.single (ht.as _))
  · refine (like_commaList (like_isOp ")") halias).bind fun hnames => ?_
    exact (like_op ")").seq (Like.pure hnames.1)
  · refine halias.bind fun hfirst => ?_
    refine (like_repeatWhile (like_isOp ",") ((like_op ",").seq halias)).bind
      fun hrest => ?_
    exact Like.pure (.cons hfirst hrest)

theorem like_isDots : Like ν F Eq isDots isDots := by
  refine (like_isOp ".").bind_eq fun one => ?_
  refine (like_isOp "...").bind_eq fun three => ?_
  exact Like.pure rfl

theorem like_importPath (level : Nat) :
    Like ν F (Option.Rel ν.Dotted) (importPath level) (importPath level) := by
  refine like_isName.branch ?_ ((like_guardThat _).seq (Like.pure .none))
  exact like_dottedName.bind fun hpath => Like.pure (.some hpath)

theorem like_importFromStatement :
    LikeTree ν F (importFromStatement start) (importFromStatement start') := by
  refine Like.bind_eq ?_ fun dots => ?_
  · refine Like.mono (R := List.Forall₂ Eq) (like_repeatWhile like_isDots ?_) ?_
    · refine (like_acceptOp "...").branch (Like.pure rfl) ?_
      exact (like_op ".").seq (Like.pure rfl)
    · intro dots dots' h
      rwa [List.forall₂_eq_eq_eq] at h
  refine (like_importPath _).bind fun hpath => (like_keyword "import").bind
    fun _ => ?_
  exact like_importedNames.bind fun hnames => like_node (.importFrom _ hpath) hnames rfl

include hr

theorem like_assignedSides : Like ν F (TreesLike ν F) (assignedSides r) (assignedSides r') :=
  like_repeatWhile (like_isOp "=") ((like_op "=").seq (like_yieldOrExpressions hr))

theorem like_expressionStatement :
    LikeTree ν F (expressionStatement r) (expressionStatement r') := by
  refine like_here.bind fun _ => ?_
  refine (like_yieldOrExpressions hr).bind fun hfirst => ?_
  have hplace := rel_asPlace? .store hfirst
  refine (like_isOp "=").branch ?_ ((like_acceptOp ":").branch ?_ ?_)
  · exact (like_assignedSides hr).bind fun hrest => like_assignment hfirst hrest
  · refine (like_lift hplace).bind fun htarget => ?_
    refine hr.expression.bind fun hhint => ?_
    refine (like_optionally (like_acceptOp "=") (like_yieldOrExpressions hr)).bind
      fun hvalue => ?_
    exact like_same rfl (.cons (htarget.as _) (.cons (hhint.as _) (TreesLike.as hvalue _)))
  · refine (like_anyOp _).bind_eq fun o => ?_
    cases o with
    | none => exact like_same rfl (.cons (hfirst.as _) .nil)
    | some o =>
      refine (like_lift hplace).bind fun htarget => ?_
      refine (like_yieldOrExpressions hr).bind fun hvalue => ?_
      exact like_same rfl (.cons (htarget.as _) (.cons (hvalue.as _) .nil))

theorem like_returnStatement :
    LikeTree ν F (returnStatement r start) (returnStatement r' start') := by
  refine like_startsExpression.branch ?_ (like_same rfl .nil)
  exact (like_starExpressions hr).bind fun ht => like_same rfl (.cons (ht.as _) .nil)

theorem like_raiseStatement : LikeTree ν F (raiseStatement r start) (raiseStatement r' start') := by
  refine like_startsExpression.branch ?_ (like_same rfl .nil)
  refine hr.expression.bind fun hexc => (like_acceptKeyword "from").branch ?_ ?_
  · refine hr.expression.bind fun hcause => ?_
    exact like_same rfl (.cons (hexc.as _) (.cons (hcause.as _) .nil))
  · exact like_same rfl (.cons (hexc.as _) .nil)

theorem like_deleteStatement :
    LikeTree ν F (deleteStatement r start) (deleteStatement r' start') := by
  refine (like_commaList like_noExpression hr.primary.tree).bind fun hitems => ?_
  refine (like_lift (rel_mapM hitems.1 fun _ _ h => rel_asTarget? .delete false _ _ h)).bind
    fun htargets => ?_
  exact like_same rfl (TreesLike.as htargets _)

theorem like_assertStatement :
    LikeTree ν F (assertStatement r start) (assertStatement r' start') := by
  refine hr.expression.bind fun htest => (like_acceptOp ",").branch ?_ ?_
  · refine hr.expression.bind fun hmessage => ?_
    exact like_same rfl (.cons (htest.as _) (.cons (hmessage.as _) .nil))
  · exact like_same rfl (.cons (htest.as _) .nil)

theorem like_simpleStatement : LikeTree ν F (simpleStatement r) (simpleStatement r') := by
  refine like_here.bind fun _ => like_kind?_bind (like_expressionStatement hr) fun hk => ?_
  cases hk with
  | keyword k =>
    refine Like.ite (like_take.seq (like_returnStatement hr)) ?_
    refine Like.ite (like_take.seq like_importStatement) ?_
    refine Like.ite (like_take.seq like_importFromStatement) ?_
    refine Like.ite (like_take.seq (like_raiseStatement hr)) ?_
    refine Like.ite (like_take.seq (like_same rfl .nil)) ?_
    refine Like.ite (like_take.seq (like_same rfl .nil)) ?_
    refine Like.ite (like_take.seq (like_same rfl .nil)) ?_
    refine Like.ite (like_take.seq (like_deleteStatement hr)) ?_
    refine Like.ite (like_take.seq (like_assertStatement hr)) ?_
    refine Like.ite (like_take.bind fun _ => like_nameList.bind fun h =>
      like_node (.globalStmt h) .nil rfl) ?_
    exact Like.ite (like_take.bind fun _ => like_nameList.bind fun h =>
      like_node (.nonlocalStmt h) .nil rfl) (like_expressionStatement hr)
  | _ => exact like_expressionStatement hr

theorem like_simpleStatements :
    Like ν F (TreesLike ν F) (simpleStatements r) (simpleStatements r') := by
  refine (like_simpleStatement hr).bind fun hfirst => ?_
  refine (like_repeatWhile ((like_isOp ";").bind_eq fun b => ?_)
    ((like_op ";").seq (like_simpleStatement hr))).bind fun hrest => ?_
  · refine like_second?.bind fun hnext => Like.pure ?_
    rw [steady_newline.beq_eq hnext]
  refine (like_acceptOp ";").seq ((like_expect steady_newline).seq ?_)
  exact Like.pure (.cons hfirst hrest)

/-! ### Statements with blocks -/

def ElifLike (ν : NameLikeness) (F : Places) (x y : Span × Tree × List Tree) : Prop :=
  TreeLike ν F x.2.1 y.2.1 ∧ TreesLike ν F x.2.2 y.2.2

omit hr

omit [Dialect] in
theorem treesLike_chainElse (n n' : Nat) {last last' : List Tree}
    (hlast : TreesLike ν F last last') {xs ys : List (Span × Tree × List Tree)}
    (h : List.Forall₂ (ElifLike ν F) xs ys) :
    TreesLike ν F (chainElse n last xs) (chainElse n' last' ys) := by
  induction h with
  | nil => exact hlast
  | cons hxy _ ih =>
    exact .single (.node _ (.same rfl)
      (TreesLike.append (.cons (hxy.1.as _) (hxy.2.as _)) ih) rfl)

theorem like_get : Like ν F (fun _ _ => True) get get := fun _ _ hs => .some ⟨trivial, hs⟩

def HandledLike (ν : NameLikeness) (F : Places) (x y : List Tree × Option String) : Prop :=
  TreesLike ν F x.1 y.1 ∧ Option.Rel ν.rel x.2 y.2

include hr

theorem like_suite : Like ν F (TreesLike ν F) (suite r) (suite r') :=
  (like_op ":").seq hr.block

theorem like_optionalSuite (word : String) (role : Role) :
    Like ν F (TreesLike ν F) (optionalSuite r word role) (optionalSuite r' word role) :=
  (like_acceptKeyword word).branch
    ((like_suite hr).bind fun h => Like.pure (TreesLike.as h role)) (Like.pure .nil)

theorem like_elifClauses :
    Like ν F (List.Forall₂ (ElifLike ν F)) (elifClauses r) (elifClauses r') := by
  refine like_repeatWhile (like_isKeyword "elif") (like_here.bind fun _ => ?_)
  refine (like_keyword "elif").seq ((like_named hr).bind fun htest => ?_)
  exact (like_suite hr).bind fun hbody => Like.pure ⟨htest.tree, hbody⟩

theorem like_ifStatement : LikeTree ν F (ifStatement r start) (ifStatement r' start') := by
  refine (like_named hr).bind fun htest => ?_
  refine (like_suite hr).bind fun hbody => ?_
  refine (like_elifClauses hr).bind fun hclauses => ?_
  refine (like_optionalSuite hr "else" .orelse).bind fun hlast => ?_
  refine like_get.bind fun _ => ?_
  exact like_same rfl (TreesLike.append (.cons (htest.as _) (TreesLike.as hbody _))
    (treesLike_chainElse _ _ hlast hclauses))

theorem like_whileStatement : LikeTree ν F (whileStatement r start) (whileStatement r' start') := by
  refine (like_named hr).bind fun htest => ?_
  refine (like_suite hr).bind fun hbody => ?_
  refine (like_optionalSuite hr "else" .orelse).bind fun horelse => ?_
  exact like_same rfl
    (TreesLike.append (.cons (htest.as _) (TreesLike.as hbody _)) horelse)

theorem like_forStatement (isAsync : Bool) :
    LikeTree ν F (forStatement r isAsync start) (forStatement r' isAsync start') := by
  refine (like_targets hr).bind fun htarget => ?_
  refine (like_keyword "in").seq ?_
  refine (like_starExpressions hr).bind fun hiter => ?_
  refine (like_suite hr).bind fun hbody => ?_
  refine (like_optionalSuite hr "else" .orelse).bind fun horelse => ?_
  exact like_same rfl (TreesLike.append
    (.cons (htarget.as _) (.cons (hiter.as _) (TreesLike.as hbody _))) horelse)

theorem like_withItem : LikeTree ν F (withItem r) (withItem r') := by
  refine like_here.bind fun _ => hr.expression.bind fun hcontext => ?_
  refine (like_optionally (like_acceptKeyword "as") (like_starTarget hr)).bind
    fun hbound => ?_
  refine (like_same rfl (.cons (hcontext.as _) (TreesLike.as hbound _))).bind
    fun ht => ?_
  exact Like.pure (ht.as _)

theorem like_bracketedItems : Like ν F (TreesLike ν F) (bracketedItems r) (bracketedItems r') := by
  refine (like_op "(").seq ?_
  refine (like_commaList (like_isOp ")") (like_withItem hr)).bind fun hitems => ?_
  refine (like_op ")").seq ((like_isOp ":").bind_eq fun b => ?_)
  exact (like_guardThat _).seq (Like.pure hitems.1)

theorem like_plainItems : Like ν F (TreesLike ν F) (plainItems r) (plainItems r') := by
  refine (like_withItem hr).bind fun hfirst => ?_
  refine (like_repeatWhile (like_isOp ",")
    ((like_op ",").seq (like_withItem hr))).bind fun hrest => ?_
  exact Like.pure (.cons hfirst hrest)

theorem like_withStatement (isAsync : Bool) :
    LikeTree ν F (withStatement r isAsync start) (withStatement r' isAsync start') := by
  refine ((like_bracketedItems hr).orElse (like_plainItems hr)).bind fun hitems => ?_
  refine (like_suite hr).bind fun hbody => ?_
  exact like_same rfl (TreesLike.append hitems (TreesLike.as hbody _))

theorem like_handled (isGroup : Bool) :
    Like ν F (HandledLike ν F) (handled r isGroup) (handled r' isGroup) := by
  refine (like_isOp ":").branch ?_ ?_
  · exact (like_guardThat _).seq (Like.pure ⟨.nil, .none⟩)
  · refine hr.expression.bind fun ht => like_asName.bind fun hid => ?_
    exact Like.pure ⟨.single (ht.as _), hid⟩

theorem like_exceptHandler (isGroup : Bool) :
    LikeTree ν F (exceptHandler r isGroup) (exceptHandler r' isGroup) := by
  refine like_here.bind fun _ => (like_keyword "except").seq ?_
  refine (Like.ite (like_op "*") (Like.pure rfl)).seq ?_
  refine (like_handled hr isGroup).bind fun hxy => ?_
  refine (like_suite hr).bind fun hbody => ?_
  refine (like_node (.exceptHandler hxy.2) (hxy.1.append (TreesLike.as hbody _)) rfl).bind
    fun ht => ?_
  exact Like.pure (ht.as _)

theorem like_tryStatement : LikeTree ν F (tryStatement r start) (tryStatement r' start') := by
  refine (like_suite hr).bind fun hbody => ?_
  refine (like_isKeyword "except").bind_eq fun isExcept => ?_
  refine like_second?.bind fun hnext => ?_
  rw [(steady_op "*").beq_eq hnext]
  refine (like_repeatWhile (like_isKeyword "except") (like_exceptHandler hr _)).bind
    fun hhandlers => ?_
  rw [rel_isEmpty hhandlers]
  refine (Like.ite (Like.pure .nil) (like_optionalSuite hr "else" .orelse)).bind
    fun horelse => ?_
  refine (like_optionalSuite hr "finally" .finalbody).bind fun hfinal => ?_
  rw [rel_isEmpty hfinal]
  refine (like_guardThat _).seq ?_
  exact like_same rfl
    (TreesLike.append (TreesLike.append (TreesLike.append (TreesLike.as hbody _) hhandlers) horelse)
      hfinal)

theorem like_functionStatement (isAsync : Bool) {ds ds' : List Tree} (hds : TreesLike ν F ds ds') :
    LikeTree ν F (functionStatement r isAsync start ds)
      (functionStatement r' isAsync start' ds') := by
  refine (like_keyword "def").seq (like_name.bind fun hid => ?_)
  refine (like_op "(").seq ?_
  refine (like_parameters hr true ")").bind fun hparams => ?_
  refine (like_op ")").seq ?_
  have hreturns := like_optionally (F := F) (like_acceptOp "->") hr.expression.tree
  refine hreturns.bind fun hreturns => ?_
  refine (like_suite hr).bind fun hbody => ?_
  exact like_node (.functionDef isAsync hid) (TreesLike.append (TreesLike.append
    (.cons (hparams.as _) (TreesLike.as hbody _)) hds) (TreesLike.as hreturns _)) rfl

theorem like_classArguments : Like ν F (PairLike ν F) (classArguments r) (classArguments r') :=
  (like_acceptOp "(").branch (like_callArguments hr) (Like.pure ⟨.nil, .nil⟩)

theorem like_classStatement {ds ds' : List Tree} (hds : TreesLike ν F ds ds') :
    LikeTree ν F (classStatement r start ds) (classStatement r' start' ds') := by
  refine (like_keyword "class").seq (like_name.bind fun hid => ?_)
  refine (like_classArguments hr).bind fun hxy => ?_
  refine (like_suite hr).bind fun hbody => ?_
  exact like_node (.classDef hid) (TreesLike.append
    (TreesLike.append (TreesLike.append (hxy.1.as _) hxy.2) (TreesLike.as hbody _)) hds) rfl

theorem like_definition {ds ds' : List Tree} (hds : TreesLike ν F ds ds') :
    LikeTree ν F (definition r ds) (definition r' ds') := by
  refine like_here.bind fun _ => ?_
  refine (like_isKeyword "class").branch (like_classStatement hr hds) ?_
  refine (like_acceptKeyword "async").bind_eq fun isAsync => ?_
  exact like_functionStatement hr isAsync hds

theorem like_decorated : LikeTree ν F (decorated r) (decorated r') := by
  refine Like.bind (R := TreesLike ν F) (like_repeatWhile (like_isOp "@") ?_) fun hds =>
    like_definition hr hds
  refine (like_op "@").seq ((like_named hr).bind fun ht => ?_)
  exact (like_expect steady_newline).seq (Like.pure (ht.as _))

theorem like_asyncStatement : LikeTree ν F (asyncStatement r start) (asyncStatement r' start') := by
  refine like_second?.bind fun hnext => ?_
  rw [(steady_keyword "def").beq_eq hnext]
  refine Like.ite (like_definition hr .nil) ((like_keyword "async").seq ?_)
  refine (like_acceptKeyword "for").branch (like_forStatement hr true) ?_
  exact (like_keyword "with").seq (like_withStatement hr true)

/-! ### The `match` statement -/

theorem like_caseBlock : LikeTree ν F (caseBlock r) (caseBlock r') := by
  refine like_here.bind fun _ => ?_
  refine (like_expect (steady_name (by decide))).seq ?_
  refine (like_casePattern hr).bind fun hpattern => ?_
  refine (like_optionally (like_acceptKeyword "if") (like_named hr).tree).bind
    fun hguard => ?_
  refine (like_suite hr).bind fun hbody => ?_
  refine (like_same rfl (TreesLike.append (.cons (hpattern.as _) (TreesLike.as hguard _))
    (TreesLike.as hbody _))).bind fun ht => ?_
  exact Like.pure (ht.as _)

theorem like_matchSubject : LikeTree ν F (matchSubject r) (matchSubject r') := by
  refine like_here.bind fun _ => (like_isOp "*").bind_eq fun isStar => ?_
  refine (like_commaList like_noExpression (like_starNamed hr).tree).bind fun hitems => ?_
  refine like_oneOr hitems (fun ht => ?_) fun hts => like_same rfl (hts.as _)
  exact (like_guardThat _).seq (Like.pure ht)

theorem like_matchStatement : LikeTree ν F (matchStatement r) (matchStatement r') := by
  refine like_here.bind fun _ => ?_
  refine (like_expect (steady_name (by decide))).seq ?_
  refine (like_matchSubject hr).bind fun hsubject => ?_
  refine (like_op ":").seq ((like_expect steady_newline).seq ?_)
  refine (like_expect steady_indent).seq ?_
  refine (like_caseBlock hr).bind fun hfirst => ?_
  refine (like_repeatWhile (like_isNext (steady_name (by decide))) (like_caseBlock hr)).bind
    fun hrest => ?_
  refine (like_expect steady_dedent).seq ?_
  exact like_same rfl (.cons (hsubject.as _) (.cons hfirst hrest))

/-! ### Statements, blocks and files -/

omit hr

theorem like_single {p p' : Parser Tree} (hp : LikeTree ν F p p') :
    Like ν F (TreesLike ν F) (p >>= fun t => pure [t]) (p' >>= fun t => pure [t]) :=
  hp.bind fun h => Like.pure (.single h)

include hr

theorem like_statement :
    Like ν F (TreesLike ν F) (statement r) (statement r') := by
  refine like_here.bind fun _ => like_kind?_bind (like_simpleStatements hr) fun hk => ?_
  cases hk with
  | keyword k =>
    refine Like.ite (like_take.seq (like_single (like_ifStatement hr))) ?_
    refine Like.ite (like_take.seq (like_single (like_whileStatement hr))) ?_
    refine Like.ite (like_take.seq (like_single (like_forStatement hr false))) ?_
    refine Like.ite (like_take.seq (like_single (like_tryStatement hr))) ?_
    refine Like.ite (like_take.seq (like_single (like_withStatement hr false))) ?_
    refine Like.ite (like_single (like_definition hr .nil)) ?_
    exact Like.ite (like_single (like_asyncStatement hr)) (like_simpleStatements hr)
  | op o => exact Like.ite (like_single (like_decorated hr)) (like_simpleStatements hr)
  | name _ hsoft =>
    exact Like.ite_congr (hsoft "match" (by decide))
      ((like_single (like_matchStatement hr)).orElse (like_simpleStatements hr))
      (like_simpleStatements hr)
  | _ => exact like_simpleStatements hr

theorem like_block : Like ν F (TreesLike ν F) (block r) (block r') := by
  refine (like_accept steady_newline).branch ?_ (like_simpleStatements hr)
  refine (like_expect steady_indent).seq ?_
  refine (like_statement hr).bind fun hfirst => ?_
  refine (like_repeatWhile ((like_isNext steady_dedent).bind fun h =>
    Like.pure (congrArg (!·) h)) (like_statement hr)).bind fun hrest => ?_
  refine (like_expect steady_dedent).seq ?_
  exact Like.pure (TreesLike.append hfirst (List.rel_flatten hrest))

theorem rulesLike_step : RulesLike ν (step r) (step r') where
  expression := like_expression hr
  starExpressions := like_starExpressions hr
  disjunction := like_disjunction hr
  inversion := like_inversion hr
  bitwiseOr := like_bitwiseOr hr
  factor := like_factor hr
  primary := like_primary hr
  block := like_block hr
  pattern := like_pattern hr

omit hr in
theorem rulesLike_rules (depth : Nat) : RulesLike ν (rules depth) (rules depth) := by
  induction depth with
  | zero =>
    exact ⟨Like.failure, Like.failure, Like.failure, Like.failure, Like.failure, Like.failure,
      Like.failure, Like.failure, Like.failure⟩
  | succ depth ih => exact rulesLike_step ih

theorem like_file : Like ν F (TreesLike ν F) (file r) (file r') := by
  have hmore : Like ν F Eq (do return (← token?).isSome) (do return (← token?).isSome) := by
    rintro ⟨ts, n⟩ ⟨us, m⟩ hs
    refine .some ⟨?_, hs⟩
    cases hs.tokens <;> rfl
  refine (like_repeatWhile hmore (like_statement hr)).bind fun hrest => ?_
  exact Like.pure (List.rel_flatten hrest)

end Restyle.Syntax.Grammar

namespace Restyle.Syntax

variable [Dialect] {ν : NameLikeness} {F : Places}

theorem depth_eq {t u : Token} (h : TokenLike ν F t u) : t.depth = u.depth := by
  obtain ⟨k, s⟩ := t
  obtain ⟨k', s'⟩ := u
  cases h with
  | string h =>
    obtain ⟨site, hbody⟩ := h.body
    simp only [Token.depth, h.isFormat, marks, hbody.countP_marks]
  | changed _ hs ht => simp [Token.depth, hs.isFormat, ht.isFormat]
  | _ => rfl

/-- Texts with alike tokens are both files or both not, and as files they are alike. -/
theorem rel_parse? {source source' : List Char} {toks toks' : List Token}
    (hsource : tokens source = some toks) (hsource' : tokens source' = some toks')
    (h : List.Forall₂ (TokenLike ν F) toks toks') (halone : Standalone F toks) :
    Option.Rel (TreeLike ν F) (parse? source) (parse? source') := by
  have hdepth : toks.map Token.depth = toks'.map Token.depth :=
    List.forall₂_eq_eq_eq ▸ List.rel_map (fun _ _ h => depth_eq h) h
  simp only [parse?, hsource, hsource', ← hdepth]
  have hrules := Grammar.rulesLike_rules (ν := ν) (2 * (toks.map Token.depth).foldr (· + ·) 0 + 8)
  have hfile := Grammar.like_file hrules ⟨toks, 1⟩ ⟨toks', 1⟩ ⟨h, halone⟩
  generalize Grammar.file _ ⟨toks, 1⟩ = x at hfile ⊢
  generalize Grammar.file _ ⟨toks', 1⟩ = x' at hfile ⊢
  cases hfile with
  | none => exact .none
  | some h => exact .some (.node .root (.same rfl) (TreesLike.as h.1 _) rfl)

/-- Sources that are worded alike are both files or both not, and as files they are alike. -/
theorem rel_parse?_reworded {site : Site} {source source' : List Char}
    (h : Reworded ν site source source') :
    Option.Rel (TreeLike ν .none) (parse? source) (parse? source') := by
  have htoks := rel_tokens h
  cases hsource : tokens source with
  | none =>
    rw [hsource] at htoks
    generalize hsource' : tokens source' = x at htoks
    cases htoks
    simp only [parse?, hsource, hsource']
    exact .none
  | some toks =>
    rw [hsource] at htoks
    generalize hsource' : tokens source' = x at htoks
    cases htoks with
    | some halike => exact rel_parse? hsource hsource' halike (standalone_none toks)

end Restyle.Syntax
