import Restyle.Proofs.Syntax.AlikeExpressions

/-!
The grammar on alike tokens: patterns. A pattern tells `_` from other names, so alike names are
both `_` or both not.
-/

open Restyle.Syntax.Parser

namespace Restyle.Syntax.Grammar

variable [Dialect] {ν : NameLikeness} {F : Places} {r r' : Rules} {start start' : Span}

variable (hr : RulesLike ν r r')

/-! ### Names and numbers -/

theorem steady_wildcard : Steady ν (.name "_") := steady_name (by decide)

theorem like_captureName : Like ν F ν.rel captureName captureName := by
  refine (like_isNext steady_wildcard).bind_eq fun isWildcard => ?_
  exact (like_guardThat _).seq like_name

theorem like_isNumber : Like ν F Eq isNumber isNumber :=
  like_kind?_bind (Like.pure rfl) fun h => by cases h <;> exact Like.pure rfl

def MarkedLike (ν : NameLikeness) (F : Places) (x y : Tree × Bool) : Prop :=
  TreeLike ν F x.1 y.1 ∧ x.2 = y.2

theorem like_signedNumber : Like ν F (MarkedLike ν F) signedNumber signedNumber := by
  refine like_here.bind fun _ => (like_acceptOp "-").bind_eq fun negative => ?_
  refine like_here.bind fun _ => like_take.bind ?_
  rintro ⟨k, s⟩ ⟨k', s'⟩ h
  cases h with
  | number kind text =>
    refine (like_same rfl .nil).bind fun ht => ?_
    refine (Like.ite (like_same rfl (.cons (ht.as _) .nil)) (Like.pure ht)).bind
      fun ht => ?_
    exact Like.pure ⟨ht, rfl⟩
  | _ => exact Like.failure

theorem like_numberPattern : LikeTree ν F numberPattern numberPattern := by
  refine like_here.bind fun _ => like_signedNumber.bind ?_
  rintro ⟨left, imaginary⟩ ⟨left', _⟩ ⟨hleft, rfl⟩
  refine (like_anyOp _).bind_eq fun o => ?_
  cases o with
  | none => exact Like.pure hleft
  | some o =>
    refine like_isNumber.bind_eq fun isNumber => ?_
    refine (like_guardThat _).seq (like_signedNumber.bind ?_)
    rintro ⟨right, imaginary⟩ ⟨right', _⟩ ⟨hright, rfl⟩
    refine (like_guardThat _).seq ?_
    exact like_same rfl (.cons (hleft.as _) (.cons (hright.as _) .nil))

theorem like_dottedValue : Like ν F (MarkedLike ν F) dottedValue dottedValue := by
  refine like_here.bind fun _ => like_name.bind fun hid => ?_
  refine (like_read (.name hid .load) .nil rfl).bind fun hfirst => ?_
  refine (like_isOp ".").bind_eq fun dotted => ?_
  refine (like_extendWhile (like_isOp ".") (fun t t' ht => ?_) hfirst).bind fun ht =>
    Like.pure ⟨ht.tree, rfl⟩
  refine (like_op ".").seq (like_name.bind fun hattr => ?_)
  exact like_read (.attr hattr .load) (.cons (ht.as _) .nil) rfl

theorem like_valueNode {t t' : Tree} (ht : TreeLike ν F t t') :
    LikeTree ν F (valueNode start t) (valueNode start' t') :=
  like_same rfl (.cons (ht.as _) .nil)

/-! ### Sequences -/

def PartsTreeLike (ν : NameLikeness) (F : Places) (x y : List Tree × Bool) : Prop :=
  TreesLike ν F x.1 y.1 ∧ x.2 = y.2

theorem like_sequenceNode (isStar : Bool) {parts parts' : List Tree × Bool}
    (h : PartsTreeLike ν F parts parts') :
    LikeTree ν F (sequenceNode start isStar parts) (sequenceNode start' isStar parts') := by
  refine like_oneOr h (fun ht => ?_) fun hts => like_same rfl (hts.as _)
  exact (like_guardThat _).seq (Like.pure ht)

include hr

theorem like_maybeStarPattern : LikeTree ν F (maybeStarPattern r) (maybeStarPattern r') := by
  refine like_here.bind fun _ => (like_acceptOp "*").branch ?_ hr.pattern
  refine (like_accept steady_wildcard).branch ?_ ?_
  · exact like_node (.matchStar .none) .nil rfl
  · exact like_name.bind fun hid => like_node (.matchStar (.some hid)) .nil rfl

theorem like_sequenceParts (close : String) :
    Like ν F (PartsTreeLike ν F) (sequenceParts r close) (sequenceParts r' close) :=
  (like_isOp close).branch (Like.pure ⟨.nil, rfl⟩)
    (like_commaList (like_isOp close) (like_maybeStarPattern hr))

theorem like_roundPattern : LikeTree ν F (roundPattern r start) (roundPattern r' start') := by
  refine (like_op "(").seq ((like_isOp "*").bind_eq fun isStar => ?_)
  refine (like_sequenceParts hr ")").bind fun hparts => ?_
  exact (like_op ")").seq (like_sequenceNode isStar hparts)

theorem like_squarePattern : LikeTree ν F (squarePattern r start) (squarePattern r' start') := by
  refine (like_op "[").seq ?_
  refine (like_sequenceParts hr "]").bind fun hparts => ?_
  refine (like_op "]").seq ?_
  exact like_same rfl (hparts.1.as _)

/-! ### Mappings -/

omit hr

theorem like_constantHere? : Like ν F Eq constantHere? constantHere? :=
  like_kind?_bind (Like.pure rfl) fun h => by cases h <;> exact Like.pure rfl

inductive MappingItemLike (ν : NameLikeness) (F : Places) : MappingItem → MappingItem → Prop
  | pair {k k' p p' : Tree} (hk : TreeLike ν F k k') (hp : TreeLike ν F p p') :
      MappingItemLike ν F (.pair k p) (.pair k' p')
  | rest {a b : String} (h : ν.rel a b) : MappingItemLike ν F (.rest a) (.rest b)

def MappingLike (ν : NameLikeness) (F : Places) (x y : List Tree × List Tree × Option String) :
    Prop :=
  TreesLike ν F x.1 y.1 ∧ TreesLike ν F x.2.1 y.2.1 ∧ Option.Rel ν.rel x.2.2 y.2.2

omit [Dialect] in
theorem rel_mapping_arrange {items items' : List MappingItem}
    (h : List.Forall₂ (MappingItemLike ν F) items items') :
    Option.Rel (MappingLike ν F) (MappingItem.arrange items) (MappingItem.arrange items') := by
  induction h with
  | nil => exact .some ⟨.nil, .nil, .none⟩
  | cons hitem hmore ih =>
    cases hitem with
    | pair hk hp =>
      exact rel_map ih fun _ _ h => ⟨.cons (hk.as _) h.1, .cons (hp.as _) h.2.1, h.2.2⟩
    | rest h =>
      cases hmore with
      | nil => exact .some ⟨.nil, .nil, .some h⟩
      | cons _ _ => exact .none

include hr

theorem like_mappingKey : LikeTree ν F (mappingKey r) (mappingKey r') := by
  refine like_here.bind fun _ => like_isString.branch (like_strings hr).tree ?_
  refine like_constantHere?.bind_eq fun c => ?_
  cases c with
  | some c => exact like_take.seq (like_same rfl .nil)
  | none =>
    refine like_isName.branch (like_dottedValue.bind ?_) like_numberPattern
    rintro ⟨t, dotted⟩ ⟨t', _⟩ ⟨ht, rfl⟩
    exact (like_guardThat _).seq (Like.pure ht)

theorem like_mappingItem : Like ν F (MappingItemLike ν F) (mappingItem r) (mappingItem r') := by
  refine (like_acceptOp "**").branch ?_ ?_
  · exact like_captureName.bind fun hid => Like.pure (.rest hid)
  · refine (like_mappingKey hr).bind fun hkey => (like_op ":").seq ?_
    exact hr.pattern.bind fun hp => Like.pure (.pair hkey hp)

theorem like_mappingPattern : LikeTree ν F (mappingPattern r start) (mappingPattern r' start') := by
  refine (like_op _).seq ?_
  refine (like_itemsUpTo _ (like_mappingItem hr)).bind fun hitems => ?_
  refine (like_op _).seq ?_
  refine (like_lift (rel_mapping_arrange hitems)).bind fun hxy => ?_
  exact like_node (.matchMapping hxy.2.2) (hxy.1.append hxy.2.1) rfl

/-! ### Classes -/

inductive ClassItemLike (ν : NameLikeness) (F : Places) : ClassItem → ClassItem → Prop
  | positional {p p' : Tree} (h : TreeLike ν F p p') :
      ClassItemLike ν F (.positional p) (.positional p')
  | keyword {a b : String} {p p' : Tree} (hname : ν.rel a b) (h : TreeLike ν F p p') :
      ClassItemLike ν F (.keyword a p) (.keyword b p')

def ClassLike (ν : NameLikeness) (F : Places) (x y : List Tree × List String × List Tree) : Prop :=
  TreesLike ν F x.1 y.1 ∧ List.Forall₂ ν.rel x.2.1 y.2.1 ∧ TreesLike ν F x.2.2 y.2.2

omit hr

omit [Dialect] in
theorem rel_class_arrange {items items' : List ClassItem}
    (h : List.Forall₂ (ClassItemLike ν F) items items') (named : Bool) :
    Option.Rel (ClassLike ν F) (ClassItem.arrange named items)
      (ClassItem.arrange named items') := by
  induction h generalizing named with
  | nil => exact .some ⟨.nil, .nil, .nil⟩
  | cons hitem _ ih =>
    cases hitem with
    | positional hp =>
      simp only [ClassItem.arrange]
      split
      · exact .none
      · exact rel_map (ih false) fun _ _ h => ⟨.cons (hp.as _) h.1, h.2⟩
    | keyword hname hp =>
      exact rel_map (ih true) fun _ _ h =>
        ⟨h.1, .cons hname h.2.1, .cons (hp.as _) h.2.2⟩

include hr

theorem like_classItem : Like ν F (ClassItemLike ν F) (classItem r) (classItem r') := by
  refine like_isName.bind_eq fun b => ?_
  refine like_second?.bind fun hnext => ?_
  rw [(steady_op "=").beq_eq hnext]
  refine Like.ite ?_ ?_
  · refine like_name.bind fun hid => (like_op "=").seq ?_
    exact hr.pattern.bind fun hp => Like.pure (.keyword hid hp)
  · exact hr.pattern.bind fun hp => Like.pure (.positional hp)

theorem like_classPattern {t t' : Tree} (ht : TreeLike ν F t t') :
    LikeTree ν F (classPattern r start t) (classPattern r' start' t') := by
  refine (like_op "(").seq ?_
  refine (like_itemsUpTo ")" (like_classItem hr)).bind fun hitems => ?_
  refine (like_op ")").seq ?_
  refine (like_lift (rel_class_arrange hitems false)).bind fun hxy => ?_
  exact like_node (.matchClass hxy.2.1) (TreesLike.append (.cons (ht.as _) hxy.1) hxy.2.2) rfl

/-! ### Patterns -/

theorem like_namePattern : LikeTree ν F (namePattern r start) (namePattern r' start') := by
  refine like_kind?.bind fun hk => ?_
  rw [(steady_name (w := "_") (by decide)).beq_eq hk]
  refine Like.ite (like_take.seq (like_node (.matchAs .none) .nil rfl)) ?_
  refine like_dottedValue.bind ?_
  rintro ⟨t, dotted⟩ ⟨t', _⟩ ⟨ht, rfl⟩
  refine (like_isOp "(").branch (like_classPattern hr ht) (Like.ite ?_ ?_)
  · refine (like_isOp "=").bind_eq fun b => ?_
    exact (like_guardThat _).seq (like_valueNode ht)
  · refine (like_isOp "=").bind_eq fun b => ?_
    refine (like_guardThat _).seq ?_
    cases ht with
    | @node l l' _ _ _ _ _ hl _ =>
      cases hl with
      | name h => exact like_node (.matchAs (.some h)) .nil rfl
      | same h =>
        cases l with
        | name => cases h
        | _ => exact Like.failure
      | _ => exact Like.failure

theorem like_closedPattern : LikeTree ν F (closedPattern r) (closedPattern r') := by
  refine like_here.bind fun {start start'} _ => like_kind?.bind fun hk => ?_
  have hstring : LikeTree ν F (strings r >>= valueNode start)
      (strings r' >>= valueNode start') :=
    (like_strings hr).bind fun ht => like_valueNode ht.tree
  have hnumber : LikeTree ν F (numberPattern >>= valueNode start)
      (numberPattern >>= valueNode start') :=
    like_numberPattern.bind fun ht => like_valueNode ht
  cases hk with
  | none => exact hnumber
  | some hk =>
    cases hk with
    | name _ => exact like_namePattern hr
    | string _ => exact hstring
    | changed _ _ _ => exact hstring
    | keyword k =>
      refine (like_lift (rel_eq (constantWord? k))).bind_eq fun c => ?_
      exact like_take.seq (like_same rfl .nil)
    | op o =>
      exact Like.ite (like_roundPattern hr) (Like.ite (like_squarePattern hr)
        (Like.ite (like_mappingPattern hr) hnumber))
    | _ => exact hnumber

theorem like_pattern : LikeTree ν F (pattern r) (pattern r') := by
  refine like_here.bind fun _ => ?_
  refine (like_closedPattern hr).bind fun hfirst => ?_
  refine (like_repeatWhile (like_isOp "|")
    ((like_op "|").seq (like_closedPattern hr))).bind fun hrest => ?_
  rw [rel_isEmpty hrest]
  refine (Like.ite (Like.pure hfirst)
    (like_same rfl (TreesLike.as (.cons hfirst hrest) _))).bind fun ht => ?_
  refine (like_acceptKeyword "as").branch ?_ (Like.pure ht)
  refine like_captureName.bind fun hid => ?_
  exact like_node (.matchAs (.some hid)) (.cons (ht.as _) .nil) rfl

theorem like_casePattern : LikeTree ν F (casePattern r) (casePattern r') := by
  refine like_here.bind fun _ => (like_isOp "*").bind_eq fun isStar => ?_
  have hstop : Like ν F Eq (do return (← isOp ":") || (← isKeyword "if"))
      (do return (← isOp ":") || (← isKeyword "if")) := by
    refine (like_isOp ":").bind_eq fun colon => ?_
    refine (like_isKeyword "if").bind_eq fun word => ?_
    exact Like.pure rfl
  refine (like_commaList hstop (like_maybeStarPattern hr)).bind fun hparts => ?_
  exact like_sequenceNode isStar hparts

end Restyle.Syntax.Grammar
