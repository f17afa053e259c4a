import Restyle.Proofs.Syntax.BalanceArguments

/-!
The grammar is balanced: strings, atoms, operators and patterns. A literal, or several that stand
next to each other, becomes one constant with their text, at the place of the first one. Bytes and
format strings are no texts, and the fields of a format string are read from tokens of their own.
-/

open Restyle.Syntax.Parser

namespace Restyle.Syntax.Grammar

variable [Dialect] {σ : Scale} {r : Rules} {start : Span}

variable (hr : RulesBalanced r)

/-! ### Format strings -/

omit [Dialect] in
theorem total_inner (ts : List PlacedText) : Scale.inner.total ts = 0 := by
  induction ts with
  | nil => rfl
  | cons t ts ih => rw [Scale.total, List.map_cons, List.sum_cons, ← Scale.total, ih]; rfl

theorem inner_fieldExpression (hr : RulesBalanced r) {source : List Char} {line column : Nat}
    {t : Tree} (h : fieldExpression r source line column = some t) : Scale.inner.weight t = 0 := by
  unfold fieldExpression at h
  split at h
  · cases h
  split at h
  case h_1 s hrun =>
    have hbalance := hr.starExpressions (σ := .inner) _ _ _ hrun
    rw [total_inner, total_inner] at hbalance
    obtain ⟨-, rfl⟩ : _ ∧ _ = t := by simpa using h
    exact hbalance
  case h_2 => cases h

omit [Dialect] in
theorem inner_textTree (span : Span) (s : List Char) :
    ((textTree span s).map Scale.inner.weight).sum = 0 := by
  unfold textTree
  split <;> rfl

mutual

theorem inner_partTrees (hr : RulesBalanced r) (span : Span) : ∀ (pending : List Char)
    (ps : List FormatPart) (ts : List Tree), partTrees r span pending ps = some ts →
      (ts.map Scale.inner.weight).sum = 0
  | pending, [], ts, h => by
    rw [partTrees] at h
    cases h
    exact inner_textTree span pending
  | pending, .text s :: ps, ts, h => by
    rw [partTrees] at h
    exact inner_partTrees hr span (pending ++ s) ps ts h
  | pending, .field source line column conversion spec :: ps, ts, h => by
    rw [partTrees] at h
    obtain ⟨value, hvalue, h⟩ := Option.bind_eq_some_iff.mp h
    obtain ⟨format, hformat, h⟩ := Option.bind_eq_some_iff.mp h
    obtain ⟨rest, hrest, h⟩ := Option.bind_eq_some_iff.mp h
    cases h
    have hfield : Scale.inner.weight (.node (.formattedValue conversion) .value span
        (value.as .value :: format)) = 0 := by
      rw [Scale.weight_of_isPlain rfl]
      simp [inner_fieldExpression hr hvalue, inner_specTrees hr span spec format hformat]
    simp [hfield, inner_textTree, inner_partTrees hr span [] ps rest hrest]

theorem inner_specTrees (hr : RulesBalanced r) (span : Span) :
    ∀ (spec : Option (List FormatPart)) (ts : List Tree), specTrees r span spec = some ts →
      (ts.map Scale.inner.weight).sum = 0
  | none, ts, h => by
    rw [specTrees] at h
    cases h
    rfl
  | some parts, ts, h => by
    rw [specTrees] at h
    obtain ⟨us, hus, rfl⟩ := Option.map_eq_some_iff.mp h
    simp [Scale.weight_node, Scale.cost, Scale.below, inner_partTrees hr span [] parts us hus]

end

/-! ### Literals -/

/-- Literals that stand next to each other weigh what their text weighs. -/
theorem weight_joinLiterals (hr : RulesBalanced r) {span : Span} {literals : List StringToken}
    {t : Tree} (hne : literals ≠ []) (h : joinLiterals r span literals = some t) :
    σ.weight t = σ.total
      ((joinedText? literals).map (PlacedText.mk (span.line, span.column))).toList := by
  obtain ⟨parts, hparts, h⟩ := Option.bind_eq_some_iff.mp h
  have hnone (hany : literals.any (fun s => s.isBytes || s.isFormat) = true) :
      joinedText? literals = none := if_pos hany
  dsimp only at h
  split at h
  case isTrue hbytes =>
    obtain ⟨first, rest, rfl⟩ := List.exists_cons_of_ne_nil hne
    obtain ⟨-, h⟩ := Option.ite_none_left_eq_some.mp h
    cases h
    have hfirst : first.isBytes = true := List.all_eq_true.mp hbytes first List.mem_cons_self
    rw [hnone (by simp [hfirst])]
    rfl
  case isFalse =>
    obtain ⟨hbytes, h⟩ := Option.ite_none_left_eq_some.mp h
    split at h
    case isTrue hformat =>
      obtain ⟨ts, hts, rfl⟩ := Option.map_eq_some_iff.mp h
      obtain ⟨s, hs, hsformat⟩ := List.any_eq_true.mp hformat
      rw [hnone (List.any_eq_true.mpr ⟨s, hs, by simp [hsformat]⟩), Scale.weight_node]
      simp [Scale.cost, Scale.below, Scale.total, inner_partTrees hr span [] _ ts hts]
    case isFalse hformat =>
      cases h
      have hplain : ¬ literals.any (fun s => s.isBytes || s.isFormat) = true := by
        simp only [List.any_eq_true, not_exists, not_and, Bool.not_eq_true] at hbytes hformat ⊢
        intro s hs
        rw [hbytes s hs, hformat s hs]
        rfl
      rw [joinedText?, if_neg hplain, hparts]
      rfl

theorem silent_isString : Silent isString := by
  refine silent_kind?.andThen fun k => ?_
  split <;> exact silent_pure _

theorem go_strings {n : Nat} {s s' : ParseState} {literals : List StringToken}
    (h : repeatWhile.go isString stringLiteral n s = some (literals, s')) :
    literals = leading s.tokens ∧ written s'.tokens = writtenFrom true s.tokens := by
  induction n generalizing s literals with
  | zero =>
    obtain ⟨toks, line⟩ := s
    match toks with
    | [] =>
      cases h
      exact ⟨rfl, rfl⟩
    | ⟨k, sp⟩ :: toks =>
      cases k with
      | string => cases h
      | _ =>
        cases h
        exact ⟨rfl, rfl⟩
  | succ n ih =>
    obtain ⟨toks, line⟩ := s
    match toks with
    | [] =>
      cases h
      exact ⟨rfl, rfl⟩
    | ⟨k, sp⟩ :: toks =>
      cases k with
      | string l =>
        change (repeatWhile.go isString stringLiteral n ⟨toks, sp.lastLine⟩).bind
          (fun x => some (l :: x.1, x.2)) = some (literals, s') at h
        obtain ⟨⟨rest, u⟩, hrest, hpure⟩ := Option.bind_eq_some_iff.mp h
        cases hpure
        obtain ⟨hliterals, hwritten⟩ := ih hrest
        exact ⟨congrArg (l :: ·) hliterals, hwritten⟩
      | _ =>
        cases h
        exact ⟨rfl, rfl⟩

theorem balanced_strings (hr : RulesBalanced r) : BalancedTree σ (strings r) := by
  rintro ⟨toks, line⟩ x s' hrun
  obtain ⟨start, s₁, hhere, hrun⟩ := bind_eq_some hrun
  obtain ⟨literals, s₂, hgo, hrun⟩ := bind_eq_some hrun
  obtain ⟨s₃, s₄, hget, hrun⟩ := bind_eq_some hrun
  obtain ⟨t, ht, hpair⟩ := Option.map_eq_some_iff.mp hrun
  cases hget
  cases hpair
  cases toks with
  | nil => cases hhere
  | cons tok rest =>
    cases hhere
    obtain ⟨rfl, hwritten⟩ := go_strings hgo
    cases hstring : tok.isString with
    | true =>
      have hne : leading (tok :: rest) ≠ [] := by
        obtain ⟨k, sp⟩ := tok
        cases k with
        | string => exact nofun
        | _ => cases hstring
      rw [weight_joinLiterals hr hne ht, hwritten, written_cons_of_isString hstring]
      simp [Scale.total, textFrom, writtenFrom, hstring, Token.place]
    | false =>
      have hnone : leading (tok :: rest) = [] := by
        obtain ⟨k, sp⟩ := tok
        cases k with
        | string => cases hstring
        | _ => rfl
      rw [hnone] at ht
      cases ht
      rw [hwritten, written_cons_of_not_isString hstring, writtenFrom, hstring]
      rfl

/-! ### Atoms -/

def itemWeight (σ : Scale) (x : Option Tree × Tree) : Nat := optionWeight σ x.1 + σ.weight x.2

theorem balanced_dictNode (items : List (Option Tree × Tree)) :
    Balanced σ (items.map (itemWeight σ)).sum σ.weight (dictNode start items) := by
  refine balanced_node rfl ?_
  induction items with
  | nil => rfl
  | cons item items ih =>
    obtain ⟨key, value⟩ := item
    cases key with
    | none => simpa +arith [itemWeight, optionWeight] using ih
    | some key => simpa +arith [itemWeight, optionWeight] using ih

omit [Dialect] in
theorem isPlain_constantWord? {k : String} {c : Constant} (h : constantWord? k = some c) :
    (Label.constant c).isPlain = true := by
  unfold constantWord? at h
  split at h <;> cases h <;> rfl

include hr

theorem balanced_roundAtom : BalancedTree σ (roundAtom r start) := by
  refine (silent_acceptOp ")").branch (balanced_node rfl rfl) ?_
  refine (silent_isKeyword "yield").branch ?_ ((silent_isOp "*").bind fun isStar => ?_)
  · exact (balanced_yieldExpr hr).bind fun t => (silent_op ")").seq (.pure rfl)
  refine (balanced_starNamed hr).bind fun first => silent_isFor.bind fun _ => .ite ?_ ?_
  · refine (balanced_clauses hr).bind fun gens => (silent_op ")").seq ?_
    exact balanced_node rfl (by simp +arith)
  refine (silent_acceptOp ",").branch ?_ ?_
  · refine ((balanced_starNamed hr).itemsUpTo ")").bind fun rest => (silent_op ")").seq ?_
    exact balanced_node rfl (by simp +arith)
  · exact (silent_guardThat _).bind fun _ => (silent_op ")").bind fun _ => .pure rfl

theorem balanced_squareAtom : BalancedTree σ (squareAtom r start) := by
  refine (silent_acceptOp "]").branch (balanced_node rfl rfl) ((silent_isOp "*").bind fun _ => ?_)
  refine (balanced_starNamed hr).bind fun first => silent_isFor.bind fun _ => .ite ?_ ?_
  · refine (balanced_clauses hr).bind fun gens => (silent_op "]").seq ?_
    exact balanced_node rfl (by simp +arith)
  · refine ((balanced_starNamed hr).moreItems "]").bind fun rest => (silent_op "]").seq ?_
    exact balanced_node rfl (by simp +arith)

theorem balanced_dictItem : Balanced σ 0 (itemWeight σ) (dictItem r) := by
  refine (silent_acceptOp "**").branch ?_ ?_
  · exact hr.bitwiseOr.bind fun t => .pure (Nat.zero_add _)
  · refine hr.expression.bind fun key => (silent_op ":").seq ?_
    exact hr.expression.bind fun t => .pure (by simp +arith [itemWeight, optionWeight])

theorem balanced_braceAtom : BalancedTree σ (braceAtom r start) := by
  refine (silent_acceptOp _).branch (balanced_node rfl rfl) ((silent_isOp "**").branch ?_ ?_)
  · refine (balanced_dictItem hr).commaList.bind fun items => (silent_op _).seq ?_
    exact balanced_dictNode items.1
  refine (silent_isOp "*").bind fun isStar => silent_isBinding.bind fun isBound => ?_
  refine (balanced_starNamed hr).bind fun first => (silent_isOp ":").bind fun _ => .ite ?_ ?_
  · refine (silent_op ":").seq (hr.expression.bind fun value => silent_isFor.branch ?_ ?_)
    · refine (balanced_clauses hr).bind fun gens => (silent_op _).seq ?_
      exact balanced_node rfl (by simp +arith)
    · refine ((balanced_dictItem hr).moreItems _).bind fun rest => (silent_op _).seq ?_
      refine (balanced_dictNode _).cast ?_
      simp +arith [itemWeight, optionWeight]
  refine silent_isFor.bind fun _ => .ite ?_ ?_
  · refine (balanced_clauses hr).bind fun gens => (silent_op _).seq ?_
    exact balanced_node rfl (by simp +arith)
  · refine ((balanced_starNamed hr).moreItems _).bind fun rest => (silent_op _).seq ?_
    exact balanced_node rfl (by simp +arith)

theorem balanced_atom : BalancedTree σ (atom r) := by
  refine silent_here.bind fun start => balanced_kind? fun k => ?_
  cases k with
  | none => exact Balanced.failure.at
  | some k =>
    cases k with
    | name id => exact balancedAt_take rfl fun _ => balanced_node rfl rfl
    | number kind text => exact balancedAt_take rfl fun _ => balanced_node rfl rfl
    | string => exact (balanced_strings hr).at
    | keyword k =>
      refine balancedAt_lift fun c hc => balancedAt_take rfl fun _ => ?_
      exact balanced_node (isPlain_constantWord? hc) rfl
    | op o =>
      refine balancedAt_take rfl fun _ => ?_
      refine .ite (balanced_roundAtom hr) (.ite (balanced_squareAtom hr) ?_)
      exact .ite (balanced_braceAtom hr) (.ite (balanced_node rfl rfl) .failure)
    | newline => exact Balanced.failure.at
    | indent => exact Balanced.failure.at
    | dedent => exact Balanced.failure.at

/-! ### Operators -/

omit hr

theorem silent_isTrailer : Silent isTrailer := by
  refine (silent_isOp ".").andThen fun _ => (silent_isOp "(").andThen fun _ => ?_
  exact (silent_isOp "[").andThen fun _ => silent_pure _

theorem balanced_extendWhile {more : Parser Bool} {extend : Tree → Parser Tree}
    (hmore : Silent more) (hextend : ∀ t, Balanced σ (σ.weight t) σ.weight (extend t)) (t : Tree) :
    Balanced σ (σ.weight t) σ.weight (extendWhile more extend t) := by
  have hgo (n : Nat) (t : Tree) :
      Balanced σ (σ.weight t) σ.weight (extendWhile.go more extend n t) := by
    induction n generalizing t with
    | zero => exact hmore.branch .failure (.pure rfl)
    | succ n ih => exact hmore.branch ((hextend t).pass ih) (.pure rfl)
  intro s x s' hrun
  exact hgo _ t s x s' hrun

theorem balanced_leftAssoc (ops : List String) {p : Parser Tree} (hp : BalancedTree σ p) :
    BalancedTree σ (leftAssoc ops p) := by
  refine silent_here.bind fun start => hp.bind fun first => ?_
  refine balanced_extendWhile (silent_kind?.andThen fun k => ?_) (fun left => ?_) first
  · split <;> exact silent_pure _
  · refine (silent_anyOp ops).bind fun o => ?_
    cases o with
    | none => exact .failure
    | some o => exact hp.bind fun right => balanced_node rfl (by simp +arith)

theorem balanced_foldr_leftAssoc (levels : List (List String)) {p : Parser Tree}
    (hp : BalancedTree σ p) : BalancedTree σ (levels.foldr leftAssoc p) := by
  induction levels with
  | nil => exact hp
  | cons ops levels ih => exact balanced_leftAssoc ops ih

theorem silent_comparator? : Silent comparator? := by
  refine silent_kind?_bind fun k s x s' hkind hrun => ?_
  split at hrun
  case h_1 => exact silent_anyOp _ s x s' hrun
  case h_2 =>
    obtain ⟨t, u, hfirst, hpure⟩ := bind_eq_some hrun
    cases hpure
    exact written_take_of_kind hfirst hkind rfl
  case h_3 =>
    obtain ⟨t, u, hfirst, hrest⟩ := bind_eq_some hrun
    rw [← written_take_of_kind hfirst hkind rfl]
    exact ((silent_acceptKeyword "not").andThen fun _ => silent_pure _) u x s' hrest
  case h_4 =>
    obtain ⟨next, u, hnext, hrest⟩ := bind_eq_some hrun
    cases hnext
    split at hrest
    case isTrue hin =>
      obtain ⟨t, v, hfirst, hrest⟩ := bind_eq_some hrest
      obtain ⟨t', v', hsecond, hpure⟩ := bind_eq_some hrest
      cases hpure
      rw [take_eq_some hfirst] at hin
      rw [written_take_of_kind hsecond (beq_iff_eq.mp hin) rfl,
        written_take_of_kind hfirst hkind rfl]
    case isFalse =>
      cases hrest
      rfl
  case h_5 =>
    cases hrun
    rfl

theorem silent_isComparator : Silent isComparator := by
  refine silent_of_state fun s x s' hrun => ?_
  unfold isComparator at hrun
  split at hrun <;> cases hrun <;> rfl

theorem balanced_boolean (word : String) {p : Parser Tree} (hp : BalancedTree σ p) :
    BalancedTree σ (boolean word p) := by
  refine silent_here.bind fun start => hp.bind fun first => ?_
  refine (Balanced.repeatWhile (silent_isKeyword word)
    ((silent_keyword word).seq hp)).bind fun rest => ?_
  split
  case isTrue hempty => exact .pure (by simp [List.isEmpty_iff.mp hempty])
  case isFalse => exact balanced_node rfl (by simp +arith)

include hr

theorem balanced_call (func : Tree) : Balanced σ (σ.weight func) σ.weight (call r start func) := by
  refine silent_here.bind fun bracket => (silent_op "(").seq ?_
  refine (silent_acceptOp ")").branch (balanced_node rfl (by simp)) ?_
  refine (balanced_callItem hr).bind fun first => silent_isFor.bind fun isFor => ?_
  have hplain : Balanced σ (first.weight σ + σ.weight func) σ.weight
      (moreArguments r first >>= fun x => node .call start (func.as .func :: x.1 ++ x.2)) := by
    refine ((balanced_moreArguments hr first).frame (σ.weight func)).pass fun x => ?_
    exact balanced_node rfl (by simp +arith [pairWeight])
  cases isFor with
  | false => cases first <;> exact hplain
  | true =>
    cases first with
    | positional element =>
      refine (balanced_clauses hr).bind fun gens => (silent_op ")").seq ?_
      refine balanced_node_bind rfl fun t ht => balanced_node rfl ?_
      simp +arith [ht, CallItem.weight]
    | _ => exact hplain

theorem balanced_trailer (t : Tree) : Balanced σ (σ.weight t) σ.weight (trailer r start t) := by
  refine (silent_acceptOp ".").branch ?_ ((silent_isOp "(").branch (balanced_call hr t) ?_)
  · exact silent_name.bind fun attr => balanced_node rfl (by simp)
  · refine (silent_op "[").seq ((balanced_subscriptItems hr).bind fun index => ?_)
    exact (silent_op "]").seq (balanced_node rfl (by simp +arith))

theorem balanced_primary : BalancedTree σ (primary r) := by
  refine silent_here.bind fun start => (balanced_atom hr).bind fun t => ?_
  exact balanced_extendWhile silent_isTrailer (balanced_trailer hr) t

theorem balanced_awaited : BalancedTree σ (awaited r) := by
  refine silent_here.bind fun start => ?_
  refine (silent_acceptKeyword "await").branch ?_ (balanced_primary hr)
  exact (balanced_primary hr).bind fun t => balanced_node rfl (by simp)

theorem balanced_power : BalancedTree σ (power r) := by
  refine silent_here.bind fun start => (balanced_awaited hr).bind fun base => ?_
  refine (silent_acceptOp "**").branch ?_ (.pure rfl)
  exact hr.factor.bind fun right => balanced_node rfl (by simp +arith)

theorem balanced_factor : BalancedTree σ (factor r) := by
  refine silent_here.bind fun start => (silent_anyOp _).bind fun o => ?_
  cases o with
  | none => exact balanced_power hr
  | some o => exact hr.factor.bind fun t => balanced_node rfl (by simp)

theorem balanced_bitwiseOr : BalancedTree σ (bitwiseOr r) :=
  balanced_foldr_leftAssoc binaryLevels (balanced_factor hr)

theorem balanced_comparison : BalancedTree σ (comparison r) := by
  refine silent_here.bind fun start => (balanced_bitwiseOr hr).bind fun left => ?_
  refine (Balanced.repeatWhile (w := fun x => σ.weight x.2) silent_isComparator
    (silent_comparator?.bind fun o => ?_)).bind fun pairs => ?_
  · cases o with
    | none => exact .failure
    | some o => exact (balanced_bitwiseOr hr).bind fun t => .pure rfl
  split
  case isTrue hempty => exact .pure (by simp [List.isEmpty_iff.mp hempty])
  case isFalse => exact balanced_node rfl (by simp +arith [Function.comp_def])

theorem balanced_inversion : BalancedTree σ (inversion r) := by
  refine silent_here.bind fun start => ?_
  refine (silent_acceptKeyword "not").branch ?_ (balanced_comparison hr)
  exact hr.inversion.bind fun t => balanced_node rfl (by simp)

theorem balanced_disjunction : BalancedTree σ (disjunction r) :=
  balanced_boolean "or" (balanced_boolean "and" (balanced_inversion hr))

theorem balanced_expression : BalancedTree σ (expression r) := by
  refine (silent_isKeyword "lambda").branch (balanced_lambda hr) (silent_here.bind fun start => ?_)
  refine (balanced_disjunction hr).bind fun body => ?_
  refine (silent_acceptKeyword "if").branch ?_ (.pure rfl)
  refine (balanced_disjunction hr).bind fun test => (silent_keyword "else").seq ?_
  exact hr.expression.bind fun orelse => balanced_node rfl (by simp +arith)

/-! ### Patterns -/

omit hr

theorem silent_captureName : Silent captureName :=
  (silent_isNext _).andThen fun _ => (silent_guardThat _).andThen fun _ => silent_name

theorem silent_isNumber : Silent isNumber := by
  refine silent_kind?.andThen fun k => ?_
  split <;> exact silent_pure _

theorem balanced_signedNumber : Balanced σ 0 (fun x => σ.weight x.1) signedNumber := by
  refine silent_here.bind fun start => (silent_acceptOp "-").bind fun negative => ?_
  refine silent_here.bind fun inner => balanced_take ?_ ?_
  · rintro ⟨k, sp⟩ s h
    cases k with
    | string => rfl
    | _ => cases h
  · rintro ⟨k, sp⟩
    cases k with
    | number kind text =>
      refine balanced_node_bind rfl fun t ht => ?_
      refine Balanced.bind (v := σ.weight) (.ite (balanced_node rfl ?_) (.pure ht)) fun t => ?_
      · simp [ht]
      · exact .pure rfl
    | _ => exact .failure

theorem balanced_numberPattern : BalancedTree σ numberPattern := by
  refine silent_here.bind fun start => balanced_signedNumber.bind fun left => ?_
  refine (silent_anyOp _).bind fun o => ?_
  cases o with
  | none => exact .pure rfl
  | some o =>
    refine silent_isNumber.bind fun _ => (silent_guardThat _).bind fun _ => ?_
    refine balanced_signedNumber.bind fun right => (silent_guardThat _).seq ?_
    exact balanced_node rfl (by simp +arith)

theorem silent_extendWhile {more : Parser Bool} {extend : Tree → Parser Tree}
    (hmore : Silent more) (hextend : ∀ t, Silent (extend t)) (t : Tree) :
    Silent (extendWhile more extend t) := by
  have hgo (n : Nat) (t : Tree) : Silent (extendWhile.go more extend n t) := by
    induction n generalizing t with
    | zero => exact hmore.andThen fun _ => .ite silent_failure (silent_pure t)
    | succ n ih => exact hmore.andThen fun _ => .ite ((hextend t).andThen ih) (silent_pure t)
  intro s x s' hrun
  exact hgo _ t s x s' hrun

theorem silent_node (l : Label) (start : Span) (cs : List Tree) : Silent (node l start cs) := by
  refine silent_of_state fun s x s' hrun => ?_
  cases hrun
  rfl

theorem silent_dottedValue : Silent dottedValue := by
  refine silent_here.andThen fun start => silent_name.andThen fun id => ?_
  refine (silent_node _ _ _).andThen fun first => (silent_isOp ".").andThen fun dotted => ?_
  refine (silent_extendWhile (silent_isOp ".") (fun t => ?_) first).andThen fun t => silent_pure _
  exact (silent_op ".").andThen fun _ => silent_name.andThen fun attr => silent_node _ _ _

theorem balanced_dottedValue : Balanced σ 0 (fun x => σ.weight x.1) dottedValue := by
  refine silent_here.bind fun start => silent_name.bind fun id => ?_
  refine balanced_node_bind rfl fun first hfirst => (silent_isOp ".").bind fun dotted => ?_
  refine Balanced.pass (v := σ.weight) ?_ fun t => .pure rfl
  refine (balanced_extendWhile (silent_isOp ".") (fun t => ?_) first).cast hfirst
  exact (silent_op ".").seq (silent_name.bind fun attr => balanced_node rfl (by simp))

theorem balanced_dottedValue_bind {α : Type} {m : Nat} {w : α → Nat} {f : Tree × Bool → Parser α}
    (hf : ∀ x, σ.weight x.1 = 0 → Balanced σ m w (f x)) : Balanced σ m w (dottedValue >>= f) := by
  intro s y s' hrun
  obtain ⟨x, u, hfirst, hrest⟩ := bind_eq_some hrun
  have hwritten := silent_dottedValue s x u hfirst
  have hbalance := balanced_dottedValue (σ := σ) s x u hfirst
  rw [hwritten] at hbalance
  rw [← hwritten]
  exact hf x (Nat.add_right_cancel hbalance) u y s' hrest

theorem balanced_valueNode (t : Tree) :
    Balanced σ (σ.weight t) σ.weight (valueNode start t) := balanced_node rfl (by simp)

theorem balanced_sequenceNode (isStar : Bool) (parts : List Tree × Bool) :
    Balanced σ (parts.1.map σ.weight).sum σ.weight (sequenceNode start isStar parts) := by
  refine balanced_oneOr (fun t => (silent_guardThat _).seq (.pure rfl)) fun ts => ?_
  exact balanced_node rfl (by simp [asPatterns])

/-- A constant is found where its word comes next. -/
theorem balanced_constantHere? {α : Type} {m : Nat} {w : α → Nat} {f : Option Constant → Parser α}
    (hnone : Balanced σ m w (f none)) (hsome : ∀ k c, constantWord? k = some c →
      BalancedAt σ (some (.keyword k)) m w (f (some c))) :
    Balanced σ m w (constantHere? >>= f) := by
  intro s x s' hrun
  obtain ⟨c, u, hc, hrest⟩ := bind_eq_some hrun
  obtain ⟨k, v, hkind, hmatch⟩ := bind_eq_some hc
  obtain ⟨hk, rfl⟩ : s.tokens.head?.map (·.kind) = k ∧ s = v := by
    cases hkind
    exact ⟨rfl, rfl⟩
  split at hmatch
  case h_1 k =>
    cases hmatch
    cases hword : constantWord? k with
    | none =>
      rw [hword] at hrest
      exact hnone s x s' hrest
    | some c =>
      rw [hword] at hrest
      exact hsome k c hword s x s' hk hrest
  case h_2 =>
    cases hmatch
    exact hnone s x s' hrest

def MappingItem.weight (σ : Scale) : MappingItem → Nat
  | .pair key pattern => σ.weight key + σ.weight pattern
  | .rest _ => 0

omit [Dialect] in
theorem weight_mapping_arrange {items : List MappingItem}
    {x : List Tree × List Tree × Option String} (h : MappingItem.arrange items = some x) :
    ((x.1 ++ x.2.1).map σ.weight).sum = (items.map (MappingItem.weight σ)).sum := by
  induction items generalizing x with
  | nil =>
    cases h
    rfl
  | cons item items ih =>
    cases item with
    | pair key pattern =>
      obtain ⟨y, hy, rfl⟩ := Option.map_eq_some_iff.mp h
      have hmore := ih hy
      simp +arith only [List.map_append, List.sum_append, List.map_cons, List.sum_cons,
        Scale.weight_as, MappingItem.weight] at hmore ⊢
      omega
    | rest id =>
      cases items with
      | nil =>
        cases h
        rfl
      | cons _ _ => cases h

def ClassItem.weight (σ : Scale) : ClassItem → Nat
  | .positional pattern => σ.weight pattern
  | .keyword _ pattern => σ.weight pattern

omit [Dialect] in
theorem weight_class_arrange {named : Bool} {items : List ClassItem}
    {x : List Tree × List String × List Tree} (h : ClassItem.arrange named items = some x) :
    ((x.1 ++ x.2.2).map σ.weight).sum = (items.map (ClassItem.weight σ)).sum := by
  induction items generalizing named x with
  | nil =>
    cases h
    rfl
  | cons item items ih =>
    cases item with
    | positional pattern =>
      rw [ClassItem.arrange] at h
      obtain ⟨y, hy, rfl⟩ := Option.map_eq_some_iff.mp (Option.ite_none_left_eq_some.mp h).2
      simp [← ih hy, ClassItem.weight]
    | keyword name pattern =>
      obtain ⟨y, hy, rfl⟩ := Option.map_eq_some_iff.mp h
      simp [← ih hy, ClassItem.weight, Nat.add_left_comm]

include hr

theorem balanced_maybeStarPattern : BalancedTree σ (maybeStarPattern r) := by
  refine silent_here.bind fun start => (silent_acceptOp "*").branch ?_ hr.pattern
  refine (silent_accept rfl).branch (balanced_node rfl rfl) ?_
  exact silent_name.bind fun id => balanced_node rfl rfl

theorem balanced_sequenceParts (close : String) :
    Balanced σ 0 (fun x => (x.1.map σ.weight).sum) (sequenceParts r close) :=
  (silent_isOp close).branch (.pure rfl) (balanced_maybeStarPattern hr).commaList

theorem balanced_roundPattern : BalancedTree σ (roundPattern r start) := by
  refine (silent_op "(").seq ((silent_isOp "*").bind fun isStar => ?_)
  refine (balanced_sequenceParts hr ")").bind fun parts => (silent_op ")").seq ?_
  exact balanced_sequenceNode isStar parts

theorem balanced_squarePattern : BalancedTree σ (squarePattern r start) := by
  refine (silent_op "[").bind fun _ => (balanced_sequenceParts hr "]").bind fun parts => ?_
  exact (silent_op "]").seq (balanced_node rfl (by simp [asPatterns]))

theorem balanced_mappingKey : BalancedTree σ (mappingKey r) := by
  refine silent_here.bind fun start => silent_isString.branch (balanced_strings hr) ?_
  refine balanced_constantHere? ?_ fun k c hc => ?_
  · refine silent_isName.branch ?_ balanced_numberPattern
    exact balanced_dottedValue_bind fun x hx => (silent_guardThat _).seq (.pure hx)
  · exact balancedAt_take rfl fun _ => balanced_node (isPlain_constantWord? hc) rfl

theorem balanced_mappingItem : Balanced σ 0 (MappingItem.weight σ) (mappingItem r) := by
  refine (silent_acceptOp "**").branch ?_ ?_
  · exact silent_captureName.bind fun id => .pure rfl
  · refine (balanced_mappingKey hr).bind fun key => (silent_op ":").seq ?_
    exact hr.pattern.bind fun p => .pure (by simp +arith [MappingItem.weight])

theorem balanced_mappingPattern : BalancedTree σ (mappingPattern r start) := by
  refine (silent_op _).seq (((balanced_mappingItem hr).itemsUpTo _).bind fun items => ?_)
  refine (silent_op _).seq (balanced_lift_bind fun x hx => balanced_node rfl ?_)
  exact weight_mapping_arrange hx

theorem balanced_classItem : Balanced σ 0 (ClassItem.weight σ) (classItem r) := by
  refine silent_isName.bind fun _ => silent_second?.bind fun _ => .ite ?_ ?_
  · refine silent_name.bind fun id => (silent_op "=").seq ?_
    exact hr.pattern.bind fun p => .pure rfl
  · exact hr.pattern.bind fun p => .pure rfl

theorem balanced_classPattern (t : Tree) :
    Balanced σ (σ.weight t) σ.weight (classPattern r start t) := by
  refine (silent_op "(").bind fun _ => ((balanced_classItem hr).itemsUpTo ")").bind fun items => ?_
  refine (silent_op ")").seq (balanced_lift_bind fun x hx => ?_)
  obtain ⟨positional, names, keywords⟩ := x
  have hitems := weight_class_arrange (σ := σ) hx
  refine balanced_node rfl ?_
  simp only [List.map_append, List.sum_append, List.map_cons, List.sum_cons,
    Scale.weight_as] at hitems ⊢
  omega

theorem balanced_namePattern : BalancedTree σ (namePattern r start) := by
  refine balanced_kind? fun k => ?_
  split
  case isTrue hk =>
    rw [beq_iff_eq.mp hk]
    exact balancedAt_take rfl fun _ => balanced_node rfl rfl
  case isFalse =>
    refine (balanced_dottedValue_bind fun x hx => ?_).at
    refine (silent_isOp "(").branch ((balanced_classPattern hr x.1).cast hx) (.ite ?_ ?_)
    · refine (silent_isOp "=").bind fun _ => (silent_guardThat _).bind fun _ => ?_
      exact (balanced_valueNode x.1).cast hx
    · refine (silent_isOp "=").bind fun _ => (silent_guardThat _).bind fun _ => ?_
      split
      · exact balanced_node rfl rfl
      · exact .failure

theorem balanced_closedPattern : BalancedTree σ (closedPattern r) := by
  refine silent_here.bind fun start => balanced_kind? fun k => ?_
  have hnumber : BalancedTree σ (numberPattern >>= valueNode start) :=
    balanced_numberPattern.bind (balanced_valueNode)
  cases k with
  | none => exact hnumber.at
  | some k =>
    cases k with
    | name _ => exact (balanced_namePattern hr).at
    | string _ => exact ((balanced_strings hr).bind (balanced_valueNode)).at
    | keyword k =>
      exact balancedAt_lift fun c hc => balancedAt_take rfl fun _ => balanced_node rfl rfl
    | op o =>
      exact .ite (balanced_roundPattern hr).at (.ite (balanced_squarePattern hr).at
        (.ite (balanced_mappingPattern hr).at hnumber.at))
    | _ => exact hnumber.at

theorem balanced_pattern : BalancedTree σ (pattern r) := by
  refine silent_here.bind fun start => (balanced_closedPattern hr).bind fun first => ?_
  refine (Balanced.repeatWhile (silent_isOp "|")
    ((silent_op "|").seq (balanced_closedPattern hr))).bind fun rest => ?_
  refine Balanced.pass (v := σ.weight) ?_ fun t => ?_
  · split
    case isTrue hempty => exact .pure (by simp [List.isEmpty_iff.mp hempty])
    case isFalse => exact balanced_node rfl (by simp +arith [asPatterns])
  · refine (silent_acceptKeyword "as").branch ?_ (.pure rfl)
    exact silent_captureName.bind fun id => balanced_node rfl (by simp)

theorem balanced_casePattern : BalancedTree σ (casePattern r) := by
  refine silent_here.bind fun start => (silent_isOp "*").bind fun isStar => ?_
  refine (balanced_maybeStarPattern hr).commaList.bind fun parts => ?_
  exact balanced_sequenceNode isStar parts

end Restyle.Syntax.Grammar
