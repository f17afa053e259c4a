import Mathlib.Algebra.GroupWithZero.Nat
import Restyle.Proofs.Syntax.Positions

/-!
Parsers lose no text and make none up. Texts are put on a scale: what a text weighs may depend on
its place and its content in any way. A parser is balanced if the trees that it gives weigh as much
as the string literals that it takes from the tokens. Here are the scale, the rules by which
parsers are balanced, and the parsers that the grammar is built from.
-/

namespace Restyle.Syntax

/-- A text and the place where it starts. -/
structure PlacedText where
  place : Nat × Nat
  text : String
deriving DecidableEq

/-! ### Texts of tokens -/

def TokenKind.isText : TokenKind → Bool
  | .string _ => true
  | _ => false

theorem isString_eq_isText (t : Token) : t.isString = t.kind.isText := by
  obtain ⟨k, sp⟩ := t
  cases k <;> rfl

def leading : List Token → List StringToken
  | [] => []
  | t :: rest =>
    match t.kind with
    | .string s => s :: leading rest
    | _ => []

/-- The text of literals that stand next to each other, unless they are bytes or format strings. -/
def joinedText? [Dialect] (literals : List StringToken) : Option String :=
  if literals.any fun s => s.isBytes || s.isFormat then none
  else (literals.mapM Grammar.literalParts).map fun parts =>
    String.ofList (Grammar.plainText parts.flatten)

def textFrom [Dialect] (t : Token) (rest : List Token) : List PlacedText :=
  ((joinedText? (leading (t :: rest))).map (PlacedText.mk t.place)).toList

/-- The texts of tokens; `inside` tells whether the first token goes on with a text. -/
def writtenFrom [Dialect] (inside : Bool) : List Token → List PlacedText
  | [] => []
  | t :: rest =>
    if t.isString then (if inside then [] else textFrom t rest) ++ writtenFrom true rest
    else writtenFrom false rest

/-- The texts of tokens, of which neighbours are one. -/
def written [Dialect] (toks : List Token) : List PlacedText := writtenFrom false toks

section Tokens

variable [Dialect] {t : Token} {rest : List Token}

theorem written_cons_of_not_isString (h : t.isString = false) :
    written (t :: rest) = written rest := by
  rw [written, writtenFrom, h]
  rfl

theorem written_cons_of_isString (h : t.isString = true) :
    written (t :: rest) = textFrom t rest ++ writtenFrom true rest := by
  rw [written, writtenFrom, if_pos h]
  rfl

end Tokens

/-! ### Texts of trees -/

/-- What a text weighs, and what a definition weighs. -/
structure Scale where
  text : PlacedText → Nat
  definition : Nat

namespace Scale

/-- The scale for what is inside of a format string: no text weighs anything, as it is no text of
the tokens, but a definition does. -/
def inner : Scale := ⟨fun _ => 0, 1⟩

def total (σ : Scale) (ts : List PlacedText) : Nat := (ts.map σ.text).sum

def cost (σ : Scale) (s : Span) : Label → Nat
  | .constant (.string v) => σ.text ⟨(s.line, s.column), v⟩
  | .file => σ.definition
  | .functionDef _ _ => σ.definition
  | .classDef _ => σ.definition
  | _ => 0

def below (σ : Scale) : Label → Scale
  | .joinedStr => inner
  | _ => σ

mutual

def weight : Scale → Tree → Nat
  | σ, .node l _ s cs => σ.cost s l + (σ.below l).weights cs

def weights : Scale → List Tree → Nat
  | _, [] => 0
  | σ, t :: ts => σ.weight t + σ.weights ts

end

variable {σ : Scale}

theorem weights_eq_sum (σ : Scale) (ts : List Tree) : σ.weights ts = (ts.map σ.weight).sum := by
  induction ts with
  | nil => rfl
  | cons t ts ih => rw [weights, ih, List.map_cons, List.sum_cons]

theorem weight_node (σ : Scale) (l : Label) (r : Role) (s : Span) (cs : List Tree) :
    σ.weight (.node l r s cs) = σ.cost s l + (cs.map (σ.below l).weight).sum := by
  rw [weight, weights_eq_sum]

@[simp]
theorem weight_as (σ : Scale) (t : Tree) (r : Role) : σ.weight (t.as r) = σ.weight t := by
  obtain ⟨l, r', s, cs⟩ := t
  rw [Tree.as, weight_node, weight_node]
  rfl

@[simp]
theorem weight_comp_as (σ : Scale) (r : Role) : σ.weight ∘ (·.as r) = σ.weight :=
  funext fun t => σ.weight_as t r

end Scale

/-- Whether a node with this label weighs what its children weigh. -/
def Label.isPlain : Label → Bool
  | .file | .functionDef _ _ | .classDef _ | .joinedStr | .constant (.string _) => false
  | _ => true

theorem Scale.weight_of_isPlain {l : Label} (h : l.isPlain = true) (σ : Scale) (r : Role)
    (s : Span) (cs : List Tree) : σ.weight (.node l r s cs) = (cs.map σ.weight).sum := by
  have hcost : σ.cost s l = 0 ∧ σ.below l = σ := by
    cases l with
    | constant c => cases c <;> first | exact ⟨rfl, rfl⟩ | cases h
    | _ => first | exact ⟨rfl, rfl⟩ | cases h
  rw [weight_node, hcost.1, hcost.2, Nat.zero_add]

/-! ### Balanced parsers -/

namespace Parser

section Rules

variable [Dialect] {σ : Scale} {α β : Type} {m : Nat} {v w : α → Nat} {p q : Parser α}

/-- A parser that is given trees of weight `m`, and gives what they and the texts that it takes
weigh together. -/
def Balanced (σ : Scale) (m : Nat) (w : α → Nat) (p : Parser α) : Prop :=
  ∀ s x s', p s = some (x, s') →
    w x + σ.total (written s'.tokens) = m + σ.total (written s.tokens)

def Silent (p : Parser α) : Prop :=
  ∀ s x s', p s = some (x, s') → written s'.tokens = written s.tokens

abbrev BalancedTree (σ : Scale) : Parser Tree → Prop := Balanced σ 0 σ.weight

abbrev BalancedTrees (σ : Scale) : Parser (List Tree) → Prop :=
  Balanced σ 0 fun ts => (ts.map σ.weight).sum

theorem Balanced.pure {a : α} (h : w a = m) : Balanced σ m w (pure a) := by
  intro s x s' hrun
  cases hrun
  rw [h]

theorem Balanced.failure : Balanced σ m w failure := by
  intro s x s' hrun
  cases hrun

theorem Balanced.lift {x : Option α} (h : ∀ a, x = some a → w a = m) :
    Balanced σ m w (lift x) := by
  intro s a s' hrun
  obtain ⟨a', ha', hpair⟩ := Option.map_eq_some_iff.mp hrun
  cases hpair
  rw [h a ha']

omit [Dialect] in
theorem bind_eq_some {f : α → Parser β} {s : ParseState} {x : β × ParseState}
    (h : (p >>= f) s = some x) : ∃ a s', p s = some (a, s') ∧ f a s' = some x := by
  obtain ⟨⟨a, s'⟩, hfirst, hrest⟩ := Option.bind_eq_some_iff.mp h
  exact ⟨a, s', hfirst, hrest⟩

theorem balanced_lift_bind {w : β → Nat} {x : Option α} {f : α → Parser β}
    (hf : ∀ a, x = some a → Balanced σ m w (f a)) : Balanced σ m w (Parser.lift x >>= f) := by
  intro s y s' hrun
  obtain ⟨a, t, hfirst, hrest⟩ := bind_eq_some hrun
  obtain ⟨a', ha', hpair⟩ := Option.map_eq_some_iff.mp hfirst
  cases hpair
  exact hf a ha' s y s' hrest

theorem Balanced.bind {w : β → Nat} {f : α → Parser β} (hp : Balanced σ 0 v p)
    (hf : ∀ a, Balanced σ (v a + m) w (f a)) : Balanced σ m w (p >>= f) := by
  intro s x s' hrun
  obtain ⟨a, t, hfirst, hrest⟩ := bind_eq_some hrun
  have hfirst := hp s a t hfirst
  have hrest := hf a t x s' hrest
  omega

theorem Balanced.frame (hp : Balanced σ m v p) (k : Nat) :
    Balanced σ (m + k) (fun a => v a + k) p := by
  intro s x s' hrun
  have hbalance := hp s x s' hrun
  dsimp only
  omega

theorem Balanced.pass {w : β → Nat} {f : α → Parser β} (hp : Balanced σ m v p)
    (hf : ∀ a, Balanced σ (v a) w (f a)) : Balanced σ m w (p >>= f) := by
  intro s x s' hrun
  obtain ⟨a, t, hfirst, hrest⟩ := bind_eq_some hrun
  rw [hf a t x s' hrest, hp s a t hfirst]

theorem Silent.bind {w : β → Nat} {f : α → Parser β} (hp : Silent p)
    (hf : ∀ a, Balanced σ m w (f a)) : Balanced σ m w (p >>= f) := by
  intro s x s' hrun
  obtain ⟨a, t, hfirst, hrest⟩ := bind_eq_some hrun
  rw [← hp s a t hfirst]
  exact hf a t x s' hrest

theorem Silent.seq {w : β → Nat} {k : Parser β} (hp : Silent p) (hk : Balanced σ m w k) :
    Balanced σ m w (p >>= fun _ => k) :=
  hp.bind fun _ => hk

theorem Silent.andThen {f : α → Parser β} (hp : Silent p) (hf : ∀ a, Silent (f a)) :
    Silent (p >>= f) := by
  intro s x s' hrun
  obtain ⟨a, t, hfirst, hrest⟩ := bind_eq_some hrun
  rw [← hp s a t hfirst]
  exact hf a t x s' hrest

theorem Balanced.cast {k : Nat} (hp : Balanced σ k w p) (h : k = m) : Balanced σ m w p := h ▸ hp

theorem Balanced.ite {c : Prop} [Decidable c] (hp : Balanced σ m w p) (hq : Balanced σ m w q) :
    Balanced σ m w (if c then p else q) := by
  split
  · exact hp
  · exact hq

theorem Silent.branch {c : Parser Bool} (hc : Silent c) (hp : Balanced σ m w p)
    (hq : Balanced σ m w q) : Balanced σ m w (c >>= fun b => if b = true then p else q) :=
  hc.bind fun _ => .ite hp hq

theorem Balanced.orElse (hp : Balanced σ m w p) (hq : Balanced σ m w q) :
    Balanced σ m w (p <|> q) := by
  intro s x s' hrun
  change ((p s).orElse fun _ => q s) = some (x, s') at hrun
  cases hfirst : p s with
  | none =>
    rw [hfirst] at hrun
    exact hq s x s' hrun
  | some y =>
    rw [hfirst] at hrun
    exact hp s x s' (hfirst.trans hrun)

theorem silent_pure (a : α) : Silent (pure a : Parser α) := by
  intro s x s' hrun
  cases hrun
  rfl

theorem silent_failure : Silent (failure : Parser α) := by
  intro s x s' hrun
  cases hrun

theorem Silent.ite {c : Prop} [Decidable c] (hp : Silent p) (hq : Silent q) :
    Silent (if c then p else q) := by
  split
  · exact hp
  · exact hq

/-- What leaves the tokens as they are takes no text. -/
theorem silent_of_state (h : ∀ s x s', p s = some (x, s') → s' = s) : Silent p := by
  intro s x s' hrun
  rw [h s x s' hrun]

theorem silent_guardThat (b : Bool) : Silent (guardThat b) :=
  .ite (silent_pure ()) silent_failure

end Rules

/-! ### Looking at tokens -/

section Looking

variable [Dialect] {σ : Scale} {α : Type} {m : Nat} {w : α → Nat} {p q : Parser α}

theorem silent_look (f : ParseState → α) : Silent fun s => some (f s, s) := by
  refine silent_of_state fun s x s' hrun => ?_
  cases hrun
  rfl

theorem silent_token? : Silent token? := silent_look _

theorem silent_kind? : Silent kind? := silent_look _

theorem silent_second? : Silent second? := silent_look _

theorem silent_get : Silent (get : Parser ParseState) := silent_look id

theorem silent_here : Silent here := by
  refine silent_of_state fun s x s' hrun => ?_
  obtain ⟨t, -, hpair⟩ := Option.map_eq_some_iff.mp hrun
  cases hpair
  rfl

theorem silent_isNext (k : TokenKind) : Silent (isNext k) :=
  silent_kind?.andThen fun _ => silent_pure _

theorem silent_isOp (o : String) : Silent (isOp o) := silent_isNext _

theorem silent_isKeyword (k : String) : Silent (isKeyword k) := silent_isNext _

theorem silent_isName : Silent isName := by
  refine silent_kind?.andThen fun k => ?_
  split
  · exact silent_pure _
  · exact silent_pure _

/-! ### Taking tokens -/

omit [Dialect] in
theorem take_eq_some {s s' : ParseState} {t : Token} (h : take s = some (t, s')) :
    s.tokens = t :: s'.tokens := by
  obtain ⟨toks, n⟩ := s
  cases toks with
  | nil => cases h
  | cons u rest =>
    cases h
    rfl

theorem written_take {s s' : ParseState} {t : Token} (h : take s = some (t, s'))
    (ht : t.isString = false) : written s'.tokens = written s.tokens := by
  rw [take_eq_some h, written_cons_of_not_isString ht]

theorem written_take_of_kind {s s' : ParseState} {t : Token} {k : TokenKind}
    (h : take s = some (t, s')) (hkind : s.tokens.head?.map (·.kind) = some k)
    (hk : k.isText = false) : written s'.tokens = written s.tokens := by
  refine written_take h ?_
  rw [take_eq_some h] at hkind
  obtain rfl : t.kind = k := Option.some.inj hkind
  rw [isString_eq_isText, hk]

/-- A parser that is balanced where a token of this kind comes next. -/
def BalancedAt (σ : Scale) (k : Option TokenKind) (m : Nat) (w : α → Nat) (p : Parser α) : Prop :=
  ∀ s x s', s.tokens.head?.map (·.kind) = k → p s = some (x, s') →
    w x + σ.total (written s'.tokens) = m + σ.total (written s.tokens)

theorem Balanced.at (hp : Balanced σ m w p) {k : Option TokenKind} : BalancedAt σ k m w p :=
  fun s x s' _ hrun => hp s x s' hrun

theorem BalancedAt.ite {k : Option TokenKind} {c : Prop} [Decidable c]
    (hp : BalancedAt σ k m w p) (hq : BalancedAt σ k m w q) :
    BalancedAt σ k m w (if c then p else q) := by
  split
  · exact hp
  · exact hq

theorem balanced_kind? {f : Option TokenKind → Parser α} (h : ∀ k, BalancedAt σ k m w (f k)) :
    Balanced σ m w (kind? >>= f) := by
  intro s x s' hrun
  exact h _ s x s' rfl hrun

theorem silent_kind?_bind {f : Option TokenKind → Parser α}
    (h : ∀ k s x s', s.tokens.head?.map (·.kind) = k → f k s = some (x, s') →
      written s'.tokens = written s.tokens) : Silent (kind? >>= f) := by
  intro s x s' hrun
  exact h _ s x s' rfl hrun

theorem balancedAt_take {k : TokenKind} {f : Token → Parser α} (hk : k.isText = false)
    (hf : ∀ t, Balanced σ m w (f t)) : BalancedAt σ (some k) m w (take >>= f) := by
  intro s x s' hkind hrun
  obtain ⟨t, u, hfirst, hrest⟩ := bind_eq_some hrun
  rw [← written_take_of_kind hfirst hkind hk]
  exact hf t u x s' hrest

theorem balancedAt_lift {k : Option TokenKind} {β : Type} {x : Option β} {f : β → Parser α}
    (hf : ∀ a, x = some a → BalancedAt σ k m w (f a)) :
    BalancedAt σ k m w (Parser.lift x >>= f) := by
  intro s y s' hkind hrun
  obtain ⟨a, t, hfirst, hrest⟩ := bind_eq_some hrun
  obtain ⟨a', ha', hpair⟩ := Option.map_eq_some_iff.mp hfirst
  cases hpair
  exact hf a ha' s y s' hkind hrest

/-- A token of any kind is taken, but a string is refused. -/
theorem balanced_take {f : Token → Parser α} (hstring : ∀ t s, t.isString = true → f t s = none)
    (hf : ∀ t, Balanced σ m w (f t)) : Balanced σ m w (take >>= f) := by
  intro s x s' hrun
  obtain ⟨t, u, hfirst, hrest⟩ := bind_eq_some hrun
  cases ht : t.isString with
  | true =>
    rw [hstring t u ht] at hrest
    cases hrest
  | false =>
    rw [← written_take hfirst ht]
    exact hf t u x s' hrest

theorem silent_accept {k : TokenKind} (hk : k.isText = false) : Silent (accept k) := by
  intro s x s' hrun
  obtain ⟨b, u, hnext, hrest⟩ := bind_eq_some hrun
  cases hnext
  split at hrest
  case isTrue hkind =>
    obtain ⟨t, v, hfirst, hpure⟩ := bind_eq_some hrest
    cases hpure
    exact written_take_of_kind hfirst (beq_iff_eq.mp hkind) hk
  case isFalse =>
    cases hrest
    rfl

theorem silent_acceptOp (o : String) : Silent (acceptOp o) := silent_accept rfl

theorem silent_acceptKeyword (k : String) : Silent (acceptKeyword k) := silent_accept rfl

theorem silent_expect {k : TokenKind} (hk : k.isText = false) : Silent (expect k) :=
  (silent_accept hk).andThen fun _ => .ite (silent_pure ()) silent_failure

theorem silent_op (o : String) : Silent (op o) := silent_expect rfl

theorem silent_keyword (k : String) : Silent (keyword k) := silent_expect rfl

theorem silent_name : Silent name := by
  intro s x s' hrun
  obtain ⟨⟨k, sp⟩, u, hfirst, hrest⟩ := bind_eq_some hrun
  cases k with
  | name =>
    cases hrest
    exact written_take hfirst rfl
  | _ => cases hrest

theorem silent_anyOp (ops : List String) : Silent (anyOp ops) := by
  refine silent_kind?_bind fun k s x s' hkind hrun => ?_
  split at hrun
  case h_1 o =>
    split at hrun
    · obtain ⟨t, v, hfirst, hpure⟩ := bind_eq_some hrun
      cases hpure
      exact written_take_of_kind hfirst hkind rfl
    · cases hrun
      rfl
  case h_2 =>
    cases hrun
    rfl

end Looking

/-! ### Nodes and repetition -/

section Repetition

variable [Dialect] {σ : Scale} {α : Type} {m : Nat} {w : α → Nat} {p : Parser α}

theorem balanced_node {l : Label} {start : Span} {cs : List Tree} (hl : l.isPlain = true)
    (hcs : (cs.map σ.weight).sum = m) : Balanced σ m σ.weight (node l start cs) := by
  intro s x s' hrun
  cases hrun
  rw [Scale.weight_of_isPlain hl, hcs]

theorem balanced_node_bind {l : Label} {start : Span} {cs : List Tree} {f : Tree → Parser α}
    (hl : l.isPlain = true)
    (hf : ∀ t, σ.weight t = (cs.map σ.weight).sum → Balanced σ m w (f t)) :
    Balanced σ m w (node l start cs >>= f) := by
  intro s x s' hrun
  exact hf _ (Scale.weight_of_isPlain hl σ _ _ cs) s x s' hrun

theorem Balanced.repeatWhile {more : Parser Bool} (hmore : Silent more) (hp : Balanced σ 0 w p) :
    Balanced σ 0 (fun xs => (xs.map w).sum) (repeatWhile more p) := by
  have hgo (n : Nat) : Balanced σ 0 (fun xs => (xs.map w).sum) (repeatWhile.go more p n) := by
    induction n with
    | zero => exact hmore.branch .failure (.pure rfl)
    | succ n ih =>
      refine hmore.branch (hp.bind fun x => ih.bind fun xs => ?_) (.pure rfl)
      exact .pure (by simp [Nat.add_comm])
  intro s x s' hrun
  exact hgo _ s x s' hrun

theorem Silent.repeatWhile {more : Parser Bool} (hmore : Silent more) (hp : Silent p) :
    Silent (repeatWhile more p) := by
  have hgo (n : Nat) : Silent (repeatWhile.go more p n) := by
    induction n with
    | zero => exact hmore.andThen fun _ => .ite silent_failure (silent_pure [])
    | succ n ih =>
      refine hmore.andThen fun _ => .ite (hp.andThen fun x => ?_) (silent_pure [])
      exact ih.andThen fun xs => silent_pure _
  intro s x s' hrun
  exact hgo _ s x s' hrun

theorem Balanced.commaList {stop : Parser Bool} (hp : Balanced σ 0 w p) :
    Balanced σ 0 (fun x => (x.1.map w).sum) (commaList stop p) := by
  refine hp.bind fun first => ?_
  refine (Balanced.repeatWhile ((silent_isOp ",").andThen fun _ => .ite ?peek (silent_pure _))
    ((silent_op ",").seq hp)).bind fun rest => ?_
  case peek =>
    -- the tokens that are looked at are not taken
    refine silent_of_state fun s x s' hrun => ?_
    split at hrun
    · cases hrun
      rfl
    · cases hrun
  refine (silent_acceptOp ",").bind fun _ => .pure ?_
  simp [Nat.add_comm]

theorem Balanced.itemsUpTo (close : String) (hp : Balanced σ 0 w p) :
    Balanced σ 0 (fun xs => (xs.map w).sum) (itemsUpTo close p) :=
  (silent_isOp close).branch (.pure rfl) (hp.commaList.bind fun _ => .pure rfl)

theorem Balanced.moreItems (close : String) (hp : Balanced σ 0 w p) :
    Balanced σ 0 (fun xs => (xs.map w).sum) (moreItems close p) :=
  (silent_acceptOp ",").branch (hp.itemsUpTo close) (.pure rfl)

theorem Balanced.optionally {c : Parser Bool} {p : Parser Tree} (hp : BalancedTree σ p)
    (hc : Silent c) : BalancedTrees σ (optionally c p) :=
  hc.branch (hp.bind fun _ => .pure (by simp)) (.pure rfl)

theorem balanced_oneOr {items : List Tree × Bool} {one : Tree → Parser Tree}
    {several : List Tree → Parser Tree} (hone : ∀ t, Balanced σ (σ.weight t) σ.weight (one t))
    (hseveral : ∀ ts, Balanced σ (ts.map σ.weight).sum σ.weight (several ts)) :
    Balanced σ (items.1.map σ.weight).sum σ.weight (oneOr items one several) := by
  unfold oneOr
  split
  case h_1 t => exact (hone t).cast (by simp)
  case h_2 ts _ _ => exact hseveral ts

end Repetition

end Parser

end Restyle.Syntax
