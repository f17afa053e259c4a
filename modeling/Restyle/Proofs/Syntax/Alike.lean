import Restyle.Proofs.Lists
import Restyle.Proofs.Syntax.Wording
import Restyle.Syntax.Parse

/-!
Tokens, trees and parsers that are alike. Two lists of tokens are alike if they differ in nothing
that the grammar looks at: names may differ as far as a given relation allows, strings may be worded
alike, the places of tokens may differ, and so may the contents of string literals that stand alone
at given places. Parsers are alike if on alike tokens they both fail, or both succeed with alike
results. Here are the relations and the parsers that the grammar is built from.
-/

namespace Restyle.Syntax

/-! ### Tokens -/

abbrev Places := Nat → Nat → Prop

def Places.none : Places := fun _ _ => False

/-- Literals of the same kind whose contents are worded alike. -/
structure LiteralLike (ν : NameLikeness) (s t : StringToken) : Prop where
  isBytes : s.isBytes = t.isBytes
  isRaw : s.isRaw = t.isRaw
  isFormat : s.isFormat = t.isFormat
  body : ∃ site, Reworded ν site s.body t.body

structure Readable [Dialect] (s : StringToken) : Prop where
  isBytes : s.isBytes = false
  isFormat : s.isFormat = false
  text : (unescape false s.isRaw s.body).isSome = true

/-- Tokens that the grammar treats alike; `free` tells whether a string may have another content. -/
inductive KindLike [Dialect] (ν : NameLikeness) (free : Prop) : TokenKind → TokenKind → Prop
  | name {a b : String} (h : ν.rel (Parser.identifier a) (Parser.identifier b))
      (hsoft : ∀ w ∈ softWords, (a = w ↔ b = w)) : KindLike ν free (.name a) (.name b)
  | keyword (k : String) : KindLike ν free (.keyword k) (.keyword k)
  | number (kind : NumberKind) (text : String) :
      KindLike ν free (.number kind text) (.number kind text)
  | string {s t : StringToken} (h : LiteralLike ν s t) : KindLike ν free (.string s) (.string t)
  | changed {s t : StringToken} (h : free) (hs : Readable s) (ht : Readable t) :
      KindLike ν free (.string s) (.string t)
  | op (o : String) : KindLike ν free (.op o) (.op o)
  | newline : KindLike ν free .newline .newline
  | indent : KindLike ν free .indent .indent
  | dedent : KindLike ν free .dedent .dedent

def Token.isString (t : Token) : Bool :=
  match t.kind with
  | .string _ => true
  | _ => false

def Token.StartsAt (F : Places) (t : Token) : Prop := F t.span.line t.span.column

def TokenLike [Dialect] (ν : NameLikeness) (F : Places) (t u : Token) : Prop :=
  KindLike ν (t.StartsAt F) t.kind u.kind

/-- A string at one of the places has no string next to it. -/
def Standalone (F : Places) (toks : List Token) : Prop :=
  toks.IsChain fun t u => t.isString = true → u.isString = true → ¬ t.StartsAt F ∧ ¬ u.StartsAt F

instance {F : Places} [∀ line column, Decidable (F line column)] (toks : List Token) :
    Decidable (Standalone F toks) :=
  inferInstanceAs (Decidable (toks.IsChain fun t u => t.isString = true → u.isString = true →
    ¬ F t.span.line t.span.column ∧ ¬ F u.span.line u.span.column))

structure StateLike [Dialect] (ν : NameLikeness) (F : Places) (s s' : ParseState) : Prop where
  tokens : List.Forall₂ (TokenLike ν F) s.tokens s'.tokens
  alone : Standalone F s.tokens

theorem standalone_none (toks : List Token) : Standalone .none toks := by
  induction toks with
  | nil => exact .nil
  | cons t toks ih =>
    cases toks with
    | nil => exact .singleton t
    | cons u toks => exact .cons_cons (fun _ _ => ⟨nofun, nofun⟩) ih

/-- A kind of token that two alike tokens both are or are not. -/
def Steady [Dialect] (ν : NameLikeness) (k : TokenKind) : Prop :=
  ∀ a b, KindLike ν True a b → (a = k ↔ b = k)

section Tokens

variable [Dialect] {ν : NameLikeness} {F : Places}

theorem KindLike.weaken {free free' : Prop} {k k' : TokenKind} (h : KindLike ν free k k')
    (himp : free → free') : KindLike ν free' k k' := by
  cases h with
  | name h hsoft => exact .name h hsoft
  | keyword k => exact .keyword k
  | number kind text => exact .number kind text
  | string h => exact .string h
  | changed h hs ht => exact .changed (himp h) hs ht
  | op o => exact .op o
  | newline => exact .newline
  | indent => exact .indent
  | dedent => exact .dedent

theorem steady_op (o : String) : Steady ν (.op o) := by
  intro a b h
  cases h <;> simp

theorem steady_keyword (k : String) : Steady ν (.keyword k) := by
  intro a b h
  cases h <;> simp

theorem steady_newline : Steady ν .newline := by
  intro a b h
  cases h <;> simp

theorem steady_indent : Steady ν .indent := by
  intro a b h
  cases h <;> simp

theorem steady_dedent : Steady ν .dedent := by
  intro a b h
  cases h <;> simp

theorem steady_name {w : String} (hw : w ∈ softWords) : Steady ν (.name w) := by
  intro a b h
  cases h with
  | name _ hsoft => simpa using hsoft w hw
  | _ => simp

theorem Steady.beq_eq {k : TokenKind} (hk : Steady ν k) {a b : Option TokenKind}
    (h : Option.Rel (KindLike ν True) a b) : (a == some k) = (b == some k) := by
  cases h with
  | none => rfl
  | some h => simp [hk _ _ h]

theorem StateLike.tail {t u : Token} {ts us : List Token} {n m : Nat}
    (h : StateLike ν F ⟨t :: ts, n⟩ ⟨u :: us, m⟩) (n' m' : Nat) :
    StateLike ν F ⟨ts, n'⟩ ⟨us, m'⟩ := by
  obtain ⟨htokens, halone⟩ := h
  cases htokens with
  | cons _ hrest =>
    refine ⟨hrest, ?_⟩
    cases ts with
    | nil => exact .nil
    | cons v ts => exact (List.isChain_cons_cons.mp halone).2

end Tokens

/-! ### Trees -/

namespace NameLikeness

def Dotted (ν : NameLikeness) (a b : String) : Prop :=
  ∃ as bs, List.Forall₂ ν.rel as bs ∧ a = String.intercalate "." as ∧ b = String.intercalate "." bs

theorem dotted_single {ν : NameLikeness} {a b : String} (h : ν.rel a b) : ν.Dotted a b :=
  ⟨[a], [b], .cons h .nil, by simp, by simp⟩

end NameLikeness

def Label.isNameless : Label → Bool
  | .functionDef _ _ | .classDef _ | .importFrom _ _ | .globalStmt _ | .nonlocalStmt _
  | .attr _ _ | .name _ _ | .exceptHandler _ | .arg _ | .keyword _ | .importName _ _
  | .matchMapping _ | .matchClass _ | .matchStar _ | .matchAs _ => false
  | _ => true

/-- Labels that differ in names, or in the content of a string where that is free or names may
differ. -/
inductive LabelLike (ν : NameLikeness) (free : Prop) : Label → Label → Prop
  | same {l : Label} (h : l.isNameless = true) : LabelLike ν free l l
  | changed (h : free ∨ ν ≠ .same) (a b : String) :
      LabelLike ν free (.constant (.string a)) (.constant (.string b))
  | changedBytes (h : ν ≠ .same) (a b : String) :
      LabelLike ν free (.constant (.bytes a)) (.constant (.bytes b))
  | functionDef (isAsync : Bool) {a b : String} (h : ν.rel a b) :
      LabelLike ν free (.functionDef isAsync a) (.functionDef isAsync b)
  | classDef {a b : String} (h : ν.rel a b) : LabelLike ν free (.classDef a) (.classDef b)
  | importFrom {p q : Option String} (level : Nat) (h : Option.Rel ν.Dotted p q) :
      LabelLike ν free (.importFrom p level) (.importFrom q level)
  | globalStmt {as bs : List String} (h : List.Forall₂ ν.rel as bs) :
      LabelLike ν free (.globalStmt as) (.globalStmt bs)
  | nonlocalStmt {as bs : List String} (h : List.Forall₂ ν.rel as bs) :
      LabelLike ν free (.nonlocalStmt as) (.nonlocalStmt bs)
  | attr {a b : String} (h : ν.rel a b) (access : Access) :
      LabelLike ν free (.attr a access) (.attr b access)
  | name {a b : String} (h : ν.rel a b) (access : Access) :
      LabelLike ν free (.name a access) (.name b access)
  | exceptHandler {a b : Option String} (h : Option.Rel ν.rel a b) :
      LabelLike ν free (.exceptHandler a) (.exceptHandler b)
  | arg {a b : String} (h : ν.rel a b) : LabelLike ν free (.arg a) (.arg b)
  | keyword {a b : Option String} (h : Option.Rel ν.rel a b) :
      LabelLike ν free (.keyword a) (.keyword b)
  | importName {a b : String} {as bs : Option String} (h : ν.Dotted a b)
      (hs : Option.Rel ν.rel as bs) : LabelLike ν free (.importName a as) (.importName b bs)
  | importAll : LabelLike ν free (.importName "*" none) (.importName "*" none)
  | matchMapping {a b : Option String} (h : Option.Rel ν.rel a b) :
      LabelLike ν free (.matchMapping a) (.matchMapping b)
  | matchClass {as bs : List String} (h : List.Forall₂ ν.rel as bs) :
      LabelLike ν free (.matchClass as) (.matchClass bs)
  | matchStar {a b : Option String} (h : Option.Rel ν.rel a b) :
      LabelLike ν free (.matchStar a) (.matchStar b)
  | matchAs {a b : Option String} (h : Option.Rel ν.rel a b) :
      LabelLike ν free (.matchAs a) (.matchAs b)

/-- Whether a label is not a name that is assigned or deleted. -/
def Label.isRead : Label → Bool
  | .name _ access => access == .load
  | _ => true

/-- Whether what a call calls comes first and is read. Other nodes call nothing. -/
def Label.callsRead : Label → List Tree → Bool
  | .call, cs => cs.head?.any fun f => f.role == .func && f.label.isRead
  | _, _ => true

/-- Trees of one shape whose labels are alike; `F` are the places of the strings whose contents may
differ. -/
inductive TreeLike (ν : NameLikeness) (F : Places) : Tree → Tree → Prop
  | node {l l' : Label} (r : Role) {s s' : Span} {cs cs' : List Tree}
      (hl : LabelLike ν (F s.line s.column) l l') (hcs : List.Forall₂ (TreeLike ν F) cs cs')
      (hcall : l.callsRead cs = true) : TreeLike ν F (.node l r s cs) (.node l' r s' cs')

abbrev TreesLike (ν : NameLikeness) (F : Places) : List Tree → List Tree → Prop :=
  List.Forall₂ (TreeLike ν F)

/-- Alike expressions, which are read where they stand. -/
structure ReadLike (ν : NameLikeness) (F : Places) (t t' : Tree) : Prop where
  tree : TreeLike ν F t t'
  read : t.label.isRead = true

section Trees

variable {ν : NameLikeness} {F : Places} {t t' : Tree} {ts ts' : List Tree}

theorem TreeLike.as (h : TreeLike ν F t t') (r : Role) : TreeLike ν F (t.as r) (t'.as r) := by
  cases h with
  | node _ hl hcs hcall => exact .node r hl hcs hcall

theorem ReadLike.as (h : ReadLike ν F t t') (r : Role) : TreeLike ν F (t.as r) (t'.as r) :=
  h.tree.as r

theorem TreeLike.label (h : TreeLike ν F t t') :
    LabelLike ν (F t.span.line t.span.column) t.label t'.label := by
  cases h with
  | node _ hl _ => exact hl

theorem TreesLike.as (h : TreesLike ν F ts ts') (r : Role) :
    TreesLike ν F (ts.map (·.as r)) (ts'.map (·.as r)) :=
  List.rel_map (fun _ _ h => h.as r) h

theorem TreesLike.append {us us' : List Tree} (h : TreesLike ν F ts ts')
    (k : TreesLike ν F us us') : TreesLike ν F (ts ++ us) (ts' ++ us') := List.rel_append h k

theorem TreesLike.single (h : TreeLike ν F t t') : TreesLike ν F [t] [t'] := .cons h .nil

theorem LabelLike.weaken {free free' : Prop} {l l' : Label} (h : LabelLike ν free l l')
    (himp : free → free') : LabelLike ν free' l l' := by
  cases h with
  | same h => exact .same h
  | changed h a b => exact .changed (h.imp_left himp) a b
  | changedBytes h a b => exact .changedBytes h a b
  | functionDef isAsync h => exact .functionDef isAsync h
  | classDef h => exact .classDef h
  | importFrom level h => exact .importFrom level h
  | globalStmt h => exact .globalStmt h
  | nonlocalStmt h => exact .nonlocalStmt h
  | attr h access => exact .attr h access
  | name h access => exact .name h access
  | exceptHandler h => exact .exceptHandler h
  | arg h => exact .arg h
  | keyword h => exact .keyword h
  | importName h hs => exact .importName h hs
  | importAll => exact .importAll
  | matchMapping h => exact .matchMapping h
  | matchClass h => exact .matchClass h
  | matchStar h => exact .matchStar h
  | matchAs h => exact .matchAs h

mutual

theorem TreeLike.weaken {G : Places} (himp : ∀ line column, F line column → G line column) :
    ∀ t t' : Tree, TreeLike ν F t t' → TreeLike ν G t t'
  | .node _ r _ cs, .node _ _ _ cs', h => by
    cases h with
    | node _ hl hcs hcall =>
      exact .node r (hl.weaken (himp _ _)) (TreesLike.weaken himp cs cs' hcs) hcall

theorem TreesLike.weaken {G : Places} (himp : ∀ line column, F line column → G line column) :
    ∀ ts ts' : List Tree, TreesLike ν F ts ts' → TreesLike ν G ts ts'
  | [], [], _ => .nil
  | t :: ts, t' :: ts', h =>
    .cons (TreeLike.weaken himp t t' (List.forall₂_cons.mp h).1)
      (TreesLike.weaken himp ts ts' (List.forall₂_cons.mp h).2)

end

end Trees

section SameNames

theorem eq_of_forall₂_same {as bs : List String}
    (h : List.Forall₂ NameLikeness.same.rel as bs) : as = bs := by
  induction h with
  | nil => rfl
  | cons h _ ih => rw [h.1, ih]

theorem eq_of_dotted {a b : String} (h : NameLikeness.same.Dotted a b) : a = b := by
  obtain ⟨as, bs, hparts, rfl, rfl⟩ := h
  rw [eq_of_forall₂_same hparts]

/-- Where names are the same, labels differ at most in a text that is free. -/
theorem LabelLike.eq_or_text {free : Prop} {l l' : Label} (h : LabelLike .same free l l') :
    l = l' ∨ free ∧ ∃ a b, l = .constant (.string a) ∧ l' = .constant (.string b) := by
  have hname {x y : Option String} (h : Option.Rel NameLikeness.same.rel x y) : x = y :=
    eq_of_rel h fun _ _ h => h.1
  cases h with
  | same => exact .inl rfl
  | changed h a b => exact .inr ⟨h.resolve_right (absurd rfl), a, b, rfl, rfl⟩
  | changedBytes h => exact absurd rfl h
  | functionDef _ h => exact .inl (by rw [h.1])
  | classDef h => exact .inl (by rw [h.1])
  | importFrom _ h => exact .inl (by rw [eq_of_rel h fun _ _ => eq_of_dotted])
  | globalStmt h => exact .inl (by rw [eq_of_forall₂_same h])
  | nonlocalStmt h => exact .inl (by rw [eq_of_forall₂_same h])
  | attr h => exact .inl (by rw [h.1])
  | name h => exact .inl (by rw [h.1])
  | exceptHandler h => exact .inl (by rw [hname h])
  | arg h => exact .inl (by rw [h.1])
  | keyword h => exact .inl (by rw [hname h])
  | importName h hs => exact .inl (by rw [eq_of_dotted h, hname hs])
  | importAll => exact .inl rfl
  | matchMapping h => exact .inl (by rw [hname h])
  | matchClass h => exact .inl (by rw [eq_of_forall₂_same h])
  | matchStar h => exact .inl (by rw [hname h])
  | matchAs h => exact .inl (by rw [hname h])

end SameNames

/-! ### Parsers -/

namespace Parser

variable [Dialect]

/-- Parsers that on alike tokens both fail, or both give related results and leave alike tokens. -/
def Like (ν : NameLikeness) (F : Places) {α β : Type} (R : α → β → Prop) (p : Parser α)
    (q : Parser β) : Prop :=
  ∀ s s', StateLike ν F s s' →
    Option.Rel (fun x y => R x.1 y.1 ∧ StateLike ν F x.2 y.2) (p s) (q s')

abbrev LikeTree (ν : NameLikeness) (F : Places) : Parser Tree → Parser Tree → Prop :=
  Like ν F (TreeLike ν F)

abbrev LikeRead (ν : NameLikeness) (F : Places) : Parser Tree → Parser Tree → Prop :=
  Like ν F (ReadLike ν F)

section Like

variable {ν : NameLikeness} {F : Places} {α β α' β' : Type} {R : α → α' → Prop}
  {Q : β → β' → Prop} {p q : Parser α} {p' q' : Parser α'}

theorem Like.pure {a : α} {a' : α'} (h : R a a') : Like ν F R (pure a) (pure a') :=
  fun _ _ hs => .some ⟨h, hs⟩

theorem Like.failure : Like ν F R failure failure := fun _ _ _ => .none

theorem Like.bind {f : α → Parser β} {f' : α' → Parser β'} (h : Like ν F R p p')
    (hf : ∀ {a a'}, R a a' → Like ν F Q (f a) (f' a')) : Like ν F Q (p >>= f) (p' >>= f') := by
  intro s s' hs
  have hp := h s s' hs
  change Option.Rel _ ((p s).bind fun x => f x.1 x.2) ((p' s').bind fun x => f' x.1 x.2)
  generalize p s = x at hp ⊢
  generalize p' s' = x' at hp ⊢
  cases hp with
  | none => exact .none
  | some hxx' => exact hf hxx'.1 _ _ hxx'.2

theorem Like.seq {k : Parser β} {k' : Parser β'} (hp : Like ν F R p p') (hk : Like ν F Q k k') :
    Like ν F Q (p >>= fun _ => k) (p' >>= fun _ => k') :=
  hp.bind fun _ => hk

theorem Like.bind_eq {p p' : Parser α} {f : α → Parser β} {f' : α → Parser β'}
    (h : Like ν F Eq p p') (hf : ∀ a, Like ν F Q (f a) (f' a)) : Like ν F Q (p >>= f) (p' >>= f') :=
  h.bind fun ha => ha ▸ hf _

theorem Like.mono {Q : α → α' → Prop} (h : Like ν F R p p') (himp : ∀ {a a'}, R a a' → Q a a') :
    Like ν F Q p p' := fun s s' hs => rel_imp (h s s' hs) fun _ _ hx => ⟨himp hx.1, hx.2⟩

theorem Like.tree {p p' : Parser Tree} (h : LikeRead ν F p p') : LikeTree ν F p p' :=
  h.mono (·.tree)

theorem Like.branch {c c' : Parser Bool} (hc : Like ν F Eq c c') (hp : Like ν F R p p')
    (hq : Like ν F R q q') :
    Like ν F R (c >>= fun b => if b = true then p else q)
      (c' >>= fun b => if b = true then p' else q') := by
  refine hc.bind_eq fun b => ?_
  cases b with
  | false => exact hq
  | true => exact hp

theorem Like.ite_congr {c c' : Prop} [Decidable c] [Decidable c'] (hc : c ↔ c')
    (hp : Like ν F R p p') (hq : Like ν F R q q') :
    Like ν F R (if c then p else q) (if c' then p' else q') := by
  by_cases h : c
  · rw [if_pos h, if_pos (hc.mp h)]
    exact hp
  · rw [if_neg h, if_neg (h ∘ hc.mpr)]
    exact hq

theorem Like.ite {c : Prop} [Decidable c] (hp : Like ν F R p p') (hq : Like ν F R q q') :
    Like ν F R (if c then p else q) (if c then p' else q') := Like.ite_congr Iff.rfl hp hq

theorem Like.orElse (hp : Like ν F R p p') (hq : Like ν F R q q') :
    Like ν F R (p <|> q) (p' <|> q') := by
  intro s s' hs
  have hps := hp s s' hs
  change Option.Rel _ ((p s).orElse fun _ => q s) ((p' s').orElse fun _ => q' s')
  generalize p s = x at hps ⊢
  generalize p' s' = x' at hps ⊢
  cases hps with
  | none => exact hq s s' hs
  | some hxx' => exact .some hxx'

theorem like_lift {x : Option α} {x' : Option α'} (h : Option.Rel R x x') :
    Like ν F R (lift x) (lift x') := by
  intro s s' hs
  cases h with
  | none => exact .none
  | some h => exact .some ⟨h, hs⟩

theorem like_guardThat (b : Bool) : Like ν F Eq (guardThat b) (guardThat b) := by
  cases b with
  | false => exact Like.failure
  | true => exact Like.pure rfl

/-! ### Looking at tokens -/

theorem rel_head? {s s' : ParseState} (hs : StateLike ν F s s') :
    Option.Rel (KindLike ν True) (s.tokens.head?.map (·.kind)) (s'.tokens.head?.map (·.kind)) := by
  obtain ⟨ts, n⟩ := s
  obtain ⟨us, m⟩ := s'
  cases hs.tokens with
  | nil => exact .none
  | cons h _ => exact .some (h.weaken fun _ => trivial)

theorem like_kind? : Like ν F (Option.Rel (KindLike ν True)) kind? kind? :=
  fun _ _ hs => .some ⟨rel_head? hs, hs⟩

theorem like_kind?_bind {f : Option TokenKind → Parser α} {f' : Option TokenKind → Parser α'}
    (hnone : Like ν F R (f none) (f' none))
    (hsome : ∀ {k k'}, KindLike ν True k k' → Like ν F R (f (some k)) (f' (some k'))) :
    Like ν F R (kind? >>= f) (kind? >>= f') := by
  refine like_kind?.bind fun h => ?_
  cases h with
  | none => exact hnone
  | some h => exact hsome h

theorem like_second? : Like ν F (Option.Rel (KindLike ν True)) second? second? := by
  rintro ⟨ts, n⟩ ⟨us, m⟩ hs
  refine .some ⟨?_, hs⟩
  cases hs.tokens with
  | nil => exact .none
  | cons _ _ => exact rel_head? (hs.tail n m)

theorem like_take : Like ν F (fun t u => KindLike ν True t.kind u.kind) take take := by
  rintro ⟨ts, n⟩ ⟨us, m⟩ hs
  cases hs.tokens with
  | nil => exact .none
  | cons h _ => exact .some ⟨h.weaken fun _ => trivial, hs.tail _ _⟩

theorem like_here : Like ν F (fun _ _ => True) here here := by
  rintro ⟨ts, n⟩ ⟨us, m⟩ hs
  cases hs.tokens with
  | nil => exact .none
  | cons _ _ => exact .some ⟨trivial, hs⟩

theorem like_isNext {k : TokenKind} (hk : Steady ν k) : Like ν F Eq (isNext k) (isNext k) :=
  like_kind?.bind fun h => Like.pure (hk.beq_eq h)

theorem like_isOp (o : String) : Like ν F Eq (isOp o) (isOp o) := like_isNext (steady_op o)

theorem like_isKeyword (k : String) : Like ν F Eq (isKeyword k) (isKeyword k) :=
  like_isNext (steady_keyword k)

theorem like_accept {k : TokenKind} (hk : Steady ν k) : Like ν F Eq (accept k) (accept k) :=
  (like_isNext hk).branch (like_take.seq (Like.pure rfl)) (Like.pure rfl)

theorem like_acceptOp (o : String) : Like ν F Eq (acceptOp o) (acceptOp o) :=
  like_accept (steady_op o)

theorem like_acceptKeyword (k : String) : Like ν F Eq (acceptKeyword k) (acceptKeyword k) :=
  like_accept (steady_keyword k)

theorem like_expect {k : TokenKind} (hk : Steady ν k) : Like ν F Eq (expect k) (expect k) :=
  (like_accept hk).branch (Like.pure rfl) Like.failure

theorem like_op (o : String) : Like ν F Eq (op o) (op o) := like_expect (steady_op o)

theorem like_keyword (k : String) : Like ν F Eq (keyword k) (keyword k) :=
  like_expect (steady_keyword k)

theorem like_name : Like ν F ν.rel name name := by
  refine like_take.bind ?_
  rintro ⟨k, s⟩ ⟨k', s'⟩ h
  cases h with
  | name h _ => exact Like.pure h
  | _ => exact Like.failure

theorem like_isName : Like ν F Eq isName isName :=
  like_kind?_bind (Like.pure rfl) fun h => by cases h <;> exact Like.pure rfl

theorem like_anyOp (ops : List String) : Like ν F Eq (anyOp ops) (anyOp ops) := by
  refine like_kind?_bind (Like.pure rfl) fun h => ?_
  cases h with
  | op o =>
    dsimp only
    split
    · exact like_take.seq (Like.pure rfl)
    · exact Like.pure rfl
  | _ => exact Like.pure rfl

/-! ### Nodes -/

section Nodes

variable {l l' : Label} {start start' : Span} {cs cs' : List Tree}

theorem like_node (hl : LabelLike ν (F start.line start.column) l l') (hcs : TreesLike ν F cs cs')
    (hcall : l.callsRead cs = true) : LikeTree ν F (node l start cs) (node l' start' cs') :=
  fun _ _ hs => .some ⟨.node .root hl hcs hcall, hs⟩

theorem like_read (hl : LabelLike ν (F start.line start.column) l l') (hcs : TreesLike ν F cs cs')
    (h : (l.isRead && l.callsRead cs) = true) :
    LikeRead ν F (node l start cs) (node l' start' cs') := by
  obtain ⟨hread, hcall⟩ := Bool.and_eq_true_iff.mp h
  exact fun _ _ hs => .some ⟨⟨.node .root hl hcs hcall, hread⟩, hs⟩

/-- A label without a name is the same, and so the node is read. -/
theorem like_expr (h : (l.isNameless && l.callsRead cs) = true) (hcs : TreesLike ν F cs cs') :
    LikeRead ν F (node l start cs) (node l start' cs') := by
  obtain ⟨hl, hcall⟩ := Bool.and_eq_true_iff.mp h
  refine like_read (.same hl) hcs (Bool.and_eq_true_iff.mpr ⟨?_, hcall⟩)
  cases l with
  | name => cases hl
  | _ => rfl

theorem like_same (h : (l.isNameless && l.callsRead cs) = true) (hcs : TreesLike ν F cs cs') :
    LikeTree ν F (node l start cs) (node l start' cs') := (like_expr h hcs).tree

end Nodes

/-! ### Repetition -/

theorem like_repeatWhile {more more' : Parser Bool} (hmore : Like ν F Eq more more')
    (hp : Like ν F R p p') :
    Like ν F (List.Forall₂ R) (repeatWhile more p) (repeatWhile more' p') := by
  have hgo (n : Nat) : Like ν F (List.Forall₂ R) (repeatWhile.go more p n)
      (repeatWhile.go more' p' n) := by
    induction n with
    | zero => exact hmore.branch Like.failure (Like.pure .nil)
    | succ n ih =>
      refine hmore.branch ?_ (Like.pure .nil)
      refine hp.bind fun hx => ?_
      exact ih.bind fun hxs => Like.pure (.cons hx hxs)
  intro s s' hs
  have hlength := hs.tokens.length_eq
  unfold repeatWhile
  rw [hlength]
  exact hgo _ s s' hs

theorem like_commaList {stop stop' : Parser Bool} (hstop : Like ν F Eq stop stop')
    (hp : Like ν F R p p') :
    Like ν F (fun x y => List.Forall₂ R x.1 y.1 ∧ x.2 = y.2) (commaList stop p)
      (commaList stop' p') := by
  refine hp.bind fun hx => ?_
  refine (like_repeatWhile ((like_isOp ",").branch ?peek (Like.pure rfl))
    ((like_op ",").seq hp)).bind fun hxs => ?_
  case peek =>
    -- the tokens that are looked at are not taken
    intro s s' hs
    have hnext := (like_take.seq hstop) s s' hs
    dsimp only
    generalize (take >>= fun _ => stop) s = x at hnext ⊢
    generalize (take >>= fun _ => stop') s' = x' at hnext ⊢
    cases hnext with
    | none => exact .none
    | some h => exact .some ⟨congrArg (!·) h.1, hs⟩
  refine (like_acceptOp ",").bind fun hb => ?_
  exact Like.pure ⟨.cons hx hxs, hb⟩

theorem like_itemsUpTo (close : String) (hp : Like ν F R p p') :
    Like ν F (List.Forall₂ R) (itemsUpTo close p) (itemsUpTo close p') := by
  refine (like_isOp close).branch (Like.pure .nil) ?_
  exact (like_commaList (like_isOp close) hp).bind fun h => Like.pure h.1

theorem like_moreItems (close : String) (hp : Like ν F R p p') :
    Like ν F (List.Forall₂ R) (moreItems close p) (moreItems close p') :=
  (like_acceptOp ",").branch (like_itemsUpTo close hp) (Like.pure .nil)

theorem like_optionally {c c' : Parser Bool} {p p' : Parser Tree} (hc : Like ν F Eq c c')
    (hp : LikeTree ν F p p') : Like ν F (TreesLike ν F) (optionally c p) (optionally c' p') :=
  hc.branch (hp.bind fun h => Like.pure (.single h)) (Like.pure .nil)

theorem like_oneOr {items items' : List Tree × Bool} {one one' : Tree → Parser Tree}
    {several several' : List Tree → Parser Tree}
    (hitems : TreesLike ν F items.1 items'.1 ∧ items.2 = items'.2)
    (hone : ∀ {t t'}, TreeLike ν F t t' → LikeTree ν F (one t) (one' t'))
    (hseveral : ∀ {ts ts'}, TreesLike ν F ts ts' → LikeTree ν F (several ts) (several' ts')) :
    LikeTree ν F (oneOr items one several) (oneOr items' one' several') := by
  obtain ⟨ts, b⟩ := items
  obtain ⟨ts', b'⟩ := items'
  obtain ⟨hts, rfl⟩ : TreesLike ν F ts ts' ∧ b = b' := hitems
  cases hts with
  | nil => exact hseveral .nil
  | cons ht hrest =>
    cases hrest with
    | nil =>
      cases b with
      | false => exact hone ht
      | true => exact hseveral (.single ht)
    | cons hu hrest => exact hseveral (.cons ht (.cons hu hrest))

end Like

end Parser

end Restyle.Syntax
