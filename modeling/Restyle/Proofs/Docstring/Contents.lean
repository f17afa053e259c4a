import Mathlib.Data.List.Perm.Subperm
import Mathlib.Data.Multiset.ZeroCons
import Restyle.Proofs.Docstring.Constants
import Restyle.Proofs.Syntax.BalanceStatements

/-!
What becomes of the docstrings of a source when one literal of it gets another text. The texts of a
source are those of its tokens, and no two of them are at one place. So the literal is the only
docstring that changes, if it is one, and its content is the new text.
-/

namespace Restyle

namespace Syntax

/-! ### Texts of tokens -/

section Tokens

theorem sublist_place_writtenFrom [Dialect] (inside : Bool) (toks : List Token) :
    ((writtenFrom inside toks).map PlacedText.place).Sublist
      ((toks.filter (·.isString)).map Token.place) := by
  induction toks generalizing inside with
  | nil => exact .refl _
  | cons t rest ih =>
    rw [writtenFrom]
    split
    case isTrue hstring =>
      rw [List.filter_cons_of_pos hstring, List.map_cons, List.map_append]
      cases inside with
      | true => exact (ih true).cons _
      | false =>
        rw [if_neg Bool.false_ne_true, textFrom]
        cases joinedText? (leading (t :: rest)) with
        | none => exact (ih true).cons _
        | some s => exact (ih true).cons_cons _
    case isFalse hstring =>
      rw [List.filter_cons_of_neg hstring]
      exact ih false

variable {source : List Char} {t : Tree} {toks toks' : List Token}

theorem nodup_place_of_tokens (htoks : tokens source = some toks) :
    ((toks.filter (·.isString)).map Token.place).Nodup :=
  nodup_place_of_tokensAt (Option.ite_none_left_eq_some.mp htoks).2

/-- No two texts of a source are at one place. -/
theorem nodup_place_written [Dialect] (ht : parse? source = some t) :
    (t.written.map PlacedText.place).Nodup := by
  cases htoks : tokens source with
  | none => simp [parse?, htoks] at ht
  | some toks =>
    rw [((perm_written ht htoks).map _).nodup_iff]
    exact (nodup_place_of_tokens htoks).sublist (sublist_place_writtenFrom false toks)

theorem joinedText?_eq [Dialect] {ls ls' : List StringToken}
    (h : List.Forall₂ (LiteralLike .same) ls ls') : joinedText? ls = joinedText? ls' := by
  have hany : ls.any (fun s => s.isBytes || s.isFormat) =
      ls'.any fun s => s.isBytes || s.isFormat :=
    any_eq_of_forall₂ h fun a b hab => by rw [hab.isBytes, hab.isFormat]
  have hparts := rel_mapM h fun _ _ h => Grammar.rel_literalParts h
  unfold joinedText?
  rw [hany]
  generalize ls.mapM Grammar.literalParts = ps at hparts ⊢
  generalize ls'.mapM Grammar.literalParts = ps' at hparts ⊢
  cases hparts with
  | none => rfl
  | some hps => rw [Option.map_some, Option.map_some,
      (Grammar.textLike_plainText (List.rel_flatten hps)).1 rfl]

theorem joinedText?_single [Dialect] {lit : StringToken} {text : List Char}
    (hbytes : lit.isBytes = false)
    (hformat : lit.isFormat = false) (htext : unescape false lit.isRaw lit.body = some text) :
    joinedText? [lit] = some (String.ofList text) := by
  simp [joinedText?, Grammar.literalParts, Grammar.plainText, hbytes, hformat, htext]

/-- How a text and its counterpart differ if the text at one place becomes another one. -/
def Retold (p : Nat × Nat) (old new : List Char) (x y : PlacedText) : Prop :=
  (x.place = p → x.text = String.ofList old ∧ y.text = String.ofList new) ∧
    (x.place ≠ p → x.text = y.text)

variable {F : Places} {p : Nat × Nat} {old new : List Char}

theorem leading_eq_nil (h : ∀ t ∈ toks.head?, t.isString = false) : leading toks = [] := by
  cases toks with
  | nil => rfl
  | cons t rest =>
    have hkind := h t rfl
    rw [isString_eq_isText] at hkind
    unfold leading
    split
    case h_1 hstring => simp [hstring, TokenKind.isText] at hkind
    case h_2 => rfl

/-- After a string that stands alone, or before it, there is no string. -/
theorem Standalone.next {t u : Token} {rest : List Token} (h : Standalone F (t :: rest))
    (ht : t.isString = true) (hu : u ∈ rest.head?) (hstring : u.isString = true) :
    ¬ t.StartsAt F ∧ ¬ u.StartsAt F := by
  obtain ⟨tail, rfl⟩ : ∃ tail, rest = u :: tail := ⟨_, (List.cons_head?_tail hu).symm⟩
  exact (List.isChain_cons_cons.mp h).1 ht hstring

/-- Literals next to each other are the same if the first one does not change. -/
theorem rel_leading [Dialect] (h : List.Forall₂ (TokenLike .same F) toks toks')
    (halone : Standalone F toks) (hfirst : ∀ t ∈ toks.head?, t.isString = true → ¬ t.StartsAt F) :
    List.Forall₂ (LiteralLike .same) (leading toks) (leading toks') := by
  induction h with
  | nil => exact .nil
  | @cons t t' rest rest' hkind hrest ih =>
    have hother := hfirst t rfl
    rw [isString_eq_isText] at hother
    have hnext (hstring : t.kind.isText = true) :=
      ih halone.tail fun u hu hu' =>
        (halone.next ((isString_eq_isText t).trans hstring) hu hu').2
    unfold TokenLike at hkind
    unfold leading
    generalize t.kind = k at hkind hother hnext ⊢
    generalize t'.kind = k' at hkind ⊢
    cases hkind with
    | string hlit => exact .cons hlit (hnext rfl)
    | changed hfree => exact absurd hfree (hother rfl)
    | _ => exact .nil

theorem rel_textFrom [Dialect] {t t' : Token} {rest rest' : List Token}
    (h : List.Forall₂ (TokenLike .same fun line column => (line, column) = p) (t :: rest)
      (t' :: rest'))
    (halone : Standalone (fun line column => (line, column) = p) (t :: rest))
    (hstring : t.isString = true) (hholds : t.place = p → t.Holds old ∧ t'.Holds new) :
    List.Forall₂ (Retold p old new) (textFrom t rest) (textFrom t' rest') := by
  unfold textFrom
  by_cases hp : t.place = p
  · -- the literal that changes has no neighbour
    obtain ⟨⟨lit, hkind, hbytes, hformat, htext⟩, lit', hkind', hbytes', hformat', htext'⟩ :=
      hholds hp
    have hnext : ∀ u ∈ rest.head?, u.isString = false := by
      intro u hu
      by_contra hother
      exact (halone.next hstring hu (by simpa using hother)).1 hp
    have hnext' : ∀ u ∈ rest'.head?, u.isString = false := by
      intro u' hu'
      cases h with
      | cons _ hrest => cases hrest with
        | nil => cases hu'
        | cons huu' _ =>
          cases hu'
          rw [← Grammar.isString_eq huu']
          exact hnext _ rfl
    simp only [leading, hkind, hkind', leading_eq_nil hnext, leading_eq_nil hnext',
      joinedText?_single hbytes hformat htext, joinedText?_single hbytes' hformat' htext']
    exact .cons ⟨fun _ => ⟨rfl, rfl⟩, fun hother => absurd hp hother⟩ .nil
  · have hfirst : ∀ u ∈ (t :: rest).head?, u.isString = true → u.place ≠ p := by
      rintro u ⟨⟩ -
      exact hp
    rw [joinedText?_eq (rel_leading h halone hfirst)]
    cases joinedText? (leading (t' :: rest')) with
    | none => exact .nil
    | some s => exact .cons ⟨fun hother => absurd hother hp, fun _ => rfl⟩ .nil

theorem rel_writtenFrom [Dialect]
    (h : List.Forall₂ (TokenLike .same fun line column => (line, column) = p) toks toks')
    (halone : Standalone (fun line column => (line, column) = p) toks)
    (hholds : List.Forall₂ (fun t t' => t.isString = true → t.place = p →
      t.Holds old ∧ t'.Holds new) toks toks') (inside : Bool) :
    List.Forall₂ (Retold p old new) (writtenFrom inside toks) (writtenFrom inside toks') := by
  induction h generalizing inside with
  | nil => exact .nil
  | @cons t t' rest rest' hkind hrest ih =>
    obtain ⟨hhold, hholds⟩ := List.forall₂_cons.mp hholds
    rw [writtenFrom, writtenFrom, ← Grammar.isString_eq hkind]
    split
    case isTrue hstring =>
      refine List.rel_append ?_ (ih halone.tail hholds true)
      split
      · exact .nil
      · exact rel_textFrom (.cons hkind hrest) halone hstring (hhold hstring)
    case isFalse => exact ih halone.tail hholds false

/-- There is one literal at the place, so it is the one that changes. -/
theorem Rebodied.holds_of_place [Dialect] {tok : Token} (h : Rebodied tok old new toks toks')
    (hnodup : ((toks.filter (·.isString)).map Token.place).Nodup) :
    List.Forall₂ (fun t t' => t.isString = true → t.place = tok.place →
      t.Holds old ∧ t'.Holds new) toks toks' := by
  obtain ⟨n, tok', hn, hn', hnew⟩ := h.partner
  have hstring : tok.isString = true := by
    obtain ⟨lit, hkind, -⟩ := h.holds
    rw [isString_eq_isText, hkind]
    rfl
  rw [List.Nodup, List.pairwise_map, List.pairwise_filter, List.pairwise_iff_getElem] at hnodup
  obtain ⟨hlt, rfl⟩ := List.getElem?_eq_some_iff.mp hn
  refine List.forall₂_iff_get.mpr ⟨h.alike.length_eq, fun i hi hi' hi'' hplace => ?_⟩
  obtain rfl : i = n := by
    rcases lt_trichotomy i n with hless | heq | hless
    · exact absurd hplace (hnodup i n hi hlt hless hi'' hstring)
    · exact heq
    · exact absurd hplace.symm (hnodup n i hlt hi hless hstring hi'')
  obtain ⟨hlt', rfl⟩ := List.getElem?_eq_some_iff.mp hn'
  exact ⟨h.holds, hnew⟩

end Tokens

/-! ### Trees that differ in texts -/

/-- Labels that differ at most in a text. -/
def Label.Matches (l l' : Label) : Prop :=
  l = l' ∨ ∃ a b, l = .constant (.string a) ∧ l' = .constant (.string b)

/-- Trees of one shape, whose texts are related one by one. -/
inductive Paired (Q : PlacedText → PlacedText → Prop) : Tree → Tree → Prop
  | node {l l' : Label} (r : Role) {s s' : Span} {cs cs' : List Tree} (hl : l.Matches l')
      (hown : List.Forall₂ Q (l.ownText s) (l'.ownText s'))
      (hcs : List.Forall₂ (Paired Q) cs cs') : Paired Q (.node l r s cs) (.node l' r s' cs')

section Trees

variable {Q : PlacedText → PlacedText → Prop} {l l' : Label}

theorem Paired.matches {t t' : Tree} (h : Paired Q t t') : t.label.Matches t'.label := by
  cases h with
  | node _ hl _ _ => exact hl

theorem Label.Matches.eq_iff (h : l.Matches l') {k : Label} (hk : k.ownText ⟨0, 0, 0⟩ = []) :
    l = k ↔ l' = k := by
  rcases h with rfl | ⟨a, b, rfl, rfl⟩
  · exact Iff.rfl
  · constructor
    · rintro rfl
      cases hk
    · rintro rfl
      cases hk

mutual

theorem rel_treeWritten : ∀ t t' : Tree, Paired Q t t' → List.Forall₂ Q t.written t'.written
  | .node l r s cs, .node l' _ s' cs', h => by
    cases h with
    | node _ hl hown hcs =>
      rw [Tree.written, Tree.written]
      refine List.rel_append hown ?_
      by_cases hjoined : l = .joinedStr
      · rw [if_pos hjoined, if_pos ((hl.eq_iff rfl).mp hjoined)]
        exact .nil
      · rw [if_neg hjoined, if_neg (mt (hl.eq_iff rfl).mpr hjoined)]
        exact rel_writtenIn cs cs' hcs

theorem rel_writtenIn : ∀ ts ts' : List Tree, List.Forall₂ (Paired Q) ts ts' →
    List.Forall₂ Q (Tree.writtenIn ts) (Tree.writtenIn ts')
  | [], [], _ => .nil
  | t :: ts, t' :: ts', h => by
    obtain ⟨ht, hts⟩ := List.forall₂_cons.mp h
    exact List.rel_append (rel_treeWritten t t' ht) (rel_writtenIn ts ts' hts)

end

mutual

theorem rel_preorder : ∀ t t' : Tree, Paired Q t t' →
    List.Forall₂ (Paired Q) t.preorder t'.preorder
  | .node l r s cs, .node l' _ s' cs', h => by
    cases h with
    | node _ hl hown hcs => exact .cons (.node r hl hown hcs) (rel_preorders cs cs' hcs)

theorem rel_preorders : ∀ ts ts' : List Tree, List.Forall₂ (Paired Q) ts ts' →
    List.Forall₂ (Paired Q) (Tree.preorders ts) (Tree.preorders ts')
  | [], [], _ => .nil
  | t :: ts, t' :: ts', h => by
    obtain ⟨ht, hts⟩ := List.forall₂_cons.mp h
    exact List.rel_append (rel_preorder t t' ht) (rel_preorders ts ts' hts)

end

mutual

/-- Where texts weigh nothing, such trees weigh the same. -/
theorem weight_eq_of_paired : ∀ (σ : Scale) (t t' : Tree), (∀ x, σ.text x = 0) → Paired Q t t' →
    σ.weight t = σ.weight t'
  | σ, .node l r s cs, .node l' _ s' cs', hσ, h => by
    cases h with
    | node _ hl hown hcs =>
      have hbelow : ∀ x, (σ.below l).text x = 0 := by
        intro x
        by_cases hjoined : l = .joinedStr
        · rw [hjoined]
          rfl
        · rw [Scale.below_of_ne hjoined]
          exact hσ x
      rw [Scale.weight, Scale.weight, weights_eq_of_paired (σ.below l) cs cs' hbelow hcs]
      rcases hl with rfl | ⟨a, b, rfl, rfl⟩
      · congr 1
        cases l with
        | constant c =>
          cases c with
          | string v => exact (hσ _).trans (hσ _).symm
          | _ => rfl
        | _ => rfl
      · congr 1
        exact (hσ _).trans (hσ _).symm

theorem weights_eq_of_paired : ∀ (σ : Scale) (ts ts' : List Tree), (∀ x, σ.text x = 0) →
    List.Forall₂ (Paired Q) ts ts' → σ.weights ts = σ.weights ts'
  | _, [], [], _, _ => rfl
  | σ, t :: ts, t' :: ts', hσ, h => by
    obtain ⟨ht, hts⟩ := List.forall₂_cons.mp h
    rw [Scale.weights, Scale.weights, weight_eq_of_paired σ t t' hσ ht,
      weights_eq_of_paired σ ts ts' hσ hts]

end

/-- The same place, and the same text unless it is at `p`. -/
def SamePlace (p : Nat × Nat) (x y : PlacedText) : Prop :=
  x.place = y.place ∧ (x.place ≠ p → x.text = y.text)

def SameText (x y : PlacedText) : Prop := x.text = y.text

variable {p : Nat × Nat}

theorem rel_ownText {s : Span} (h : LabelLike .same ((s.line, s.column) = p) l l') (s' : Span) :
    List.Forall₂ (SamePlace p) (l.ownText s) (l'.ownText s) ∧
      List.Forall₂ SameText (l'.ownText s) (l'.ownText s') := by
  constructor
  · rcases h.eq_or_text with rfl | ⟨hp, a, b, rfl, rfl⟩
    · exact List.forall₂_same.mpr fun x _ => ⟨rfl, fun _ => rfl⟩
    · exact .cons ⟨rfl, fun hother => absurd hp hother⟩ .nil
  · cases l' with
    | constant c =>
      cases c with
      | string v => exact .cons rfl .nil
      | _ => exact .nil
    | _ => exact .nil

mutual

/-- Between two trees that are alike there is one with the places of the first and the texts of the
second. -/
theorem exists_overlay : ∀ t t' : Tree,
    TreeLike .same (fun line column => (line, column) = p) t t' →
    ∃ u, Paired (SamePlace p) t u ∧ Paired SameText u t'
  | .node l r s cs, .node l' _ s' cs', h => by
    cases h with
    | node _ hl hcs =>
      obtain ⟨us, hus, hus'⟩ := exists_overlays cs cs' hcs
      obtain ⟨hplace, htext⟩ := rel_ownText hl s'
      exact ⟨.node l' r s us, .node r (hl.eq_or_text.imp_right (·.2)) hplace hus,
        .node r (.inl rfl) htext hus'⟩

theorem exists_overlays : ∀ ts ts' : List Tree,
    TreesLike .same (fun line column => (line, column) = p) ts ts' →
    ∃ us, List.Forall₂ (Paired (SamePlace p)) ts us ∧ List.Forall₂ (Paired SameText) us ts'
  | [], [], _ => ⟨[], .nil, .nil⟩
  | t :: ts, t' :: ts', h => by
    obtain ⟨ht, hts⟩ := List.forall₂_cons.mp h
    obtain ⟨u, hu, hu'⟩ := exists_overlay t t' ht
    obtain ⟨us, hus, hus'⟩ := exists_overlays ts ts' hts
    exact ⟨u :: us, .cons hu hus, .cons hu' hus'⟩

end

end Trees

/-! ### The text at the place -/

section Texts

variable {p : Nat × Nat} {old new : List Char} {xs ys ts ts' : List PlacedText}

theorem map_text_of_retold (h : List.Forall₂ (Retold p old new) ts ts') :
    ts'.map PlacedText.text =
      ts.map fun x => if x.place = p then String.ofList new else x.text := by
  induction h with
  | nil => rfl
  | @cons x y _ _ hxy _ ih =>
    rw [List.map_cons, List.map_cons, ih]
    by_cases hp : x.place = p
    · rw [if_pos hp, (hxy.1 hp).2]
    · rw [if_neg hp, hxy.2 hp]

theorem map_place_of_samePlace (h : List.Forall₂ (SamePlace p) xs ys) :
    ys.map PlacedText.place = xs.map PlacedText.place := by
  induction h with
  | nil => rfl
  | cons hxy _ ih => rw [List.map_cons, List.map_cons, ih, hxy.1]

theorem map_text_of_samePlace (h : List.Forall₂ (SamePlace p) xs ys)
    (hp : p ∉ xs.map PlacedText.place) (new : String) :
    ys.map PlacedText.text = xs.map fun x => if x.place = p then new else x.text := by
  induction h with
  | nil => rfl
  | @cons x y _ _ hxy _ ih =>
    rw [List.map_cons, List.mem_cons, not_or] at hp
    rw [List.map_cons, List.map_cons, ih hp.2, if_neg (Ne.symm hp.1), hxy.2 (Ne.symm hp.1)]

/-- The text at the place is the new one, if all the texts are as they should be up to their
order. -/
theorem text_eq_of_perm {new : String} (h : List.Forall₂ (SamePlace p) xs ys)
    (hnodup : (xs.map PlacedText.place).Nodup)
    (hperm : (ys.map PlacedText.text).Perm
      (xs.map fun x => if x.place = p then new else x.text)) :
    ∀ y ∈ ys, y.place = p → y.text = new := by
  induction h with
  | nil => nofun
  | @cons x y xs ys hxy hrest ih =>
    rw [List.map_cons, List.nodup_cons] at hnodup
    rw [List.map_cons, List.map_cons] at hperm
    by_cases hp : x.place = p
    · -- all the other texts are the same, so this one is new
      rw [if_pos hp, map_text_of_samePlace hrest (hp ▸ hnodup.1) new] at hperm
      rw [← Multiset.coe_eq_coe, ← Multiset.cons_coe, ← Multiset.cons_coe,
        Multiset.cons_inj_left] at hperm
      rintro z hz hzp
      rcases List.mem_cons.mp hz with rfl | hz
      · exact hperm
      · have hmem := List.mem_map_of_mem (f := PlacedText.place) hz
        rw [map_place_of_samePlace hrest, hzp, ← hp] at hmem
        exact absurd hmem hnodup.1
    · rw [if_neg hp, hxy.2 hp, List.perm_cons] at hperm
      rintro z hz hzp
      rcases List.mem_cons.mp hz with rfl | hz
      · exact absurd (hxy.1.trans hzp) hp
      · exact ih hnodup.2 hperm z hz hzp

theorem map_text_of_sameText (h : List.Forall₂ SameText xs ys) :
    xs.map PlacedText.text = ys.map PlacedText.text := by
  induction h with
  | nil => rfl
  | cons hxy _ ih => rw [List.map_cons, List.map_cons, ih, hxy]

/-- What is known of the texts at the place tells how all of them differ. -/
theorem retold_of_samePlace {zs : List PlacedText} (h : List.Forall₂ (SamePlace p) xs ys)
    (h' : List.Forall₂ SameText ys zs)
    (hold : ∀ x ∈ xs, x.place = p → x.text = String.ofList old)
    (hnew : ∀ y ∈ ys, y.place = p → y.text = String.ofList new) :
    List.Forall₂ (Retold p old new) xs zs := by
  induction h generalizing zs with
  | nil =>
    cases h'
    exact .nil
  | @cons x y xs ys hxy _ ih =>
    cases h' with
    | @cons _ z _ zs hyz hrest =>
      obtain ⟨hx, hxs⟩ := List.forall_mem_cons.mp hold
      obtain ⟨hy, hys⟩ := List.forall_mem_cons.mp hnew
      refine .cons ⟨fun hp => ⟨hx hp, ?_⟩, fun hp => (hxy.2 hp).trans hyz⟩ (ih hrest hxs hys)
      exact hyz.symm.trans (hy (hxy.1.symm.trans hp))

end Texts

/-- When one literal of a source gets another text, then so does the tree, at the place of the
literal. -/
theorem exists_texts_of_rebodied [Dialect] {source text : List Char} {t t' : Tree}
    {toks toks' : List Token} {tok : Token} {old new : List Char} (ht : parse? source = some t)
    (ht' : parse? text = some t') (htoks : tokens source = some toks)
    (htoks' : tokens text = some toks') (h : Rebodied tok old new toks toks')
    (halone : Standalone (fun line column => (line, column) = tok.place) toks)
    (hlike : TreeLike .same (fun line column => (line, column) = tok.place) t t') :
    ∃ u, Paired (SamePlace tok.place) t u ∧ Paired SameText u t' ∧
      (∀ x ∈ t.written, x.place = tok.place → x.text = String.ofList old) ∧
      ∀ y ∈ u.written, y.place = tok.place → y.text = String.ofList new := by
  have hholds := h.holds_of_place (nodup_place_of_tokens htoks)
  have hretold : List.Forall₂ (Retold tok.place old new) (written toks) (written toks') :=
    rel_writtenFrom h.alike halone hholds false
  obtain ⟨u, hu, hu'⟩ := exists_overlay t t' hlike
  have hperm := perm_written ht htoks
  refine ⟨u, hu, hu', fun x hx => ?_, ?_⟩
  · have hold : List.Forall₂ (fun x y => (x.place = tok.place → x.text = String.ofList old) ∧
        Retold tok.place old new x y) (written toks) (written toks') :=
      hretold.imp fun x y hxy => ⟨fun hp => (hxy.1 hp).1, hxy⟩
    exact (List.forall₂_and_left _ _).mp hold |>.1 x (hperm.mem_iff.mp hx)
  · refine text_eq_of_perm (rel_treeWritten t u hu) (nodup_place_written ht) ?_
    rw [map_text_of_sameText (rel_treeWritten u t' hu')]
    refine ((perm_written ht' htoks').map _).trans ?_
    rw [map_text_of_retold hretold]
    exact hperm.symm.map _

end Syntax

/-! ### Docstrings among the texts -/

namespace Docstring

open Syntax

def stmtText (t : Tree) : List PlacedText :=
  if t.label = .exprStmt then (t.part? .value).elim [] fun v => v.label.ownText v.span else []

def ownDoc (t : Tree) : List PlacedText :=
  if hasDocstring t.label then (t.parts .body).head?.elim [] stmtText else []

/-- The docstrings of a tree with their places. -/
def docs (t : Tree) : List PlacedText := t.preorder.flatMap ownDoc

theorem all_eq_map_docs (t : Tree) : all t = (docs t).map fun x => (x.place.1, x.text.toList) := by
  have hown (n : Tree) : (if hasDocstring n.label then firstText? n else none).toList =
      (ownDoc n).map fun x => (x.place.1, x.text.toList) := by
    unfold ownDoc firstText?
    split
    case isFalse => rfl
    case isTrue =>
      cases (n.parts .body).head? with
      | none => rfl
      | some stmt =>
        rw [Option.elim_some, stmtText]
        dsimp only
        split
        case h_1 v hlabel hvalue =>
          rw [if_pos hlabel, hvalue, Option.elim_some]
          cases v.label with
          | constant c => cases c <;> rfl
          | _ => rfl
        case h_2 hother =>
          by_cases hlabel : stmt.label = .exprStmt
          · cases hvalue : stmt.part? .value with
            | none => rw [if_pos hlabel]; rfl
            | some v => exact absurd hvalue (hother v hlabel)
          · rw [if_neg hlabel]
            rfl
  rw [all, List.filterMap_eq_flatMap_toList, docs, List.map_flatMap]
  exact congrArg (List.flatMap · t.preorder) (funext hown)

section Alike

variable {Q : PlacedText → PlacedText → Prop} {t t' : Tree}

theorem rel_child (h : Paired Q t t') (r : Role) :
    Option.Rel (Paired Q) (t.children.find? (·.role == r)) (t'.children.find? (·.role == r)) := by
  cases h with
  | node _ _ _ hcs =>
    refine rel_find? hcs fun a b hab => ?_
    cases hab
    rfl

theorem rel_elim {o o' : Option Tree} {f : Tree → List PlacedText}
    (h : Option.Rel (Paired Q) o o')
    (hf : ∀ t t', Paired Q t t' → List.Forall₂ Q (f t) (f t')) :
    List.Forall₂ Q (o.elim [] f) (o'.elim [] f) := by
  cases h with
  | none => exact .nil
  | some h => exact hf _ _ h

theorem rel_stmtText (h : Paired Q t t') : List.Forall₂ Q (stmtText t) (stmtText t') := by
  have hvalue := rel_elim (rel_child h .value) (f := fun v => v.label.ownText v.span)
    fun v v' hv => by
      cases hv with
      | node _ _ hown _ => exact hown
  have hlabel := h.matches.eq_iff (k := .exprStmt) rfl
  unfold stmtText
  by_cases hstmt : t.label = .exprStmt
  · rw [if_pos hstmt, if_pos (hlabel.mp hstmt)]
    exact hvalue
  · rw [if_neg hstmt, if_neg (mt hlabel.mpr hstmt)]
    exact .nil

theorem rel_ownDoc (h : Paired Q t t') : List.Forall₂ Q (ownDoc t) (ownDoc t') := by
  have hdoc : hasDocstring t.label = hasDocstring t'.label := by
    rcases h.matches with hsame | ⟨a, b, ha, hb⟩
    · rw [hsame]
    · rw [ha, hb]
      rfl
  unfold ownDoc Tree.parts
  rw [hdoc, List.head?_filter, List.head?_filter]
  split
  · exact rel_elim (rel_child h .body) fun _ _ => rel_stmtText
  · exact .nil

theorem rel_docs (h : Paired Q t t') : List.Forall₂ Q (docs t) (docs t') :=
  List.rel_flatMap (rel_preorder t t' h) fun _ _ => rel_ownDoc

end Alike

section Places

mutual

/-- Where definitions weigh something and nothing does, there is no docstring. -/
theorem docs_eq_nil : ∀ t : Tree, Scale.inner.weight t = 0 → docs t = []
  | .node l r s cs, h => by
    have hbelow : Scale.inner.below l = Scale.inner := by cases l <;> rfl
    rw [Scale.weight, hbelow, Nat.add_eq_zero_iff] at h
    rw [docs, Tree.preorder_node, List.flatMap_cons, docsIn_eq_nil cs h.2, List.append_nil]
    cases l with
    | file | functionDef | classDef => cases h.1
    | _ => rfl

theorem docsIn_eq_nil : ∀ ts : List Tree, Scale.inner.weights ts = 0 →
    (Tree.preorders ts).flatMap ownDoc = []
  | [], _ => rfl
  | t :: ts, h => by
    rw [Scale.weights, Nat.add_eq_zero_iff] at h
    rw [Tree.preorders_cons, List.flatMap_append, docsIn_eq_nil ts h.2, List.append_nil]
    exact docs_eq_nil t h.1

end

/-- The text of a constant, or of a statement that is nothing but one. -/
def lead (t : Tree) : List PlacedText := t.label.ownText t.span ++ stmtText t

theorem total_elim_le {σ : Scale} {f : Tree → List PlacedText}
    (hf : ∀ t, σ.total (f t) ≤ σ.total (lead t)) (p : Tree → Bool) (cs : List Tree) :
    σ.total ((cs.find? p).elim [] f) ≤ σ.total (cs.flatMap lead) := by
  cases hfind : cs.find? p with
  | none => exact Nat.zero_le _
  | some c =>
    obtain ⟨pre, post, rfl⟩ := List.append_of_mem (List.mem_of_find?_eq_some hfind)
    have hc := hf c
    rw [List.flatMap_append, List.flatMap_cons, Scale.total_append, Scale.total_append,
      Option.elim_some]
    omega

/-- What a node has as its docstring, or as a statement, it has from one of its children. -/
theorem total_ownDoc_le (σ : Scale) (t : Tree) :
    σ.total (ownDoc t) + σ.total (lead t) ≤
      σ.total (t.label.ownText t.span) + σ.total (t.children.flatMap lead) := by
  have hnil : σ.total [] = 0 := rfl
  have hbody := total_elim_le (σ := σ) (f := stmtText)
    (fun t => by rw [lead, Scale.total_append]; omega) (·.role == .body) t.children
  have hvalue := total_elim_le (σ := σ) (f := fun v => v.label.ownText v.span)
    (fun t => by rw [lead, Scale.total_append]; omega) (·.role == .value) t.children
  rw [lead, Scale.total_append, ownDoc, stmtText, Tree.parts, List.head?_filter, Tree.part?]
  by_cases hstmt : t.label = .exprStmt
  · rw [hstmt, if_neg (by decide), if_pos rfl]
    omega
  · rw [if_neg hstmt]
    split <;> omega

mutual

theorem total_docs_le (σ : Scale) : ∀ t : Tree, Scale.hidden.weight t = 0 →
    σ.total (docs t) + σ.total (lead t) ≤ σ.total t.written
  | .node l r s cs, h => by
    rw [Scale.weight, Nat.add_eq_zero_iff] at h
    have hown : _ ≤ σ.total (l.ownText s) + σ.total (cs.flatMap lead) :=
      total_ownDoc_le σ (.node l r s cs)
    rw [docs, Tree.preorder_node, List.flatMap_cons, Tree.written, Scale.total_append,
      Scale.total_append]
    by_cases hjoined : l = .joinedStr
    · subst hjoined
      rw [docsIn_eq_nil cs h.2]
      simp [ownDoc, hasDocstring, lead, stmtText, Label.ownText, Scale.total]
    · rw [if_neg hjoined]
      rw [Scale.below_of_ne hjoined] at h
      have hbelow := total_docsIn_le σ cs h.2
      omega

theorem total_docsIn_le (σ : Scale) : ∀ ts : List Tree, Scale.hidden.weights ts = 0 →
    σ.total ((Tree.preorders ts).flatMap ownDoc) + σ.total (ts.flatMap lead) ≤
      σ.total (Tree.writtenIn ts)
  | [], _ => Nat.le_refl _
  | t :: ts, h => by
    rw [Scale.weights, Nat.add_eq_zero_iff] at h
    have hfirst := total_docs_le σ t h.1
    have hrest := total_docsIn_le σ ts h.2
    rw [docs] at hfirst
    rw [Tree.preorders_cons, List.flatMap_append, List.flatMap_cons, Tree.writtenIn,
      Scale.total_append, Scale.total_append, Scale.total_append]
    omega

end

/-- The docstrings are among the texts of a tree, each as a text of its own. -/
theorem docs_subperm {t : Tree} (h : Scale.hidden.weight t = 0) : (docs t).Subperm t.written := by
  refine List.subperm_ext_iff.mpr fun x _ => ?_
  have hcount := total_docs_le (.counting x) t h
  rw [Scale.total_counting, Scale.total_counting, Scale.total_counting] at hcount
  omega

theorem nodup_place_docs [Dialect] {source : List Char} {t : Tree} (ht : parse? source = some t) :
    ((docs t).map PlacedText.place).Nodup := by
  obtain ⟨ts, hperm, hsub⟩ := docs_subperm (hidden_of_parse? ht)
  rw [← (hperm.map _).nodup_iff]
  exact (nodup_place_written ht).sublist (hsub.map _)

end Places

/-- Putting a docstring in form where it is found changes the docstring at that place, if there is
one, and no other. -/
theorem exists_docs_of_splice [Dialect] {source text old : List Char} {m : Pattern.Match} {t : Tree}
    (ht : parse? source = some t) (own : OwnToken source m)
    (splice : Splice source text old (format old)) (hskipped : m.skipped = splice.before)
    (hmatch : m.text = splice.quotes ++ splice.left ++ old ++ splice.right ++ splice.quotes)
    (hold : '\\' ∉ old) :
    ∃ t', parse? text = some t' ∧ List.Forall₂ (Retold own.token.place
      (Text.unifyNewlines (splice.left ++ old ++ splice.right))
      (Text.unifyNewlines (splice.left ++ format old ++ splice.right))) (docs t) (docs t') := by
  obtain ⟨toks', htoks', hrebodied⟩ := exists_tokens_of_splice own splice hskipped hmatch hold
  obtain ⟨t', ht', hlike⟩ := exists_tree_of_splice ht own splice hskipped hmatch hold
  obtain ⟨u, hu, hu', holds, hnews⟩ :=
    exists_texts_of_rebodied ht ht' own.tokens_eq htoks' hrebodied own.alone hlike
  have hhidden : Scale.hidden.weight u = 0 := by
    rw [weight_eq_of_paired _ u t' (fun _ => rfl) hu']
    exact hidden_of_parse? ht'
  exact ⟨t', ht', retold_of_samePlace (rel_docs hu) (rel_docs hu')
    (fun x hx => holds x ((docs_subperm (hidden_of_parse? ht)).subset hx))
    (fun y hy => hnews y ((docs_subperm hhidden).subset hy))⟩

end Docstring

end Restyle
