import Mathlib.Data.List.Basic
import Restyle.Pattern.Template

/-!
What patterns match. The ends of a pattern are described by the text that lies between a place and
an end of the pattern there; a search gives a place where the pattern has an end, with all the
text before that place passed over.
-/

namespace Restyle.Pattern

/-- From one place to another one lies a text. -/
def Passes (p : Place) (s : List Char) (q : Place) : Prop :=
  p.rest = s ++ q.rest ∧ q.before = s.reverse ++ p.before

section Passes

variable {p q r : Place} {s t : List Char}

theorem Passes.refl (p : Place) : Passes p [] p := ⟨rfl, rfl⟩

theorem Passes.trans (h : Passes p s q) (k : Passes q t r) : Passes p (s ++ t) r := by
  constructor
  · rw [h.1, k.1, List.append_assoc]
  · rw [k.2, h.2, List.reverse_append, List.append_assoc]

theorem Passes.eq_of_nil (h : Passes p [] q) : q = p := by
  obtain ⟨before, rest⟩ := p
  obtain ⟨before', rest'⟩ := q
  obtain ⟨rfl, rfl⟩ : rest = rest' ∧ before' = before := h
  rfl

theorem Passes.split (s t : List Char) (h : Passes p (s ++ t) r) :
    ∃ q, Passes p s q ∧ Passes q t r := by
  refine ⟨⟨s.reverse ++ p.before, t ++ r.rest⟩, ⟨?_, rfl⟩, ⟨rfl, ?_⟩⟩
  · rw [h.1, List.append_assoc]
  · rw [h.2, List.reverse_append, List.append_assoc]

theorem Passes.unique (h : Passes p s q) (k : Passes p s r) : q = r := by
  have hrest : q.rest = r.rest := List.append_cancel_left (h.1.symm.trans k.1)
  have hbefore : q.before = r.before := h.2.trans k.2.symm
  cases q
  cases r
  cases hrest
  cases hbefore
  rfl

theorem Passes.upTo (h : Passes p s q) : p.upTo q = s := by
  unfold Place.upTo
  rw [h.1, List.length_append, Nat.add_sub_cancel, List.take_left]

end Passes

/-! ### The ends of a pattern -/

section Ends

variable {p q : Place} {g g' : Groups}

theorem mem_ends_char {c : CharClass} :
    (q, g') ∈ ends (.char c) p g ↔ g' = g ∧ ∃ d, c.holds d = true ∧ Passes p [d] q := by
  obtain ⟨before, rest⟩ := p
  cases rest with
  | nil => simp [ends, Passes]
  | cons d rest =>
    have hends : ends (.char c) ⟨before, d :: rest⟩ g =
        if c.holds d then [(⟨d :: before, rest⟩, g)] else [] := rfl
    rw [hends]
    constructor
    · intro h
      split at h
      case isFalse => cases h
      case isTrue hd =>
        obtain ⟨rfl, rfl⟩ := Prod.mk.inj (List.mem_singleton.mp h)
        exact ⟨rfl, d, hd, rfl, rfl⟩
    · obtain ⟨before', rest'⟩ := q
      rintro ⟨rfl, d', hd, hrest, hbefore⟩
      obtain ⟨rfl, rfl⟩ := List.cons.inj hrest
      cases hbefore
      rw [if_pos hd]
      exact List.mem_singleton_self _

theorem mem_ends_exactly {c : Char} :
    (q, g') ∈ ends (.char (.exactly c)) p g ↔ g' = g ∧ Passes p [c] q := by
  simp [mem_ends_char]

theorem mem_ends_seq {a b : Pattern} :
    (q, g') ∈ ends (a + b) p g ↔ ∃ m k, (m, k) ∈ ends a p g ∧ (q, g') ∈ ends b m k := by
  refine List.mem_flatMap.trans ⟨?_, ?_⟩
  · rintro ⟨⟨m, k⟩, hm, hq⟩
    exact ⟨m, k, hm, hq⟩
  · rintro ⟨m, k, hm, hq⟩
    exact ⟨(m, k), hm, hq⟩

theorem mem_ends_group {n : Nat} {a : Pattern} :
    (q, g') ∈ ends (.group n a) p g ↔ ∃ k, (q, k) ∈ ends a p g ∧ g' = (n, p.upTo q) :: k := by
  refine List.mem_map.trans ⟨?_, ?_⟩
  · rintro ⟨⟨m, k⟩, hm, heq⟩
    obtain ⟨rfl, rfl⟩ := Prod.mk.inj heq
    exact ⟨k, hm, rfl⟩
  · rintro ⟨k, hk, rfl⟩
    exact ⟨(q, k), hk, rfl⟩

theorem mem_ends_literal {s : List Char} :
    (q, g') ∈ ends (literal s) p g ↔ g' = g ∧ Passes p s q := by
  induction s generalizing p g with
  | nil =>
    refine List.mem_singleton.trans ⟨?_, ?_⟩
    · intro h
      obtain ⟨rfl, rfl⟩ := Prod.mk.inj h
      exact ⟨rfl, Passes.refl q⟩
    · rintro ⟨rfl, h⟩
      rw [h.eq_of_nil]
  | cons c s ih =>
    refine (mem_ends_seq (a := .char (.exactly c)) (b := literal s)).trans ⟨?_, ?_⟩
    · rintro ⟨m, k, hm, hq⟩
      obtain ⟨rfl, hpass⟩ := mem_ends_exactly.mp hm
      obtain ⟨rfl, hrest⟩ := ih.mp hq
      exact ⟨rfl, hpass.trans hrest⟩
    · rintro ⟨rfl, h⟩
      obtain ⟨m, hpass, hrest⟩ := h.split [c] s
      exact ⟨m, g', mem_ends_exactly.mpr ⟨rfl, hpass⟩, ih.mpr ⟨rfl, hrest⟩⟩

theorem mem_repeated_succ {greedy : Bool} {step : Place → Groups → List (Place × Groups)}
    {n : Nat} : (q, g') ∈ repeated greedy step (n + 1) p g ↔
      (q, g') = (p, g) ∨ ∃ m k, (m, k) ∈ step p g ∧ m.rest.length < p.rest.length ∧
        (q, g') ∈ repeated greedy step n m k := by
  generalize hlonger : ((step p g).filter fun r => r.1.rest.length < p.rest.length).flatMap
    (fun r => repeated greedy step n r.1 r.2) = longer
  have hmem : (q, g') ∈ longer ↔ ∃ m k, (m, k) ∈ step p g ∧ m.rest.length < p.rest.length ∧
      (q, g') ∈ repeated greedy step n m k := by
    simp only [← hlonger, List.mem_flatMap, List.mem_filter, decide_eq_true_eq, Prod.exists,
      and_assoc]
  have hrepeated : repeated greedy step (n + 1) p g =
      if greedy then longer ++ [(p, g)] else (p, g) :: longer := by
    rw [← hlonger]
    rfl
  rw [hrepeated, ← hmem]
  cases greedy with
  | true => exact List.mem_append.trans (or_comm.trans (or_congr_left List.mem_singleton))
  | false => exact List.mem_cons

end Ends

/-! ### The texts of a pattern -/

/-- A pattern keeps the groups, and takes the texts with a property. -/
def Takes (a : Pattern) (P : List Char → Prop) : Prop :=
  ∀ p q g g', (q, g') ∈ ends a p g ↔ g' = g ∧ ∃ s, P s ∧ Passes p s q

def OneOf (kind : Char → Bool) (s : List Char) : Prop := ∃ d, kind d = true ∧ s = [d]

section Takes

variable {a b : Pattern} {P Q : List Char → Prop} {kind : Char → Bool}

theorem takes_char (c : CharClass) : Takes (.char c) (OneOf c.holds) := by
  intro p q g g'
  rw [mem_ends_char]
  simp [OneOf]

theorem Takes.congr (ha : Takes a P) (h : ∀ s, P s ↔ Q s) : Takes a Q := by
  intro p q g g'
  simp only [ha p q g g', h]

theorem Takes.alt (ha : Takes a P) (hb : Takes b Q) : Takes (.alt a b) fun s => P s ∨ Q s := by
  intro p q g g'
  refine List.mem_append.trans ?_
  rw [ha, hb, ← and_or_left, ← exists_or]
  simp only [or_and_right]

theorem Takes.seq (ha : Takes a P) (hb : Takes b Q) :
    Takes (a + b) fun u => ∃ s t, P s ∧ Q t ∧ u = s ++ t := by
  intro p q g g'
  rw [mem_ends_seq]
  constructor
  · rintro ⟨m, k, hm, hq⟩
    obtain ⟨rfl, s, hs, hfirst⟩ := (ha p m g k).mp hm
    obtain ⟨rfl, t, ht, hsecond⟩ := (hb m q k g').mp hq
    exact ⟨rfl, s ++ t, ⟨s, t, hs, ht, rfl⟩, hfirst.trans hsecond⟩
  · rintro ⟨rfl, _, ⟨s, t, hs, ht, rfl⟩, hpass⟩
    obtain ⟨m, hfirst, hsecond⟩ := hpass.split s t
    exact ⟨m, g', (ha _ _ _ _).mpr ⟨rfl, s, hs, hfirst⟩, (hb _ _ _ _).mpr ⟨rfl, t, ht, hsecond⟩⟩

/-- A repetition of one character takes the texts of such characters. -/
theorem Takes.many (ha : Takes a (OneOf kind)) : Takes (.many a) fun s => s.all kind = true := by
  intro p q g g'
  -- every round takes a character, so as many rounds as there are characters are enough
  have hrounds (n : Nat) (p : Place) (hn : p.rest.length ≤ n) :
      (q, g') ∈ repeated true (ends a) n p g ↔
        g' = g ∧ ∃ s, s.all kind = true ∧ Passes p s q := by
    induction n generalizing p with
    | zero =>
      refine List.mem_singleton.trans ⟨?_, ?_⟩
      · intro h
        obtain ⟨rfl, rfl⟩ := Prod.mk.inj h
        exact ⟨rfl, [], rfl, Passes.refl q⟩
      · rintro ⟨rfl, s, -, hpass⟩
        have hs : s = [] := by
          rw [hpass.1, List.length_append] at hn
          exact List.length_eq_zero_iff.mp (by omega)
        subst hs
        rw [hpass.eq_of_nil]
    | succ n ih =>
      rw [mem_repeated_succ]
      constructor
      · rintro (h | ⟨m, k, hm, hlt, hq⟩)
        · obtain ⟨rfl, rfl⟩ := Prod.mk.inj h
          exact ⟨rfl, [], rfl, Passes.refl q⟩
        · obtain ⟨rfl, _, ⟨d, hd, rfl⟩, hpass⟩ := (ha p m g k).mp hm
          obtain ⟨rfl, s, hs, hrest⟩ := (ih m (by omega)).mp hq
          exact ⟨rfl, d :: s, by simp [hd, hs], hpass.trans hrest⟩
      · rintro ⟨rfl, s, hs, hpass⟩
        cases s with
        | nil => exact .inl (by rw [hpass.eq_of_nil])
        | cons d s =>
          rw [List.all_cons, Bool.and_eq_true] at hs
          obtain ⟨m, hfirst, hrest⟩ := hpass.split [d] s
          have hlength : p.rest.length = m.rest.length + 1 := by
            rw [hfirst.1, List.length_append, List.length_singleton, Nat.add_comm]
          have hm : (m, g') ∈ ends a p g' :=
            (ha p m g' g').mpr ⟨rfl, [d], ⟨d, hs.1, rfl⟩, hfirst⟩
          exact .inr ⟨m, g', hm, by omega, (ih m (by omega)).mpr ⟨rfl, s, hs.2, hrest⟩⟩
  exact hrounds p.rest.length p (Nat.le_refl _)

theorem mem_ends_many {c : CharClass} {p q : Place} {g g' : Groups} :
    (q, g') ∈ ends (.many (.char c)) p g ↔
      g' = g ∧ ∃ s, s.all c.holds = true ∧ Passes p s q :=
  (takes_char c).many p q g g'

theorem takes_literal (s : List Char) : Takes (literal s) (· = s) := by
  intro p q g g'
  simp [mem_ends_literal]

theorem Takes.mem_ends_group (ha : Takes a P) {n : Nat} {p q : Place} {g g' : Groups} :
    (q, g') ∈ ends (.group n a) p g ↔ ∃ s, P s ∧ Passes p s q ∧ g' = (n, s) :: g := by
  refine Pattern.mem_ends_group.trans ⟨?_, ?_⟩
  · rintro ⟨k, hk, rfl⟩
    obtain ⟨rfl, s, hs, hpass⟩ := (ha p q g k).mp hk
    exact ⟨s, hs, hpass, by rw [hpass.upTo]⟩
  · rintro ⟨s, hs, hpass, rfl⟩
    exact ⟨g, (ha p q g g).mpr ⟨rfl, s, hs, hpass⟩, by rw [hpass.upTo]⟩

theorem Takes.mem_ends_groups (ha : Takes a P) (hb : Takes b Q) {p q : Place} {g : Groups} :
    (q, g) ∈ ends (.group 1 a + .group 2 b) p [] ↔
      ∃ s t, P s ∧ Q t ∧ Passes p (s ++ t) q ∧ g = [(2, t), (1, s)] := by
  rw [mem_ends_seq]
  constructor
  · rintro ⟨m, _, hm, hq⟩
    obtain ⟨s, hs, hfirst, rfl⟩ := ha.mem_ends_group.mp hm
    obtain ⟨t, ht, hsecond, rfl⟩ := hb.mem_ends_group.mp hq
    exact ⟨s, t, hs, ht, hfirst.trans hsecond, rfl⟩
  · rintro ⟨s, t, hs, ht, hpass, rfl⟩
    obtain ⟨m, hfirst, hsecond⟩ := hpass.split s t
    exact ⟨m, _, ha.mem_ends_group.mpr ⟨s, hs, hfirst, rfl⟩,
      hb.mem_ends_group.mpr ⟨t, ht, hsecond, rfl⟩⟩

/-- Two parts that are kept as groups, and a text between them. -/
theorem Takes.mem_ends_around (ha : Takes a P) (hb : Takes b Q) {c : List Char} {p q : Place}
    {g : Groups} : (q, g) ∈ ends (.group 1 a + literal c + .group 2 b) p [] ↔
      ∃ s t, P s ∧ Q t ∧ Passes p (s ++ c ++ t) q ∧ g = [(2, t), (1, s)] := by
  rw [mem_ends_seq]
  constructor
  · rintro ⟨m, _, hm, hq⟩
    obtain ⟨l, _, hl, hm⟩ := mem_ends_seq.mp hm
    obtain ⟨s, hs, hfirst, rfl⟩ := ha.mem_ends_group.mp hl
    obtain ⟨rfl, hmiddle⟩ := mem_ends_literal.mp hm
    obtain ⟨t, ht, hlast, rfl⟩ := hb.mem_ends_group.mp hq
    exact ⟨s, t, hs, ht, (hfirst.trans hmiddle).trans hlast, rfl⟩
  · rintro ⟨s, t, hs, ht, hpass, rfl⟩
    obtain ⟨m, hfront, hlast⟩ := hpass.split (s ++ c) t
    obtain ⟨l, hfirst, hmiddle⟩ := hfront.split s c
    exact ⟨m, _, mem_ends_seq.mpr ⟨l, _, ha.mem_ends_group.mpr ⟨s, hs, hfirst, rfl⟩,
      mem_ends_literal.mpr ⟨rfl, hmiddle⟩⟩, hb.mem_ends_group.mpr ⟨t, ht, hlast, rfl⟩⟩

end Takes

/-! ### Searching -/

/-- A match with the place where it ends, in a text that is parted where it starts. -/
structure Found (a : Pattern) (before passed rest : List Char) (m : Match) (q : Place) : Prop where
  mem : (q, m.groups) ∈ ends a ⟨before, rest⟩ []
  skipped : m.skipped = passed
  text : m.text = Place.upTo ⟨before, rest⟩ q

theorem exists_found {a : Pattern} {advance : Bool} {before skipped s : List Char} {m : Match}
    {q : Place} (h : search a advance before skipped s = some (m, q)) :
    ∃ passed rest, s = passed ++ rest ∧
      Found a (passed.reverse ++ before) (skipped.reverse ++ passed) rest m q := by
  have hhere {advance : Bool} {before skipped rest : List Char}
      (h : matchHere? a advance skipped ⟨before, rest⟩ = some (m, q)) :
      Found a before skipped.reverse rest m q := by
    obtain ⟨⟨end', g⟩, hhead, heq⟩ := Option.map_eq_some_iff.mp h
    obtain ⟨rfl, rfl⟩ := Prod.mk.inj heq
    exact ⟨(List.mem_filter.mp (List.mem_of_head? hhead)).1, rfl, rfl⟩
  induction s generalizing advance before skipped with
  | nil => exact ⟨[], [], rfl, by simpa using hhere h⟩
  | cons c rest ih =>
    unfold search at h
    split at h
    case h_1 found hfound =>
      cases h
      exact ⟨[], c :: rest, rfl, by simpa using hhere hfound⟩
    case h_2 =>
      obtain ⟨passed, left, rfl, hfound⟩ := ih h
      exact ⟨c :: passed, left, rfl, by simpa using hfound⟩

/-- A search finds something if the pattern has an end somewhere, and it does not go on beyond. -/
theorem exists_search {a : Pattern} {before passed rest : List Char} {q : Place} {g : Groups}
    (h : (q, g) ∈ ends a ⟨passed.reverse ++ before, rest⟩ []) (skipped : List Char) :
    ∃ m r, search a false before skipped (passed ++ rest) = some (m, r) ∧
      m.skipped.length ≤ skipped.length + passed.length := by
  have hskipped {here : Place} {skipped : List Char} {m : Match} {r : Place}
      (h : matchHere? a false skipped here = some (m, r)) : m.skipped.length = skipped.length := by
    obtain ⟨_, -, heq⟩ := Option.map_eq_some_iff.mp h
    cases heq
    exact List.length_reverse
  induction passed generalizing before skipped with
  | nil =>
    have hmatch : matchHere? a false skipped ⟨before, rest⟩ ≠ none := by
      simpa [matchHere?] using List.ne_nil_of_mem h
    obtain ⟨⟨m, r⟩, hmatch⟩ := Option.ne_none_iff_exists'.mp hmatch
    refine ⟨m, r, ?_, Nat.le_of_eq (hskipped hmatch)⟩
    cases rest with
    | nil => exact hmatch
    | cons c rest => simp only [List.nil_append, search, hmatch]
  | cons c passed ih =>
    rw [List.cons_append, search]
    split
    case h_1 found hfound => exact ⟨found.1, found.2, rfl, by simp [hskipped hfound]⟩
    case h_2 =>
      obtain ⟨m, r, hsearch, hle⟩ := ih (by simpa using h) (c :: skipped)
      exact ⟨m, r, hsearch, by simp only [List.length_cons] at hle ⊢; omega⟩

/-- What replacing the first match gives: the text before the match and after it stay. -/
theorem exists_replaceFirst {a : Pattern} {t s : List Char} {template : Template} {m : Match}
    (htemplate : Template.parse a.groupCount t = .ok template) (hfind : a.find? s = some m) :
    ∃ passed rest q, s = passed ++ rest ∧ Found a passed.reverse passed rest m q ∧
      a.replaceFirst t s = .ok (passed ++ template.expand m ++ q.rest) := by
  obtain ⟨⟨m, q⟩, hsearch, rfl⟩ := Option.map_eq_some_iff.mp hfind
  obtain ⟨passed, rest, hs, hfound⟩ := exists_found hsearch
  rw [List.append_nil, List.reverse_nil, List.nil_append] at hfound
  refine ⟨passed, rest, q, hs, hfound, ?_⟩
  rw [replaceFirst, htemplate, matchesUpTo, matchesFrom, hsearch]
  simp [replaceMatches, matchesFrom, hfound.skipped, bind, Except.bind, pure, Except.pure]

/-! ### Replacing -/

theorem matchHere?_eq_none {a : Pattern} {here : Place} (h : ∀ q g, (q, g) ∉ ends a here [])
    (advance : Bool) (skipped : List Char) : matchHere? a advance skipped here = none := by
  have hends : ends a here [] = [] := List.eq_nil_iff_forall_not_mem.mpr fun r => h r.1 r.2
  simp [matchHere?, hends]

/-- The text from a place on with every match replaced, after characters that are skipped. -/
def replaceFrom (a : Pattern) (t : Template) (n : Nat) (advance : Bool)
    (before skipped s : List Char) : List Char :=
  match search a advance before skipped s with
  | none => skipped.reverse ++ s
  | some (m, q) =>
    m.skipped ++ t.expand m ++ replaceMatches (matchesFrom a n m.text.isEmpty q) t

theorem replaceMatches_succ (a : Pattern) (t : Template) (n : Nat) (advance : Bool)
    (before s : List Char) : replaceMatches (matchesFrom a (n + 1) advance ⟨before, s⟩) t =
      replaceFrom a t n advance before [] s := by
  unfold matchesFrom replaceFrom
  dsimp only
  cases search a advance before [] s with
  | none => simp [replaceMatches]
  | some found => simp [replaceMatches]

theorem replaceFrom_cons {a : Pattern} {c : Char} {before s : List Char}
    (h : ∀ q g, (q, g) ∉ ends a ⟨before, c :: s⟩ []) (t : Template) (n : Nat) (advance : Bool)
    (skipped : List Char) : replaceFrom a t n advance before skipped (c :: s) =
      replaceFrom a t n false (c :: before) (c :: skipped) s := by
  unfold replaceFrom
  rw [search, matchHere?_eq_none h]
  dsimp only
  cases search a false (c :: before) (c :: skipped) s with
  | none => simp
  | some found => rfl

def NoMatch (a : Pattern) (s : List Char) : Prop := ∀ before q g, (q, g) ∉ ends a ⟨before, s⟩ []

/-- A pattern matches at the start of a text in one way only, and takes `w` with these groups. -/
def OneMatch (a : Pattern) (w rest : List Char) (groups : Groups) : Prop :=
  ∀ before q g, (q, g) ∈ ends a ⟨before, w ++ rest⟩ [] ↔
    Passes ⟨before, w ++ rest⟩ w q ∧ g = groups

theorem OneMatch.matchHere?_eq_some {a : Pattern} {w rest : List Char} {groups : Groups}
    (h : OneMatch a w rest groups) (hw : w ≠ []) (advance : Bool) (before skipped : List Char) :
    matchHere? a advance skipped ⟨before, w ++ rest⟩ =
      some (⟨skipped.reverse, w, groups⟩, ⟨w.reverse ++ before, rest⟩) := by
  have hpass : Passes ⟨before, w ++ rest⟩ w ⟨w.reverse ++ before, rest⟩ := ⟨rfl, rfl⟩
  have hend : ∀ r ∈ ends a ⟨before, w ++ rest⟩ [], r = (⟨w.reverse ++ before, rest⟩, groups) := by
    intro r hr
    obtain ⟨hr, hgroups⟩ := (h before r.1 r.2).mp hr
    exact Prod.ext (hr.unique hpass) hgroups
  have htakes : (ends a ⟨before, w ++ rest⟩ []).filter
      (fun r => !advance || decide (r.1.rest.length < (w ++ rest).length)) =
      ends a ⟨before, w ++ rest⟩ [] := by
    refine List.filter_eq_self.mpr fun r hr => ?_
    rw [hend r hr]
    simp [List.length_pos_of_ne_nil hw]
  have hne := List.ne_nil_of_mem ((h before _ _).mpr ⟨hpass, rfl⟩)
  obtain ⟨r, rs, hends⟩ := List.exists_cons_of_ne_nil hne
  have hfirst := hend r (hends ▸ List.mem_cons_self)
  unfold matchHere?
  dsimp only
  rw [htakes, hends, List.head?_cons, Option.map_some, hfirst]
  dsimp only
  rw [hpass.upTo]

/-- A function that goes over a text as replacing does: where there is no match it keeps the
character, and where there is one it puts the replacement in and goes on behind it. -/
structure Follows (f : List Char → List Char) (a : Pattern) (t : Template) : Prop where
  nil : NoMatch a [] ∧ f [] = []
  cons : ∀ c s, NoMatch a (c :: s) ∧ f (c :: s) = c :: f s ∨
    ∃ w rest groups, c :: s = w ++ rest ∧ w ≠ [] ∧ OneMatch a w rest groups ∧
      f (c :: s) = t.expand ⟨[], w, groups⟩ ++ f rest

theorem Follows.replaceFrom_eq {f : List Char → List Char} {a : Pattern} {t : Template}
    (h : Follows f a t) {s : List Char} {n : Nat} (hn : s.length < n) (advance : Bool)
    (before skipped : List Char) :
    replaceFrom a t n advance before skipped s = skipped.reverse ++ f s := by
  induction hlength : s.length using Nat.strongRecOn generalizing s n advance before skipped with
  | _ length ih =>
    subst hlength
    cases s with
    | nil =>
      rw [h.nil.2, replaceFrom, search, matchHere?_eq_none (h.nil.1 before)]
    | cons c s =>
      rcases h.cons c s with ⟨hnone, hf⟩ | ⟨w, rest, groups, hsplit, hw, hmatch, hf⟩
      · rw [replaceFrom_cons (hnone before),
          ih s.length (by simp) (Nat.lt_of_succ_lt hn) _ _ _ rfl, hf]
        simp
      · obtain ⟨n, rfl⟩ : ∃ k, n = k + 1 := ⟨n - 1, by omega⟩
        have hparts : (c :: s).length = w.length + rest.length := by
          rw [hsplit, List.length_append]
        have hpos := List.length_pos_of_ne_nil hw
        have hfound : search a advance before skipped (c :: s) =
            some (⟨skipped.reverse, w, groups⟩, ⟨w.reverse ++ before, rest⟩) := by
          have hhere := hmatch.matchHere?_eq_some hw advance before skipped
          rw [← hsplit] at hhere
          rw [search, hhere]
        rw [replaceFrom, hfound]
        dsimp only
        rw [replaceMatches_succ, ih rest.length (by omega) (by omega) _ _ _ rfl, hf]
        simp only [List.reverse_nil, List.nil_append, List.append_assoc]
        rfl

/-- What such a function gives is the text with every match replaced. -/
theorem Follows.replaceAll_eq {f : List Char → List Char} {a : Pattern} {t : Template}
    {template : List Char} (h : Follows f a t)
    (htemplate : Template.parse a.groupCount template = .ok t) (s : List Char) :
    a.replaceAll template s = .ok (f s) := by
  have hpass := h.replaceFrom_eq (s := s) (n := 2 * s.length + 1) (by omega) false [] []
  rw [replaceAll, htemplate, allMatches, matchesUpTo]
  change Except.ok (replaceMatches _ _) = _
  rw [replaceMatches_succ, hpass]
  rfl

end Restyle.Pattern
