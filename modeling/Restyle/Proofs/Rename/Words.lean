import Restyle.Proofs.Pattern
import Restyle.Proofs.Table
import Restyle.Proofs.Template
import Restyle.Proofs.Text.Pieces
import Restyle.Rename.Words

/-!
Renaming in text replaces whole words, all at once. One pass over the text replaces the runs of
word characters that are one old name, and after it no such run is left for the pass over the
attributes. New names are no old names, so later passes find nothing in what earlier ones put in,
and all passes together put every word's new name in its place.
-/

namespace Restyle

open Text (isWordChar pieces Apart IsRun)

namespace Pattern

variable {w : List Char}

/-! ### Matches of a word -/

theorem ends_literal (before s rest : List Char) (g : Groups) :
    ends (literal s) ⟨before, s ++ rest⟩ g = [(⟨s.reverse ++ before, rest⟩, g)] := by
  induction s generalizing before with
  | nil => rfl
  | cons c s ih =>
    have hends : ends (literal (c :: s)) ⟨before, c :: (s ++ rest)⟩ g =
        ends (literal s) ⟨c :: before, s ++ rest⟩ g := by
      simp [literal, ends]
    rw [List.cons_append, hends, ih]
    simp

theorem mem_ends_boundary {p q : Place} {g g' : Groups} :
    (q, g') ∈ ends .boundary p g ↔ (q = p ∧ g' = g) ∧ p.isBoundary = true := by
  unfold ends
  split <;> simp_all

theorem mem_ends_word {old : List Char} {p q : Place} {g g' : Groups}
    (h : (q, g') ∈ ends (word old) p g) :
    Passes p old q ∧ p.isBoundary = true ∧ q.isBoundary = true := by
  obtain ⟨m, k, hliteral, hafter⟩ := mem_ends_seq.mp h
  obtain ⟨⟨rfl, rfl⟩, hlast⟩ := mem_ends_boundary.mp hafter
  obtain ⟨n, l, hbefore, hpass⟩ := mem_ends_seq.mp hliteral
  obtain ⟨⟨rfl, rfl⟩, hfirst⟩ := mem_ends_boundary.mp hbefore
  exact ⟨(mem_ends_literal.mp hpass).2, hfirst, hlast⟩

theorem ends_word {old before rest : List Char}
    (hfirst : Place.isBoundary ⟨before, old ++ rest⟩ = true)
    (hlast : Place.isBoundary ⟨old.reverse ++ before, rest⟩ = true) (g : Groups) :
    ends (word old) ⟨before, old ++ rest⟩ g = [(⟨old.reverse ++ before, rest⟩, g)] := by
  have hword : word old = seq (seq .boundary (literal old)) .boundary := rfl
  simp [hword, ends, hfirst, hlast, ends_literal]

section Boundaries

variable {old before rest : List Char}

theorem isWord_head?_run (hw : IsRun isWordChar w) (rest : List Char) :
    isWord (w ++ rest).head? = true := by
  obtain ⟨c, w, rfl⟩ := List.exists_cons_of_ne_nil hw.ne_nil
  exact hw.all c List.mem_cons_self

theorem isWord_head?_apart (h : Apart isWordChar rest) : isWord rest.head? = false := by
  cases rest with
  | nil => rfl
  | cons c rest => exact Text.apart_cons.mp h

theorem isWord_head?_reverse (hw : IsRun isWordChar w) (before : List Char) :
    isWord (w.reverse ++ before).head? = true := by
  have hreverse : IsRun isWordChar w.reverse :=
    ⟨by simpa using hw.ne_nil, fun c hc => hw.all c (List.mem_reverse.mp hc)⟩
  exact isWord_head?_run hreverse before

theorem matchHere?_word (hold : IsRun isWordChar old) (hbefore : isWord before.head? = false)
    (hrest : Apart isWordChar rest) (advance : Bool) (skipped : List Char) :
    matchHere? (word old) advance skipped ⟨before, old ++ rest⟩ =
      some (⟨skipped.reverse, old, []⟩, ⟨old.reverse ++ before, rest⟩) := by
  have hfirst : Place.isBoundary ⟨before, old ++ rest⟩ = true := by
    change (isWord before.head? != isWord (old ++ rest).head?) = true
    rw [hbefore, isWord_head?_run hold]
    rfl
  have hlast : Place.isBoundary ⟨old.reverse ++ before, rest⟩ = true := by
    change (isWord (old.reverse ++ before).head? != isWord rest.head?) = true
    rw [isWord_head?_reverse hold, isWord_head?_apart hrest]
    rfl
  have hupTo : Place.upTo ⟨before, old ++ rest⟩ ⟨old.reverse ++ before, rest⟩ = old :=
    Passes.upTo ⟨rfl, rfl⟩
  simp [matchHere?, ends_word hfirst hlast, hupTo, hold.ne_nil]

/-- What follows a run that ends at a boundary does not go on with it. -/
theorem Passes.apart {p q : Place} (hpass : Passes p w q) (hw : IsRun isWordChar w)
    (hq : q.isBoundary = true) : Apart isWordChar q.rest := by
  have hlast : isWord q.before.head? = true := by
    rw [hpass.2]
    exact isWord_head?_reverse hw p.before
  rw [Place.isBoundary, hlast] at hq
  intro c hc
  rw [hc] at hq
  simpa [isWord] using hq

/-- A text that ends where a word does and starts as a run does is that run. -/
theorem eq_run_of_passes (hold : IsRun isWordChar old) (hw : IsRun isWordChar w)
    (hrest : Apart isWordChar rest) {q : Place} (hpass : Passes ⟨before, w ++ rest⟩ old q)
    (hq : q.isBoundary = true) : w = old :=
  (hw.append_inj hold hrest (hpass.apart hold hq) hpass.1).1

end Boundaries

/-! ### One pass -/

section Pass

variable {old new : List Char} {a : Pattern} {t : Template}

/-- Runs that are not the word have no match in them. -/
theorem replaceFrom_other_run {rest : List Char} (hold : IsRun isWordChar old)
    (hw : IsRun isWordChar w) (hrest : Apart isWordChar rest) (hne : w ≠ old) (t : Template)
    (n : Nat) (advance : Bool) (before skipped : List Char) :
    replaceFrom (word old) t n advance before skipped (w ++ rest) =
      replaceFrom (word old) t n false (w.reverse ++ before) (w.reverse ++ skipped) rest := by
  -- inside a run there is no boundary where the word could start
  have hinside (v : List Char) (before skipped : List Char) (hv : ∀ c ∈ v, isWordChar c = true)
      (hbefore : isWord before.head? = true) :
      replaceFrom (word old) t n false before skipped (v ++ rest) =
        replaceFrom (word old) t n false (v.reverse ++ before) (v.reverse ++ skipped) rest := by
    induction v generalizing before skipped with
    | nil => rfl
    | cons c v ih =>
      obtain ⟨hc, hv⟩ := List.forall_mem_cons.mp hv
      have hnone : ∀ q g, (q, g) ∉ ends (word old) ⟨before, c :: (v ++ rest)⟩ [] := by
        intro q g hmem
        obtain ⟨-, hfirst, -⟩ := mem_ends_word hmem
        have hhead : isWord (c :: (v ++ rest)).head? = true := hc
        change (isWord before.head? != isWord (c :: (v ++ rest)).head?) = true at hfirst
        rw [hbefore, hhead] at hfirst
        cases hfirst
      rw [List.cons_append, replaceFrom_cons hnone, ih (c :: before) (c :: skipped) hv hc]
      simp
  have hnone : ∀ q g, (q, g) ∉ ends (word old) ⟨before, w ++ rest⟩ [] := by
    intro q g hmem
    obtain ⟨hpass, -, hlast⟩ := mem_ends_word hmem
    exact hne (eq_run_of_passes hold hw hrest hpass hlast)
  obtain ⟨c, v, rfl⟩ := List.exists_cons_of_ne_nil hw.ne_nil
  obtain ⟨hc, hv⟩ := List.forall_mem_cons.mp hw.all
  rw [List.cons_append] at hnone ⊢
  rw [replaceFrom_cons hnone, hinside v (c :: before) (c :: skipped) hv hc]
  simp

def swap (old new w : List Char) : List Char := if w = old then new else w

theorem replaceFrom_word (hold : IsRun isWordChar old) (ht : ∀ m, t.expand m = new)
    (s : List Char) (n : Nat) (hn : s.length < n) (advance : Bool) (before skipped : List Char)
    (hplace : isWord before.head? = false ∨ Apart isWordChar s) :
    replaceFrom (word old) t n advance before skipped s =
      skipped.reverse ++ (pieces isWordChar s).flatMap (swap old new) := by
  -- a match needs a word character to start with
  have hnone {before s : List Char} (hs : Apart isWordChar s) (q : Place) (g : Groups) :
      (q, g) ∉ ends (word old) ⟨before, s⟩ [] := by
    intro hmem
    have hpass : s = old ++ q.rest := (mem_ends_word hmem).1.1
    rw [hpass] at hs
    exact hold.not_apart hs
  induction s using Text.pieces_induction isWordChar generalizing n advance before skipped with
  | nil =>
    unfold replaceFrom
    rw [search, matchHere?_eq_none (hnone Text.apart_nil)]
    rfl
  | other c s hc ih =>
    have hne : [c] ≠ old := by
      rintro rfl
      simp [hold.all c (List.mem_singleton_self c)] at hc
    have hbefore : isWord (c :: before).head? = false := hc
    rw [replaceFrom_cons (hnone (Text.apart_cons.mpr hc)), ih n (Nat.lt_of_succ_lt hn) _ _ _
      (.inl hbefore), Text.pieces_cons hc, List.flatMap_cons, swap, if_neg hne]
    simp
  | run w rest hw hrest ih =>
    have hbefore : isWord before.head? = false := hplace.resolve_right hw.not_apart
    have hshort : rest.length + 1 < n := by
      have hpos := List.length_pos_of_ne_nil hw.ne_nil
      rw [List.length_append] at hn
      omega
    rw [Text.pieces_run_append hw hrest, List.flatMap_cons]
    by_cases hword : w = old
    · subst hword
      obtain ⟨n, rfl⟩ : ∃ k, n = k + 1 := ⟨n - 1, by omega⟩
      have hfound : search (word w) advance before skipped (w ++ rest) =
          some (⟨skipped.reverse, w, []⟩, ⟨w.reverse ++ before, rest⟩) := by
        have hmatch := matchHere?_word hw hbefore hrest advance skipped
        obtain ⟨c, v, rfl⟩ := List.exists_cons_of_ne_nil hw.ne_nil
        rw [List.cons_append] at hmatch ⊢
        rw [search, hmatch]
      rw [replaceFrom, hfound]
      dsimp only
      rw [replaceMatches_succ, ih n (by omega) _ _ _ (.inr hrest), ht, swap, if_pos rfl]
      simp
    · rw [replaceFrom_other_run hold hw hrest hword, ih n (by omega) _ _ _ (.inr hrest), swap,
        if_neg hword]
      simp

theorem replaceAll_of_search_none {template s : List Char} (htemplate : '\\' ∉ template)
    (h : search a false [] [] s = none) : a.replaceAll template s = .ok s := by
  have hmatches : a.allMatches s = ([], s) := by
    rw [allMatches, matchesUpTo, matchesFrom, h]
  rw [replaceAll, Template.parse_text htemplate, hmatches]
  rfl

theorem expand_text (s : List Char) (m : Match) :
    Template.expand (s.map fun c => .text [c]) m = s := by
  simp [Template.expand, List.flatMap_map]

theorem replaceAll_word (hold : IsRun isWordChar old) (hnew : '\\' ∉ new) (s : List Char) :
    (word old).replaceAll new s = .ok ((pieces isWordChar s).flatMap (swap old new)) := by
  have hpass := replaceFrom_word hold (expand_text new) s (2 * s.length + 1) (by omega) false [] []
    (.inl rfl)
  rw [replaceAll, Template.parse_text hnew, allMatches, matchesUpTo]
  change Except.ok (replaceMatches _ _) = _
  rw [replaceMatches_succ, hpass]
  rfl

/-! ### Passes over some of the words -/

def Place.text (p : Place) : List Char := p.before.reverse ++ p.rest

theorem Passes.text_eq {p q : Place} (h : Passes p w q) : q.text = p.text := by
  simp [Place.text, h.1, h.2]

theorem pieces_around {u v : List Char} (hu : isWord u.head? = false) (hw : IsRun isWordChar w)
    (hv : Apart isWordChar v) : pieces isWordChar (u.reverse ++ (w ++ v)) =
      pieces isWordChar u.reverse ++ w :: pieces isWordChar v := by
  rw [← Text.pieces_run_append hw hv]
  refine List.splitBy_append fun a ha b _ => ?_
  rw [List.getLast?_reverse] at ha
  rw [show u.head? = some a from ha] at hu
  rw [show isWordChar a = false from hu, Bool.false_and]

/-- A pattern that matches only where the word stands, with some text before it, and a template
that puts another word in its place. -/
def Swaps (a : Pattern) (t : Template) (old new : List Char) : Prop :=
  ∀ p q g, (q, g) ∈ ends a p [] → ∃ m x, Passes p x m ∧ Passes m old q ∧
    isWord m.before.head? = false ∧ Apart isWordChar q.rest ∧
    ∀ f : Match, f.groups = g → t.expand f = x ++ new

/-- A pass over some of the words leaves to a pass over all of them what it would have found. -/
theorem Swaps.map_pieces (h : Swaps a t old new) (hold : IsRun isWordChar old)
    (hnew : IsRun isWordChar new) (n : Nat) (advance : Bool) (p : Place) :
    (pieces isWordChar (p.before.reverse ++ replaceMatches (matchesFrom a n advance p) t)).map
        (swap old new) = (pieces isWordChar p.text).map (swap old new) ∧
      (Apart isWordChar p.rest →
        Apart isWordChar (replaceMatches (matchesFrom a n advance p) t)) := by
  induction n generalizing advance p with
  | zero => exact ⟨rfl, id⟩
  | succ n ih =>
    rw [matchesFrom]
    cases hsearch : search a advance p.before [] p.rest with
    | none => exact ⟨rfl, id⟩
    | some found =>
      obtain ⟨f, q⟩ := found
      obtain ⟨passed, rest, hrest, hfound⟩ := exists_found hsearch
      obtain ⟨m, x, hx, hpass, hbefore, hafter, hexpand⟩ := h _ _ _ hfound.mem
      obtain ⟨hkept, hapart⟩ := ih f.text.isEmpty q
      dsimp only
      generalize matchesFrom a n f.text.isEmpty q = later at hkept hapart ⊢
      have hreplaced : replaceMatches (f :: later.1, later.2) t =
          passed ++ (x ++ (new ++ replaceMatches later t)) := by
        simp [replaceMatches, hfound.skipped, hexpand f rfl]
      have hplace : m.before.reverse = p.before.reverse ++ (passed ++ x) := by
        simp [hx.2]
      have htext : q.text = p.text := by
        rw [hpass.text_eq, hx.text_eq, Place.text, Place.text, hrest]
        simp
      -- the match is a piece of its own, before the pass and after it
      constructor
      · have hwords := pieces_around hbefore hold (hapart hafter)
        have hq : q.before.reverse = m.before.reverse ++ old := by simp [hpass.2]
        rw [hq, List.append_assoc, hwords, htext, List.map_append, List.map_cons] at hkept
        have hsplit : p.before.reverse ++ (passed ++ (x ++ (new ++ replaceMatches later t))) =
            m.before.reverse ++ (new ++ replaceMatches later t) := by
          simp [hplace]
        rw [hreplaced, hsplit, pieces_around hbefore hnew (hapart hafter), List.map_append,
          List.map_cons, ← hkept]
        simp [swap]
      · intro hs
        have hall : p.rest = passed ++ x ++ (old ++ q.rest) := by
          rw [hrest, List.append_assoc, ← hpass.1]
          exact congrArg (passed ++ ·) hx.1
        rw [hall] at hs
        rw [hreplaced, ← List.append_assoc]
        cases hstart : passed ++ x with
        | nil => exact absurd (hstart ▸ hs) hold.not_apart
        | cons c start =>
          rw [hstart] at hs
          exact Text.apart_cons.mpr (Text.apart_cons.mp hs)

theorem Swaps.exists_replaceAll (h : Swaps a t old new) (hold : IsRun isWordChar old)
    (hnew : IsRun isWordChar new) {template : List Char}
    (htemplate : Template.parse a.groupCount template = .ok t) (s : List Char) :
    ∃ r, a.replaceAll template s = .ok r ∧
      (pieces isWordChar r).map (swap old new) = (pieces isWordChar s).map (swap old new) := by
  refine ⟨_, ?_, (h.map_pieces hold hnew (2 * s.length + 2) false ⟨[], s⟩).1⟩
  rw [replaceAll, htemplate]
  rfl

/-- A pattern that matches only texts in which the word stands. -/
def Finds (a : Pattern) (w : List Char) : Prop :=
  ∀ p q g, (q, g) ∈ ends a p [] → w ∈ pieces isWordChar p.text

theorem Swaps.finds (h : Swaps a t old new) (hold : IsRun isWordChar old) : Finds a old := by
  intro p q g hmem
  obtain ⟨m, x, hx, hpass, hbefore, hafter, -⟩ := h p q g hmem
  rw [← hx.text_eq, Place.text, hpass.1, pieces_around hbefore hold hafter]
  simp

theorem Finds.search_eq_none {s : List Char} (h : Finds a w) (hs : w ∉ pieces isWordChar s) :
    search a false [] [] s = none := by
  by_contra hsome
  obtain ⟨⟨f, q⟩, hsearch⟩ := Option.ne_none_iff_exists'.mp hsome
  obtain ⟨passed, rest, rfl, hfound⟩ := exists_found hsearch
  exact hs (by simpa [Place.text] using h _ _ _ hfound.mem)

end Pass

end Pattern

namespace Rename

open Pattern (swap)

/-! ### One name -/

section OneName

variable {old new : List Char}

theorem isRun_swap (hnew : IsRun isWordChar new) {w : List Char} (hw : IsRun isWordChar w) :
    IsRun isWordChar (swap old new w) := by
  unfold swap
  split
  · exact hnew
  · exact hw

theorem swap_other (hold : IsRun isWordChar old) {c : Char} (hc : isWordChar c = false) :
    swap old new [c] = [c] := by
  unfold swap
  split
  case isTrue h => simp [hold.all c (h ▸ List.mem_singleton_self c)] at hc
  case isFalse => rfl

theorem noBackslash_of_run (h : IsRun isWordChar new) : '\\' ∉ new :=
  fun hmem => absurd (h.all _ hmem) (by decide)

theorem swaps_attribute (hold : IsRun isWordChar old) :
    Pattern.Swaps (attributePattern old) (('.' :: new).map fun c => .text [c]) old new := by
  intro p q g h
  obtain ⟨m, k, hliteral, hlast⟩ := Pattern.mem_ends_seq.mp h
  obtain ⟨⟨rfl, -⟩, hboundary⟩ := Pattern.mem_ends_boundary.mp hlast
  obtain ⟨n, l, hdot, hold'⟩ := Pattern.mem_ends_seq.mp hliteral
  obtain ⟨-, hdot⟩ := Pattern.mem_ends_exactly.mp hdot
  obtain ⟨-, hpass⟩ := Pattern.mem_ends_literal.mp hold'
  refine ⟨n, ['.'], hdot, hpass, ?_, hpass.apart hold hboundary,
    fun f _ => Pattern.expand_text ('.' :: new) f⟩
  rw [hdot.2]
  exact (by decide : isWordChar '.' = false)

theorem renameWord_eq (hold : IsRun isWordChar old) (hnew : IsRun isWordChar new)
    (s : List Char) :
    renameWord old new s = .ok ((pieces isWordChar s).flatMap (swap old new)) := by
  have hdotted : '\\' ∉ '.' :: new := by simpa using noBackslash_of_run hnew
  have hswaps : Pattern.Swaps (attributePattern old) _ old new := swaps_attribute hold
  have hattribute : (attributePattern old).replaceAll ('.' :: new)
      ((pieces isWordChar s).flatMap (swap old new)) =
        .ok ((pieces isWordChar s).flatMap (swap old new)) := by
    by_cases hne : new = old
    · obtain ⟨r, hr, hsame⟩ := hswaps.exists_replaceAll hold hnew
        (Template.parse_text hdotted _) ((pieces isWordChar s).flatMap (swap old new))
      have hid : swap old new = id := by
        funext w
        unfold swap
        split <;> simp_all
      rw [hid, List.map_id, List.map_id] at hsame
      rw [hr, ← Text.flatten_pieces isWordChar r, hid, hsame, Text.flatten_pieces]
    · refine Pattern.replaceAll_of_search_none hdotted ((hswaps.finds hold).search_eq_none ?_)
      rw [Text.pieces_flatMap (fun w => isRun_swap hnew) fun c => swap_other hold]
      intro hmem
      obtain ⟨w, -, hw⟩ := List.mem_map.mp hmem
      unfold swap at hw
      split at hw
      case isTrue => exact hne hw
      case isFalse hword => exact hword hw
  unfold renameWord replaceAll
  rw [Pattern.replaceAll_word hold (noBackslash_of_run hnew)]
  dsimp only [bind, Except.bind]
  rw [hattribute]

end OneName

/-! ### All names -/

/-- What the passes for some names make of a word. -/
def passAll (rs : List (String × String)) (w : List Char) : List Char :=
  rs.foldl (fun w r => swap r.1.toList r.2.toList w) w

/-- Old and new names are words, and no new name is an old one. -/
@[mk_iff]
structure WordMap (rs : List (String × String)) : Prop where
  old : ∀ r ∈ rs, IsRun isWordChar r.1.toList
  new : ∀ r ∈ rs, IsRun isWordChar r.2.toList
  apart : ∀ r ∈ rs, ∀ q ∈ rs, r.2 ≠ q.1

theorem WordMap.of_subset {rs rs' : List (String × String)} (h : WordMap rs) (hsub : rs' ⊆ rs) :
    WordMap rs' where
  old _ hr := h.old _ (hsub hr)
  new _ hr := h.new _ (hsub hr)
  apart _ hr _ hq := h.apart _ (hsub hr) _ (hsub hq)

instance {rs : List (String × String)} : Decidable (WordMap rs) :=
  decidable_of_iff' _ (wordMap_iff rs)

theorem foldlM_renameWord {rs : List (String × String)} (h : WordMap rs) (s : List Char) :
    rs.foldlM (fun s r => renameWord r.1.toList r.2.toList s) s =
      .ok ((pieces isWordChar s).flatMap (passAll rs)) := by
  induction rs generalizing s with
  | nil =>
    have hid : (pieces isWordChar s).flatMap (passAll []) = s := by
      rw [show passAll [] = id from rfl, List.flatMap_id, Text.flatten_pieces]
    rw [hid]
    rfl
  | cons r rs ih =>
    have hold := h.old r List.mem_cons_self
    have hnew := h.new r List.mem_cons_self
    rw [List.foldlM_cons, renameWord_eq hold hnew]
    dsimp only [bind, Except.bind]
    rw [ih (h.of_subset (List.subset_cons_self ..)),
      Text.pieces_flatMap (fun w => isRun_swap hnew) fun c => swap_other hold, List.flatMap_map]
    rfl

section Passes

variable {rs : List (String × String)} {w : List Char}

theorem passAll_of_not_old (h : ∀ r ∈ rs, r.1.toList ≠ w) : passAll rs w = w := by
  induction rs with
  | nil => rfl
  | cons r rs ih =>
    have hhead : swap r.1.toList r.2.toList w = w := if_neg (h r List.mem_cons_self).symm
    change passAll rs (swap r.1.toList r.2.toList w) = w
    rw [hhead]
    exact ih fun q hq => h q (List.mem_cons_of_mem r hq)

theorem passAll_of_mem (h : WordMap rs) (hnodup : (rs.map (·.1)).Nodup) {r : String × String}
    (hr : r ∈ rs) : passAll rs r.1.toList = r.2.toList := by
  induction rs with
  | nil => cases hr
  | cons q rs ih =>
    obtain ⟨hfirst, hnodup⟩ := List.nodup_cons.mp hnodup
    change passAll rs (swap q.1.toList q.2.toList r.1.toList) = r.2.toList
    rcases List.mem_cons.mp hr with rfl | hr
    · rw [swap, if_pos rfl]
      refine passAll_of_not_old fun p hp heq => ?_
      exact h.apart r List.mem_cons_self p (List.mem_cons_of_mem r hp)
        (String.toList_inj.mp heq).symm
    · have hne : r.1.toList ≠ q.1.toList := by
        intro heq
        rw [String.toList_inj] at heq
        exact hfirst (List.mem_map.mpr ⟨r, hr, heq⟩)
      rw [swap, if_neg hne]
      exact ih (h.of_subset (List.subset_cons_self ..)) hnodup hr

end Passes

end Rename

namespace NameMap

variable {m : NameMap} {a b : String}

theorem apply_of_mem (hnodup : m.keys.Nodup) (h : (a, b) ∈ m.entries) : m.apply a = b := by
  rw [apply, (Table.get?_eq_some_iff_mem hnodup).mpr h, Option.getD_some]

theorem apply_of_not_mem (h : a ∉ m.keys) : m.apply a = a := by
  have hnone : m.get? a = none := by
    cases hget : m.get? a with
    | none => rfl
    | some b => exact absurd (List.mem_map_of_mem (Table.mem_of_lookup hget)) h
  rw [apply, hnone, Option.getD_none]

theorem exists_entry (hnodup : m.keys.Nodup) (h : a ∈ m.keys) :
    ∃ r ∈ m.entries, r.1 = a ∧ m.apply a = r.2 := by
  obtain ⟨r, hr, rfl⟩ := List.mem_map.mp h
  exact ⟨r, hr, rfl, apply_of_mem hnodup hr⟩

/-- The new name of a word; a word without entry keeps itself. -/
def applyWord (m : NameMap) (w : List Char) : List Char := (m.apply (String.ofList w)).toList

end NameMap

namespace Rename

variable {m : NameMap}

theorem applyWord_of_mem (hnodup : m.keys.Nodup) {old new : String} (h : (old, new) ∈ m.entries) :
    m.applyWord old.toList = new.toList := by
  rw [NameMap.applyWord, String.ofList_toList, NameMap.apply_of_mem hnodup h]

theorem applyWord_of_not_mem {w : List Char} (h : String.ofList w ∉ m.keys) :
    m.applyWord w = w := by
  rw [NameMap.applyWord, NameMap.apply_of_not_mem h, String.toList_ofList]

/-- Renaming in text puts the new names in the places of the old ones, wherever they are words. -/
theorem renameWords_eq_flatMap (h : WordMap m.entries) (hnodup : m.keys.Nodup) (s : List Char) :
    renameWords m s = .ok ((pieces isWordChar s).flatMap m.applyWord) := by
  have hsorted : m.longestFirst.Perm m.entries := List.mergeSort_perm _ _
  have hwords : WordMap m.longestFirst := h.of_subset hsorted.subset
  have hkeys : (m.longestFirst.map (·.1)).Nodup := (hsorted.map _).nodup_iff.mpr hnodup
  have happly : passAll m.longestFirst = m.applyWord := by
    funext w
    unfold NameMap.applyWord NameMap.apply
    cases hget : m.get? (String.ofList w) with
    | none =>
      rw [Option.getD_none, String.toList_ofList]
      refine passAll_of_not_old fun r hr heq => ?_
      have hkey : m.get? (String.ofList w) = some r.2 := by
        rw [Table.get?_eq_some_iff_mem hnodup, ← heq, String.ofList_toList]
        exact hsorted.mem_iff.mp hr
      simp [hget] at hkey
    | some v =>
      have hmem := hsorted.mem_iff.mpr ((Table.get?_eq_some_iff_mem hnodup).mp hget)
      have hpass := passAll_of_mem hwords hkeys hmem
      rwa [String.toList_ofList] at hpass
  rw [← happly]
  exact foldlM_renameWord hwords s

end Rename

end Restyle
