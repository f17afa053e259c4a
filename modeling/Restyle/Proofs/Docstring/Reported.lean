import Mathlib.Data.Finset.Card
import Restyle.Proofs.Docstring.Contents
import Restyle.Proofs.Docstring.Unbroken

/-!
The reports of changed docstrings. A change is told for every docstring that is not in form, whether
it is found in the text or not, and wherever it is found. So the docstrings that do change are at
most as many as the changes that are told, and as many only if each docstring in its turn is found
in the literal of a docstring that no other turn changes.
-/

namespace Restyle.Docstring

open Syntax

/-! ### Lists that differ -/

def differing (xs ys : List (List Char)) : Finset Nat :=
  (Finset.range xs.length).filter fun i => ys[i]? ≠ xs[i]?

/-- One list comes from another by steps that each change one entry or none. -/
structure Touched (hits : List (Option Nat)) (xs ys : List (List Char)) : Prop where
  length_eq : ys.length = xs.length
  same : ∀ i, some i ∉ hits → ys[i]? = xs[i]?
  other : ∀ i, hits.count (some i) = 1 → ys[i]? ≠ xs[i]?

namespace Touched

variable {hits : List (Option Nat)} {xs ys zs : List (List Char)}

theorem nil (xs : List (List Char)) : Touched [] xs xs := ⟨rfl, fun _ _ => rfl, nofun⟩

theorem cons {hit : Option Nat} (hlength : ys.length = xs.length)
    (hstep : ∀ i, ys[i]? ≠ xs[i]? ↔ hit = some i) (h : Touched hits ys zs) :
    Touched (hit :: hits) xs zs where
  length_eq := h.length_eq.trans hlength
  same i hi := by
    rw [List.mem_cons, not_or] at hi
    rw [h.same i hi.2]
    exact not_ne_iff.mp fun hother => hi.1 ((hstep i).mp hother).symm
  other i hi := by
    by_cases hhit : hit = some i
    · -- no later step comes back to this entry
      rw [hhit, List.count_cons_self, Nat.add_eq_right, List.count_eq_zero] at hi
      rw [h.same i hi]
      exact (hstep i).mpr hhit
    · rw [List.count_cons_of_ne hhit] at hi
      rw [← not_ne_iff.mp (mt (hstep i).mp hhit)]
      exact h.other i hi

theorem image_subset (h : Touched hits xs ys) :
    (differing xs ys).image some ⊆ hits.toFinset := by
  intro hit hmem
  obtain ⟨i, hi, rfl⟩ := Finset.mem_image.mp hmem
  by_contra hother
  rw [List.mem_toFinset] at hother
  exact (Finset.mem_filter.mp hi).2 (h.same i hother)

theorem card_image (xs ys : List (List Char)) :
    ((differing xs ys).image some).card = (differing xs ys).card :=
  Finset.card_image_of_injective _ (Option.some_injective _)

theorem card_le (h : Touched hits xs ys) : (differing xs ys).card ≤ hits.length := by
  rw [← card_image]
  exact (Finset.card_le_card h.image_subset).trans hits.toFinset_card_le

theorem card_eq_iff (h : Touched hits xs ys) :
    (differing xs ys).card = hits.length ↔ none ∉ hits ∧ hits.Nodup := by
  constructor
  · intro hcard
    have hle := hits.toFinset_card_le
    have hsame : (differing xs ys).image some = hits.toFinset :=
      Finset.eq_of_subset_of_card_le h.image_subset (by rw [card_image, hcard]; exact hle)
    refine ⟨fun hnone => ?_, ?_⟩
    · rw [← List.mem_toFinset, ← hsame] at hnone
      simp at hnone
    · rw [← card_image, hsame] at hcard
      exact Multiset.toFinset_card_eq_card_iff_nodup.mp hcard
  · rintro ⟨hnone, hnodup⟩
    have hsame : (differing xs ys).image some = hits.toFinset := by
      refine h.image_subset.antisymm fun hit hmem => ?_
      rw [List.mem_toFinset] at hmem
      obtain ⟨i, rfl⟩ := Option.ne_none_iff_exists'.mp (ne_of_mem_of_not_mem hmem hnone)
      have hother := h.other i (List.count_eq_one_of_mem hnodup hmem)
      refine Finset.mem_image_of_mem _ (Finset.mem_filter.mpr ⟨?_, hother⟩)
      rw [Finset.mem_range]
      by_contra hout
      rw [Nat.not_lt] at hout
      rw [List.getElem?_eq_none hout, List.getElem?_eq_none (h.length_eq ▸ hout)] at hother
      exact hother rfl
    rw [← card_image, hsame, List.toFinset_card_of_nodup hnodup]

end Touched

/-! ### The docstring that a turn changes -/

def contents (t : Tree) : List (List Char) := (all t).map (·.2)

theorem contents_eq_map_docs (t : Tree) : contents t = (docs t).map (·.text.toList) := by
  rw [contents, all_eq_map_docs, List.map_map]
  rfl

/-- The place of the literal that a match is. -/
def ownPlace? (source : List Char) (m : Pattern.Match) : Option (Nat × Nat) :=
  (tokens source).bind fun toks => (toks.find? fun tok =>
    plainMarks.any (isLiteralOf m tok) &&
      decide (Standalone (fun line column => (line, column) = tok.place) toks)).map Token.place

/-- The docstring in whose literal the content of a docstring is found. -/
def hit? [Dialect] (turn : List Char × List Char) : Option Nat :=
  (found? turn.1 turn.2).bind fun m => (ownPlace? turn.1 m).bind fun place =>
    (parse? turn.1).bind fun t => (docs t).findIdx? (·.place == place)

/-- The docstring that changes in a turn: the one in whose literal the content is found, unless the
text stays the same but for its line ends. -/
def changed? [Dialect] (turn : List Char × List Char) : Option Nat :=
  if (replaceContent turn.1 turn.2 (format turn.2)).toOption.any (prepare · = prepare turn.1) then
    none
  else hit? turn

theorem exists_ownPlace?_eq {source : List Char} {m : Pattern.Match}
    (h : isOwnLiteral source m = true) :
    ∃ own : OwnToken source m, ownPlace? source m = some own.token.place := by
  obtain ⟨toks, htoks, hany⟩ := (Option.any_eq_true _ _).mp h
  obtain ⟨tok, hfind⟩ := Option.isSome_iff_exists.mp (List.find?_isSome.mpr
    (List.any_eq_true.mp hany))
  have hown := List.find?_some hfind
  rw [Bool.and_eq_true, decide_eq_true_eq, List.any_eq_true] at hown
  obtain ⟨⟨mark, hmark, hliteral⟩, halone⟩ := hown
  obtain ⟨own, htoken⟩ := exists_ownToken_of_isLiteralOf htoks (List.mem_of_find?_eq_some hfind)
    hmark hliteral halone
  refine ⟨own, ?_⟩
  rw [ownPlace?, htoks, Option.bind_some, hfind, Option.map_some, htoken]

section Steps

variable {p : Nat × Nat} {old new : List Char} {xs ys : List PlacedText}

theorem findIdx?_place_iff (hnodup : (xs.map PlacedText.place).Nodup) (i : Nat) :
    xs.findIdx? (·.place == p) = some i ↔ ∃ x, xs[i]? = some x ∧ x.place = p := by
  rw [List.findIdx?_eq_some_iff_getElem]
  constructor
  · rintro ⟨hi, hp, -⟩
    exact ⟨xs[i], List.getElem?_eq_getElem hi, by simpa using hp⟩
  · rintro ⟨x, hx, hp⟩
    obtain ⟨hi, rfl⟩ := List.getElem?_eq_some_iff.mp hx
    refine ⟨hi, by simpa using hp, fun j hj hother => ?_⟩
    rw [List.Nodup, List.pairwise_map, List.pairwise_iff_getElem] at hnodup
    rw [beq_iff_eq] at hother
    exact hnodup j i (hj.trans hi) hi hj (hother.trans hp.symm)

theorem differs_iff_of_retold (h : List.Forall₂ (Retold p old new) xs ys) (i : Nat) :
    (ys.map (·.text.toList))[i]? ≠ (xs.map (·.text.toList))[i]? ↔
      new ≠ old ∧ ∃ x, xs[i]? = some x ∧ x.place = p := by
  induction h generalizing i with
  | nil => simp
  | @cons x y xs ys hxy _ ih =>
    cases i with
    | succ i => simpa using ih i
    | zero =>
      by_cases hp : x.place = p
      · obtain ⟨hx, hy⟩ := hxy.1 hp
        simp [hp, hx, hy]
      · simp [hp, hxy.2 hp]

end Steps

theorem changed?_eq_some_iff [Dialect] {source old text : List Char}
    (h : replaceContent source old (format old) = .ok text) (i : Nat) :
    changed? (source, old) = some i ↔ prepare text ≠ prepare source ∧
      hit? (source, old) = some i := by
  rw [changed?, h]
  change (if decide (prepare text = prepare source) = true then none else _) = _ ↔ _
  rw [Option.ite_none_left_eq_some, decide_eq_true_eq]

/-- A docstring that fits changes the docstring that it hits, and no other. -/
theorem exists_contents_replaceContent [Dialect] {source old : List Char} {t : Tree}
    (ht : parse? source = some t) (h : fits source old = true) :
    ∃ text t', replaceContent source old (format old) = .ok text ∧ parse? text = some t' ∧
      (contents t').length = (contents t).length ∧
      ∀ i, (contents t')[i]? ≠ (contents t)[i]? ↔ changed? (source, old) = some i := by
  cases hfound : found? source old with
  | none =>
    have hok : replaceContent source old (format old) = .ok source := replaceContent_of_none hfound
    refine ⟨source, t, hok, ht, rfl, fun i => ?_⟩
    rw [changed?_eq_some_iff hok]
    simp
  | some m =>
    rw [fits, hfound, Option.all_some, Bool.and_eq_true] at h
    obtain ⟨hbackslash, hliteral⟩ := literal_of_isPlain h.1
    obtain ⟨text, splice, hok, hskipped, hmatch⟩ := exists_splice hliteral hfound
    obtain ⟨own, hplace⟩ := exists_ownPlace?_eq h.2
    obtain ⟨t', ht', hdocs⟩ := exists_docs_of_splice ht own splice hskipped hmatch hbackslash
    obtain ⟨q, rest, -, -, hsource, htext⟩ := exists_prepare_splice own splice hskipped
    refine ⟨text, t', hok, ht', ?_, fun i => ?_⟩
    · simp [contents_eq_map_docs, hdocs.length_eq]
    · rw [contents_eq_map_docs, contents_eq_map_docs, differs_iff_of_retold hdocs,
        ← findIdx?_place_iff (nodup_place_docs ht)]
      have hhit : hit? (source, old) = (docs t).findIdx? (·.place == own.token.place) := by
        simp only [hit?, hfound, hplace, ht, Option.bind_some]
      rw [changed?_eq_some_iff hok, hhit, htext, hsource]
      simp

theorem exists_touched_foldlM [Dialect] {docs : List (Nat × List Char)} {source : List Char}
    {t : Tree}
    (ht : parse? source = some t) (h : ∀ turn ∈ turns docs source, fits turn.1 turn.2 = true)
    (told : List String) :
    ∃ after t', docs.foldlM formatOne (source, told) = .ok after ∧ parse? after.1 = some t' ∧
      after.2.length = told.length + (turns docs source).length ∧
      Touched ((turns docs source).map changed?) (contents t) (contents t') := by
  induction docs generalizing source t told with
  | nil => exact ⟨(source, told), t, rfl, ht, rfl, .nil _⟩
  | cons doc docs ih =>
    rw [List.foldlM_cons]
    rw [turns] at h ⊢
    by_cases hform : format doc.2 = doc.2
    · rw [if_pos hform] at h ⊢
      rw [formatOne_of_eq hform]
      exact ih ht h told
    · rw [if_neg hform, List.forall_mem_cons] at h
      obtain ⟨text, t', htext, ht', hlength, hstep⟩ := exists_contents_replaceContent ht h.1
      rw [htext] at h
      obtain ⟨after, t'', hafter, ht'', htold, htouched⟩ := ih ht' h.2
        (told ++ [describe doc.2 (format doc.2) doc.1])
      rw [if_neg hform, formatOne_of_ne hform, htext]
      refine ⟨after, t'', hafter, ht'', htold.trans ?_, htouched.cons hlength hstep⟩
      rw [List.length_append, List.length_singleton]
      exact Nat.succ_add_eq_add_succ _ _

/-- A change is told for every docstring that is not in form. -/
theorem length_told {docs : List (Nat × List Char)} {state after : List Char × List String}
    (h : docs.foldlM formatOne state = .ok after) :
    after.2.length = state.2.length + docs.countP fun doc => format doc.2 ≠ doc.2 := by
  induction docs generalizing state with
  | nil =>
    cases h
    rfl
  | cons doc docs ih =>
    rw [List.foldlM_cons] at h
    obtain ⟨next, hnext, hrest⟩ := Except.bind_eq_ok.mp h
    rw [ih hrest]
    rcases formatOne_cases hnext with ⟨hform, rfl⟩ | ⟨hother, text, -, rfl⟩
    · rw [List.countP_cons_of_neg (by simpa using hform)]
    · rw [List.countP_cons_of_pos (by simpa using hother), List.length_append,
        List.length_singleton]
      omega

/-- A change is told for every docstring that is not in form. If the docstrings fit, the new text is
a source with as many docstrings, of which at most as many as the told changes have another content.
They are as many exactly if every turn changes a docstring, and no two turns the same one. -/
theorem apply_reports [Dialect] {source text : List Char} {told : List String} {t : Tree}
    (ht : parse? source = some t) (h : apply source = .ok (some (text, told))) :
    told.length = (all t).countP (fun doc => format doc.2 ≠ doc.2) ∧
      ((∀ turn ∈ turns (all t) source, fits turn.1 turn.2 = true) →
        ∃ t', parse? text = some t' ∧ (contents t').length = (contents t).length ∧
          (differing (contents t) (contents t')).card ≤ told.length ∧
          ((differing (contents t) (contents t')).card = told.length ↔
            none ∉ (turns (all t) source).map changed? ∧
              ((turns (all t) source).map changed?).Nodup)) := by
  rw [apply_eq ht] at h
  obtain ⟨after, hafter, hresult⟩ := Except.bind_eq_ok.mp h
  obtain ⟨-, hsome⟩ := Option.ite_none_left_eq_some.mp (Except.ok.inj hresult)
  obtain rfl := Option.some.inj hsome
  refine ⟨by simpa using length_told hafter, fun hfits => ?_⟩
  obtain ⟨after', t', hafter', ht', htold, htouched⟩ := exists_touched_foldlM ht hfits []
  obtain rfl := Except.ok.inj (hafter'.symm.trans hafter)
  rw [List.length_nil, Nat.zero_add] at htold
  have hle := htouched.card_le
  have heq := htouched.card_eq_iff
  rw [List.length_map, ← htold] at hle heq
  exact ⟨t', ht', htouched.length_eq, hle, heq⟩

theorem apply_reports_sample :
    ∃ t t' text told, parse? sharedText = some t ∧
      (∀ turn ∈ turns (all t) sharedText, fits turn.1 turn.2 = true) ∧
      apply sharedText = .ok (some (text, told)) ∧ parse? text = some t' ∧ told.length = 2 ∧
      (differing (contents t) (contents t')).card = told.length := by
  have hcheck : (parse? sharedText).any (fun t =>
      ((turns (all t) sharedText).all fun turn => fits turn.1 turn.2) &&
        (decide ((turns (all t) sharedText).map changed? = [some 0, some 1]) &&
          decide ((all t).countP (fun doc => format doc.2 ≠ doc.2) = 2))) = true := by
    decide +kernel
  have hsome : (apply sharedText).toOption.join.isSome = true := by decide +kernel
  obtain ⟨t, ht, hboth⟩ := (Option.any_eq_true _ _).mp hcheck
  rw [Bool.and_eq_true, Bool.and_eq_true, List.all_eq_true, decide_eq_true_eq,
    decide_eq_true_eq] at hboth
  obtain ⟨hfits, hchanged, hcount⟩ := hboth
  cases hresult : apply sharedText with
  | error f =>
    rw [hresult] at hsome
    cases hsome
  | ok formatted =>
    cases formatted with
    | none =>
      rw [hresult] at hsome
      cases hsome
    | some r =>
      obtain ⟨htold, hreports⟩ := apply_reports ht hresult
      obtain ⟨t', ht', -, -, hiff⟩ := hreports hfits
      refine ⟨t, t', r.1, r.2, ht, hfits, rfl, ht', htold.trans hcount, ?_⟩
      rw [hiff, hchanged]
      decide

/-- A source with two docstrings, one of them in other quotes than those that are looked for. -/
def otherQuotes : List Char := "\"\"\"module\"\"\"\n\n\ndef f():\n    \"hello\"\n".toList

/-- Two changes are told, and one docstring has changed. -/
theorem told_without_change :
    ∃ t t' text told, parse? otherQuotes = some t ∧
      apply otherQuotes = .ok (some (text, told)) ∧ parse? text = some t' ∧ told.length = 2 ∧
      (differing (contents t) (contents t')).card = 1 := by
  have hcheck : (parse? otherQuotes).any (fun t => (apply otherQuotes).toOption.any (·.any fun r =>
      (parse? r.1).any fun t' => decide (r.2.length = 2) &&
        decide ((differing (contents t) (contents t')).card = 1))) = true := by
    decide +kernel
  obtain ⟨t, ht, hresult⟩ := (Option.any_eq_true _ _).mp hcheck
  obtain ⟨result, happly, hany⟩ := exists_ok_of_any hresult
  obtain ⟨r, rfl, htext⟩ := (Option.any_eq_true _ _).mp hany
  obtain ⟨t', ht', hboth⟩ := (Option.any_eq_true _ _).mp htext
  rw [Bool.and_eq_true, decide_eq_true_eq, decide_eq_true_eq] at hboth
  exact ⟨t, t', r.1, r.2, ht, happly, ht', hboth⟩

end Restyle.Docstring
