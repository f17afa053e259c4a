import Mathlib.Data.List.SplitBy
import Restyle.Text.CodeTable
import Restyle.Text.Search

/-!
Texts in pieces. The characters of a kind, such as those of words, stand in runs, and between two
runs stand other characters. A text is read by going from piece to piece.
-/

namespace Restyle.Text

variable {kind : Char → Bool} {c d : Char} {s t w : List Char}

/-- The pieces of a text: the runs of characters of a kind, and the other characters one by one. -/
def pieces (kind : Char → Bool) (s : List Char) : List (List Char) :=
  s.splitBy fun a b => kind a && kind b

/-- A text that is empty or starts with another character, so that no run goes on in it. -/
def Apart (kind : Char → Bool) (s : List Char) : Prop := ∀ c ∈ s.head?, kind c = false

structure IsRun (kind : Char → Bool) (w : List Char) : Prop where
  ne_nil : w ≠ []
  all : ∀ c ∈ w, kind c = true

instance : Decidable (IsRun kind w) :=
  decidable_of_iff (w ≠ [] ∧ w.all kind = true)
    ⟨fun ⟨hne, hall⟩ => ⟨hne, List.all_eq_true.mp hall⟩,
      fun h => ⟨h.ne_nil, List.all_eq_true.mpr h.all⟩⟩

@[simp] theorem apart_nil : Apart kind [] := nofun

@[simp] theorem apart_cons : Apart kind (c :: s) ↔ kind c = false := by simp [Apart]

theorem ne_of_other (hc : kind c = true) (hd : kind d = false) : c ≠ d := by
  rintro rfl
  simp [hc] at hd

theorem not_mem_of_others {others : List Char} (hothers : others.all (!kind ·) = true)
    (hc : kind c = true) : c ∉ others := by
  intro hmem
  have hother := List.all_eq_true.mp hothers c hmem
  simp [hc] at hother

theorem IsRun.not_apart (h : IsRun kind w) : ¬ Apart kind (w ++ s) := by
  obtain ⟨c, rest, rfl⟩ := List.exists_cons_of_ne_nil h.ne_nil
  simp [h.all c List.mem_cons_self]

theorem takeWhile_run (hw : ∀ c ∈ w, kind c = true) (hs : Apart kind s) :
    (w ++ s).takeWhile kind = w := by
  rw [List.takeWhile_append_of_pos hw]
  cases s with
  | nil => simp
  | cons c s => simp [apart_cons.mp hs]

theorem IsRun.append_inj {v : List Char} (hw : IsRun kind w) (hv : IsRun kind v)
    (hs : Apart kind s) (ht : Apart kind t) (h : w ++ s = v ++ t) : w = v ∧ s = t := by
  have hwv : w = v := by rw [← takeWhile_run hw.all hs, h, takeWhile_run hv.all ht]
  subst hwv
  exact ⟨rfl, List.append_cancel_left h⟩

/-! ### Pieces -/

@[simp] theorem pieces_nil : pieces kind [] = [] := rfl

@[simp] theorem flatten_pieces (kind : Char → Bool) (s : List Char) :
    (pieces kind s).flatten = s := List.flatten_splitBy _ s

theorem pieces_append (hs : Apart kind s) (t : List Char) :
    pieces kind (t ++ s) = pieces kind t ++ pieces kind s := by
  refine List.splitBy_append fun a _ b hb => ?_
  rw [hs b hb, Bool.and_false]

theorem pieces_cons (hc : kind c = false) (s : List Char) :
    pieces kind (c :: s) = [c] :: pieces kind s := by
  refine List.splitBy_append (l := [c]) fun a ha b _ => ?_
  have hac : a = c := by simpa using ha.symm
  rw [hac, hc, Bool.false_and]

theorem pieces_run (hw : IsRun kind w) : pieces kind w = [w] := by
  refine List.splitBy_of_isChain hw.ne_nil ?_
  rw [List.isChain_iff_getElem]
  intro i hi
  simp [hw.all _ (List.getElem_mem _)]

theorem pieces_run_append (hw : IsRun kind w) (hs : Apart kind s) :
    pieces kind (w ++ s) = w :: pieces kind s := by
  rw [pieces_append hs, pieces_run hw, List.singleton_append]

/-- Texts are built from the right, piece by piece. -/
@[elab_as_elim] theorem pieces_induction (kind : Char → Bool) {P : List Char → Prop} (nil : P [])
    (other : ∀ c s, kind c = false → P s → P (c :: s))
    (run : ∀ w s, IsRun kind w → Apart kind s → P s → P (w ++ s)) (s : List Char) : P s := by
  induction hn : s.length using Nat.strongRecOn generalizing s with
  | _ n ih =>
    subst hn
    cases s with
    | nil => exact nil
    | cons c s =>
      cases hc : kind c with
      | false => exact other c s hc (ih s.length (by simp) s rfl)
      | true =>
        have hrun : IsRun kind ((c :: s).takeWhile kind) :=
          ⟨by simp [hc], List.all_eq_true.mp List.all_takeWhile⟩
        have hapart : Apart kind ((c :: s).dropWhile kind) := by
          intro d hd
          have hstop := List.head?_dropWhile_not kind (c :: s)
          rwa [hd] at hstop
        have hshort : ((c :: s).dropWhile kind).length < (c :: s).length := by
          rw [List.dropWhile_cons, if_pos hc, List.length_cons]
          exact Nat.lt_succ_of_le (List.dropWhile_suffix kind).length_le
        rw [← List.takeWhile_append_dropWhile (p := kind) (l := c :: s)]
        exact run _ _ hrun hapart (ih _ hshort _ rfl)

section Narrower

variable {narrow : Char → Bool} (h : ∀ c, narrow c = true → kind c = true)
include h

theorem eq_false_of_narrower (hc : kind c = false) : narrow c = false :=
  Bool.eq_false_iff.mpr fun hn => Bool.eq_false_iff.mp hc (h c hn)

theorem Apart.narrower (hs : Apart kind s) : Apart narrow s :=
  fun c hc => eq_false_of_narrower h (hs c hc)

end Narrower

/-- New words in the places of the old ones are the pieces of the new text. -/
theorem pieces_flatMap {f : List Char → List Char}
    (hrun : ∀ w, IsRun kind w → IsRun kind (f w)) (hother : ∀ c, kind c = false → f [c] = [c])
    (s : List Char) : pieces kind ((pieces kind s).flatMap f) = (pieces kind s).map f := by
  induction s using pieces_induction kind with
  | nil => rfl
  | other c s hc ih =>
    rw [pieces_cons hc, List.flatMap_cons, hother c hc, List.singleton_append, pieces_cons hc, ih,
      List.map_cons, hother c hc]
  | run w s hw hs ih =>
    have hapart : Apart kind ((pieces kind s).flatMap f) := by
      cases s with
      | nil => exact apart_nil
      | cons c s =>
        have hc := apart_cons.mp hs
        rw [pieces_cons hc, List.flatMap_cons, hother c hc]
        exact apart_cons.mpr hc
    rw [pieces_run_append hw hs, List.flatMap_cons, pieces_run_append (hrun w hw) hapart, ih,
      List.map_cons]

/-! ### Words -/

/-- The words of a text: its longest parts of characters that names can be made of. -/
def wordsIn (s : List Char) : List (List Char) :=
  (pieces mayBeNameChar s).filter (·.all mayBeNameChar)

theorem wordsIn_append (hc : mayBeNameChar c = false) (s t : List Char) :
    wordsIn (s ++ c :: t) = wordsIn s ++ wordsIn t := by
  rw [wordsIn, pieces_append (apart_cons.mpr hc), pieces_cons hc]
  simp [wordsIn, hc]

theorem wordsIn_run_append {s : List Char} (hw : IsRun mayBeNameChar w)
    (hs : Apart mayBeNameChar s) : wordsIn (w ++ s) = w :: wordsIn s := by
  have hall : w.all mayBeNameChar = true := List.all_eq_true.mpr hw.all
  simp [wordsIn, pieces_run_append hw hs, hall]

theorem wordsIn_run (hw : IsRun mayBeNameChar w) : wordsIn w = [w] := by
  have h := wordsIn_run_append hw apart_nil
  rwa [List.append_nil] at h

/-- A name is part of a text exactly if it is part of one of its words. -/
theorem isInfix_iff_wordsIn {n : List Char} (hn : IsRun mayBeNameChar n) (s : List Char) :
    n <:+: s ↔ ∃ w ∈ wordsIn s, n <:+: w := by
  constructor
  · induction s using pieces_induction mayBeNameChar with
    | nil => exact fun h => absurd (List.infix_nil.mp h) hn.ne_nil
    | other c s hc ih =>
      intro h
      rcases List.infix_cons_iff.mp h with hstart | hlater
      · obtain ⟨rest, hsplit⟩ := hstart
        exact absurd (hsplit ▸ apart_cons.mpr hc) hn.not_apart
      · rw [← List.nil_append (c :: s), wordsIn_append hc]
        exact ih hlater
    | run w s hw hs ih =>
      rintro ⟨before, after, h⟩
      rw [wordsIn_run_append hw hs]
      rw [List.append_assoc] at h
      rcases List.append_eq_append_iff.mp h with ⟨x, rfl, hx⟩ | ⟨x, rfl, hx⟩
      · rcases List.append_eq_append_iff.mp hx with ⟨y, rfl, -⟩ | ⟨y, rfl, rfl⟩
        · exact ⟨_, List.mem_cons_self, before, y, by simp⟩
        · -- a name that started in the word would go on after it
          cases y with
          | nil => exact ⟨_, List.mem_cons_self, before, [], by simp⟩
          | cons c y => exact absurd (hn.all c (by simp)) (by simp [apart_cons.mp hs])
      · obtain ⟨v, hv, hpart⟩ := ih ⟨x, after, by simp [hx]⟩
        exact ⟨v, List.mem_cons_of_mem _ hv, hpart⟩
  · rintro ⟨w, hw, hpart⟩
    have hwhole := List.infix_of_mem_flatten (List.mem_filter.mp hw).1
    rw [flatten_pieces] at hwhole
    exact hpart.trans hwhole

theorem isRun_toDigits (n : Nat) : IsRun mayBeNameChar (Nat.toDigits 10 n) := by
  refine ⟨Nat.toDigits_ne_nil, fun c hc => ?_⟩
  simp [mayBeNameChar, Char.isAlphanum, Nat.isDigit_of_mem_toDigits (by decide) (by decide) hc]

/-- A text occurs in another one if that one is what stands before it, the text, and what stands
after it. -/
theorem occursIn_iff_isInfix (word s : List Char) : occursIn word s = true ↔ word <:+: s := by
  induction s with
  | nil => simp [occursIn]
  | cons c rest ih =>
    rw [List.infix_cons_iff, occursIn, Bool.or_eq_true, List.isPrefixOf_iff_prefix, ih]

theorem occursIn_eq_false {word s : List Char} {c : Char} (hword : c ∈ word) (hs : c ∉ s) :
    occursIn word s = false := by
  rw [Bool.eq_false_iff]
  intro h
  exact hs (((occursIn_iff_isInfix word s).mp h).subset hword)

end Restyle.Text
