import Restyle.Proofs.Naming.Spelled
import Restyle.Proofs.Pattern
import Restyle.Proofs.Text.LowerCase
import Restyle.Proofs.Text.Pieces

/-!
Where the words of a name part. Two passes put underscores into a name, the second one over what
the first one gives. The main statement says that both together put an underscore exactly where one
look at two neighbours, and at the character after them, finds a word break. The passes are also
given as patterns that are replaced from left to right. A match of the second one takes as many
capitals as there are, but it can end in one way only, so that no break is missed or found twice.
-/

namespace Restyle

open Text (isAscii isDigit_iff IsRun Apart)

namespace Naming

/-- Whether a word ends with `a` and another one starts with `b`, by the character after `b`. -/
def isWordBreak (a b : Char) (next : Option Char) : Bool :=
  (isSmall a || a.isDigit) && isCapital b || isCapital a && isCapital b && next.any isSmall

def breakWords : List Char → List Char
  | a :: b :: rest =>
    if isWordBreak a b rest.head? then a :: '_' :: breakWords (b :: rest)
    else a :: breakWords (b :: rest)
  | s => s

/-! ### Kinds of characters -/

section Kinds

variable {a b c : Char} {s rest : List Char}

theorem isCapital_iff : isCapital c = true ↔ 65 ≤ c.toNat ∧ c.toNat ≤ 90 := by
  simp [isCapital, Char.le_def, UInt32.le_iff_toNat_le]

theorem isSmall_iff : isSmall c = true ↔ 97 ≤ c.toNat ∧ c.toNat ≤ 122 := by
  simp [isSmall, Char.le_def, UInt32.le_iff_toNat_le]

theorem isAscii_of_isCapital (h : isCapital c = true) : isAscii c = true := by
  rw [isCapital_iff] at h
  exact decide_eq_true (by omega)

theorem isAscii_of_isSmall (h : isSmall c = true) : isAscii c = true := by
  rw [isSmall_iff] at h
  exact decide_eq_true (by omega)

theorem others_of_isCapital (h : isCapital c = true) :
    isSmall c = false ∧ c.isDigit = false ∧ c ≠ '_' := by
  rw [isCapital_iff] at h
  simp only [← Bool.not_eq_true, isSmall_iff, isDigit_iff, ne_eq, ← Char.toNat_inj,
    Char.reduceToNat]
  omega

theorem not_isCapital_of_isSmall (h : isSmall c = true) : isCapital c = false := by
  rw [isSmall_iff] at h
  rw [← Bool.not_eq_true, isCapital_iff]
  omega

/-! ### Two passes and one -/

theorem breakAfterSmall_of_isCapital (hb : isCapital b = true) (s : List Char) :
    breakAfterSmall (b :: s) = b :: breakAfterSmall s := by
  obtain ⟨hsmall, hdigit, -⟩ := others_of_isCapital hb
  cases s <;> simp [breakAfterSmall, hsmall, hdigit]

theorem breakAcronym_cons_cons (a b : Char) (s : List Char) :
    breakAcronym (a :: b :: s) =
      if isCapital a && isCapital b && s.head?.any isSmall then a :: '_' :: breakAcronym (b :: s)
      else a :: breakAcronym (b :: s) := by
  cases s <;> simp [breakAcronym]

theorem breakAcronym_of_not_isCapital (ha : isCapital a = false) (s : List Char) :
    breakAcronym (a :: s) = a :: breakAcronym s := by
  cases s with
  | nil => rfl
  | cons b s => simp [breakAcronym_cons_cons, ha]

theorem head?_breakAfterSmall (s : List Char) : (breakAfterSmall s).head? = s.head? := by
  fun_cases breakAfterSmall s <;> rfl

theorem head?_breakAcronym (s : List Char) : (breakAcronym s).head? = s.head? := by
  fun_cases breakAcronym s <;> rfl

/-- Where the second pass finds something, it would find the same in the name itself: an underscore
of the first pass stands behind a small letter or a digit, so never in a run of capitals. -/
theorem breakAcronym_breakAfterSmall_cons_cons (a b : Char) (rest : List Char) :
    breakAcronym (breakAfterSmall (a :: b :: rest)) =
      if isWordBreak a b rest.head? then
        a :: '_' :: breakAcronym (breakAfterSmall (b :: rest))
      else a :: breakAcronym (breakAfterSmall (b :: rest)) := by
  have hunderscore : isCapital '_' = false := by decide
  cases ha : isCapital a with
  | false =>
    have hbreak : isWordBreak a b rest.head? = ((isSmall a || a.isDigit) && isCapital b) := by
      simp [isWordBreak, ha]
    rw [breakAfterSmall, hbreak]
    split
    · rw [breakAcronym_of_not_isCapital ha, breakAcronym_of_not_isCapital hunderscore]
    · rw [breakAcronym_of_not_isCapital ha]
  | true =>
    obtain ⟨hsmall, hdigit, -⟩ := others_of_isCapital ha
    have hbreak : isWordBreak a b rest.head? = (isCapital b && rest.head?.any isSmall) := by
      simp [isWordBreak, ha, hsmall, hdigit]
    rw [breakAfterSmall_of_isCapital ha, hbreak]
    cases hb : isCapital b with
    | false =>
      obtain ⟨t, ht⟩ : ∃ t, breakAfterSmall (b :: rest) = b :: t := by
        refine List.head?_eq_some_iff.mp ?_
        rw [head?_breakAfterSmall, List.head?_cons]
      simp [ht, breakAcronym_cons_cons, hb]
    | true =>
      rw [breakAfterSmall_of_isCapital hb, breakAcronym_cons_cons, head?_breakAfterSmall]
      simp [ha, hb]

theorem breakAcronym_breakAfterSmall (s : List Char) :
    breakAcronym (breakAfterSmall s) = breakWords s := by
  fun_induction breakWords s with
  | case1 a b rest hbreak ih => rw [breakAcronym_breakAfterSmall_cons_cons, if_pos hbreak, ih]
  | case2 a b rest hbreak ih => rw [breakAcronym_breakAfterSmall_cons_cons, if_neg hbreak, ih]
  | case3 s hshort =>
    cases s with
    | nil => rfl
    | cons a s =>
      cases s with
      | nil => rfl
      | cons b rest => exact absurd rfl (hshort a b rest)

/-! ### Snake case -/

/-- Words only start with capitals. -/
theorem breakWords_of_tail (h : ∀ c ∈ s.tail, isCapital c = false) : breakWords s = s := by
  fun_induction breakWords s with
  | case1 a b rest hbreak ih =>
    have hb : isCapital b = false := h b List.mem_cons_self
    simp [isWordBreak, hb] at hbreak
  | case2 a b rest hbreak ih => rw [ih fun c hc => h c (List.mem_of_mem_tail hc)]
  | case3 s => rfl

theorem head?_breakWords (s : List Char) : (breakWords s).head? = s.head? := by
  fun_cases breakWords s <;> rfl

theorem all_isAscii_breakWords (h : s.all isAscii = true) : (breakWords s).all isAscii = true := by
  fun_induction breakWords s with
  | case1 a b rest hbreak ih => simp_all [show isAscii '_' = true from rfl]
  | case2 a b rest hbreak ih => simp_all
  | case3 s => exact h

theorem not_isCapital_of_isLower (h : Text.isLower s = true) : ∀ c ∈ s, isCapital c = false := by
  intro c hc
  by_contra hcapital
  rw [Bool.not_eq_false] at hcapital
  have hother := Text.not_capital_of_isLower h c hc
  rw [Text.isCapitalChar_ascii (isAscii_of_isCapital hcapital), ← Bool.not_eq_true,
    Text.isUpper_iff] at hother
  exact hother (isCapital_iff.mp hcapital)

/-- A name that is left as it is has no breaks, and is its own lower case. -/
theorem snake_eq_lower_breakWords (s : List Char) : snake s = Text.lower (breakWords s) := by
  rw [snake, breakAcronym_breakAfterSmall]
  split
  case isTrue hready =>
    have hlower : Text.isLower s = true := (Bool.and_eq_true_iff.mp hready).2
    have hcapital := not_isCapital_of_isLower hlower
    rw [breakWords_of_tail fun c hc => hcapital c (List.mem_of_mem_tail hc),
      Text.lower_of_isLower hlower]
  case isFalse => rfl

theorem snake_ascii (h : s.all isAscii = true) : snake s = (breakWords s).map Char.toLower := by
  rw [snake_eq_lower_breakWords, Text.lower_ascii (all_isAscii_breakWords h)]

end Kinds

end Naming

/-! ### The passes as patterns -/

namespace Pattern

/-- One of some characters, of which there is at least one. -/
def anyOf : Char → List Char → Pattern
  | c, [] => .char (.exactly c)
  | c, d :: others => .alt (.char (.exactly c)) (anyOf d others)

theorem takes_anyOf (c : Char) (others : List Char) :
    Takes (anyOf c others) (OneOf fun d => (c :: others).contains d) := by
  induction others generalizing c with
  | nil =>
    refine (takes_char (.exactly c)).congr fun s => ?_
    simp [OneOf]
  | cons d others ih =>
    refine ((takes_char (.exactly c)).alt (ih d)).congr fun s => ?_
    simp [OneOf]

theorem takes_anyOf_range {c : Char} {others : List Char} {kind : Char → Bool} (first count : Nat)
    (h : (c :: others).map Char.toNat = List.range' first count)
    (hkind : ∀ d, kind d = true ↔ first ≤ d.toNat ∧ d.toNat < first + count) :
    Takes (anyOf c others) (OneOf kind) := by
  have hsame (d : Char) : (c :: others).contains d = kind d := by
    rw [Bool.eq_iff_iff, List.contains_iff_mem, hkind, ← List.mem_range'_1, ← h]
    exact (List.mem_map_of_injective fun a b => Char.toNat_inj.mp).symm
  rw [← funext hsame]
  exact takes_anyOf c others

theorem groupCount_anyOf (c : Char) (others : List Char) : (anyOf c others).groupCount = 0 := by
  induction others generalizing c with
  | nil => rfl
  | cons d others ih => simp [anyOf, groupCount, ih]

end Pattern

namespace Naming

open Pattern (Takes OneOf)

def capital : Pattern := .anyOf 'A' "BCDEFGHIJKLMNOPQRSTUVWXYZ".toList

def small : Pattern := .anyOf 'a' "bcdefghijklmnopqrstuvwxyz".toList

def smallOrDigit : Pattern := .alt small (.anyOf '0' "123456789".toList)

/-- A small letter or a digit, and the capital after it. -/
def humpEdge : Pattern := .group 1 smallOrDigit + .group 2 capital

/-- Capitals, as many as possible, and another one with a small letter after it. -/
def acronymEdge : Pattern := .group 1 (capital + .many capital) + .group 2 (capital + small)

/-- The template that puts an underscore between two groups. -/
def seam : List Char := "\\1_\\2".toList

def seamed : Template := [.group 1, .text ['_'], .group 2]

theorem parse_seam : Template.parse 2 seam = .ok seamed := rfl

theorem expand_seamed (w s t : List Char) :
    seamed.expand ⟨[], w, [(2, t), (1, s)]⟩ = s ++ '_' :: t := by
  change s ++ (['_'] ++ (t ++ [])) = s ++ '_' :: t
  simp

section Edges

variable {a b c : Char} {s rest : List Char} {p q : Pattern.Place} {g : Pattern.Groups}

theorem takes_capital : Takes capital (OneOf isCapital) :=
  Pattern.takes_anyOf_range 65 26 rfl fun d => by rw [isCapital_iff]; omega

theorem takes_small : Takes small (OneOf isSmall) :=
  Pattern.takes_anyOf_range 97 26 rfl fun d => by rw [isSmall_iff]; omega

theorem takes_smallOrDigit : Takes smallOrDigit (OneOf fun c => isSmall c || c.isDigit) := by
  have hdigit : Takes (.anyOf '0' "123456789".toList) (OneOf Char.isDigit) :=
    Pattern.takes_anyOf_range 48 10 rfl fun d => by rw [isDigit_iff]; omega
  refine (takes_small.alt hdigit).congr fun s => ?_
  simp [OneOf, or_and_right, exists_or]

theorem mem_ends_humpEdge :
    (q, g) ∈ Pattern.ends humpEdge p [] ↔
      ∃ a b, ((isSmall a || a.isDigit) = true ∧ isCapital b = true) ∧
        Pattern.Passes p [a, b] q ∧ g = [(2, [b]), (1, [a])] := by
  refine (takes_smallOrDigit.mem_ends_groups takes_capital).trans ⟨?_, ?_⟩
  · rintro ⟨_, _, ⟨a, ha, rfl⟩, ⟨b, hb, rfl⟩, hpass, rfl⟩
    exact ⟨a, b, ⟨ha, hb⟩, hpass, rfl⟩
  · rintro ⟨a, b, ⟨ha, hb⟩, hpass, rfl⟩
    exact ⟨[a], [b], ⟨a, ha, rfl⟩, ⟨b, hb, rfl⟩, hpass, rfl⟩

theorem mem_ends_acronymEdge :
    (q, g) ∈ Pattern.ends acronymEdge p [] ↔
      ∃ u b c, (IsRun isCapital u ∧ isCapital b = true ∧ isSmall c = true) ∧
        Pattern.Passes p (u ++ [b, c]) q ∧ g = [(2, [b, c]), (1, u)] := by
  have hfirst := takes_capital.seq takes_capital.many
  have hsecond := takes_capital.seq takes_small
  refine (hfirst.mem_ends_groups hsecond).trans ⟨?_, ?_⟩
  · rintro ⟨_, _, hfirst, hsecond, hpass, rfl⟩
    obtain ⟨_, u, ⟨a, ha, rfl⟩, hu, rfl⟩ := hfirst
    obtain ⟨_, _, ⟨b, hb, rfl⟩, ⟨c, hc, rfl⟩, rfl⟩ := hsecond
    refine ⟨a :: u, b, c, ⟨⟨List.cons_ne_nil a u, ?_⟩, hb, hc⟩, hpass, rfl⟩
    exact List.forall_mem_cons.mpr ⟨ha, List.all_eq_true.mp hu⟩
  · rintro ⟨u, b, c, ⟨hu, hb, hc⟩, hpass, rfl⟩
    obtain ⟨a, u, rfl⟩ := List.exists_cons_of_ne_nil hu.ne_nil
    obtain ⟨ha, hall⟩ := List.forall_mem_cons.mp hu.all
    exact ⟨a :: u, [b, c], ⟨[a], u, ⟨a, ha, rfl⟩, List.all_eq_true.mpr hall, rfl⟩,
      ⟨[b], [c], ⟨b, hb, rfl⟩, ⟨c, hc, rfl⟩, rfl⟩, hpass, rfl⟩

theorem follows_breakAfterSmall : Pattern.Follows breakAfterSmall humpEdge seamed where
  nil := by
    refine ⟨fun before q g hmem => ?_, rfl⟩
    obtain ⟨a, b, -, hpass, -⟩ := mem_ends_humpEdge.mp hmem
    cases hpass.1
  cons a s := by
    by_cases h : ∃ b rest, s = b :: rest ∧ (isSmall a || a.isDigit) = true ∧ isCapital b = true
    · obtain ⟨b, rest, rfl, ha, hb⟩ := h
      refine .inr ⟨[a, b], rest, [(2, [b]), (1, [a])], rfl, List.cons_ne_nil a [b], ?_, ?_⟩
      · intro before q g
        rw [mem_ends_humpEdge]
        constructor
        · rintro ⟨a', b', -, hpass, rfl⟩
          obtain ⟨rfl, rfl, -⟩ : a = a' ∧ b = b' ∧ rest = q.rest := by simpa using hpass.1
          exact ⟨hpass, rfl⟩
        · rintro ⟨hpass, rfl⟩
          exact ⟨a, b, ⟨ha, hb⟩, hpass, rfl⟩
      · simp [breakAfterSmall, ha, hb, breakAfterSmall_of_isCapital hb, expand_seamed]
    · refine .inl ⟨fun before q g hmem => h ?_, ?_⟩
      · obtain ⟨a', b, hkinds, hpass, -⟩ := mem_ends_humpEdge.mp hmem
        obtain ⟨rfl, hs⟩ : a = a' ∧ s = b :: q.rest := by simpa using hpass.1
        exact ⟨b, q.rest, hs, hkinds⟩
      · cases s with
        | nil => rfl
        | cons b rest =>
          rw [breakAfterSmall, if_neg]
          intro hedge
          exact h ⟨b, rest, rfl, Bool.and_eq_true_iff.mp hedge⟩

/-- The capitals of a match are all that there are, so it can end in one way only. -/
theorem oneMatch_acronymEdge {u : List Char} (hu : IsRun isCapital u) (hb : isCapital b = true)
    (hc : isSmall c = true) :
    Pattern.OneMatch acronymEdge (u ++ [b, c]) rest [(2, [b, c]), (1, u)] := by
  have hrun {v : List Char} {d : Char} (hv : IsRun isCapital v) (hd : isCapital d = true) :
      IsRun isCapital (v ++ [d]) :=
    ⟨by simp, List.forall_mem_append.mpr ⟨hv.all, by simpa using hd⟩⟩
  have hapart {d : Char} (hd : isSmall d = true) (t : List Char) : Apart isCapital (d :: t) :=
    Text.apart_cons.mpr (not_isCapital_of_isSmall hd)
  intro before q g
  rw [mem_ends_acronymEdge]
  constructor
  · rintro ⟨v, d, e, ⟨hv, hd, he⟩, hpass, rfl⟩
    have hsplit : (u ++ [b]) ++ c :: rest = (v ++ [d]) ++ e :: q.rest := by
      simpa using hpass.1
    obtain ⟨hcapitals, hsmall⟩ :=
      (hrun hu hb).append_inj (hrun hv hd) (hapart hc rest) (hapart he q.rest) hsplit
    obtain ⟨rfl, hlast⟩ := List.append_inj' hcapitals rfl
    obtain ⟨rfl⟩ := List.singleton_inj.mp hlast
    obtain ⟨rfl, -⟩ := List.cons.inj hsmall
    exact ⟨hpass, rfl⟩
  · rintro ⟨hpass, rfl⟩
    exact ⟨u, b, c, ⟨hu, hb, hc⟩, hpass, rfl⟩

/-- In a run of capitals only the last one starts a word. -/
theorem breakAcronym_run {u : List Char} (hu : IsRun isCapital u) (hb : isCapital b = true)
    (hc : isSmall c = true) (rest : List Char) :
    breakAcronym (u ++ b :: c :: rest) = u ++ '_' :: b :: c :: breakAcronym rest := by
  have hother := not_isCapital_of_isSmall hc
  induction u with
  | nil => exact absurd rfl hu.ne_nil
  | cons a u ih =>
    obtain ⟨ha, hall⟩ := List.forall_mem_cons.mp hu.all
    cases u with
    | nil =>
      simp [breakAcronym_cons_cons, breakAcronym_of_not_isCapital hother, ha, hb, hc, hother]
    | cons d u =>
      have hnext : (u ++ b :: c :: rest).head?.any isSmall = false := by
        cases u with
        | nil => simp [(others_of_isCapital hb).1]
        | cons e u => simp [(others_of_isCapital (hall e (by simp))).1]
      have hrest := ih ⟨List.cons_ne_nil d u, hall⟩
      change breakAcronym (a :: d :: (u ++ b :: c :: rest)) =
        a :: (d :: u ++ '_' :: b :: c :: breakAcronym rest)
      rw [breakAcronym_cons_cons, hnext, Bool.and_false, if_neg Bool.false_ne_true, ← hrest,
        List.cons_append]

theorem follows_breakAcronym : Pattern.Follows breakAcronym acronymEdge seamed where
  nil := by
    refine ⟨fun before q g hmem => ?_, rfl⟩
    obtain ⟨u, b, c, -, hpass, -⟩ := mem_ends_acronymEdge.mp hmem
    simpa using hpass.1
  cons a s := by
    by_cases h : ∃ u b c rest, a :: s = u ++ b :: c :: rest ∧ IsRun isCapital u ∧
        isCapital b = true ∧ isSmall c = true
    · obtain ⟨u, b, c, rest, hs, hu, hb, hc⟩ := h
      refine .inr ⟨u ++ [b, c], rest, [(2, [b, c]), (1, u)], by simp [hs], by simp,
        oneMatch_acronymEdge hu hb hc, ?_⟩
      rw [hs, breakAcronym_run hu hb hc, expand_seamed]
      simp
    · refine .inl ⟨fun before q g hmem => h ?_, ?_⟩
      · obtain ⟨u, b, c, hkinds, hpass, -⟩ := mem_ends_acronymEdge.mp hmem
        exact ⟨u, b, c, q.rest, by simpa using hpass.1, hkinds⟩
      · cases s with
        | nil => rfl
        | cons b s =>
          rw [breakAcronym_cons_cons, if_neg]
          intro hedge
          simp only [Bool.and_eq_true] at hedge
          obtain ⟨⟨ha, hb⟩, hnext⟩ := hedge
          obtain ⟨c, hc, hsmall⟩ := (Option.any_eq_true _ _).mp hnext
          obtain ⟨rest, rfl⟩ := List.head?_eq_some_iff.mp hc
          exact h ⟨[a], b, c, rest, rfl, ⟨by simp, by simpa using ha⟩, hb, hsmall⟩

end Edges

theorem replaceAll_humpEdge (s : List Char) :
    humpEdge.replaceAll seam s = .ok (breakAfterSmall s) := by
  have hgroups : humpEdge.groupCount = 2 := by
    change smallOrDigit.groupCount + 1 + (capital.groupCount + 1) = 2
    simp [smallOrDigit, small, capital, Pattern.groupCount, Pattern.groupCount_anyOf]
  exact follows_breakAfterSmall.replaceAll_eq (by rw [hgroups, parse_seam]) s

theorem replaceAll_acronymEdge (s : List Char) :
    acronymEdge.replaceAll seam s = .ok (breakAcronym s) := by
  have hgroups : acronymEdge.groupCount = 2 := by
    change (capital.groupCount + capital.groupCount) + 1 +
      ((capital.groupCount + small.groupCount) + 1) = 2
    simp [small, capital, Pattern.groupCount_anyOf]
  exact follows_breakAcronym.replaceAll_eq (by rw [hgroups, parse_seam]) s

/-- Snake case is the lower case of a name with an underscore in every word break, also of a name
that is left as it is because it looks like snake case. And the underscores are those of two passes
from left to right: the first one parts every small letter or digit from a capital after it, the
second one every run of capitals from the last of them, if a small letter follows that. -/
theorem snake_breaks_words (s : List Char) :
    snake s = Text.lower (breakWords s) ∧
      (humpEdge.replaceAll seam s >>= acronymEdge.replaceAll seam) = .ok (breakWords s) := by
  refine ⟨snake_eq_lower_breakWords s, ?_⟩
  rw [replaceAll_humpEdge]
  change acronymEdge.replaceAll seam (breakAfterSmall s) = .ok (breakWords s)
  rw [replaceAll_acronymEdge, breakAcronym_breakAfterSmall]

end Naming

end Restyle
