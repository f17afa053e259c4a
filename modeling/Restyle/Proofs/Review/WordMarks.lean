import Mathlib.Data.List.Sort
import Restyle.Proofs.Rename.Words
import Restyle.Review.Highlight

/-!
Marks on words. The words of a line are its longest runs of word characters, but a mark goes to
every place where a word has no letter or digit next to it. An underscore is neither and yet belongs
to words, so the marks are on whole words exactly where no underscore is next to one.
-/

namespace Restyle

open Text (isWordChar Apart IsRun)

variable {w s : List Char}

namespace Pattern

/-! ### The longest run -/

theorem exists_repeated_run (c : CharClass) (hw : ∀ d ∈ w, c.holds d = true)
    (hs : Apart c.holds s) {n : Nat} (hn : w.length ≤ n) (before : List Char) (g : Groups) :
    ∃ shorter, repeated true (ends (.char c)) n ⟨before, w ++ s⟩ g =
      (⟨w.reverse ++ before, s⟩, g) :: shorter := by
  induction w generalizing n before with
  | nil =>
    have hstop : ends (.char c) ⟨before, s⟩ g = [] := by
      cases s with
      | nil => rfl
      | cons d s => simp [ends, Text.apart_cons.mp hs]
    cases n <;> exact ⟨[], by simp [repeated, hstop]⟩
  | cons d w ih =>
    obtain ⟨hd, hw⟩ := List.forall_mem_cons.mp hw
    obtain ⟨n, rfl⟩ := Nat.exists_eq_add_of_le' hn
    obtain ⟨shorter, hrest⟩ := ih hw (Nat.le_add_left _ n) (d :: before)
    have hstep : ends (.char c) ⟨before, d :: (w ++ s)⟩ g = [(⟨d :: before, w ++ s⟩, g)] :=
      if_pos hd
    exact ⟨shorter ++ [(⟨before, d :: w ++ s⟩, g)], by
      simp [← Nat.add_assoc, repeated, hstep, hrest]⟩

theorem matchHere?_wordChars (hw : IsRun isWordChar w) (hs : Apart isWordChar s)
    (before skipped : List Char) : matchHere? wordChars false skipped ⟨before, w ++ s⟩ =
      some (⟨skipped.reverse, w, []⟩, ⟨w.reverse ++ before, s⟩) := by
  have hupTo : Place.upTo ⟨before, w ++ s⟩ ⟨w.reverse ++ before, s⟩ = w := Passes.upTo ⟨rfl, rfl⟩
  obtain ⟨shorter, hends⟩ : ∃ shorter, ends wordChars ⟨before, w ++ s⟩ [] =
      (⟨w.reverse ++ before, s⟩, []) :: shorter := by
    obtain ⟨c, w, rfl⟩ := List.exists_cons_of_ne_nil hw.ne_nil
    obtain ⟨hc, hw⟩ := List.forall_mem_cons.mp hw.all
    have hchar : ends (.char .wordChar) ⟨before, c :: w ++ s⟩ [] =
        [(⟨c :: before, w ++ s⟩, [])] := if_pos hc
    have hlength : w.length ≤ (w ++ s).length := by simp
    obtain ⟨shorter, hrun⟩ := exists_repeated_run .wordChar hw hs hlength (c :: before) []
    refine ⟨shorter, ?_⟩
    change (ends (.char .wordChar) _ _).flatMap _ = _
    rw [hchar, List.flatMap_singleton]
    refine Eq.trans hrun ?_
    simp
  simp [matchHere?, hends, hupTo]

/-- The words from a place on, after characters that are skipped. -/
def wordsFrom (n : Nat) (before skipped s : List Char) : List Match :=
  ((search wordChars false before skipped s).map fun r =>
    r.1 :: (matchesFrom wordChars n r.1.text.isEmpty r.2).1).getD []

theorem matchesFrom_eq_wordsFrom (n : Nat) (before s : List Char) :
    (matchesFrom wordChars (n + 1) false ⟨before, s⟩).1 = wordsFrom n before [] s := by
  unfold matchesFrom wordsFrom
  dsimp only
  cases search wordChars false before [] s <;> rfl

theorem wordsFrom_other {c : Char} (hc : isWordChar c = false) (n : Nat)
    (before skipped s : List Char) : wordsFrom n before skipped (c :: s) =
      wordsFrom n (c :: before) (c :: skipped) s := by
  have hnone : ends wordChars ⟨before, c :: s⟩ [] = [] := by
    change (ends (.char .wordChar) _ _).flatMap _ = _
    simp [ends, hc]
  simp [wordsFrom, search, matchHere?, hnone]

theorem wordsFrom_run (hw : IsRun isWordChar w) (hs : Apart isWordChar s) (n : Nat)
    (before skipped : List Char) : wordsFrom (n + 1) before skipped (w ++ s) =
      ⟨skipped.reverse, w, []⟩ :: wordsFrom n (w.reverse ++ before) [] s := by
  have hfound : search wordChars false before skipped (w ++ s) =
      some (⟨skipped.reverse, w, []⟩, ⟨w.reverse ++ before, s⟩) := by
    have hhere := matchHere?_wordChars hw hs before skipped
    obtain ⟨c, w, rfl⟩ := List.exists_cons_of_ne_nil hw.ne_nil
    rw [List.cons_append] at hhere ⊢
    rw [search, hhere]
  have hempty : w.isEmpty = false := by simpa using hw.ne_nil
  rw [wordsFrom, hfound, ← matchesFrom_eq_wordsFrom, ← hempty]
  rfl

end Pattern

namespace Review

open Pattern (isWord wordsFrom)

variable {word : List Char}

/-- The columns of the matches that are a word, from a column on. -/
def tokenColumns (word : List Char) : Nat → List Pattern.Match → List Nat
  | _, [] => []
  | column, m :: ms =>
    let start := column + m.skipped.length
    (if m.text = word then [start] else []) ++ tokenColumns word (start + m.text.length) ms

/-- The columns where a word stands with nothing of a kind next to it. What comes before the text
is given backwards. -/
def standing (kind : Option Char → Bool) (word before : List Char) : List Char → List Nat
  | [] => []
  | c :: rest =>
    (if word.isPrefixOf (c :: rest) && !kind before.head? &&
      !kind ((c :: rest).drop word.length).head? then [before.length] else []) ++
        standing kind word (c :: before) rest

/-! ### The search -/

/-- What is found is the first place of the word, so it stands nowhere before. -/
theorem find?_cases (hword : word ≠ []) (kind : Option Char → Bool) (before s : List Char) :
    (find? word before.length s = none ∧ standing kind word before s = []) ∨
      ∃ u v, find? word before.length s = some (before.length + u.length) ∧ s = u ++ word ++ v ∧
        standing kind word before s = standing kind word (u.reverse ++ before) (word ++ v) := by
  induction s generalizing before with
  | nil => exact .inl (by simp [find?, standing, hword])
  | cons c s ih =>
    by_cases hhere : word.isPrefixOf (c :: s) = true
    · obtain ⟨v, hv⟩ := List.isPrefixOf_iff_prefix.mp hhere
      exact .inr ⟨[], v, by simp [find?, hhere], hv.symm, by simp [hv]⟩
    · rw [find?, if_neg hhere, standing]
      simp only [hhere, Bool.false_and, Bool.false_eq_true, if_false, List.nil_append]
      obtain hnone | ⟨u, v, hfound, rfl, hstanding⟩ := ih (c :: before)
      · exact .inl hnone
      · refine .inr ⟨c :: u, v, ?_, rfl, by simpa using hstanding⟩
        rw [← List.length_cons (a := c), hfound]
        simp
        omega

theorem standsAlone_append (word u v : List Char) :
    standsAlone word (u ++ word ++ v) u.length =
      (!isAlphanumericAt u.getLast? && !isAlphanumericAt v.head?) := by
  have hbefore : (u.length == 0 || !isAlphanumericAt (u ++ word ++ v)[u.length - 1]?) =
      !isAlphanumericAt u.getLast? := by
    cases u using List.reverseRecOn with
    | nil => rfl
    | append_singleton u c => simp
  have hafter : (u ++ word ++ v)[u.length + word.length]? = v.head? := by
    rw [← List.length_append, List.getElem?_append_right (Nat.le_refl _), Nat.sub_self,
      List.head?_eq_getElem?]
  rw [standsAlone, hbefore, hafter]

/-- Every round goes past a place of the word, so there are rounds enough as soon as there are more
of them than places left. -/
theorem occurrences?_eq_some (hword : word ≠ []) {rounds : Nat} {u s : List Char}
    (h : s.length + 1 < rounds) : occurrences? word (u ++ s) rounds u.length =
      some (standing isAlphanumericAt word u.reverse s) := by
  induction rounds generalizing u s with
  | zero => omega
  | succ rounds ih =>
    have hfind : findFrom? word (u ++ s) u.length = find? word u.reverse.length s := by
      simp [findFrom?]
    rw [occurrences?, hfind]
    obtain ⟨hnone, hstanding⟩ | ⟨w, v, hfound, rfl, hstanding⟩ :=
      find?_cases hword isAlphanumericAt u.reverse s
    · rw [hnone, hstanding]
    · obtain ⟨c, rest, rfl⟩ := List.exists_cons_of_ne_nil hword
      have hrest := @ih (u ++ w ++ [c]) (rest ++ v) (by simp at h ⊢; omega)
      have halone := standsAlone_append (c :: rest) (u ++ w) v
      simp only [List.append_assoc, List.cons_append, List.nil_append, List.length_append,
        List.length_singleton] at hrest halone
      rw [hfound, hstanding, List.cons_append, standing]
      simp only [List.length_reverse, List.append_assoc, List.cons_append, Nat.add_assoc, hrest,
        Option.map_some, halone]
      simp only [List.reverse_append, List.reverse_cons, List.getLast?_append, List.head?_append]
      simp
      split <;> simp [Nat.add_comm]

/-! ### Words as matches -/

/-- Inside a run no word starts. -/
theorem standing_inside (word s : List Char) (hw : ∀ c ∈ w, isWordChar c = true)
    {before : List Char} (hbefore : isWord before.head? = true) :
    standing isWord word before (w ++ s) = standing isWord word (w.reverse ++ before) s := by
  induction w generalizing before with
  | nil => rfl
  | cons c w ih =>
    obtain ⟨hc, hw⟩ := List.forall_mem_cons.mp hw
    have hrest := ih hw (show isWord (c :: before).head? = true from hc)
    simp [standing, hbefore, hrest]

section Words

variable (hword : IsRun isWordChar word)
include hword

theorem standing_run (hw : IsRun isWordChar w) (hs : Apart isWordChar s) {before : List Char}
    (hbefore : isWord before.head? = false) : standing isWord word before (w ++ s) =
      (if w = word then [before.length] else []) ++
        standing isWord word (w.reverse ++ before) s := by
  have hhere : (word.isPrefixOf (w ++ s) && !isWord ((w ++ s).drop word.length).head?) =
      decide (w = word) := by
    rw [Bool.eq_iff_iff, Bool.and_eq_true, List.isPrefixOf_iff_prefix, decide_eq_true_eq]
    constructor
    · rintro ⟨⟨t, ht⟩, hedge⟩
      have hapart : Apart isWordChar t := by
        intro c hc
        rw [← ht, List.drop_left, Option.mem_def.mp hc] at hedge
        simpa [isWord] using hedge
      exact (hw.append_inj hword hs hapart ht.symm).1
    · rintro rfl
      simp [Pattern.isWord_head?_apart hs]
  obtain ⟨c, w, rfl⟩ := List.exists_cons_of_ne_nil hw.ne_nil
  obtain ⟨hc, htail⟩ := List.forall_mem_cons.mp hw.all
  have hrest := standing_inside word s htail (show isWord (c :: before).head? = true from hc)
  rw [List.cons_append] at hhere ⊢
  rw [standing, hrest, hbefore, Bool.not_false, Bool.and_true, hhere]
  simp

theorem tokenColumns_wordsFrom {n column : Nat} (hn : s.length ≤ n) {before skipped : List Char}
    (hcolumn : column + skipped.length = before.length)
    (hbefore : isWord before.head? = true → Apart isWordChar s) :
    tokenColumns word column (wordsFrom n before skipped s) = standing isWord word before s := by
  induction s using Text.pieces_induction isWordChar generalizing n before skipped column with
  | nil => rfl
  | other c s hc ih =>
    obtain ⟨d, rest, rfl⟩ := List.exists_cons_of_ne_nil hword.ne_nil
    have hne : d ≠ c := Text.ne_of_other (hword.all d List.mem_cons_self) hc
    have hedge : isWord (some c) = false := hc
    rw [Pattern.wordsFrom_other hc, ih (Nat.le_of_succ_le hn) (by simp; omega) (by simp [hedge])]
    simp [standing, hne]
  | run w s hw hs ih =>
    have hpos := List.length_pos_of_ne_nil hw.ne_nil
    have hedge : isWord before.head? = false :=
      Bool.eq_false_iff.mpr fun h => hw.not_apart (hbefore h)
    rw [List.length_append] at hn
    obtain ⟨n, rfl⟩ : ∃ k, n = k + 1 := ⟨n - 1, by omega⟩
    rw [Pattern.wordsFrom_run hw hs, tokenColumns, standing_run hword hw hs hedge]
    dsimp only
    rw [List.length_reverse, hcolumn, ih (by omega) (by simp [Nat.add_comm]) fun _ => hs]

end Words

/-! ### Marks -/

section Marks

variable (hword : word ≠ []) {kind : Option Char → Bool} {before line : List Char}
include hword

theorem mem_standing {k : Nat} : k ∈ standing kind word before line ↔
    ∃ u v, line = u ++ word ++ v ∧ k = before.length + u.length ∧
      kind (u.reverse ++ before).head? = false ∧ kind v.head? = false := by
  induction line generalizing before with
  | nil => simp [standing, hword]
  | cons c rest ih =>
    rw [standing, List.mem_append, ih]
    constructor
    · rintro (h | ⟨u, v, rfl, rfl, hu, hv⟩)
      · obtain ⟨⟨⟨⟨v, hline⟩, hbefore⟩, hafter⟩, rfl⟩ : ((word <+: c :: rest ∧
            kind before.head? = false) ∧ kind ((c :: rest).drop word.length).head? = false) ∧
              k = before.length := by simpa using h
        rw [← hline, List.drop_left] at hafter
        exact ⟨[], v, hline.symm, rfl, hbefore, hafter⟩
      · exact ⟨c :: u, v, rfl, by simp; omega, by simpa using hu, hv⟩
    · rintro ⟨u, v, hline, rfl, hu, hv⟩
      cases u with
      | nil =>
        rw [hline]
        exact .inl (by simpa [hv] using hu)
      | cons d u =>
        obtain ⟨rfl, rfl⟩ := List.cons.inj hline
        exact .inr ⟨u, v, rfl, by simp; omega, by simpa using hu, hv⟩

theorem pairwise_standing : (standing kind word before line).Pairwise (· < ·) := by
  induction line generalizing before with
  | nil => exact .nil
  | cons c rest ih =>
    refine List.pairwise_append.mpr ⟨by split <;> simp, ih, fun k hk l hl => ?_⟩
    obtain ⟨u, v, -, rfl, -⟩ := (mem_standing hword).mp hl
    have hcolumn : k = before.length := by
      split at hk <;> simp_all
    simp only [List.length_cons]
    omega

/-- Somewhere in a line a word has no letter or digit next to it, but an underscore. -/
def Underscored (word line : List Char) : Prop :=
  ∃ u v, line = u ++ word ++ v ∧ isAlphanumericAt u.getLast? = false ∧
    isAlphanumericAt v.head? = false ∧ (u.getLast? = some '_' ∨ v.head? = some '_')

theorem standing_eq_iff : standing isAlphanumericAt word [] line = standing isWord word [] line ↔
    ¬ Underscored word line := by
  have hkind (o : Option Char) : isWord o = false ↔ isAlphanumericAt o = false ∧ o ≠ some '_' := by
    cases o <;> simp [isWord, isAlphanumericAt, isWordChar]
  have hmarked (k : Nat) : k ∈ standing isAlphanumericAt word [] line ↔ ∃ u v,
      line = u ++ word ++ v ∧ k = u.length ∧ isAlphanumericAt u.getLast? = false ∧
        isAlphanumericAt v.head? = false := by
    simp [mem_standing hword]
  have hwhole (k : Nat) : k ∈ standing isWord word [] line ↔ ∃ u v, line = u ++ word ++ v ∧
      k = u.length ∧ (isAlphanumericAt u.getLast? = false ∧ u.getLast? ≠ some '_') ∧
        isAlphanumericAt v.head? = false ∧ v.head? ≠ some '_' := by
    simp [mem_standing hword, hkind]
  constructor
  · rintro hsame ⟨u, v, hline, hu, hv, hedge⟩
    have hmem := (hmarked u.length).mpr ⟨u, v, hline, rfl, hu, hv⟩
    rw [hsame, hwhole] at hmem
    obtain ⟨u', v', hline', hlength, hu', hv'⟩ := hmem
    rw [hline, List.append_assoc, List.append_assoc] at hline'
    obtain ⟨rfl, hrest⟩ := List.append_inj hline' hlength
    obtain rfl := List.append_cancel_left hrest
    exact hedge.elim hu'.2 hv'.2
  · intro hnone
    refine (pairwise_standing hword).eq_of_mem_iff (pairwise_standing hword) fun k => ?_
    rw [hmarked, hwhole]
    refine exists₂_congr fun u v => and_congr_right fun hline => and_congr_right fun _ => ?_
    have hedge := fun hu hv h => hnone ⟨u, v, hline, hu, hv, h⟩
    tauto

end Marks

/-- The search for a word in a line comes to an end, with as many rounds as the line has places and
one more, and what it finds is marked. No place is marked twice, and the marks are on the words that
are found in the line exactly if no underscore is next to the word alone. -/
theorem wordMarks_whole_iff (tag : Tag) (shown : List Char) (index : Nat)
    (hword : IsRun isWordChar word) :
    (∃ columns, (∀ rounds, (shownLine shown index).length + 1 < rounds →
        occurrences? word (shownLine shown index) rounds 0 = some columns) ∧
      wordMarks tag shown index word = columns.map
        fun column => ⟨tag, index + 1, column, some (column + word.length)⟩) ∧
      (wordMarks tag shown index word).Nodup ∧
      (wordMarks tag shown index word =
        (tokenColumns word 0 (Pattern.wordChars.allMatches (shownLine shown index)).1).map
          (fun column => ⟨tag, index + 1, column, some (column + word.length)⟩) ↔
        ¬ Underscored word (shownLine shown index)) := by
  generalize hline : shownLine shown index = line
  have hinj (k l : Nat) (h : (⟨tag, index + 1, k, some (k + word.length)⟩ : Mark) =
      ⟨tag, index + 1, l, some (l + word.length)⟩) : k = l := (Mark.mk.inj h).2.2.1
  have htokens : tokenColumns word 0 (Pattern.wordChars.allMatches line).1 =
      standing isWord word [] line := by
    rw [Pattern.allMatches, Pattern.matchesUpTo, Pattern.matchesFrom_eq_wordsFrom]
    exact tokenColumns_wordsFrom hword (by omega) rfl (by simp [isWord])
  have hsearch (rounds : Nat) (h : line.length + 1 < rounds) :
      occurrences? word line rounds 0 = some (standing isAlphanumericAt word [] line) :=
    occurrences?_eq_some (u := []) hword.ne_nil h
  have hmarked : wordMarks tag shown index word = (standing isAlphanumericAt word [] line).map
      fun column => ⟨tag, index + 1, column, some (column + word.length)⟩ := by
    simp only [wordMarks, hline, hsearch _ (Nat.lt_succ_self _), Option.getD_some]
  refine ⟨⟨_, hsearch, hmarked⟩, ?_, ?_⟩
  · rw [hmarked]
    exact (pairwise_standing hword.ne_nil).nodup.map hinj
  · rw [hmarked, htokens, List.map_inj_right hinj, standing_eq_iff hword.ne_nil]

theorem wordMarks_whole_iff_sample :
    ¬ Underscored "foo".toList (shownLine "foo bar foo".toList 0) ∧
      (wordMarks .addedWord "foo bar foo".toList 0 "foo".toList).Nodup := by
  have hword : IsRun isWordChar "foo".toList := by decide +kernel
  have h := wordMarks_whole_iff .addedWord "foo bar foo".toList 0 hword
  exact ⟨h.2.2.mp (by decide +kernel), h.2.1⟩

/-- A mark on a part of a longer word. -/
theorem underscored_part_marked :
    wordMarks .addedWord "foo_bar foo".toList 0 "foo".toList =
        [⟨.addedWord, 1, 0, some 3⟩, ⟨.addedWord, 1, 8, some 11⟩] ∧
      tokenColumns "foo".toList 0 (Pattern.wordChars.allMatches "foo_bar foo".toList).1 = [8] := by
  decide +kernel

end Review

end Restyle
