import Restyle.Proofs.Docstring.InPlace
import Restyle.Proofs.Docstring.Settled
import Restyle.Proofs.Layout.BlankLines
import Restyle.Proofs.Syntax.Spacing
import Restyle.Syntax.Dialect

/-!
What blank lines do to the source code. A line that starts a definition is recognised by its text,
so it may also be a line of a string, and then the blank lines change the string. If no string goes
over the end of such a line, the new text has the same syntax tree, but for the places.
-/

namespace Restyle

namespace Syntax

open Text

def ended (s : List Char) : List Char := if s = [] then [] else prepare s

theorem prepare_unended {s : List Char} (h : s.getLast? ≠ some '\n') :
    prepare s = unifyNewlines (s ++ ['\n']) := by
  rcases List.eq_nil_or_concat s with rfl | ⟨s, c, rfl⟩
  · rfl
  · have hline : c ≠ '\n' := by simpa using h
    have hhead : [c].head? ≠ some '\n' := by simpa using hline
    unfold prepare
    rw [List.concat_eq_append, List.append_assoc, unifyNewlines_append hhead,
      unifyNewlines_append (y := [c] ++ ['\n']) (by simpa using hline)]
    by_cases hreturn : c = '\r'
    · subst hreturn
      simp [unifyNewlines]
    · have hone : unifyNewlines [c] = [c] := unifyNewlines_cons hreturn []
      have htwo : unifyNewlines ([c] ++ ['\n']) = [c, '\n'] := unifyNewlines_cons hreturn ['\n']
      rw [hone, htwo]
      simp [hline]

section Line

variable {line x : List Char}
  (hx : ∀ t, unifyNewlines (line ++ '\n' :: t) = x ++ '\n' :: unifyNewlines t)

include hx

/-- Line by line the text is prepared for the reader. -/
theorem prepare_line (s : List Char) : prepare (line ++ '\n' :: s) = x ++ '\n' :: ended s := by
  unfold ended prepare
  rw [hx]
  by_cases hs : s = []
  · subst hs
    simp [unifyNewlines]
  · have hlast : (x ++ '\n' :: unifyNewlines s).getLast? = (unifyNewlines s).getLast? := by
      obtain ⟨c, rest, hrest⟩ := List.exists_cons_of_ne_nil (mt unifyNewlines_eq_nil.mp hs)
      rw [hrest, List.getLast?_append, List.getLast?_cons_cons, List.getLast?_cons, Option.some_or]
    dsimp only
    rw [hlast, if_neg hs]
    split <;> simp

theorem count_line : (unifyNewlines (line ++ ['\n'])).count '\n' = x.count '\n' + 1 := by
  have hnil : unifyNewlines [] = [] := rfl
  rw [hx, hnil, List.count_append, List.count_singleton_self]

theorem ended_line (s : List Char) : ended (line ++ '\n' :: s) = x ++ '\n' :: ended s := by
  rw [ended, if_neg (by simp), prepare_line hx]

end Line

theorem ended_unended {line : List Char} (hne : line ≠ []) (hline : '\n' ∉ line) :
    ended line = ended (line ++ ['\n']) := by
  obtain ⟨x, hx⟩ := exists_unifyNewlines_line line
  have hlast : line.getLast? ≠ some '\n' := fun h => hline (List.mem_of_getLast? h)
  rw [ended_line hx, ended, if_neg hne, prepare_unended hlast, hx]
  rfl

theorem ended_replicate_append (k : Nat) (s : List Char) :
    ended (List.replicate k '\n' ++ s) = List.replicate k '\n' ++ ended s := by
  induction k with
  | zero => rfl
  | succ k ih =>
    have hnil : ∀ t, unifyNewlines ([] ++ '\n' :: t) = [] ++ '\n' :: unifyNewlines t :=
      fun t => unifyNewlines_cons (by decide) t
    rw [List.replicate_succ, List.cons_append, List.cons_append, ← ih]
    exact ended_line hnil _

/-- What is spaced after a line is spaced from the line on. -/
theorem Spaced.line {P : Nat → Prop} {n : Nat} {x r r' : List Char}
    (h : Spaced P (n + x.count '\n' + 1) r r') : Spaced P n (x ++ '\n' :: r) (x ++ '\n' :: r') := by
  cases h with
  | same => exact .same n _
  | @gap _ y r r' k hy hP h =>
    have hcount : (x ++ '\n' :: y).count '\n' = x.count '\n' + 1 + y.count '\n' := by
      rw [List.count_append, List.count_cons_self]
      omega
    have hlast : (x ++ '\n' :: y).getLast? ≠ some '\\' := by
      rw [List.getLast?_append, List.getLast?_cons, Option.some_or, Ne, Option.some.injEq]
      cases hlast : y.getLast? with
      | none => decide
      | some c =>
        rintro rfl
        exact hy hlast
    have hparts (r : List Char) :
        x ++ '\n' :: (y ++ '\n' :: r) = (x ++ '\n' :: y) ++ '\n' :: r := by simp
    rw [hparts, hparts]
    refine .gap k hlast ?_ ?_
    · rw [hcount]
      simpa only [Nat.add_assoc] using hP
    · rw [hcount]
      simpa only [Nat.add_assoc] using h

/-! ### Trees without places -/

mutual

def Tree.unplaced : Tree → Tree
  | .node l r _ cs => .node l r ⟨0, 0, 0⟩ (unplacedAll cs)

def Tree.unplacedAll : List Tree → List Tree
  | [] => []
  | t :: ts => t.unplaced :: unplacedAll ts

end

mutual

theorem unplaced_eq : ∀ t t' : Tree, TreeLike .same .none t t' → t'.unplaced = t.unplaced
  | .node _ r _ cs, .node _ _ _ cs', h => by
    cases h with
    | node _ hl hcs =>
      rw [Tree.unplaced, Tree.unplaced, (hl.eq_or_text).resolve_right (·.1),
        unplacedAll_eq cs cs' hcs]

theorem unplacedAll_eq : ∀ ts ts' : List Tree, TreesLike .same .none ts ts' →
    Tree.unplacedAll ts' = Tree.unplacedAll ts
  | [], [], _ => rfl
  | t :: ts, t' :: ts', h => by
    obtain ⟨ht, hts⟩ := List.forall₂_cons.mp h
    rw [Tree.unplacedAll, Tree.unplacedAll, unplaced_eq t t' ht, unplacedAll_eq ts ts' hts]

end

end Syntax

namespace Layout

open Text Syntax

section Gaps

variable {count : Opening → LineCount} {line : List Char}

theorem intercalate_gap (k : Nat) (line : List Char) {lines : List (List Char)}
    (hne : lines ≠ []) : List.intercalate ['\n'] (line :: (List.replicate k [] ++ lines)) =
      line ++ '\n' :: (List.replicate k '\n' ++ List.intercalate ['\n'] lines) := by
  induction k generalizing line with
  | zero =>
    obtain ⟨first, rest, rfl⟩ := List.exists_cons_of_ne_nil hne
    exact intercalate_sep_cons_cons '\n' line first rest
  | succ k ih =>
    rw [List.replicate_succ, List.cons_append, intercalate_sep_cons_cons, ih]
    rfl

theorem intercalate_lastGap (k : Nat) (line : List Char) :
    List.intercalate ['\n'] (line :: List.replicate k []) = line ++ List.replicate k '\n' := by
  induction k generalizing line with
  | zero => rw [List.replicate_zero, List.intercalate_singleton, List.replicate_zero,
      List.append_nil]
  | succ k ih =>
    rw [List.replicate_succ, intercalate_sep_cons_cons, ih]
    rfl

/-- After the colon of a line that gets blank lines there are only blanks. -/
theorem exists_colon_of_gap (h : gap count line ≠ 0) :
    ∃ a b, line = a ++ ':' :: b ∧ b.all isBlank = true := by
  have hcolon : (trim line).getLast? = some ':' := by
    by_contra hne
    rw [gap, opening?, if_pos hne] at h
    exact h rfl
  obtain ⟨a, b, -, hb, hline⟩ := exists_trim line
  obtain ⟨start, hstart⟩ := List.getLast?_eq_some_iff.mp hcolon
  refine ⟨a ++ start, b, ?_, hb⟩
  rw [hline, hstart]
  simp

theorem getLast?_ne_of_gap (h : gap count line ≠ 0) {x : List Char}
    (hx : ∀ t, unifyNewlines (line ++ '\n' :: t) = x ++ '\n' :: unifyNewlines t) :
    x.getLast? ≠ some '\\' := by
  obtain ⟨a, b, rfl, hb⟩ := exists_colon_of_gap h
  obtain ⟨y, hy⟩ := exists_unifyNewlines_line b
  have hparts : x = unifyNewlines a ++ ':' :: y := by
    have hboth := hx []
    rw [List.append_assoc, unifyNewlines_append (by simp), List.cons_append,
      unifyNewlines_cons (by decide), hy] at hboth
    exact List.append_cancel_right (by simpa using hboth.symm)
  have hslash : '\\' ∉ y := by
    intro hmem
    have hunified : '\\' ∈ unifyNewlines (b ++ ['\n']) := by
      rw [hy]
      exact List.mem_append_left _ hmem
    rcases mem_unifyNewlines hunified with hb' | heq
    · rcases List.mem_append.mp hb' with hmem | hline
      · exact notMem_of_blank (by decide) hb hmem
      · simp at hline
    · cases heq
  rw [hparts, List.getLast?_append, List.getLast?_cons, Option.some_or, Ne, Option.some.injEq]
  cases hlast : y.getLast? with
  | none => decide
  | some c =>
    rintro rfl
    exact hslash (List.mem_of_getLast? hlast)

/-- The numbers of the lines after which blank lines are added, as a reader of the text counts
lines. `n` lines come before. -/
def gapLines (count : Opening → LineCount) (n : Nat) : List (List Char) → List Nat
  | [] => []
  | line :: lines =>
    let last := n + (unifyNewlines (line ++ ['\n'])).count '\n'
    if gap count line = 0 then gapLines count last lines else last :: gapLines count last lines

section Spaced

variable {P : Nat → Prop} {n : Nat} {s s' : List Char}

theorem spaced_line {k : Nat} (hk : k ≠ 0 → gap count line ≠ 0)
    (hP : gap count line ≠ 0 → P (n + (unifyNewlines (line ++ ['\n'])).count '\n'))
    (h : Spaced P (n + (unifyNewlines (line ++ ['\n'])).count '\n' + 1) (ended s) (ended s')) :
    Spaced P (n + 1) (ended (line ++ '\n' :: s))
      (ended (line ++ '\n' :: (List.replicate k '\n' ++ s'))) := by
  obtain ⟨x, hx⟩ := exists_unifyNewlines_line line
  have hcount : n + (unifyNewlines (line ++ ['\n'])).count '\n' = n + 1 + x.count '\n' := by
    rw [count_line hx]
    omega
  rw [hcount] at hP h
  rw [ended_line hx, ended_line hx, ended_replicate_append]
  cases k with
  | zero => exact h.line
  | succ k =>
    have hgap := hk k.succ_ne_zero
    exact .gap _ (getLast?_ne_of_gap hgap hx) (hP hgap) h

theorem spaced_last (hline : '\n' ∉ line)
    (hP : gap count line ≠ 0 → P (n + (unifyNewlines (line ++ ['\n'])).count '\n')) :
    Spaced P (n + 1) (ended line) (ended (line ++ List.replicate (gap count line) '\n')) := by
  cases hgap : gap count line with
  | zero =>
    rw [List.replicate_zero, List.append_nil]
    exact .same _ _
  | succ k =>
    have hgap' : gap count line ≠ 0 := by omega
    have hne : line ≠ [] := by
      rintro rfl
      exact hgap' gap_nil
    rw [ended_unended hne hline, List.replicate_succ, ← List.append_nil (List.replicate k _)]
    exact spaced_line (fun _ => hgap') hP (.same _ _)

/-- A text with all its gaps is spaced after the lines that get them. -/
theorem spaced_ended {lines : List (List Char)} (hne : lines ≠ [])
    (hlines : ∀ l ∈ lines, '\n' ∉ l) (hP : ∀ m ∈ gapLines count n lines, P m) :
    Spaced P (n + 1) (ended (List.intercalate ['\n'] lines))
      (ended (List.intercalate ['\n'] (lines.flatMap (lineAndGap count)))) := by
  induction lines generalizing n with
  | nil => exact absurd rfl hne
  | cons line lines ih =>
    obtain ⟨hline, hlines⟩ := List.forall_mem_cons.mp hlines
    have hfirst (hgap : gap count line ≠ 0) :
        P (n + (unifyNewlines (line ++ ['\n'])).count '\n') := by
      refine hP _ ?_
      rw [gapLines, if_neg hgap]
      exact List.mem_cons_self
    cases lines with
    | nil =>
      rw [List.flatMap_singleton, lineAndGap, intercalate_lastGap, List.intercalate_singleton]
      exact spaced_last hline hfirst
    | cons next lines =>
      have hmore : (next :: lines).flatMap (lineAndGap count) ≠ [] := by
        simp [lineAndGap]
      rw [List.flatMap_cons, lineAndGap, List.cons_append, intercalate_gap _ _ hmore,
        intercalate_sep_cons_cons]
      refine spaced_line id hfirst (ih (List.cons_ne_nil _ _) hlines fun m hm => hP m ?_)
      rw [gapLines]
      split
      · exact hm
      · exact List.mem_cons_of_mem _ hm

end Spaced

end Gaps

section Trees

variable {count : Opening → LineCount} {source : List Char}

theorem mem_spread {c : Char} (h : c ∈ spread count source) : c ∈ source ∨ c = '\n' := by
  rcases exists_of_mem_intercalate h with hline | ⟨l, hl, hc⟩
  · exact .inr (List.mem_singleton.mp hline)
  · obtain ⟨line, hline, hl⟩ := List.mem_flatMap.mp hl
    rcases List.mem_cons.mp hl with rfl | hblank
    · exact .inl (subset_of_mem_splitOn hline hc)
    · rw [List.eq_of_mem_replicate hblank] at hc
      cases hc

theorem eq_nil_of_spread (h : spread count source = []) : source = [] := by
  obtain ⟨line, lines, hlines⟩ := List.exists_cons_of_ne_nil (splitOn_ne_nil '\n' source)
  have hall : [[]] = (splitOn '\n' source).flatMap (lineAndGap count) := by
    rw [← splitOn_spread, h]
    rfl
  rw [hlines, List.flatMap_cons, lineAndGap, List.cons_append] at hall
  obtain ⟨hline, hmore⟩ := List.cons.inj hall
  have hnone : lines = [] := by
    cases lines with
    | nil => rfl
    | cons next lines => simp [lineAndGap] at hmore
  rw [← intercalate_splitOn '\n' source, hlines, ← hline, hnone]
  rfl

/-- Whether no string goes over the end of a line that gets blank lines. -/
def isUncut (count : Opening → LineCount) (source : List Char) : Bool :=
  (tokens source).all fun toks =>
    (gapLines count 0 (splitOn '\n' source)).all fun n => toks.all fun tok => !tok.goesOver n

theorem isUncut_iff {toks : List Token} (h : tokens source = some toks) :
    isUncut count source = true ↔ ∀ n ∈ gapLines count 0 (splitOn '\n' source), Uncut toks n := by
  simp [isUncut, h, Uncut]

/-- Then the tokens of the text with its gaps are the old ones. -/
theorem exists_tokens_spread [Dialect] {toks : List Token} (h : tokens source = some toks)
    (hne : source ≠ []) (huncut : isUncut count source = true) (F : Places) :
    ∃ toks', tokens (spread count source) = some toks' ∧
      List.Forall₂ (TokenLike .same F) toks toks' := by
  have hlines := (isUncut_iff h).mp huncut
  unfold tokens at h ⊢
  rw [Option.ite_none_left_eq_some] at h
  obtain ⟨hzero, h⟩ := h
  have hzero' : ¬ (spread count source).any (·.toNat == 0) = true := by
    simp only [List.any_eq_true, not_exists, not_and] at hzero ⊢
    intro c hc
    rcases mem_spread hc with hmem | rfl
    · exact hzero c hmem
    · decide
  rw [if_neg hzero']
  have hspaced : Spaced (Uncut toks) 1 (ended (List.intercalate ['\n'] (splitOn '\n' source)))
      (ended (spread count source)) :=
    spaced_ended (splitOn_ne_nil '\n' source) (fun _ => notMem_of_mem_splitOn) hlines
  rw [intercalate_splitOn, ended, if_neg hne, ended, if_neg (mt eq_nil_of_spread hne)] at hspaced
  exact exists_tokens_of_spaced h hspaced F

theorem apply_eq_some_iff {s : Settings} {text : List Char} :
    apply s source = .ok (some text) ↔
      s.blankLines = true ∧ addBlankLines s.afterClass s.afterFunction source = .ok text ∧
        text ≠ source := by
  unfold apply
  cases s.blankLines with
  | false => simp
  | true =>
    rw [if_neg (by simp), Except.bind_eq_ok]
    constructor
    · rintro ⟨text', htext, hsome⟩
      by_cases hsame : text' = source
      · rw [if_pos hsame] at hsome
        cases hsome
      · rw [if_neg hsame] at hsome
        cases hsome
        exact ⟨rfl, htext, hsame⟩
    · rintro ⟨-, htext, hne⟩
      exact ⟨text, htext, by rw [if_neg hne]; rfl⟩

/-- If no string goes over the end of a line that gets blank lines, then the new text is source code
with the same syntax tree, but for the places. -/
theorem exists_unplaced_tree_of_apply [Dialect] {s : Settings} {text : List Char} {t : Tree}
    (hsource : parse? source = some t) (h : apply s source = .ok (some text))
    (huncut : isUncut (countAfter s.afterClass s.afterFunction) source = true) :
    ∃ t', parse? text = some t' ∧ t'.unplaced = t.unplaced := by
  obtain ⟨-, htext, hchanged⟩ := apply_eq_some_iff.mp h
  obtain ⟨-, rfl⟩ := addBlankLines_eq_ok_iff.mp htext
  have hne : source ≠ [] := by
    rintro rfl
    exact hchanged rfl
  obtain ⟨toks, htoks⟩ : ∃ toks, tokens source = some toks := by
    rw [← Option.isSome_iff_exists, ← Option.ne_none_iff_isSome]
    intro hnone
    rw [parse?, hnone] at hsource
    cases hsource
  obtain ⟨toks', htoks', halike⟩ := exists_tokens_spread htoks hne huncut .none
  have htrees := rel_parse? htoks htoks' halike (standalone_none toks)
  rw [hsource] at htrees
  generalize parse? (spread _ source) = x at htrees ⊢
  cases htrees with
  | some htree => exact ⟨_, rfl, unplaced_eq _ _ htree⟩

end Trees

def lineSettings : Settings := (lineConfig (.int 2) (.int 1)).settings

def methodText : List Char :=
  "class A:\n    def f(self): # it's:\n        return \"\"\"\ndef g(): pass\n\"\"\"\n".toList

theorem exists_unplaced_tree_of_apply_sample :
    ∃ t text, parse? methodText = some t ∧ apply lineSettings methodText = .ok (some text) ∧
      isUncut (countAfter lineSettings.afterClass lineSettings.afterFunction) methodText = true ∧
      ∃ t', parse? text = some t' ∧ t'.unplaced = t.unplaced := by
  have huncut : isUncut (countAfter lineSettings.afterClass lineSettings.afterFunction)
      methodText = true := by
    decide +kernel
  obtain ⟨t, ht⟩ := Option.isSome_iff_exists.mp
    (show (parse? methodText).isSome = true by decide +kernel)
  have happly : (apply lineSettings methodText).toOption.any Option.isSome = true := by
    decide +kernel
  obtain ⟨result, hresult, hsome⟩ := exists_ok_of_any happly
  obtain ⟨text, rfl⟩ := Option.isSome_iff_exists.mp hsome
  exact ⟨t, text, ht, hresult, huncut, exists_unplaced_tree_of_apply ht hresult huncut⟩

def quotedFunction : List Char := "x = \"\"\"\ndef f():\n\"\"\"\n".toList

/-- The string gets a blank line. -/
theorem quotedFunction_changes :
    ∃ t text t', parse? quotedFunction = some t ∧
      apply lineSettings quotedFunction = .ok (some text) ∧ parse? text = some t' ∧
      t'.unplaced ≠ t.unplaced := by
  let text : List Char := "x = \"\"\"\ndef f():\n\n\"\"\"\n".toList
  have happly : apply lineSettings quotedFunction = .ok (some text) := by
    obtain ⟨result, hresult, hsame⟩ := exists_ok_of_any
      (show (apply lineSettings quotedFunction).toOption.any (· == some text) = true by
        decide +kernel)
    rw [hresult, beq_iff_eq.mp hsame]
  obtain ⟨t, ht⟩ := Option.isSome_iff_exists.mp
    (show (parse? quotedFunction).isSome = true by decide +kernel)
  obtain ⟨t', ht'⟩ := Option.isSome_iff_exists.mp
    (show (parse? text).isSome = true by decide +kernel)
  refine ⟨t, text, t', ht, happly, ht', fun hsame => ?_⟩
  have hlabels : (parse? text).map (·.unplaced.preorder.map Tree.label) ≠
      (parse? quotedFunction).map (·.unplaced.preorder.map Tree.label) := by
    decide +kernel
  rw [ht, ht', Option.map_some, Option.map_some, hsame] at hlabels
  exact hlabels rfl

end Layout

end Restyle
