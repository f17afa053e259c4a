import Restyle.Proofs.Docstring.Form

/-!
Docstrings that are formatted twice. A summary in form has no blanks around it, starts with a
character that is its own capital and ends with a period, so it keeps this form, also if its capital
has made it a section header. A docstring of one line stays one line. In a longer one the lines stay
apart, and all but the summary stay as they are. So formatting a second time changes nothing.
-/

namespace Restyle.Docstring

open Text

variable {s : List Char}

theorem isBlankLine_iff : isBlankLine s = true ↔ ∀ c ∈ s, isBlank c = true := by
  rw [isBlankLine, List.isEmpty_iff]
  constructor
  · intro hnil
    obtain ⟨a, b, ha, hb, hs⟩ := exists_trim s
    rw [hs, hnil, List.append_nil, List.forall_mem_append]
    exact ⟨List.all_eq_true.mp ha, List.all_eq_true.mp hb⟩
  · intro hall
    rw [trim, trimLeft_of_all (List.all_eq_true.mpr hall)]
    rfl

/-! ### Sentences -/

/-- The first character becomes one that is no blank and its own capital. -/
theorem exists_initialCapital {c : Char} (hc : isBlank c = false) (s : List Char) :
    ∃ d t, initialCapital (c :: s) = d :: t ∧ isBlank d = false ∧
      ∀ u, initialCapital (d :: u) = d :: u := by
  cases hlower : isLower [c] with
  | false =>
    have hsame (u : List Char) : initialCapital (c :: u) = c :: u := by
      rw [initialCapital, hlower, if_neg Bool.false_ne_true]
    exact ⟨c, s, hsame s, hc, hsame⟩
  | true =>
    obtain ⟨d, capitals, hupper⟩ := List.exists_cons_of_ne_nil (upperChar_ne_nil c)
    obtain ⟨hsame, hblank⟩ := upperChar_of_mem (c := c) (hupper ▸ List.mem_cons_self)
    refine ⟨d, capitals ++ s, ?_, hblank hc, fun u => ?_⟩
    · rw [initialCapital, hlower, if_pos rfl, hupper, List.cons_append]
    · rw [initialCapital, hsame, List.singleton_append, ite_self]

structure InForm (s : List Char) : Prop where
  tight : Tight s
  capital : initialCapital s = s
  period : s.getLast? = some '.'

theorem InForm.sentence_eq (h : InForm s) : sentence s = s := by
  unfold sentence
  dsimp only
  rw [h.capital, if_pos (.inr h.period)]

theorem inForm_sentence (h : Tight s) (hne : s ≠ []) : InForm (sentence s) := by
  obtain ⟨c, s, rfl⟩ := List.exists_cons_of_ne_nil hne
  obtain ⟨d, t, hcapital, hblank, hstays⟩ := exists_initialCapital (h.head c rfl) s
  obtain ⟨u, hsentence, hlast⟩ :
      ∃ u, sentence (c :: s) = d :: u ∧ (d :: u).getLast? = some '.' := by
    unfold sentence
    dsimp only
    rw [hcapital]
    split
    case isTrue hready => exact ⟨t, rfl, hready.resolve_left (by simp)⟩
    case isFalse => exact ⟨t ++ ['.'], rfl, by rw [← List.cons_append, List.getLast?_concat]⟩
  rw [hsentence]
  refine ⟨⟨?_, ?_⟩, hstays u, hlast⟩
  · simpa using hblank
  · rw [hlast]
    simp only [Option.mem_def, Option.some.injEq, forall_eq']
    decide

theorem newline_notMem_sentence (h : '\n' ∉ s) : '\n' ∉ sentence s := by
  have hcapital : '\n' ∉ initialCapital s := by
    rcases initialCapital_cases s with hsame | ⟨c, rest, capital, rfl, hchars, hcapital⟩
    · rwa [hsame]
    · rw [hcapital, List.mem_append, not_or]
      refine ⟨fun hmem => ?_, fun hmem => h (List.mem_cons_of_mem c hmem)⟩
      cases hchars '\n' hmem
  rcases sentence_cases s with hempty | ⟨body, hbody, hstarts⟩
  · simp [hempty]
  · rw [hbody, List.mem_append, not_or]
    exact ⟨fun hmem => hcapital (hstarts.subset hmem), by decide⟩

/-! ### The summary among the lines -/

def summary (line : List Char) : List Char :=
  if isSectionHeader line then line else sentence (trim line)

theorem formatSummary_append {before : List (List Char)} {line : List Char}
    (hbefore : ∀ l ∈ before, isBlankLine l = true) (hline : isBlankLine line = false)
    (after : List (List Char)) :
    formatSummary (before ++ line :: after) = before ++ summary line :: after := by
  induction before with
  | nil =>
    rw [List.nil_append, formatSummary, hline, if_neg Bool.false_ne_true, summary]
    split <;> rfl
  | cons first before ih =>
    obtain ⟨hfirst, hrest⟩ := List.forall_mem_cons.mp hbefore
    rw [List.cons_append, formatSummary, if_pos hfirst, ih hrest, List.cons_append]

section Summary

variable {line : List Char}

theorem inForm_of_line (h : isBlankLine line = false) : InForm (sentence (trim line)) := by
  refine inForm_sentence (tight_trim line) fun hnil => ?_
  rw [isBlankLine, hnil] at h
  cases h

theorem InForm.isBlankLine_eq (h : InForm s) : isBlankLine s = false := by
  rw [← Bool.not_eq_true, isBlankLine_iff]
  intro hall
  cases hall '.' (List.mem_of_getLast? h.period)

theorem isBlankLine_summary (h : isBlankLine line = false) :
    isBlankLine (summary line) = false := by
  unfold summary
  split
  · exact h
  · exact (inForm_of_line h).isBlankLine_eq

theorem summary_summary (h : isBlankLine line = false) :
    summary (summary line) = summary line := by
  by_cases hheader : isSectionHeader line = true
  · have hsummary : summary line = line := if_pos hheader
    rw [hsummary, hsummary]
  · -- the sentence may be a section header now, and stays for that reason
    have hform := inForm_of_line h
    have hsummary : summary line = sentence (trim line) := if_neg hheader
    rw [hsummary, summary, trim_eq_self hform.tight, hform.sentence_eq, ite_self]

theorem newline_notMem_summary (h : '\n' ∉ line) : '\n' ∉ summary line := by
  unfold summary
  split
  · exact h
  · exact newline_notMem_sentence fun hmem => h ((isInfix_trim line).subset hmem)

end Summary

/-! ### Lines -/

def contentLines (s : List Char) : List (List Char) := (splitOn '\n' s).filter (!isBlankLine ·)

theorem format_eq (s : List Char) :
    format s = if isBlankLine s then s
      else if (contentLines s).length ≤ 1 then formatSingle s else formatMulti s :=
  rfl

theorem splitOn_joinLines {ls : List (List Char)} (hne : ls ≠ []) (h : ∀ l ∈ ls, '\n' ∉ l) :
    splitOn '\n' (joinLines ls) = ls :=
  splitOn_intercalate hne h

theorem isBlank_of_mem_joinLines {ls : List (List Char)} (h : ∀ l ∈ ls, isBlankLine l = true) :
    ∀ c ∈ joinLines ls, isBlank c = true := by
  intro c hc
  rcases exists_of_mem_intercalate hc with hnewline | ⟨l, hl, hmem⟩
  · rw [List.mem_singleton.mp hnewline]
    decide
  · exact isBlankLine_iff.mp (h l hl) c hmem

theorem isBlankLine_of_contentLines (h : contentLines s ≠ []) : isBlankLine s = false := by
  rw [← Bool.not_eq_true]
  intro hblank
  refine h (List.filter_eq_nil_iff.mpr fun l hl => ?_)
  have hline : isBlankLine l = true := isBlankLine_iff.mpr fun c hc =>
    isBlankLine_iff.mp hblank c (subset_of_mem_splitOn hl hc)
  simp [hline]

theorem exists_first_content (h : isBlankLine s = false) :
    ∃ before line after, splitOn '\n' s = before ++ line :: after ∧
      (∀ l ∈ before, isBlankLine l = true) ∧ isBlankLine line = false := by
  cases hfind : (splitOn '\n' s).find? (!isBlankLine ·) with
  | none =>
    have hall : ∀ l ∈ splitOn '\n' s, isBlankLine l = true := by
      simpa using List.find?_eq_none.mp hfind
    have hblank := isBlank_of_mem_joinLines hall
    rw [joinLines_splitOn, ← isBlankLine_iff, h] at hblank
    cases hblank
  | some line =>
    obtain ⟨hline, before, after, hlines, hbefore⟩ := List.find?_eq_some_iff_append.mp hfind
    exact ⟨before, line, after, hlines, by simpa using hbefore, by simpa using hline⟩

section Lines

variable {before after : List (List Char)} {line : List Char}
  (hlines : splitOn '\n' s = before ++ line :: after)
  (hbefore : ∀ l ∈ before, isBlankLine l = true)

include hlines hbefore

theorem contentLines_eq (hline : isBlankLine line = false) :
    contentLines s = line :: after.filter (!isBlankLine ·) := by
  have hnone : before.filter (!isBlankLine ·) = [] :=
    List.filter_eq_nil_iff.mpr fun l hl => by simp [hbefore l hl]
  rw [contentLines, hlines, List.filter_append, hnone, List.nil_append,
    List.filter_cons_of_pos (by simp [hline])]

/-- If no other line has content, trimming leaves this one. -/
theorem trim_eq_trim_line (hafter : ∀ l ∈ after, isBlankLine l = true) :
    trim s = trim line := by
  obtain ⟨a, b, -, haround⟩ := joinLines_around before after
  have hblank : ∀ c ∈ a ++ b, isBlank c = true := by
    have hempty := haround []
    rw [List.append_nil] at hempty
    rw [← hempty]
    refine isBlank_of_mem_joinLines fun l hl => ?_
    rcases List.mem_append.mp hl with hl | hl
    · exact hbefore l hl
    · rcases List.mem_cons.mp hl with rfl | hl
      · rfl
      · exact hafter l hl
  rw [List.forall_mem_append] at hblank
  rw [← joinLines_splitOn s, hlines, haround,
    trim_append_append (List.all_eq_true.mpr hblank.1) (List.all_eq_true.mpr hblank.2)]

theorem splitOn_format (hline : isBlankLine line = false) (h : 2 ≤ (contentLines s).length) :
    splitOn '\n' (format s) = before ++ summary line :: after := by
  have hcontent : isBlankLine s = false :=
    isBlankLine_of_contentLines fun hnil => by simp [hnil] at h
  have hformat : format s = joinLines (before ++ summary line :: after) := by
    rw [format_eq, hcontent, if_neg Bool.false_ne_true, if_neg (Nat.not_le.mpr h), formatMulti,
      hlines, formatSummary_append hbefore hline]
  have hnewline : ∀ l ∈ before ++ line :: after, '\n' ∉ l := fun l hl =>
    notMem_of_mem_splitOn (hlines ▸ hl)
  rw [hformat, splitOn_joinLines (by simp)]
  simp only [List.forall_mem_append, List.forall_mem_cons] at hnewline ⊢
  exact ⟨hnewline.1, newline_notMem_summary hnewline.2.1, hnewline.2.2⟩

end Lines

/-! ### Formatting again -/

theorem format_single (hblank : isBlankLine s = false) (h : (contentLines s).length ≤ 1) :
    format s = sentence (trim s) := by
  have hcontent : (trim s).isEmpty = false := hblank
  rw [format_eq, hblank, if_neg Bool.false_ne_true, if_pos h, formatSingle, hcontent,
    if_neg Bool.false_ne_true]

theorem newline_notMem_trim (hblank : isBlankLine s = false) (h : (contentLines s).length ≤ 1) :
    '\n' ∉ trim s := by
  obtain ⟨before, line, after, hlines, hbefore, hline⟩ := exists_first_content hblank
  have hafter : ∀ l ∈ after, isBlankLine l = true := by
    rw [contentLines_eq hlines hbefore hline, List.length_cons] at h
    have hnone : after.filter (!isBlankLine ·) = [] := List.length_eq_zero_iff.mp (by omega)
    simpa using List.filter_eq_nil_iff.mp hnone
  rw [trim_eq_trim_line hlines hbefore hafter]
  have hnewline : '\n' ∉ line := notMem_of_mem_splitOn (hlines ▸ List.mem_append_right _ (by simp))
  exact fun hmem => hnewline ((isInfix_trim line).subset hmem)

theorem format_of_inForm (h : InForm s) (hline : '\n' ∉ s) : format s = s := by
  have hcount : (contentLines s).length ≤ 1 := by
    rw [contentLines, splitOn_of_notMem hline]
    exact List.length_filter_le _ _
  rw [format_single h.isBlankLine_eq hcount, trim_eq_self h.tight, h.sentence_eq]

theorem format_format (s : List Char) : format (format s) = format s := by
  cases hblank : isBlankLine s with
  | true =>
    have hsame : format s = s := by rw [format, if_pos hblank]
    rw [hsame, hsame]
  | false =>
    by_cases hcount : (contentLines s).length ≤ 1
    · rw [format_single hblank hcount]
      exact format_of_inForm (inForm_of_line hblank)
        (newline_notMem_sentence (newline_notMem_trim hblank hcount))
    · have hmany : 2 ≤ (contentLines s).length := by omega
      obtain ⟨before, line, after, hlines, hbefore, hline⟩ := exists_first_content hblank
      have honce := splitOn_format hlines hbefore hline hmany
      have hsummary := isBlankLine_summary hline
      have hagain : 2 ≤ (contentLines (format s)).length := by
        rw [contentLines_eq hlines hbefore hline] at hmany
        rw [contentLines_eq honce hbefore hsummary]
        exact hmany
      have htwice := splitOn_format honce hbefore hsummary hagain
      rw [summary_summary hline, ← honce] at htwice
      rw [← joinLines_splitOn (format (format s)), htwice, joinLines_splitOn]

/-- Formatting a docstring a second time changes nothing. If it has two lines or more that are not
blank, it keeps its lines but for the first of these, which ends with a period then, or stays if it
is a section header. -/
theorem format_settles (s : List Char) :
    format (format s) = format s ∧
      (2 ≤ (contentLines s).length → ∃ before line after new,
        splitOn '\n' s = before ++ line :: after ∧
          (∀ l ∈ before, isBlankLine l = true) ∧ isBlankLine line = false ∧
          splitOn '\n' (format s) = before ++ new :: after ∧
          (isSectionHeader line = true ∧ new = line ∨
            isSectionHeader line = false ∧ new.getLast? = some '.')) := by
  refine ⟨format_format s, fun h => ?_⟩
  have hcontent : isBlankLine s = false :=
    isBlankLine_of_contentLines fun hnil => by simp [hnil] at h
  obtain ⟨before, line, after, hlines, hbefore, hline⟩ := exists_first_content hcontent
  refine ⟨before, line, after, summary line, hlines, hbefore, hline,
    splitOn_format hlines hbefore hline h, ?_⟩
  cases hheader : isSectionHeader line with
  | true => exact .inl ⟨rfl, if_pos hheader⟩
  | false =>
    have hsummary : summary line = sentence (trim line) := if_neg (by simp [hheader])
    exact .inr ⟨rfl, hsummary ▸ (inForm_of_line hline).period⟩

/-- Its capital makes this summary a section header. -/
theorem format_settles_sample :
    2 ≤ (contentLines "\n  yields: rows\n\n  Args: x\n".toList).length ∧
      format "\n  yields: rows\n\n  Args: x\n".toList = "\nYields: rows.\n\n  Args: x\n".toList ∧
      format "\nYields: rows.\n\n  Args: x\n".toList = "\nYields: rows.\n\n  Args: x\n".toList ∧
      ∃ before new after,
        splitOn '\n' "\nYields: rows.\n\n  Args: x\n".toList = before ++ new :: after ∧
          (isSectionHeader new = true ∨ new.getLast? = some '.') := by
  have hmany : 2 ≤ (contentLines "\n  yields: rows\n\n  Args: x\n".toList).length := by
    decide +kernel
  have hformat : format "\n  yields: rows\n\n  Args: x\n".toList =
      "\nYields: rows.\n\n  Args: x\n".toList := by
    decide +kernel
  obtain ⟨hagain, hlines⟩ := format_settles "\n  yields: rows\n\n  Args: x\n".toList
  obtain ⟨before, line, after, new, -, -, -, hnew, hsummary⟩ := hlines hmany
  rw [hformat] at hagain hnew
  refine ⟨hmany, hformat, hagain, before, new, after, hnew, ?_⟩
  rcases hsummary with ⟨hheader, rfl⟩ | ⟨-, hperiod⟩
  · exact .inl hheader
  · exact .inr hperiod

end Restyle.Docstring
