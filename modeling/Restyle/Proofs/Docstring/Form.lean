import Restyle.Docstring.Format
import Restyle.Proofs.Text.Blanks

/-!
What formatting does to the text of a docstring. At most one line changes: the blanks around it go,
its first letter becomes a capital and a period is put at its end. So no character comes in that
means something in a literal, and three quotes in a row stand in the new text only if they did so in
the old one.
-/

namespace Restyle.Docstring

open Text

/-! ### The line that changes -/

theorem joinLines_splitOn (s : List Char) : joinLines (splitOn '\n' s) = s :=
  intercalate_splitOn '\n' s

theorem joinLines_around (before after : List (List Char)) :
    ∃ a b, (a = [] ∨ ∃ a', a = a' ++ ['\n']) ∧
      ∀ line, joinLines (before ++ line :: after) = a ++ line ++ b := by
  induction before with
  | nil =>
    cases after with
    | nil => exact ⟨[], [], .inl rfl, by simp⟩
    | cons m ms => exact ⟨[], '\n' :: joinLines (m :: ms), .inl rfl, by simp⟩
  | cons first before ih =>
    obtain ⟨a, b, ha, haround⟩ := ih
    refine ⟨first ++ '\n' :: a, b, .inr ?_, fun line => ?_⟩
    · rcases ha with rfl | ⟨a', rfl⟩
      · exact ⟨first, rfl⟩
      · exact ⟨first ++ '\n' :: a', by simp⟩
    · have hrest := haround line
      cases before with
      | nil => simp_all
      | cons m ms => simp_all

theorem formatSummary_cases (ls : List (List Char)) :
    formatSummary ls = ls ∨ ∃ before line after, ls = before ++ line :: after ∧
      formatSummary ls = before ++ sentence (trim line) :: after := by
  induction ls with
  | nil => exact .inl rfl
  | cons line rest ih =>
    unfold formatSummary
    split
    · rcases ih with hsame | ⟨before, summary, after, hrest, hformat⟩
      · exact .inl (congrArg (line :: ·) hsame)
      · exact .inr ⟨line :: before, summary, after, congrArg (line :: ·) hrest,
          congrArg (line :: ·) hformat⟩
    split
    · exact .inl rfl
    · exact .inr ⟨[], line, rest, rfl, rfl⟩

/-- What formatting does: nothing, or one line gets its form. -/
theorem format_cases (s : List Char) :
    format s = s ∨ ∃ a line b, (a = [] ∨ ∃ a', a = a' ++ ['\n']) ∧ s = a ++ line ++ b ∧
      format s = a ++ sentence (trim line) ++ b := by
  unfold format
  split
  · exact .inl rfl
  split
  · unfold formatSingle
    dsimp only
    split
    · exact .inl rfl
    · exact .inr ⟨[], s, [], .inl rfl, by simp, by simp⟩
  · unfold formatMulti
    have hjoin := joinLines_splitOn s
    rcases formatSummary_cases (splitOn '\n' s) with hsame | ⟨before, line, after, hlines, hformat⟩
    · exact .inl (by rw [hsame, hjoin])
    · obtain ⟨a, b, ha, haround⟩ := joinLines_around before after
      refine .inr ⟨a, line, b, ha, ?_, ?_⟩
      · rw [← haround, ← hlines, hjoin]
      · rw [hformat, haround]

/-! ### Characters -/

/-- The first character stays, or characters of names take its place. -/
theorem initialCapital_cases (s : List Char) :
    initialCapital s = s ∨ ∃ c rest capital, s = c :: rest ∧ NameChars capital ∧
      initialCapital s = capital ++ rest := by
  cases s with
  | nil => exact .inl rfl
  | cons c rest =>
    rw [initialCapital]
    split
    case isTrue hlower =>
      exact .inr ⟨c, rest, upperChar c, rfl,
        nameChars_upperChar (mayBeNameChar_of_isLower hlower), rfl⟩
    case isFalse => exact .inl rfl

theorem sentence_cases (s : List Char) :
    sentence s = [] ∨ ∃ body, sentence s = body ++ ['.'] ∧ body <+: initialCapital s := by
  unfold sentence
  dsimp only
  split
  case isTrue h =>
    rcases h with hempty | hlast
    · exact .inl (List.isEmpty_iff.mp hempty)
    · obtain ⟨body, hbody⟩ := List.getLast?_eq_some_iff.mp hlast
      exact .inr ⟨body, hbody, hbody ▸ List.prefix_append body _⟩
  case isFalse => exact .inr ⟨_, rfl, List.prefix_rfl⟩

theorem forall_mem_format {P : Char → Prop} (hperiod : P '.')
    (hname : ∀ c, mayBeNameChar c = true → P c) {s : List Char} (h : ∀ c ∈ s, P c) :
    ∀ c ∈ format s, P c := by
  have hcapital {s : List Char} (h : ∀ c ∈ s, P c) : ∀ c ∈ initialCapital s, P c := by
    rcases initialCapital_cases s with hsame | ⟨c, rest, capital, rfl, hchars, hcapital⟩
    · rwa [hsame]
    · rw [hcapital, List.forall_mem_append]
      exact ⟨fun d hd => hname d (hchars d hd), (List.forall_mem_cons.mp h).2⟩
  have hsentence {s : List Char} (h : ∀ c ∈ s, P c) : ∀ c ∈ sentence s, P c := by
    rcases sentence_cases s with hempty | ⟨body, hbody, hstarts⟩
    · rw [hempty]
      nofun
    · rw [hbody, List.forall_mem_append]
      exact ⟨fun c hc => hcapital h c (hstarts.subset hc), by simpa using hperiod⟩
  rcases format_cases s with hsame | ⟨a, line, b, -, rfl, hformat⟩
  · rwa [hsame]
  · rw [hformat]
    simp only [List.forall_mem_append] at h ⊢
    exact ⟨⟨h.1.1, hsentence fun c hc => h.1.2 c ((isInfix_trim line).subset hc)⟩, h.2⟩

/-! ### Three quotes in a row -/

section Triple

variable {q : Char}

theorem triple_infix_cons {c : Char} (hc : c ≠ q) {s : List Char} :
    [q, q, q] <:+: c :: s ↔ [q, q, q] <:+: s := by
  rw [List.infix_cons_iff, List.cons_prefix_cons]
  simp [hc.symm]

theorem triple_infix_append {x : List Char} (hx : q ∉ x) {s : List Char} :
    [q, q, q] <:+: x ++ s ↔ [q, q, q] <:+: s := by
  induction x with
  | nil => rfl
  | cons c x ih =>
    rw [List.mem_cons, not_or] at hx
    rw [List.cons_append, triple_infix_cons (Ne.symm hx.1), ih hx.2]

/-- Another character parts the text in two. -/
theorem triple_infix_append_cons {c : Char} (hc : c ≠ q) (x y : List Char) :
    [q, q, q] <:+: x ++ c :: y ↔ [q, q, q] <:+: x ∨ [q, q, q] <:+: y := by
  induction x with
  | nil => simp [triple_infix_cons hc]
  | cons a x ih =>
    have hstarts : [q, q, q] <+: a :: (x ++ c :: y) ↔ [q, q, q] <+: a :: x := by
      match x with
      | [] => simp [List.cons_prefix_cons, hc.symm]
      | [b] => simp [List.cons_prefix_cons, hc.symm]
      | b :: d :: x => simp [List.cons_prefix_cons]
    rw [List.cons_append, List.infix_cons_iff, List.infix_cons_iff, hstarts, ih, or_assoc]

/-- The text in form brings no three quotes in a row, whatever follows it. -/
theorem not_triple_format (hname : mayBeNameChar q = false) (hperiod : '.' ≠ q) (hline : '\n' ≠ q)
    {s rest : List Char} (h : ¬ [q, q, q] <:+: s ++ rest) :
    ¬ [q, q, q] <:+: format s ++ rest := by
  have hcapital {s : List Char} (h : ¬ [q, q, q] <:+: s) : ¬ [q, q, q] <:+: initialCapital s := by
    rcases initialCapital_cases s with hsame | ⟨c, t, capital, rfl, hchars, hcapital⟩
    · rwa [hsame]
    · have hfree : q ∉ capital := fun hq => by
        rw [hchars q hq] at hname
        cases hname
      rw [hcapital, triple_infix_append hfree]
      exact fun ht => h (ht.trans (List.suffix_cons c t).isInfix)
  have hsentence {s t : List Char} (hs : ¬ [q, q, q] <:+: s) (ht : ¬ [q, q, q] <:+: t) :
      ¬ [q, q, q] <:+: sentence s ++ t := by
    rcases sentence_cases s with hempty | ⟨body, hbody, hstarts⟩
    · rwa [hempty]
    · rw [hbody, List.append_assoc, List.singleton_append, triple_infix_append_cons hperiod, not_or]
      exact ⟨fun hinside => hcapital hs (hinside.trans hstarts.isInfix), ht⟩
  rcases format_cases s with hsame | ⟨a, line, b, ha, rfl, hformat⟩
  · rwa [hsame]
  · -- the parts of the text that stay, and the line
    have hold : a ++ line ++ b ++ rest = a ++ (line ++ (b ++ rest)) := by simp
    rw [hold] at h
    have htrim : ¬ [q, q, q] <:+: trim line := fun hinside =>
      h (((hinside.trans (isInfix_trim line)).trans (List.prefix_append line _).isInfix).trans
        (List.suffix_append a _).isInfix)
    have hrest : ¬ [q, q, q] <:+: b ++ rest := fun hinside =>
      h ((hinside.trans (List.suffix_append line _).isInfix).trans (List.suffix_append a _).isInfix)
    have hnew := hsentence htrim hrest
    rw [hformat, List.append_assoc, List.append_assoc]
    rcases ha with rfl | ⟨a', rfl⟩
    · exact hnew
    · rw [List.append_assoc, List.singleton_append, triple_infix_append_cons hline, not_or]
      refine ⟨fun hinside => h ?_, hnew⟩
      rw [List.append_assoc]
      exact hinside.trans (List.prefix_append a' _).isInfix

end Triple

end Restyle.Docstring
