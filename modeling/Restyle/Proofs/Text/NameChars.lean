import Restyle.Proofs.Lists
import Restyle.Proofs.Text.Splitting
import Restyle.Text.Case
import Restyle.Text.Normal

/-!
The characters of names: letters, digits, underscores and all characters beyond ASCII. The tables of
characters lead from such characters to such characters, so another case and the normal form of a
text have only such characters if the text has. A normal form is empty only if the text is.
-/

namespace Restyle.Text

variable {n : Nat} {c : Char} {word : List Char}

def NameChars (s : List Char) : Prop := ∀ c ∈ s, mayBeNameChar c = true

namespace NameChars

variable {s t : List Char}

@[simp] theorem nil : NameChars [] := nofun

@[simp] theorem cons_iff : NameChars (c :: s) ↔ mayBeNameChar c = true ∧ NameChars s :=
  List.forall_mem_cons

@[simp] theorem append_iff : NameChars (s ++ t) ↔ NameChars s ∧ NameChars t :=
  List.forall_mem_append

theorem subset (h : NameChars t) (hst : s ⊆ t) : NameChars s := fun c hc => h c (hst hc)

theorem flatMap {α : Type} {l : List α} {f : α → List Char} (h : ∀ a ∈ l, NameChars (f a)) :
    NameChars (l.flatMap f) := by
  intro c hc
  obtain ⟨a, ha, hca⟩ := List.mem_flatMap.mp hc
  exact h a ha c hca

end NameChars

theorem mayBeNameChar_of_le (h : 128 ≤ c.toNat) : mayBeNameChar c = true := by
  simp [mayBeNameChar, h]

theorem forall_ascii {P : Char → Prop} (h : ∀ n < 128, P (Char.ofNat n)) (hc : c.toNat < 128) :
    P c := by
  have hchar := h c.toNat hc
  rwa [Char.ofNat_toNat] at hchar

/-! ### Tables -/

theorem MapRun.mayBeNameChar_get {r : MapRun} (h : r.isNaming = true)
    (hn : r.run.contains n = true) : mayBeNameChar (r.get n) = true := by
  have hbounds : r.run.first ≤ n ∧ n ≤ r.run.last := by
    simp only [CodeRun.contains, Bool.and_eq_true, decide_eq_true_eq] at hn
    exact hn.1
  have hall := List.all_eq_true.mp h (n - r.run.first) (List.mem_range.mpr (by omega))
  rw [Nat.add_sub_cancel' hbounds.1] at hall
  exact of_decide_eq_true hall hn

theorem CodeMap.mayBeNameChar_get? {m : CodeMap} {d : Char} (h : m.get? c = some d) :
    mayBeNameChar d = true := by
  obtain ⟨r, hfind, rfl⟩ := Option.map_eq_some_iff.mp h
  exact r.mayBeNameChar_get (m.naming r (List.mem_of_find?_eq_some hfind))
    (by simpa using List.find?_some hfind)

theorem CodeWord.isNaming_iff {w : CodeWord} :
    w.isNaming = true ↔ mayBeNameChar (Char.ofNat w.code) = true ∧ NameChars w.word := by
  simp [isNaming, NameChars]

theorem CodeWords.nameChars_get? {m : CodeWords} (h : m.get? c = some word) : NameChars word := by
  obtain ⟨w, hfind, rfl⟩ := Option.map_eq_some_iff.mp h
  exact (CodeWord.isNaming_iff.mp (m.naming w (List.mem_of_find?_eq_some hfind))).2

/-- The words that are read from the lines of a table are not empty. -/
theorem CodeWords.ne_nil_of_get?_read {lines : List String}
    (h : (CodeWords.read lines).get? c = some word) : word ≠ [] := by
  obtain ⟨w, hfind, rfl⟩ := Option.map_eq_some_iff.mp h
  obtain ⟨entry, -, hread⟩ :=
    List.mem_filterMap.mp (List.mem_filter.mp (List.mem_of_find?_eq_some hfind)).1
  unfold CodeWord.read? at hread
  split at hread
  case h_1 code image hentry =>
    cases hread
    exact mt List.map_eq_nil_iff.mp (splitOn_ne_nil '+' image)
  case h_2 => cases hread

/-! ### Case -/

theorem nameChars_mapped (m : CodeMap) (ws : CodeWords) (hc : mayBeNameChar c = true) :
    NameChars (mapped m ws c) := by
  unfold mapped
  split
  case h_1 d hd => simpa using m.mayBeNameChar_get? hd
  case h_2 =>
    cases hword : ws.get? c with
    | none => simpa using hc
    | some word => exact ws.nameChars_get? hword

theorem nameChars_lowerChar (hc : mayBeNameChar c = true) : NameChars (lowerChar c) := by
  unfold lowerChar
  split
  case isTrue hascii =>
    have hlower : mayBeNameChar c = true → mayBeNameChar c.toLower = true :=
      forall_ascii (P := fun c => mayBeNameChar c = true → mayBeNameChar c.toLower = true)
        (by decide +kernel) (of_decide_eq_true hascii)
    simpa using hlower hc
  case isFalse => exact nameChars_mapped _ _ hc

theorem mayBeNameChar_toUpper (hascii : isAscii c = true) (hc : mayBeNameChar c = true) :
    mayBeNameChar c.toUpper = true :=
  forall_ascii (P := fun c => mayBeNameChar c = true → mayBeNameChar c.toUpper = true)
    (by decide +kernel) (of_decide_eq_true hascii) hc

theorem nameChars_upperChar (hc : mayBeNameChar c = true) : NameChars (upperChar c) := by
  unfold upperChar
  split
  case isTrue hascii => simpa using mayBeNameChar_toUpper hascii hc
  case isFalse => exact nameChars_mapped _ _ hc

theorem nameChars_titleChar (hc : mayBeNameChar c = true) : NameChars (titleChar c) := by
  unfold titleChar
  split
  case isTrue hascii => simpa using mayBeNameChar_toUpper hascii hc
  case isFalse => exact nameChars_mapped _ _ hc

theorem mayBeNameChar_of_isLower {c : Char} (h : isLower [c] = true) : mayBeNameChar c = true := by
  by_cases hascii : c.toNat < 128
  · exact forall_ascii (P := fun c => isLower [c] = true → mayBeNameChar c = true)
      (by decide +kernel) hascii h
  · exact mayBeNameChar_of_le (by omega)

/-- Kinds of characters that other cases do not lead out of. -/
structure CaseClosed (kind : Char → Bool) : Prop where
  lower : ∀ c, kind c = true → ∀ d ∈ lowerChar c, kind d = true
  upper : ∀ c, kind c = true → ∀ d ∈ upperChar c, kind d = true
  title : ∀ c, kind c = true → ∀ d ∈ titleChar c, kind d = true
  sigmas : kind 'σ' = true ∧ kind 'ς' = true
  underscore : kind '_' = true

theorem caseClosed_mayBeNameChar : CaseClosed mayBeNameChar where
  lower _ := nameChars_lowerChar
  upper _ := nameChars_upperChar
  title _ := nameChars_titleChar
  sigmas := by decide
  underscore := by decide

namespace CaseClosed

variable {kind : Char → Bool} {s : List Char} (h : CaseClosed kind)
include h

theorem lowerAfter (hs : ∀ c ∈ s, kind c = true) (before : List Char) :
    ∀ c ∈ lowerAfter before s, kind c = true := by
  induction s generalizing before with
  | nil => exact hs
  | cons c rest ih =>
    obtain ⟨hc, hrest⟩ := List.forall_mem_cons.mp hs
    refine List.forall_mem_append.mpr ⟨?_, ih hrest (c :: before)⟩
    split
    · split <;> simp [h.sigmas]
    · exact h.lower c hc

theorem upperText (hs : ∀ c ∈ s, kind c = true) : ∀ c ∈ Text.upper s, kind c = true := by
  intro d hd
  obtain ⟨c, hc, hd⟩ := List.mem_flatMap.mp hd
  exact h.upper c (hs c hc) d hd

theorem capitalize (hs : ∀ c ∈ s, kind c = true) : ∀ c ∈ capitalize s, kind c = true := by
  cases s with
  | nil => exact hs
  | cons c rest =>
    obtain ⟨hc, hrest⟩ := List.forall_mem_cons.mp hs
    exact List.forall_mem_append.mpr ⟨h.title c hc, h.lowerAfter hrest [c]⟩

theorem flatMap_capitalize {words : List (List Char)}
    (hwords : ∀ word ∈ words, ∀ c ∈ word, kind c = true) :
    ∀ c ∈ words.flatMap Text.capitalize, kind c = true := by
  intro c hc
  obtain ⟨word, hword, hc⟩ := List.mem_flatMap.mp hc
  exact h.capitalize (hwords word hword) c hc

end CaseClosed

/-! ### Normal forms -/

/-- Code points beyond ASCII and below the surrogates are characters of names. -/
theorem mayBeNameChar_ofNat (h : 128 ≤ n) (h' : n < 55296) :
    mayBeNameChar (Char.ofNat n) = true := by
  have hvalid : n.isValidChar := .inl h'
  apply mayBeNameChar_of_le
  rw [Char.ofNat, dif_pos hvalid]
  exact h

theorem isSyllable_iff (n : Nat) : isSyllable n = true ↔ 44032 ≤ n ∧ n < 55204 := by
  rw [isSyllable, Bool.and_eq_true, decide_eq_true_eq, decide_eq_true_eq]
  exact .rfl

theorem nameChars_syllableParts (h : isSyllable n = true) : NameChars (syllableParts n) := by
  rw [isSyllable_iff] at h
  have hlead :
      mayBeNameChar (Char.ofNat (leadBase + (n - syllableBase) / (vowelCount * tailCount))) := by
    apply mayBeNameChar_ofNat <;>
      simp only [leadBase, syllableBase, vowelCount, tailCount] <;> omega
  have hvowel :
      mayBeNameChar (Char.ofNat (vowelBase + (n - syllableBase) / tailCount % vowelCount)) := by
    apply mayBeNameChar_ofNat <;>
      simp only [vowelBase, syllableBase, vowelCount, tailCount] <;> omega
  have htail : mayBeNameChar (Char.ofNat (tailBase + (n - syllableBase) % tailCount)) := by
    apply mayBeNameChar_ofNat <;> simp only [tailBase, syllableBase, tailCount] <;> omega
  unfold syllableParts
  dsimp only
  split <;> simp [hlead, hvowel, htail]

theorem nameChars_plainWord (hc : mayBeNameChar c = true) : NameChars (plainWord c) := by
  unfold plainWord
  cases hword : plainWords.get? c with
  | some word => exact plainWords.nameChars_get? hword
  | none =>
    cases hplain : plainMap.get? c with
    | none => simpa using hc
    | some d => simpa using plainMap.mayBeNameChar_get? hplain

theorem nameChars_plainChars (depth : Nat) (hc : mayBeNameChar c = true) :
    NameChars (plainChars depth c) := by
  induction depth generalizing c with
  | zero => simpa [plainChars] using hc
  | succ depth ih =>
    unfold plainChars
    split
    case isTrue => simpa using hc
    case isFalse =>
      split
      case isTrue hsyllable => exact nameChars_syllableParts hsyllable
      case isFalse =>
        cases hparts : compositions.get? c with
        | none =>
          rw [Option.map_none, Option.getD_none]
          exact nameChars_plainWord hc
        | some parts =>
          exact .flatMap fun part hpart => ih (compositions.nameChars_get? hparts part hpart)

theorem insertMark_perm (c : Char) (s : List Char) : (insertMark c s).Perm (c :: s) := by
  fun_induction insertMark c s with
  | case1 => exact .refl _
  | case2 d rest h ih => exact (ih.cons d).trans (.swap c d rest)
  | case3 => exact .refl _

theorem orderMarks_perm (s : List Char) : (orderMarks s).Perm s := by
  have hfold (done : List Char) :
      (s.foldl (fun done c => insertMark c done) done).Perm (s ++ done) := by
    induction s generalizing done with
    | nil => exact .refl _
    | cons c rest ih =>
      exact (ih _).trans (((insertMark_perm c done).append_left rest).trans
        List.perm_middle)
  exact (List.reverse_perm _).trans (by simpa using hfold [])

theorem nameChars_orderMarks {s : List Char} (h : NameChars s) : NameChars (orderMarks s) :=
  h.subset (orderMarks_perm s).subset

theorem joinSyllable?_bounds {a b : Nat} (h : joinSyllable? a b = some n) :
    44032 ≤ n ∧ n < 55296 := by
  have hbase : syllableBase = 44032 := rfl
  unfold joinSyllable? at h
  split at h
  case isTrue hparts =>
    have hn := Option.some.inj h
    simp only [leadBase, leadCount, vowelBase, vowelCount, tailCount] at hparts hn
    omega
  case isFalse =>
    rw [Option.ite_none_right_eq_some, isSyllable_iff] at h
    obtain ⟨hparts, h⟩ := h
    have hn := Option.some.inj h
    simp only [tailBase, tailCount] at hparts hn
    omega

theorem mayBeNameChar_compose? {a b : Char} (h : compose? a b = some c) :
    mayBeNameChar c = true := by
  unfold compose? at h
  split at h
  case h_1 n hn =>
    obtain ⟨hfirst, hlast⟩ := joinSyllable?_bounds hn
    cases h
    exact mayBeNameChar_ofNat (by omega) hlast
  case h_2 =>
    obtain ⟨w, hfind, rfl⟩ := Option.map_eq_some_iff.mp h
    exact (CodeWord.isNaming_iff.mp
      (compositions.naming w (List.mem_of_find?_eq_some hfind))).1

theorem nameChars_composeAfter {letter : Char} {marks s : List Char}
    (hletter : mayBeNameChar letter = true) (hmarks : NameChars marks) (h : NameChars s) :
    NameChars (composeAfter letter marks s) := by
  induction s generalizing letter marks with
  | nil =>
    refine NameChars.cons_iff.mpr ⟨hletter, hmarks.subset fun c hc => List.mem_reverse.mp hc⟩
  | cons c rest ih =>
    obtain ⟨hc, hrest⟩ := NameChars.cons_iff.mp h
    unfold composeAfter
    dsimp only
    split
    case h_1 joined hjoined =>
      refine ih ?_ hmarks hrest
      rw [Option.ite_none_left_eq_some] at hjoined
      exact mayBeNameChar_compose? hjoined.2
    case h_2 =>
      split
      · refine NameChars.append_iff.mpr ⟨?_, ih hc .nil hrest⟩
        exact NameChars.cons_iff.mpr ⟨hletter, hmarks.subset fun c hc => List.mem_reverse.mp hc⟩
      · exact ih hletter (NameChars.cons_iff.mpr ⟨hc, hmarks⟩) hrest

theorem nameChars_composeMarks {s : List Char} (h : NameChars s) : NameChars (composeMarks s) := by
  induction s with
  | nil => exact .nil
  | cons c rest ih =>
    obtain ⟨hc, hrest⟩ := NameChars.cons_iff.mp h
    unfold composeMarks
    split
    · exact nameChars_composeAfter hc .nil hrest
    · exact NameChars.cons_iff.mpr ⟨hc, ih hrest⟩

theorem nameChars_normalize {s : List Char} (h : NameChars s) : NameChars (normalize s) := by
  unfold normalize
  split
  · exact h
  · exact nameChars_composeMarks (nameChars_orderMarks
      (.flatMap fun c hc => nameChars_plainChars 4 (h c hc)))

theorem plainWord_ne_nil (c : Char) : plainWord c ≠ [] := by
  unfold plainWord
  cases hword : plainWords.get? c with
  | some word => exact CodeWords.ne_nil_of_get?_read hword
  | none => exact List.cons_ne_nil _ _

theorem plainChars_ne_nil (depth : Nat) (c : Char) : plainChars depth c ≠ [] := by
  induction depth generalizing c with
  | zero => exact List.cons_ne_nil _ _
  | succ depth ih =>
    unfold plainChars
    split
    case isTrue => exact List.cons_ne_nil _ _
    case isFalse =>
      split
      case isTrue =>
        unfold syllableParts
        dsimp only
        split <;> exact List.cons_ne_nil _ _
      case isFalse =>
        cases hparts : compositions.get? c with
        | none =>
          rw [Option.map_none, Option.getD_none]
          exact plainWord_ne_nil c
        | some parts => exact flatMap_ne_nil (CodeWords.ne_nil_of_get?_read hparts) ih

theorem composeAfter_ne_nil (letter : Char) (marks s : List Char) :
    composeAfter letter marks s ≠ [] := by
  fun_induction composeAfter letter marks s with
  | case1 => exact List.cons_ne_nil _ _
  | case2 _ _ _ _ _ _ _ ih => exact ih
  | case3 => simp
  | case4 _ _ _ _ _ _ _ ih => exact ih

theorem normalize_ne_nil {s : List Char} (h : s ≠ []) : normalize s ≠ [] := by
  unfold normalize
  split
  · exact h
  · have hplain := flatMap_ne_nil h (plainChars_ne_nil 4)
    have hordered : orderMarks (s.flatMap (plainChars 4)) ≠ [] :=
      fun hnil => hplain (List.perm_nil.mp (hnil ▸ (orderMarks_perm _).symm))
    obtain ⟨c, rest, hcons⟩ := List.exists_cons_of_ne_nil hordered
    rw [hcons, composeMarks]
    split
    · exact composeAfter_ne_nil c [] rest
    · exact List.cons_ne_nil _ _

end Restyle.Text
