import Mathlib.Data.Nat.Bitwise
import Mathlib.Tactic.MkIffOfInductiveProp
import Restyle.Proofs.Text.NameChars

/-!
Sets of code points as numbers. The code points of a table are the bits of one number, so that
tables are compared as a whole, by arithmetic on these numbers. Before that the lines of a table are
taken apart into their characters once, and not again for each code point that is looked up.
-/

namespace Restyle.Text

/-! ### Codes -/

/-- The code points of a run. An interval is one block of bits; the others are put in one by one. -/
def CodeRun.codes (r : CodeRun) : Nat :=
  if r.step = 1 then (2 ^ (r.last + 1 - r.first) - 1) <<< r.first
  else ((List.range' r.first (r.last + 1 - r.first)).filter r.contains).foldr
    (fun n codes => 2 ^ n ||| codes) 0

def codesOf (rs : List CodeRun) : Nat := rs.foldr (fun r codes => r.codes ||| codes) 0

theorem testBit_foldr_two_pow (ns : List Nat) (n : Nat) :
    (ns.foldr (fun k codes => 2 ^ k ||| codes) 0).testBit n = decide (n ∈ ns) := by
  induction ns with
  | nil => simp
  | cons k ns ih =>
    rw [List.foldr_cons, Nat.testBit_or, ih, Nat.testBit_two_pow, ← Bool.decide_or]
    simp only [List.mem_cons, eq_comm (a := k)]

theorem CodeRun.contains_iff {r : CodeRun} {n : Nat} :
    r.contains n = true ↔ (r.first ≤ n ∧ n ≤ r.last) ∧ (n - r.first) % r.step = 0 := by
  simp [contains]

theorem CodeRun.contains_interval {first last n : Nat} :
    CodeRun.contains ⟨first, last, 1⟩ n = true ↔ first ≤ n ∧ n ≤ last := by
  rw [contains_iff, and_iff_left (Nat.mod_one _)]

theorem CodeRun.testBit_codes (r : CodeRun) (n : Nat) : r.codes.testBit n = r.contains n := by
  rw [Bool.eq_iff_iff, contains_iff]
  unfold codes
  split
  case isTrue hstep =>
    rw [Nat.testBit_shiftLeft, Nat.testBit_two_pow_sub_one, hstep, Nat.mod_one]
    simp only [Bool.and_eq_true, decide_eq_true_eq, and_true]
    omega
  case isFalse =>
    rw [testBit_foldr_two_pow, decide_eq_true_eq, List.mem_filter, List.mem_range'_1, contains_iff]
    omega

theorem testBit_codesOf (rs : List CodeRun) (n : Nat) :
    (codesOf rs).testBit n = rs.any (·.contains n) := by
  induction rs with
  | nil => simp [codesOf]
  | cons r rs ih =>
    change (r.codes ||| codesOf rs).testBit n = _
    rw [Nat.testBit_or, CodeRun.testBit_codes, ih, List.any_cons]

theorem CodeTable.testBit_codesOf (t : CodeTable) (c : Char) :
    (codesOf t.runs.toList).testBit c.toNat = t.contains c := by
  rw [Text.testBit_codesOf, CodeTable.contains, Array.any_toList]

/-! ### Comparing sets -/

theorem testBit_of_subset {a b n : Nat} (h : a &&& b = a) (hn : a.testBit n = true) :
    b.testBit n = true := by
  rw [← h, Nat.testBit_and, Bool.and_eq_true] at hn
  exact hn.2

theorem testBit_of_disjoint {a b n : Nat} (h : a &&& b = 0) (hn : a.testBit n = true) :
    b.testBit n = false := by
  have hand : (a &&& b).testBit n = false := by rw [h, Nat.zero_testBit]
  rwa [Nat.testBit_and, hn, Bool.true_and] at hand

/-! ### Images -/

def MapRun.imageRun (r : MapRun) : CodeRun :=
  ⟨r.image, r.image + (r.run.last - r.run.first), r.run.step⟩

/-- Code points that give a character of names are code points of that character. -/
theorem toNat_ofNat_of_mayBeNameChar {n : Nat} (h : mayBeNameChar (Char.ofNat n) = true) :
    (Char.ofNat n).toNat = n := by
  by_cases hvalid : n.isValidChar
  · rw [Char.ofNat, dif_pos hvalid]
    rfl
  · rw [Char.ofNat, dif_neg hvalid] at h
    cases h

theorem CodeMap.exists_run {m : CodeMap} {c d : Char} (h : m.get? c = some d) :
    ∃ r ∈ m.runs, r.run.codes.testBit c.toNat = true ∧
      r.imageRun.codes.testBit d.toNat = true := by
  have hname := m.mayBeNameChar_get? h
  obtain ⟨r, hfind, rfl⟩ := Option.map_eq_some_iff.mp h
  have hrun : r.run.contains c.toNat = true := by simpa using List.find?_some hfind
  refine ⟨r, List.mem_of_find?_eq_some hfind, ?_, ?_⟩
  · rw [CodeRun.testBit_codes, hrun]
  · rw [MapRun.get, toNat_ofNat_of_mayBeNameChar hname, CodeRun.testBit_codes,
      CodeRun.contains_iff]
    rw [CodeRun.contains_iff] at hrun
    obtain ⟨hbounds, hstep⟩ := hrun
    refine ⟨?_, ?_⟩
    · simp only [MapRun.imageRun]
      omega
    · rwa [MapRun.imageRun, Nat.add_sub_cancel_left]

/-- What a character may become by a case table: itself, its image in a run, or the word of an
entry. -/
inductive Mapped (m : CodeMap) (ws : CodeWords) (c : Char) : List Char → Prop
  | same : Mapped m ws c [c]
  | run {r : MapRun} {d : Char} (hr : r ∈ m.runs) (hrun : r.run.codes.testBit c.toNat = true)
      (himage : r.imageRun.codes.testBit d.toNat = true) : Mapped m ws c [d]
  | word {w : CodeWord} (hw : w ∈ ws.words) (hcode : w.code = c.toNat) : Mapped m ws c w.word

theorem mapped_spec (m : CodeMap) (ws : CodeWords) (c : Char) : Mapped m ws c (mapped m ws c) := by
  unfold mapped
  cases hget : m.get? c with
  | some d =>
    obtain ⟨r, hr, hrun, himage⟩ := m.exists_run hget
    exact .run hr hrun himage
  | none =>
    cases hword : ws.get? c with
    | none => exact .same
    | some word =>
      obtain ⟨w, hfind, rfl⟩ := Option.map_eq_some_iff.mp hword
      exact .word (List.mem_of_find?_eq_some hfind) (by simpa using List.find?_some hfind)

theorem CodeMap.exists_get? {m : CodeMap} {c : Char} {r : MapRun} (hr : r ∈ m.runs)
    (hc : r.run.contains c.toNat = true) : ∃ d, m.get? c = some d := by
  have hfind : (m.runs.find? (·.run.contains c.toNat)).isSome = true :=
    List.find?_isSome.mpr ⟨r, hr, hc⟩
  obtain ⟨q, hq⟩ := Option.isSome_iff_exists.mp hfind
  exact ⟨_, by rw [CodeMap.get?, hq, Option.map_some]⟩

/-! ### Lines of a table -/

/-- Lines with their characters. -/
inductive Lettered : List String → List (List Char) → Prop
  | nil : Lettered [] []
  | cons {lines : List String} {letters : List (List Char)} (first : List Char)
      (h : Lettered lines letters) : Lettered (String.ofList first :: lines) (first :: letters)

def wordsOf (letters : List (List Char)) : List (List Char) :=
  letters.flatMap fun line => (splitOn ' ' line).filter (!·.isEmpty)

theorem Lettered.entries_eq {lines : List String} {letters : List (List Char)}
    (h : Lettered lines letters) : entries lines = wordsOf letters := by
  induction h with
  | nil => rfl
  | cons first _ ih =>
    change (splitOn ' ' (String.ofList first).toList).filter _ ++ entries _ = _ ++ wordsOf _
    rw [String.toList_ofList, ih]

section Read

variable {lines : List String} {letters : List (List Char)}

theorem CodeTable.runs_read (h : Lettered lines letters) :
    (CodeTable.read lines).runs.toList = (wordsOf letters).map CodeRun.read := by
  rw [CodeTable.read, h.entries_eq]

theorem CodeMap.mem_of_mem_read (h : Lettered lines letters) {r : MapRun}
    (hr : r ∈ (CodeMap.read lines).runs) : r ∈ (wordsOf letters).filterMap MapRun.read? := by
  rw [← h.entries_eq]
  exact List.mem_of_mem_filter hr

theorem CodeWords.mem_of_mem_read (h : Lettered lines letters) {w : CodeWord}
    (hw : w ∈ (CodeWords.read lines).words) : w ∈ (wordsOf letters).filterMap CodeWord.read? := by
  rw [← h.entries_eq]
  exact List.mem_of_mem_filter hw

end Read

end Restyle.Text
