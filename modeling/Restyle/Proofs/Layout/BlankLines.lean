import Restyle.Layout.BlankLines
import Restyle.Proofs.Attempt
import Restyle.Proofs.Config.Typed
import Restyle.Proofs.Text.Splitting

/-!
Texts with blank lines added. The lines of the new text are the old ones, each with its gap after
it, and a blank line opens nothing. So every run adds as many lines as the run before, whatever
blank lines there are already, and a text settles only if it has no gap at all. A run comes to its
end if no line asks for a number that is no count, but the schema allows such numbers.
-/

namespace Restyle.Layout

open Text

def countAfter (afterClass afterFunction : LineCount) : Opening → LineCount
  | .classBody => afterClass
  | .functionBody => afterFunction

def toNat : LineCount → Nat
  | .count n => n
  | .fractional => 0

section Lines

variable (count : Opening → LineCount)

/-- Whether a line asks for blank lines, if at all, by a count. -/
def Countable (line : List Char) : Prop := ∀ o, opening? line = some o → count o ≠ .fractional

/-- How many blank lines are added after a line. -/
def gap (line : List Char) : Nat := (opening? line).elim 0 fun o => toNat (count o)

def lineAndGap (line : List Char) : List (List Char) := line :: List.replicate (gap count line) []

def spread (s : List Char) : List Char :=
  List.intercalate ['\n'] ((splitOn '\n' s).flatMap (lineAndGap count))

def added (s : List Char) : Nat := ((splitOn '\n' s).map (gap count)).sum

variable {count}

theorem gap_nil : gap count [] = 0 := rfl

theorem newline_notMem_lineAndGap {line l : List Char} (hline : '\n' ∉ line)
    (h : l ∈ lineAndGap count line) : '\n' ∉ l := by
  rcases List.mem_cons.mp h with rfl | hblank
  · exact hline
  · rw [List.eq_of_mem_replicate hblank]
    exact List.not_mem_nil

/-- The lines of the new text are the old ones with their gaps. -/
theorem splitOn_spread (s : List Char) :
    splitOn '\n' (spread count s) = (splitOn '\n' s).flatMap (lineAndGap count) := by
  apply splitOn_intercalate
  · obtain ⟨line, lines, hlines⟩ := List.exists_cons_of_ne_nil (splitOn_ne_nil '\n' s)
    simp [hlines, lineAndGap]
  · intro l hl
    obtain ⟨line, hline, hl⟩ := List.mem_flatMap.mp hl
    exact newline_notMem_lineAndGap (notMem_of_mem_splitOn hline) hl

theorem length_splitOn_spread (s : List Char) :
    (splitOn '\n' (spread count s)).length = (splitOn '\n' s).length + added count s := by
  rw [splitOn_spread, added]
  induction splitOn '\n' s with
  | nil => rfl
  | cons line lines ih =>
    simp only [List.flatMap_cons, List.length_append, ih, lineAndGap, List.length_cons,
      List.length_replicate, List.map_cons, List.sum_cons]
    omega

/-- The new text asks for as many blank lines as the old one. -/
theorem added_spread (s : List Char) : added count (spread count s) = added count s := by
  rw [added, splitOn_spread, added]
  induction splitOn '\n' s with
  | nil => rfl
  | cons line lines ih => simp [lineAndGap, gap_nil, ih]

theorem added_eq_zero_iff (s : List Char) :
    added count s = 0 ↔ ∀ line ∈ splitOn '\n' s, gap count line = 0 := by
  rw [added, List.sum_eq_zero_iff_forall_eq_nat, List.forall_mem_map]

theorem spread_eq_self_iff (s : List Char) : spread count s = s ↔ added count s = 0 := by
  constructor
  · intro h
    have hlength : (splitOn '\n' (spread count s)).length = _ := length_splitOn_spread s
    rw [h] at hlength
    omega
  · intro h
    have hlines : (splitOn '\n' s).flatMap (lineAndGap count) = splitOn '\n' s := by
      rw [List.flatMap_congr fun line hline => show lineAndGap count line = [line] by
        rw [lineAndGap, (added_eq_zero_iff s).mp h line hline, List.replicate_zero],
        List.flatMap_singleton']
    rw [spread, hlines, intercalate_splitOn]

/-- Run after run the text grows by the same number of lines. -/
theorem length_splitOn_iterate_spread (k : Nat) (s : List Char) :
    (splitOn '\n' ((spread count)^[k] s)).length =
      (splitOn '\n' s).length + k * added count s := by
  induction k generalizing s with
  | zero => simp
  | succ k ih =>
    rw [Function.iterate_succ_apply, ih, length_splitOn_spread, added_spread, Nat.succ_mul]
    omega

end Lines

section Runs

variable {afterClass afterFunction : LineCount} {s text : List Char}

theorem spaced_eq_ok_iff {line : List Char} {ls : List (List Char)} :
    spaced afterClass afterFunction line = .ok ls ↔
      Countable (countAfter afterClass afterFunction) line ∧
        ls = lineAndGap (countAfter afterClass afterFunction) line := by
  have hcount (count : LineCount) : (blankLines count).map (line :: ·) = .ok ls ↔
      count ≠ .fractional ∧ ls = line :: List.replicate (toNat count) [] := by
    cases count with
    | count n =>
      exact ⟨fun h => ⟨by simp, (Except.ok.inj h).symm⟩, fun h => congrArg Except.ok h.2.symm⟩
    | fractional =>
      constructor
      · intro h
        cases h
      · intro h
        exact absurd rfl h.1
  unfold spaced Countable lineAndGap gap
  cases opening? line with
  | none => simp [eq_comm]
  | some o => cases o <;> simp [hcount, countAfter]

/-- A run ends with the text and all its gaps, if every line asks for a count. -/
theorem addBlankLines_eq_ok_iff : addBlankLines afterClass afterFunction s = .ok text ↔
    (∀ line ∈ splitOn '\n' s, Countable (countAfter afterClass afterFunction) line) ∧
      text = spread (countAfter afterClass afterFunction) s := by
  unfold addBlankLines spread
  rw [Except.bind_eq_ok]
  constructor
  · rintro ⟨lines, hlines, htext⟩
    obtain ⟨hcount, rfl⟩ := (mapM_eq_ok_iff fun _ _ => spaced_eq_ok_iff).mp hlines
    exact ⟨hcount, (Except.ok.inj htext).symm⟩
  · rintro ⟨hcount, rfl⟩
    exact ⟨_, (mapM_eq_ok_iff fun _ _ => spaced_eq_ok_iff).mpr ⟨hcount, rfl⟩, rfl⟩

theorem addBlankLines_count (a b : Nat) (s : List Char) :
    addBlankLines (.count a) (.count b) s =
      .ok (spread (countAfter (.count a) (.count b)) s) := by
  refine addBlankLines_eq_ok_iff.mpr ⟨fun line _ o _ => ?_, rfl⟩
  cases o <;> simp [countAfter]

theorem gap_eq_zero_iff (a b : Nat) (line : List Char) :
    gap (countAfter (.count a) (.count b)) line = 0 ↔
      (opening? line = some .classBody → a = 0) ∧ (opening? line = some .functionBody → b = 0) := by
  unfold gap
  cases opening? line with
  | none => simp
  | some o => cases o <;> simp [countAfter, toNat]

end Runs

/-- A second run changes nothing exactly if no line opens a body after which blank lines are to be
added. Otherwise every run adds the same number of lines again. -/
theorem addBlankLines_settles_iff (a b : Nat) (s : List Char) :
    ((addBlankLines (.count a) (.count b) s >>= addBlankLines (.count a) (.count b)) =
        addBlankLines (.count a) (.count b) s ↔
      ∀ line ∈ splitOn '\n' s, (opening? line = some .classBody → a = 0) ∧
        (opening? line = some .functionBody → b = 0)) ∧
    ∀ k, ∃ text, (· >>= addBlankLines (.count a) (.count b))^[k] (.ok s) = .ok text ∧
      (splitOn '\n' text).length =
        (splitOn '\n' s).length + k * added (countAfter (.count a) (.count b)) s := by
  constructor
  · rw [addBlankLines_count]
    change addBlankLines _ _ _ = _ ↔ _
    rw [addBlankLines_count, Except.ok.injEq, spread_eq_self_iff, added_spread, added_eq_zero_iff]
    simp only [gap_eq_zero_iff]
  · intro k
    refine ⟨_, ?_, length_splitOn_iterate_spread k s⟩
    induction k with
    | zero => rfl
    | succ k ih =>
      rw [Function.iterate_succ_apply', ih, Function.iterate_succ_apply']
      exact addBlankLines_count a b _

def spacedClass : List Char := "class A:\n\n\n    pass\n".toList

/-- The blank lines are added once more. -/
theorem spacedClass_grows :
    addBlankLines (.count 2) (.count 1) "class A:\n    pass\n".toList = .ok spacedClass ∧
      addBlankLines (.count 2) (.count 1) spacedClass =
        .ok "class A:\n\n\n\n\n    pass\n".toList ∧
      addBlankLines (.count 2) (.count 1) spacedClass ≠ .ok spacedClass := by
  rw [addBlankLines_count, addBlankLines_count, Except.ok.injEq, Except.ok.injEq, Ne,
    Except.ok.injEq]
  decide +kernel

/-! ### Accepted configurations -/

section Accepted

open Config (IsFew)
open Json (Value)

def valueAfter (c : Config) : Opening → Value
  | .classBody => c.blankLinesAfterClass
  | .functionBody => c.blankLinesAfterFunction

theorem countAfter_settings (c : Config) (o : Opening) :
    countAfter c.settings.afterClass c.settings.afterFunction o =
      Config.lineCount (valueAfter c o) := by
  cases o <;> rfl

/-- Among the whole numbers that the schema allows, those written without a point are counts. -/
theorem lineCount_ne_fractional_iff {v : Value} (h : IsFew v) :
    Config.lineCount v ≠ .fractional ↔ ∃ n : ℕ, v = .int n := by
  obtain ⟨n, -, hn⟩ := h
  cases v with
  | int i =>
    refine iff_of_true (by simp [Config.lineCount]) ⟨n, ?_⟩
    have hcast : (i : ℚ) = (n : ℤ) := by simpa [Value.number?] using hn
    rw [Rat.intCast_injective hcast]
  | _ => exact iff_of_false (by simp [Config.lineCount]) (by simp)

variable {c : Config} {source : List Char}

theorem exists_apply_iff (h : ∀ o, IsFew (valueAfter c o)) :
    (∃ result, apply c.settings source = .ok result) ↔
      (c.settings.blankLines = true → ∀ line ∈ splitOn '\n' source, ∀ o, opening? line = some o →
        ∃ n : ℕ, valueAfter c o = .int n) := by
  have hcountable (line : List Char) :
      Countable (countAfter c.settings.afterClass c.settings.afterFunction) line ↔
        ∀ o, opening? line = some o → ∃ n : ℕ, valueAfter c o = .int n := by
    simp only [Countable, countAfter_settings, lineCount_ne_fractional_iff (h _)]
  simp only [← hcountable]
  unfold apply
  cases c.settings.blankLines with
  | false => simp
  | true =>
    simp only [Bool.not_true, Bool.false_eq_true, if_false, Except.bind_eq_ok,
      addBlankLines_eq_ok_iff, forall_const]
    constructor
    · rintro ⟨result, text, ⟨hcount, -⟩, -⟩
      exact hcount
    · intro hcount
      exact ⟨_, _, ⟨hcount, rfl⟩, rfl⟩

def openingLine : Opening → List Char
  | .classBody => "class A:".toList
  | .functionBody => "def f():".toList

theorem opening?_openingLine (o : Opening) : opening? (openingLine o) = some o := by
  cases o <;> decide +kernel

theorem mem_splitOn_openingLine (o : Opening) : openingLine o ∈ splitOn '\n' (openingLine o) := by
  cases o <;> decide +kernel

/-- Under an accepted configuration blank lines can be added to a text exactly if the rule is off or
the number for every line that starts a body is written without a point. So they can be added to
every text exactly if the rule is off or both numbers are. -/
theorem apply_ends_iff [Config.Validator] (path : Disk.Path) {v : Value}
    (h : Config.Schema.standard.violation? v = none) :
    let c : Config := ⟨path, .standard, v⟩
    (∀ source, (∃ result, apply c.settings source = .ok result) ↔
      (c.settings.blankLines = true → ∀ line ∈ splitOn '\n' source, ∀ o, opening? line = some o →
        ∃ n : ℕ, valueAfter c o = .int n)) ∧
    ((∀ source, ∃ result, apply c.settings source = .ok result) ↔
      (c.settings.blankLines = true → ∀ o, ∃ n : ℕ, valueAfter c o = .int n)) := by
  intro c
  have htyped : Config.WellTyped c :=
    Config.wellTyped_of_obeys ((Config.Schema.standard.violation?_eq_none_iff v).mp h)
  have hfew (o : Opening) : IsFew (valueAfter c o) := by
    cases o with
    | classBody => exact htyped.afterClass
    | functionBody => exact htyped.afterFunction
  refine ⟨fun source => exists_apply_iff hfew, ?_⟩
  simp only [exists_apply_iff hfew]
  constructor
  · intro hall hon o
    exact hall (openingLine o) hon _ (mem_splitOn_openingLine o) o (opening?_openingLine o)
  · intro hall source hon line _ o _
    exact hall hon o

def lineDocument (afterClass afterFunction : Value) : Value :=
  .obj [("output", .obj [("mode", .str "in_place")]), ("file_selection", .obj []),
    ("naming_conventions", .obj []),
    ("formatting_rules", .obj [("blank_lines_after_class", afterClass),
      ("blank_lines_after_function", afterFunction)]),
    ("enabled_rules", .obj [("blank_lines", .bool true)])]

/-- Two, written with a point. -/
def pointedTwo : Value := .real (.finite false (2 ^ 52) (-51))

def lineConfig (afterClass afterFunction : Value) : Config :=
  ⟨Disk.Path.parse "config.json", .standard, lineDocument afterClass afterFunction⟩

theorem apply_ends_iff_sample :
    Config.Schema.standard.violation? (lineDocument pointedTwo (.int 1)) = none ∧
      (lineConfig pointedTwo (.int 1)).settings.blankLines = true ∧
      ∃ result, apply (lineConfig pointedTwo (.int 1)).settings "def f():\n    pass\n".toList =
        .ok result := by
  have haccepted : Config.Schema.standard.violation? (lineDocument pointedTwo (.int 1)) = none :=
    Option.isNone_iff_eq_none.mp (by decide +kernel)
  have hnumber : valueAfter (lineConfig pointedTwo (.int 1)) .functionBody = .int (1 : ℕ) := by
    simp [valueAfter, lineConfig, lineDocument, Config.blankLinesAfterFunction, Config.get,
      Config.get?, Text.splitOn, Value.at?, Value.member?, Table.lookup_cons_eq_ite]
  refine ⟨haccepted, by decide +kernel, ?_⟩
  refine ((apply_ends_iff (Disk.Path.parse "config.json") haccepted).1 _).mpr fun _ => ?_
  have hlines : (splitOn '\n' "def f():\n    pass\n".toList).all
      (fun line => (opening? line).all (· == .functionBody)) = true := by
    decide +kernel
  intro line hline o ho
  have hkind := List.all_eq_true.mp hlines line hline
  rw [ho, Option.all_some, beq_iff_eq] at hkind
  rw [hkind]
  exact ⟨1, hnumber⟩

/-- The number is accepted, as the two that it is, but blank lines cannot be added after a class. -/
theorem pointedTwo_no_count :
    Config.Schema.standard.violation? (lineDocument pointedTwo (.int 1)) = none ∧
      pointedTwo.number? = some 2 ∧
      apply (lineConfig pointedTwo (.int 1)).settings "class A:\n    pass\n".toList =
        .error {} := by
  refine ⟨Option.isNone_iff_eq_none.mp (by decide +kernel), ?_, ?_⟩
  · decide +kernel
  · have herror : (apply (lineConfig pointedTwo (.int 1)).settings
        "class A:\n    pass\n".toList).toOption.isNone = true := by
      decide +kernel
    obtain ⟨fault, hfault⟩ := exists_error_of_isNone herror
    exact hfault

end Accepted

end Restyle.Layout
