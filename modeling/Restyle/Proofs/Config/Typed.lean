import Mathlib.Algebra.Order.Field.Rat
import Restyle.Config.Settings
import Restyle.Config.Check
import Restyle.Proofs.Naming.Strict
import Restyle.Proofs.Table

/-!
Types of configured values. A dotted key leads through the schema as it leads through a document, so
what a document that obeys has there obeys the rules for it, and the defaults obey them as well.
The main statement collects what this means for everything that is asked of an accepted
configuration.
-/

namespace Restyle

/-! ### Numbers -/

namespace Json

/-- The number that a floating-point number is, if it is one. -/
def Binary64.value? : Binary64 → Option ℚ
  | .finite negative m q => some ((if negative then -1 else 1) * (m * 2 ^ q))
  | _ => none

/-- The number that a value is. Truth values are none. -/
def Value.number? : Value → Option ℚ
  | .int n => some n
  | .real x => x.value?
  | _ => none

namespace Binary64

theorem le_of_not_isAbove {m bound : ℕ} {q : ℤ}
    (h : (finite false m q).isAbove bound = false) :
    (scaled m 1 (-q)).1 ≤ bound * (scaled m 1 (-q)).2 := by
  simpa [isAbove] using h

/-- A number without fractional part between zero and a bound is one of the natural numbers up to
the bound. -/
theorem exists_value?_eq {x : Binary64} {bound : ℕ} (hintegral : x.isIntegral = true)
    (hbelow : x.isBelow 0 = false) (habove : x.isAbove bound = false) :
    ∃ n : ℕ, n ≤ bound ∧ x.value? = some (n : ℚ) := by
  cases x with
  | infinity negative => cases hintegral
  | nan => cases hintegral
  | finite negative m q =>
    cases negative with
    | true =>
      -- a negative number that is not below zero is a zero with a sign
      have hm : m = 0 := by simpa [isBelow] using hbelow
      exact ⟨0, Nat.zero_le bound, by simp [value?, hm]⟩
    | false =>
      have hle := le_of_not_isAbove habove
      obtain ⟨e, rfl | rfl⟩ := q.eq_nat_or_neg
      · refine ⟨m * 2 ^ e, ?_, by simp [value?]⟩
        rcases Nat.eq_zero_or_pos e with rfl | hpos
        · simpa [scaled] using hle
        · simpa [scaled, hpos.ne'] using hle
      · have hdvd : 2 ^ e ∣ m := by
          rcases Nat.eq_zero_or_pos e with rfl | hpos
          · simp
          · apply Nat.dvd_of_mod_eq_zero
            simpa [isIntegral, hpos.ne'] using hintegral
        obtain ⟨n, rfl⟩ := hdvd
        refine ⟨n, ?_, ?_⟩
        · have hle : 2 ^ e * n ≤ bound * 2 ^ e := by simpa [scaled] using hle
          rw [Nat.mul_comm bound] at hle
          exact Nat.le_of_mul_le_mul_left hle (Nat.two_pow_pos e)
        · have hpow : (2 : ℚ) ^ e ≠ 0 := pow_ne_zero e two_ne_zero
          simp [value?, mul_right_comm _ (n : ℚ), hpow]

end Binary64

end Json

namespace Config

open Json
open Disk (Path)
open Naming (Convention)

variable {s : Schema} {key name : String} {rules : List Rule}

/-! ### Values that obey -/

section Values

variable {v : Value}

def IsFew (v : Value) : Prop := ∃ n : ℕ, n ≤ 5 ∧ v.number? = some (n : ℚ)

theorem eq_bool_of_flag (h : Obeys flag v) : v = .bool v.isTruthy := by
  obtain ⟨hshape, -⟩ := h
  cases v with
  | bool b => rfl
  | _ => simp [Rule.Kept, Shape.fits] at hshape

theorem eq_str_of_text (h : Obeys text v) : v = .str (v.asString?.getD "") := by
  obtain ⟨hshape, -⟩ := h
  cases v with
  | str s => rfl
  | _ => simp [Rule.Kept, Shape.fits] at hshape

theorem exists_option_of_oneOf {values : List String} (h : Obeys (oneOf values) v) :
    ∃ s ∈ values, v = .str s := by
  obtain ⟨-, hoptions, -⟩ := h
  exact hoptions

theorem map_str_filterMap {items : List Value} (h : ∀ item ∈ items, Obeys text item) :
    (items.filterMap Value.asString?).map .str = items := by
  induction items with
  | nil => rfl
  | cons item rest ih =>
    obtain ⟨hitem, hrest⟩ := List.forall_mem_cons.mp h
    rw [eq_str_of_text hitem]
    simp [Value.asString?, ih hrest]

theorem eq_arr_of_textList (h : Obeys textList v) : v = .arr ((strings v).map .str) := by
  obtain ⟨hshape, hitems, -⟩ := h
  cases v with
  | arr items => exact congrArg Value.arr (map_str_filterMap hitems).symm
  | _ => simp [Rule.Kept, Shape.fits] at hshape

theorem isFew_of_fewLines (h : Obeys fewLines v) : IsFew v := by
  obtain ⟨hshape, hbelow, habove, -⟩ := h
  cases v with
  | int n =>
    have hpos : 0 ≤ n := by simpa [Rule.Kept, Schema.isBelow] using hbelow
    have hle : n ≤ 5 := by simpa [Rule.Kept, Schema.isAbove] using habove
    lift n to ℕ using hpos
    exact ⟨n, by omega, by simp [Value.number?]⟩
  | real x => exact Binary64.exists_value?_eq hshape hbelow habove
  | _ => simp [Rule.Kept, Shape.fits] at hshape

end Values

/-! ### Keys -/

def keyPath (key : String) : List String := (Text.splitOn '.' key.toList).map String.ofList

def Schema.member? (name : String) : List Rule → Option Schema
  | [] => none
  | .properties members :: rest => (members.lookup name).or (member? name rest)
  | _ :: rest => member? name rest

def Schema.at? (s : Schema) : List String → Option Schema
  | [] => some s
  | name :: rest => (Schema.member? name s).bind fun s => Schema.at? s rest

theorem obeys_of_membersObey {members : List (String × List Rule)} {v part : Value}
    (h : MembersObey members v) (hs : members.lookup name = some s)
    (hpart : v.member? name = some part) : Obeys s part := by
  induction members with
  | nil => cases hs
  | cons member rest ih =>
    obtain ⟨first, rules⟩ := member
    obtain ⟨hfirst, hrest⟩ := h
    rw [Table.lookup_cons_eq_ite] at hs
    split at hs
    next hname =>
      obtain rfl := Option.some.inj hs
      exact hfirst part (hname ▸ hpart)
    next => exact ih hrest hs

theorem obeys_member {v part : Value} (h : Obeys rules v) (hs : Schema.member? name rules = some s)
    (hpart : v.member? name = some part) : Obeys s part := by
  induction rules with
  | nil => cases hs
  | cons rule rest ih =>
    obtain ⟨hrule, hrest⟩ := h
    cases rule with
    | properties members =>
      rw [Schema.member?, Option.or_eq_some_iff] at hs
      rcases hs with hs | ⟨-, hs⟩
      · exact obeys_of_membersObey hrule hs hpart
      · exact ih hrest hs
    | _ => exact ih hrest hs

theorem obeys_at? {s' : Schema} {v part : Value} {names : List String} (h : Obeys s v)
    (hs : s.at? names = some s') (hpart : v.at? names = some part) : Obeys s' part := by
  induction names generalizing s v with
  | nil =>
    obtain rfl := Option.some.inj hs
    obtain rfl := Option.some.inj hpart
    exact h
  | cons name rest ih =>
    obtain ⟨s₁, hs₁, hs⟩ := Option.bind_eq_some_iff.mp hs
    obtain ⟨v₁, hv₁, hpart⟩ := Option.bind_eq_some_iff.mp hpart
    exact ih (obeys_member h hs₁ hv₁) hs hpart

/-- What holds of the values that the schema allows for a key, and of the default, holds of what a
configuration answers. -/
theorem get_of_obeys {c : Config} {default : Value} {P : Value → Prop}
    (hc : Obeys Schema.standard c.document) (hs : Schema.standard.at? (keyPath key) = some s)
    (hP : ∀ v, Obeys s v → P v) (hdefault : P default) : P (c.get key default) := by
  rw [get]
  cases hv : c.get? key with
  | none => exact hdefault
  | some v => exact hP v (obeys_at? hc hs hv)

theorem kept_of_mem {rule : Rule} {v : Value} (h : Obeys rules v) (hrule : rule ∈ rules) :
    rule.Kept v := by
  induction rules with
  | nil => cases hrule
  | cons first rest ih =>
    obtain ⟨hfirst, hrest⟩ := h
    rcases List.mem_cons.mp hrule with rfl | hmem
    · exact hfirst
    · exact ih hrest hmem

theorem exists_member {names : List String} {v : Value} (name : String) (h : Obeys rules v)
    (hshape : Rule.shape .object ∈ rules) (hrequired : Rule.required names ∈ rules)
    (hname : name ∈ names) : ∃ part, v.member? name = some part := by
  have hobject := kept_of_mem h hshape
  have hmembers := kept_of_mem h hrequired
  cases v with
  | obj members => exact Option.ne_none_iff_exists'.mp (hmembers members rfl name hname)
  | _ => simp [Rule.Kept, Shape.fits] at hobject

/-- The output mode has no default, but every configuration has one. -/
theorem exists_outputMode {c : Config} (hc : Obeys Schema.standard c.document) :
    ∃ s ∈ ["in_place", "new_files"], c.outputMode = .str s := by
  obtain ⟨output, houtput⟩ := exists_member "output" hc (.head _) (.tail _ (.head _)) (by decide)
  have hobeys : Obeys outputSchema output :=
    obeys_member hc (by simp [Schema.standard, Schema.member?]) houtput
  obtain ⟨mode, hmode⟩ := exists_member "mode" hobeys (.head _) (.tail _ (.head _)) (by decide)
  have hget : c.outputMode = mode := by
    simp [outputMode, get, get?, Text.splitOn, Value.at?, houtput, hmode]
  rw [hget]
  exact exists_option_of_oneOf
    (obeys_member hobeys (by simp [outputSchema, Schema.member?]) hmode)

/-! ### Accepted configurations -/

/-- The conventions that the elements of a group may have. -/
def choices : NamingGroup → List Convention
  | .vars => [.snake, .camel, .pascal]
  | .functions => [.snake, .camel, .pascal]
  | .classes => [.snake, .camel, .pascal]
  | .constants => [.upper, .snake]
  | .privateMethods => [.privateSnake, .privateCamel]
  | .dunderMethods => [.dunderSnake, .dunderCamel]

def fixedKeys : List (String × Schema) :=
  [("output.confirm_changes", flag), ("output.show_diffs", flag), ("output.new_files_suffix", text),
   ("file_selection.include_patterns", textList), ("file_selection.exclude_patterns", textList),
   ("file_selection.recursive", flag), ("formatting_rules.blank_lines_after_class", fewLines),
   ("formatting_rules.blank_lines_after_function", fewLines), ("enabled_rules.blank_lines", flag),
   ("enabled_rules.docstring_formatting", flag)]

theorem at?_fixedKeys (h : (key, s) ∈ fixedKeys) : Schema.standard.at? (keyPath key) = some s := by
  simp only [fixedKeys, List.mem_cons, Prod.mk.injEq, List.not_mem_nil, or_false] at h
  rcases h with ⟨rfl, rfl⟩ | ⟨rfl, rfl⟩ | ⟨rfl, rfl⟩ | ⟨rfl, rfl⟩ | ⟨rfl, rfl⟩ | ⟨rfl, rfl⟩ |
    ⟨rfl, rfl⟩ | ⟨rfl, rfl⟩ | ⟨rfl, rfl⟩ | ⟨rfl, rfl⟩ <;>
    simp [keyPath, Text.splitOn, Schema.at?, Schema.member?, Schema.standard, outputSchema,
      selectionSchema, formattingSchema, rulesSchema, Table.lookup_cons_eq_ite]

theorem at?_conventionKey (g : NamingGroup) :
    Schema.standard.at? (keyPath ("naming_conventions." ++ g.conventionKey)) =
      some (oneOf ((choices g).map Convention.name)) := by
  have hkey : keyPath ("naming_conventions." ++ g.conventionKey) =
      ["naming_conventions", g.conventionKey] := by
    cases g <;> decide +kernel
  rw [hkey]
  cases g <;>
    simp [Schema.at?, Schema.member?, Schema.standard, namingSchema, Table.lookup_cons_eq_ite,
      NamingGroup.conventionKey, choices, Convention.name]

theorem at?_ruleKey (g : NamingGroup) :
    Schema.standard.at? (keyPath ("enabled_rules." ++ g.ruleKey)) = some flag := by
  have hkey : keyPath ("enabled_rules." ++ g.ruleKey) = ["enabled_rules", g.ruleKey] := by
    cases g <;> decide +kernel
  rw [hkey]
  cases g <;>
    simp [Schema.at?, Schema.member?, Schema.standard, rulesSchema, Table.lookup_cons_eq_ite,
      NamingGroup.ruleKey]

/-- What may be configured for a group: nothing, or one of its conventions. -/
def IsChoice (g : NamingGroup) (v : Value) : Prop :=
  v = .null ∨ ∃ convention ∈ choices g, v = .str convention.name

/-- Every answer of a configuration has the type that it is used with, the settings made of the
answers say the same, and a name that is asked for is the old one in a convention that there is. -/
structure WellTyped (c : Config) : Prop where
  mode : c.outputMode = .str c.settings.mode.name ∧
    (c.settings.mode = .inPlace ∨ c.settings.mode = .newFiles)
  confirmChanges : c.confirmChanges = .bool c.settings.confirmChanges
  showDiffs : c.showDiffs = .bool c.settings.showDiffs
  newFilesSuffix : c.newFilesSuffix = .str c.settings.newFilesSuffix
  includePatterns : c.includePatterns = .arr (c.settings.includePatterns.map .str)
  excludePatterns : c.excludePatterns = .arr (c.settings.excludePatterns.map .str)
  recursive : c.recursive = .bool c.settings.recursive
  afterClass : IsFew c.blankLinesAfterClass
  afterFunction : IsFew c.blankLinesAfterFunction
  naming (g : NamingGroup) : c.ruleEnabled g.ruleKey = .bool (c.settings.naming g)
  blankLines : c.ruleEnabled "blank_lines" = .bool c.settings.blankLines
  docstrings : c.ruleEnabled "docstring_formatting" = .bool c.settings.docstrings
  convention (g : NamingGroup) : IsChoice g (c.namingConvention g.conventionKey)
  requiredName {kind : ElementKind} {name new : String}
    (h : c.settings.requiredName? kind name = some new) :
    ∃ g, NamingGroup.ofKind? kind = some g ∧ ∃ convention ∈ choices g,
      c.namingConvention g.conventionKey = .str convention.name ∧ new = convention.recase name

section Obeying

variable {c : Config} (hc : Obeys Schema.standard c.document)
include hc

theorem get_flag (hs : Schema.standard.at? (keyPath key) = some flag) (default : Bool) :
    c.get key (.bool default) = .bool (c.get key (.bool default)).isTruthy :=
  get_of_obeys hc hs (fun _ => eq_bool_of_flag) rfl

theorem get_textList (hs : Schema.standard.at? (keyPath key) = some textList) {default : Value}
    (hdefault : default = .arr ((strings default).map .str)) :
    c.get key default = .arr ((strings (c.get key default)).map .str) :=
  get_of_obeys hc hs (fun _ => eq_arr_of_textList) hdefault

theorem isFew_get (hs : Schema.standard.at? (keyPath key) = some fewLines) {default : ℕ}
    (hdefault : default ≤ 5) : IsFew (c.get key (.int default)) :=
  get_of_obeys hc hs (fun _ => isFew_of_fewLines) ⟨default, hdefault, by simp [Value.number?]⟩

theorem mode_of_obeys : c.outputMode = .str c.settings.mode.name ∧
    (c.settings.mode = .inPlace ∨ c.settings.mode = .newFiles) := by
  obtain ⟨s, hs, hmode⟩ := exists_outputMode hc
  have hsettings : c.settings.mode = OutputMode.ofName s := by
    change OutputMode.ofName (c.outputMode.asString?.getD "") = _
    rw [hmode]
    rfl
  rw [hsettings, hmode]
  rcases List.mem_pair.mp hs with rfl | rfl
  · exact ⟨rfl, .inl rfl⟩
  · exact ⟨rfl, .inr rfl⟩

theorem isChoice_of_obeys (g : NamingGroup) :
    IsChoice g (c.namingConvention g.conventionKey) := by
  change IsChoice g (c.get ("naming_conventions." ++ g.conventionKey) .null)
  refine get_of_obeys hc (at?_conventionKey g) ?_ (.inl rfl)
  intro v hv
  obtain ⟨s, hs, rfl⟩ := exists_option_of_oneOf hv
  obtain ⟨convention, hmem, rfl⟩ := List.mem_map.mp hs
  exact .inr ⟨convention, hmem, rfl⟩

theorem requiredName_of_obeys {kind : ElementKind} {new : String}
    (h : c.settings.requiredName? kind name = some new) :
    ∃ g, NamingGroup.ofKind? kind = some g ∧ ∃ convention ∈ choices g,
      c.namingConvention g.conventionKey = .str convention.name ∧ new = convention.recase name := by
  rw [Settings.requiredName?] at h
  split at h
  · cases h
  next g hg =>
    refine ⟨g, hg, ?_⟩
    rw [Option.ite_none_left_eq_some] at h
    obtain ⟨-, h⟩ := h
    have hconvention : c.settings.convention g =
        (c.namingConvention g.conventionKey).asString? := rfl
    rw [hconvention] at h
    rcases isChoice_of_obeys hc g with hnull | ⟨convention, hmem, hname⟩
    · rw [hnull] at h
      cases h
    · rw [hname, Value.asString?] at h
      obtain ⟨-, h⟩ := Option.ite_none_left_eq_some.mp h
      refine ⟨convention, hmem, hname, ?_⟩
      rw [← Naming.recaseAs_name]
      exact (Option.some.inj h).symm

theorem wellTyped_of_obeys : WellTyped c where
  mode := mode_of_obeys hc
  confirmChanges := get_flag hc (at?_fixedKeys (by simp [fixedKeys])) true
  showDiffs := get_flag hc (at?_fixedKeys (by simp [fixedKeys])) true
  newFilesSuffix :=
    get_of_obeys hc (at?_fixedKeys (by simp [fixedKeys])) (fun _ => eq_str_of_text) rfl
  includePatterns := get_textList hc (at?_fixedKeys (by simp [fixedKeys])) rfl
  excludePatterns := get_textList hc (at?_fixedKeys (by simp [fixedKeys])) rfl
  recursive := get_flag hc (at?_fixedKeys (by simp [fixedKeys])) true
  afterClass := isFew_get hc (at?_fixedKeys (by simp [fixedKeys])) (by decide : 2 ≤ 5)
  afterFunction := isFew_get hc (at?_fixedKeys (by simp [fixedKeys])) (by decide : 1 ≤ 5)
  naming g := get_flag hc (at?_ruleKey g) false
  blankLines := get_flag hc (at?_fixedKeys (by simp [fixedKeys])) false
  docstrings := get_flag hc (at?_fixedKeys (by simp [fixedKeys])) false
  convention := isChoice_of_obeys hc
  requiredName := requiredName_of_obeys hc

end Obeying

/-- A value that the schema has nothing against makes a configuration whose every answer has the
type that it is used with. -/
theorem wellTyped_of_accepted [Validator] (path : Path) {v : Value}
    (h : Schema.standard.violation? v = none) : WellTyped ⟨path, .standard, v⟩ :=
  wellTyped_of_obeys ((Schema.standard.violation?_eq_none_iff v).mp h)

/-- A document with empty and with missing members, a member that no rule is about, and a number
with a point. -/
def sparseDocument : Value :=
  .obj [("output", .obj [("mode", .str "new_files"), ("colour", .int 7)]),
    ("file_selection", .obj []), ("naming_conventions", .obj [("functions", .str "snake_case")]),
    ("formatting_rules", .obj [("blank_lines_after_class", .real (.finite false (2 ^ 52) (-51)))]),
    ("enabled_rules", .obj [("function_naming", .bool true)])]

theorem wellTyped_of_accepted_sparse :
    Schema.standard.violation? sparseDocument = none ∧
      WellTyped ⟨Path.parse "config.json", .standard, sparseDocument⟩ ∧
      (Config.settings ⟨Path.parse "config.json", .standard, sparseDocument⟩).requiredName?
        .function "oldName" = some "old_name" := by
  have haccepted : Schema.standard.violation? sparseDocument = none :=
    Option.isNone_iff_eq_none.mp (by decide +kernel)
  exact ⟨haccepted, wellTyped_of_accepted _ haccepted, by decide +kernel⟩

end Config

end Restyle
