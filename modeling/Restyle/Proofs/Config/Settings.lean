import Restyle.Project.File

/-!
What settings ask of the name of an element. The elements that get another name in a file and
the names that a project plans both come from the same question.
-/

namespace Restyle

namespace Settings

/-- The name that an element has to have, if that is not the one it has. -/
def newName? (s : Settings) (e : Element) : Option String :=
  (s.requiredName? e.kind e.name).bind fun new =>
    if new.isEmpty || new = e.name then none else some new

/-- An element gets another name if the rule of its group is on, and the convention of the group
makes another name of it. -/
theorem newName?_eq_some_iff {s : Settings} {e : Element} {new : String} :
    s.newName? e = some new ↔
      ∃ g convention, NamingGroup.ofKind? e.kind = some g ∧ s.naming g = true ∧
        s.convention g = some convention ∧ convention ≠ "" ∧
        Naming.recaseAs e.name convention = new ∧ new ≠ "" ∧ new ≠ e.name := by
  rw [newName?, requiredName?]
  cases hgroup : NamingGroup.ofKind? e.kind with
  | none => simp
  | some g =>
    cases hconvention : s.convention g with
    | none => simp [hconvention]
    | some convention =>
      have hdiffers (required : String) :
          (¬ required = "" ∧ ¬ required = e.name) ∧ required = new ↔
            required = new ∧ ¬ new = "" ∧ ¬ new = e.name := by
        constructor
        · rintro ⟨h, rfl⟩
          exact ⟨rfl, h⟩
        · rintro ⟨rfl, h⟩
          exact ⟨h, rfl⟩
      by_cases hon : s.naming g = true <;> by_cases hnamed : convention = "" <;>
        simp [hon, hnamed, hconvention, hdiffers]

/-- A new name is the old one in a convention, and another one. -/
theorem exists_of_newName? {s : Settings} {e : Element} {new : String}
    (h : s.newName? e = some new) :
    ∃ convention, new = Naming.recaseAs e.name convention ∧ new ≠ "" ∧ new ≠ e.name := by
  obtain ⟨_, convention, -, -, -, -, rfl, hdiffers⟩ := newName?_eq_some_iff.mp h
  exact ⟨convention, rfl, hdiffers⟩

/-- An element keeps a name that the convention of its group makes nothing else of. -/
theorem newName?_eq_none {s : Settings} {e : Element} {g : NamingGroup} {convention : String}
    (hg : NamingGroup.ofKind? e.kind = some g) (hconvention : s.convention g = some convention)
    (hsame : Naming.recaseAs e.name convention = e.name) : s.newName? e = none := by
  rw [Option.eq_none_iff_forall_ne_some]
  intro new hnew
  obtain ⟨g', convention', hg', -, hconvention', -, rfl, -, hdiffers⟩ :=
    newName?_eq_some_iff.mp hnew
  obtain rfl : g = g' := Option.some.inj (hg.symm.trans hg')
  obtain rfl : convention = convention' := Option.some.inj (hconvention.symm.trans hconvention')
  exact hdiffers hsame

def usual : Settings where
  mode := .inPlace
  confirmChanges := true
  showDiffs := true
  newFilesSuffix := "_formatted"
  includePatterns := ["*.py"]
  excludePatterns := ["*/__pycache__/*", "*/venv/*", "*.pyc"]
  recursive := true
  afterClass := .count 2
  afterFunction := .count 1
  convention
    | .vars => some "snake_case"
    | .functions => some "snake_case"
    | .classes => some "PascalCase"
    | .constants => some "UPPER_CASE"
    | .privateMethods => some "_snake_case"
    | .dunderMethods => some "__snake_case__"
  naming
    | .privateMethods => false
    | .dunderMethods => false
    | _ => true
  blankLines := false
  docstrings := true

end Settings

theorem renamings_eq_filterMap (s : Settings) (es : List Element) :
    Project.renamings s es = es.filterMap fun e => (s.newName? e).map (e, ·) := by
  unfold Project.renamings
  congr 1
  funext e
  unfold Settings.newName?
  cases s.requiredName? e.kind e.name with
  | none => rfl
  | some new =>
    change (if new.isEmpty || new = e.name then none else some (e, new)) =
      (if new.isEmpty || new = e.name then none else some new).map (e, ·)
    split <;> rfl

end Restyle
