import Restyle.Config.Schema

/-!
The validator that collects every violation of a document and reports one of them. It finds none
exactly if the document obeys.
-/

namespace Restyle.Config

open Json

namespace Schema

/-- Whether a value has the shape that a schema asks for; no when it asks for none. -/
def shapeFits (s : Schema) (v : Value) : Bool :=
  s.any fun
    | .shape t => t.fits v
    | _ => false

mutual

/-- The violations of the rules `rest`, which are the end of the schema `s`. -/
def check (s : Schema) (rest : List Rule) (place : List Step) (v : Value) : List Violation :=
  match rest with
  | [] => []
  | rule :: rest => checkRule (shapeFits s v) rule place v ++ check s rest place v

def checkRule (fits : Bool) (rule : Rule) (place : List Step) (v : Value) : List Violation :=
  match rule with
  | .shape t => if t.fits v then [] else [⟨place, .wrongShape v t, fits⟩]
  | .options values =>
    if (v.asString?.map values.contains).getD false then []
    else [⟨place, .notOption v values, fits⟩]
  | .required names =>
    match v with
    | .obj members =>
      (names.filter fun n => (members.lookup n).isNone).map fun n => ⟨place, .missing n, fits⟩
    | _ => []
  | .properties members => checkMembers members place v
  | .items rules =>
    (v.asList?.getD []).zipIdx.flatMap fun (item, i) => check rules rules (place ++ [.index i]) item
  | .minimum n => if isBelow v n then [⟨place, .below v n, fits⟩] else []
  | .maximum n => if isAbove v n then [⟨place, .above v n, fits⟩] else []

def checkMembers (members : List (String × List Rule)) (place : List Step) (v : Value) :
    List Violation :=
  match members with
  | [] => []
  | (name, rules) :: rest =>
    (match v.member? name with
      | some part => check rules rules (place ++ [.key name]) part
      | none => []) ++ checkMembers rest place v

end

def violations (s : Schema) (v : Value) : List Violation := check s s [] v

end Schema

/-! ### The reported violation -/

namespace Step

def lt : Step → Step → Bool
  | key a, key b => a < b
  | index i, index j => i < j
  | index _, key _ => true
  | key _, index _ => false

end Step

/-- Whether the place `p` comes before the place `q`, step by step. -/
def placeLt : List Step → List Step → Bool
  | [], q => !q.isEmpty
  | _ :: _, [] => false
  | a :: p, b :: q => a.lt b || (a == b && placeLt p q)

/-- Whether `b` says more than `a`: it is nearer to the root, or comes later among those equally
near, or the shape itself is wrong. -/
def Violation.isOutranked (a b : Violation) : Bool :=
  if a.place.length != b.place.length then b.place.length < a.place.length
  else if a.place != b.place then placeLt a.place b.place
  else a.shapeFits && !b.shapeFits

/-- The first violation that none outranks. -/
def Violation.best? : List Violation → Option Violation
  | [] => none
  | v :: rest => some (rest.foldl (fun best w => if best.isOutranked w then w else best) v)

/-! ### The validator -/

mutual

/-- The check of a rule finds nothing exactly if the rule is kept. -/
theorem checkRule_eq_nil : ∀ (fits : Bool) (rule : Rule) (place : List Step) (v : Value),
    Schema.checkRule fits rule place v = [] ↔ rule.Kept v
  | fits, .shape s, place, v => by simp [Schema.checkRule, Rule.Kept]
  | fits, .options values, place, v => by
    cases v <;> simp [Schema.checkRule, Rule.Kept, Value.asString?]
  | fits, .required names, place, v => by
    cases v <;> simp [Schema.checkRule, Rule.Kept]
  | fits, .properties members, place, v => by
    rw [Schema.checkRule, Rule.Kept, checkMembers_eq_nil members place v]
  | fits, .items rules, place, v => by
    rw [Schema.checkRule, Rule.Kept, List.flatMap_eq_nil_iff]
    constructor
    · intro h item hitem
      obtain ⟨i, hi⟩ := List.mem_iff_getElem?.mp hitem
      have hchecked := h (item, i) (List.mem_zipIdx_iff_getElem?.mpr hi)
      exact (check_eq_nil rules rules (place ++ [.index i]) item).mp hchecked
    · rintro h ⟨item, i⟩ hitem
      have hmem := List.mem_of_getElem? (List.mem_zipIdx_iff_getElem?.mp hitem)
      exact (check_eq_nil rules rules (place ++ [.index i]) item).mpr (h item hmem)
  | fits, .minimum n, place, v => by simp [Schema.checkRule, Rule.Kept]
  | fits, .maximum n, place, v => by simp [Schema.checkRule, Rule.Kept]

theorem check_eq_nil : ∀ (s : Schema) (rest : List Rule) (place : List Step) (v : Value),
    Schema.check s rest place v = [] ↔ Obeys rest v
  | s, [], place, v => by simp [Schema.check, Obeys]
  | s, rule :: rest, place, v => by
    rw [Schema.check, List.append_eq_nil_iff, Obeys, checkRule_eq_nil _ rule place v,
      check_eq_nil s rest place v]

theorem checkMembers_eq_nil : ∀ (members : List (String × List Rule)) (place : List Step)
    (v : Value), Schema.checkMembers members place v = [] ↔ MembersObey members v
  | [], place, v => by simp [Schema.checkMembers, MembersObey]
  | (name, rules) :: rest, place, v => by
    rw [Schema.checkMembers, List.append_eq_nil_iff, MembersObey,
      checkMembers_eq_nil rest place v]
    cases hpart : v.member? name with
    | none => simp
    | some part => simp [check_eq_nil rules rules (place ++ [.key name]) part]

end

theorem Violation.best?_eq_none (vs : List Violation) : Violation.best? vs = none ↔ vs = [] := by
  cases vs <;> simp [Violation.best?]

instance Validator.collecting : Validator where
  violation? s v := Violation.best? (s.violations v)
  violation?_eq_none_iff s v := by
    rw [Violation.best?_eq_none, Schema.violations, check_eq_nil]

end Restyle.Config
