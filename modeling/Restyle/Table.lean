/-!
Tables from keys to values. The entries keep the order in which their keys came first.
-/

namespace Restyle

structure Table (κ α : Type) where
  entries : List (κ × α)
deriving DecidableEq, Repr

namespace Table

variable {κ α : Type} [DecidableEq κ]

def empty : Table κ α := ⟨[]⟩

/-- Changes the value of a key, which is `default` before the first change. A known key keeps its
place, and a new one comes last. -/
def modifyEntries (key : κ) (default : α) (f : α → α) : List (κ × α) → List (κ × α)
  | [] => [(key, f default)]
  | (k, v) :: rest =>
    if k = key then (k, f v) :: rest else (k, v) :: modifyEntries key default f rest

def modify (t : Table κ α) (key : κ) (default : α) (f : α → α) : Table κ α :=
  ⟨modifyEntries key default f t.entries⟩

def insert (t : Table κ α) (key : κ) (value : α) : Table κ α := t.modify key value fun _ => value

def ofList (pairs : List (κ × α)) : Table κ α :=
  pairs.foldl (fun t (k, v) => t.insert k v) empty

def get? (t : Table κ α) (key : κ) : Option α := t.entries.lookup key

def contains (t : Table κ α) (key : κ) : Bool := (t.get? key).isSome

def isEmpty (t : Table κ α) : Bool := t.entries.isEmpty

def size (t : Table κ α) : Nat := t.entries.length

/-- The entries of `t`, overridden and followed by those of `u`. -/
def override (t u : Table κ α) : Table κ α :=
  u.entries.foldl (fun t (k, v) => t.insert k v) t

def keys (t : Table κ α) : List κ := t.entries.map (·.1)

@[simp] theorem get?_empty (k : κ) : (empty : Table κ α).get? k = none := rfl

end Table

abbrev Index (α : Type) := Table String (List α)

namespace Index

variable {α : Type}

def all (t : Index α) (name : String) : List α := (Table.get? t name).getD []

def add (t : Index α) (name : String) (value : α) : Index α :=
  Table.modify t name [] (· ++ [value])

def touch (t : Index α) (name : String) : Index α := Table.modify t name [] id

def count (t : Index α) : Nat := (t.entries.flatMap (·.2)).length

@[simp] theorem all_empty (name : String) : all (.empty : Index α) name = [] := rfl

end Index

end Restyle
