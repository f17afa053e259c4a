import Restyle.Text.Utf8
import Restyle.Disk.Path

/-!
A disk: a tree of directories and files with the permissions of their owner. Operations follow a
path from the root, or from the working directory, and fail with the reason and the path.
-/

namespace Restyle.Disk

/-- What the owner may do. On a directory, `execute` allows to reach what is below it. -/
structure Mode where
  read : Bool
  write : Bool
  execute : Bool
deriving DecidableEq, Repr

namespace Mode

def ofOctal (digit : Nat) : Mode := ⟨digit / 4 % 2 == 1, digit / 2 % 2 == 1, digit % 2 == 1⟩

def file : Mode := ⟨true, true, false⟩

def directory : Mode := ⟨true, true, true⟩

end Mode

inductive Node where
  | file (mode : Mode) (content : List UInt8)
  | dir (mode : Mode) (entries : List (String × Node))
deriving Repr

namespace Node

def mode : Node → Mode
  | file m _ => m
  | dir m _ => m

def isFile : Node → Bool
  | file .. => true
  | dir .. => false

def isDir (n : Node) : Bool := !n.isFile

def child? (n : Node) (name : String) : Option Node :=
  match n with
  | dir _ entries => entries.lookup name
  | file .. => none

def get? (n : Node) : List String → Option Node
  | [] => some n
  | name :: rest => (n.child? name).bind (·.get? rest)

@[simp] theorem child?_dir (m : Mode) (entries : List (String × Node)) (name : String) :
    (dir m entries).child? name = entries.lookup name := rfl

@[simp] theorem child?_file (m : Mode) (content : List UInt8) (name : String) :
    (file m content).child? name = none := rfl

@[simp] theorem get?_nil (n : Node) : n.get? [] = some n := rfl

@[simp] theorem get?_cons (n : Node) (name : String) (rest : List String) :
    n.get? (name :: rest) = (n.child? name).bind (·.get? rest) := rfl

/-- Sets or, with `none`, removes an entry. A new entry comes last. -/
def setEntry (name : String) (new : Option Node) :
    List (String × Node) → List (String × Node)
  | [] => (new.map (name, ·)).toList
  | (k, v) :: rest =>
    if k = name then (new.map (k, ·)).toList ++ rest else (k, v) :: setEntry name new rest

/-- Changes what stands at a list of names. All directories on the way have to exist. -/
def set (n : Node) (names : List String) (new : Option Node) : Node :=
  match names with
  | [] => new.getD n
  | name :: rest =>
    match n with
    | file m c => file m c
    | dir m entries =>
      match rest with
      | [] => dir m (setEntry name new entries)
      | _ :: _ =>
        match entries.lookup name with
        | some child => dir m (setEntry name (some (child.set rest new)) entries)
        | none => dir m entries

/-- Puts a node at a list of names, and makes the directories on the way that are missing. -/
def plant (n : Node) (names : List String) (new : Node) : Node :=
  match names with
  | [] => new
  | name :: rest =>
    match n with
    | file m c => file m c
    | dir m entries =>
      let child := (entries.lookup name).getD (dir .directory [])
      dir m (setEntry name (some (child.plant rest new)) entries)

mutual

def files (names : List String) : Node → List (List String × List UInt8)
  | file _ content => [(names, content)]
  | dir _ entries => filesOfEntries names entries

def filesOfEntries (names : List String) :
    List (String × Node) → List (List String × List UInt8)
  | [] => []
  | (name, n) :: rest => n.files (names ++ [name]) ++ filesOfEntries names rest

end

mutual

def size : Node → Nat
  | file .. => 1
  | dir _ entries => 1 + sizeOfEntries entries

def sizeOfEntries : List (String × Node) → Nat
  | [] => 0
  | (_, n) :: rest => n.size + sizeOfEntries rest

end

end Node

inductive Reason where
  | notFound
  | denied
  | notDirectory
  | isDirectory
  | nameTooLong
deriving DecidableEq, Repr

namespace Reason

def number : Reason → Nat
  | notFound => 2
  | denied => 13
  | notDirectory => 20
  | isDirectory => 21
  | nameTooLong => 36

def text : Reason → String
  | notFound => "No such file or directory"
  | denied => "Permission denied"
  | notDirectory => "Not a directory"
  | isDirectory => "Is a directory"
  | nameTooLong => "File name too long"

end Reason

structure Refusal where
  reason : Reason
  path : Option String
deriving DecidableEq, Repr

def Refusal.message (r : Refusal) : String :=
  let place := match r.path with
    | some p => ": " ++ Text.quoted p
    | none => ""
  s!"[Errno {r.reason.number}] {r.reason.text}{place}"

end Restyle.Disk

namespace Restyle

/-- A tree of files, seen by one user from one working directory. -/
structure Disk where
  root : Disk.Node
  /-- Whether permissions count. They do not for the superuser. -/
  enforced : Bool
  /-- The working directory, unless it has been removed. -/
  cwd : Option (List String)

namespace Disk

def mayRead (d : Disk) (n : Node) : Bool := !d.enforced || n.mode.read

def mayWrite (d : Disk) (n : Node) : Bool := !d.enforced || n.mode.write

def maySearch (d : Disk) (n : Node) : Bool := !d.enforced || n.mode.execute

def maxNameBytes : Nat := 255

/-- Follows names from a directory, and answers with the names from the root. -/
def walk (d : Disk) (here : List String) : List String → Except Reason (List String)
  | [] => .ok here
  | name :: rest =>
    match d.root.get? here with
    | none => .error .notFound
    | some (.file ..) => .error .notDirectory
    | some n =>
      if !d.maySearch n then .error .denied
      else if name = ".." then d.walk here.dropLast rest
      else if name.utf8ByteSize > maxNameBytes then .error .nameTooLong
      else if (n.child? name).isNone then .error .notFound
      else d.walk (here ++ [name]) rest

/-- Where a path leads, as names from the root, without asking whether the last one exists. -/
def place (d : Disk) (p : Path) : Except Reason (List String) :=
  if p.isAbsolute then d.walk [] p.names
  else match d.cwd with
    | some here => d.walk here p.names
    | none => .error .notFound

def refuse (p : Path) (r : Reason) : Refusal := ⟨r, some p.text⟩

def node (d : Disk) (p : Path) : Except Reason Node := do
  if !p.isAbsolute && d.cwd.isNone && p.names.isEmpty then
    -- a removed working directory is still there, and empty
    return .dir .directory []
  let names ← d.place p
  match d.root.get? names with
  | some n => return n
  | none => throw .notFound

/-- Asks something about the node at a path. A path that leads nowhere answers no; every other
refusal is passed on. -/
def ask (d : Disk) (p : Path) (question : Node → Bool) : Except Refusal Bool :=
  if p.hasNull then .ok false
  else match d.node p with
    | .ok n => .ok (question n)
    | .error .notFound => .ok false
    | .error .notDirectory => .ok false
    | .error r => .error (refuse p r)

def exists? (d : Disk) (p : Path) : Except Refusal Bool := d.ask p fun _ => true

def isFile? (d : Disk) (p : Path) : Except Refusal Bool := d.ask p Node.isFile

def isDir? (d : Disk) (p : Path) : Except Refusal Bool := d.ask p Node.isDir

def read (d : Disk) (p : Path) : Except Refusal (List UInt8) :=
  match d.node p with
  | .error r => .error (refuse p r)
  | .ok n =>
    if !d.mayRead n then .error (refuse p .denied)
    else match n with
      | .file _ content => .ok content
      | .dir .. => .error (refuse p .isDirectory)

def list (d : Disk) (p : Path) : Except Refusal (List String) :=
  match d.node p with
  | .error r => .error (refuse p r)
  | .ok n =>
    match n with
    | .file .. => .error (refuse p .notDirectory)
    | .dir _ entries =>
      if d.mayRead n then .ok (entries.map (·.1)) else .error (refuse p .denied)

/-- The directory that holds the last name of a path, and that name. -/
def holder (d : Disk) (p : Path) : Except Reason (List String × Node × String) := do
  let here ← d.place p.parent
  match d.root.get? here with
  | none => throw .notFound
  | some (.file ..) => throw .notDirectory
  | some n =>
    if !d.maySearch n then throw .denied
    if p.name.utf8ByteSize > maxNameBytes then throw .nameTooLong
    return (here, n, p.name)

/-- Opens a file for writing: it is emptied, or created. -/
def truncate (d : Disk) (p : Path) : Except Refusal Disk :=
  match d.holder p with
  | .error r => .error (refuse p r)
  | .ok (here, dir, name) =>
    match dir.child? name with
    | some (.dir ..) => .error (refuse p .isDirectory)
    | some (.file mode content) =>
      if !d.mayWrite (.file mode content) then .error (refuse p .denied)
      else .ok { d with root := d.root.set (here ++ [name]) (some (.file mode [])) }
    | none =>
      if !d.mayWrite dir then .error (refuse p .denied)
      else .ok { d with root := d.root.set (here ++ [name]) (some (.file .file [])) }

def fill (d : Disk) (p : Path) (content : List UInt8) : Disk :=
  match d.place p with
  | .error _ => d
  | .ok names =>
    match d.root.get? names with
    | some (.file mode _) => { d with root := d.root.set names (some (.file mode content)) }
    | _ => d

def write (d : Disk) (p : Path) (content : List UInt8) : Except Refusal Disk :=
  (d.truncate p).map (·.fill p content)

def remove (d : Disk) (p : Path) : Except Refusal Disk :=
  match d.holder p with
  | .error r => .error (refuse p r)
  | .ok (here, dir, name) =>
    match dir.child? name with
    | none => .error (refuse p .notFound)
    | some n =>
      if !d.mayWrite dir then .error (refuse p .denied)
      else match n with
        | .dir .. => .error (refuse p .isDirectory)
        | .file .. => .ok { d with root := d.root.set (here ++ [name]) none }

def setMode (d : Disk) (p : Path) (mode : Mode) : Disk :=
  match d.place p with
  | .error _ => d
  | .ok names =>
    match d.root.get? names with
    | some (.file _ content) => { d with root := d.root.set names (some (.file mode content)) }
    | some (.dir _ entries) => { d with root := d.root.set names (some (.dir mode entries)) }
    | none => d

/-- Copies a file with its permissions. A directory as target takes the file under its own
name. -/
def copy (d : Disk) (source target : Path) : Except Refusal Disk := do
  let target := match d.node target with
    | .ok (.dir ..) => target ++ ⟨"", [source.name]⟩
    | _ => target
  let content ← d.read source
  let d' ← d.write target content
  match d.node source with
  | .ok n => return d'.setMode target n.mode
  | .error _ => return d'

/-- The path from the root that a path stands for, by its spelling. Only a relative path needs
the working directory. -/
def resolve (d : Disk) (p : Path) : Except Refusal Path :=
  if p.isAbsolute then .ok ⟨"/", Path.collapse p.names⟩
  else match d.cwd with
    | some here => .ok ⟨"/", Path.collapse (here ++ p.names)⟩
    | none => .error ⟨.notFound, none⟩

end Disk

end Restyle
