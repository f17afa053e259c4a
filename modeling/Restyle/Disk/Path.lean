import Restyle.Text.Quoted

/-!
Paths as written: a root and names. Empty names and single dots are dropped when a path is read;
double dots stay, since what they mean depends on the disk.
-/

namespace Restyle.Disk

structure Path where
  /-- Empty for a relative path; two leading slashes are a root of their own. -/
  root : String
  names : List String
deriving DecidableEq, Repr

namespace Path

def parse (s : String) : Path :=
  let slashes := (s.toList.takeWhile (· == '/')).length
  let root := if slashes = 0 then "" else if slashes = 2 then "//" else "/"
  let names := (Text.splitOn '/' s.toList).map String.ofList
  ⟨root, names.filter fun n => n != "" && n != "."⟩

/-- The root and the names joined by slashes, without a word for the empty path. -/
def joined (p : Path) : String := p.root ++ String.intercalate "/" p.names

def text (p : Path) : String :=
  if p.root.isEmpty && p.names.isEmpty then "." else p.joined

instance : ToString Path := ⟨text⟩

/-- The root, if there is one, and the names. Paths are ordered by their parts. -/
def parts (p : Path) : List String := if p.root.isEmpty then p.names else p.root :: p.names

def isAbsolute (p : Path) : Bool := !p.root.isEmpty

def name (p : Path) : String := p.names.getLast?.getD ""

/-- Whether there is a null character in a path. No path of a disk has one. -/
def hasNull (p : Path) : Bool := p.names.any fun n => n.toList.contains '\x00'

def parent (p : Path) : Path := ⟨p.root, p.names.dropLast⟩

/-- `q` as seen from `p`: a path with a root stands for itself. -/
def append (p q : Path) : Path := if q.isAbsolute then q else ⟨p.root, p.names ++ q.names⟩

instance : Append Path := ⟨append⟩

/-- A name cut before its last dot. The dot has to have something on both sides. -/
def splitName (name : String) : String × String :=
  let tail := name.toList.reverse.takeWhile (· != '.')
  let stem := name.toList.take (name.length - tail.length - 1)
  if tail.isEmpty || tail.length = name.length || stem.isEmpty then (name, "")
  else (String.ofList stem, String.ofList ('.' :: tail.reverse))

def stem (p : Path) : String := (splitName p.name).1

def suffix (p : Path) : String := (splitName p.name).2

def withName (p : Path) (name : String) : Path := ⟨p.root, p.names.dropLast ++ [name]⟩

def le (p q : Path) : Bool := !(q.parts < p.parts)

structure NotBelow where
  path : Path
  base : Path
deriving DecidableEq, Repr

def NotBelow.message (e : NotBelow) : String :=
  s!"{Text.quoted e.path.text} is not in the subpath of {Text.quoted e.base.joined}" ++
    " OR one path is relative and the other is absolute."

/-- The names that lead from `base` to `p`, by the spelling of the two alone. -/
def relativeTo (p base : Path) : Except NotBelow (List String) :=
  if p.root = base.root && base.names.isPrefixOf p.names then
    .ok (p.names.drop base.names.length)
  else .error ⟨p, base⟩

/-- The names after every double dot has taken back the name before it. -/
def collapse (names : List String) : List String :=
  (names.foldl (fun done n => if n = ".." then done.tail else n :: done) []).reverse

end Path

end Restyle.Disk
