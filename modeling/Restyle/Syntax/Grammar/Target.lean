import Restyle.Syntax.Tree

/-!
Places that can be assigned or deleted. An assignment is read as an expression first, and its left
side is then turned into a target.
-/

namespace Restyle.Syntax.Tree

def asPlace? (access : Access) : Tree → Option Tree
  | node (.name id _) r s cs => some (node (.name id access) r s cs)
  | node (.attr attr _) r s cs => some (node (.attr attr access) r s cs)
  | node (.subscript _) r s cs => some (node (.subscript access) r s cs)
  | _ => none

mutual

/-- An expression as a target. Stars are possible where they are allowed, but not a star on a
star. -/
def asTarget? (access : Access) (stars : Bool) : Tree → Option Tree
  | node (.name id _) r s cs => some (node (.name id access) r s cs)
  | node (.attr attr _) r s cs => some (node (.attr attr access) r s cs)
  | node (.subscript _) r s cs => some (node (.subscript access) r s cs)
  | node (.tuple _) r s cs => (asTargets? access cs).map (node (.tuple access) r s ·)
  | node (.list _) r s cs => (asTargets? access cs).map (node (.list access) r s ·)
  | node (.starred _) r s cs =>
    if !stars then none
    else match cs with
      | [inner] => (asTarget? access false inner).map fun t => node (.starred access) r s [t]
      | _ => none
  | _ => none

/-- The elements of a target. Only assignments have stars. -/
def asTargets? (access : Access) : List Tree → Option (List Tree)
  | [] => some []
  | t :: ts =>
    match asTarget? access (access == .store) t, asTargets? access ts with
    | some t', some ts' => some (t' :: ts')
    | _, _ => none

end

end Restyle.Syntax.Tree
