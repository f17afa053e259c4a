/-!
The difference of two texts, line by line. The longest run of lines that both have in common is
kept, and what stands before it and after it is compared in the same way.
-/

namespace Restyle.Diff

abbrev Line := List Char

/-- A line of the new text. Runs are only looked for along lines that are anchors. -/
structure NewLine where
  text : Line
  isAnchor : Bool
deriving DecidableEq, Repr

/-- In a long text, a line that stands in more than one place out of a hundred is no anchor. -/
def markLines (lines : List Line) : List NewLine :=
  let n := lines.length
  lines.map fun l => ⟨l, n < 200 || lines.count l ≤ n / 100 + 1⟩

/-- A run of equal lines, from `i` on in the old text and from `j` on in the new one. -/
structure Block where
  i : Nat
  j : Nat
  size : Nat
deriving DecidableEq, Repr

/-! ### The longest run -/

/-- For every new line, the length of the run that ends there and in the old line `line`, given
these lengths for the old line before it. -/
def runsAt (line : Line) : Nat → List Nat → List NewLine → List Nat
  | _, _, [] => []
  | diagonal, before, l :: rest =>
    (if l.isAnchor && l.text == line then diagonal + 1 else 0) ::
      runsAt line (before.headD 0) before.tail rest

/-- The longer one of a run and those that end in line `i`; of equally long ones the first. -/
def longer (i : Nat) (best : Block) (runs : List Nat) : Block :=
  runs.zipIdx.foldl (fun best (k, j) =>
    if best.size < k then ⟨i + 1 - k, j + 1 - k, k⟩ else best) best

def longestRun (old : List Line) (new : List NewLine) : Block :=
  (old.zipIdx.foldl (fun (best, before) (line, i) =>
    let runs := runsAt line 0 before new
    (longer i best runs, runs)) (⟨0, 0, 0⟩, [])).1

def commonStart : List Line → List Line → Nat
  | a :: as, b :: bs => if a = b then commonStart as bs + 1 else 0
  | _, _ => 0

/-- The longest run, extended on both sides over all lines that are equal. -/
def longestBlock (old : List Line) (new : List NewLine) : Block :=
  let run := longestRun old new
  let texts := new.map (·.text)
  let before := commonStart (old.take run.i).reverse (texts.take run.j).reverse
  let after := commonStart (old.drop (run.i + run.size)) (texts.drop (run.j + run.size))
  ⟨run.i - before, run.j - before, before + run.size + after⟩

/-! ### All runs -/

/-- The common runs of lines that start in line `i` of the old text and line `j` of the new one,
in their order. -/
def blocksFrom (i j : Nat) (old : List Line) (new : List NewLine) : List Block :=
  let b := longestBlock old new
  if _h : 0 < b.size ∧ b.i + b.size ≤ old.length then
    blocksFrom i j (old.take b.i) (new.take b.j) ++
      ⟨i + b.i, j + b.j, b.size⟩ ::
        blocksFrom (i + b.i + b.size) (j + b.j + b.size)
          (old.drop (b.i + b.size)) (new.drop (b.j + b.size))
  else []
termination_by old.length
decreasing_by
  · simp only [b] at _h
    simp only [List.length_take]
    omega
  · simp only [b] at _h
    simp only [List.length_drop]
    omega

def joinBlocks : List Block → List Block
  | a :: rest =>
    match joinBlocks rest with
    | b :: more =>
      if a.i + a.size = b.i ∧ a.j + a.size = b.j then ⟨a.i, a.j, a.size + b.size⟩ :: more
      else a :: b :: more
    | [] => [a]
  | [] => []

def blocks (old new : List Line) : List Block := joinBlocks (blocksFrom 0 0 old (markLines new))

/-! ### Edits -/

inductive EditKind where
  | replace
  | delete
  | insert
deriving DecidableEq, Repr

/-- A change of the old lines from `oldStart` up to `oldStop` to the new lines from `newStart` up
to `newStop`. -/
structure Edit where
  kind : EditKind
  oldStart : Nat
  oldStop : Nat
  newStart : Nat
  newStop : Nat
deriving DecidableEq, Repr

/-- The change between two common runs, if there is something between them. -/
def gap (i i' j j' : Nat) : List Edit :=
  if i < i' then [⟨if j < j' then .replace else .delete, i, i', j, j'⟩]
  else if j < j' then [⟨.insert, i, i', j, j'⟩]
  else []

def editsFrom (oldLength newLength i j : Nat) : List Block → List Edit
  | [] => gap i oldLength j newLength
  | b :: rest => gap i b.i j b.j ++ editsFrom oldLength newLength (b.i + b.size) (b.j + b.size) rest

def edits (old new : List Line) : List Edit :=
  editsFrom old.length new.length 0 0 (blocks old new)

end Restyle.Diff
