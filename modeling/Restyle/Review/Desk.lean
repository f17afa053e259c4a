import Restyle.Disk.Basic
import Restyle.Review.Viewer
import Restyle.Text.Case

/-!
What a review works on: the disk, the console with its input, and the window. What happens on the
way is kept as a list of events.
-/

namespace Restyle.Review

inductive Stop where
  | interrupt
  | endOfInput
deriving DecidableEq, Repr

def Stop.message : Stop → String
  | interrupt => ""
  | endOfInput => "EOF when reading a line"

inductive Verdict where
  | yes
  | no
  | quit
deriving DecidableEq, Repr

inductive Event where
  /-- A line on the console. -/
  | line (text : String)
  /-- The question whether to apply a change. -/
  | question
  /-- The answer about a file on the console. -/
  | answered (path : Disk.Path) (verdict : Verdict)
  /-- The questions about a file end without an answer. -/
  | unanswered (path : Disk.Path) (stop : Stop)
  /-- The choice about a file in the window, and whether the box for all files is set. -/
  | chosen (path : Disk.Path) (choice : Choice) (all : Bool)
  /-- The dialogue about a file in the window ends without a choice. -/
  | brokenOff (path : Disk.Path) (breakdown : Breakdown)
  /-- An attempt to write a text for a file, and whether it was written. -/
  | write (path : Disk.Path) (code : Option String) (success : Bool)
deriving DecidableEq, Repr

namespace Event

/-- What an event puts on the console. No line ends after a question. -/
def text : Event → String
  | line s => s ++ "\n"
  | question => "\nApply changes? [y/n/q] (yes/no/quit): "
  | _ => ""

def ofAnswer (path : Disk.Path) : Except Stop Verdict → Event
  | .ok v => answered path v
  | .error e => unanswered path e

def ofChoice (path : Disk.Path) (all : Bool) : Except Breakdown Choice → Event
  | .ok c => chosen path c all
  | .error b => brokenOff path b

end Event

structure Desk where
  disk : Disk
  /-- The lines still to be read. There is none where the user interrupts the program. -/
  input : List (Option String)
  window : Option Window
  actions : List Action
  /-- Whether there are windows at all. -/
  hasWindows : Bool
  sizes : Sizes
  log : List Event

namespace Desk

def output (d : Desk) : String := String.join (d.log.map Event.text)

def add (d : Desk) (es : List Event) : Desk := { d with log := d.log ++ es }

def say (d : Desk) (lines : List String) : Desk := d.add (lines.map .line)

@[simp] theorem say_nil (d : Desk) : d.say [] = d := by
  simp [say, add]

@[simp] theorem say_say (d : Desk) (lines more : List String) :
    (d.say lines).say more = d.say (lines ++ more) := by
  simp [say, add]

end Desk

/-- The meaning of an answer, whatever its case and the blanks around it. -/
def verdict? (answer : String) : Option Verdict :=
  let s := String.ofList (Text.trim (Text.lower answer.toList))
  if s = "y" ∨ s = "yes" then some .yes
  else if s = "n" ∨ s = "no" then some .no
  else if s = "q" ∨ s = "quit" then some .quit
  else none

/-- Asks until there is an answer that has a meaning. -/
def readVerdict : List (Option String) → Except Stop Verdict × List (Option String) × List Event
  | [] => (.error .endOfInput, [], [.question])
  | none :: rest => (.error .interrupt, rest, [.question])
  | some s :: rest =>
    match verdict? s with
    | some v => (.ok v, rest, [.question])
    | none =>
      let (r, rest, es) := readVerdict rest
      (r, rest, .question :: .line "Please enter 'y', 'n', or 'q'" :: es)

end Restyle.Review
