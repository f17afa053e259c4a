import Restyle.Disk.Path
import Restyle.Review.Highlight

/-!
The window that shows a change and asks about it. What the window system is asked to do is a list
of calls, and what the user does is a list of actions, one for every turn of the event loop.
-/

namespace Restyle.Review

inductive Pane where
  | old
  | new
deriving DecidableEq, Repr

inductive Axis where
  | vertical
  | horizontal
deriving DecidableEq, Repr

/-- What the window system is asked to do. Scroll positions `α` are passed on as they are. -/
inductive WindowCall (α : Type) where
  | geometry (text : String)
  | label (text : String)
  | scroll (pane : Pane) (axis : Axis) (units : Int)
  | view (pane : Pane) (axis : Axis) (args : List α)
  | bar (axis : Axis) (args : List α)
  | destroy
deriving DecidableEq, Repr

structure Sizes where
  screen : Nat × Nat
  window : Nat × Nat
deriving DecidableEq, Repr

def Sizes.standard : Sizes := ⟨(1920, 1080), (1200, 700)⟩

def initialGeometry : String := "1200x700"

/-- The size of the window, and the place where it is in the middle of the screen. -/
def Sizes.centred (s : Sizes) : String :=
  let x : Int := (s.screen.1 / 2 : Nat) - (s.window.1 / 2 : Nat)
  let y : Int := (s.screen.2 / 2 : Nat) - (s.window.2 / 2 : Nat)
  s!"{s.window.1}x{s.window.2}+{x}+{y}"

/-! ### Scrolling -/

/-- An event of the wheel: the keys that are held, how far it turned, and its button. -/
structure WheelEvent where
  state : Nat
  delta : Int
  button : Int
deriving DecidableEq, Repr

/-- How many units to scroll. A wheel that reports no distance is told by its button. -/
def WheelEvent.units (e : WheelEvent) : Int :=
  if e.delta ≠ 0 then -(e.delta.fdiv 120) else if e.button = 4 then -1 else 1

/-- The axis along which to scroll: without keys the vertical one, and with shift the other. -/
def WheelEvent.axis? (e : WheelEvent) : Option Axis :=
  if e.state = 0 then some .vertical else if e.state % 2 = 1 then some .horizontal else none

def wheelCalls {α : Type} (e : WheelEvent) : List (WindowCall α) :=
  match e.axis? with
  | some axis => [.scroll .old axis e.units, .scroll .new axis e.units]
  | none => []

def viewCalls {α : Type} (axis : Axis) (args : List α) : List (WindowCall α) :=
  [.view .old axis args, .view .new axis args]

def barCalls {α : Type} (axis : Axis) (args : List α) : List (WindowCall α) :=
  [.bar axis args, .bar axis args]

/-! ### The dialogue -/

/-- What the user does in one turn. A quit counts if the user is sure. -/
inductive Click where
  | apply
  | skip
  | quit (sure : Bool)
  | nothing
  | close
  | displayLost
  | interrupt
deriving DecidableEq, Repr

/-- A click, after the box for all remaining files was set or cleared. -/
structure Action where
  click : Click
  all : Option Bool
deriving DecidableEq, Repr

inductive Choice where
  | apply
  | skip
  | quit
deriving DecidableEq, Repr

def Choice.name : Choice → String
  | apply => "apply"
  | skip => "skip"
  | quit => "quit"

inductive Breakdown where
  | displayLost
  | interrupt
deriving DecidableEq, Repr

/-- The state of an event loop: whether the choice is for all files, the actions still to come,
and the lines told so far. -/
structure Turn where
  all : Bool
  actions : List Action
  told : List String

/-- Runs the event loop until there is a choice. Without any action left the window is closed. -/
def awaitChoice (all : Bool) : List Action → Except Breakdown Choice × Turn
  | [] => (.ok .quit, ⟨all, [], []⟩)
  | a :: rest =>
    let all := a.all.getD all
    match a.click with
    | .apply => (.ok .apply, ⟨all, rest, ["🟢 User clicked Apply"]⟩)
    | .skip => (.ok .skip, ⟨all, rest, ["🟡 User clicked Skip"]⟩)
    | .quit true => (.ok .quit, ⟨all, rest, ["🔴 User clicked Quit"]⟩)
    | .quit false => awaitChoice all rest
    | .nothing => awaitChoice all rest
    | .close => (.ok .quit, ⟨all, rest, []⟩)
    | .displayLost => (.error .displayLost, ⟨all, rest, []⟩)
    | .interrupt => (.error .interrupt, ⟨all, rest, []⟩)

/-- A window that stays for the next file, with its box for all remaining files. -/
structure Window where
  all : Bool
deriving DecidableEq, Repr

structure Exhibit where
  path : Disk.Path
  old : String
  new : String
  changes : List String

namespace Exhibit

def label (e : Exhibit) : String := s!"File: {e.path}"

def changeText (e : Exhibit) : String := String.join (e.changes.map fun c => s!"• {c}\n")

def marks (e : Exhibit) : Marks := Review.marks e.old.toList e.new.toList

end Exhibit

/-- The answer of the user: whether to apply the change, and whether that goes for all files. -/
structure Answer where
  apply : Bool
  all : Bool
deriving DecidableEq, Repr

structure Shown (α : Type) where
  choice : Except Breakdown Choice
  all : Bool
  window : Option Window
  actions : List Action
  told : List String
  calls : List (WindowCall α)

/-- The answer that a choice amounts to. Whoever quits does not apply the change. -/
def Shown.answer {α : Type} (s : Shown α) : Except Breakdown Answer :=
  s.choice.map fun c => ⟨c = .apply, s.all⟩

def breakdownMessage : Breakdown → String
  | .displayLost => "display lost"
  | .interrupt => ""

def boolWord (b : Bool) : String := if b then "True" else "False"

/-- Shows a change, in the window that is there or in a new one, and waits for the answer. A window
whose display is lost is given up. -/
def showChange {α : Type} (sizes : Sizes) (window : Option Window) (actions : List Action)
    (e : Exhibit) : Shown α :=
  let created := window.isNone
  let (choice, turn) := awaitChoice ((window.map (·.all)).getD false) actions
  let start := (if created then ["🔧 Creating new GUI instance"] else []) ++
    [s!"🎨 Showing GUI for {e.path}",
     "🖥️  Window should now be visible - look for 'Python Style Converter - Diff Viewer'"] ++
    turn.told
  let calls : List (WindowCall α) := (if created then [.geometry initialGeometry] else []) ++
    [.label e.label, .geometry sizes.centred]
  match choice with
  | .ok c =>
    let last := s!"✅ GUI result: {c.name}, apply_to_all: {boolWord turn.all}"
    ⟨.ok c, turn.all, some ⟨turn.all⟩, turn.actions, start ++ [last], calls⟩
  | .error .displayLost =>
    let last := s!"❌ GUI Error: {breakdownMessage .displayLost}"
    ⟨.error .displayLost, turn.all, none, turn.actions, start ++ [last], calls ++ [.destroy]⟩
  | .error .interrupt =>
    ⟨.error .interrupt, turn.all, some ⟨turn.all⟩, turn.actions, start, calls⟩

def closeCalls {α : Type} (window : Option Window) : List (WindowCall α) :=
  if window.isSome then [.destroy] else []

end Restyle.Review
