import Restyle.Source.Session
import Restyle.Syntax.Dialect

/-!
The two copies of a source. A reader keeps what it has read as soon as it has read it, and a session
takes the source over when it has checked the answer of its reader. The main statement is that the
two copies are the same after any operations, also where some of them fail: a load that fails
changes neither copy, and the lines that are shown are lines of the text that is loaded.
-/

namespace Restyle

variable {source : Source}

namespace Source

/-- The lines of a source are those of its text. -/
def Sound (source : Source) : Prop := source.lines = Text.lines source.text

section Readers

variable [Dialect] {d : Disk} {path : Disk.Path} {text : List Char} {kept : Option Source}
  {fault : FileFault}

theorem sound_ofText? (h : ofText? text = some source) : source.Sound := by
  obtain ⟨tree, -, rfl⟩ := Option.map_eq_some_iff.mp h
  rfl

/-- A reader keeps a source, and stays as it is if the text is none. -/
theorem read_cases (kept : Option Source) (text : List Char) :
    (∃ source, source.Sound ∧ read kept text = (some source, .ok source)) ∨
      read kept text = (kept, .error (.malformed (Dialect.complaint text))) := by
  unfold read
  cases hsource : ofText? text with
  | some source => exact .inl ⟨source, sound_ofText? hsource, rfl⟩
  | none => exact .inr rfl

/-- What a reader answers about a file. What it kept before makes no difference. -/
def ofFile (d : Disk) (path : Disk.Path) : Except FileFault Source := (readFile none d path).2

theorem readFile_eq (kept : Option Source) (d : Disk) (path : Disk.Path) :
    readFile kept d path = ((ofFile d path).toOption.or kept, ofFile d path) := by
  unfold ofFile readFile read
  cases readText d path with
  | error f => rfl
  | ok text => cases hsource : ofText? text <;> simp [hsource, Except.toOption]

theorem readFile_of_ok (h : ofFile d path = .ok source) :
    readFile kept d path = (some source, .ok source) := by
  rw [readFile_eq, h]
  rfl

theorem readFile_of_error (h : ofFile d path = .error fault) :
    readFile kept d path = (kept, .error fault) := by
  rw [readFile_eq, h]
  rfl

theorem ofFile_of_error (h : readText d path = .error fault) :
    ofFile d path = .error fault := by
  rw [ofFile, readFile, h]

theorem ofFile_of_not_parse (htext : readText d path = .ok text)
    (hparse : Syntax.parse? text = none) :
    ofFile d path = .error (.malformed (Dialect.complaint text)) := by
  simp [ofFile, readFile, htext, read, ofText?, hparse]

theorem ofFile_of_parse {tree : Syntax.Tree} (htext : readText d path = .ok text)
    (hparse : Syntax.parse? text = some tree) :
    ofFile d path = .ok ⟨text, Text.lines text, tree⟩ := by
  simp [ofFile, readFile, htext, read, ofText?, hparse]

/-- A source comes from a file only as its text and what is read from that. -/
theorem exists_of_ofFile (h : ofFile d path = .ok source) : ∃ text tree,
    readText d path = .ok text ∧ Syntax.parse? text = some tree ∧
      source = ⟨text, Text.lines text, tree⟩ := by
  cases htext : readText d path with
  | error fault =>
    rw [ofFile_of_error htext] at h
    cases h
  | ok text =>
    cases hparse : Syntax.parse? text with
    | none =>
      rw [ofFile_of_not_parse htext hparse] at h
      cases h
    | some tree =>
      rw [ofFile_of_parse htext hparse] at h
      cases h
      exact ⟨text, tree, rfl, hparse, rfl⟩

theorem sound_ofFile (h : ofFile d path = .ok source) : source.Sound := by
  obtain ⟨text, tree, -, -, rfl⟩ := exists_of_ofFile h
  rfl

end Readers

end Source

namespace Session

variable {s : Session}

/-! ### Operations -/

inductive Operation where
  | load (text : List Char)
  | loadFile (d : Disk) (path : Disk.Path)
  | validate (text : List Char)
  | elements
  | renameTree (m : NameMap)
  | renamedText (m : NameMap)
  | imports
  | window (line context : Int)

inductive Answer where
  | loaded (fault : Option Fault)
  | valid (answer : Bool)
  | elements (answer : Except Fault (List Element))
  | renamedTree (answer : Except Fault (Option Syntax.Tree))
  | renamedText (answer : Except Fault (List Char))
  | imports (answer : List (String × Option String))
  | window (answer : String)

def act [Dialect] (s : Session) : Operation → Session × Answer
  | .load text => ((s.load text).1, .loaded (s.load text).2)
  | .loadFile d path => ((s.loadFile d path).1, .loaded (s.loadFile d path).2)
  | .validate text => (s, .valid (isValid text))
  | .elements => (s, .elements s.elements)
  | .renameTree m => ((s.renameTree m).1, .renamedTree (s.renameTree m).2)
  | .renamedText m => (s, .renamedText (s.renamedText m))
  | .imports => (s, .imports s.imports)
  | .window line context => (s, .window (s.window line context))

def after [Dialect] (s : Session) (ops : List Operation) : Session :=
  ops.foldl (fun s op => (s.act op).1) s

/-! ### The invariant -/

/-- Both copies are the same, and its lines are those of its text. -/
structure Sound (s : Session) : Prop where
  same : s.reader = s.loaded
  lines : ∀ source ∈ s.loaded, source.Sound

theorem sound_start : start.Sound := ⟨rfl, nofun⟩

def keep (source : Source) : Session := ⟨some source, some source⟩

theorem sound_keep (h : source.Sound) : (keep source).Sound where
  same := rfl
  lines := by
    rintro _ ⟨⟩
    exact h

section Loading

variable [Dialect]

/-- A text is loaded into both copies or, if it is no source, into none. -/
theorem load_cases (s : Session) (text : List Char) :
    (∃ source, source.Sound ∧ s.load text = (keep source, none)) ∨
      ∃ fault, s.load text = (s, some fault) := by
  unfold load
  obtain ⟨source, hsource, hread⟩ | hread := Source.read_cases s.reader text
  · rw [hread]
    exact .inl ⟨source, hsource, rfl⟩
  · rw [hread]
    exact .inr ⟨_, rfl⟩

theorem loadFile_of_ok {d : Disk} {path : Disk.Path} (h : Source.ofFile d path = .ok source) :
    s.loadFile d path = (keep source, none) := by
  rw [loadFile, Source.readFile_of_ok h]
  rfl

def faultOf : Source.FileFault → Fault
  | .refused r => .refused r
  | f => .complaint (complaint f.message) f.message

theorem loadFile_of_error {d : Disk} {path : Disk.Path} {f : Source.FileFault}
    (h : Source.ofFile d path = .error f) : s.loadFile d path = (s, some (faultOf f)) := by
  rw [loadFile, Source.readFile_of_error h]
  cases f <;> rfl

/-- A file is loaded into both copies or, if there is anything wrong with it, into none. -/
theorem loadFile_cases (s : Session) (d : Disk) (path : Disk.Path) :
    (∃ source, source.Sound ∧ s.loadFile d path = (keep source, none)) ∨
      ∃ fault, s.loadFile d path = (s, some fault) := by
  cases hsource : Source.ofFile d path with
  | ok source => exact .inl ⟨source, Source.sound_ofFile hsource, loadFile_of_ok hsource⟩
  | error fault => exact .inr ⟨_, loadFile_of_error hsource⟩

end Loading

/-- Renaming goes through both copies and leaves the text and the lines alone. -/
theorem Sound.renameTree (h : s.Sound) (m : NameMap) : (s.renameTree m).1.Sound := by
  obtain ⟨reader, loaded⟩ := s
  obtain ⟨rfl : reader = loaded, hlines⟩ := h
  unfold Session.renameTree
  cases reader with
  | none => exact ⟨rfl, hlines⟩
  | some source =>
    dsimp only
    split
    · exact ⟨rfl, hlines⟩
    · refine ⟨rfl, ?_⟩
      rintro _ ⟨⟩
      exact hlines source rfl

/-- What is shown around a line, where the text is `text`, or where there is none. -/
def windowOf (text : Except Fault (List Char)) (line context : Int) : String :=
  match text with
  | .ok text => Source.window (Text.lines text) line context
  | .error _ => ""

theorem Sound.window_eq (h : s.Sound) (line context : Int) :
    s.window line context = windowOf s.text line context := by
  unfold window text
  rw [h.same]
  cases hloaded : s.loaded with
  | none => rfl
  | some source =>
    have hlines : source.lines = Text.lines source.text := h.lines source hloaded
    exact congrArg (Source.window · line context) hlines

section Operations

variable [Dialect]

theorem Sound.act (h : s.Sound) (op : Operation) : (s.act op).1.Sound := by
  cases op with
  | load text =>
    obtain ⟨source, hsource, hload⟩ | ⟨fault, hload⟩ := s.load_cases text
    · simpa only [Session.act, hload] using sound_keep hsource
    · simpa only [Session.act, hload] using h
  | loadFile d path =>
    obtain ⟨source, hsource, hload⟩ | ⟨fault, hload⟩ := s.loadFile_cases d path
    · simpa only [Session.act, hload] using sound_keep hsource
    · simpa only [Session.act, hload] using h
  | renameTree m => exact h.renameTree m
  | validate | elements | renamedText | imports | window => exact h

theorem Sound.after (h : s.Sound) (ops : List Operation) : (s.after ops).Sound := by
  induction ops generalizing s with
  | nil => exact h
  | cons op ops ih => exact ih (h.act op)

/-! ### Failed loads -/

theorem act_of_loaded_fault {op : Operation} {fault : Fault}
    (h : (s.act op).2 = .loaded (some fault)) : (s.act op).1 = s := by
  cases op with
  | load text =>
    obtain ⟨source, -, hload⟩ | ⟨fault, hload⟩ := s.load_cases text
    · simp [act, hload] at h
    · simp [act, hload]
  | loadFile d path =>
    obtain ⟨source, -, hload⟩ | ⟨fault, hload⟩ := s.loadFile_cases d path
    · simp [act, hload] at h
    · simp [act, hload]
  | _ => cases h

/-- After any operations the reader and the session hold the same source or both none. A load that
fails changes neither of them, and what is shown around a line is taken from the loaded text. -/
theorem copies_agree (ops : List Operation) :
    (start.after ops).reader = (start.after ops).loaded ∧
      (∀ op fault, ((start.after ops).act op).2 = .loaded (some fault) →
        ((start.after ops).act op).1 = start.after ops) ∧
      ∀ line context, (start.after ops).window line context =
        windowOf (start.after ops).text line context := by
  have hsound := sound_start.after ops
  exact ⟨hsound.same, fun op fault => act_of_loaded_fault, hsound.window_eq⟩

end Operations

/-- A source is loaded, renamed in, and followed by a text that is none. -/
def sampleOperations : List Operation :=
  [.load "x = 1\n".toList, .renameTree ⟨[("x", "y")]⟩, .load "x = (".toList]

theorem copies_agree_sample :
    ((start.after sampleOperations).act (.load "=".toList)).2 =
        .loaded (some (.complaint .grammar Source.syntaxMessage)) ∧
      ((start.after sampleOperations).act (.load "=".toList)).1 = start.after sampleOperations ∧
      (start.after sampleOperations).window 1 0 = ">>>   1: x = 1" := by
  have hfault : ((start.after sampleOperations).act (.load "=".toList)).2 =
      .loaded (some (.complaint .grammar Source.syntaxMessage)) :=
    congrArg Answer.loaded (by decide +kernel)
  obtain ⟨-, hfailed, hwindow⟩ := copies_agree sampleOperations
  refine ⟨hfault, hfailed _ _ hfault, ?_⟩
  rw [hwindow]
  decide +kernel

end Session

end Restyle
