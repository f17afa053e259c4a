import Restyle.Text.Decimal
import Restyle.Text.Quoted

/-!
The arguments of the command line: a configuration, a target, and two flags that may stand
anywhere before a double hyphen. Long flags can be cut short, and short ones can be written
together.
-/

namespace Restyle.CommandLine

inductive Flag where
  | help
  | verbose
deriving DecidableEq, Repr

namespace Flag

/-- All spellings in the order in which they are tried. -/
def spellings : List (String × Flag) :=
  [("-h", help), ("--help", help), ("--verbose", verbose), ("-v", verbose)]

def ofSpelling? (s : String) : Option Flag := spellings.lookup s

def name : Flag → String
  | help => "-h/--help"
  | verbose => "--verbose/-v"

end Flag

inductive Complaint where
  | ambiguous (given : String) (spellings : List String)
  | ignoredValue (flag : Flag) (value : String)
  | missing (names : List String)
  | unrecognized (words : List String)
deriving DecidableEq, Repr

def Complaint.message : Complaint → String
  | ambiguous given spellings =>
    s!"ambiguous option: {given} could match " ++ String.intercalate ", " spellings
  | ignoredValue flag value =>
    s!"argument {flag.name}: ignored explicit argument {Text.quoted value}"
  | missing names =>
    "the following arguments are required: " ++ String.intercalate ", " names
  | unrecognized words => "unrecognized arguments: " ++ String.intercalate " " words

/-! ### Words -/

/-- What follows a flag in the same word, after an equals sign or directly. -/
structure Attached where
  isAssigned : Bool
  text : List Char
deriving DecidableEq, Repr

inductive Word where
  | value (s : String)
  | flag (spelling : String) (flag : Flag) (attached : Option Attached)
  | unknownFlag (s : String)
deriving DecidableEq, Repr

/-- A negative number is a value, not a flag. -/
def isNegativeNumber (s : List Char) : Bool :=
  let isDigit (c : Char) : Bool := (Text.decimalDigit? c).isSome
  match s with
  | '-' :: rest =>
    let rest := if rest.getLast? = some '\n' then rest.dropLast else rest
    let fraction := rest.dropWhile isDigit
    match fraction with
    | [] => !rest.isEmpty
    | '.' :: digits => !digits.isEmpty && digits.all isDigit
    | _ => false
  | _ => false

def cutAssignment (s : List Char) : List Char × Option Attached :=
  match s.dropWhile (· != '=') with
  | _ :: value => (s.takeWhile (· != '='), some ⟨true, value⟩)
  | [] => (s, none)

/-- The flags that a word can stand for if it is not one itself. -/
def candidates (s : List Char) : List (String × Flag × Option Attached) :=
  match s with
  | '-' :: '-' :: _ =>
    let (start, attached) := cutAssignment s
    Flag.spellings.filterMap fun (spelling, flag) =>
      if start.isPrefixOf spelling.toList then some (spelling, flag, attached) else none
  | '-' :: c :: rest =>
    Flag.spellings.filterMap fun (spelling, flag) =>
      if spelling.toList = ['-', c] then some (spelling, flag, some ⟨false, rest⟩)
      else if s.isPrefixOf spelling.toList then some (spelling, flag, none)
      else none
  | _ => []

def readWord (s : String) : Except Complaint Word :=
  match s.toList with
  | '-' :: c :: rest =>
    let chars := '-' :: c :: rest
    match Flag.ofSpelling? s with
    | some flag => .ok (.flag s flag none)
    | none =>
      let (start, attached) := cutAssignment chars
      match Flag.ofSpelling? (String.ofList start), attached with
      | some flag, some a => .ok (.flag (String.ofList start) flag (some a))
      | _, _ =>
        match candidates chars with
        | [(spelling, flag, attached)] => .ok (.flag spelling flag attached)
        | [] =>
          if isNegativeNumber chars || chars.contains ' ' then .ok (.value s)
          else .ok (.unknownFlag s)
        | several => .error (.ambiguous s (several.map (·.1)))
  | _ => .ok (.value s)

/-! ### Flags in one word -/

/-- The flags of a word that starts with a flag, and what else stands in it. -/
def flagsOf (isShort : Bool) (flag : Flag) (attached : Option Attached) :
    Except Complaint (List Flag × List String) :=
  match attached with
  | none => .ok ([flag], [])
  | some ⟨_, []⟩ => .error (.ignoredValue flag "")
  | some ⟨isAssigned, c :: rest⟩ =>
    if !isShort || isAssigned || c = '-' then
      .error (.ignoredValue flag (String.ofList (c :: rest)))
    else
      match Flag.ofSpelling? (String.ofList ['-', c]) with
      | none => .ok ([flag], [String.ofList ('-' :: c :: rest)])
      | some next =>
        let attached := match rest with
          | [] => none
          | '=' :: value => some ⟨true, value⟩
          | rest => some ⟨false, rest⟩
        (flagsOf true next attached).map fun (flags, words) => (flag :: flags, words)
termination_by (attached.map fun a => a.text.length + 1).getD 0
decreasing_by
  cases rest with
  | nil => simp
  | cons d rest => by_cases h : d = '=' <;> simp_all

/-! ### The whole line -/

/-- What has been read so far. A value that is a double hyphen after another one is kept as
missing. -/
structure Progress where
  values : List (Option String)
  others : List String
  verbose : Bool
  /-- Whether the word before was one of the values. -/
  afterValue : Bool
deriving DecidableEq, Repr

namespace Progress

def start : Progress := ⟨[], [], false, false⟩

def names : List String := ["config", "target"]

def isFull (p : Progress) : Bool := p.values.length ≥ names.length

def addOther (p : Progress) (s : String) : Progress :=
  { p with others := p.others ++ [s], afterValue := false }

def addValue (p : Progress) (s : String) (value : Option String) : Progress :=
  if p.isFull then p.addOther s
  else { p with values := p.values ++ [value], afterValue := true }

/-- Reads the words after a double hyphen. All of them are values. -/
def addRest (p : Progress) (rest : List String) : Progress :=
  let plain (p : Progress) (s : String) : Progress :=
    p.addValue s (if s = "--" then none else some s)
  if p.afterValue then rest.foldl plain p
  else match rest with
    | s :: more => if p.isFull then (s :: more).foldl plain (p.addOther "--")
      else more.foldl plain (p.addValue s (some s))
    | [] => p.addOther "--"

end Progress

inductive Request where
  | help
  | process (config target : Option String) (verbose : Bool)
deriving DecidableEq, Repr

/-- Reads the words up to the double hyphen. The flag for help ends the reading. -/
def readWords (p : Progress) : List Word → Except Complaint (Option Progress)
  | [] => .ok (some p)
  | .value s :: rest => readWords (p.addValue s (some s)) rest
  | .unknownFlag s :: rest => readWords (p.addOther s) rest
  | .flag spelling flag attached :: rest => do
    let (flags, words) ← flagsOf (spelling.length = 2) flag attached
    if flags.contains .help then return none
    readWords { p with others := p.others ++ words, verbose := true, afterValue := false } rest

def readArguments (args : List String) : Except Complaint Request := do
  let words ← (args.takeWhile (· != "--")).mapM readWord
  match ← readWords .start words with
  | none => return .help
  | some p =>
    let p := match args.dropWhile (· != "--") with
      | _ :: rest => p.addRest rest
      | [] => p
    match p.values with
    | [config, target] =>
      if p.others.isEmpty then return .process config target p.verbose
      else throw (.unrecognized p.others)
    | values => throw (.missing (Progress.names.drop values.length))

/-! ### Texts -/

def programName : String := "main.py"

def usage : String := s!"usage: {programName} [-h] [--verbose] config target"

def helpLines : List String :=
  [usage,
   "",
   "Python Style Converter - Transform Python code with cross-file coordination",
   "",
   "positional arguments:",
   "  config         Path to JSON configuration file",
   "  target         Target file or directory to process",
   "",
   "options:",
   "  -h, --help     show this help message and exit",
   "  --verbose, -v  Enable verbose output",
   "",
   "Examples:",
   s!"  {programName} config.json /path/to/project",
   s!"  {programName} config.json file.py",
   s!"  {programName} config.json . --verbose",
   "        "]

def complaintLines (c : Complaint) : List String :=
  [usage, s!"{programName}: error: {c.message}"]

end Restyle.CommandLine
