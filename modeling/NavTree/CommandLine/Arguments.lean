import NavTree.Project.Run

/-! # Command line arguments

The program takes global flags and one command, `generate`, with options of its own. Flags of one
letter may be joined, an option takes its value from the same argument or the next one, and
nothing may be given twice at one level.
-/
namespace NavTree.CommandLine

structure Globals where
  verbose : Bool := false
  quiet : Bool := false

structure Generate where
  root : Option String := none
  jobs : Option Nat := none
  noGraph : Bool := false
  noScaffold : Bool := false

inductive Request where
  | version
  | help (ofGenerate : Bool)
  | generate (quiet : Bool) (settings : Generate)

/-- Why reading stops early: an answer that needs no command, or arguments that make no sense. -/
inductive Stop where
  | version
  | help
  | misuse

abbrev Parsed := Except Stop

def misuse {α : Type} : Parsed α := .error .misuse

inductive Choice where
  | verbose | quiet | help | version
  | root | jobs | noGraph | noScaffold
deriving DecidableEq

def longChoice? (inGenerate : Bool) (name : String) : Option Choice :=
  if name = "verbose" then some .verbose
  else if name = "quiet" then some .quiet
  else if name = "help" then some .help
  else if inGenerate then
    if name = "root" then some .root
    else if name = "jobs" then some .jobs
    else if name = "no-graph" then some .noGraph
    else if name = "no-scaffold" then some .noScaffold
    else none
  else if name = "version" then some .version
  else none

def shortChoice? (inGenerate : Bool) (letter : Char) : Option Choice :=
  if letter = 'v' then some .verbose
  else if letter = 'q' then some .quiet
  else if letter = 'h' then some .help
  else if inGenerate then if letter = 'j' then some .jobs else none
  else if letter = 'V' then some .version
  else none

/-- A natural number of 64 bits, perhaps with a plus sign. -/
def readCount? (s : String) : Option Nat :=
  let ds := match s.toList with
    | '+' :: ds => ds
    | ds => ds
  if ds.isEmpty || !ds.all Char.isDigit then none
  else
    let n := ds.foldl (fun n d => 10 * n + (d.toNat - '0'.toNat)) 0
    if n < Nat.pow 2 64 then some n else none

/-- What one level of the command line has been given. -/
structure Level where
  globals : Globals := {}
  settings : Generate := {}

namespace Level

def takesValue : Choice → Bool
  | .root | .jobs => true
  | _ => false

/-- Records a flag, which must not have been given before. -/
def set (l : Level) : Choice → Parsed Level
  | .verbose =>
    if l.globals.verbose then misuse
    else .ok { l with globals := { l.globals with verbose := true } }
  | .quiet =>
    if l.globals.quiet then misuse else .ok { l with globals := { l.globals with quiet := true } }
  | .help => .error .help
  | .version => .error .version
  | .noGraph =>
    if l.settings.noGraph then misuse
    else .ok { l with settings := { l.settings with noGraph := true } }
  | .noScaffold =>
    if l.settings.noScaffold then misuse
    else .ok { l with settings := { l.settings with noScaffold := true } }
  | .root | .jobs => misuse

def setValue (l : Level) (value : String) : Choice → Parsed Level
  | .root =>
    if l.settings.root.isSome || value = "" then misuse
    else .ok { l with settings := { l.settings with root := some value } }
  | .jobs =>
    match l.settings.jobs, readCount? value with
    | none, some n => .ok { l with settings := { l.settings with jobs := some n } }
    | _, _ => misuse
  | _ => misuse

/-- Verbose and quiet exclude each other. -/
def checked (l : Level) : Parsed Level :=
  if l.globals.verbose && l.globals.quiet then misuse else .ok l

end Level

/-- Whether an argument can be the value of the option before it. -/
def isValue (s : String) : Bool := !s.startsWith "-" || s = "-"

/-- What is left when an option takes its value from the next argument. -/
def nextValue : List String → Parsed (String × List String)
  | value :: rest => if isValue value then .ok (value, rest) else misuse
  | [] => misuse

def readLetters (inGenerate : Bool) (rest : List String) : Level → List Char →
    Parsed (Level × List String)
  | l, [] => .ok (l, rest)
  | l, c :: cs =>
    match shortChoice? inGenerate c with
    | none => misuse
    | some choice =>
      if Level.takesValue choice then
        match cs with
        | [] => do
          let (value, rest) ← nextValue rest
          return (← l.setValue value choice, rest)
        | '=' :: value => do return (← l.setValue (String.ofList value) choice, rest)
        | value => do return (← l.setValue (String.ofList value) choice, rest)
      else do readLetters inGenerate rest (← l.set choice) cs

def readWord (inGenerate : Bool) (rest : List String) (l : Level) (word : List Char) :
    Parsed (Level × List String) :=
  let name := String.ofList (word.takeWhile (· ≠ '='))
  match longChoice? inGenerate name, word.dropWhile (· ≠ '=') with
  | none, _ => misuse
  | some choice, '=' :: value => do return (← l.setValue (String.ofList value) choice, rest)
  | some choice, _ =>
    if Level.takesValue choice then do
      let (value, rest) ← nextValue rest
      return (← l.setValue value choice, rest)
    else do return (← l.set choice, rest)

/-- Reads options up to the first argument that is none; a lone pair of dashes ends them. -/
def readOptions (inGenerate : Bool) : Nat → Level → List String → Parsed (Level × List String)
  | 0, l, rest => .ok (l, rest)
  | _ + 1, l, [] => .ok (l, [])
  | fuel + 1, l, argument :: rest =>
    match argument.toList with
    | ['-', '-'] => if rest.isEmpty then .ok (l, []) else misuse
    | '-' :: '-' :: word => do
      let (l, rest) ← readWord inGenerate rest l word
      readOptions inGenerate fuel l rest
    | '-' :: c :: cs => do
      let (l, rest) ← readLetters inGenerate rest l (c :: cs)
      readOptions inGenerate fuel l rest
    | _ => .ok (l, argument :: rest)

def readGenerate (outer : Globals) (arguments : List String) : Parsed Request := do
  let (l, rest) ← readOptions true (arguments.length + 1) {} arguments
  if rest.isEmpty then
    let l ← l.checked
    return .generate (outer.quiet || l.globals.quiet) l.settings
  else misuse

def readRequest? (arguments : List String) : Option Request :=
  let parsed : Parsed Request := do
    let (l, rest) ← readOptions false (arguments.length + 1) {} arguments
    match rest with
    | "generate" :: rest =>
      match readGenerate l.globals rest with
      | .error .help => return .help true
      | .error stop => throw stop
      | .ok request => do
        let _ ← l.checked
        return request
    | ["help"] => return .help false
    | ["help", "generate"] => return .help true
    | ["help", "help"] => return .help false
    | _ => misuse
  match parsed with
  | .ok request => some request
  | .error .version => some .version
  | .error .help => some (.help false)
  | .error .misuse => none

/-- The settings of a run. Without a terminal nobody could choose files to make. -/
def Generate.options (g : Generate) (terminal : Bool) : Options where
  root := g.root.getD "."
  jobs := max (g.jobs.getD 1) 1
  drawsGraph := !g.noGraph
  scaffolds := !g.noScaffold && terminal
  names := defaultNames

end NavTree.CommandLine
