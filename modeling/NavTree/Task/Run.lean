import NavTree.Code.Format
import NavTree.Task.Basic

/-! # Running tasks

A task runs by itself on a disk, among programs and with somebody to answer its questions.
-/
namespace NavTree

/-- What a task finds at hand: programs, a formatter of sources, and a medium that files are on. -/
structure Equipment where
  tools : Toolbox
  format : Formatter
  medium : Medium

/-- Some programs, the formatter of this library, and a medium that takes everything. -/
def Equipment.plain (tools : Toolbox) : Equipment := ⟨tools, formatted?, fun _ _ => none⟩

instance : Coe Toolbox Equipment := ⟨Equipment.plain⟩

structure Station where
  equipment : Equipment
  answer : String → List String → Except PromptFault (List Nat)

abbrev Station.tools (station : Station) : Toolbox := station.equipment.tools

abbrev Station.format (station : Station) : Formatter := station.equipment.format

/-- What can be seen of a running task besides the disk. -/
inductive Sign where
  | logged (line : LogLine)
  | asked (message : String) (items : List String)
deriving DecidableEq, Repr

namespace Sign

def line? : Sign → Option LogLine
  | logged line => some line
  | asked _ _ => none

def question? : Sign → Option (String × List String)
  | logged _ => none
  | asked message items => some (message, items)

end Sign

def Operation.signs : Operation → List Sign
  | note line => [.logged line]
  | choose message items => [.asked message items]
  | _ => []

/-- The outcome of a change that leaves the disk as it is when it fails. -/
def attempted (d : Disk) : Except FileFault Disk → Except FileFault Unit × Disk
  | .ok d' => (.ok (), d')
  | .error fault => (.error fault, d)

namespace Station

def reply (station : Station) (d : Disk) : (op : Operation) → op.Reply × Disk
  | .read path => (d.read path, d)
  | .create path =>
    match d.create path with
    | .ok (place, created) => (.ok place, created)
    | .error fault => (.error fault, d)
  | .fill place content => d.fillOn station.equipment.medium place content
  | .makeDirectories path => d.makeDirectories path
  | .rename source target => attempted d (d.rename source target)
  | .remove path => attempted d (d.remove path)
  | .probe path => (d.isPresent path, d)
  | .survey names root => (d.survey names root, d)
  | .start program arguments => station.tools.start program arguments d
  | .format dialect source => (station.equipment.format dialect source, d)
  | .note _ => ((), d)
  | .choose message items => (station.answer message items, d)

end Station

structure Outcome (α : Type) where
  value : α
  disk : Disk
  signs : List Sign

namespace Task

def run {α : Type} (station : Station) : Task α → Disk → Outcome α
  | done a, d => ⟨a, d, []⟩
  | step op next, d =>
    let r := station.reply d op
    let rest := (next r.1).run station r.2
    { rest with signs := op.signs ++ rest.signs }

theorem run_bind {α β : Type} (station : Station) (t : Task α) (f : α → Task β) (d : Disk) :
    (bind t f).run station d =
      let first := t.run station d
      let rest := (f first.value).run station first.disk
      { rest with signs := first.signs ++ rest.signs } := by
  induction t generalizing d with
  | done a => simp [bind, run]
  | step op next ih => simp only [bind, run, ih, List.append_assoc]

end Task

end NavTree
