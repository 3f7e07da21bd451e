import NavTree.Task.Tool

/-! # Stand-ins for programs

A stand-in takes the place of an external program: it does one simple thing with its arguments,
writes to its error output and ends with a status of its own.
-/
namespace NavTree

inductive StandInAction where
  | print (text : ByteArray)
  /-- Prints the file that the first argument names. -/
  | printFile
  /-- Writes the first four arguments on a line into the file that the fourth one names. -/
  | recordArguments
  /-- Prints each argument on a line, in brackets. -/
  | echo

structure StandIn where
  action : StandInAction
  errors : ByteArray
  status : Nat
  executable : Bool

namespace StandInAction

def perform (arguments : List String) (d : Disk) : StandInAction → ByteArray × Disk
  | print text => (text, d)
  | printFile => ((d.read (arguments.headD "")).toOption.getD .empty, d)
  | recordArguments =>
    let line := " ".intercalate ((List.range 4).map fun i => arguments.getD i "") ++ "\n"
    (.empty, (d.write (arguments.getD 3 "") line.toUTF8).toOption.getD d)
  | echo => ((String.join (arguments.map fun a => "[" ++ a ++ "]\n")).toUTF8, d)

end StandInAction

namespace StandIn

def tool (s : StandIn) : Tool := fun arguments d =>
  let (output, d) := s.action.perform arguments d
  (⟨s.status, output, s.errors⟩, d)

def command (s : StandIn) : Command := if s.executable then .tool s.tool else .refused .denied

def toolbox (standIns : List (String × StandIn)) : Toolbox := fun program =>
  match standIns.lookup program with
  | some s => s.command
  | none => .missing

end StandIn

end NavTree
