import NavTree.Files.Access

/-! # External programs

A program is seen as a function of its arguments and the disk. A toolbox says what happens when a
program is started by its name.
-/
namespace NavTree

structure ToolResult where
  status : Nat
  output : ByteArray
  errors : ByteArray

/-- A program changes nothing but the disk. -/
abbrev Tool := List String → Disk → ToolResult × Disk

inductive Command where
  | missing
  | refused (fault : FileFault)
  | tool (run : Tool)

abbrev Toolbox := String → Command

inductive StartFault where
  | missing
  | refused (fault : FileFault)
  | zeroByte
deriving DecidableEq, Repr

def StartFault.message : StartFault → String
  | missing => FileFault.notFound.message
  | refused fault => fault.message
  | zeroByte => "nul byte found in provided data"

def longestArgument : Nat := 131071

/-- What the name of a program stands for. A name with a slash is a path, and no file of the project
may be executed; any other name is looked up in the toolbox, unless it cannot be a file name. -/
def Toolbox.command (tools : Toolbox) (program : String) (d : Disk) : Command :=
  if program.toList.contains '/' then
    match d.find .visit program with
    | .ok spot => if spot.entry.isSome then .refused .denied else .missing
    | .error .notFound => .missing
    | .error fault => .refused fault
  else if program = "." ∨ program = ".." then .refused .denied
  else if Disk.longestName < program.utf8ByteSize then .refused .nameTooLong
  else tools program

/-- Starts a program and waits for its end. No argument may hold a zero byte. -/
def Toolbox.start (tools : Toolbox) (program : String) (arguments : List String) (d : Disk) :
    Except StartFault ToolResult × Disk :=
  if (program :: arguments).any Disk.hasZeroByte then (.error .zeroByte, d)
  else match tools.command program d with
    | .missing => (.error .missing, d)
    | .refused fault => (.error (.refused fault), d)
    | .tool run =>
      if arguments.any fun a => longestArgument < a.utf8ByteSize then
        (.error (.refused .argumentTooLong), d)
      else
        let (result, d) := run arguments d
        (.ok result, d)

end NavTree
