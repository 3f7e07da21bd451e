import NavTree.CommandLine.Session

/-! # The program

The files of the project are named on standard input, one path per line. They are loaded onto a
disk, the call works on that disk, and the files it changed are written back. External programs
are not started from here, so they count as missing.
-/
namespace NavTree

partial def inputLines (stdin : IO.FS.Stream) : IO (List String) := do
  let line ← stdin.getLine
  if line.isEmpty then return []
  else return (line.trimAscii.toString) :: (← inputLines stdin)

def loadFile (d : Disk) (path : String) : IO Disk := do
  let content ← IO.FS.readBinFile path
  let d := (d.makeDirectories ((Path.parent? path).getD "")).2
  return (d.write path content).toOption.getD d

def saveFiles (before after : Disk) : IO Unit := do
  for path in after.listing do
    match after.read path, before.read path with
    | .ok new, .ok old => if new.data ≠ old.data then IO.FS.writeBinFile path new
    | .ok new, .error _ => do
      match Path.parent? path with
      | some "" | none => pure ()
      | some parent => IO.FS.createDirAll parent
      IO.FS.writeBinFile path new
    | .error _, _ => pure ()

end NavTree

def main (arguments : List String) : IO UInt32 := do
  let paths ← NavTree.inputLines (← IO.getStdin)
  let before ← (paths.filter (· ≠ "")).foldlM NavTree.loadFile NavTree.Disk.empty
  let station : NavTree.Station := ⟨.plain fun _ => .missing, fun _ _ => .error .cancelled⟩
  let finished := NavTree.CommandLine.call station false arguments before
  NavTree.saveFiles before finished.disk
  IO.print finished.output
  for line in finished.log do
    IO.eprintln line
  return UInt32.ofNat finished.code
