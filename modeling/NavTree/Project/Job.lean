import NavTree.Project.Fault
import NavTree.Task.Basic
import NavTree.Text.Utf8

/-! # Jobs

A job is a task that may end in a fault of the project. Here are the jobs that turn to single
files and programs.
-/
namespace NavTree

abbrev Job := ExceptT ProjectFault Task

namespace Job

/-- Performs a file operation; its fault is one of the given path. -/
def file {α : Type} (path : String) (t : Task (Except FileFault α)) : Job α := do
  match ← t with
  | .ok a => return a
  | .error fault => throw (.file path fault)

def makeDirectories (path : String) : Job Unit := file path (Task.perform (.makeDirectories path))

def readText (path : String) : Job String := do
  let content ← file path (Task.perform (.read path))
  match String.fromUTF8? content with
  | some s => return s
  | none => throw (.file path .notText)

def execute (program : String) (arguments : List String) : Job String := do
  match ← Task.perform (.start program arguments) with
  | .error .missing => throw (.toolMissing program)
  | .error fault => throw (.toolFailed program fault.message)
  | .ok result =>
    if result.status = 0 then return Utf8.lossyText result.output
    else throw (.toolFailed program (Utf8.lossyText result.errors))

/-- The content of a source. Files of one extension hold it as it is, all others are evaluated. -/
def readSource (path : String) : Job Json := do
  let text ← if Path.extension? path = some "json" then readText path else execute "jsonnet" [path]
  match Json.parse text with
  | .ok j => return j
  | .error e => throw (.invalidSource path (.json e))

def renderGraph (input output : String) : Job Unit := do
  let _ ← execute "dot" ["-Tsvg", input, "-o", output]

end Job

end NavTree
