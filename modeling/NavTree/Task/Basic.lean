import NavTree.Files.Discovery
import NavTree.Script.Basic
import NavTree.Task.Tool

/-! # Tasks

A task is what remains to be done of a computation on the disk: nothing, or an operation and, for
each reply to it, another task. Operations are the points where tasks that share a disk may take
turns. A file is written by two of them, for it is there before its content is.
-/
namespace NavTree

inductive LogLevel where
  | info | warn | error
deriving DecidableEq, Repr

/-- The part of the program that a log line comes from. -/
inductive LogOrigin where
  | command | discovery | pipeline | routes | scaffold
deriving DecidableEq, Repr

structure LogLine where
  level : LogLevel
  origin : LogOrigin
  text : String
deriving DecidableEq, Repr

inductive PromptFault where
  | cancelled
  | failed (reason : String)
deriving DecidableEq, Repr

inductive Operation where
  | read (path : String)
  | create (path : String)
  /-- Writes to the file that was created at a place. -/
  | fill (place : Location) (content : ByteArray)
  | makeDirectories (path : String)
  | rename (source target : String)
  | remove (path : String)
  | probe (path : String)
  | survey (names : List String) (root : String)
  | start (program : String) (arguments : List String)
  | format (dialect : Dialect) (source : String)
  | note (line : LogLine)
  | choose (message : String) (items : List String)

abbrev Operation.Reply : Operation → Type
  | read _ => Except FileFault ByteArray
  | create _ => Except FileFault Location
  | fill _ _ | makeDirectories _ | rename _ _ | remove _ => Except FileFault Unit
  | probe _ => Bool
  | survey _ _ => List Finding
  | start _ _ => Except StartFault ToolResult
  | format _ _ => Option String
  | note _ => Unit
  | choose _ _ => Except PromptFault (List Nat)

inductive Task (α : Type) where
  | done (a : α)
  | step (op : Operation) (next : op.Reply → Task α)

namespace Task

def bind {α β : Type} : Task α → (α → Task β) → Task β
  | done a, f => f a
  | step op next, f => step op fun r => bind (next r) f

instance : Monad Task where
  pure := done
  bind := bind

theorem bind_done {α : Type} (t : Task α) : bind t done = t := by
  induction t with
  | done a => rfl
  | step op next ih => simp only [bind, ih]

theorem bind_assoc {α β γ : Type} (t : Task α) (f : α → Task β) (g : β → Task γ) :
    bind (bind t f) g = bind t fun a => bind (f a) g := by
  induction t with
  | done a => rfl
  | step op next ih => simp only [bind, ih]

instance : LawfulMonad Task :=
  .mk' Task bind_done (fun _ _ => rfl) bind_assoc

def perform (op : Operation) : Task op.Reply := step op done

/-- Creates a file and writes its content. -/
def writeFile (path : String) (content : ByteArray) : Task (Except FileFault Unit) := do
  match ← perform (.create path) with
  | .ok place => perform (.fill place content)
  | .error fault => return .error fault

def note (level : LogLevel) (origin : LogOrigin) (text : String) : Task Unit :=
  perform (.note ⟨level, origin, text⟩)

end Task

end NavTree
