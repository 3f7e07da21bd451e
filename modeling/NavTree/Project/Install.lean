import NavTree.Files.Digest
import NavTree.Project.Job

/-! # Installing files

A file is installed by writing its content beside it and then moving that over it, so that it
never holds half of a text. Files that hold the text already are left alone. Files that belong
together are all staged before the first one is moved.
-/
namespace NavTree

structure Rendered where
  path : String
  content : String
deriving DecidableEq, Repr

/-- A text that waits beside its target. -/
structure Staged where
  temporary : String
  target : String
deriving DecidableEq, Repr

inductive WriteOutcome where
  | written | unchanged
deriving DecidableEq, Repr

def temporaryPath (path : String) : String :=
  Path.withFileName path ((Path.fileName? path).getD "" ++ ".tmp")

/-- Whether a reply to reading a file is a content with the digest of the given one. -/
def holds (reply : Except FileFault ByteArray) (content : ByteArray) : Bool :=
  match reply with
  | .ok held => Digest.sha256 held == Digest.sha256 content
  | .error _ => false

namespace Job

def discard (s : Staged) : Task Unit := do
  let _ ← Task.perform (.remove s.temporary)

def discardAll (entries : List (Option Staged)) : Task Unit := (entries.filterMap id).forM discard

/-- Writes a text beside its target, unless the target holds it. -/
def stage (path content : String) : Job (Option Staged) := do
  let reply ← Task.perform (.read path)
  if holds reply content.toUTF8 then return none
  else do
    let parent := (Path.parent? path).getD ""
    if parent ≠ "" then makeDirectories parent
    let staged : Staged := ⟨temporaryPath path, path⟩
    match ← Task.writeFile staged.temporary content.toUTF8 with
    | .ok () => return some staged
    | .error fault => do
      discard staged
      throw (.file path fault)

def commit (s : Staged) : Job Unit := do
  match ← Task.perform (.rename s.temporary s.target) with
  | .ok () => return
  | .error fault => do
    discard s
    throw (.file s.target fault)

def writeText (path content : String) : Job WriteOutcome := do
  match ← stage path content with
  | some staged => do
    commit staged
    return .written
  | none => return .unchanged

/-- Undoes something when a job fails, and lets it fail. -/
def otherwise {α : Type} (job : Job α) (undo : Task Unit) : Job α :=
  tryCatch job fun fault => do
    undo
    throw fault

/-- Stages files behind those that are staged already, which are discarded when one fails. -/
def stageAll (staged : List (String × Option Staged)) :
    List Rendered → Job (List (String × Option Staged))
  | [] => return staged
  | f :: rest => do
    let entry ← otherwise (stage f.path f.content) (discardAll (staged.map (·.2)))
    stageAll (staged ++ [(f.path, entry)]) rest

/-- Commits staged files one after another. When one fails, those behind it are discarded. -/
def commitAll : List (String × Option Staged) → Job (List (String × WriteOutcome))
  | [] => return []
  | (path, none) :: rest => return (path, .unchanged) :: (← commitAll rest)
  | (path, some staged) :: rest => do
    otherwise (commit staged) (discardAll (rest.map (·.2)))
    return (path, .written) :: (← commitAll rest)

def persist (files : List Rendered) : Job (List (String × WriteOutcome)) := do
  commitAll (← stageAll [] files)

end Job

end NavTree
