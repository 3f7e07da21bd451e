import NavTree.Project.Compile

/-! # Scaffolding

Offers to make the files that templates ask for and that are missing. A source whose files cannot
be made does not keep the next one from being offered.
-/
namespace NavTree

namespace Job

def missing : List FileTemplate → Task (List FileTemplate)
  | [] => return []
  | t :: rest => do
    let present ← Task.perform (.probe t.path)
    let others ← missing rest
    return if present then others else t :: others

def formatIfReadable (path source : String) : Task String := do
  match dialectOf? path with
  | some dialect => return (← Task.perform (.format dialect source)).getD source
  | none => return source

/-- Makes the files of the chosen templates; numbers that belong to none are skipped. -/
def create (offered : List FileTemplate) : List Nat → Job (List String)
  | [] => return []
  | i :: rest => do
    match offered[i]? with
    | none => create offered rest
    | some t => do
      let text ← (formatIfReadable t.path t.content : Task String)
      let _ ← writeText t.path text
      return t.path :: (← create offered rest)

/-- Offers the missing files among the templates, and makes those that are chosen. -/
def scaffold (templates : List FileTemplate) : Job (List String) := do
  let offered ← (missing templates : Task _)
  if offered.isEmpty then return []
  else do
    match ← Task.perform (.choose "Select files to create" (offered.map (·.title))) with
    | .ok picks => create offered picks
    | .error .cancelled => do
      Task.note .info .scaffold "Scaffolding cancelled, no files created"
      return []
    | .error (.failed reason) => throw (.toolFailed "prompt" reason)

end Job

/-- The files made for a list of sources, and the sources that failed. -/
structure ScaffoldSummary where
  created : List String
  failed : List (String × ProjectFault)

def scaffoldReports : List FileReport → Task ScaffoldSummary
  | [] => return ⟨[], []⟩
  | report :: rest => do
    match ← (Job.scaffold report.templates).run with
    | .ok created => do
      let others ← scaffoldReports rest
      return { others with created := created ++ others.created }
    | .error fault => do
      Task.note .error .pipeline (report.source ++ ": scaffolding failed: " ++ fault.message)
      let others ← scaffoldReports rest
      return { others with failed := (report.source, fault) :: others.failed }

end NavTree
