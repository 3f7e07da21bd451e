import NavTree.Project.Scaffold

/-! # Running a project

Every source below a directory is compiled, and a source that fails does not keep the others from
being compiled. The sources are taken in turn; the summary is sorted, so it does not show in which
order.
-/
namespace NavTree

structure Options where
  root : String
  /-- How many sources may be compiled at once. Taking them in turn keeps within every bound. -/
  jobs : Nat
  drawsGraph : Bool
  scaffolds : Bool
  names : List String

/-- How the compilation of a source ends. An aborted one gives no result. -/
inductive Ending where
  | compiled (report : FileReport)
  | failed (source : String) (fault : ProjectFault)
  | aborted

structure RunSummary where
  compiled : List FileReport
  failed : List (String × ProjectFault)
  aborted : Nat
  scaffolded : List String

namespace RunSummary

def empty : RunSummary := ⟨[], [], 0, []⟩

def add (s : RunSummary) : Ending → RunSummary
  | .compiled report => { s with compiled := s.compiled ++ [report] }
  | .failed source fault => { s with failed := s.failed ++ [(source, fault)] }
  | .aborted => { s with aborted := s.aborted + 1 }

/-- The summary of endings in any order. -/
def ofEndings (endings : List Ending) : RunSummary :=
  let s := endings.foldl add empty
  { s with
    compiled := s.compiled.mergeSort fun a b => Path.le a.source b.source
    failed := s.failed.mergeSort fun a b => Path.le a.1 b.1 }

def isSuccess (s : RunSummary) : Bool := s.failed.isEmpty && s.aborted == 0

def failures (s : RunSummary) : Nat := s.failed.length + s.aborted

end RunSummary

def compileSource (options : Options) (source : String) : Task Ending := do
  match ← (Job.compileFile options.drawsGraph source).run with
  | .ok report => return .compiled report
  | .error fault => do
    Task.note .error .pipeline (source ++ ": " ++ fault.message)
    return .failed source fault

def compileEach (options : Options) : List String → Task (List Ending)
  | [] => return []
  | source :: rest => do
    let ending ← compileSource options source
    return ending :: (← compileEach options rest)

def compileAll (options : Options) (sources : List String) : Task RunSummary := do
  return .ofEndings (← compileEach options sources)

def largestPool : Nat := Nat.pow 2 61 - 1

/-- Finds and compiles the sources, then scaffolds for those that compiled. There is no summary if
more sources may be compiled at once than any pool takes. -/
def runProject (options : Options) : Task (Option RunSummary) := do
  let found ← Task.perform (.survey options.names options.root)
  (found.filterMap Finding.warning?).forM (Task.note .warn .discovery)
  let sources := Finding.sources found
  if sources.isEmpty then
    Task.note .warn .pipeline ("No navigation sources found under " ++ options.root)
  if largestPool < options.jobs then return none
  let summary ← compileAll options sources
  if options.scaffolds && !summary.compiled.isEmpty then
    let made ← scaffoldReports summary.compiled
    return some
      { summary with scaffolded := made.created, failed := summary.failed ++ made.failed }
  else return some summary

end NavTree
