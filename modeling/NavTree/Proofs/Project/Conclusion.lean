import NavTree.Project.Run
import NavTree.Proofs.Project.Ends

/-! # Conclusions of runs

A run finds its sources, compiles them and scaffolds for those that compiled. What the scaffolding
adds to the summary of the compilations is told by what becomes of it. There is no summary if more
sources may be compiled at once than any pool takes.
-/
namespace NavTree

variable {station : Station} {options : Options} {d : Disk}

/-- The sources that a run finds. -/
def foundSources (d : Disk) (options : Options) : List String :=
  Finding.sources (d.survey options.names options.root)

/-- What becomes of the scaffolding: it is not called for, it is done, or it is lost together with
the reports that it was handed. -/
inductive Scaffolding where
  | skipped
  | done (made : ScaffoldSummary)
  | lost

def RunSummary.conclude (s : RunSummary) : Scaffolding → RunSummary
  | .skipped => s
  | .done made => { s with scaffolded := made.created, failed := s.failed ++ made.failed }
  | .lost => { s with compiled := [], aborted := s.aborted + 1 }

/-- What the scaffolding may become on the disk that the compilations leave. -/
inductive Scaffolds (station : Station) (options : Options) (s : RunSummary) (d : Disk) :
    Scaffolding → Prop
  | skipped (h : options.scaffolds = false ∨ s.compiled = []) :
    Scaffolds station options s d .skipped
  | done (h : options.scaffolds = true) (hs : s.compiled ≠ []) :
    Scaffolds station options s d (.done ((scaffoldReports s.compiled).ends station d).1)
  | lost (h : options.scaffolds = true) (hs : s.compiled ≠ []) :
    Scaffolds station options s d .lost

theorem ends_notes (level : LogLevel) (origin : LogOrigin) (texts : List String) (d : Disk) :
    (texts.forM (Task.note level origin)).ends station d = ((), d) := by
  induction texts with
  | nil => rfl
  | cons text rest ih => exact ih

/-- What a run does once its sources are found. -/
def processSources (options : Options) (sources : List String) : Task (Option RunSummary) := do
  if largestPool < options.jobs then return none
  let summary ← compileAll options sources
  if options.scaffolds && !summary.compiled.isEmpty then
    let made ← scaffoldReports summary.compiled
    return some
      { summary with scaffolded := made.created, failed := summary.failed ++ made.failed }
  else return some summary

theorem ends_runProject (options : Options) (d : Disk) : (runProject options).ends station d =
    (processSources options (foundSources d options)).ends station d := by
  rw [runProject, Task.ends_bind, Task.ends_perform, Station.reply]
  dsimp only
  rw [Task.ends_bind, ends_notes]
  dsimp only
  split <;> rfl

theorem ends_processSources_none (h : largestPool < options.jobs) (sources : List String)
    (d : Disk) : (processSources options sources).ends station d = (none, d) := by
  rw [processSources, if_pos h, Task.ends_pure]

theorem exists_conclusion (h : options.jobs ≤ largestPool) (sources : List String) (d : Disk) :
    ∃ scaffolding, Scaffolds station options ((compileAll options sources).ends station d).1
        ((compileAll options sources).ends station d).2 scaffolding ∧
      ((processSources options sources).ends station d).1 =
        some (((compileAll options sources).ends station d).1.conclude scaffolding) := by
  rw [processSources, if_neg (Nat.not_lt.mpr h), Task.ends_bind]
  obtain ⟨s, d'⟩ := (compileAll options sources).ends station d
  dsimp only
  by_cases hs : (options.scaffolds && !s.compiled.isEmpty) = true
  · obtain ⟨hscaffolds, hsome⟩ : options.scaffolds = true ∧ s.compiled ≠ [] := by simpa using hs
    refine ⟨_, .done hscaffolds hsome, ?_⟩
    rw [if_pos hs, Task.ends_bind]
    rfl
  · refine ⟨.skipped, .skipped ?_, ?_⟩
    · cases hscaffolds : options.scaffolds with
      | false => exact .inl rfl
      | true => exact .inr (by simpa [hscaffolds] using hs)
    · rw [if_neg hs]
      rfl

/-- Without scaffolding a run comes to what its compilations come to. -/
theorem ends_processSources (h : options.jobs ≤ largestPool) (hs : options.scaffolds = false)
    (sources : List String) (d : Disk) : (processSources options sources).ends station d =
      (some ((compileAll options sources).ends station d).1,
        ((compileAll options sources).ends station d).2) := by
  rw [processSources, if_neg (Nat.not_lt.mpr h), Task.ends_bind, hs]
  rfl

end NavTree
