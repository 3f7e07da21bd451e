import NavTree.Proofs.Project.Repeatable
import NavTree.Proofs.Project.Scaffolded
import NavTree.Proofs.Project.Together
import NavTree.Proofs.Task.Lost

/-! # Accounts of runs

However the compilations of a run take turns, and if some of them are lost, each source is accounted
for once: it is compiled, it failed, or it is one of the aborted ones. Whether the run succeeded is
read off this account and the failures of the scaffolding behind it. A run that is to compile more
sources at once than any pool takes gives no account at all.
-/
namespace NavTree

variable {station : Station} {options : Options} {sources : List String} {old d : Disk}

namespace Pool

variable {pool last : Pool String Ending}

/-- The pool is one that compiling the sources may come to, tasks that are lost counting as
aborted. -/
def Compiles (station : Station) (options : Options) (sources : List String) (old : Disk)
    (pool : Pool String Ending) : Prop :=
  ReachesWithLoss station (compileSource options) (max options.jobs 1) .aborted (start sources old)
    pool

/-- The sources whose compilations were lost. -/
def lostSources (pool : Pool String Ending) : List String :=
  (pool.finished.filter (·.2.isAborted)).map (·.1)

theorem Compiles.bounded (h : pool.Compiles station options sources old) :
    pool.running.length ≤ max options.jobs 1 := ReachesWithLoss.length_running h (Nat.zero_le _)

theorem Compiles.sound (h : pool.Compiles station options sources old) :
    Sound sources (fun s => Operation.Serves s fun _ _ => True)
      (fun _ => Operation.Tells fun _ _ => True)
      (fun s e => e.IsOf s ∨ e = .aborted) (fun _ => True) pool :=
  ReachesWithLoss.sound (fun s _ => compileSource_always options s _)
    (fun _ op _ => op.tells_of_forall fun _ _ => trivial) h

/-- Endings of their sources name each of these in one of three ways. -/
theorem accounted_perm {finished : List (String × Ending)}
    (h : ∀ x ∈ finished, x.2.IsOf x.1 ∨ x.2 = .aborted) :
    (((finished.map (·.2)).filterMap Ending.report?).map (·.source) ++
      ((finished.map (·.2)).filterMap Ending.failure?).map (·.1) ++
      (finished.filter (·.2.isAborted)).map (·.1)).Perm (finished.map (·.1)) := by
  induction finished with
  | nil => exact .nil
  | cons x rest ih =>
    have hrest := ih fun y hy => h y (List.mem_cons_of_mem _ hy)
    obtain ⟨s, e⟩ := x
    cases e with
    | compiled report =>
      obtain rfl : report.source = s := (h _ List.mem_cons_self).resolve_right nofun
      exact hrest.cons _
    | failed source fault =>
      obtain rfl : source = s := (h _ List.mem_cons_self).resolve_right nofun
      rw [List.append_assoc] at hrest ⊢
      exact List.perm_middle.trans (hrest.cons _)
    | aborted => exact List.perm_middle.trans (hrest.cons _)

theorem Compiles.accounted (h : pool.Compiles station options sources old) (hdone : pool.IsDone) :
    (pool.summary.compiled.map (·.source) ++ pool.summary.failed.map (·.1)
      ++ pool.lostSources).Perm sources := by
  have hsound := h.sound
  have hnames : (pool.finished.map (·.1)).Perm sources := names_of_done hdone ▸ hsound.names
  refine List.Perm.trans ?_ ((accounted_perm hsound.finished).trans hnames)
  rw [summary, RunSummary.ofEndings_eq]
  exact (((List.mergeSort_perm _ _).map _).append ((List.mergeSort_perm _ _).map _)).append_right _

theorem summary_aborted (pool : Pool String Ending) :
    pool.summary.aborted = pool.lostSources.length := by
  rw [summary, RunSummary.ofEndings_eq, lostSources, List.length_map, ← List.countP_eq_length_filter,
    List.countP_map]
  rfl

end Pool

theorem RunSummary.isSuccess_iff {s : RunSummary} :
    s.isSuccess = true ↔ s.failed = [] ∧ s.aborted = 0 := by
  rw [isSuccess, Bool.and_eq_true, List.isEmpty_iff, beq_iff_eq]

/-- Success, as far as the scaffolding goes: it was not lost, and failed for none of the reports. -/
def Scaffolding.Fine (station : Station) (options : Options) (s : RunSummary) (d : Disk)
    (scaffolding : Scaffolding) : Prop :=
  scaffolding ≠ .lost ∧ (options.scaffolds = true → ∀ a ∈ scaffoldStarts station s.compiled d,
    ∀ fault, ¬ Job.ScaffoldFails station a.1.templates a.2 fault)

theorem Scaffolds.isSuccess_iff {s : RunSummary} {scaffolding : Scaffolding}
    (h : Scaffolds station options s d scaffolding) : (s.conclude scaffolding).isSuccess = true ↔
      (s.failed = [] ∧ s.aborted = 0) ∧ scaffolding.Fine station options s d := by
  rw [RunSummary.isSuccess_iff, Scaffolding.Fine]
  cases h with
  | skipped h =>
    refine (and_iff_left ⟨nofun, fun hs a ha => ?_⟩).symm
    rcases h with h | h
    · exact absurd (h.symm.trans hs) Bool.false_ne_true
    · rw [h] at ha
      cases ha
  | done h hs =>
    have hmade : ((scaffoldReports s.compiled).ends station d).1.failed = [] ↔
        ∀ a ∈ scaffoldStarts station s.compiled d,
          ∀ fault, ¬ Job.ScaffoldFails station a.1.templates a.2 fault := by
      rw [ends_scaffoldReports, List.filterMap_eq_nil_iff]
      exact forall₂_congr fun a _ => scaffoldFailure?_eq_none
    rw [RunSummary.conclude, List.append_eq_nil_iff, hmade]
    simp [h, and_assoc, and_comm, and_left_comm]
  | lost h hs => simp [RunSummary.conclude]

/-- The failures of the scaffolding itself. -/
def Scaffolding.failures : Scaffolding → List (String × ProjectFault)
  | .done made => made.failed
  | _ => []

/-- How often the scaffolding was lost. -/
def Scaffolding.losses : Scaffolding → Nat
  | .lost => 1
  | _ => 0

/-- What a summary is concluded to. Its reports stay, unless they are lost with the scaffolding. Its
failures stay, and behind them are those of the scaffolding, in the order of the reports and one for
each report at most. -/
structure RunSummary.Concludes (station : Station) (s : RunSummary) (d : Disk)
    (scaffolding : Scaffolding) (last : RunSummary) : Prop where
  compiled : scaffolding ≠ .lost → last.compiled = s.compiled
  lost : scaffolding = .lost → last.compiled = []
  failed : last.failed = s.failed ++ scaffolding.failures
  reports : (scaffolding.failures.map (·.1)).Sublist (s.compiled.map (·.source))
  faults : ∀ made, scaffolding = .done made → ∀ x, x ∈ made.failed ↔
    ∃ a ∈ scaffoldStarts station s.compiled d,
      a.1.source = x.1 ∧ Job.ScaffoldFails station a.1.templates a.2 x.2
  aborted : last.aborted = s.aborted + scaffolding.losses

theorem scaffoldFailure?_eq_some {a : FileReport × Disk} {x : String × ProjectFault} :
    scaffoldFailure? station a = some x ↔
      a.1.source = x.1 ∧ Job.ScaffoldFails station a.1.templates a.2 x.2 := by
  rw [scaffoldFailure?, ← Job.scaffold_fails_iff]
  cases (Job.ends station (Job.scaffold a.1.templates) a.2).1 with
  | ok made => simp
  | error fault => simp [Prod.ext_iff]

/-- Failures of scaffolding are of the reports that it was for, in their order. -/
theorem sources_scaffoldFailures (reports : List FileReport) (d : Disk) :
    (((scaffoldStarts station reports d).filterMap (scaffoldFailure? station)).map (·.1)).Sublist
      (reports.map (·.source)) := by
  induction reports generalizing d with
  | nil => exact .slnil
  | cons report rest ih =>
    have hrest := ih (Job.ends station (Job.scaffold report.templates) d).2
    rw [scaffoldStarts, List.map_cons]
    cases hf : scaffoldFailure? station (report, d) with
    | none =>
      rw [List.filterMap_cons_none hf]
      exact hrest.cons _
    | some x =>
      rw [List.filterMap_cons_some hf, List.map_cons, ← (scaffoldFailure?_eq_some.mp hf).1]
      exact hrest.cons_cons _

theorem Scaffolds.concludes {s : RunSummary} {scaffolding : Scaffolding}
    (h : Scaffolds station options s d scaffolding) :
    s.Concludes station d scaffolding (s.conclude scaffolding) := by
  cases h with
  | skipped h =>
    exact ⟨fun _ => rfl, nofun, (List.append_nil _).symm, List.nil_sublist _, nofun, rfl⟩
  | done h hs =>
    refine ⟨fun _ => rfl, nofun, rfl, ?_, ?_, rfl⟩
    · rw [Scaffolding.failures, ends_scaffoldReports]
      exact sources_scaffoldFailures _ d
    · rintro _ ⟨⟩ x
      rw [ends_scaffoldReports, List.mem_filterMap]
      simp only [scaffoldFailure?_eq_some]
  | lost h hs =>
    exact ⟨fun hn => absurd rfl hn, fun _ => rfl, (List.append_nil _).symm, List.nil_sublist _,
      nofun, rfl⟩

/-- A run accounts for its sources, for those that it finds and for all others that it might be
handed. -/
structure RunAccounts (station : Station) (options : Options) (old : Disk) : Prop where
  summary : ∃ (pool : Pool String Ending) (scaffolding : Scaffolding),
    pool.Compiles station options (foundSources old options) old ∧ pool.IsDone ∧
      Scaffolds station options pool.summary pool.disk scaffolding ∧
      ((runProject options).ends station old).1 = some (pool.summary.conclude scaffolding)
  bounded : ∀ sources (pool : Pool String Ending), pool.Compiles station options sources old →
    pool.running.length ≤ max options.jobs 1
  ending : ∀ sources (pool : Pool String Ending), pool.Compiles station options sources old →
    ∃ last : Pool String Ending, Pool.ReachesWithLoss station (compileSource options)
      (max options.jobs 1) .aborted pool last ∧ last.IsDone
  once : ∀ sources (pool : Pool String Ending), pool.Compiles station options sources old →
    pool.IsDone → (pool.summary.compiled.map (·.source) ++ pool.summary.failed.map (·.1)
      ++ pool.lostSources).Perm sources
  aborted : ∀ pool : Pool String Ending, pool.summary.aborted = pool.lostSources.length
  concluded : ∀ (pool : Pool String Ending) (scaffolding : Scaffolding),
    Scaffolds station options pool.summary pool.disk scaffolding →
    pool.summary.Concludes station pool.disk scaffolding (pool.summary.conclude scaffolding)
  success : ∀ (pool : Pool String Ending) (scaffolding : Scaffolding),
    Scaffolds station options pool.summary pool.disk scaffolding →
    ((pool.summary.conclude scaffolding).isSuccess = true ↔
      (pool.summary.failed = [] ∧ pool.lostSources = []) ∧
        scaffolding.Fine station options pool.summary pool.disk)

/-- Runs account for all sources unless they are to compile more at once than any pool takes. -/
theorem run_accounts_iff : RunAccounts station options old ↔ options.jobs ≤ largestPool := by
  have hb : 0 < max options.jobs 1 := Nat.lt_of_lt_of_le Nat.one_pos (Nat.le_max_right _ _)
  constructor
  · intro h
    obtain ⟨pool, scaffolding, -, -, -, hsome⟩ := h.summary
    by_contra hlt
    rw [ends_runProject, ends_processSources_none (Nat.not_le.mp hlt)] at hsome
    cases hsome
  · intro hjobs
    refine ⟨?_, fun _ _ h => h.bounded, fun _ pool _ => ?_, fun _ _ h hdone => h.accounted hdone,
      Pool.summary_aborted, fun _ _ h => h.concludes, fun pool scaffolding h => ?_⟩
    · obtain ⟨pool, hruns, hdone, hall⟩ := Pool.exists_compileAll hb (foundSources old options) old
      obtain ⟨scaffolding, hs, hsome⟩ := exists_conclusion hjobs (foundSources old options) old
      rw [hall] at hs hsome
      exact ⟨pool, scaffolding, hruns.reachesWithLoss, hdone, hs, ends_runProject options old ▸ hsome⟩
    · obtain ⟨last, hruns, hdone⟩ := Pool.exists_done hb pool
      exact ⟨last, hruns.reachesWithLoss, hdone⟩
    · rw [h.isSuccess_iff, Pool.summary_aborted, List.length_eq_zero_iff]

/-- A project with one source, and more jobs than permits. -/
def soleDisk : Disk := ⟨[(["navigation.json"], .file Job.plainSource)]⟩

def overfullOptions : Options := ⟨".", Nat.pow 2 64 - 1, false, false, defaultNames⟩

theorem overfull_run_unaccounted :
    foundSources soleDisk overfullOptions = ["./navigation.json"] ∧
    ((runProject overfullOptions).ends Pool.copying soleDisk).1 = none ∧
    ¬ RunAccounts Pool.copying overfullOptions soleDisk := by
  have hnone : ((runProject overfullOptions).ends Pool.copying soleDisk).1 = none := by
    rw [ends_runProject, ends_processSources_none (by decide)]
  refine ⟨by decide +kernel, hnone, fun h => ?_⟩
  obtain ⟨pool, scaffolding, -, -, -, hsome⟩ := h.summary
  rw [hnone] at hsome
  cases hsome

end NavTree
