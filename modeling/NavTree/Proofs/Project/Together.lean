import NavTree.Proofs.Project.Conclusion
import NavTree.Proofs.Project.Failed
import NavTree.Proofs.Project.Isolated
import NavTree.Task.StandIn

/-! # Compiling together

Isolated sources that are compiled together come to what each of them comes to alone. The summary
and the disk are those of compiling them one after another, in any order; so are those of a run.
-/
namespace NavTree

variable {station : Station} {old : Disk}

namespace Pool

variable {bound : Nat} {pool : Pool String Ending} {sources order : List String}
  {options : Options}

/-- The summary of a pool that is done. -/
def summary (pool : Pool String Ending) : RunSummary := .ofEndings (pool.finished.map (·.2))

theorem ends_compileEach_cons (s : String) (order : List String) (d : Disk) :
    (compileEach options (s :: order)).ends station d =
      let first := (compileSource options s).ends station d
      let rest := (compileEach options order).ends station first.2
      (first.1 :: rest.1, rest.2) := by
  rw [compileEach, Task.ends_bind, Task.ends_bind, Task.ends_pure]

/-- Compiling sources one after another is one of the schedules of a pool. -/
theorem runs_compileEach (hb : 0 < bound) (order : List String)
    (finished : List (String × Ending)) (d : Disk) : ∃ fs,
    Runs station (compileSource options) bound ⟨order, [], finished, d⟩
      ⟨[], [], finished ++ fs, ((compileEach options order).ends station d).2⟩ ∧
    fs.map (·.2) = ((compileEach options order).ends station d).1 := by
  induction order generalizing finished d with
  | nil => exact ⟨[], by rw [List.append_nil]; exact .refl, rfl⟩
  | cons s order ih =>
    rw [ends_compileEach_cons]
    obtain ⟨fs, hruns, hmap⟩ := ih (finished ++ [(s, ((compileSource options s).ends station d).1)])
      ((compileSource options s).ends station d).2
    rw [List.append_assoc] at hruns
    exact ⟨(s, ((compileSource options s).ends station d).1) :: fs,
      (runs_first hb s order finished d).trans hruns, congrArg (_ :: ·) hmap⟩

theorem exists_compileAll (hb : 0 < bound) (order : List String) (d : Disk) :
    ∃ pool, Runs station (compileSource options) bound (start order d) pool ∧ pool.IsDone ∧
      (compileAll options order).ends station d = (pool.summary, pool.disk) := by
  obtain ⟨fs, hruns, hmap⟩ : ∃ fs, Runs station (compileSource options) bound
      ⟨order, [], [], d⟩ ⟨[], [], [] ++ fs, ((compileEach options order).ends station d).2⟩ ∧
      fs.map (·.2) = ((compileEach options order).ends station d).1 :=
    runs_compileEach hb order [] d
  refine ⟨_, hruns, ⟨rfl, rfl⟩, ?_⟩
  rw [compileAll, Task.ends_bind, Task.ends_pure, ← hmap]
  rfl

/-- A pool comes to what each source comes to when it is compiled alone, and to what all of them
come to one after another, in any order. A run on the sources concludes its summary, on such a
disk. -/
structure ComesToAlone (station : Station) (options : Options) (sources : List String) (old : Disk)
    (pool : Pool String Ending) : Prop where
  endings : pool.finished.Perm
    (sources.map fun s => (s, ((compileSource options s).ends station old).1))
  files : ∀ s ∈ sources, ∀ l, Region old s l →
    pool.disk.at? l = ((compileSource options s).ends station old).2.at? l
  summary : ∀ order : List String, order.Perm sources →
    pool.summary = ((compileAll options order).ends station old).1
  disk : ∀ order : List String, order.Perm sources →
    ∀ l, pool.disk.at? l = ((compileAll options order).ends station old).2.at? l
  compiled : pool.summary.compiled.Pairwise fun a b => Path.le a.source b.source = true
  failed : pool.summary.failed.Pairwise fun a b => Path.le a.1 b.1 = true
  concluded : ∃ d scaffolding, (∀ l, pool.disk.at? l = d.at? l) ∧
    Scaffolds station options pool.summary d scaffolding ∧
    ((processSources options sources).ends station old).1 =
      some (pool.summary.conclude scaffolding)

section

variable {last : Pool String Ending} (hiso : Isolated old sources) (htools : Deterministic station)
include hiso htools

/-- What a pool of isolated sources comes to, in whatever order they are put into it. -/
theorem done_of_isolated (hp : order.Perm sources)
    (hruns : Runs station (compileSource options) bound (start order old) last)
    (hdone : last.IsDone) :
    last.finished.Perm (sources.map fun s => (s, ((compileSource options s).ends station old).1)) ∧
    (∀ s ∈ sources, Agree (Region old s) last.disk ((compileSource options s).ends station old).2) ∧
    ∀ l, (∀ s ∈ sources, l ∉ owned old s) → last.disk.at? l = old.at? l := by
  obtain ⟨view, h⟩ := (mirrors_start hp).runs (hiso.independent htools) hruns
  exact h.done hdone

theorem apart_of_isolated (hp : order.Perm sources)
    (hruns : Runs station (compileSource options) bound (start order old) last)
    (hdone : last.IsDone) : RunSummary.Apart (last.finished.map (·.2)) := by
  have hends : ∀ e ∈ last.finished.map (·.2), ∃ i ∈ sources, e.IsOf i ∧
      e = ((compileSource options i).ends station old).1 := by
    intro e he
    obtain ⟨x, hx, rfl⟩ := List.mem_map.mp he
    obtain ⟨i, hi, rfl⟩ :=
      List.mem_map.mp ((done_of_isolated hiso htools hp hruns hdone).1.subset hx)
    exact ⟨i, hi, (compileSource_always options i fun _ _ => True).ends fun op _ =>
      op.tells_of_forall fun _ _ => trivial, rfl⟩
  intro e he e' he' s t hs ht hparts
  obtain ⟨i, hi, hei, rfl⟩ := hends e he
  obtain ⟨j, hj, hej, rfl⟩ := hends e' he'
  obtain rfl := hs.eq hei
  obtain rfl := ht.eq hej
  rw [hiso.eq_of_parts hi hj hparts]

/-- Whatever the schedule and the bound, up to the largest pool, a pool of isolated sources can be
brought to an end, and it has then come to what the sources come to alone. -/
theorem isolated_comesToAlone (hjobs : options.jobs ≤ largestPool)
    (hruns : Runs station (compileSource options) (max options.jobs 1) (start sources old) pool) :
    (∃ last, Runs station (compileSource options) (max options.jobs 1) pool last ∧ last.IsDone) ∧
    (pool.IsDone → pool.ComesToAlone station options sources old) := by
  have hb : 0 < max options.jobs 1 := Nat.lt_of_lt_of_le Nat.one_pos (Nat.le_max_right _ _)
  refine ⟨exists_done hb pool, fun hdone => ?_⟩
  obtain ⟨hends, hfiles, hrest⟩ := done_of_isolated hiso htools (.refl _) hruns hdone
  have hturn : ∀ order : List String, order.Perm sources →
      pool.summary = ((compileAll options order).ends station old).1 ∧
      ∀ l, pool.disk.at? l = ((compileAll options order).ends station old).2.at? l := by
    intro order hp
    obtain ⟨last, hruns', hdone', hall⟩ := exists_compileAll hb order old
    obtain ⟨hends', hfiles', hrest'⟩ := done_of_isolated hiso htools hp hruns' hdone'
    rw [hall]
    refine ⟨RunSummary.ofEndings_perm ((hends.trans hends'.symm).map _)
      (apart_of_isolated hiso htools (.refl _) hruns hdone), fun l => ?_⟩
    by_cases hl : ∃ s ∈ sources, l ∈ owned old s
    · obtain ⟨s, hs, hl⟩ := hl
      have hregion := (hiso.prepared s hs).region hl
      rw [hfiles s hs l hregion, hfiles' s hs l hregion]
    · have hnone : ∀ s ∈ sources, l ∉ owned old s := fun s hs hm => hl ⟨s, hs, hm⟩
      rw [hrest l hnone, hrest' l hnone]
  obtain ⟨hsame, hdisk⟩ := hturn sources (.refl _)
  obtain ⟨scaffolding, hscaffolds, hrun⟩ := exists_conclusion hjobs sources old
  rw [← hsame] at hscaffolds hrun
  exact ⟨hends, hfiles, fun order hp => (hturn order hp).1, fun order hp => (hturn order hp).2,
    (RunSummary.ofEndings_sorted _).1, (RunSummary.ofEndings_sorted _).2,
    _, scaffolding, hdisk, hscaffolds, hrun⟩

end

/-- A program that copies the source. -/
def copier : StandIn := ⟨.printFile, .empty, 0, true⟩

/-- A program that records its arguments. -/
def recorder : StandIn := ⟨.recordArguments, .empty, 0, true⟩

def copying : Station :=
  ⟨StandIn.toolbox [("jsonnet", copier), ("dot", recorder)], fun _ _ => .error .cancelled⟩

/-- What keeps a program from being started with some arguments. -/
def startFault? (program : String) (arguments : List String) : Option StartFault :=
  if (program :: arguments).any Disk.hasZeroByte then some .zeroByte
  else if arguments.any fun a => longestArgument < a.utf8ByteSize then
    some (.refused .argumentTooLong)
  else none

theorem start_eq {tools : Toolbox} {program : String} {run : Tool} {d : Disk}
    (h : tools.command program d = .tool run) (arguments : List String) :
    tools.start program arguments d = match startFault? program arguments with
      | some fault => (.error fault, d)
      | none => (.ok (run arguments d).1, (run arguments d).2) := by
  rw [Toolbox.start, h, startFault?]
  split
  · rfl
  · simp only
    split <;> rfl

theorem copying_deterministic : Deterministic copying where
  jsonnet := by
    refine ⟨fun path held => match startFault? "jsonnet" [path] with
      | some fault => .error fault
      | none => .ok ⟨0, held.toOption.getD .empty, .empty⟩, fun path d => ?_⟩
    have hcommand : copying.tools.command "jsonnet" d = .tool copier.tool := rfl
    rw [start_eq hcommand]
    beta_reduce
    cases startFault? "jsonnet" [path] <;> rfl
  dot := by
    refine ⟨fun input output _ => match startFault? "dot" ["-Tsvg", input, "-o", output] with
      | some _ => none
      | none => some (" ".intercalate ["-Tsvg", input, "-o", output] ++ "\n").toUTF8,
      fun input output _ _ => match startFault? "dot" ["-Tsvg", input, "-o", output] with
      | some fault => .error fault
      | none => .ok ⟨0, .empty, .empty⟩, fun input output d => ?_⟩
    have hcommand : copying.tools.command "dot" d = .tool recorder.tool := rfl
    rw [start_eq hcommand]
    beta_reduce
    cases startFault? "dot" ["-Tsvg", input, "-o", output] with
    | some fault => rfl
    | none =>
      have hdisk : ∀ r : Except FileFault Disk, r.toOption.getD d = (attempted d r).2 := by
        intro r
        cases r <;> rfl
      exact Prod.ext rfl (hdisk _)

def pairDisk : Disk :=
  ⟨[(["a"], .directory), (["b"], .directory), (["navigation.json", "a"], .file Job.plainSource),
    (["navigation.json", "b"], .file "[]".toUTF8)]⟩

def pairSources : List String := ["a/navigation.json", "b/navigation.json"]

def pairOptions : Options := ⟨".", 2, true, false, defaultNames⟩

theorem pairDisk_isolated : Isolated pairDisk pairSources := by
  have hlink := pairDisk.not_link_of_entries (by simp [pairDisk])
  refine isolated_of_unlinked (fun s hs => ?_) (by decide)
  have hs : s = "a/navigation.json" ∨ s = "b/navigation.json" := by simpa [pairSources] using hs
  rcases hs with rfl | rfl
  · exact ⟨⟨"navigation.json", by decide⟩, by decide, fun p _ => hlink _⟩
  · exact ⟨⟨"navigation.json", by decide⟩, by decide, fun p _ => hlink _⟩

theorem pair_comesToAlone : Deterministic copying ∧ Isolated pairDisk pairSources ∧
    pairOptions.jobs ≤ largestPool ∧ ∃ pool, Runs copying (compileSource pairOptions) (max pairOptions.jobs 1)
      (start pairSources pairDisk) pool ∧ pool.IsDone ∧
      pool.ComesToAlone copying pairOptions pairSources pairDisk := by
  have hb : 0 < max pairOptions.jobs 1 := by decide
  obtain ⟨pool, hruns, hdone⟩ : ∃ pool, Runs copying (compileSource pairOptions)
      (max pairOptions.jobs 1) (start pairSources pairDisk) pool ∧ pool.IsDone := exists_done hb _
  have hjobs : pairOptions.jobs ≤ largestPool := by decide
  exact ⟨copying_deterministic, pairDisk_isolated, hjobs, pool, hruns, hdone,
    (isolated_comesToAlone pairDisk_isolated copying_deterministic hjobs hruns).2 hdone⟩

/-- The second source is a link to a temporary of the first one. -/
def crossDisk : Disk :=
  ⟨[(["a"], .directory), (["b"], .directory), (["navigation.json", "a"], .file Job.plainSource),
    (["navigation.gen.dot.tmp", "a"], .file Job.plainSource),
    (["navigation.json", "b"], .link "../a/navigation.gen.dot.tmp")]⟩

def crossOptions : Options := ⟨".", 1, false, false, defaultNames⟩

set_option maxRecDepth 100000 in
theorem cross_compileAll :
    ((compileAll crossOptions pairSources).ends copying crossDisk).1.isSuccess = false ∧
    ((compileAll crossOptions pairSources.reverse).ends copying crossDisk).1.isSuccess = true := by
  decide +kernel

/-- A link out of its directory makes a source depend on when the other one is compiled. -/
theorem cross_not_comesToAlone : Deterministic copying ∧ pairSources.Nodup ∧
    (pairSources.map (sourceHome crossDisk)).Nodup ∧
    ∃ pool, Runs copying (compileSource crossOptions) (max crossOptions.jobs 1)
      (start pairSources crossDisk) pool ∧ pool.IsDone ∧
      ∃ order : List String, order.Perm pairSources ∧
        pool.summary ≠ ((compileAll crossOptions order).ends copying crossDisk).1 := by
  have hb : 0 < max crossOptions.jobs 1 := by decide
  obtain ⟨pool, hruns, hdone, hall⟩ : ∃ pool, Runs copying (compileSource crossOptions)
      (max crossOptions.jobs 1) (start pairSources crossDisk) pool ∧ pool.IsDone ∧
      (compileAll crossOptions pairSources).ends copying crossDisk = (pool.summary, pool.disk) :=
    exists_compileAll hb pairSources crossDisk
  obtain ⟨hfails, hsucceeds⟩ := cross_compileAll
  refine ⟨copying_deterministic, by decide, by decide, pool, hruns, hdone, pairSources.reverse,
    List.reverse_perm _, fun he => ?_⟩
  rw [hall] at hfails
  rw [← he] at hsucceeds
  exact absurd (hfails.symm.trans hsucceeds) (by decide)

end Pool

end NavTree
