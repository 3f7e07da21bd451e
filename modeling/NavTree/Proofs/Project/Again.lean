import NavTree.Proofs.Files.Rewalk
import NavTree.Proofs.Project.Repeatable
import NavTree.Proofs.Project.Settled
import NavTree.Proofs.Project.Together
import NavTree.Proofs.Task.Invariant

/-! # Running again

After a run that compiled every source, a second one finds the same sources and changes nothing, in
whatever order they are compiled. No file that is made is where one looks for a source or for another
file, so each source is read as before, and its files as it left them.
-/
namespace NavTree

variable {station : Station} {old new : Disk} {options : Options} {s : String} {l : Location}
  {evaluate : String → Except FileFault ByteArray → Except StartFault ToolResult}
  {pool again : Pool String Ending}

namespace Repeatable

variable (hrep : Repeatable old options)
include hrep

theorem independent (hgraph : options.drawsGraph = false) (hj : Evaluates station evaluate) :
    Independent station (compileSource options) (Sees old)
      (fun s l => l ∈ old.changeable (madePlaces old s)) (foundSources old options) old where
  nodup := .of_map _ hrep.homes
  confined s hs := by
    have hok := (hrep.isLocal hs).allows hj
    rw [← hgraph] at hok
    exact confined_of_actsIn (compileSource_allowed hok) (.refl old _)
  owns s hs l hl := by
    obtain ⟨p, hp, rfl⟩ := List.mem_map.mp (Disk.mem_changeable.mp hl).1
    exact hrep.sees_made hs hp
  apart s hs t ht hne l hl := hrep.apart hs ht hne hl

/-- Whatever happens in a run, the disk stays tidy, and as it was but for what is made. -/
theorem sound (hgraph : options.drawsGraph = false) (hj : Evaluates station evaluate) {bound : Nat}
    (hruns : Pool.Runs station (compileSource options) bound
      (.start (foundSources old options) old) pool) :
    pool.disk.Tidy ∧ Disk.Stays old (allPlaces old options) pool.disk := by
  have hwork : ∀ s ∈ foundSources old options, (compileSource options s).Always
      (fun op => ∀ e, Disk.Stays old (allPlaces old options) e →
        ActsIn station old (fun _ => True) (allPlaces old options) e op)
      (Operation.Tells (Replaceable old)) (Ending.IsOf s) := by
    intro s hs
    have hok := (hrep.isLocal_all hs).allows hj
    rw [← hgraph] at hok
    exact compileSource_allowed hok
  have hkept : Pool.Kept station (foundSources old options)
      (fun _ op => ∀ e, Disk.Stays old (allPlaces old options) e →
        ActsIn station old (fun _ => True) (allPlaces old options) e op)
      (fun _ => Operation.Tells (Replaceable old))
      fun d => d.Tidy ∧ Disk.Stays old (allPlaces old options) d := by
    rintro s hs op d hop ⟨htidy, hstays⟩
    obtain ⟨r, xs, htells, hxs, hreply⟩ := hop d hstays
    rw [hreply d fun _ _ => rfl]
    refine ⟨htells, htidy.edits fun x hx n hn => ?_, hstays.edits hxs⟩
    obtain ⟨t, -, p, hp, hpl⟩ := exists_made (hxs x hx)
    obtain ⟨m, hm, hplace⟩ := exists_name_of_produced old hp
    rw [← hpl, hplace, List.head?_cons, Option.mem_some_iff] at hn
    exact hn ▸ hm
  exact ((Pool.sound_start (.refl _) ⟨hrep.tidy, .refl old _⟩).runs hwork hkept hruns).disk

end Repeatable

/-- All sources have been compiled, and their files are as if each had been compiled alone. -/
structure Completed (station : Station) (old : Disk) (options : Options) (new : Disk) : Prop where
  tidy : new.Tidy
  stays : Disk.Stays old (allPlaces old options) new
  alone : ∀ s ∈ foundSources old options, ∃ report d,
    (compileSource options s).ends station old = (.compiled report, d) ∧ Agree (Sees old s) new d

theorem Repeatable.completed (hrep : Repeatable old options) (hgraph : options.drawsGraph = false)
    (hj : Evaluates station evaluate) {bound : Nat}
    (hruns : Pool.Runs station (compileSource options) bound
      (.start (foundSources old options) old) pool)
    (hdone : pool.IsDone) (hsuccess : pool.summary.isSuccess = true) :
    Completed station old options pool.disk := by
  obtain ⟨htidy, hstays⟩ := hrep.sound hgraph hj hruns
  obtain ⟨view, hview⟩ :=
    (Pool.mirrors_start (.refl _)).runs (hrep.independent hgraph hj) hruns
  obtain ⟨hfinished, hagree, -⟩ := hview.done hdone
  refine ⟨htidy, hstays, fun s hs => ?_⟩
  have hmem : ((compileSource options s).ends station old).1 ∈ pool.finished.map (·.2) := by
    have hin := hfinished.symm.subset (List.mem_map_of_mem hs)
    exact List.mem_map_of_mem hin
  obtain ⟨report, hreport⟩ := RunSummary.isSuccess_ofEndings.mp hsuccess _ hmem
  exact ⟨report, _, Prod.ext hreport rfl, hagree s hs⟩

namespace Completed

variable (hrep : Repeatable old options) (hdone : Completed station old options new)
include hrep hdone

/-- Sources are read as before. -/
theorem read_source (hs : s ∈ foundSources old options) : new.read s = old.read s := by
  have halike : Disk.Alike old new s := by
    refine Disk.alike_of_looks fun l hl => hdone.stays.elsewhere fun hc => ?_
    obtain ⟨t, ht, p, hp, rfl⟩ := exists_made hc
    exact hrep.sources t ht p hp s hs hl
  exact halike.read

variable (hgraph : options.drawsGraph = false) (hj : Evaluates station evaluate)
include hgraph hj

/-- A source that is compiled again leaves the disk alone, and no text waits beside it. -/
theorem quiet (hs : s ∈ foundSources old options) :
    (∃ templates, (compileSource options s).Quiet station new
      (.compiled ⟨s, unchanged (targetPaths s), templates⟩)) ∧
    ∀ p ∈ targetPaths s, new.at? (old.place (temporaryPath p)) = none := by
  obtain ⟨report, d, hends, hagree⟩ := hdone.alone s hs
  have hread : ∀ p ∈ targetPaths s, new.read p = d.read p := by
    intro p hp
    have halike : Disk.Alike new d p := by
      refine Disk.alike_of_looks fun l hl => (hagree l ⟨p, ?_, ?_⟩).symm
      · simp [target_mem_produced hp]
      · exact hdone.stays.fades.looks_subset p hl
    exact halike.read.symm
  obtain ⟨hquiet, hfree⟩ :=
    compileSource_quiet hgraph hj (hrep.vacant hs) hends (hdone.read_source hrep hs) hread
  refine ⟨⟨_, hquiet⟩, fun p hp => ?_⟩
  rw [hagree _ (hrep.sees_made hs (temporary_mem_produced hp)), hfree p hp]

/-- Nothing but the generated files has changed. -/
theorem elsewhere (hl : ∀ s ∈ foundSources old options, ∀ p ∈ targetPaths s, l ≠ old.place p) :
    new.at? l = old.at? l := by
  by_cases hc : l ∈ old.changeable (allPlaces old options)
  · obtain ⟨s, hs, p, hp, rfl⟩ := exists_made hc
    rcases List.mem_append.mp hp with hp | hp
    · exact absurd rfl (hl s hs p hp)
    · obtain ⟨q, hq, rfl⟩ := List.mem_map.mp hp
      rw [(hdone.quiet hrep hgraph hj hs).2 q hq, hrep.free s hs q hq]
  · exact hdone.stays.elsewhere hc

/-- The walk finds nothing changed that matters to it. -/
theorem keepsWalk : Disk.KeepsWalk old new options.names options.root where
  fades := hdone.stays.fades
  sought n hn loc := by
    refine hdone.elsewhere hrep hgraph hj fun s hs p hp he => ?_
    obtain ⟨m, hm, hname, -, rfl, -⟩ := target_names hp
    rw [old.place_join _ hname, List.cons.injEq] at he
    exact hrep.names n hn (he.1 ▸ hm)
  links n hn loc target hlink l hl := by
    refine hdone.elsewhere hrep hgraph hj fun s hs p hp he => ?_
    exact hrep.links s hs p hp n hn loc target hlink (he ▸ hl)
  directory s hs := hrep.directory s (mem_sources.mpr hs)
  sources s hs l hl := by
    refine hdone.elsewhere hrep hgraph hj fun t ht p hp he => ?_
    exact hrep.sources t ht p (target_mem_produced hp) s (mem_sources.mpr hs) (he ▸ hl)

/-- If there is a source, the same sources are found again. -/
theorem foundSources_eq (hs : s ∈ foundSources old options) :
    foundSources new options = foundSources old options := by
  have hkeeps := hdone.keepsWalk hrep hgraph hj
  have hiff : ∀ t, Finding.source t ∈ new.survey options.names options.root ↔
      Finding.source t ∈ old.survey options.names options.root :=
    fun t => hkeeps.source_mem_iff hrep.tidy hdone.tidy ⟨s, mem_sources.mp hs⟩
  have hperm : ((new.survey options.names options.root).filterMap Finding.source?).Perm
      ((old.survey options.names options.root).filterMap Finding.source?) := by
    refine (List.perm_ext_iff_of_nodup (hdone.tidy.sources_nodup _ _)
      (hrep.tidy.sources_nodup _ _)).mpr fun t => ?_
    rw [Disk.mem_filterMap_source, Disk.mem_filterMap_source, hiff]
  have hone : ∀ a ∈ (new.survey options.names options.root).filterMap Finding.source?,
      ∀ b ∈ (new.survey options.names options.root).filterMap Finding.source?,
        Path.parts (id a) = Path.parts (id b) → a = b := by
    intro a ha b hb he
    rw [Disk.mem_filterMap_source] at ha hb
    exact Disk.eq_of_parts_of_survey hdone.tidy.named ha hb he
  exact RunSummary.mergeSort_eq hperm hone

end Completed

/-- A source has been compiled, and its files were left alone. -/
def Ending.LeavesAlone (source : String) (e : Ending) : Prop :=
  ∃ templates, e = .compiled ⟨source, unchanged (targetPaths source), templates⟩

namespace Pool

/-- A pool does not change the disk and can be brought to an end, when all sources have been
compiled to files that were left alone. -/
structure Idle (station : Station) (options : Options) (sources : List String) (d : Disk)
    (pool : Pool String Ending) : Prop where
  disk : pool.disk = d
  ends : ∃ last, Runs station (compileSource options) (max options.jobs 1) pool last ∧ last.IsDone
  success : pool.IsDone → pool.summary.isSuccess = true
  compiled : pool.IsDone → pool.summary.compiled.map (·.source) = sources
  written : ∀ report ∈ pool.summary.compiled,
    report.written = unchanged (targetPaths report.source)

variable {sources : List String} {d : Disk}

theorem map_source_reports {finished : List (String × Ending)}
    (h : ∀ x ∈ finished, x.2.LeavesAlone x.1) :
    ((finished.map (·.2)).filterMap Ending.report?).map (·.source) = finished.map (·.1) := by
  induction finished with
  | nil => rfl
  | cons x finished ih =>
    obtain ⟨⟨templates, hx⟩, hrest⟩ := List.forall_mem_cons.mp h
    have hreport : Ending.report? x.2 = some ⟨x.1, unchanged (targetPaths x.1), templates⟩ :=
      Ending.report?_eq_some.mpr hx
    rw [List.map_cons, List.map_cons, List.filterMap_cons_some hreport, List.map_cons, ih hrest]

/-- Sources that are quiet are compiled quietly together. -/
theorem quiet_runs (hquiet : ∀ s ∈ sources, ∃ templates, (compileSource options s).Quiet station d
      (.compiled ⟨s, unchanged (targetPaths s), templates⟩))
    (hsorted : sources.Pairwise fun a b => Path.le a b = true)
    (hone : ∀ a ∈ sources, ∀ b ∈ sources, Path.parts a = Path.parts b → a = b)
    (hruns : Runs station (compileSource options) (max options.jobs 1) (start sources d) again) :
    again.Idle station options sources d := by
  have hb : 0 < max options.jobs 1 := Nat.lt_of_lt_of_le Nat.one_pos (Nat.le_max_right _ _)
  have hwork : ∀ s ∈ sources, (compileSource options s).Always
      (fun op => (station.reply d op).2 = d) (fun op r => r = (station.reply d op).1)
      (Ending.LeavesAlone s) := by
    intro s hs
    obtain ⟨templates, h⟩ := hquiet s hs
    exact h.mono (fun _ => id) (fun _ _ => id) fun e he => ⟨templates, he⟩
  have hkept : Kept station sources (fun _ op => (station.reply d op).2 = d)
      (fun _ op r => r = (station.reply d op).1) (· = d) := by
    rintro s hs op _ hop rfl
    exact ⟨rfl, hop⟩
  have hstart : Sound sources (fun _ op => (station.reply d op).2 = d)
      (fun _ op r => r = (station.reply d op).1)
      Ending.LeavesAlone (· = d) (start sources d) := sound_start (.refl sources) rfl
  have hsound := hstart.runs hwork hkept hruns
  have hendings : ∀ e ∈ again.finished.map (·.2), ∃ s, e.LeavesAlone s := by
    intro e he
    obtain ⟨x, hx, rfl⟩ := List.mem_map.mp he
    exact ⟨x.1, hsound.finished x hx⟩
  refine ⟨hsound.disk, exists_done hb again, fun _ => ?_, fun hdone => ?_, fun report hr => ?_⟩
  · refine RunSummary.isSuccess_ofEndings.mpr fun e he => ?_
    obtain ⟨s, templates, rfl⟩ := hendings e he
    exact ⟨_, rfl⟩
  · have hnames : (again.finished.map (·.1)).Perm sources := names_of_done hdone ▸ hsound.names
    have hperm : (again.summary.compiled.map (·.source)).Perm sources := by
      rw [← map_source_reports hsound.finished] at hnames
      rw [summary, RunSummary.ofEndings_eq]
      exact ((List.mergeSort_perm _ _).map _).trans hnames
    refine List.Perm.eq_of_pairwise (fun a b ha hb hab hba => ?_)
      (List.pairwise_map.mpr (RunSummary.ofEndings_sorted _).1) hsorted hperm
    exact hone a (hperm.mem_iff.mp ha) b hb (Path.parts_eq_of_le hab hba)
  · obtain ⟨s, templates, he⟩ := hendings _ (RunSummary.mem_compiled.mp hr)
    rw [Ending.compiled.inj he]

/-- After a run that compiled every source, a second run finds the same sources and compiles all of
them, and in no schedule does it change the disk: all files are reported as unchanged. Without
scaffolding that is all that the second run comes to. -/
theorem second_run_idle (hrep : Repeatable old options) (hgraph : options.drawsGraph = false)
    (hj : Evaluates station evaluate) (hjobs : options.jobs ≤ largestPool)
    (hruns : Runs station (compileSource options) (max options.jobs 1)
      (start (foundSources old options) old) pool)
    (hdone : pool.IsDone) (hsuccess : pool.summary.isSuccess = true) :
    foundSources pool.disk options = foundSources old options ∧
    (∀ again, Runs station (compileSource options) (max options.jobs 1)
        (start (foundSources pool.disk options) pool.disk) again →
      again.Idle station options (foundSources old options) pool.disk) ∧
    (options.scaffolds = false → ∃ again : Pool String Ending,
      Runs station (compileSource options) (max options.jobs 1)
        (start (foundSources pool.disk options) pool.disk) again ∧ again.IsDone ∧
      (runProject options).ends station pool.disk = (some again.summary, pool.disk)) := by
  have hcompleted := hrep.completed hgraph hj hruns hdone hsuccess
  have hfound : foundSources pool.disk options = foundSources old options := by
    cases hs : foundSources old options with
    | cons s rest =>
      rw [← hs]
      exact hcompleted.foundSources_eq hrep hgraph hj (s := s) (by simp [hs])
    | nil =>
      -- without sources, nothing happens at all
      have hkept : Kept station ([] : List String) (fun _ _ => True) (fun _ _ _ => True)
        (· = old) := nofun
      have hstart : Sound [] (fun _ _ => True) (fun _ _ _ => True) (fun _ _ => True) (· = old)
          (start (α := Ending) (foundSources old options) old) := sound_start (.of_eq hs) rfl
      have hsound := hstart.runs nofun hkept hruns
      rw [hsound.disk, hs]
  have hidle : ∀ again, Runs station (compileSource options) (max options.jobs 1)
      (start (foundSources pool.disk options) pool.disk) again →
      again.Idle station options (foundSources old options) pool.disk := by
    intro again hagain
    rw [hfound] at hagain
    refine quiet_runs (fun s hs => (hcompleted.quiet hrep hgraph hj hs).1)
      (RunSummary.sorted_mergeSort id _) (fun a ha b hb he => ?_) hagain
    exact Disk.eq_of_parts_of_survey hrep.tidy.named (mem_sources.mp ha) (mem_sources.mp hb) he
  refine ⟨hfound, hidle, fun hscaffolds => ?_⟩
  have hb : 0 < max options.jobs 1 := Nat.lt_of_lt_of_le Nat.one_pos (Nat.le_max_right _ _)
  obtain ⟨again, hagain, hdone', hall⟩ :=
    exists_compileAll hb (foundSources pool.disk options) pool.disk
  refine ⟨again, hagain, hdone', ?_⟩
  rw [ends_runProject, ends_processSources hjobs hscaffolds, hall, (hidle again hagain).disk]

/-- Two sources, of which one is evaluated. Beside the other one a generated file is out of date. -/
def calmDisk : Disk :=
  ⟨[(["a"], .directory), (["b"], .directory), (["navigation.json", "a"], .file Job.plainSource),
    (["routes.gen.ts", "a"], .file "0".toUTF8),
    (["navigation.jsonnet", "b"], .file Job.plainSource)]⟩

def calmOptions : Options := ⟨".", 2, false, false, defaultNames⟩

def calmSources : List String := ["./a/navigation.json", "./b/navigation.jsonnet"]

theorem calm_foundSources : foundSources calmDisk calmOptions = calmSources := by
  have hfound : (calmDisk.survey calmOptions.names calmOptions.root).filterMap Finding.source? =
      calmSources := by decide +kernel
  rw [foundSources, Finding.sources, hfound]
  exact List.mergeSort_of_pairwise (by decide +kernel)

theorem calmDisk_tidy : calmDisk.Tidy := by
  refine ⟨by decide, fun x hx n hn => ?_⟩
  have hname : n ∈ ["a", "b", "navigation.json", "routes.gen.ts", "navigation.jsonnet"] := by
    simp only [calmDisk, List.mem_cons, List.not_mem_nil, or_false] at hx
    rcases hx with rfl | rfl | rfl | rfl | rfl <;> simp_all
  have hall : ∀ n ∈ ["a", "b", "navigation.json", "routes.gen.ts", "navigation.jsonnet"],
      n.toList ≠ [] ∧ '/' ∉ n.toList ∧ n.toList ≠ ['.'] ∧ n.toList ≠ ['.', '.'] := by decide
  obtain ⟨h₁, h₂, h₃, h₄⟩ := hall n hname
  exact ⟨h₁, h₂, h₃, h₄⟩

theorem calmDisk_ordinary : Ordinary calmDisk calmOptions := by
  have hlink := calmDisk.not_link_of_entries (by simp [calmDisk])
  have hdirectory : ∀ s ∈ calmSources, ∀ p ∈ producedPaths s,
      calmDisk.holdsDirectory (calmDisk.place p) = false := by decide +kernel
  refine ⟨?_, fun s hs p hp => ⟨fun he => ?_, hlink _⟩, fun n _ loc => hlink _⟩
  · rw [calm_foundSources]
    simp only [calmSources, List.forall_mem_cons]
    exact ⟨⟨_, by decide, rfl⟩, ⟨_, by decide, rfl⟩, nofun⟩
  · rw [calm_foundSources] at hs
    have hnone := hdirectory s hs p hp
    rw [Disk.holdsDirectory_eq_true.mpr he] at hnone
    cases hnone

theorem calmDisk_repeatable : Repeatable calmDisk calmOptions := by
  have hfree : ∀ s ∈ calmSources, ∀ p ∈ targetPaths s,
      (calmDisk.at? (calmDisk.place (temporaryPath p))).isNone = true := by decide +kernel
  apply calmDisk_ordinary.repeatable calmDisk_tidy
  · decide
  · rw [calm_foundSources]
    decide +kernel
  · rw [calm_foundSources]
    decide +kernel
  · rw [calm_foundSources]
    exact fun s hs p hp => Option.isNone_iff_eq_none.mp (hfree s hs p hp)

set_option maxRecDepth 100000 in
theorem calm_compileAll :
    ((compileAll calmOptions calmSources).ends copying calmDisk).1.isSuccess = true := by
  decide +kernel

theorem calm_second_run_idle : ∃ evaluate pool, Repeatable calmDisk calmOptions ∧
    calmOptions.drawsGraph = false ∧ Evaluates copying evaluate ∧
    calmOptions.jobs ≤ largestPool ∧
    Runs copying (compileSource calmOptions) (max calmOptions.jobs 1)
      (start (foundSources calmDisk calmOptions) calmDisk) pool ∧
    pool.IsDone ∧ pool.summary.isSuccess = true ∧
    foundSources pool.disk calmOptions = foundSources calmDisk calmOptions ∧
    (∀ again, Runs copying (compileSource calmOptions) (max calmOptions.jobs 1)
        (start (foundSources pool.disk calmOptions) pool.disk) again →
      again.Idle copying calmOptions (foundSources calmDisk calmOptions) pool.disk) ∧
    ∃ again : Pool String Ending, Runs copying (compileSource calmOptions) (max calmOptions.jobs 1)
        (start (foundSources pool.disk calmOptions) pool.disk) again ∧ again.IsDone ∧
      (runProject calmOptions).ends copying pool.disk = (some again.summary, pool.disk) := by
  obtain ⟨evaluate, hj⟩ := copying_deterministic.jsonnet
  have hb : 0 < max calmOptions.jobs 1 := by decide
  obtain ⟨pool, hruns, hdone, hall⟩ : ∃ pool, Runs copying (compileSource calmOptions)
      (max calmOptions.jobs 1) (start (foundSources calmDisk calmOptions) calmDisk) pool ∧
      pool.IsDone ∧ (compileAll calmOptions (foundSources calmDisk calmOptions)).ends copying
        calmDisk = (pool.summary, pool.disk) := exists_compileAll hb _ _
  have hsuccess := calm_compileAll
  rw [← calm_foundSources, hall] at hsuccess
  have hjobs : calmOptions.jobs ≤ largestPool := by decide
  obtain ⟨hfound, hidle, hrun⟩ :=
    second_run_idle calmDisk_repeatable rfl hj hjobs hruns hdone hsuccess
  exact ⟨evaluate, pool, calmDisk_repeatable, rfl, hj, hjobs, hruns, hdone, hsuccess, hfound, hidle,
    hrun rfl⟩

/-- A source that is a link to what is made beside it. -/
def twistedDisk : Disk :=
  ⟨[(["a"], .directory), (["routes.gen.ts", "a"], .file Job.plainSource),
    (["navigation.json", "a"], .link "routes.gen.ts")]⟩

def twistedSources : List String := ["./a/navigation.json"]

theorem twisted_foundSources : foundSources twistedDisk calmOptions = twistedSources := by
  have hfound : (twistedDisk.survey calmOptions.names calmOptions.root).filterMap
      Finding.source? = twistedSources := by decide +kernel
  rw [foundSources, Finding.sources, hfound]
  exact List.mergeSort_singleton _

def twistedRun (d : Disk) : RunSummary × Disk :=
  (compileAll calmOptions twistedSources).ends copying d

/-- Whether a first run succeeds, what a second one finds then, and whether that one succeeds. -/
def twistedRuns (d : Disk) : Bool × List String × Bool :=
  let first := twistedRun d
  (first.1.isSuccess,
    (first.2.survey calmOptions.names calmOptions.root).filterMap Finding.source?,
    (twistedRun first.2).1.isSuccess)

theorem twistedRuns_eq : twistedRuns twistedDisk = (true, twistedSources, false) := by
  decide +kernel

/-- The first run replaces what the link leads to, and the second one does not compile that. -/
theorem twisted_second_run_fails : calmOptions.drawsGraph = false ∧
    (∃ evaluate, Evaluates copying evaluate) ∧
    ((foundSources twistedDisk calmOptions).map (sourceHome twistedDisk)).Nodup ∧
    (∀ s ∈ foundSources twistedDisk calmOptions, ∀ p ∈ targetPaths s,
      (twistedDisk.at? (twistedDisk.place (temporaryPath p))).isNone = true) ∧
    ∃ pool, Runs copying (compileSource calmOptions) (max calmOptions.jobs 1)
        (start (foundSources twistedDisk calmOptions) twistedDisk) pool ∧
      pool.IsDone ∧ pool.summary.isSuccess = true ∧
      ∃ again, Runs copying (compileSource calmOptions) (max calmOptions.jobs 1)
          (start (foundSources pool.disk calmOptions) pool.disk) again ∧
        again.IsDone ∧ again.summary.isSuccess = false := by
  have hb : 0 < max calmOptions.jobs 1 := by decide
  obtain ⟨hfirst, hrest⟩ := Prod.mk.inj twistedRuns_eq
  obtain ⟨hfound, hsecond⟩ := Prod.mk.inj hrest
  obtain ⟨pool, hruns, hdone, hall⟩ : ∃ pool, Runs copying (compileSource calmOptions)
      (max calmOptions.jobs 1) (start twistedSources twistedDisk) pool ∧ pool.IsDone ∧
      twistedRun twistedDisk = (pool.summary, pool.disk) := exists_compileAll hb _ _
  obtain ⟨again, hruns', hdone', hall'⟩ : ∃ again, Runs copying (compileSource calmOptions)
      (max calmOptions.jobs 1) (start twistedSources pool.disk) again ∧ again.IsDone ∧
      twistedRun pool.disk = (again.summary, again.disk) := exists_compileAll hb _ _
  rw [hall] at hfirst hfound hsecond
  rw [hall'] at hsecond
  have hagain : foundSources pool.disk calmOptions = twistedSources := by
    rw [foundSources, Finding.sources, hfound]
    exact List.mergeSort_singleton _
  obtain ⟨evaluate, hj⟩ := copying_deterministic.jsonnet
  rw [twisted_foundSources]
  refine ⟨rfl, ⟨evaluate, hj⟩, by decide, by decide +kernel, pool, hruns, hdone, hfirst, again, ?_,
    hdone', hsecond⟩
  rw [hagain]
  exact hruns'

end Pool

end NavTree
