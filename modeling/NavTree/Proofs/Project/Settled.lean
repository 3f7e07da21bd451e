import NavTree.Proofs.Project.Held
import NavTree.Proofs.Task.Quiet

/-! # Settled sources

A source that was compiled without a graph is compiled again without a trace, where it is read as
before and its files are read as they were left: they hold their texts, and are left alone.
-/
namespace NavTree

variable {old new d e : Disk} {source : String} {files : List Rendered} {f : Rendered}
  {station : Station} {options : Options} {report : FileReport}
  {evaluate : String → Except FileFault ByteArray → Except StartFault ToolResult}

namespace Job

theorem report_quiet (source : String) (compiled : Compiled)
    (written : List (String × WriteOutcome)) :
    (Job.report false source compiled written).Quiet station d
      ⟨source, written, compiled.templates⟩ := by
  refine (quiet_note _ _ _).bind ?_
  refine (quiet_note _ _ _).bind ?_
  exact quiet_pure _

theorem readSource_quiet (hj : Evaluates station evaluate) (hread : e.read source = old.read source)
    {raw : Json} (hends : ends station (readSource source) old = (.ok raw, new)) :
    new = old ∧ (readSource source).Quiet station e raw := by
  have halways : (readSource source).Always
      (fun op => ∃ r, station.reply old op = (r, old) ∧ station.reply e op = (r, e))
      (fun _ _ => True) fun _ => True := by
    apply readSource_always
    · exact ⟨old.read source, rfl, congrArg (·, e) hread⟩
    · refine ⟨evaluate source (old.read source), hj source old, ?_⟩
      rw [← hread]
      exact hj source e
  obtain ⟨r, hr, hquiet⟩ := halways.run.quiet
  have heq := hends.symm.trans hr
  cases heq
  exact ⟨rfl, hquiet⟩

theorem compileTree_quiet {raw : Json} {compiled : Compiled}
    (hends : ends station (compileTree source raw) old = (.ok compiled, new)) :
    new = old ∧ (compileTree source raw).Quiet station e compiled := by
  have halways : (compileTree source raw).Always
      (fun op => ∃ r, station.reply old op = (r, old) ∧ station.reply e op = (r, e))
      (fun _ _ => True) fun compiled => compiled.files.map (·.path) = targetPaths source :=
    compileTree_always (fun _ => ⟨(), rfl, rfl⟩) (fun _ _ => ⟨_, rfl, rfl⟩) raw
  obtain ⟨r, hr, hquiet⟩ := halways.run.quiet
  have heq := hends.symm.trans hr
  cases heq
  exact ⟨rfl, hquiet⟩

/-- Where a source and the files that it was compiled to are read as they were left, compiling it
again changes nothing. No text waits beside it either. -/
theorem compileFile_quiet (hj : Evaluates station evaluate) (hvac : Vacant old source)
    (hends : ends station (compileFile false source) old = (.ok report, new))
    (hread : e.read source = old.read source)
    (hfiles : ∀ p ∈ targetPaths source, e.read p = new.read p) :
    (compileFile false source).Quiet station e
        ⟨source, unchanged (targetPaths source), report.templates⟩ ∧
      ∀ p ∈ targetPaths source, new.at? (old.place (temporaryPath p)) = none := by
  rw [compileFile_eq] at hends ⊢
  obtain ⟨raw, d₁, hsource, h₁⟩ := ends_bind_ok hends
  obtain ⟨compiled, d₂, htree, h₂⟩ := ends_bind_ok h₁
  obtain ⟨outcomes, d₃, hpersist, h₃⟩ := ends_bind_ok h₂
  have hpaths := (compileTree_ends station source d₁ raw).2 compiled (by rw [htree])
  obtain ⟨rfl, hquiet⟩ := readSource_quiet hj hread hsource
  obtain ⟨rfl, hquiet'⟩ := compileTree_quiet (e := e) htree
  cases h₃
  have hheld := persist_holds station hvac hpaths hpersist
  constructor
  · have hheld' : ∀ f ∈ compiled.files, f.held e = true := by
      intro f hf
      have hp : f.path ∈ targetPaths source := hpaths ▸ List.mem_map_of_mem hf
      rw [Rendered.held, hfiles f.path hp]
      exact (hheld f hf).1
    have hinstall : (persist compiled.files).Quiet station e
      (unchanged (compiled.files.map (·.path))) := persist_quiet hheld'
    rw [hpaths] at hinstall
    exact hquiet.bind (hquiet'.bind (hinstall.bind (report_quiet source compiled _)))
  · intro p hp
    rw [← hpaths] at hp
    obtain ⟨f, hf, rfl⟩ := List.mem_map.mp hp
    exact (hheld f hf).2

end Job

/-- The same of compiling a source as one of several. -/
theorem compileSource_quiet (hgraph : options.drawsGraph = false) (hj : Evaluates station evaluate)
    (hvac : Vacant old source)
    (hends : (compileSource options source).ends station old = (.compiled report, new))
    (hread : e.read source = old.read source)
    (hfiles : ∀ p ∈ targetPaths source, e.read p = new.read p) :
    (compileSource options source).Quiet station e
        (.compiled ⟨source, unchanged (targetPaths source), report.templates⟩) ∧
      ∀ p ∈ targetPaths source, new.at? (old.place (temporaryPath p)) = none := by
  rw [compileSource, hgraph, Task.ends_bind] at hends
  cases hfile : (Job.compileFile false source).run.ends station old with
  | mk result d =>
    rw [hfile] at hends
    cases result with
    | error fault => cases hends
    | ok made =>
      cases hends
      obtain ⟨hquiet, hfree⟩ := Job.compileFile_quiet hj hvac hfile hread hfiles
      rw [compileSource, hgraph]
      exact ⟨Task.Quiet.bind hquiet rfl, hfree⟩

end NavTree
