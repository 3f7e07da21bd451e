import NavTree.Proofs.Files.Grown
import NavTree.Proofs.Project.Failed
import NavTree.Proofs.Project.Local

/-! # Texts that are held

An installation that succeeds beside a source puts a text at the place of every file that did not
hold it, and nothing else is left of it. So every file holds its text then, as far as digests tell.
-/
namespace NavTree

variable {old d new : Disk} {source p : String} {files : List Rendered}

/-- The directory of a source is there, nothing stands where its files are staged, and none of them
is where one looks for another one. -/
structure Vacant (old : Disk) (source : String) : Prop where
  directory : old.isDirectory (Path.outputDirectory source) = true
  free : ∀ p ∈ targetPaths source, old.at? (old.place (temporaryPath p)) = none
  apart : ∀ p ∈ producedPaths source, ∀ q ∈ targetPaths source, q ≠ p → old.place p ∉ old.looks q

/-- Whether a file holds its text, as far as digests tell. -/
def Rendered.held (d : Disk) (f : Rendered) : Bool := holds (d.read f.path) f.content.toUTF8

namespace Vacant

variable (hvac : Vacant old source)
include hvac

theorem prepared : Prepared old source :=
  ⟨hvac.directory, fun p hp target he => by simp [hvac.free p hp] at he⟩

/-- No file is where one looks for the directory. -/
theorem way (hp : p ∈ producedPaths source) :
    old.place p ∉ old.looks (Path.outputDirectory source) := by
  obtain ⟨q, hq, hne⟩ : ∃ q ∈ targetPaths source, q ≠ p := by
    have hnodup := targetPaths_nodup source
    by_cases hgraph : p = graphPath source
    · refine ⟨Path.join (Path.outputDirectory source) "routes.gen.ts",
        List.mem_map_of_mem (by decide), fun he => ?_⟩
      rw [hgraph] at he
      simp [targetPaths, artifactNames, he, graphPath, graphName] at hnodup
    · exact ⟨graphPath source, List.mem_map_of_mem (by decide), fun he => hgraph he.symm⟩
  intro hl
  obtain ⟨n, -, hn, -, rfl, -⟩ := target_names hq
  exact hvac.apart p hp _ hq hne (old.looks_join _ hn hl)

/-- No link on the way to a file is changed. -/
theorem approach_unchanged (hp : p ∈ targetPaths source) {l : Location}
    (hl : l ∈ (old.approach p).links) : l ∉ old.changeable (madePlaces old source) := by
  obtain ⟨n, -, hn, -, rfl, -⟩ := target_names hp
  rw [old.approach_join _ hn] at hl
  intro hm
  obtain ⟨q, hq, rfl⟩ := List.mem_map.mp (Disk.mem_changeable.mp hm).1
  exact hvac.way hq (Disk.links_course_subset hvac.directory hl)

/-- No temporary is where one looks for a file. -/
theorem temporary_apart (hp : p ∈ targetPaths source) {q : String} (hq : q ∈ targetPaths source) :
    old.place (temporaryPath q) ∉ old.looks p := by
  apply hvac.apart _ (temporary_mem_produced hq) p hp
  intro he
  exact place_ne_temporary old hp hq (congrArg old.place he)

theorem read_staged (h : Disk.Stays old (temporaryPlaces old source) d)
    (hp : p ∈ targetPaths source) : d.read p = old.read p := by
  have halike : Disk.Alike old d p := by
    refine Disk.alike_of_looks fun l hl => h.elsewhere fun hm => ?_
    obtain ⟨q, hq, rfl⟩ := List.mem_map.mp (Disk.mem_changeable.mp hm).1
    exact hvac.temporary_apart hp hq hl
  exact halike.read

end Vacant

namespace Job

/-- After an installation that succeeds every file holds its text, and no text waits. -/
theorem persist_holds (station : Station) (hvac : Vacant old source)
    {outcomes : List (String × WriteOutcome)} (hfiles : files.map (·.path) = targetPaths source)
    (hends : ends station (persist files) old = (.ok outcomes, new)) :
    ∀ f ∈ files, f.held new = true ∧ new.at? (f.waitingPlace old) = none := by
  have hof := ofSource_of_paths hfiles
  obtain ⟨s, -, hdone, hnew⟩ :=
    ((beside_stagewise hvac.prepared hof).persist (.start old source files)).ok hends
  intro f hf
  have hp := hof.mem f hf
  have hshows := hnew.shows f hf
  rcases hdone f hf with hs | hs
  · rw [hs] at hshows
    obtain ⟨-, hwait, d, hd, hheld⟩ := hshows
    refine ⟨?_, hwait.trans (hvac.free f.path hp)⟩
    have halike : Disk.Alike old new f.path := by
      refine Disk.alike_of_looks fun l hl => hnew.stays.elsewhere fun hm => ?_
      rcases List.mem_append.mp (Disk.mem_changeable.mp hm).1 with hm | hm
      · obtain ⟨q, hq, rfl⟩ := List.mem_map.mp hm
        exact hvac.temporary_apart hp hq hl
      · obtain ⟨g, hg, rfl⟩ := List.mem_map.mp hm
        obtain ⟨hg, hgs⟩ := List.mem_filter.mp hg
        refine hvac.apart g.path (target_mem_produced (hof.mem g hg)) f.path hp (fun he => ?_) hl
        obtain rfl := List.inj_on_of_nodup_map hof.nodup hf hg he
        simp [hs] at hgs
    rw [Rendered.held, halike.read, ← hvac.read_staged hd hp]
    exact hheld
  · rw [hs] at hshows
    obtain ⟨hat, hwait, d, spot, hd, hfind⟩ := hshows
    obtain ⟨front, n, hr⟩ := route_target hp
    have hhas := Disk.find_name_keep hr hd.toOver hfind
      (hd.keeps (hnew.madePlaces hof) fun l hl => hvac.approach_unchanged hp hl)
    rw [show new.at? (old.place f.path) = _ from hat] at hhas
    refine ⟨?_, hwait⟩
    rw [Rendered.held, Disk.Has.read hhas]
    exact beq_self_eq_true _

end Job

end NavTree
