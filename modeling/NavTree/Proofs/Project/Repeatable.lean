import NavTree.Proofs.Files.Walk
import NavTree.Proofs.Project.Conclusion
import NavTree.Proofs.Project.Held

/-! # Repeatable runs

A run can be repeated when no file that it makes is where it looks for a source or for another file.
Where nothing that belongs to its sources is a link, this is so.
-/
namespace NavTree

variable {old : Disk} {options : Options} {s t p q : String} {l : Location}

/-- The sources are in directories of their own, nothing stands where their files are staged, and
what is made beside them is not where one looks for a source, for another file that is made, or for
what is behind a link with the name of a source. -/
structure Repeatable (old : Disk) (options : Options) : Prop where
  tidy : old.Tidy
  names : ∀ n ∈ options.names, n ∉ artifactNames
  directory : ∀ s ∈ foundSources old options, old.isDirectory (Path.outputDirectory s) = true
  homes : ((foundSources old options).map (sourceHome old)).Nodup
  free : ∀ s ∈ foundSources old options, ∀ p ∈ targetPaths s,
    old.at? (old.place (temporaryPath p)) = none
  sources : ∀ s ∈ foundSources old options, ∀ p ∈ producedPaths s,
    ∀ t ∈ foundSources old options, old.place p ∉ old.looks t
  files : ∀ s ∈ foundSources old options, ∀ p ∈ producedPaths s,
    ∀ t ∈ foundSources old options, ∀ q ∈ targetPaths t, q ≠ p → old.place p ∉ old.looks q
  links : ∀ s ∈ foundSources old options, ∀ p ∈ targetPaths s, ∀ n ∈ options.names,
    ∀ loc target, old.at? (n :: loc) = some (.link target) →
      old.place p ∉ old.sights (linkBudget + 1) loc [.name n]

/-- The places that a compilation without a graph looks at. -/
def Sees (old : Disk) (s : String) (l : Location) : Prop :=
  ∃ p ∈ Path.outputDirectory s :: s :: producedPaths s, l ∈ old.looks p

/-- The places of all that a run makes. -/
def allPlaces (old : Disk) (options : Options) : List Location :=
  (foundSources old options).flatMap (madePlaces old)

theorem exists_made (h : l ∈ old.changeable (allPlaces old options)) :
    ∃ s ∈ foundSources old options, ∃ p ∈ producedPaths s, old.place p = l := by
  obtain ⟨s, hs, hm⟩ := List.mem_flatMap.mp (Disk.mem_changeable.mp h).1
  obtain ⟨p, hp, he⟩ := List.mem_map.mp hm
  exact ⟨s, hs, p, hp, he⟩

/-- What is made has a name. -/
theorem exists_name_of_produced (old : Disk) (hp : p ∈ producedPaths s) :
    ∃ n, Path.IsName n ∧ old.place p = n :: sourceHome old s := by
  obtain ⟨n, hn, rfl⟩ := exists_of_mem_producedPaths hp
  exact ⟨n, hn, old.place_join _ hn⟩

theorem produced_names (hp : p ∈ producedPaths s) : ∃ m ∈ artifactNames, ∃ n,
    (n = m ∨ n = m ++ ".tmp") ∧ Path.IsName n ∧ p = Path.join (Path.outputDirectory s) n := by
  rcases List.mem_append.mp hp with hp | hp
  · obtain ⟨m, hm, hname, -, he, -⟩ := target_names hp
    exact ⟨m, hm, m, .inl rfl, hname, he⟩
  · obtain ⟨q, hq, rfl⟩ := List.mem_map.mp hp
    obtain ⟨m, hm, -, hname, -, he⟩ := target_names hq
    exact ⟨m, hm, _, .inr rfl, hname, he⟩

namespace Repeatable

variable (hrep : Repeatable old options)
include hrep

theorem vacant (hs : s ∈ foundSources old options) : Vacant old s :=
  ⟨hrep.directory s hs, hrep.free s hs, fun p hp q hq => hrep.files s hs p hp s hs q hq⟩

/-- What is made beside one source is not made beside another one. -/
theorem place_ne (hs : s ∈ foundSources old options) (ht : t ∈ foundSources old options)
    (hne : s ≠ t) (hp : p ∈ producedPaths s) (hq : q ∈ producedPaths t) :
    old.place p ≠ old.place q := by
  obtain ⟨n, -, hn⟩ := exists_name_of_produced old hp
  obtain ⟨m, -, hm⟩ := exists_name_of_produced old hq
  rw [hn, hm]
  intro he
  exact hne (List.inj_on_of_nodup_map hrep.homes hs ht (List.cons.inj he).2)

/-- Nothing that is made is on the way to the directory of a source. -/
theorem way (hs : s ∈ foundSources old options) (hp : p ∈ producedPaths s)
    (ht : t ∈ foundSources old options) :
    old.place p ∉ old.looks (Path.outputDirectory t) := by
  by_cases hst : s = t
  · subst hst
    exact (hrep.vacant hs).way hp
  · have hgraph : graphPath t ∈ targetPaths t := List.mem_map_of_mem (by decide)
    have hne : graphPath t ≠ p := by
      rintro rfl
      exact hrep.place_ne hs ht hst hp (target_mem_produced hgraph) rfl
    intro hl
    obtain ⟨n, -, hn, -, he, -⟩ := target_names hgraph
    apply hrep.files s hs p hp t ht _ hgraph hne
    rw [he]
    exact old.looks_join _ hn hl

/-- One does not look for a temporary where something is made beside another source. -/
theorem temporary_unseen (hs : s ∈ foundSources old options) (hp : p ∈ producedPaths s)
    (ht : t ∈ foundSources old options) (hne : s ≠ t) (hq : q ∈ targetPaths t)
    (hd : old.at? (old.place p) ≠ some .directory) :
    old.place p ∉ old.looks (temporaryPath q) := by
  obtain ⟨n, -, -, hn, -, he⟩ := target_names hq
  have hfree := hrep.free t ht q hq
  rw [he, old.place_join _ hn] at hfree
  intro hl
  rw [he] at hl
  rcases Disk.at?_of_looks_join (hrep.directory t ht) hn (by simp [hfree]) hl with hl | hl | ⟨hl, -⟩
  · refine hrep.place_ne hs ht hne hp (temporary_mem_produced hq) ?_
    rw [hl, he, old.place_join _ hn]
  · exact hd hl
  · exact hrep.way hs hp ht (Disk.links_course_subset (hrep.directory t ht) hl)

/-- No compilation sees what another one makes. -/
theorem apart (hs : s ∈ foundSources old options) (ht : t ∈ foundSources old options) (hne : s ≠ t)
    (hl : l ∈ old.changeable (madePlaces old s)) : ¬ Sees old t l := by
  obtain ⟨hm, hd⟩ := Disk.mem_changeable.mp hl
  obtain ⟨p, hp, rfl⟩ := List.mem_map.mp hm
  rintro ⟨q, hq, hlooks⟩
  simp only [List.mem_cons] at hq
  rcases hq with rfl | rfl | hq
  · exact hrep.way hs hp ht hlooks
  · exact hrep.sources s hs p hp _ ht hlooks
  · rcases List.mem_append.mp hq with hq | hq
    · refine hrep.files s hs p hp t ht q hq ?_ hlooks
      rintro rfl
      exact hrep.place_ne hs ht hne hp (target_mem_produced hq) rfl
    · obtain ⟨m, hm, rfl⟩ := List.mem_map.mp hq
      have hunseen := hrep.temporary_unseen hs hp ht hne hm hd
      exact hunseen hlooks

/-- A compilation sees the places of all that it makes. -/
theorem sees_made (hs : s ∈ foundSources old options) (hp : p ∈ producedPaths s) :
    Sees old s (old.place p) := by
  refine ⟨p, by simp [hp], ?_⟩
  obtain ⟨n, hn, rfl⟩ := exists_of_mem_producedPaths hp
  rw [old.place_join _ hn]
  exact Disk.mem_looks_join (hrep.directory s hs) hn

/-- Compilations are local to what they see. -/
theorem isLocal (hs : s ∈ foundSources old options) :
    Local old s (Sees old s) (madePlaces old s) := by
  refine ⟨(hrep.vacant hs).prepared, fun p hp => List.mem_map_of_mem hp,
    fun p hp l hl => ⟨p, hp, hl⟩, fun l hl => ?_⟩
  obtain ⟨p, hp, rfl⟩ := List.mem_map.mp (Disk.mem_changeable.mp hl).1
  exact hrep.way hs hp hs

/-- They are local to all that is made as well. -/
theorem isLocal_all (hs : s ∈ foundSources old options) :
    Local old s (fun _ => True) (allPlaces old options) := by
  refine ⟨(hrep.vacant hs).prepared, fun p hp => ?_, fun _ _ _ _ => trivial, fun l hl => ?_⟩
  · exact List.mem_flatMap.mpr ⟨s, hs, List.mem_map_of_mem hp⟩
  · obtain ⟨t, ht, p, hp, rfl⟩ := exists_made hl
    exact hrep.way ht hp hs

end Repeatable

/-- Nothing that belongs to the sources is a link, and no generated file is a directory. -/
structure Ordinary (old : Disk) (options : Options) : Prop where
  named : ∀ s ∈ foundSources old options, ∃ n ∈ options.names, Path.fileName? s = some n
  plain : ∀ s ∈ foundSources old options, ∀ p ∈ producedPaths s,
    old.at? (old.place p) ≠ some .directory ∧ ∀ target, old.at? (old.place p) ≠ some (.link target)
  unlinked : ∀ n ∈ options.names, ∀ loc target, old.at? (n :: loc) ≠ some (.link target)

namespace Ordinary

variable (hord : Ordinary old options)
include hord

/-- Looking up a name beside a source that is no link, one comes upon nothing else that is made. -/
theorem eq_of_looks {n base : String} (hdir : old.isDirectory base = true) (hn : Path.IsName n)
    (hlink : ∀ target, old.at? (n :: old.home base) ≠ some (.link target))
    (hs : s ∈ foundSources old options) (hp : p ∈ producedPaths s)
    (hl : old.place p ∈ old.looks (Path.join base n)) : old.place p = n :: old.home base := by
  obtain ⟨hd, hnl⟩ := hord.plain s hs p hp
  rcases Disk.at?_of_looks_join hdir hn hlink hl with he | he | ⟨-, target, he⟩
  · exact he
  · exact absurd he hd
  · exact absurd he (hnl target)

/-- So nothing that is made is in the way of a second run. -/
theorem repeatable (htidy : old.Tidy)
    (hnames : ∀ n ∈ options.names, ∀ m ∈ artifactNames, n ≠ m ∧ n ≠ m ++ ".tmp")
    (hdir : ∀ s ∈ foundSources old options, old.isDirectory (Path.outputDirectory s) = true)
    (homes : ((foundSources old options).map (sourceHome old)).Nodup)
    (free : ∀ s ∈ foundSources old options, ∀ p ∈ targetPaths s,
      old.at? (old.place (temporaryPath p)) = none) : Repeatable old options where
  tidy := htidy
  names n hn hm := (hnames n hn n hm).1 rfl
  directory := hdir
  homes := homes
  free := free
  sources s hs p hp t ht hl := by
    obtain ⟨n, hn, hname⟩ := hord.named t ht
    have hisName := Path.isName_of_fileName? hname
    rw [Disk.looks_eq_steps, Path.steps_outputDirectory hname, ← Path.steps_join _ hisName,
      ← Disk.looks_eq_steps] at hl
    have he := hord.eq_of_looks (hdir t ht) hisName (hord.unlinked n hn _) hs hp hl
    obtain ⟨m, hm, k, hk, hkname, rfl⟩ := produced_names hp
    rw [old.place_join _ hkname, List.cons.injEq] at he
    obtain ⟨hne, hne'⟩ := hnames n hn m hm
    rcases hk with rfl | rfl
    · exact hne he.1.symm
    · exact hne' he.1.symm
  files s hs p hp t ht q hq hne hl := by
    obtain ⟨n, -, hn, -, rfl, -⟩ := target_names hq
    have hlink := (hord.plain t ht _ (target_mem_produced hq)).2
    rw [old.place_join _ hn] at hlink
    have he := hord.eq_of_looks (hdir t ht) hn hlink hs hp hl
    obtain ⟨m, hm, rfl⟩ := exists_of_mem_producedPaths hp
    rw [old.place_join _ hm, List.cons.injEq] at he
    obtain rfl := List.inj_on_of_nodup_map homes hs ht he.2
    exact hne (by rw [he.1])
  links s hs p hp n hn loc target he := absurd he (hord.unlinked n hn loc target)

end Ordinary

end NavTree
