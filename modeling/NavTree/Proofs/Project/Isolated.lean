import NavTree.Proofs.Project.Local
import NavTree.Proofs.Project.Summary

/-! # Isolated compilations

Compilations are isolated when none of them looks at what another one may change. Each looks at its
own directory only, unless a symbolic link leads it out of there. All that a compilation does is then
told by what it looks at, whatever else is on the disk.
-/
namespace NavTree

open Operation

variable {station : Station} {old d e : Disk} {source p : String} {l : Location}

/-- The programs are functions of the file that they are given. The one that draws the graph may
write the image, and nothing else changes. -/
structure Deterministic (station : Station) : Prop where
  jsonnet : ∃ evaluate : String → Except FileFault ByteArray → Except StartFault ToolResult,
    ∀ path d, station.tools.start "jsonnet" [path] d = (evaluate path (d.read path), d)
  dot : ∃ (image : String → String → Except FileFault ByteArray → Option ByteArray)
    (result : String → String → Except FileFault ByteArray → Except FileFault Unit →
      Except StartFault ToolResult), ∀ input output d,
    station.tools.start "dot" ["-Tsvg", input, "-o", output] d =
      match image input output (d.read input) with
      | none => (result input output (d.read input) (.ok ()), d)
      | some content => (result input output (d.read input) (attempted d (d.write output content)).1,
        (attempted d (d.write output content)).2)

/-- The files that a compilation reads or makes. -/
def filesOf (source : String) : List String :=
  source :: imagePath source :: producedPaths source

/-- The paths that a compilation turns to. -/
def pathsOf (source : String) : List String := Path.outputDirectory source :: filesOf source

/-- The places that a compilation looks at. -/
def Region (old : Disk) (source : String) (l : Location) : Prop :=
  ∃ p ∈ pathsOf source, l ∈ old.looks p

def Disk.holdsLink (d : Disk) (l : Location) : Bool :=
  match d.at? l with
  | some (.link _) => true
  | _ => false

theorem Disk.holdsLink_eq_true : d.holdsLink l = true ↔ ∃ target, d.at? l = some (.link target) := by
  rw [holdsLink]
  split <;> simp_all

/-- The places of the files that a compilation makes. The image is drawn behind links. -/
def ownPlaces (old : Disk) (source : String) : List Location :=
  (producedPaths source).map old.place ++
    (old.looks (imagePath source)).filter fun l => !old.holdsLink l

/-- The places that a compilation may change. -/
def owned (old : Disk) (source : String) : List Location :=
  old.changeable (ownPlaces old source)

/-- A compilation changes nothing on the way to its own directory. -/
def KeepsWay (old : Disk) (source : String) : Prop :=
  ∀ l ∈ owned old source, l ∉ old.looks (Path.outputDirectory source)

/-- Sources in directories of their own, which are there, such that no compilation changes what is
on the way to its own directory or what another one looks at. -/
structure Isolated (old : Disk) (sources : List String) : Prop where
  named : ∀ s ∈ sources, ∃ n, Path.fileName? s = some n
  homes : (sources.map (sourceHome old)).Nodup
  prepared : ∀ s ∈ sources, Prepared old s
  way : ∀ s ∈ sources, KeepsWay old s
  apart : ∀ s ∈ sources, ∀ t ∈ sources, s ≠ t → ∀ l ∈ owned old s, ¬ Region old t l

theorem produced_mem_pathsOf (h : p ∈ producedPaths source) : p ∈ pathsOf source :=
  List.mem_cons_of_mem _ (List.mem_cons_of_mem _ (List.mem_cons_of_mem _ h))

theorem place_mem_ownPlaces (h : p ∈ producedPaths source) : old.place p ∈ ownPlaces old source :=
  List.mem_append_left _ (List.mem_map_of_mem h)

/-- A compilation looks at all that it may change. -/
theorem Prepared.region (hprep : Prepared old source) (h : l ∈ owned old source) :
    Region old source l := by
  rcases List.mem_append.mp (Disk.mem_changeable.mp h).1 with hm | hm
  · obtain ⟨p, hp, rfl⟩ := List.mem_map.mp hm
    refine ⟨p, produced_mem_pathsOf hp, ?_⟩
    obtain ⟨n, hn, rfl⟩ := exists_of_mem_producedPaths hp
    rw [old.place_join _ hn]
    exact Disk.mem_looks_join hprep.directory hn
  · exact ⟨imagePath source, by simp [pathsOf, filesOf], (List.mem_filter.mp hm).1⟩

/-- The directory of a source is there, and none of the files that belong to it is a link. -/
structure Unlinked (old : Disk) (source : String) : Prop where
  named : ∃ n, Path.fileName? source = some n
  directory : old.isDirectory (Path.outputDirectory source) = true
  unlinked : ∀ p ∈ filesOf source, ∀ target, old.at? (old.place p) ≠ some (.link target)

namespace Unlinked

variable (h : Unlinked old source)
include h

theorem prepared : Prepared old source := ⟨h.directory, fun _ hp =>
  h.unlinked _ (List.mem_cons_of_mem _ (List.mem_cons_of_mem _ (temporary_mem_produced hp)))⟩

/-- The files of a source are looked up like names in its directory. -/
theorem exists_name (hp : p ∈ filesOf source) : ∃ n, Path.IsName n ∧
    old.looks p = old.looks (Path.join (Path.outputDirectory source) n) ∧
    old.place p = n :: sourceHome old source := by
  rcases List.mem_cons.mp hp with rfl | hp
  · obtain ⟨n, hn⟩ := h.named
    have hname := Path.isName_of_fileName? hn
    have hsteps := Path.steps_outputDirectory hn
    refine ⟨n, hname, ?_, ?_⟩
    · rw [Disk.looks_eq_steps, Disk.looks_eq_steps, hsteps, Path.steps_join _ hname]
    · rw [Disk.place, Disk.approach, Path.around, hn, hsteps, List.dropLast_concat]
      rfl
  · obtain ⟨n, hn, rfl⟩ : ∃ n, Path.IsName n ∧ p = Path.join (Path.outputDirectory source) n := by
      rcases List.mem_cons.mp hp with rfl | hp
      · exact ⟨imageName, ⟨by decide, by decide, by decide, by decide⟩, rfl⟩
      · exact exists_of_mem_producedPaths hp
    exact ⟨n, hn, rfl, old.place_join _ hn⟩

/-- One looks up files of the source at their places, behind directories and links. -/
theorem looks_cases (hp : p ∈ pathsOf source) (hl : l ∈ old.looks p) :
    (∃ n, l = n :: sourceHome old source) ∨ old.at? l = some .directory ∨
      ∃ target, old.at? l = some (.link target) := by
  rcases List.mem_cons.mp hp with rfl | hp
  · exact .inr ((Disk.at?_of_looks_directory h.directory hl).imp_right (·.2))
  · obtain ⟨n, hn, hlooks, hplace⟩ := h.exists_name hp
    have hlink := h.unlinked p hp
    rw [hplace] at hlink
    rw [hlooks] at hl
    exact (Disk.at?_of_looks_join h.directory hn hlink hl).imp (fun he => ⟨n, he⟩)
      (.imp_right (·.2))

/-- What a compilation may change is in the directory of its source, and no link. -/
theorem of_mem_owned (hl : l ∈ owned old source) : (∃ n, l = n :: sourceHome old source) ∧
    old.at? l ≠ some .directory ∧ ∀ target, old.at? l ≠ some (.link target) := by
  obtain ⟨hm, hd⟩ := Disk.mem_changeable.mp hl
  have hlink : ∀ target, old.at? l ≠ some (.link target) := by
    rcases List.mem_append.mp hm with hm | hm
    · obtain ⟨p, hp, rfl⟩ := List.mem_map.mp hm
      exact h.unlinked p (List.mem_cons_of_mem _ (List.mem_cons_of_mem _ hp))
    · have hn := (List.mem_filter.mp hm).2
      rw [Bool.not_eq_true', ← Bool.not_eq_true, Disk.holdsLink_eq_true] at hn
      exact fun target he => hn ⟨target, he⟩
  obtain ⟨p, hp, hl⟩ := h.prepared.region hl
  refine ⟨(h.looks_cases hp hl).resolve_right ?_, hd, hlink⟩
  rintro (he | ⟨target, he⟩)
  · exact hd he
  · exact hlink target he

end Unlinked

/-- Sources in directories of their own are isolated if none of their files is a link. -/
theorem isolated_of_unlinked {sources : List String} (h : ∀ s ∈ sources, Unlinked old s)
    (homes : (sources.map (sourceHome old)).Nodup) : Isolated old sources where
  named s hs := (h s hs).named
  homes := homes
  prepared s hs := (h s hs).prepared
  way s hs l hl hway := by
    obtain ⟨-, hd, hlink⟩ := (h s hs).of_mem_owned hl
    rcases Disk.at?_of_looks_directory (h s hs).directory hway with he | ⟨-, target, he⟩
    · exact hd he
    · exact hlink target he
  apart s hs t ht hne l hl := by
    rintro ⟨p, hp, hlooks⟩
    obtain ⟨⟨n, rfl⟩, hd, hlink⟩ := (h s hs).of_mem_owned hl
    rcases (h t ht).looks_cases hp hlooks with ⟨m, he⟩ | he | ⟨target, he⟩
    · exact hne (List.inj_on_of_nodup_map homes hs ht (List.cons.inj he).2)
    · exact hd he
    · exact hlink target he

theorem Disk.Stays.alike (h : Disk.Stays old (ownPlaces old source) e) (hp : p ∈ pathsOf source)
    (ha : Agree (Region old source) d e) : Disk.Alike e d p :=
  Disk.alike_of_looks fun l hl => ha l ⟨p, hp, h.fades.looks_subset p hl⟩

/-- The image is drawn at a place that the compilation owns, or it cannot be written. -/
theorem Disk.Stays.write_image (h : Disk.Stays old (ownPlaces old source) e) (content : ByteArray) :
    (∃ fault, ∀ d, Disk.Alike e d (imagePath source) →
      d.write (imagePath source) content = .error fault) ∨
    ∃ l ∈ owned old source, ∀ d, Disk.Alike e d (imagePath source) →
      d.write (imagePath source) content = .ok (d.edit (l, some content)) := by
  refine (Disk.write_eq e (imagePath source) content).imp_right ?_
  rintro ⟨spot, hf, hentry, hw⟩
  refine ⟨spot.location, ?_, hw⟩
  have hd : spot.entry ≠ some .directory := by rcases hentry with he | ⟨c, he⟩ <;> simp [he]
  obtain ⟨hm, hat⟩ := Disk.find_looks hf hd
  -- where nothing may change, what is found was there before, and it is no link
  by_contra hl
  have hold : old.at? spot.location = spot.entry := (h.elsewhere hl).symm.trans hat
  refine hl (Disk.mem_changeable.mpr ⟨List.mem_append_right _ (List.mem_filter.mpr
    ⟨h.fades.looks_subset _ hm, ?_⟩), hold ▸ hd⟩)
  rw [Bool.not_eq_true', ← Bool.not_eq_true, Disk.holdsLink_eq_true, hold]
  rcases hentry with he | ⟨c, he⟩ <;> simp [he]

/-- On all disks that look the same to a compilation, an operation is replied to in the same way and
makes the same edits, to places that the compilation owns. -/
def ActsAlike (station : Station) (old : Disk) (source : String) (e : Disk) (op : Operation) :
    Prop :=
  ∃ r xs, Tells (Replaceable old) op r ∧ (∀ x ∈ xs, x.1 ∈ owned old source) ∧
    ∀ d, Agree (Region old source) d e → station.reply d op = (r, d.edits xs)

theorem actsAlike_draw (htools : Deterministic station)
    (h : Disk.Stays old (ownPlaces old source) e) : ActsAlike station old source e
      (.start "dot" ["-Tsvg", graphPath source, "-o", imagePath source]) := by
  obtain ⟨image, told, hstart⟩ : ∃ (image : Option ByteArray)
      (told : Except FileFault Unit → Except StartFault ToolResult),
      ∀ d, Agree (Region old source) d e → station.reply d
        (.start "dot" ["-Tsvg", graphPath source, "-o", imagePath source]) = match image with
          | none => (told (.ok ()), d)
          | some content => (told (attempted d (d.write (imagePath source) content)).1,
            (attempted d (d.write (imagePath source) content)).2) := by
    obtain ⟨image, result, hdot⟩ := htools.dot
    have hgraph : graphPath source ∈ producedPaths source :=
      target_mem_produced (List.mem_map_of_mem (by decide))
    refine ⟨image (graphPath source) (imagePath source) (e.read (graphPath source)),
      result (graphPath source) (imagePath source) (e.read (graphPath source)),
      fun d ha => (hdot (graphPath source) (imagePath source) d).trans ?_⟩
    rw [(h.alike (produced_mem_pathsOf hgraph) ha).read]
  cases image with
  | none => exact ⟨told (.ok ()), [], trivial, nofun, hstart⟩
  | some content =>
    have himage : ∀ {d}, Agree (Region old source) d e → Disk.Alike e d (imagePath source) :=
      fun ha => h.alike (by simp [pathsOf, filesOf]) ha
    rcases h.write_image content with ⟨fault, hw⟩ | ⟨l, hl, hw⟩
    · refine ⟨told (.error fault), [], trivial, nofun, fun d ha => (hstart d ha).trans ?_⟩
      simp only [attempted_error (hw d (himage ha))]
      rfl
    · refine ⟨told (.ok ()), [(l, some content)], trivial, List.forall_mem_singleton.mpr hl,
        fun d ha => (hstart d ha).trans ?_⟩
      simp only [attempted_ok (hw d (himage ha))]
      rfl

theorem Prepared.isLocal (hprep : Prepared old source) (hway : KeepsWay old source) :
    Local old source (Region old source) (ownPlaces old source) := by
  refine ⟨hprep, fun p hp => place_mem_ownPlaces hp, fun p hp l hl => ⟨p, ?_, hl⟩, hway⟩
  simp only [List.mem_cons] at hp
  rcases hp with rfl | rfl | hp
  · simp [pathsOf]
  · simp [pathsOf, filesOf]
  · exact produced_mem_pathsOf hp

/-- All operations of a compilation act alike. -/
theorem Prepared.allows (hprep : Prepared old source) (hway : KeepsWay old source)
    (htools : Deterministic station) (drawsGraph : Bool) :
    Allows source (Replaceable old) drawsGraph fun op =>
      ∀ e, Disk.Stays old (ownPlaces old source) e → ActsAlike station old source e op := by
  obtain ⟨evaluate, hj⟩ := htools.jsonnet
  have hplain := (hprep.isLocal hway).allows hj
  exact { hplain with draw := fun _ e h => actsAlike_draw htools h }

namespace Isolated

variable {sources : List String} {options : Options} (hiso : Isolated old sources)
include hiso

theorem independent (htools : Deterministic station) : Independent station (compileSource options)
    (Region old) (fun s l => l ∈ owned old s) sources old where
  nodup := .of_map _ hiso.homes
  confined s hs := confined_of_actsIn
    (compileSource_allowed ((hiso.prepared s hs).allows (hiso.way s hs) htools options.drawsGraph))
    (.refl old _)
  owns s hs _ := (hiso.prepared s hs).region
  apart := hiso.apart

/-- Sources that the order of paths does not tell apart are in one directory, so they are the same. -/
theorem eq_of_parts {s t : String} (hs : s ∈ sources) (ht : t ∈ sources)
    (h : Path.parts s = Path.parts t) : s = t := by
  obtain ⟨n, hn⟩ := hiso.named s hs
  have hm : Path.fileName? t = some n := by rw [← hn, Path.fileName?, Path.fileName?, h]
  have hsteps : Path.steps s = Path.steps t := by
    rw [Path.steps_eq_filter s, Path.steps_eq_filter t, h]
  rw [Path.steps_outputDirectory hn, Path.steps_outputDirectory hm, List.append_left_inj] at hsteps
  have hhome : sourceHome old s = sourceHome old t := by
    rw [sourceHome, sourceHome, Disk.home, Disk.home, Disk.course, Disk.course, hsteps]
  exact List.inj_on_of_nodup_map hiso.homes hs ht hhome

end Isolated

end NavTree
