import NavTree.Proofs.Project.Persist
import NavTree.Proofs.Project.Staged

/-! # Failed compilations

A compilation that fails before its first file is installed leaves the disk as it was, but for the
temporaries. Once it installs files, only a file that cannot be moved makes it fail, and the files
before that one stay installed.
-/
namespace NavTree

variable {old d new : Disk} {source : String} {files : List Rendered} {s : Rendered → Status}
  {k : Nat} (station : Station)

/-- The file stands at its place with its text, or it is left as it was, for it was found to hold the
text already. -/
def Rendered.InPlace (old new : Disk) (source : String) (f : Rendered) : Prop :=
  new.at? (f.place old) = some (.file f.content.toUTF8) ∨
    new.at? (f.place old) = old.at? (f.place old) ∧ f.Found old source

/-- The first generated files are installed, and nothing else has changed, apart from temporaries. -/
structure InstalledPrefix (old new : Disk) (source : String) (files : List Rendered) (k : Nat) :
    Prop where
  installed : ∀ f ∈ files.take k, f.InPlace old new source
  kept : ∀ p ∈ (targetPaths source).drop k, new.at? (old.place p) = old.at? (old.place p)
  elsewhere : ∀ l, (∀ p ∈ (targetPaths source).take k, l ≠ old.place p) →
    (∀ p ∈ targetPaths source, l ≠ old.place (temporaryPath p)) → new.at? l = old.at? l

theorem installedPrefix_zero (old : Disk) (source : String) (files : List Rendered) :
    InstalledPrefix old old source files 0 :=
  ⟨by simp, fun _ _ => rfl, fun _ _ _ => rfl⟩

/-- When just the first files are done, and the others are not installed, a prefix is installed. -/
theorem Beside.installedPrefix (h : Beside old source files s d)
    (hfiles : files.map (·.path) = targetPaths source)
    (htake : ∀ f ∈ files.take k, (s f).IsDone) (hdrop : ∀ f ∈ files.drop k, s f ≠ .installed) :
    InstalledPrefix old d source files k := by
  refine ⟨fun f hf => ?_, fun p hp => ?_, fun l hl ht => h.stays.elsewhere fun hm => ?_⟩
  · have hshows := h.shows f (List.mem_of_mem_take hf)
    rcases htake f hf with hs | hs
    · rw [hs] at hshows
      exact .inr ⟨hshows.1, hshows.2.2⟩
    · rw [hs] at hshows
      exact .inl hshows.1
  · rw [← hfiles, ← List.map_drop] at hp
    obtain ⟨f, hf, rfl⟩ := List.mem_map.mp hp
    have hs := hdrop f hf
    have hshows := h.shows f (List.mem_of_mem_drop hf)
    revert hs hshows
    cases s f <;> simp +contextual [Status.Shows, Rendered.place]
  · rcases List.mem_append.mp (Disk.mem_changeable.mp hm).1 with hm | hm
    · obtain ⟨p, hp, rfl⟩ := List.mem_map.mp hm
      exact ht p hp rfl
    · obtain ⟨f, hf, rfl⟩ := List.mem_map.mp hm
      obtain ⟨hf, hs⟩ := List.mem_filter.mp hf
      rw [decide_eq_true_eq] at hs
      rw [← List.take_append_drop k files, List.mem_append] at hf
      have hf := hf.resolve_right fun hf => hdrop f hf hs
      refine hl f.path ?_ rfl
      rw [← hfiles, ← List.map_take]
      exact List.mem_map_of_mem hf

namespace Job

/-- What a source is read and compiled to. -/
def CompilesTo (station : Station) (d : Disk) (source : String) (files : List Rendered) : Prop :=
  ∃ raw compiled, ends station (readSource source) d = (.ok raw, d) ∧
    ends station (compileTree source raw) d = (.ok compiled, d) ∧ compiled.files = files

/-- A source compiles to its generated files, and once a number of them is installed, the one behind
them cannot be moved to its place. -/
def StuckAt (station : Station) (old : Disk) (source : String) (files : List Rendered) (k : Nat)
    (fault : ProjectFault) : Prop :=
  CompilesTo station old source files ∧ files.map (·.path) = targetPaths source ∧
    ∃ f cause d, files[k]? = some f ∧ InstalledPrefix old d source files k ∧
      d.rename (temporaryPath f.path) f.path = .error cause ∧ fault = .file f.path cause

/-- When an installation fails, the files before the one that cannot be moved are installed, and
none if that is not what makes it fail. -/
theorem persist_installs_prefix (hprep : Prepared old source)
    (hcompiles : CompilesTo station old source files)
    (hfiles : files.map (·.path) = targetPaths source) {fault : ProjectFault}
    (h : ends station (persist files) old = (.error fault, new)) :
    ∃ k, (k = 0 ∨ StuckAt station old source files k fault) ∧
      InstalledPrefix old new source files k := by
  obtain ⟨k, s, hstuck, -, htake, hdrop, hnew⟩ :=
    ((beside_stagewise hprep (ofSource_of_paths hfiles)).persist (.start old source files)).failed h
  refine ⟨k, hstuck.imp_right ?_, hnew.installedPrefix hfiles htake fun f hf => (hdrop f hf).2⟩
  rintro ⟨⟨f, cause, s', d, hf, hd, htake', hdrop', hr, rfl⟩, -⟩
  exact ⟨hcompiles, hfiles, f, cause, d, hf, hd.installedPrefix hfiles htake' hdrop', hr, rfl⟩

/-- Reading a source leaves the disk alone, if evaluating it does. -/
theorem readSource_disk (hjsonnet : ∀ d, (station.tools.start "jsonnet" [source] d).2 = d) :
    (ends station (readSource source) d).2 = d := by
  have hread : (readSource source).Always (fun op => ∀ d, (station.reply d op).2 = d)
      (fun _ _ => True) fun _ => True := readSource_always (fun d => rfl) hjsonnet
  exact hread.run.ends_disk (fun _ _ => trivial) fun _ => id

/-- What a source compiles to are its generated files, and nothing happens to the disk. -/
theorem compileTree_ends (source : String) (d : Disk) (raw : Json) :
    (ends station (compileTree source raw) d).2 = d ∧
      ∀ compiled, (ends station (compileTree source raw) d).1 = .ok compiled →
        compiled.files.map (·.path) = targetPaths source := by
  have htree : (compileTree source raw).Always (fun op => ∀ d, (station.reply d op).2 = d)
      (fun _ _ => True) fun compiled => compiled.files.map (·.path) = targetPaths source :=
    compileTree_always (fun _ _ => rfl) (fun _ _ _ => rfl) raw
  exact ⟨htree.run.ends_disk (fun _ _ => trivial) fun _ => id,
    htree.run.ends fun _ _ => trivial⟩

/-- A compilation that would fail without drawing the graph changes nothing, or it is the
installation that fails. -/
theorem compileFile_error {drawsGraph : Bool} {fault : ProjectFault}
    (hjsonnet : ∀ d, (station.tools.start "jsonnet" [source] d).2 = d)
    (h : ends station (compileFile drawsGraph source) old = (.error fault, new))
    (hdraw : ∃ cause, (ends station (compileFile false source) old).1 = .error cause) :
    new = old ∨ ∃ files, CompilesTo station old source files ∧
      files.map (·.path) = targetPaths source ∧
      ends station (persist files) old = (.error fault, new) := by
  obtain ⟨cause, hdraw⟩ := hdraw
  have hread := readSource_disk (d := old) station hjsonnet
  rw [compileFile_eq] at h
  rw [compileFile_eq, ends_bind] at hdraw
  rcases ends_bind_error h with hr | ⟨raw, d₁, hr, hrest⟩
  · rw [hr] at hread
    exact .inl hread
  rw [hr] at hread hdraw
  obtain rfl : d₁ = old := hread
  simp only [ends_bind] at hdraw
  obtain ⟨htree, hfiles⟩ := compileTree_ends station source d₁ raw
  rcases ends_bind_error hrest with ht | ⟨compiled, d₂, ht, hinstall⟩
  · rw [ht] at htree
    exact .inl htree
  rw [ht] at htree hfiles hdraw
  obtain rfl : d₂ = d₁ := htree
  rcases ends_bind_error hinstall with hp | ⟨written, d₃, hp, -⟩
  · exact .inr ⟨compiled.files, ⟨raw, compiled, hr, ht, rfl⟩, hfiles compiled rfl, hp⟩
  · simp only [hp] at hdraw
    cases hdraw

/-- When a compilation fails, and not just because of drawing the graph, some of the first generated
files are installed and nothing else has changed: none of them unless the next one cannot be moved to
its place. -/
theorem failed_compileFile_keeps {drawsGraph : Bool} {fault : ProjectFault}
    (hjsonnet : ∀ d, (station.tools.start "jsonnet" [source] d).2 = d) (hprep : Prepared old source)
    (h : ends station (compileFile drawsGraph source) old = (.error fault, new))
    (hdraw : ∃ cause, (ends station (compileFile false source) old).1 = .error cause) :
    ∃ files k, (k = 0 ∨ StuckAt station old source files k fault) ∧
      InstalledPrefix old new source files k := by
  rcases compileFile_error station hjsonnet h hdraw with rfl | ⟨files, hcompiles, hfiles, hp⟩
  · exact ⟨[], 0, .inl rfl, installedPrefix_zero new source []⟩
  · exact ⟨files, persist_installs_prefix station hprep hcompiles hfiles hp⟩

def plainSource : ByteArray :=
  "\x7b\"config\":\x7b\"path\":\"src\"\x7d,\"navigators\":[]\x7d".toUTF8

/-- A directory is in the place of the second file. -/
def takenDisk : Disk :=
  ⟨[(["a"], .directory), (["navigation.json", "a"], .file plainSource),
    (["routes.gen.ts", "a"], .directory)]⟩

/-- A link to the first file is in the place of the second temporary, and a directory in that of the
third. -/
def linkedDisk : Disk :=
  ⟨[(["a"], .directory), (["navigation.json", "a"], .file plainSource),
    (["routes.gen.ts.tmp", "a"], .link "navigation.gen.tsx"),
    (["navigation.gen.dot.tmp", "a"], .directory)]⟩

def holdsFile (d : Disk) (l : Location) : Bool :=
  match d.at? l with
  | some (.file _) => true
  | _ => false

def fault? {α : Type} : Except ProjectFault α → Option ProjectFault
  | .ok _ => none
  | .error fault => some fault

theorem eq_of_fault? {α : Type} {r : Except ProjectFault α × Disk} {fault : ProjectFault}
    (h : fault? r.1 = some fault) : r = (.error fault, r.2) := by
  obtain ⟨result | result, d⟩ := r
  · rw [Option.some.inj h]
  · cases h

set_option maxRecDepth 100000 in
theorem taken_compileFile :
    fault? (ends toolless (compileFile false "a/navigation.json") takenDisk).1 =
      some (.file "a/routes.gen.ts" .isDirectory) ∧
    holdsFile (ends toolless (compileFile false "a/navigation.json") takenDisk).2
      (takenDisk.place "a/navigation.gen.tsx") = true := by
  decide +kernel

set_option maxRecDepth 100000 in
theorem linked_compileFile :
    fault? (ends toolless (compileFile false "a/navigation.json") linkedDisk).1 =
      some (.file "a/navigation.gen.dot" .isDirectory) ∧
    holdsFile (ends toolless (compileFile false "a/navigation.json") linkedDisk).2
      (linkedDisk.place "a/navigation.gen.tsx") = true := by
  decide +kernel

theorem takenDisk_prepared : Prepared takenDisk "a/navigation.json" :=
  ⟨by decide, fun _ _ => takenDisk.not_link_of_entries (by simp [takenDisk]) _⟩

/-- The first file is installed, the other two are as they were. -/
theorem taken_compileFile_keeps_rest :
    ∃ fault new, (∀ d, (toolless.tools.start "jsonnet" ["a/navigation.json"] d).2 = d) ∧
      Prepared takenDisk "a/navigation.json" ∧
      ends toolless (compileFile false "a/navigation.json") takenDisk = (.error fault, new) ∧
      ∃ files k, (k = 0 ∨ StuckAt toolless takenDisk "a/navigation.json" files k fault) ∧
        InstalledPrefix takenDisk new "a/navigation.json" files k := by
  have h := eq_of_fault? taken_compileFile.1
  have hjsonnet : ∀ d, (toolless.tools.start "jsonnet" ["a/navigation.json"] d).2 = d := by
    intro d
    rfl
  exact ⟨_, _, hjsonnet, takenDisk_prepared, h,
    failed_compileFile_keeps toolless hjsonnet takenDisk_prepared h ⟨_, congrArg Prod.fst h⟩⟩

/-- A compilation that fails because a file cannot be moved has installed the one before it, and a
link in the place of a temporary lets a text through before anything is installed. -/
theorem failed_compileFile_leaves_component : "a/navigation.gen.tsx" ∈ targetPaths "a/navigation.json" ∧
    ((∃ fault, (ends toolless (compileFile false "a/navigation.json") takenDisk).1 = .error fault) ∧
      holdsFile takenDisk (takenDisk.place "a/navigation.gen.tsx") = false ∧
      holdsFile (ends toolless (compileFile false "a/navigation.json") takenDisk).2
        (takenDisk.place "a/navigation.gen.tsx") = true) ∧
    ((∃ fault, (ends toolless (compileFile false "a/navigation.json") linkedDisk).1 = .error fault) ∧
      holdsFile linkedDisk (linkedDisk.place "a/navigation.gen.tsx") = false ∧
      holdsFile (ends toolless (compileFile false "a/navigation.json") linkedDisk).2
        (linkedDisk.place "a/navigation.gen.tsx") = true) := by
  have htaken := congrArg Prod.fst (eq_of_fault? taken_compileFile.1)
  have hlinked := congrArg Prod.fst (eq_of_fault? linked_compileFile.1)
  exact ⟨by decide, ⟨⟨_, htaken⟩, by decide, taken_compileFile.2⟩,
    ⟨_, hlinked⟩, by decide, linked_compileFile.2⟩

end Job

end NavTree
