import NavTree.Proofs.Files.Survey
import NavTree.Proofs.Project.Produced

/-! # Producers of files

Two sources that a walk finds compile to different files unless they lie in one directory, which
takes both of the default names there. The paths that a compilation writes do not depend on the
replies to it, so neither do they on the schedule of the compilations.
-/
namespace NavTree

open NavTree.Path (IsName parts)

/-- Sources of different default names in one directory. -/
def Twins (s t : String) : Prop :=
  ∃ b, ∃ n ∈ defaultNames, ∃ m ∈ defaultNames, n ≠ m ∧ s = Path.join b n ∧ t = Path.join b m

theorem isName_of_mem_defaultNames {n : String} (h : n ∈ defaultNames) : IsName n := by
  simp only [defaultNames, List.mem_cons, List.not_mem_nil, or_false] at h
  rcases h with rfl | rfl <;> exact ⟨by decide, by decide, by decide, by decide⟩

/-- Produced paths that are the same have the same directory. -/
theorem parts_outputDirectory_of_produced {s t p q : String} (hp : p ∈ producedPaths s)
    (hq : q ∈ producedPaths t) (h : parts p = parts q) :
    parts (Path.outputDirectory s) = parts (Path.outputDirectory t) := by
  obtain ⟨n, hn, rfl⟩ := exists_of_mem_producedPaths hp
  obtain ⟨m, hm, rfl⟩ := exists_of_mem_producedPaths hq
  rw [Path.parts_join _ hn, Path.parts_join _ hm] at h
  exact (List.append_inj' h rfl).1

theorem Twins.shared {s t : String} (h : Twins s t) :
    ∃ p ∈ producedPaths s, ∃ q ∈ producedPaths t, parts p = parts q := by
  obtain ⟨b, n, hn, m, hm, -, rfl, rfl⟩ := h
  have hname : graphName ∈ artifactNames := by decide
  refine ⟨_, List.mem_append_left _ (List.mem_map_of_mem hname), _,
    List.mem_append_left _ (List.mem_map_of_mem hname), ?_⟩
  rw [Path.parts_join _ (isName_of_mem_artifactNames hname),
    Path.parts_join _ (isName_of_mem_artifactNames hname),
    Path.parts_outputDirectory_join b (isName_of_mem_defaultNames hn),
    Path.parts_outputDirectory_join b (isName_of_mem_defaultNames hm)]

/-- Of sources below one root, only twins have the same directory. -/
theorem twins_of_parts_eq {root s t : String} (hroot : root ≠ "")
    (hs : Disk.IsBelow defaultNames root s) (ht : Disk.IsBelow defaultNames root t) (hne : s ≠ t)
    (h : parts (Path.outputDirectory s) = parts (Path.outputDirectory t)) : Twins s t := by
  obtain ⟨dirs, n, hdirs, hn, rfl⟩ := hs
  obtain ⟨dirs', m, hdirs', hm, rfl⟩ := ht
  have hparts : ∀ dirs : List String, (∀ k ∈ dirs, IsName k) → ∀ k ∈ defaultNames,
      parts (Path.outputDirectory (Path.join (Path.below root dirs) k)) =
        parts root ++ dirs.map .name := by
    intro dirs hdirs k hk
    have hbelow := Path.parts_below root hdirs
    rw [Path.parts_outputDirectory_join _ (isName_of_mem_defaultNames hk), if_neg, hbelow]
    intro he
    rw [he] at hbelow
    exact Path.parts_ne_nil hroot (List.append_eq_nil_iff.mp hbelow.symm).1
  rw [hparts dirs hdirs n hn, hparts dirs' hdirs' m hm, List.append_right_inj] at h
  obtain rfl : dirs = dirs' := List.map_injective_iff.mpr (fun _ _ => PathPart.name.inj) h
  exact ⟨_, n, hn, m, hm, fun he => hne (by rw [he]), rfl, rfl⟩

/-- An operation writes the paths that a source produces only, and to files that were created at
such paths. -/
structure Operation.StaysWithin (source : String) (opened : String → Location → Prop)
    (op : Operation) : Prop where
  written : ∀ p ∈ op.written, p ∈ producedPaths source
  filled : ∀ place ∈ op.filled?, ∃ p ∈ producedPaths source, opened p place

theorem Operation.Serves.staysWithin {source : String} {opened : String → Location → Prop}
    {op : Operation} (h : op.Serves source opened) : op.StaysWithin source opened := by
  have htmp : ∀ {q}, q ∈ targetPaths source → temporaryPath q ∈ producedPaths source :=
    fun hq => List.mem_append_right _ (List.mem_map_of_mem hq)
  cases h with
  | create hq => exact ⟨List.forall_mem_singleton.mpr (htmp hq), nofun⟩
  | discard hq => exact ⟨List.forall_mem_singleton.mpr (htmp hq), nofun⟩
  | install hq =>
    exact ⟨List.forall_mem_cons.mpr ⟨htmp hq,
      List.forall_mem_singleton.mpr (List.mem_append_left _ hq)⟩, nofun⟩
  | fill hq ho => exact ⟨nofun, fun _ hp => ⟨_, htmp hq, Option.some.inj hp ▸ ho⟩⟩
  | _ => exact ⟨nofun, nofun⟩

/-- Compilations only write the paths that their sources produce, whatever is replied to them, and
the sources found by a walk have none of these in common exactly if they are no twins. -/
theorem found_sources_produce_apart_iff {d : Disk} {root s t : String} (options : Options)
    (hd : d.Named) (hs : s ∈ Finding.sources (d.survey defaultNames root))
    (ht : t ∈ Finding.sources (d.survey defaultNames root)) (hne : s ≠ t) :
    (∀ source opened, (compileSource options source).Always
      (Operation.StaysWithin source opened) (Operation.Tells opened) fun _ => True) ∧
    ((∀ p ∈ producedPaths s, ∀ q ∈ producedPaths t, parts p ≠ parts q) ↔ ¬ Twins s t) := by
  refine ⟨fun source opened => ?_, fun hapart htwins => ?_, fun htwins p hp q hq he => htwins ?_⟩
  · exact (compileSource_always options source opened).mono (fun op ho => ho.staysWithin)
      (fun _ _ => id) fun _ _ => trivial
  · obtain ⟨p, hp, q, hq, he⟩ := htwins.shared
    exact hapart p hp q hq he
  · rw [mem_sources] at hs ht
    rcases Disk.isBelow_of_survey hd hs with hroot | ⟨hroot, hbs⟩
    · rw [hroot] at hs ht
      simp only [List.mem_singleton, Finding.source.injEq] at hs ht
      exact absurd (hs.trans ht.symm) hne
    · rcases Disk.isBelow_of_survey hd ht with hr | ⟨_, hbt⟩
      · rw [hr] at hs ht
        simp only [List.mem_singleton, Finding.source.injEq] at hs ht
        exact absurd (hs.trans ht.symm) hne
      · exact twins_of_parts_eq hroot hbs hbt hne (parts_outputDirectory_of_produced hp hq he)

/-- Sources of both default names beside each other, and one below them. -/
def twinDisk : Disk :=
  ⟨[(["navigation.json"], .file .empty), (["navigation.jsonnet"], .file .empty), (["a"], .directory),
    (["navigation.json", "a"], .file .empty)]⟩

theorem twinDisk_named : twinDisk.Named := by
  have hname : ∀ n ∈ ["navigation.json", "navigation.jsonnet", "a"], IsName n := by
    intro n hn
    simp only [List.mem_cons, List.not_mem_nil, or_false] at hn
    rcases hn with rfl | rfl | rfl <;> exact ⟨by decide, by decide, by decide, by decide⟩
  intro x hx n hn
  refine hname n ?_
  simp only [twinDisk, List.mem_cons, List.not_mem_nil, or_false] at hx
  rcases hx with rfl | rfl | rfl | rfl <;> cases hn <;> decide

def plainOptions : Options := ⟨".", 1, false, false, defaultNames⟩

theorem inner_source_produces_apart :
    twinDisk.Named ∧
    "./a/navigation.json" ∈ Finding.sources (twinDisk.survey defaultNames ".") ∧
    "./navigation.json" ∈ Finding.sources (twinDisk.survey defaultNames ".") ∧
    (∀ p ∈ producedPaths "./a/navigation.json", ∀ q ∈ producedPaths "./navigation.json",
      parts p ≠ parts q) ∧ ¬ Twins "./a/navigation.json" "./navigation.json" := by
  have hs : "./a/navigation.json" ∈ Finding.sources (twinDisk.survey defaultNames ".") := by
    rw [mem_sources]
    decide +kernel
  have ht : "./navigation.json" ∈ Finding.sources (twinDisk.survey defaultNames ".") := by
    rw [mem_sources]
    decide +kernel
  have hiff := (found_sources_produce_apart_iff plainOptions twinDisk_named hs ht (by decide)).2
  have hapart : ∀ p ∈ producedPaths "./a/navigation.json",
      ∀ q ∈ producedPaths "./navigation.json", parts p ≠ parts q := by decide +kernel
  exact ⟨twinDisk_named, hs, ht, hapart, hiff.mp hapart⟩

/-- The other default name beside a source makes it produce the same files. -/
theorem twin_sources_share_produced :
    twinDisk.Named ∧
    "./navigation.json" ∈ Finding.sources (twinDisk.survey defaultNames ".") ∧
    "./navigation.jsonnet" ∈ Finding.sources (twinDisk.survey defaultNames ".") ∧
    "./navigation.json" ≠ "./navigation.jsonnet" ∧
    producedPaths "./navigation.json" = producedPaths "./navigation.jsonnet" := by
  refine ⟨twinDisk_named, ?_, ?_, by decide, by decide +kernel⟩
  all_goals
    rw [mem_sources]
    decide +kernel

end NavTree
