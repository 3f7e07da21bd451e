import NavTree.Proofs.Project.Places
import NavTree.Proofs.Project.Stagewise

/-! # Installing beside a source

What the installation of the files of a source does at their places, if the directory of the source
is there and no link stands where they are staged. Each file operation edits the places of one file,
so what is known of the other ones stays known.
-/
namespace NavTree

variable {old d new : Disk} {source p : String} {files : List Rendered} {f : Rendered}
  {s : Rendered → Status} {st : Status} {places : List Location} {station : Station}

/-- Where the files of a source are staged. -/
def temporaryPlaces (old : Disk) (source : String) : List Location :=
  (targetPaths source).map fun p => old.place (temporaryPath p)

theorem mem_temporaryPlaces (h : p ∈ targetPaths source) :
    old.place (temporaryPath p) ∈ temporaryPlaces old source := List.mem_map_of_mem h

/-- The places of all that is made beside a source. -/
def madePlaces (old : Disk) (source : String) : List Location :=
  (producedPaths source).map old.place

namespace Rendered

/-- The file was found to hold its text, as far as digests tell, when nothing but temporaries had
changed. -/
def Found (old : Disk) (source : String) (f : Rendered) : Prop :=
  ∃ d, Disk.Stays old (temporaryPlaces old source) d ∧
    holds (d.read f.path) f.content.toUTF8 = true

/-- While files were made, the file was found by its name. -/
def Reached (old : Disk) (source : String) (f : Rendered) : Prop :=
  ∃ d spot, Disk.Stays old (madePlaces old source) d ∧ d.find .name f.path = .ok spot

end Rendered

/-- What a disk shows of a file, at its place and at that of its temporary. -/
def Status.Shows (old d : Disk) (source : String) (f : Rendered) : Status → Prop
  | untouched => d.at? (f.place old) = old.at? (f.place old) ∧
    d.at? (f.waitingPlace old) = old.at? (f.waitingPlace old)
  | skipped => d.at? (f.place old) = old.at? (f.place old) ∧
    d.at? (f.waitingPlace old) = old.at? (f.waitingPlace old) ∧ f.Found old source
  | waiting => d.at? (f.place old) = old.at? (f.place old) ∧
    d.at? (f.waitingPlace old) = some (.file f.content.toUTF8)
  | installed => d.at? (f.place old) = some (.file f.content.toUTF8) ∧
    d.at? (f.waitingPlace old) = none ∧ f.Reached old source
  | aborted => d.at? (f.place old) = old.at? (f.place old)

theorem Status.Shows.congr (h : st.Shows old d source f)
    (hp : new.at? (f.place old) = d.at? (f.place old))
    (hw : new.at? (f.waitingPlace old) = d.at? (f.waitingPlace old)) :
    st.Shows old new source f := by
  cases st <;> simp only [Shows, hp, hw] at h ⊢ <;> exact h

/-- The places that may have changed: those of temporaries and those of installed files. -/
def changedPlaces (old : Disk) (source : String) (files : List Rendered)
    (s : Rendered → Status) : List Location :=
  temporaryPlaces old source ++
    (files.filter fun f => s f = .installed).map (Rendered.place old)

theorem changedPlaces_of_none (h : ∀ f ∈ files, s f ≠ .installed) :
    changedPlaces old source files s = temporaryPlaces old source := by
  have hnone : (files.filter fun f => s f = .installed) = [] :=
    List.filter_eq_nil_iff.mpr fun f hf => by simp [h f hf]
  rw [changedPlaces, hnone, List.map_nil, List.append_nil]

theorem changedPlaces_subset_update (hs : s f ≠ .installed) : changedPlaces old source files s ⊆
    changedPlaces old source files (Function.update s f st) := by
  refine List.append_subset.mpr ⟨List.subset_append_left _ _, ?_⟩
  refine List.Subset.trans (List.map_subset _ fun g hg => ?_) (List.subset_append_right _ _)
  simp only [List.mem_filter, decide_eq_true_eq] at hg ⊢
  refine ⟨hg.1, ?_⟩
  have hne : g ≠ f := by
    rintro rfl
    exact hs hg.2
  rw [Function.update_of_ne hne, hg.2]

/-- The disk is the old one but for the places that may have changed, and shows what is told of each
file. -/
structure Beside (old : Disk) (source : String) (files : List Rendered) (s : Rendered → Status)
    (d : Disk) : Prop where
  stays : Disk.Stays old (changedPlaces old source files s) d
  shows : ∀ f ∈ files, (s f).Shows old d source f

/-- The files of a source, each once. -/
structure OfSource (source : String) (files : List Rendered) : Prop where
  mem : ∀ f ∈ files, f.path ∈ targetPaths source
  nodup : (files.map (·.path)).Nodup

theorem ofSource_of_paths (h : files.map (·.path) = targetPaths source) : OfSource source files where
  mem _ hf := h ▸ List.mem_map_of_mem hf
  nodup := h ▸ targetPaths_nodup source

namespace OfSource

variable {g : Rendered} (h : OfSource source files)
include h

theorem place_ne (hf : f ∈ files) (hg : g ∈ files) (hne : g ≠ f) : g.place old ≠ f.place old :=
  fun he => hne (List.inj_on_of_nodup_map h.nodup hg hf
    (place_target_inj old (h.mem g hg) (h.mem f hf) he))

theorem waitingPlace_ne (hf : f ∈ files) (hg : g ∈ files) (hne : g ≠ f) :
    g.waitingPlace old ≠ f.waitingPlace old :=
  fun he => hne (List.inj_on_of_nodup_map h.nodup hg hf
    (place_temporary_inj old (h.mem g hg) (h.mem f hf) he))

theorem place_ne_waitingPlace (hf : f ∈ files) (hg : g ∈ files) :
    g.place old ≠ f.waitingPlace old := place_ne_temporary old (h.mem g hg) (h.mem f hf)

end OfSource

namespace Beside

variable (hof : OfSource source files)

theorem start (old : Disk) (source : String) (files : List Rendered) :
    Beside old source files (fun _ => .untouched) old :=
  ⟨.refl old _, fun _ _ => ⟨rfl, rfl⟩⟩

theorem madePlaces (h : Beside old source files s d) (hof : OfSource source files) :
    Disk.Stays old (madePlaces old source) d := by
  refine h.stays.mono (List.append_subset.mpr ⟨fun l hl => ?_, fun l hl => ?_⟩)
  · obtain ⟨p, hp, rfl⟩ := List.mem_map.mp hl
    exact List.mem_map_of_mem (List.mem_append_right _ (List.mem_map_of_mem hp))
  · obtain ⟨f, hf, rfl⟩ := List.mem_map.mp hl
    exact List.mem_map_of_mem (List.mem_append_left _ (hof.mem f (List.mem_filter.mp hf).1))

include hof

/-- A change at the places of one file concerns that file alone. -/
theorem update (h : Beside old source files s d) (hf : f ∈ files)
    (hstays : Disk.Stays old (changedPlaces old source files (Function.update s f st)) new)
    (hother : ∀ l, l ≠ f.place old → l ≠ f.waitingPlace old → new.at? l = d.at? l)
    (hst : st.Shows old new source f) :
    Beside old source files (Function.update s f st) new := by
  refine ⟨hstays, fun g hg => ?_⟩
  by_cases hgf : g = f
  · subst hgf
    rwa [Function.update_self]
  · rw [Function.update_of_ne hgf]
    refine (h.shows g hg).congr (hother _ ?_ ?_) (hother _ ?_ ?_)
    · exact hof.place_ne hf hg hgf
    · exact hof.place_ne_waitingPlace hf hg
    · exact (hof.place_ne_waitingPlace hg hf).symm
    · exact hof.waitingPlace_ne hf hg hgf

/-- A file of which nothing is installed stays so when its temporary is edited. -/
theorem edit (h : Beside old source files s d) (hf : f ∈ files) (hs : s f ≠ .installed)
    (hstays : Disk.Stays old (changedPlaces old source files s) new)
    (hother : ∀ l, l ≠ f.waitingPlace old → new.at? l = d.at? l)
    (hst : d.at? (f.place old) = old.at? (f.place old) →
      new.at? (f.place old) = old.at? (f.place old) → st.Shows old new source f) :
    Beside old source files (Function.update s f st) new := by
  have hplace : d.at? (f.place old) = old.at? (f.place old) := by
    have hshows := h.shows f hf
    revert hs hshows
    cases s f <;> simp +contextual [Status.Shows]
  refine h.update hof hf (hstays.mono (changedPlaces_subset_update hs)) (fun l _ hw => hother l hw)
    (hst hplace ?_)
  rw [hother _ (hof.place_ne_waitingPlace hf hf), hplace]

end Beside

/-- Removing a temporary takes it away or changes nothing. -/
theorem remove_stays (h : Disk.Stays old places d) (p : String)
    (hm : old.place (temporaryPath p) ∈ places) :
    Disk.Stays old places (attempted d (d.remove (temporaryPath p))).2 ∧
      ∀ l, l ≠ old.place (temporaryPath p) →
        (attempted d (d.remove (temporaryPath p))).2.at? l = d.at? l := by
  rcases remove_temporary h p hm with ⟨fault, hr⟩ | ⟨hc, hr⟩
  · rw [hr d (.refl d _)]
    exact ⟨h, fun _ _ => rfl⟩
  · rw [hr d (.refl d _)]
    refine ⟨h.edit hc none, fun l hl => ?_⟩
    exact (d.at?_edit _ (Disk.isOuter_of_mem_changeable hc) l).trans (if_neg hl)

namespace Job

section

variable (hprep : Prepared old source)
include hprep

/-- What is written to a temporary is put at its place. -/
theorem write_stays (h : Disk.Stays old places d) (hp : p ∈ targetPaths source)
    (hm : old.place (temporaryPath p) ∈ places) {content : ByteArray}
    (hw : d.write (temporaryPath p) content = .ok new) : Disk.Stays old places new ∧
      new.at? (old.place (temporaryPath p)) = some (.file content) ∧
      ∀ l, l ≠ old.place (temporaryPath p) → new.at? l = d.at? l := by
  rcases hprep.write h hp hm content with ⟨fault, hw'⟩ | ⟨hc, hw'⟩
  · cases hw.symm.trans (hw' d (.refl d _))
  · obtain rfl := Except.ok.inj (hw.symm.trans (hw' d (.refl d _)))
    have hat := d.at?_edit (old.place (temporaryPath p), some content)
      (Disk.isOuter_of_mem_changeable hc)
    exact ⟨h.edit hc _, (hat _).trans (if_pos rfl), fun l hl => (hat l).trans (if_neg hl)⟩

/-- What a temporary holds is moved to the place of its target. -/
theorem rename_stays (h : Disk.Stays old places d) (hp : p ∈ targetPaths source)
    (hm : old.place (temporaryPath p) ∈ places) (hm' : old.place p ∈ places) {content : ByteArray}
    (hat : d.at? (old.place (temporaryPath p)) = some (.file content))
    (hr : d.rename (temporaryPath p) p = .ok new) : Disk.Stays old places new ∧
      new.at? (old.place p) = some (.file content) ∧
      new.at? (old.place (temporaryPath p)) = none ∧
      ∀ l, l ≠ old.place p → l ≠ old.place (temporaryPath p) → new.at? l = d.at? l := by
  have hd : d.at? (old.place (temporaryPath p)) ≠ some .directory := by simp [hat]
  have hne : old.place p ≠ old.place (temporaryPath p) := place_ne_temporary old hp hp
  rcases hprep.rename h hp hm hm' hd with ⟨fault, hr'⟩ | ⟨c, hc, hx, hr'⟩
  · cases hr.symm.trans (hr' d (.refl d _) (.refl d _))
  obtain rfl := Except.ok.inj (hr.symm.trans (hr' d (.refl d _) (.refl d _)))
  obtain rfl : c = content := by simpa using hc.symm.trans hat
  have houter := fun x hm => Disk.isOuter_of_mem_changeable (hx x hm)
  refine ⟨h.edits hx, ?_, ?_, fun l hl hl' => ?_⟩
  · refine Disk.at?_edits_of_mem houter List.mem_cons_self fun x hm he => ?_
    rcases List.mem_pair.mp hm with rfl | rfl
    · rfl
    · exact absurd he.symm hne
  · refine Disk.at?_edits_of_mem houter (List.mem_cons_of_mem _ List.mem_cons_self) fun x hm he => ?_
    rcases List.mem_pair.mp hm with rfl | rfl
    · exact absurd he hne
    · rfl
  · refine Disk.at?_edits_of_notMem houter ?_
    simpa using ⟨hl, hl'⟩

/-- While files are only staged, their directory is not asked for in vain. -/
theorem parentEnds_eq (h : Disk.Stays old (temporaryPlaces old source) d)
    (hp : p ∈ targetPaths source) : parentEnds d p = (.ok (), d) := by
  obtain ⟨n, -, hn, -, rfl, -⟩ := target_names hp
  have hdir : d.isDirectory (Path.outputDirectory source) = true := by
    refine hprep.isDirectory h fun l hl hc => ?_
    obtain ⟨hm, hd⟩ := Disk.mem_changeable.mp hc
    rcases Disk.at?_of_looks_directory hprep.directory hl with hdir | ⟨-, target, hlink⟩
    · exact hd hdir
    · obtain ⟨q, hq, rfl⟩ := List.mem_map.mp hm
      exact hprep.unlinked q hq target hlink
  rw [parentEnds, Path.parent?_join source hn, Option.getD_some,
    if_pos (Path.outputDirectory_ne_empty source)]
  exact Disk.makeDirectories_of_isDirectory hdir

variable (hof : OfSource source files)
include hof

/-- Staging a file leaves nothing to do for it or puts its text into its temporary. -/
theorem stage_beside (h : Beside old source files s d) (hf : f ∈ files) (hs : s f = .untouched)
    (hnone : ∀ g ∈ files, s g ≠ .installed) :
    (stage f.path f.content).Reaches station d
      (fun staged new => ∃ st : Status, st.IsStaged ∧ staged = st.staged? f ∧
        Beside old source files (Function.update s f st) new)
      fun _ new => Beside old source files (Function.update s f .aborted) new := by
  have hp := hof.mem f hf
  have hplaces : changedPlaces old source files s = temporaryPlaces old source :=
    changedPlaces_of_none hnone
  have hstays : Disk.Stays old (temporaryPlaces old source) d := hplaces ▸ h.stays
  have hmem : old.place (temporaryPath f.path) ∈ temporaryPlaces old source :=
    mem_temporaryPlaces hp
  have hparent : parentEnds d f.path = (.ok (), d) := parentEnds_eq hprep hstays hp
  have hsf : s f ≠ .installed := by simp [hs]
  have hshows := h.shows f hf
  rw [hs] at hshows
  refine stage_rule (fun hheld => ?_) (fun _ _ _ hmade => ?_) (fun _ _ new hmade hw => ?_)
    fun _ _ made new hmade hw => ?_
  · exact ⟨.skipped, .inl rfl, rfl, h.edit hof hf hsf h.stays (fun _ _ => rfl)
      fun _ hat => ⟨hat, hshows.2, d, hstays, hheld⟩⟩
  · cases hparent.symm.trans hmade
  · cases hparent.symm.trans hmade
    obtain ⟨hnew, hat, hother⟩ := write_stays hprep hstays hp hmem hw
    exact ⟨.waiting, .inr rfl, rfl, h.edit hof hf hsf (hplaces ▸ hnew) hother
      fun _ hplace => ⟨hplace, hat⟩⟩
  · cases hparent.symm.trans hmade
    have hwritten : Disk.Stays old (temporaryPlaces old source) new ∧
        ∀ l, l ≠ old.place (temporaryPath f.path) → new.at? l = d.at? l := by
      rcases hw with rfl | ⟨part, hw⟩
      · exact ⟨hstays, fun _ _ => rfl⟩
      · obtain ⟨hnew, -, hother⟩ := write_stays hprep hstays hp hmem hw
        exact ⟨hnew, hother⟩
    obtain ⟨hnew, hother⟩ := remove_stays hwritten.1 f.path hmem
    exact h.edit hof hf hsf (hplaces ▸ hnew)
      (fun l hl => (hother l hl).trans (hwritten.2 l hl)) fun _ hplace => hplace

/-- Moving a text from its temporary to its place installs it. -/
theorem install_beside (h : Beside old source files s d) (hf : f ∈ files) (hs : s f = .waiting)
    (hr : d.rename (temporaryPath f.path) f.path = .ok new) :
    Beside old source files (Function.update s f .installed) new := by
  have hp := hof.mem f hf
  have hshows := h.shows f hf
  rw [hs] at hshows
  obtain ⟨-, hat⟩ := hshows
  have hmem : old.place (temporaryPath f.path) ∈
      changedPlaces old source files (Function.update s f .installed) :=
    List.mem_append_left _ (mem_temporaryPlaces hp)
  have hmem' : old.place f.path ∈
      changedPlaces old source files (Function.update s f .installed) :=
    List.mem_append_right _ (List.mem_map_of_mem (List.mem_filter.mpr ⟨hf, by simp⟩))
  have hstays : Disk.Stays old
      (changedPlaces old source files (Function.update s f .installed)) d :=
    h.stays.mono (changedPlaces_subset_update (by simp [hs]))
  obtain ⟨hnew, htarget, hgone, hother⟩ := rename_stays hprep hstays hp hmem hmem' hat hr
  obtain ⟨_, -, hfind⟩ := bind_eq_ok.mp hr
  obtain ⟨spot, hfound, -⟩ := bind_eq_ok.mp hfind
  exact h.update hof hf hnew hother ⟨htarget, hgone, d, spot, h.madePlaces hof, hfound⟩

theorem beside_stagewise : Stagewise station files (Beside old source files) where
  nodup := hof.nodup.of_map _
  stage hf hs hnone h := stage_beside hprep hof h hf hs hnone
  install hf hs h hr := install_beside hprep hof h hf hs hr
  discard := by
    intro s d f hf hs h
    have hmem : old.place (temporaryPath f.path) ∈ changedPlaces old source files s :=
      List.mem_append_left _ (mem_temporaryPlaces (hof.mem f hf))
    obtain ⟨hnew, hother⟩ := remove_stays h.stays f.path hmem
    exact h.edit hof hf (by simp [hs]) hnew hother fun _ hplace => hplace

end

end Job

end NavTree
