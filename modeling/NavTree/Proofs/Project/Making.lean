import NavTree.Proofs.Project.Scaffolded
import NavTree.Proofs.Project.Writing

/-! # Making chosen files

The files that are chosen among the missing ones are made one after another, up to the first that
cannot be made. If nothing stands in the way of their temporaries and no way leaves a directory that
is missing, nothing is made but at the places of chosen files, where nothing or a link stood when the
question was asked.
-/
namespace NavTree

variable {old start d new : Disk} {templates offered done : List FileTemplate} {t : FileTemplate}
  {picks : List Nat} {station : Station} {format : Formatter}

/-- The text that the file of a template is made with. -/
def FileTemplate.text (format : Formatter) (t : FileTemplate) : String :=
  format.apply t.path t.content

/-- The place of a template and what its file is to hold. -/
def FileTemplate.mark (format : Formatter) (old : Disk) (t : FileTemplate) : Location × ByteArray :=
  (old.place t.path, (t.text format).toUTF8)

/-- On a disk whose entries stand in directories nothing stands where the temporaries of some
templates are, none of them is one of the templates, and no way to a template leaves a place that is
missing. -/
structure Unobstructed (old : Disk) (templates : List FileTemplate) : Prop where
  tree : old.IsTree
  free : ∀ t ∈ templates, old.at? (old.place (temporaryPath t.path)) = none
  clear : ∀ s ∈ templates, ∀ t ∈ templates, old.place s.path ≠ old.place (temporaryPath t.path)
  direct : ∀ t ∈ templates, ∀ l ∈ old.exits t.path, old.at? l ≠ none

/-- None of the templates is at the place of a link. -/
def Linkless (old : Disk) (templates : List FileTemplate) : Prop :=
  ∀ t ∈ templates, ∀ target, old.at? (old.place t.path) ≠ some (.link target)

/-- A disk to which some templates may have been added. -/
structure Begun (format : Formatter) (old : Disk) (templates : List FileTemplate) (d : Disk) :
    Prop where
  tree : d.IsTree
  gains : Disk.Gains old d (templates.map (FileTemplate.mark format old))

/-- A disk on which, since a question was asked, some of the templates have been made. -/
structure Midway (format : Formatter) (old start : Disk) (templates done : List FileTemplate)
    (d : Disk) : Prop where
  tree : d.IsTree
  gains : Disk.Gains start d (done.map (FileTemplate.mark format old))
  held : Linkless old templates → ∀ t ∈ done, start.Vacant (old.place t.path) ∧
    ∃ content, Disk.Has old d t.path content

namespace Midway

theorem refl (htree : start.IsTree) : Midway format old start templates [] start :=
  ⟨htree, .refl start [], by simp⟩

theorem unmoved (h : Midway format old start templates done d) (ho : Disk.Over old d)
    (htree : new.IsTree) (hu : ∀ l, Disk.Unmoved d new l) :
    Midway format old start templates done new := by
  refine ⟨htree, h.gains.unmoved hu, fun hl t ht => ?_⟩
  obtain ⟨hv, content, hhas⟩ := h.held hl t ht
  exact ⟨hv, hhas.grows ho (.of_unmoved hu)⟩

end Midway

namespace Begun

variable (h : Unobstructed old templates) (hb : Begun format old templates start)
include hb

theorem next (hm : Midway format old start templates done d) (hsub : done ⊆ templates) :
    Begun format old templates d := by
  refine ⟨hm.tree, (hb.gains.trans hm.gains).mono ?_⟩
  rw [← List.map_append]
  exact List.map_subset _ (List.append_subset.mpr ⟨List.Subset.refl _, hsub⟩)

include h

theorem temporary_free (ht : t ∈ templates) :
    start.at? (old.place (temporaryPath t.path)) = none ∨
      start.at? (old.place (temporaryPath t.path)) = some .directory := by
  rcases hb.gains (old.place (temporaryPath t.path)) with (he | ⟨-, hd⟩) | ⟨-, content, hm, -⟩
  · exact .inl (he.trans (h.free t ht))
  · exact .inr hd
  · obtain ⟨s, hs, he⟩ := List.mem_map.mp hm
    exact absurd (congrArg Prod.fst he) (h.clear s hs t ht)

/-- Where the path of a missing template is found as its turn comes, no file stood when the
question was asked. -/
theorem vacant_of_found (ht : t ∈ templates) {entry : Option Entry}
    (habsent : start.isPresent t.path = false)
    (hg : Disk.Gains start d (done.map (FileTemplate.mark format old)))
    (hf : d.find .name t.path = .ok ⟨old.place t.path, entry, true, false⟩)
    (hd : d.at? (old.place t.path) ≠ some .directory) : start.Vacant (old.place t.path) := by
  refine Disk.vacant_of_ne (fun hdir => hd (hg.directory hdir)) fun content hfile => ?_
  have hread : start.read t.path = .ok content :=
    Disk.read_of_found hb.tree (hb.gains.trans hg).toOver hg.toOver hf hfile
      fun l hl hn => h.direct t ht l hl (hb.gains.missing hn)
  rw [Disk.isPresent_of_read hread] at habsent
  cases habsent

/-- Once more, a file is made or not. -/
theorem write (hm : Midway format old start templates done d) (hsub : done ⊆ templates)
    (ht : t ∈ templates) (habsent : start.isPresent t.path = false) (station : Station) :
    (∃ fault new, Job.ends station (Job.writeText t.path (t.text format)) d = (.error fault, new) ∧
      Midway format old start templates done new) ∨
    ∃ outcome new, Job.ends station (Job.writeText t.path (t.text format)) d = (.ok outcome, new) ∧
      Midway format old start templates (done ++ [t]) new := by
  have ho : Disk.Over old d := (hb.next hm hsub).gains.toOver
  have hu := Job.parentEnds_unmoved d t.path
  have hm' : Midway format old start templates done (Job.parentEnds d t.path).2 :=
    hm.unmoved ho (Job.isTree_parentEnds hm.tree t.path) hu
  have hb' := hb.next hm' hsub
  obtain ⟨result, new, he, hends⟩ := Job.ends_writeText hb'.gains.toOver
    (hb'.temporary_free h ht) station (t.text format)
  rw [he]
  cases hends with
  | unchanged hread =>
    refine .inr ⟨_, _, rfl, hm.tree, hm.gains.mono (by simp), fun hl => ?_⟩
    refine List.forall_mem_append.mpr ⟨hm.held hl, List.forall_mem_singleton.mpr ?_⟩
    have hhas := Disk.has_of_read ho (hl t ht) hread
    exact ⟨hb.vacant_of_found h ht habsent hm.gains hhas (by simp [hhas.at?]), _, hhas⟩
  | failed hat =>
    refine .inl ⟨_, _, rfl, hm.unmoved ho (Disk.isTree_congr hat hm'.tree) fun l => ?_⟩
    rw [Disk.Unmoved, hat]
    exact hu l
  | written hwrote =>
    have hv := hb.vacant_of_found h ht habsent hm'.gains hwrote.found hwrote.not_directory
    refine .inr ⟨_, _, rfl, hwrote.isTree hm'.tree, ?_, fun hl => ?_⟩
    · rw [List.map_append]
      exact hm'.gains.write hv hwrote.at?_eq
    · have hnl : ∀ target, (Job.parentEnds d t.path).2.at? (old.place t.path) ≠
          some (.link target) := fun target he => hl t ht target (hb'.gains.toOver.link he)
      refine List.forall_mem_append.mpr ⟨fun s hs => ?_, List.forall_mem_singleton.mpr ?_⟩
      · obtain ⟨hvs, content, hhas⟩ := hm'.held hl s hs
        exact ⟨hvs, hhas.grows hb'.gains.toOver (hwrote.grows hnl)⟩
      · exact ⟨hv, _, hwrote.has hb'.gains.toOver hnl⟩

end Begun

namespace Job

/-- The first of some files, if there is one, cannot be made. -/
def FirstFails (station : Station) (d : Disk) (files : List FileTemplate) : Prop :=
  ∀ t ∈ files.head?, ∃ fault,
    (ends station (writeText t.path (t.text station.format)) d).1 = .error fault

/-- What the making of some files comes to: all are made, or those in front of one. -/
inductive MakeEnds (station : Station) (old start : Disk) (templates done : List FileTemplate)
    (d : Disk) (files : List FileTemplate) : Except ProjectFault (List String) → Disk → Prop
  | made {new : Disk} (h : Midway station.format old start templates (done ++ files) new) :
    MakeEnds station old start templates done d files (.ok (files.map (·.path))) new
  | failed (front : List FileTemplate) {rest : List FileTemplate} {fault : ProjectFault} {new : Disk}
    (hfiles : files = front ++ rest) (hrest : rest ≠ [])
    (h : Midway station.format old start templates (done ++ front) new)
    (hfirst : front = [] ↔ FirstFails station d files) :
    MakeEnds station old start templates done d files (.error fault) new

theorem ends_formatIfReadable (path source : String) :
    (formatIfReadable path source).ends station d =
      (station.format.apply path source, d) := by
  rw [formatIfReadable, Formatter.apply]
  cases dialectOf? path <;> rfl

theorem ends_create_cons {i : Nat} (hi : offered[i]? = some t) (rest : List Nat) :
    ends station (create offered (i :: rest)) d =
      match ends station (writeText t.path (t.text station.format)) d with
      | (.error fault, d') => (.error fault, d')
      | (.ok _, d') => match ends station (create offered rest) d' with
        | (.ok others, new) => (.ok (t.path :: others), new)
        | (.error fault, new) => (.error fault, new) := by
  rw [create, hi]
  dsimp only
  rw [ends_bind, ends_lift, ends_formatIfReadable]
  dsimp only
  rw [ends_bind, FileTemplate.text]
  rcases ends station (writeText t.path (station.format.apply t.path t.content)) d with
    ⟨_ | _, d'⟩
  · rfl
  · dsimp only
    rw [ends_bind]
    rcases ends station (create offered rest) d' with ⟨_ | _, new⟩ <;> rfl

theorem create_ends (station : Station) (h : Unobstructed old templates)
    (hb : Begun station.format old templates start)
    (hoffered : ∀ t ∈ offered, t ∈ templates ∧ start.isPresent t.path = false)
    (hm : Midway station.format old start templates done d) (hsub : done ⊆ templates)
    (picks : List Nat) :
    ∃ result new, ends station (create offered picks) d = (result, new) ∧
      MakeEnds station old start templates done d (chosen offered picks) result new := by
  -- What is done grows with each file, the disk that the question was asked on stays the same.
  induction picks generalizing d done with
  | nil => exact ⟨_, _, rfl, .made (by rwa [chosen, List.filterMap_nil, List.append_nil])⟩
  | cons i rest ih =>
    cases hi : offered[i]? with
    | none =>
      have hchosen : chosen offered (i :: rest) = chosen offered rest :=
        List.filterMap_cons_none hi
      rw [create, hi, hchosen]
      exact ih hm hsub
    | some t =>
      have hchosen : chosen offered (i :: rest) = t :: chosen offered rest :=
        List.filterMap_cons_some hi
      obtain ⟨ht, habsent⟩ := hoffered t (List.mem_of_getElem? hi)
      rw [ends_create_cons hi, hchosen]
      rcases hb.write h hm hsub ht habsent station with
        ⟨fault, new, he, hnew⟩ | ⟨outcome, d', he, hd'⟩
      · rw [he]
        refine ⟨_, _, rfl, .failed [] rfl (by simp) (by rwa [List.append_nil]) ?_⟩
        refine iff_of_true rfl ?_
        rintro s ⟨⟩
        exact ⟨fault, by rw [he]⟩
      · have hsub' : done ++ [t] ⊆ templates :=
          List.append_subset.mpr ⟨hsub, by simpa using ht⟩
        obtain ⟨result, new, hrest, hends⟩ := ih hd' hsub'
        rw [he]
        dsimp only
        rw [hrest]
        cases hends with
        | made hnew => exact ⟨_, _, rfl, .made (by simpa using hnew)⟩
        | failed front hfiles hbehind hnew _ =>
          refine ⟨_, _, rfl, .failed (t :: front) (by rw [hfiles]; rfl) hbehind
            (by simpa using hnew) (iff_of_false (by simp) fun hall => ?_)⟩
          obtain ⟨fault', hfault⟩ := hall t rfl
          rw [he] at hfault
          cases hfault

end Job

end NavTree
