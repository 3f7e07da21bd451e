import NavTree.Proofs.Project.Ends

/-! # What jobs reach

A job that is started on a disk reaches a value or a fault, and a disk. What it reaches is told step by
step; for the loops of an installation there is one rule each, whose invariant speaks of the files
that are done, of those that are not, and of the disk.
-/
namespace NavTree.Job

variable {α β : Type} {station : Station} {d : Disk} {job : Job α} {ok mid : α → Disk → Prop}
  {ok' : β → Disk → Prop} {failed : ProjectFault → Disk → Prop}

/-- One thing holds of the value that a job comes to and of the disk then, another of the fault that
it comes to and of the disk then. -/
structure Reaches (station : Station) (d : Disk) (ok : α → Disk → Prop)
    (failed : ProjectFault → Disk → Prop) (job : Job α) : Prop where
  ok : ∀ {a new}, ends station job d = (.ok a, new) → ok a new
  failed : ∀ {fault new}, ends station job d = (.error fault, new) → failed fault new

theorem reaches_ok {a : α} {new : Disk} (h : ends station job d = (.ok a, new)) (hok : ok a new) :
    job.Reaches station d ok failed := by
  constructor
  · intro a' new' h'
    cases h.symm.trans h'
    exact hok
  · intro fault new' h'
    cases h.symm.trans h'

theorem reaches_error {fault : ProjectFault} {new : Disk}
    (h : ends station job d = (.error fault, new)) (hfailed : failed fault new) :
    job.Reaches station d ok failed := by
  constructor
  · intro a new' h'
    cases h.symm.trans h'
  · intro fault' new' h'
    cases h.symm.trans h'
    exact hfailed

namespace Reaches

theorem pure {a : α} (h : ok a d) : (pure a : Job α).Reaches station d ok failed :=
  reaches_ok (ends_pure a) h

theorem mono {weaker : α → Disk → Prop} {failed' : ProjectFault → Disk → Prop}
    (h : job.Reaches station d ok failed) (hok : ∀ a new, ok a new → weaker a new)
    (hfailed : ∀ fault new, failed fault new → failed' fault new) :
    job.Reaches station d weaker failed' :=
  ⟨fun he => hok _ _ (h.ok he), fun he => hfailed _ _ (h.failed he)⟩

theorem bind {f : α → Job β} (h : job.Reaches station d mid failed)
    (hf : ∀ a new, mid a new → (f a).Reaches station new ok' failed) :
    (job >>= f).Reaches station d ok' failed := by
  constructor
  · intro b new he
    obtain ⟨a, d', ha, hb⟩ := ends_bind_ok he
    exact (hf a d' (h.ok ha)).ok hb
  · intro fault new he
    rcases ends_bind_error he with ha | ⟨a, d', ha, hb⟩
    · exact h.failed ha
    · exact (hf a d' (h.ok ha)).failed hb

/-- What holds of the disk whether the job succeeds or fails. -/
theorem disk {P : Disk → Prop} (h : job.Reaches station d (fun _ new => P new) fun _ new => P new) :
    P (ends station job d).2 := by
  rcases he : ends station job d with ⟨fault | a, new⟩
  · exact h.failed he
  · exact h.ok he

theorem otherwise {undo : Task Unit} (h : job.Reaches station d ok
      fun fault new => failed fault (undo.ends station new).2) :
    (otherwise job undo).Reaches station d ok failed := by
  rcases he : ends station job d with ⟨fault | a, new⟩
  · exact reaches_error (by rw [ends_otherwise, he]) (h.failed he)
  · exact reaches_ok (by rw [ends_otherwise, he]) (h.ok he)

end Reaches

/-- A file is left alone, or its directory is made and its text written to its temporary, which is
removed again if no more than a part of the text is there. -/
theorem stage_rule {path content : String} {ok : Option Staged → Disk → Prop}
    (hheld : holds (d.read path) content.toUTF8 = true → ok none d)
    (hparent : holds (d.read path) content.toUTF8 = false → ∀ {fault made},
      parentEnds d path = (.error fault, made) →
        failed (.file ((Path.parent? path).getD "") fault) made)
    (hdone : holds (d.read path) content.toUTF8 = false → ∀ {made new},
      parentEnds d path = (.ok (), made) →
      made.write (temporaryPath path) content.toUTF8 = .ok new →
        ok (some ⟨temporaryPath path, path⟩) new)
    (hfailed : holds (d.read path) content.toUTF8 = false → ∀ {fault made new},
      parentEnds d path = (.ok (), made) →
      (new = made ∨ ∃ part, made.write (temporaryPath path) part = .ok new) →
        failed (.file path fault) (attempted new (new.remove (temporaryPath path))).2) :
    (stage path content).Reaches station d ok failed := by
  have hends : ends station (stage path content) d = _ := ends_stage path content
  cases hh : holds (d.read path) content.toUTF8 with
  | true =>
    rw [hh, if_pos rfl] at hends
    exact reaches_ok hends (hheld hh)
  | false =>
    rw [hh, if_neg Bool.false_ne_true] at hends
    rcases hmade : parentEnds d path with ⟨fault | ⟨⟩, made⟩
    · rw [hmade] at hends
      exact reaches_error hends (hparent hh hmade)
    · rw [hmade] at hends
      have hwritten := Task.ends_writeFile station made (temporaryPath path) content.toUTF8
      simp only at hends
      generalize (Task.writeFile (temporaryPath path) content.toUTF8).ends station made = result
        at hends hwritten
      cases hwritten with
      | done hw => exact reaches_ok hends (hdone hh hmade hw)
      | failed fault hw => exact reaches_error hends (hfailed hh hmade hw)

/-- A staged file is moved to its place, or discarded. -/
theorem commit_rule {s : Staged} {ok : Unit → Disk → Prop}
    (hok : ∀ {new}, d.rename s.temporary s.target = .ok new → ok () new)
    (hfailed : ∀ {fault}, d.rename s.temporary s.target = .error fault →
      failed (.file s.target fault) (attempted d (d.remove s.temporary)).2) :
    (commit s).Reaches station d ok failed := by
  have hends : ends station (commit s) d = _ := ends_commit s
  cases hr : d.rename s.temporary s.target with
  | ok new =>
    rw [hr] at hends
    exact reaches_ok hends (hok hr)
  | error fault =>
    rw [hr] at hends
    exact reaches_error hends (hfailed hr)

/-- What is staged is discarded piece by piece. -/
theorem discardAll_rule {ι : Type} {xs : List ι} {entry : ι → Option Staged}
    (inv : List ι → List ι → Disk → Prop)
    (hnone : ∀ {done x rest d}, xs = done ++ x :: rest → entry x = none →
      inv done (x :: rest) d → inv (done ++ [x]) rest d)
    (hsome : ∀ {done x w rest d}, xs = done ++ x :: rest → entry x = some w →
      inv done (x :: rest) d → inv (done ++ [x]) rest (attempted d (d.remove w.temporary)).2)
    (h : inv [] xs d) : inv xs [] ((discardAll (xs.map entry)).ends station d).2 := by
  suffices hrest : ∀ rest done d, xs = done ++ rest → inv done rest d →
      inv xs [] ((discardAll (rest.map entry)).ends station d).2 from hrest xs [] d rfl h
  intro rest
  induction rest with
  | nil =>
    intro done d hxs h
    rw [List.append_nil] at hxs
    exact hxs ▸ h
  | cons x rest ih =>
    intro done d hxs h
    have hxs' : xs = (done ++ [x]) ++ rest := by rw [hxs, List.append_assoc]; rfl
    rw [List.map_cons]
    cases hx : entry x with
    | none => exact ih _ d hxs' (hnone hxs hx h)
    | some w =>
      have hcons : discardAll (some w :: rest.map entry) =
        discard w >>= fun _ => discardAll (rest.map entry) := rfl
      rw [hcons, Task.ends_bind]
      exact ih _ _ hxs' (hsome hxs hx h)

/-- Files are staged one after another. When one cannot be staged, those before it are discarded. -/
theorem stageAll_rule {files : List Rendered}
    (inv : List Rendered → List Rendered → List (String × Option Staged) → Disk → Prop)
    (hstep : ∀ {done f rest staged d}, files = done ++ f :: rest → inv done (f :: rest) staged d →
      (stage f.path f.content).Reaches station d
        (fun entry new => inv (done ++ [f]) rest (staged ++ [(f.path, entry)]) new)
        fun fault new => failed fault ((discardAll (staged.map (·.2))).ends station new).2)
    (h : inv [] files [] d) : (stageAll [] files).Reaches station d (inv files []) failed := by
  suffices hrest : ∀ rest done staged d, files = done ++ rest → inv done rest staged d →
      (stageAll staged rest).Reaches station d (inv files []) failed from
    hrest files [] [] d rfl h
  intro rest
  induction rest with
  | nil =>
    intro done staged d hfiles h
    rw [List.append_nil] at hfiles
    exact .pure (hfiles ▸ h)
  | cons f rest ih =>
    intro done staged d hfiles h
    refine (hstep hfiles h).otherwise.bind fun entry new hnew => ?_
    exact ih (done ++ [f]) _ new (by rw [hfiles, List.append_assoc]; rfl) hnew

/-- What is reported of a file that was staged, or left alone. -/
def reported (entry : String × Option Staged) : String × WriteOutcome :=
  (entry.1, if entry.2.isSome then .written else .unchanged)

/-- Staged files are committed one after another. When one cannot be moved, those behind it are
discarded. -/
theorem commitAll_rule {ι : Type} {xs : List ι} {entry : ι → String × Option Staged}
    (inv : List ι → List ι → Disk → Prop)
    (hskip : ∀ {done x rest d}, xs = done ++ x :: rest → (entry x).2 = none →
      inv done (x :: rest) d → inv (done ++ [x]) rest d)
    (hcommit : ∀ {done x w rest d}, xs = done ++ x :: rest → (entry x).2 = some w →
      inv done (x :: rest) d → (commit w).Reaches station d
        (fun _ new => inv (done ++ [x]) rest new)
        fun fault new =>
          failed fault ((discardAll (rest.map fun y => (entry y).2)).ends station new).2)
    (h : inv [] xs d) : (commitAll (xs.map entry)).Reaches station d
      (fun outcomes new => outcomes = xs.map (fun x => reported (entry x)) ∧ inv xs [] new)
      failed := by
  suffices hrest : ∀ rest done d, xs = done ++ rest → inv done rest d →
      (commitAll (rest.map entry)).Reaches station d
        (fun outcomes new => outcomes = rest.map (fun x => reported (entry x)) ∧ inv xs [] new)
        failed from hrest xs [] d rfl h
  intro rest
  induction rest with
  | nil =>
    intro done d hxs h
    rw [List.append_nil] at hxs
    exact .pure ⟨rfl, hxs ▸ h⟩
  | cons x rest ih =>
    intro done d hxs h
    have hxs' : xs = (done ++ [x]) ++ rest := by rw [hxs, List.append_assoc]; rfl
    rcases hx : entry x with ⟨path, _ | w⟩
    · have hx' : (entry x).2 = none := congrArg Prod.snd hx
      rw [List.map_cons, List.map_cons, hx]
      refine (ih _ d hxs' (hskip hxs hx' h)).bind fun others new hnew => ?_
      exact .pure ⟨congrArg _ hnew.1, hnew.2⟩
    · have hx' : (entry x).2 = some w := congrArg Prod.snd hx
      have hmap : (rest.map entry).map (·.2) = rest.map fun y => (entry y).2 := List.map_map
      have hfirst := hcommit hxs hx' h
      rw [← hmap] at hfirst
      rw [List.map_cons, List.map_cons, hx]
      refine hfirst.otherwise.bind fun _ new hnew => ?_
      refine (ih _ new hxs' hnew).bind fun others new' hnew' => ?_
      exact .pure ⟨congrArg _ hnew'.1, hnew'.2⟩

end NavTree.Job
