import NavTree.Proofs.Files.Edit
import NavTree.Proofs.Task.Always
import NavTree.Task.Run

/-! # Ends of jobs

What a task or a job comes to on a disk, with the disk that it leaves. Each job of an installation
is opened once, into the file operations that it performs.
-/
namespace NavTree

variable {α β : Type} {station : Station} {d : Disk}

/-- The value of a task and the disk after it. -/
def Task.ends (station : Station) (t : Task α) (d : Disk) : α × Disk :=
  ((t.run station d).value, (t.run station d).disk)

namespace Task

theorem ends_pure (a : α) : ends station (pure a) d = (a, d) := rfl

theorem ends_bind (t : Task α) (f : α → Task β) :
    ends station (t >>= f) d = ends station (f (ends station t d).1) (ends station t d).2 := by
  have hb : t >>= f = bind t f := rfl
  rw [hb, ends, run_bind]
  rfl

theorem ends_perform (op : Operation) : ends station (perform op) d = station.reply d op := rfl

variable {ok : Operation → Prop} {told : (op : Operation) → op.Reply → Prop} {post : α → Prop}

theorem Always.ends {t : Task α} (h : t.Always ok told post)
    (htold : ∀ op d, told op (station.reply d op).1) : post (t.ends station d).1 := by
  induction t generalizing d with
  | done a => exact h
  | step op next ih => exact ih _ (h.2 _ (htold op d))

/-- Operations that leave the disk alone make a task that does. -/
theorem Always.ends_disk {t : Task α} (h : t.Always ok told post)
    (htold : ∀ op d, told op (station.reply d op).1)
    (hok : ∀ op, ok op → ∀ d, (station.reply d op).2 = d) : (t.ends station d).2 = d := by
  induction t generalizing d with
  | done a => rfl
  | step op next ih => exact (ih _ (h.2 _ (htold op d))).trans (hok op h.1 d)

end Task

/-- How the writing of a file ends. The content is there, or the file could not be created, or only
a part of the content is there. -/
inductive Disk.Written (d : Disk) (path : String) (content : ByteArray) :
    Except FileFault Unit × Disk → Prop
  | done {new : Disk} (h : d.write path content = .ok new) : Written d path content (.ok (), new)
  | failed {new : Disk} (fault : FileFault) (h : new = d ∨ ∃ part, d.write path part = .ok new) :
    Written d path content (.error fault, new)

theorem Task.ends_writeFile (station : Station) (d : Disk) (path : String) (content : ByteArray) :
    d.Written path content ((writeFile path content).ends station d) := by
  rw [writeFile, ends_bind, ends_perform, Station.reply]
  cases hc : d.create path with
  | error fault => exact .failed fault (.inl rfl)
  | ok created =>
    obtain ⟨place, made⟩ := created
    simp only
    rw [ends_perform, Station.reply, Disk.fillOn]
    cases station.equipment.medium place content with
    | none => exact .done (Disk.write_eq_ok.mpr ⟨place, made, hc, rfl⟩)
    | some shortage => exact .failed _ (.inr ⟨_, Disk.write_eq_ok.mpr ⟨place, made, hc, rfl⟩⟩)

namespace Job

def ends (station : Station) (job : Job α) (d : Disk) : Except ProjectFault α × Disk :=
  Task.ends station job.run d

theorem ends_pure (a : α) : ends station (pure a) d = (.ok a, d) := rfl

theorem ends_lift (t : Task α) :
    ends station (liftM t : Job α) d = (.ok (t.ends station d).1, (t.ends station d).2) := by
  change Task.ends station (t >>= fun a => pure (Except.ok a)) d = _
  rw [Task.ends_bind, Task.ends_pure]

theorem ends_bind (job : Job α) (f : α → Job β) :
    ends station (job >>= f) d = match ends station job d with
      | (.ok a, d') => ends station (f a) d'
      | (.error fault, d') => (.error fault, d') := by
  change Task.ends station (job.run >>= ExceptT.bindCont f) d = _
  rw [Task.ends_bind, ends]
  cases Task.ends station job.run d with
  | mk result d' => cases result <;> rfl

/-- A job that succeeds does so step by step. -/
theorem ends_bind_ok {job : Job α} {f : α → Job β} {b : β} {new : Disk}
    (h : ends station (job >>= f) d = (.ok b, new)) :
    ∃ a d', ends station job d = (.ok a, d') ∧ ends station (f a) d' = (.ok b, new) := by
  rw [ends_bind] at h
  cases hr : ends station job d with
  | mk result d' =>
    rw [hr] at h
    cases result with
    | ok a => exact ⟨a, d', rfl, h⟩
    | error fault => cases h

/-- A job that fails does so at its first step or behind it. -/
theorem ends_bind_error {job : Job α} {f : α → Job β} {fault : ProjectFault} {new : Disk}
    (h : ends station (job >>= f) d = (.error fault, new)) :
    ends station job d = (.error fault, new) ∨
      ∃ a d', ends station job d = (.ok a, d') ∧ ends station (f a) d' = (.error fault, new) := by
  rw [ends_bind] at h
  rcases hr : ends station job d with ⟨fault' | a, d'⟩
  · rw [hr] at h
    cases h
    exact .inl rfl
  · rw [hr] at h
    exact .inr ⟨a, d', rfl, h⟩

theorem ends_tryCatch (job : Job α) (handler : ProjectFault → Job α) :
    ends station (tryCatch job handler) d = match ends station job d with
      | (.ok a, d') => (.ok a, d')
      | (.error fault, d') => ends station (handler fault) d' := by
  simp only [ends, tryCatch, tryCatchThe, MonadExceptOf.tryCatch, ExceptT.tryCatch, ExceptT.run_mk,
    Task.ends_bind]
  have hrun : ExceptT.run job = job := rfl
  rw [hrun]
  cases Task.ends station job d with
  | mk result d' => cases result <;> rfl

/-- What is undone after a fault is undone on the disk that the fault leaves. -/
theorem ends_otherwise (job : Job α) (undo : Task Unit) :
    ends station (otherwise job undo) d = match ends station job d with
      | (.ok a, d') => (.ok a, d')
      | (.error fault, d') => (.error fault, (undo.ends station d').2) := by
  have hundo : ∀ fault d', ends station (liftM undo >>= fun _ => throw fault : Job α) d' =
      (.error fault, (undo.ends station d').2) := by
    intro fault d'
    rw [ends_bind, ends_lift]
    rfl
  rw [otherwise, ends_tryCatch]
  simp only [hundo]

/-- The directory that a file is to be in is made, unless the path names none. -/
def parentEnds (d : Disk) (path : String) : Except FileFault Unit × Disk :=
  if (Path.parent? path).getD "" ≠ "" then d.makeDirectories ((Path.parent? path).getD "")
  else (.ok (), d)

theorem ends_makeDirectories (path : String) :
    ends station (makeDirectories path) d = match d.makeDirectories path with
      | (.error fault, d₁) => (.error (.file path fault), d₁)
      | (.ok (), d₁) => (.ok (), d₁) := by
  unfold makeDirectories file
  rw [ends_bind, ends_lift, Task.ends_perform]
  simp only [Station.reply]
  rcases d.makeDirectories path with ⟨fault | _, d₁⟩ <;> rfl

theorem ends_parent (path : String) (next : Unit → Job α) :
    ends station (if (Path.parent? path).getD "" ≠ "" then
        makeDirectories ((Path.parent? path).getD "") >>= next else next ()) d =
      match parentEnds d path with
      | (.error fault, d₁) => (.error (.file ((Path.parent? path).getD "") fault), d₁)
      | (.ok (), d₁) => ends station (next ()) d₁ := by
  rw [parentEnds]
  by_cases hp : (Path.parent? path).getD "" ≠ ""
  · rw [if_pos hp, if_pos hp, ends_bind, ends_makeDirectories]
    rcases d.makeDirectories ((Path.parent? path).getD "") with ⟨fault | _, d₁⟩ <;> rfl
  · rw [if_neg hp, if_neg hp]

/-- Staging reads the target, makes the directory around it and writes the temporary file. -/
theorem ends_stage (path content : String) :
    ends station (stage path content) d =
      if holds (d.read path) content.toUTF8 then (.ok none, d)
      else match parentEnds d path with
        | (.error fault, d₁) => (.error (.file ((Path.parent? path).getD "") fault), d₁)
        | (.ok (), d₁) =>
          match (Task.writeFile (temporaryPath path) content.toUTF8).ends station d₁ with
          | (.ok (), d₂) => (.ok (some ⟨temporaryPath path, path⟩), d₂)
          | (.error fault, d₂) =>
            (.error (.file path fault), (attempted d₂ (d₂.remove (temporaryPath path))).2) := by
  unfold stage
  rw [ends_bind, ends_lift, Task.ends_perform]
  simp only [Station.reply]
  by_cases hh : holds (d.read path) content.toUTF8 = true
  · rw [if_pos hh, if_pos hh]
    rfl
  · rw [if_neg hh, if_neg hh]
    refine (ends_parent path _).trans ?_
    rcases parentEnds d path with ⟨fault | _, d₁⟩
    · rfl
    · simp only
      rw [ends_bind, ends_lift]
      rcases (Task.writeFile (temporaryPath path) content.toUTF8).ends station d₁ with
        ⟨fault | ⟨⟩, d₂⟩
      · simp only
        rw [ends_bind, ends_lift]
        rfl
      · rfl

theorem ends_commit (s : Staged) :
    ends station (commit s) d = match d.rename s.temporary s.target with
      | .ok d' => (.ok (), d')
      | .error fault => (.error (.file s.target fault), (attempted d (d.remove s.temporary)).2) := by
  unfold commit
  rw [ends_bind, ends_lift, Task.ends_perform]
  simp only [Station.reply]
  cases d.rename s.temporary s.target with
  | ok d' => rfl
  | error fault =>
    simp only [attempted]
    rw [ends_bind, ends_lift]
    rfl

end Job

end NavTree
