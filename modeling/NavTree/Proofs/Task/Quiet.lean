import NavTree.Proofs.Project.Reaches

/-! # Quiet tasks

A task is quiet on a disk if none of the operations that it performs there changes the disk. So it
comes to the same whatever other quiet tasks do in between. The installation of files that hold their
texts is quiet.
-/
namespace NavTree

variable {α β : Type} {station : Station} {d e : Disk}

namespace Task

/-- On a disk that each of its operations leaves as it is, a task comes to a value. -/
def Quiet (station : Station) (d : Disk) (t : Task α) (a : α) : Prop :=
  t.Always (fun op => (station.reply d op).2 = d) (fun op r => r = (station.reply d op).1) (· = a)

variable {t : Task α} {a : α} {b : β} {op : Operation} {post : α → Prop}

theorem Quiet.bind {f : α → Task β} (h : t.Quiet station d a) (hf : (f a).Quiet station d b) :
    (t >>= f).Quiet station d b := by
  apply Always.bind h
  rintro _ rfl
  exact hf

/-- What always leaves the disk as it is comes quietly to what it comes to. -/
theorem Always.quiet_ends (h : t.Always (fun op => (station.reply d op).2 = d)
    (fun op r => r = (station.reply d op).1) post) : t.Quiet station d (t.ends station d).1 := by
  induction t with
  | done a => rfl
  | step op next ih =>
    have hstep : Task.ends station (step op next) d =
        Task.ends station (next (station.reply d op).1) (station.reply d op).2 := rfl
    rw [hstep, h.1]
    refine ⟨h.1, ?_⟩
    rintro r rfl
    exact ih _ (h.2 _ rfl)

theorem quiet_perform {r : op.Reply} (h : station.reply d op = (r, d)) :
    (perform op).Quiet station d r := by
  refine ⟨congrArg Prod.snd h, fun r' hr => ?_⟩
  rw [hr, h]
  rfl

/-- What is replied to in the same way on two disks, and changes neither, comes to the same. -/
theorem Always.quiet (h : t.Always
      (fun op => ∃ r, station.reply d op = (r, d) ∧ station.reply e op = (r, e))
      (fun _ _ => True) post) :
    ∃ a, t.ends station d = (a, d) ∧ t.Quiet station e a := by
  induction t with
  | done a => exact ⟨a, rfl, rfl⟩
  | step op next ih =>
    obtain ⟨⟨r, hd, he⟩, hnext⟩ := h
    obtain ⟨a, hends, hquiet⟩ := ih r (hnext r trivial)
    have hstep : Task.ends station (step op next) d =
        Task.ends station (next (station.reply d op).1) (station.reply d op).2 := rfl
    rw [hstep, hd]
    refine ⟨a, hends, congrArg Prod.snd he, fun r' hr => ?_⟩
    obtain rfl : r' = r := hr.trans (congrArg Prod.fst he)
    exact hquiet

end Task

/-- What is reported of files that are left alone. -/
def unchanged (paths : List String) : List (String × WriteOutcome) :=
  paths.map fun p => (p, .unchanged)

namespace Job

/-- The same of a job, which succeeds. -/
def Quiet (station : Station) (d : Disk) (job : Job α) (a : α) : Prop :=
  Task.Quiet station d job.run (.ok a)

variable {job : Job α} {a : α} {b : β}

theorem quiet_pure (a : α) : (pure a : Job α).Quiet station d a := rfl

theorem Quiet.bind {f : α → Job β} (h : job.Quiet station d a) (hf : (f a).Quiet station d b) :
    (job >>= f).Quiet station d b := Task.Quiet.bind h hf

theorem Quiet.always (h : job.Quiet station d a) : job.Always (fun op => (station.reply d op).2 = d)
    (fun op r => r = (station.reply d op).1) (· = a) := by
  refine ⟨Task.Always.mono h (fun _ => id) (fun _ _ => id) ?_⟩
  rintro _ rfl b hb
  exact (Except.ok.inj hb).symm

theorem quiet_lift {t : Task α} (h : t.Quiet station d a) : (liftM t : Job α).Quiet station d a :=
  Task.Quiet.bind h rfl

theorem quiet_note (level : LogLevel) (origin : LogOrigin) (text : String) :
    (liftM (Task.note level origin text) : Job Unit).Quiet station d () :=
  quiet_lift (Task.quiet_perform rfl)

theorem stage_quiet {path content : String} (h : holds (d.read path) content.toUTF8 = true) :
    (stage path content).Quiet station d none := by
  refine (quiet_lift (Task.quiet_perform rfl)).bind ?_
  rw [if_pos h]
  exact quiet_pure none

variable {files : List Rendered} (h : ∀ f ∈ files, holds (d.read f.path) f.content.toUTF8 = true)
include h

/-- Files that hold their texts are reported as unchanged, and the disk stays as it is. -/
theorem persist_held (station : Station) :
    ends station (persist files) d = (.ok (unchanged (files.map (·.path))), d) := by
  have hstage : (stageAll [] files).Reaches station d
      (fun staged new => staged = files.map (fun f => (f.path, none)) ∧ new = d)
      fun _ _ => False := by
    refine stageAll_rule (fun done _ staged new =>
      staged = done.map (fun f => (f.path, none)) ∧ new = d) ?_ ⟨rfl, rfl⟩
    rintro done f rest _ _ hsplit ⟨rfl, rfl⟩
    have hf := h f (by simp [hsplit])
    refine stage_rule (fun _ => ⟨by simp, rfl⟩) (fun hn => ?_) (fun hn => ?_) fun hn => ?_
    all_goals exact absurd (hn.symm.trans hf) Bool.false_ne_true
  have hpersist : (persist files).Reaches station d
      (fun outcomes new => outcomes = unchanged (files.map (·.path)) ∧ new = d)
      fun _ _ => False := by
    refine hstage.bind fun staged new ⟨hstaged, hnew⟩ => ?_
    rw [hstaged, hnew]
    refine (commitAll_rule (fun _ _ new => new = d) (fun _ _ h => h) (by simp) rfl).mono
      (fun outcomes new ⟨ho, hnew⟩ => ⟨?_, hnew⟩) fun _ _ => id
    rw [ho]
    simp [unchanged, reported]
  rcases he : ends station (persist files) d with ⟨fault | outcomes, new⟩
  · exact (hpersist.failed he).elim
  · obtain ⟨rfl, rfl⟩ := hpersist.ok he
    rfl

/-- Nothing is staged, so nothing is committed or discarded. -/
theorem persist_quiet :
    (persist files).Quiet station d (unchanged (files.map (·.path))) := by
  have hstage : ∀ f ∈ files, (stage f.path f.content).Always
      (fun op => (station.reply d op).2 = d) (fun op r => r = (station.reply d op).1) (· = none) :=
    fun f hf => (stage_quiet (h f hf)).always
  have hquiet := (always_persist (by simp) hstage (by simp)).run.quiet_ends
  have hends : Task.ends station (persist files).run d =
    (.ok (unchanged (files.map (·.path))), d) := persist_held h station
  rw [hends] at hquiet
  exact hquiet

end Job

end NavTree
