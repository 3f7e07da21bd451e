import NavTree.Proofs.Task.Schedule

/-! # Invariants of pools

What every allowed operation keeps of the disk holds in every schedule, if all tasks always do what
they are allowed to and the replies that they get tell what they rely on.
-/
namespace NavTree.Pool

variable {ι α : Type} {station : Station} {work : ι → Task α} {bound : Nat} {jobs : List ι}
  {ok : ι → Operation → Prop} {told : ι → (op : Operation) → op.Reply → Prop} {post : ι → α → Prop}
  {invariant : Disk → Prop} {pool next last : Pool ι α}

/-- On a disk that the invariant holds of, what is allowed to a job is replied to as the job relies
on, and keeps the invariant. -/
def Kept (station : Station) (jobs : List ι) (ok : ι → Operation → Prop)
    (told : ι → (op : Operation) → op.Reply → Prop) (invariant : Disk → Prop) : Prop :=
  ∀ i ∈ jobs, ∀ op d, ok i op → invariant d →
    told i op (station.reply d op).1 ∧ invariant (station.reply d op).2

/-- The invariant holds, what the tasks have come to is as they promise, and they go on as they
may. -/
structure Sound (jobs : List ι) (ok : ι → Operation → Prop)
    (told : ι → (op : Operation) → op.Reply → Prop) (post : ι → α → Prop) (invariant : Disk → Prop)
    (pool : Pool ι α) : Prop where
  names : pool.names.Perm jobs
  running : ∀ x ∈ pool.running, x.2.Always (ok x.1) (told x.1) (post x.1)
  finished : ∀ x ∈ pool.finished, post x.1 x.2
  disk : invariant pool.disk

theorem sound_start {order : List ι} {d : Disk} (hp : order.Perm jobs) (hd : invariant d) :
    Sound jobs ok told post invariant (start order d) := by
  refine ⟨?_, nofun, nofun, hd⟩
  simpa [Pool.names, start] using hp

variable [DecidableEq ι]

/-- A task that is under way comes to an end as promised, whatever is done to the disk on top. -/
theorem Sound.ended {waiting : List ι} {before after : List (ι × Task α)} {i : ι} {t : Task α}
    {a : α} {finished : List (ι × α)} {d d' : Disk}
    (h : Sound jobs ok told post invariant ⟨waiting, before ++ (i, t) :: after, finished, d⟩)
    (ha : post i a) (hd : invariant d') :
    Sound jobs ok told post invariant ⟨waiting, before ++ after, finished ++ [(i, a)], d'⟩ := by
  refine ⟨names_finish.trans h.names, fun x hx => ?_, fun x hx => ?_, hd⟩
  · exact h.running x (by rcases List.mem_append.mp hx with hx | hx <;> simp [hx])
  · rcases List.mem_append.mp hx with hx | hx
    · exact h.finished x hx
    · rw [List.mem_singleton.mp hx]
      exact ha

theorem Sound.step (hwork : ∀ i ∈ jobs, (work i).Always (ok i) (told i) (post i))
    (hkept : Kept station jobs ok told invariant) (h : Sound jobs ok told post invariant pool)
    (hs : Step station work bound pool next) : Sound jobs ok told post invariant next := by
  cases hs with
  | @take before i after running finished d hb =>
    refine ⟨names_take.trans h.names, fun x hx => ?_, h.finished, h.disk⟩
    rcases List.mem_cons.mp hx with rfl | hx
    · exact hwork i (h.names.subset (by simp [Pool.names]))
    · exact h.running x hx
  | @perform waiting before i op next after finished d =>
    have hi : i ∈ jobs := h.names.subset (by simp [Pool.names])
    obtain ⟨hop, hnext⟩ := h.running (i, .step op next) (by simp)
    obtain ⟨htold, hd⟩ := hkept i hi op d hop h.disk
    refine ⟨(List.Perm.of_eq names_perform).trans h.names, fun x hx => ?_, h.finished, hd⟩
    have hcases : x = (i, next (station.reply d op).1) ∨ x ∈ before ++ after := by
      simpa [or_left_comm] using hx
    rcases hcases with rfl | hx
    · exact hnext _ htold
    · exact h.running x (by rcases List.mem_append.mp hx with hx | hx <;> simp [hx])
  | @finish waiting before i a after finished d =>
    exact h.ended (h.running (i, .done a) (by simp)) h.disk

theorem Sound.runs (hwork : ∀ i ∈ jobs, (work i).Always (ok i) (told i) (post i))
    (hkept : Kept station jobs ok told invariant) (h : Sound jobs ok told post invariant pool)
    (hs : Runs station work bound pool last) : Sound jobs ok told post invariant last := by
  induction hs with
  | refl => exact h
  | step hstep _ ih => exact ih (h.step hwork hkept hstep)

end NavTree.Pool
