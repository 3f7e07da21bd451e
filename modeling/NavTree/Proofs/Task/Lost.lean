import Mathlib.Logic.Relation
import NavTree.Proofs.Task.Invariant

/-! # Lost tasks

A task that is under way may be lost at any point, whatever it leaves on the disk. Its job has then
come to a fixed end, and another one may be taken up for it. However tasks take turns and get lost,
no more are under way at once than the bound allows, and every job comes to one end.
-/
namespace NavTree.Pool

variable {ι α : Type} {station : Station} {work : ι → Task α} {bound : Nat} {lost : α}
  {jobs : List ι} {pool next last : Pool ι α}

inductive StepOrLoss (station : Station) (work : ι → Task α) (bound : Nat) (lost : α) :
    Pool ι α → Pool ι α → Prop
  | step {pool next : Pool ι α} (h : Step station work bound pool next) :
    StepOrLoss station work bound lost pool next
  | loss {waiting before i t after finished d d'} :
    StepOrLoss station work bound lost ⟨waiting, before ++ (i, t) :: after, finished, d⟩
      ⟨waiting, before ++ after, finished ++ [(i, lost)], d'⟩

/-- What a pool may come to in any number of steps if tasks may be lost. -/
def ReachesWithLoss (station : Station) (work : ι → Task α) (bound : Nat) (lost : α) :
    Pool ι α → Pool ι α → Prop :=
  Relation.ReflTransGen (StepOrLoss station work bound lost)

theorem Runs.reachesWithLoss (h : Runs station work bound pool last) :
    ReachesWithLoss station work bound lost pool last := by
  induction h with
  | refl => exact .refl
  | step hstep _ ih => exact .head (.step hstep) ih

theorem length_without_le (before after : List (ι × Task α)) (x : ι × Task α) :
    (before ++ after).length ≤ (before ++ x :: after).length :=
  ((List.sublist_cons_self x after).append_left before).length_le

theorem Step.length_running (h : Step station work bound pool next)
    (hb : pool.running.length ≤ bound) : next.running.length ≤ bound := by
  cases h with
  | take hlt => exact hlt
  | perform => simpa using hb
  | finish => exact Nat.le_trans (length_without_le ..) hb

theorem StepOrLoss.length_running (h : StepOrLoss station work bound lost pool next)
    (hb : pool.running.length ≤ bound) : next.running.length ≤ bound := by
  cases h with
  | step hstep => exact hstep.length_running hb
  | loss => exact Nat.le_trans (length_without_le ..) hb

theorem ReachesWithLoss.length_running (h : ReachesWithLoss station work bound lost pool last)
    (hb : pool.running.length ≤ bound) : last.running.length ≤ bound := by
  induction h with
  | refl => exact hb
  | tail _ hstep ih => exact hstep.length_running ih

section

variable [DecidableEq ι] {ok : ι → Operation → Prop}
  {told : ι → (op : Operation) → op.Reply → Prop} {post : ι → α → Prop}

theorem Sound.stepOrLoss (hwork : ∀ i ∈ jobs, (work i).Always (ok i) (told i) (post i))
    (htold : ∀ i op d, told i op (station.reply d op).1) (hlost : ∀ i, post i lost)
    (h : Sound jobs ok told post (fun _ => True) pool)
    (hs : StepOrLoss station work bound lost pool next) :
    Sound jobs ok told post (fun _ => True) next := by
  cases hs with
  | step hstep => exact h.step hwork (fun i _ op d _ _ => ⟨htold i op d, trivial⟩) hstep
  | loss => exact h.ended (hlost _) trivial

/-- Every job is waiting, under way or at an end, and it ends as its task promises unless this is
lost. -/
theorem ReachesWithLoss.sound (hwork : ∀ i ∈ jobs, (work i).Always (ok i) (told i) (post i))
    (htold : ∀ i op d, told i op (station.reply d op).1) {d : Disk}
    (h : ReachesWithLoss station work bound lost (start jobs d) pool) :
    Sound jobs ok told (fun i a => post i a ∨ a = lost) (fun _ => True) pool := by
  have hweak : ∀ i ∈ jobs, (work i).Always (ok i) (told i) fun a => post i a ∨ a = lost :=
    fun i hi => (hwork i hi).mono (fun _ => id) (fun _ _ => id) fun _ => .inl
  induction h with
  | refl => exact sound_start (.refl _) trivial
  | tail _ hstep ih => exact ih.stepOrLoss hweak htold (fun _ => .inr rfl) hstep

end

end NavTree.Pool
