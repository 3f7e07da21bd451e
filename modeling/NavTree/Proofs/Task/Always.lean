import Mathlib.Data.List.Forall2
import NavTree.Project.Install

/-! # What a task always does

Properties of the operations of a task that hold whatever is replied to them. They do not depend on
the disk, so they hold in every schedule of tasks that share one. What a reply tells may be assumed
of the operations behind it.
-/
namespace NavTree

variable {α β : Type}

namespace Task

/-- Every operation of a task is allowed and its result has a property, for all replies that tell
the truth. -/
def Always (ok : Operation → Prop) (told : (op : Operation) → op.Reply → Prop) (post : α → Prop) :
    Task α → Prop
  | done a => post a
  | step op next => ok op ∧ ∀ r, told op r → Always ok told post (next r)

variable {ok : Operation → Prop} {told : (op : Operation) → op.Reply → Prop} {post : α → Prop}
  {post' : β → Prop} {t : Task α} {op : Operation}

theorem Always.bind {f : α → Task β} (h : t.Always ok told post)
    (hf : ∀ a, post a → (f a).Always ok told post') : (t >>= f).Always ok told post' := by
  induction t with
  | done a => exact hf a h
  | step op next ih => exact ⟨h.1, fun r hr => ih r (h.2 r hr)⟩

theorem Always.mono {ok' : Operation → Prop} {told' : (op : Operation) → op.Reply → Prop}
    {weaker : α → Prop} (h : t.Always ok told post) (hok : ∀ op, ok op → ok' op)
    (htold : ∀ op r, told' op r → told op r) (hp : ∀ a, post a → weaker a) :
    t.Always ok' told' weaker := by
  induction t with
  | done a => exact hp a h
  | step op next ih => exact ⟨hok op h.1, fun r hr => ih r (h.2 r (htold op r hr))⟩

theorem always_perform (h : ok op) : (perform op).Always ok told (told op) := ⟨h, fun _ hr => hr⟩

theorem always_forM {xs : List β} {f : β → Task Unit}
    (h : ∀ x ∈ xs, (f x).Always ok told fun _ => True) :
    (xs.forM f).Always ok told fun _ => True := by
  induction xs with
  | nil => trivial
  | cons x xs ih =>
    have hrest := ih fun y hy => h y (List.mem_cons_of_mem _ hy)
    exact (h x List.mem_cons_self).bind fun _ _ => hrest

end Task

namespace Job

/-- The same of a job. Nothing is asked of its fault. -/
structure Always (ok : Operation → Prop) (told : (op : Operation) → op.Reply → Prop)
    (post : α → Prop) (job : Job α) : Prop where
  run : Task.Always ok told (fun r => ∀ a, r = .ok a → post a) job.run

variable {ok : Operation → Prop} {told : (op : Operation) → op.Reply → Prop} {post : α → Prop}
  {post' : β → Prop} {job : Job α}

theorem always_pure {a : α} (h : post a) : Always ok told post (pure a : Job α) := by
  refine ⟨?_⟩
  rintro b ⟨⟩
  exact h

theorem always_throw (fault : ProjectFault) : Always ok told post (throw fault : Job α) := ⟨nofun⟩

theorem Always.bind {f : α → Job β} (h : job.Always ok told post)
    (hf : ∀ a, post a → (f a).Always ok told post') : (job >>= f).Always ok told post' := by
  refine ⟨h.run.bind fun r hr => ?_⟩
  cases r with
  | ok a => exact (hf a (hr a rfl)).run
  | error fault => exact nofun

theorem always_lift {t : Task α} (h : t.Always ok told post) :
    (liftM t : Job α).Always ok told post := by
  refine ⟨Task.Always.bind h fun a ha => ?_⟩
  rintro b ⟨⟩
  exact ha

/-- What a job always makes of each of some things it makes of all of them, in their order. -/
theorem always_mapM {xs : List α} {f : α → Job β} {made : α → β → Prop}
    (h : ∀ x ∈ xs, (f x).Always ok told (made x)) :
    (xs.mapM f).Always ok told (List.Forall₂ made xs) := by
  induction xs with
  | nil => exact always_pure .nil
  | cons x xs ih =>
    obtain ⟨hx, hrest⟩ := List.forall_mem_cons.mp h
    rw [List.mapM_cons]
    exact hx.bind fun a ha => (ih hrest).bind fun as has => always_pure (.cons ha has)

theorem always_forM {xs : List β} {f : β → Job Unit}
    (h : ∀ x ∈ xs, (f x).Always ok told fun _ => True) :
    (xs.forM f).Always ok told fun _ => True := by
  induction xs with
  | nil => exact always_pure trivial
  | cons x xs ih =>
    have hrest := ih fun y hy => h y (List.mem_cons_of_mem _ hy)
    exact (h x List.mem_cons_self).bind fun _ _ => hrest

theorem Always.otherwise {undo : Task Unit} (h : job.Always ok told post)
    (hu : undo.Always ok told fun _ => True) : (otherwise job undo).Always ok told post := by
  refine ⟨h.run.bind fun r hr => ?_⟩
  cases r with
  | ok a => exact hr
  | error fault => exact ((always_lift hu).bind fun _ _ => always_throw fault).run

section

variable {ready : Option Staged → Prop}
  (hdiscard : ∀ w, ready (some w) → (discard w).Always ok told fun _ => True)
include hdiscard

theorem always_discardAll {entries : List (Option Staged)} (h : ∀ entry ∈ entries, ready entry) :
    (discardAll entries).Always ok told fun _ => True := by
  refine Task.always_forM fun w hw => ?_
  obtain ⟨entry, he, rfl⟩ := List.mem_filterMap.mp hw
  exact hdiscard w (h _ he)

/-- What is ready when each file is staged is ready when all are. -/
theorem always_stageAll {files : List Rendered} {staged : List (String × Option Staged)}
    (hstage : ∀ f ∈ files, (stage f.path f.content).Always ok told ready)
    (hs : ∀ entry ∈ staged, ready entry.2) :
    (stageAll staged files).Always ok told fun staged => ∀ entry ∈ staged, ready entry.2 := by
  induction files generalizing staged with
  | nil => exact always_pure hs
  | cons f files ih =>
    obtain ⟨hf, hrest⟩ := List.forall_mem_cons.mp hstage
    have hready : ∀ entry ∈ staged.map (·.2), ready entry := List.forall_mem_map.mpr hs
    refine (hf.otherwise (always_discardAll hdiscard hready)).bind fun entry he => ?_
    exact ih hrest (List.forall_mem_append.mpr ⟨hs, List.forall_mem_singleton.mpr he⟩)

theorem always_commitAll {entries : List (String × Option Staged)}
    (hcommit : ∀ w, ready (some w) → (commit w).Always ok told fun _ => True)
    (h : ∀ entry ∈ entries, ready entry.2) :
    (commitAll entries).Always ok told fun _ => True := by
  induction entries with
  | nil => exact always_pure trivial
  | cons entry entries ih =>
    obtain ⟨he, hrest⟩ := List.forall_mem_cons.mp h
    have hothers := ih hrest
    obtain ⟨path, _ | w⟩ := entry
    · exact hothers.bind fun _ _ => always_pure trivial
    · have hready : ∀ entry ∈ entries.map (·.2), ready entry := List.forall_mem_map.mpr hrest
      refine ((hcommit w he).otherwise (always_discardAll hdiscard hready)).bind fun _ _ => ?_
      exact hothers.bind fun _ _ => always_pure trivial

theorem always_persist {files : List Rendered}
    (hstage : ∀ f ∈ files, (stage f.path f.content).Always ok told ready)
    (hcommit : ∀ w, ready (some w) → (commit w).Always ok told fun _ => True) :
    (persist files).Always ok told fun _ => True :=
  (always_stageAll hdiscard hstage (by simp)).bind fun _ h => always_commitAll hdiscard hcommit h

end

theorem always_file {path : String} {t : Task (Except FileFault α)} {q : Except FileFault α → Prop}
    (h : t.Always ok told q) : (file path t).Always ok told fun _ => True := by
  refine (always_lift h).bind fun r _ => ?_
  cases r with
  | ok a => exact always_pure trivial
  | error fault => exact always_throw _

end Job

end NavTree
