import Mathlib.Data.List.Nodup
import Mathlib.Data.List.Perm.Basic
import Mathlib.Logic.Function.Basic
import NavTree.Proofs.Project.Ends
import NavTree.Task.Pool

/-! # Schedules of tasks

Tasks that do not touch what the others see come to the same in every schedule: each to what it
comes to alone. The invariant keeps, for every task, the disk that it would see by itself.
-/
namespace NavTree

variable {ι α : Type} {station : Station} {work : ι → Task α} {bound : Nat}

def Agree (region : Location → Prop) (d e : Disk) : Prop := ∀ l, region l → d.at? l = e.at? l

/-- An operation on a disk looks at a region only, and changes nothing but what the task owns. -/
structure Operation.Confined (station : Station) (region own : Location → Prop) (op : Operation)
    (e : Disk) : Prop where
  reply : ∀ d, Agree region d e → (station.reply d op).1 = (station.reply e op).1
  agree : ∀ d, Agree region d e → Agree region (station.reply d op).2 (station.reply e op).2
  elsewhere : ∀ d, Agree region d e → ∀ l, ¬ own l → (station.reply d op).2.at? l = d.at? l

/-- So do all operations of a task that runs alone from a disk. -/
def Task.Confined (station : Station) (region own : Location → Prop) : Task α → Disk → Prop
  | .done _, _ => True
  | .step op next, e => op.Confined station region own e ∧
    (next (station.reply e op).1).Confined station region own (station.reply e op).2

/-- Jobs with tasks that are confined from the start, to regions that no other one owns a part of. -/
structure Independent (station : Station) (work : ι → Task α) (region own : ι → Location → Prop)
    (jobs : List ι) (old : Disk) : Prop where
  nodup : jobs.Nodup
  confined : ∀ i ∈ jobs, (work i).Confined station (region i) (own i) old
  owns : ∀ i ∈ jobs, ∀ l, own i l → region i l
  apart : ∀ i ∈ jobs, ∀ j ∈ jobs, i ≠ j → ∀ l, own i l → ¬ region j l

namespace Pool

variable {region own : ι → Location → Prop} {jobs : List ι} {old : Disk} {pool next last : Pool ι α}

/-- All jobs of a pool. -/
def names (pool : Pool ι α) : List ι :=
  pool.waiting ++ pool.running.map (·.1) ++ pool.finished.map (·.1)

theorem names_of_done (hdone : pool.IsDone) : pool.names = pool.finished.map (·.1) := by
  rw [names, hdone.1, hdone.2]
  rfl

section

variable {waiting before after : List ι} {running running' : List (ι × Task α)}
  {finished : List (ι × α)} {d d' : Disk} {i : ι} {t t' : Task α} {a : α}

theorem names_perform : names ⟨waiting, running ++ (i, t) :: running', finished, d⟩ =
    names ⟨waiting, running ++ (i, t') :: running', finished, d'⟩ := by
  simp [Pool.names]

variable [DecidableEq ι]

theorem names_take : (names ⟨before ++ after, (i, t) :: running, finished, d⟩).Perm
    (names ⟨before ++ i :: after, running, finished, d'⟩) := by
  refine List.perm_iff_count.mpr fun j => ?_
  simp only [Pool.names, List.map_cons, List.count_append, List.count_cons]
  omega

theorem names_finish : (names ⟨waiting, running ++ running', finished ++ [(i, a)], d⟩).Perm
    (names ⟨waiting, running ++ (i, t) :: running', finished, d'⟩) := by
  refine List.perm_iff_count.mpr fun j => ?_
  simp only [Pool.names, List.map_append, List.map_cons, List.map_nil, List.count_append,
    List.count_cons, List.count_nil]
  omega

end

/-- Every job sees in its region what it would see alone, and comes to the same from there. -/
structure Mirrors (station : Station) (work : ι → Task α) (region own : ι → Location → Prop)
    (jobs : List ι) (old : Disk) (view : ι → Disk) (pool : Pool ι α) : Prop where
  names : pool.names.Perm jobs
  waiting : ∀ i ∈ pool.waiting, view i = old
  running : ∀ x ∈ pool.running, x.2.Confined station (region x.1) (own x.1) (view x.1) ∧
    x.2.ends station (view x.1) = (work x.1).ends station old
  finished : ∀ x ∈ pool.finished, (x.2, view x.1) = (work x.1).ends station old
  agree : ∀ i ∈ jobs, Agree (region i) pool.disk (view i)
  elsewhere : ∀ l, (∀ i ∈ jobs, ¬ own i l) → pool.disk.at? l = old.at? l

theorem mirrors_start {order : List ι} (h : order.Perm jobs) :
    Mirrors station work region own jobs old (fun _ => old) (start order old) := by
  refine ⟨?_, fun _ _ => rfl, nofun, nofun, fun _ _ _ _ => rfl, fun _ _ => rfl⟩
  simpa [Pool.names, start] using h

section

variable [DecidableEq ι] {view : ι → Disk} {waiting before after : List ι}
  {running running' : List (ι × Task α)}
  {finished : List (ι × α)} {d : Disk} {i : ι}

theorem Mirrors.take (hind : Independent station work region own jobs old)
    (h : Mirrors station work region own jobs old view ⟨before ++ i :: after, running, finished, d⟩) :
    Mirrors station work region own jobs old view
      ⟨before ++ after, (i, work i) :: running, finished, d⟩ := by
  refine ⟨names_take.trans h.names, fun j hj => h.waiting j ?_, ?_, h.finished, h.agree, h.elsewhere⟩
  · rcases List.mem_append.mp hj with hj | hj
    · exact List.mem_append_left _ hj
    · exact List.mem_append_right _ (List.mem_cons_of_mem _ hj)
  · intro x hx
    rcases List.mem_cons.mp hx with rfl | hx
    · have hi : i ∈ jobs := h.names.subset (by simp [Pool.names])
      rw [h.waiting i (by simp)]
      exact ⟨hind.confined i hi, rfl⟩
    · exact h.running x hx

theorem Mirrors.finish {a : α} (h : Mirrors station work region own jobs old view
      ⟨waiting, running ++ (i, .done a) :: running', finished, d⟩) :
    Mirrors station work region own jobs old view
      ⟨waiting, running ++ running', finished ++ [(i, a)], d⟩ := by
  refine ⟨names_finish.trans h.names, h.waiting, fun x hx => h.running x ?_, ?_, h.agree, h.elsewhere⟩
  · rcases List.mem_append.mp hx with hx | hx <;> simp [hx]
  · intro x hx
    rcases List.mem_append.mp hx with hx | hx
    · exact h.finished x hx
    · rw [List.mem_singleton.mp hx]
      exact (h.running (i, .done a) (by simp)).2

/-- A job stands in a pool once. -/
theorem Mirrors.once (hind : Independent station work region own jobs old) {t : Task α}
    (h : Mirrors station work region own jobs old view
      ⟨waiting, running ++ (i, t) :: running', finished, d⟩) :
    i ∉ waiting ∧ i ∉ (running ++ running').map (·.1) ∧ i ∉ finished.map (·.1) := by
  have hnodup : (Pool.names ⟨waiting, running ++ (i, t) :: running', finished, d⟩).Nodup :=
    h.names.nodup_iff.mpr hind.nodup
  have hone := List.nodup_iff_count_le_one.mp hnodup i
  simp only [Pool.names, List.map_append, List.map_cons, List.count_append,
    List.count_cons_self] at hone
  refine ⟨List.count_eq_zero.mp (by omega), List.count_eq_zero.mp ?_,
    List.count_eq_zero.mp (by omega)⟩
  rw [List.map_append, List.count_append]
  omega

/-- An operation is also performed on what its job sees alone. No other job sees what it changes. -/
theorem Mirrors.perform (hind : Independent station work region own jobs old) {op : Operation}
    {next : op.Reply → Task α} (h : Mirrors station work region own jobs old view
      ⟨waiting, running ++ (i, .step op next) :: running', finished, d⟩) :
    Mirrors station work region own jobs old
      (Function.update view i (station.reply (view i) op).2)
      ⟨waiting, running ++ (i, next (station.reply d op).1) :: running', finished,
        (station.reply d op).2⟩ := by
  have hi : i ∈ jobs := h.names.subset (by simp [Pool.names])
  obtain ⟨⟨hop, hnext⟩, hends⟩ := h.running (i, .step op next) (by simp)
  have hagree := h.agree i hi
  obtain ⟨hw, hr, hf⟩ := h.once hind
  refine ⟨(List.Perm.of_eq names_perform).trans h.names, fun j hj => ?_, fun x hx => ?_,
    fun x hx => ?_, fun j hj => ?_, fun l hl => ?_⟩
  · rw [Function.update_of_ne (ne_of_mem_of_not_mem hj hw)]
    exact h.waiting j hj
  · have hcases : x = (i, next (station.reply d op).1) ∨ x ∈ running ++ running' := by
      simpa [or_left_comm] using hx
    rcases hcases with rfl | hx
    · simp only [Function.update_self, hop.reply d hagree]
      exact ⟨hnext, hends⟩
    · rw [Function.update_of_ne (ne_of_mem_of_not_mem (List.mem_map_of_mem hx) hr)]
      exact h.running x (by rcases List.mem_append.mp hx with hx | hx <;> simp [hx])
  · rw [Function.update_of_ne (ne_of_mem_of_not_mem (List.mem_map_of_mem hx) hf)]
    exact h.finished x hx
  · by_cases hji : j = i
    · subst hji
      rw [Function.update_self]
      exact hop.agree d hagree
    · rw [Function.update_of_ne hji]
      intro l hl
      rw [hop.elsewhere d hagree l fun ho => hind.apart i hi j hj (Ne.symm hji) l ho hl]
      exact h.agree j hj l hl
  · rw [hop.elsewhere d hagree l (hl i hi)]
    exact h.elsewhere l hl

end

/-- One step of a pool keeps the views, but for that of the job whose operation is performed. -/
theorem Mirrors.step [DecidableEq ι] (hind : Independent station work region own jobs old)
    {view : ι → Disk} (h : Mirrors station work region own jobs old view pool)
    (hs : Step station work bound pool next) :
    ∃ view, Mirrors station work region own jobs old view next := by
  cases hs with
  | take => exact ⟨view, h.take hind⟩
  | perform => exact ⟨_, h.perform hind⟩
  | finish => exact ⟨view, h.finish⟩

theorem Mirrors.runs [DecidableEq ι] (hind : Independent station work region own jobs old)
    (hs : Runs station work bound pool last) {view : ι → Disk}
    (h : Mirrors station work region own jobs old view pool) :
    ∃ view, Mirrors station work region own jobs old view last := by
  induction hs generalizing view with
  | refl => exact ⟨view, h⟩
  | step hstep _ ih =>
    obtain ⟨view, h⟩ := h.step hind hstep
    exact ih h

/-- A pool that is done holds what every job comes to alone, and so does its disk. -/
theorem Mirrors.done {view : ι → Disk} (h : Mirrors station work region own jobs old view pool)
    (hdone : pool.IsDone) :
    pool.finished.Perm (jobs.map fun i => (i, ((work i).ends station old).1)) ∧
    (∀ i ∈ jobs, Agree (region i) pool.disk ((work i).ends station old).2) ∧
    ∀ l, (∀ i ∈ jobs, ¬ own i l) → pool.disk.at? l = old.at? l := by
  have hnames : (pool.finished.map (·.1)).Perm jobs := names_of_done hdone ▸ h.names
  have hfinished : pool.finished =
      (pool.finished.map (·.1)).map fun i => (i, ((work i).ends station old).1) := by
    rw [List.map_map]
    refine (List.map_id _).symm.trans (List.map_congr_left fun x hx => ?_)
    exact Prod.ext rfl (congrArg Prod.fst (h.finished x hx))
  refine ⟨?_, fun i hi => ?_, h.elsewhere⟩
  · rw [hfinished]
    exact hnames.map _
  · obtain ⟨x, hx, rfl⟩ := List.mem_map.mp (hnames.symm.subset hi)
    rw [← h.finished x hx]
    exact h.agree x.1 hi

/-- A task that is alone in being performed comes to its end. -/
theorem runs_task (t : Task α) (waiting : List ι) (i : ι) (after : List (ι × Task α))
    (finished : List (ι × α)) (d : Disk) :
    Runs station work bound ⟨waiting, (i, t) :: after, finished, d⟩
      ⟨waiting, after, finished ++ [(i, (t.ends station d).1)], (t.ends station d).2⟩ := by
  induction t generalizing d with
  | done a =>
    have hfinish : Step station work bound ⟨waiting, [] ++ (i, .done a) :: after, finished, d⟩
      ⟨waiting, [] ++ after, finished ++ [(i, a)], d⟩ := .finish
    exact .step hfinish .refl
  | step op next ih =>
    have hperform : Step station work bound ⟨waiting, [] ++ (i, .step op next) :: after, finished, d⟩
      ⟨waiting, [] ++ (i, next (station.reply d op).1) :: after, finished,
        (station.reply d op).2⟩ := .perform
    exact .step hperform (ih _ _)

theorem Runs.trans (h : Runs station work bound pool next) (h' : Runs station work bound next last) :
    Runs station work bound pool last := by
  induction h with
  | refl => exact h'
  | step hstep _ ih => exact .step hstep (ih h')

/-- A pool that takes up tasks at all can take up the first one and bring it to its end. -/
theorem runs_first (hb : 0 < bound) (i : ι) (waiting : List ι) (finished : List (ι × α))
    (d : Disk) :
    Runs station work bound ⟨i :: waiting, [], finished, d⟩
      ⟨waiting, [], finished ++ [(i, ((work i).ends station d).1)],
        ((work i).ends station d).2⟩ := by
  have htake : Step station work bound ⟨[] ++ i :: waiting, [], finished, d⟩
    ⟨[] ++ waiting, [(i, work i)], finished, d⟩ := .take hb
  exact .step htake (runs_task _ _ _ _ _ _)

/-- A pool that takes up tasks at all can always be brought to an end. -/
theorem exists_done (hb : 0 < bound) (pool : Pool ι α) :
    ∃ last, Runs station work bound pool last ∧ last.IsDone := by
  obtain ⟨waiting, running, finished, d⟩ := pool
  induction running generalizing finished d with
  | cons x running ih =>
    obtain ⟨last, hruns, hdone⟩ := ih _ _
    exact ⟨last, (runs_task x.2 waiting x.1 running finished d).trans hruns, hdone⟩
  | nil =>
    induction waiting generalizing finished d with
    | nil => exact ⟨_, .refl, rfl, rfl⟩
    | cons i waiting ih =>
      obtain ⟨last, hruns, hdone⟩ := ih _ _
      exact ⟨last, (runs_first hb i waiting finished d).trans hruns, hdone⟩

end Pool

end NavTree
