import NavTree.Proofs.Files.Order
import NavTree.Proofs.Project.Produced

/-! # Summaries

A summary is sorted by the paths of its sources. It does not show in which order the compilations
came to their ends, unless there are two for the same path.
-/
namespace NavTree

namespace Ending

variable {e : Ending} {s t : String}

def report? : Ending → Option FileReport
  | compiled report => some report
  | _ => none

def failure? : Ending → Option (String × ProjectFault)
  | failed source fault => some (source, fault)
  | _ => none

def isAborted : Ending → Bool
  | aborted => true
  | _ => false

theorem report?_eq_some {report : FileReport} :
    e.report? = some report ↔ e = .compiled report := by
  cases e <;> simp [report?]

theorem failure?_eq_some {failure : String × ProjectFault} :
    e.failure? = some failure ↔ e = .failed failure.1 failure.2 := by
  cases e <;> simp [failure?, Prod.ext_iff]

theorem IsOf.eq (h : e.IsOf s) (h' : e.IsOf t) : s = t := by
  cases e with
  | compiled report => exact h.symm.trans h'
  | failed source fault => exact h.symm.trans h'
  | aborted => exact h.elim

end Ending

namespace RunSummary

open NavTree.Path (parts)

variable {α : Type} {endings endings' : List Ending}

theorem foldl_add (endings : List Ending) (s : RunSummary) : endings.foldl add s =
    { s with
      compiled := s.compiled ++ endings.filterMap Ending.report?
      failed := s.failed ++ endings.filterMap Ending.failure?
      aborted := s.aborted + endings.countP Ending.isAborted } := by
  induction endings generalizing s with
  | nil => simp
  | cons e endings ih =>
    rw [List.foldl_cons, ih]
    cases e <;>
      simp [add, List.filterMap_cons, List.countP_cons, Ending.report?, Ending.failure?,
        Ending.isAborted, Nat.add_right_comm, Nat.add_assoc]

theorem ofEndings_eq (endings : List Ending) : ofEndings endings =
    ⟨(endings.filterMap Ending.report?).mergeSort fun a b => Path.le a.source b.source,
      (endings.filterMap Ending.failure?).mergeSort fun a b => Path.le a.1 b.1,
      endings.countP Ending.isAborted, []⟩ := by
  rw [ofEndings, foldl_add]
  simp [empty]

theorem sorted_mergeSort (path : α → String) (xs : List α) :
    (xs.mergeSort fun a b => Path.le (path a) (path b)).Pairwise
      fun a b => Path.le (path a) (path b) = true := by
  have htrans : ∀ a b c : α, Path.le (path a) (path b) = true → Path.le (path b) (path c) = true →
      Path.le (path a) (path c) = true := fun _ _ _ h h' => Path.le_trans h h'
  have htotal : ∀ a b : α, (Path.le (path a) (path b) || Path.le (path b) (path a)) = true :=
    fun _ _ => Path.le_total _ _
  exact List.pairwise_mergeSort htrans htotal xs

/-- Elements that paths tell apart are sorted in one way. -/
theorem mergeSort_eq {path : α → String} {xs ys : List α} (h : xs.Perm ys)
    (hone : ∀ a ∈ xs, ∀ b ∈ xs, parts (path a) = parts (path b) → a = b) :
    (xs.mergeSort fun a b => Path.le (path a) (path b)) =
      ys.mergeSort fun a b => Path.le (path a) (path b) := by
  have hperm := (List.mergeSort_perm xs fun a b => Path.le (path a) (path b)).trans
    (h.trans (List.mergeSort_perm ys fun a b => Path.le (path a) (path b)).symm)
  refine List.Perm.eq_of_pairwise (fun a b ha hb hab hba => ?_) (sorted_mergeSort path xs)
    (sorted_mergeSort path ys) hperm
  exact hone a (List.mem_mergeSort.mp ha) b (h.mem_iff.mpr (List.mem_mergeSort.mp hb))
    (Path.parts_eq_of_le hab hba)

/-- Endings of which no two are of the same path. -/
def Apart (endings : List Ending) : Prop :=
  ∀ e ∈ endings, ∀ e' ∈ endings, ∀ s t, e.IsOf s → e'.IsOf t → parts s = parts t → e = e'

theorem ofEndings_perm (h : endings.Perm endings') (hone : Apart endings) :
    ofEndings endings = ofEndings endings' := by
  have hreports : ∀ a ∈ endings.filterMap Ending.report?, ∀ b ∈ endings.filterMap Ending.report?,
      parts a.source = parts b.source → a = b := by
    intro a ha b hb he
    obtain ⟨x, hx, ha⟩ := List.mem_filterMap.mp ha
    obtain ⟨y, hy, hb⟩ := List.mem_filterMap.mp hb
    rw [Ending.report?_eq_some] at ha hb
    subst ha hb
    exact Ending.compiled.inj (hone _ hx _ hy _ _ rfl rfl he)
  have hfailures : ∀ a ∈ endings.filterMap Ending.failure?,
      ∀ b ∈ endings.filterMap Ending.failure?, parts a.1 = parts b.1 → a = b := by
    intro a ha b hb he
    obtain ⟨x, hx, ha⟩ := List.mem_filterMap.mp ha
    obtain ⟨y, hy, hb⟩ := List.mem_filterMap.mp hb
    rw [Ending.failure?_eq_some] at ha hb
    subst ha hb
    obtain ⟨h₁, h₂⟩ := Ending.failed.inj (hone _ hx _ hy _ _ rfl rfl he)
    exact Prod.ext h₁ h₂
  rw [ofEndings_eq, ofEndings_eq, mergeSort_eq (h.filterMap _) hreports,
    mergeSort_eq (h.filterMap _) hfailures, h.countP_eq]

theorem mem_compiled {report : FileReport} :
    report ∈ (ofEndings endings).compiled ↔ .compiled report ∈ endings := by
  simp only [ofEndings_eq, List.mem_mergeSort, List.mem_filterMap, Ending.report?_eq_some,
    exists_eq_right]

/-- A run succeeds if every source is compiled. -/
theorem isSuccess_ofEndings : (ofEndings endings).isSuccess = true ↔
    ∀ e ∈ endings, ∃ report, e = .compiled report := by
  have hfailed : (ofEndings endings).failed = [] ↔ ∀ e ∈ endings, e.failure? = none := by
    rw [← List.filterMap_eq_nil_iff, ofEndings_eq, ← List.length_eq_zero_iff,
      List.length_mergeSort, List.length_eq_zero_iff]
  have haborted : (ofEndings endings).aborted = 0 ↔ ∀ e ∈ endings, ¬ e.isAborted = true := by
    rw [ofEndings_eq, List.countP_eq_zero]
  rw [isSuccess, Bool.and_eq_true, List.isEmpty_iff, beq_iff_eq, hfailed, haborted,
    ← forall₂_and]
  refine forall₂_congr fun e _ => ?_
  cases e <;> simp [Ending.failure?, Ending.isAborted]

theorem ofEndings_sorted (endings : List Ending) :
    ((ofEndings endings).compiled.Pairwise fun a b => Path.le a.source b.source = true) ∧
      (ofEndings endings).failed.Pairwise fun a b => Path.le a.1 b.1 = true := by
  rw [ofEndings_eq]
  exact ⟨sorted_mergeSort FileReport.source _, sorted_mergeSort Prod.fst _⟩

end RunSummary

end NavTree
