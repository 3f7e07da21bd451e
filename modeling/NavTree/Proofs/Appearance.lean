import Mathlib.Data.List.Induction
import Mathlib.Data.List.Nodup

/-! # First appearances

Without its repetitions a list holds every element where it first appears. An element at the end
of a list is new or leaves no trace.
-/
namespace NavTree

variable {α : Type} [BEq α] [LawfulBEq α]

theorem eraseDups_concat (l : List α) (a : α) :
    (l ++ [a]).eraseDups = if a ∈ l then l.eraseDups else l.eraseDups ++ [a] := by
  rw [List.eraseDups_append, List.removeAll]
  split <;> simp [List.eraseDups_cons, *]

theorem nodup_eraseDups (l : List α) : l.eraseDups.Nodup := by
  induction l using List.reverseRecOn with
  | nil => exact List.nodup_nil
  | append_singleton l a ih =>
    rw [eraseDups_concat]
    split
    · exact ih
    · next hnew => simpa using ih.concat (mt List.mem_eraseDups.mp hnew)

end NavTree
