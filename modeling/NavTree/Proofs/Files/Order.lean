import NavTree.Files.Path

/-! # The order of paths

Paths are compared part by part. Only paths of the same parts are level with each other, so a list
of paths that has no two of them has one order.
-/
namespace NavTree

namespace PathPart

/-- What two parts of the same rank are told apart by. -/
def text : PathPart → String
  | name s => s
  | _ => ""

theorem compare_eq (a b : PathPart) :
    a.compare b = compareLex (compareOn rank) (compareOn text) a b := by
  cases a <;> cases b <;> rfl

theorem compare_eq_compareLex : PathPart.compare = compareLex (compareOn rank) (compareOn text) :=
  funext fun a => funext fun b => compare_eq a b

instance : Std.TransCmp PathPart.compare := by
  rw [compare_eq_compareLex]
  infer_instance

instance : Std.LawfulEqCmp PathPart.compare where
  eq_of_compare {a b} h := by
    rw [compare_eq, compareLex_eq_eq] at h
    have hrank : a.rank = b.rank := Std.LawfulEqOrd.eq_of_compare h.1
    have htext : a.text = b.text := Std.LawfulEqOrd.eq_of_compare h.2
    cases a <;> cases b <;> simp_all [rank, text]

end PathPart

namespace Path

theorem compareParts_eq (as bs : List PathPart) :
    compareParts as bs = as.compareLex PathPart.compare bs := by
  induction as generalizing bs with
  | nil => cases bs <;> rfl
  | cons a as ih =>
    cases bs with
    | nil => rfl
    | cons b bs => rw [compareParts, List.compareLex_cons_cons, ih]

theorem le_eq (p q : String) : le p q = ((parts p).compareLex PathPart.compare (parts q)).isLE := by
  rw [le, compareParts_eq]
  cases (parts p).compareLex PathPart.compare (parts q) <;> rfl

theorem le_trans {p q r : String} (h : le p q) (h' : le q r) : le p r := by
  rw [le_eq] at h h' ⊢
  exact Std.TransCmp.isLE_trans h h'

theorem le_total (p q : String) : le p q || le q p := by
  have hswap : (parts p).compareLex PathPart.compare (parts q) =
      ((parts q).compareLex PathPart.compare (parts p)).swap := Std.OrientedCmp.eq_swap
  rw [le_eq, le_eq, hswap]
  cases (parts q).compareLex PathPart.compare (parts p) <;> rfl

theorem parts_eq_of_le {p q : String} (h : le p q) (h' : le q p) : parts p = parts q := by
  rw [le_eq] at h h'
  exact Std.LawfulEqCmp.eq_of_compare (Std.OrientedCmp.isLE_antisymm h h')

end Path

end NavTree
