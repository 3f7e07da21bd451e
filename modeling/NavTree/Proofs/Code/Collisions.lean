import Mathlib.Data.List.Induction
import NavTree.Proofs.Code.Constants

/-! # Constants that are declared twice

The names that a list of declarations declares more than once are reported once each, in the order
of their second declarations. The routes file is warned about exactly if it has such a name.
-/
namespace NavTree

/-- How many of the declarations declare a constant of the name. -/
def timesDeclared (ds : List Declaration) (name : String) : Nat :=
  ds.countP (·.constantName? = some name)

/-- At the place the name is declared for the second time. -/
def DeclaredAgain (ds : List Declaration) (name : String) (place : Nat) : Prop :=
  (∃ d, ds[place]? = some d ∧ d.constantName? = some name) ∧ timesDeclared (ds.take place) name = 1

/-- The names of constants that are declared more than once: each one once, in the order of the
second declarations. -/
structure Collisions (ds : List Declaration) (names : List String) : Prop where
  nodup : names.Nodup
  mem_iff : ∀ name, name ∈ names ↔ 2 ≤ timesDeclared ds name
  ordered : names.Pairwise fun a b =>
    ∃ i j, DeclaredAgain ds a i ∧ DeclaredAgain ds b j ∧ i < j

variable {ds : List Declaration} {d : Declaration} {name : String} {place i j : Nat}

theorem timesDeclared_concat (ds : List Declaration) (d : Declaration) (name : String) :
    timesDeclared (ds ++ [d]) name =
      timesDeclared ds name + if d.constantName? = some name then 1 else 0 := by
  simp [timesDeclared, List.countP_singleton]

namespace DeclaredAgain

theorem lt_length (h : DeclaredAgain ds name place) : place < ds.length := by
  obtain ⟨⟨d, hd, -⟩, -⟩ := h
  exact (List.getElem?_eq_some_iff.mp hd).1

theorem append (h : DeclaredAgain ds name place) (later : List Declaration) :
    DeclaredAgain (ds ++ later) name place := by
  have hlt := h.lt_length
  obtain ⟨⟨d, hd, hname⟩, hbefore⟩ := h
  refine ⟨⟨d, ?_, hname⟩, ?_⟩
  · rwa [List.getElem?_append_left hlt]
  · rwa [List.take_append_of_le_length (Nat.le_of_lt hlt)]

theorem concat (hname : d.constantName? = some name) (h : timesDeclared ds name = 1) :
    DeclaredAgain (ds ++ [d]) name ds.length :=
  ⟨⟨d, List.getElem?_concat_length, hname⟩, by rwa [List.take_left]⟩

/-- Behind its second declaration a name is declared twice already. -/
theorem le (h : DeclaredAgain ds name i) (h' : DeclaredAgain ds name j) : j ≤ i := by
  obtain ⟨⟨d, hd, hname⟩, hbefore⟩ := h
  by_contra hlt
  have htwice : timesDeclared (ds.take (i + 1)) name = 2 := by
    rw [List.take_add_one, hd, Option.toList_some, timesDeclared_concat, hbefore, if_pos hname]
  have hle : timesDeclared (ds.take (i + 1)) name ≤ timesDeclared (ds.take j) name :=
    (List.take_sublist_take_left (Nat.lt_of_not_le hlt)).countP_le
  rw [htwice, h'.2] at hle
  omega

theorem place_eq (h : DeclaredAgain ds name i) (h' : DeclaredAgain ds name j) : i = j :=
  Nat.le_antisymm (h'.le h) (h.le h')

end DeclaredAgain

theorem exists_declaredAgain (h : 2 ≤ timesDeclared ds name) :
    ∃ place, DeclaredAgain ds name place := by
  induction ds using List.reverseRecOn with
  | nil => simp [timesDeclared] at h
  | append_singleton ds d ih =>
    by_cases hd : 2 ≤ timesDeclared ds name
    · obtain ⟨place, hplace⟩ := ih hd
      exact ⟨place, hplace.append [d]⟩
    · rw [timesDeclared_concat] at h
      split at h
      · next hname => exact ⟨ds.length, .concat hname (by omega)⟩
      · omega

namespace Collisions

variable {names names' : List String}

/-- The names, their number and their order are given by the declarations. -/
theorem unique (h : Collisions ds names) (h' : Collisions ds names') : names = names' := by
  have hperm : names.Perm names' := (List.perm_ext_iff_of_nodup h.nodup h'.nodup).mpr fun name =>
    (h.mem_iff name).trans (h'.mem_iff name).symm
  refine hperm.eq_of_pairwise ?_ h.ordered h'.ordered
  rintro a b - - ⟨i, j, ha, hb, hij⟩ ⟨j', i', hb', ha', hji⟩
  have hi : i = i' := ha.place_eq ha'
  have hj : j = j' := hb.place_eq hb'
  omega

theorem ordered_append (h : Collisions ds names) (later : List Declaration) :
    names.Pairwise fun a b =>
      ∃ i j, DeclaredAgain (ds ++ later) a i ∧ DeclaredAgain (ds ++ later) b j ∧ i < j :=
  h.ordered.imp fun ⟨i, j, ha, hb, hij⟩ => ⟨i, j, ha.append later, hb.append later, hij⟩

/-- A second declaration adds its name behind all others. -/
theorem concat (h : Collisions ds names) (hname : d.constantName? = some name)
    (honce : timesDeclared ds name = 1) : Collisions (ds ++ [d]) (names ++ [name]) where
  nodup := by
    have hnew : name ∉ names := fun hm => by
      have htwice := (h.mem_iff name).mp hm
      omega
    simpa using h.nodup.concat hnew
  mem_iff other := by
    rw [List.mem_append, List.mem_singleton, h.mem_iff, timesDeclared_concat, hname]
    by_cases ho : other = name
    · simp [ho, honce]
    · simp [ho, Ne.symm ho]
  ordered := by
    refine List.pairwise_append.mpr ⟨h.ordered_append [d], List.pairwise_singleton _ _, ?_⟩
    intro a ha b hb
    obtain rfl := List.mem_singleton.mp hb
    obtain ⟨i, hi⟩ := exists_declaredAgain ((h.mem_iff a).mp ha)
    exact ⟨i, ds.length, hi.append [d], .concat hname honce, hi.lt_length⟩

/-- Any other declaration adds nothing. -/
theorem keep (h : Collisions ds names)
    (hd : ∀ name, d.constantName? = some name → timesDeclared ds name ≠ 1) :
    Collisions (ds ++ [d]) names where
  nodup := h.nodup
  mem_iff other := by
    rw [h.mem_iff, timesDeclared_concat]
    split
    · next hname =>
      have hne := hd other hname
      omega
    · rfl
  ordered := h.ordered_append [d]

end Collisions

/-- A constant that is declared three times is reported with its second declaration only. -/
example : collidingConstants [.constant true "toFeed" "1", .constant true "toChat" "2",
    .namedImport ["toFeed"] "./feed", .constant true "toChat" "3", .constant true "toFeed" "4",
    .constant false "toChat" "5"] = ["toChat", "toFeed"] := by decide

end NavTree
