import Mathlib.Data.List.Basic
import Mathlib.Data.List.Flatten
import NavTree.Proofs.Tree.Nodes
import NavTree.Proofs.Tree.Placed

/-! # Depth-first listings

The nodes below the navigators with their places, in depth-first declaration order. Read from the
top-level list down, places in this order grow lexicographically, so a listing is fixed by what it
lists: it is sorted, and it lists what is read at a place exactly when this stands in the tree.
-/
namespace NavTree

namespace Place

/-- The indices from the top-level list down to a place. -/
def path (p : Place) : List Nat := p.index :: p.children.reverse

variable {p q r : Place} {spot : Nat → Place} {i j : Nat}

theorem path_down (p : Place) (way : List Nat) : (p.down way).path = p.path ++ way := by
  rw [down_eq, path, path, List.reverse_append, List.reverse_reverse]
  rfl

theorem Within.path_eq (h : q.Within p) : ∃ way, q.path = p.path ++ way := by
  obtain ⟨way, rfl⟩ := h
  exact ⟨way, p.path_down way⟩

theorem Row.exists_path (h : Row spot) : ∃ before, ∀ i, (spot i).path = before ++ [i] := by
  cases h with
  | top declared => exact ⟨[], fun i => rfl⟩
  | inside p => exact ⟨p.path, fun i => p.path_down [i]⟩

/-- What lies in an earlier spot of a row comes first. -/
theorem Row.path_lt (h : Row spot) (hij : i < j) (hq : q.Within (spot i))
    (hr : r.Within (spot j)) : q.path < r.path := by
  obtain ⟨before, hpath⟩ := h.exists_path
  obtain ⟨way, hq⟩ := hq.path_eq
  obtain ⟨way', hr⟩ := hr.path_eq
  rw [hq, hr, hpath, hpath, List.append_assoc, List.append_assoc]
  exact List.append_left_lt (List.cons_lt_cons_iff.mpr (.inl hij))

/-- A place comes before those further down. -/
theorem path_lt_of_within_child (h : q.Within (p.child i)) : p.path < q.path := by
  obtain ⟨way, hq⟩ := h.path_eq
  have hchild : (p.child i).path = p.path ++ [i] := p.path_down [i]
  rw [hq, hchild, List.append_assoc]
  conv_lhs => rw [← List.append_nil p.path]
  exact List.append_left_lt (List.nil_lt_cons _ _)

end Place

namespace Node

mutual

/-- A node that stands at `p` and all that is below it, with their places. -/
def listAt (p : Place) : Node → List (Place × Node)
  | navigator head inside => (p, navigator head inside) :: listFrom p.child 0 inside
  | group g => (p, group g) :: g.children.zipIdx.map fun a => (p.child a.2, screen a.1)
  | screen s => [(p, screen s)]

/-- The same for the nodes at the spots from index `i` on. -/
def listFrom (spot : Nat → Place) : Nat → List Node → List (Place × Node)
  | _, [] => []
  | i, n :: rest => listAt (spot i) n ++ listFrom spot (i + 1) rest

end

variable {p : Place} {spot : Nat → Place}

theorem listFrom_eq (spot : Nat → Place) (i : Nat) (nodes : List Node) :
    listFrom spot i nodes = (nodes.zipIdx i).flatMap fun a => listAt (spot a.2) a.1 := by
  induction nodes generalizing i with
  | nil => rfl
  | cons n rest ih => rw [listFrom, ih, List.zipIdx_cons, List.flatMap_cons]

theorem listAt_eq (p : Place) (n : Node) :
    n.listAt p = (p, n) :: listFrom p.child 0 n.children := by
  cases n with
  | navigator head inside => rw [listAt, children]
  | group g =>
    rw [listFrom_eq, listAt, children, List.zipIdx_map, List.flatMap_map, List.map_eq_flatMap]
    rfl
  | screen s => rfl

theorem mem_listFrom {nodes : List Node} {a : Place × Node} :
    a ∈ listFrom spot 0 nodes ↔ ∃ i n, nodes[i]? = some n ∧ a ∈ listAt (spot i) n := by
  rw [listFrom_eq, List.mem_flatMap]
  constructor
  · rintro ⟨⟨n, i⟩, hn, ha⟩
    exact ⟨i, n, List.mem_zipIdx_iff_getElem?.mp hn, ha⟩
  · rintro ⟨i, n, hn, ha⟩
    exact ⟨(n, i), List.mem_zipIdx_iff_getElem?.mpr hn, ha⟩

/-- A node is listed with a place exactly when a way down leads to it there. -/
theorem mem_listAt {n m : Node} {q : Place} :
    (q, m) ∈ n.listAt p ↔ ∃ way, q = p.down way ∧ n.at? way = some m := by
  induction n using induct generalizing p with
  | h n ih =>
    rw [listAt_eq, List.mem_cons, mem_listFrom]
    constructor
    · rintro (h | ⟨i, c, hc, h⟩)
      · obtain ⟨rfl, rfl⟩ := Prod.mk.inj h
        exact ⟨[], rfl, rfl⟩
      · obtain ⟨way, rfl, hat⟩ := (ih c (List.mem_of_getElem? hc)).mp h
        exact ⟨i :: way, rfl, Option.bind_eq_some_iff.mpr ⟨c, hc, hat⟩⟩
    · rintro ⟨way, rfl, hat⟩
      cases way with
      | nil => exact .inl (Prod.ext rfl (Option.some.inj hat).symm)
      | cons i way =>
        obtain ⟨c, hc, hat⟩ := Option.bind_eq_some_iff.mp hat
        exact .inr ⟨i, c, hc, (ih c (List.mem_of_getElem? hc)).mpr ⟨way, rfl, hat⟩⟩

theorem within_of_mem_listAt {n : Node} {a : Place × Node} (h : a ∈ n.listAt p) :
    a.1.Within p := by
  obtain ⟨way, hq, -⟩ := mem_listAt.mp h
  exact ⟨way, hq⟩

/-- Places grow along a listing. -/
def Sorted {α : Type} (listed : List (Place × α)) : Prop :=
  listed.Pairwise fun a b => a.1.path < b.1.path

theorem sorted_listFrom {nodes : List Node} (hspot : Place.Row spot)
    (h : ∀ n ∈ nodes, ∀ p, Sorted (n.listAt p)) : Sorted (listFrom spot 0 nodes) := by
  rw [listFrom_eq, Sorted, List.pairwise_flatMap]
  refine ⟨fun a ha => h a.1 (List.fst_mem_of_mem_zipIdx ha) _, ?_⟩
  exact (pairwise_index_lt nodes).imp fun hij x hx y hy =>
    hspot.path_lt hij (within_of_mem_listAt hx) (within_of_mem_listAt hy)

theorem sorted_listAt (n : Node) : ∀ p, Sorted (n.listAt p) := by
  induction n using induct with
  | h n ih =>
    intro p
    rw [listAt_eq, Sorted, List.pairwise_cons]
    refine ⟨fun a ha => ?_, sorted_listFrom (.inside p) ih⟩
    obtain ⟨i, c, -, ha⟩ := mem_listFrom.mp ha
    exact Place.path_lt_of_within_child (within_of_mem_listAt ha)

theorem map_snd_listFrom {nodes : List Node} (spot : Nat → Place)
    (h : ∀ n ∈ nodes, ∀ p, (n.listAt p).map (·.2) = n.all) :
    (listFrom spot 0 nodes).map (·.2) = nodes.flatMap all := by
  rw [listFrom_eq, List.map_flatMap]
  conv_rhs => rw [← List.zipIdx_map_fst 0 nodes, List.flatMap_map]
  exact List.flatMap_congr fun a ha => h a.1 (List.fst_mem_of_mem_zipIdx ha) _

theorem map_snd_listAt (n : Node) : ∀ p, (n.listAt p).map (·.2) = n.all := by
  induction n using induct with
  | h n ih =>
    intro p
    rw [listAt_eq, List.map_cons, map_snd_listFrom _ ih, all_eq]

end Node

/-- What is read of the nodes below the navigators, at their places and in depth-first declaration
order. -/
structure Tree.Lists {α : Type} (t : Tree) (read : Node → Option α) (listed : List (Place × α)) :
    Prop where
  mem_iff : ∀ p a, (p, a) ∈ listed ↔
    p.declared = false ∧ ∃ n, t.nodeAt? p = some n ∧ read n = some a
  sorted : Node.Sorted listed

namespace Tree

variable {α : Type} {t : Tree} {p : Place} {n : Node} {read : Node → Option α}

def listed (t : Tree) : List (Place × Node) :=
  Node.listFrom (fun i => ⟨false, i, []⟩) 0 (t.navigators.map Navigator.node)

def listedBy (t : Tree) (read : Node → Option α) : List (Place × α) :=
  t.listed.filterMap fun a => (read a.2).map (a.1, ·)

theorem mem_listed : (p, n) ∈ t.listed ↔ p.declared = false ∧ t.nodeAt? p = some n := by
  rw [listed, Node.mem_listFrom, nodeAt?]
  constructor
  · rintro ⟨i, top, htop, h⟩
    obtain ⟨way, rfl, hat⟩ := Node.mem_listAt.mp h
    rw [Place.down_eq]
    refine ⟨rfl, ?_⟩
    simpa [tops, htop] using hat
  · rintro ⟨hp, h⟩
    obtain ⟨top, htop, hat⟩ := Option.bind_eq_some_iff.mp h
    obtain ⟨declared, i, children⟩ := p
    subst hp
    refine ⟨i, top, htop, Node.mem_listAt.mpr ⟨children.reverse, ?_, hat⟩⟩
    rw [Place.down_eq, List.reverse_reverse, List.append_nil]

theorem sorted_listed (t : Tree) : Node.Sorted t.listed :=
  Node.sorted_listFrom (.top false) fun n _ => n.sorted_listAt

theorem map_snd_listed (t : Tree) : t.listed.map (·.2) = t.nodes :=
  Node.map_snd_listFrom _ fun n _ => n.map_snd_listAt

theorem lists (t : Tree) (read : Node → Option α) : t.Lists read (t.listedBy read) where
  mem_iff p a := by
    rw [listedBy, List.mem_filterMap]
    constructor
    · rintro ⟨⟨q, n⟩, hmem, h⟩
      obtain ⟨b, hread, h⟩ := Option.map_eq_some_iff.mp h
      obtain ⟨rfl, rfl⟩ := Prod.mk.inj h
      obtain ⟨hp, hn⟩ := mem_listed.mp hmem
      exact ⟨hp, n, hn, hread⟩
    · rintro ⟨hp, n, hn, hread⟩
      exact ⟨(p, n), mem_listed.mpr ⟨hp, hn⟩, by rw [hread]; rfl⟩
  sorted := by
    refine t.sorted_listed.filterMap _ ?_
    rintro a b hlt a' ha b' hb
    obtain ⟨x, -, rfl⟩ := Option.map_eq_some_iff.mp ha
    obtain ⟨y, -, rfl⟩ := Option.map_eq_some_iff.mp hb
    exact hlt

theorem map_snd_listedBy (t : Tree) (read : Node → Option α) :
    (t.listedBy read).map (·.2) = t.nodes.filterMap read := by
  rw [listedBy, List.map_filterMap, ← map_snd_listed, List.filterMap_map]
  refine List.filterMap_congr fun a _ => ?_
  simp [Function.comp_def]

end Tree

namespace Tree.Lists

variable {α : Type} {t : Tree} {read : Node → Option α} {listed listed' : List (Place × α)}

theorem nodup (h : t.Lists read listed) : listed.Nodup := by
  refine h.sorted.imp ?_
  rintro a b hlt rfl
  exact List.lt_irrefl _ hlt

/-- There is one listing of what is read. -/
theorem unique (h : t.Lists read listed) (h' : t.Lists read listed') : listed = listed' := by
  have hperm : listed.Perm listed' := (List.perm_ext_iff_of_nodup h.nodup h'.nodup).mpr
    fun a => (h.mem_iff a.1 a.2).trans (h'.mem_iff a.1 a.2).symm
  exact hperm.eq_of_pairwise
    (fun a b _ _ hab hba => absurd hba (List.lt_asymm hab)) h.sorted h'.sorted

/-- A container comes before what is in it. -/
theorem outer_first (h : t.Lists read listed) :
    listed.Pairwise fun a b => ¬ a.1.Within b.1 := by
  refine h.sorted.imp ?_
  intro a b hlt hin
  obtain ⟨way, hpath⟩ := hin.path_eq
  have hprefix : b.1.path <+: a.1.path := ⟨way, hpath.symm⟩
  exact List.not_lt.mpr hprefix.le hlt

end Tree.Lists

end NavTree
