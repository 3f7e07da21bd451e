import NavTree.Proofs.Tree.Position
import NavTree.Proofs.Tree.RootNames

/-! # Places of flattened navigators

The list of navigators with the place of each. A place stands there when a navigator stands in it,
it stands there once, and no place comes before one that lies further down.
-/
namespace NavTree

namespace Place

/-- The place at the end of a way down, the indices of the outer children first. -/
def down (p : Place) (path : List Nat) : Place := path.foldl child p

/-- One place is another, or lies further down. -/
def Within (p q : Place) : Prop := ∃ path, p = q.down path

variable {p q r : Place} {i j : Nat}

theorem down_eq (p : Place) (path : List Nat) :
    p.down path = { p with children := path.reverse ++ p.children } := by
  induction path generalizing p with
  | nil => rfl
  | cons i rest ih =>
    have hstep : p.down (i :: rest) = (p.child i).down rest := rfl
    rw [hstep, ih, child, List.reverse_cons, List.append_assoc]
    rfl

theorem down_append (p : Place) (path rest : List Nat) :
    p.down (path ++ rest) = (p.down path).down rest := List.foldl_append

theorem Within.refl (p : Place) : p.Within p := ⟨[], rfl⟩

theorem Within.trans (h : p.Within q) (hq : q.Within r) : p.Within r := by
  obtain ⟨path, rfl⟩ := h
  obtain ⟨way, rfl⟩ := hq
  exact ⟨way ++ path, (r.down_append way path).symm⟩

theorem child_within (p : Place) (i : Nat) : (p.child i).Within p := ⟨[i], rfl⟩

theorem Within.length_le (h : p.Within q) : q.children.length ≤ p.children.length := by
  obtain ⟨path, rfl⟩ := h
  rw [down_eq, List.length_append]
  exact Nat.le_add_left _ _

theorem not_within_child (p : Place) (i : Nat) : ¬ p.Within (p.child i) := by
  intro h
  have hle := h.length_le
  rw [child, List.length_cons] at hle
  omega

/-- Spots side by side: what lies in one of them lies in no other. -/
def Apart (spot : Nat → Place) : Prop :=
  ∀ (i j : Nat) (q : Place), q.Within (spot i) → q.Within (spot j) → i = j

theorem child_apart (p : Place) : Apart p.child := by
  rintro i j q ⟨path, rfl⟩ ⟨path', h⟩
  rw [down_eq, down_eq] at h
  have hchildren : path.reverse ++ i :: p.children = path'.reverse ++ j :: p.children :=
    (Place.mk.inj h).2.2
  have hlength : path.reverse.length = path'.reverse.length := by
    simpa using congrArg List.length hchildren
  exact (List.cons.inj (List.append_inj hchildren hlength).2).1

theorem top_apart (declared : Bool) : Apart fun i => ⟨declared, i, []⟩ := by
  rintro i j q ⟨path, rfl⟩ ⟨path', h⟩
  rw [down_eq, down_eq] at h
  exact (Place.mk.inj h).2.1

/-- The spots of one row: those of a top-level list, or those directly inside one place. -/
inductive Row : (Nat → Place) → Prop
  | top (declared : Bool) : Row fun i => ⟨declared, i, []⟩
  | inside (p : Place) : Row p.child

theorem Row.apart {spot : Nat → Place} (h : Row spot) : Apart spot := by
  cases h with
  | top declared => exact top_apart declared
  | inside p => exact p.child_apart

end Place

namespace Node

mutual

/-- The placed navigators with their places, when the node stands at `p`. -/
def placeAt (placed : List (Place × Navigator)) (p : Place) : Node → List (Place × Navigator)
  | .navigator head children =>
    placeListAt [] p.child 0 children ++ placed ++ [(p, ⟨head, children⟩)]
  | .group _ => placed
  | .screen _ => placed

/-- The same for the nodes at the spots from index `i` on. -/
def placeListAt (placed : List (Place × Navigator)) (spot : Nat → Place) :
    Nat → List Node → List (Place × Navigator)
  | _, [] => placed
  | i, n :: rest => placeListAt (placeAt placed (spot i) n) spot (i + 1) rest

end

mutual

theorem map_snd_placeAt (placed : List (Place × Navigator)) (p : Place) : ∀ node : Node,
    (placeAt placed p node).map (·.2) = place (placed.map (·.2)) node
  | .navigator head children => by
    have ih := map_snd_placeListAt [] p.child 0 children
    rw [placeAt, place, List.map_append, List.map_append, ih]
    rfl
  | .group _ => rfl
  | .screen _ => rfl

theorem map_snd_placeListAt (placed : List (Place × Navigator)) (spot : Nat → Place) :
    ∀ (i : Nat) (nodes : List Node),
      (placeListAt placed spot i nodes).map (·.2) = placeList (placed.map (·.2)) nodes
  | _, [] => rfl
  | i, n :: rest => by
    rw [placeListAt, placeList, map_snd_placeListAt _ spot (i + 1) rest,
      map_snd_placeAt placed (spot i) n]

end

/-- A way down leads to a navigator of a group nowhere. -/
theorem group_at?_ne (g : Group) (path : List Nat) (n : Navigator) :
    (Node.group g).at? path ≠ some n.node := by
  intro h
  match path with
  | [] => cases h
  | i :: rest =>
    rw [at?, children, List.getElem?_map] at h
    cases hs : g.children[i]? with
    | none => simp [hs] at h
    | some s => cases rest <;> simp [hs, at?, children, Navigator.node] at h

theorem screen_at?_ne (s : Screen) (path : List Nat) (n : Navigator) :
    (Node.screen s).at? path ≠ some n.node := by
  intro h
  match path with
  | [] => cases h
  | i :: rest => cases h

variable {p : Place} {spot : Nat → Place} {i : Nat}

/-- What a node adds to the list: the navigators down from it, each with its place. -/
def Adds (p : Place) (node : Node) (q : Place) (m : Navigator) : Prop :=
  ∃ path, q = p.down path ∧ node.at? path = some m.node

/-- What nodes at spots side by side add. -/
def AddAll (spot : Nat → Place) (i : Nat) (nodes : List Node) (q : Place) (m : Navigator) : Prop :=
  ∃ j node, nodes[j]? = some node ∧ Adds (spot (i + j)) node q m

theorem addAll_cons {node : Node} {rest : List Node} {q : Place} {m : Navigator} :
    AddAll spot i (node :: rest) q m ↔ Adds (spot i) node q m ∨ AddAll spot (i + 1) rest q m := by
  constructor
  · rintro ⟨j, n, hn, h⟩
    cases j with
    | zero => exact .inl (Option.some.inj hn ▸ h)
    | succ j => exact .inr ⟨j, n, hn, by rwa [Nat.add_right_comm, Nat.add_assoc]⟩
  · rintro (h | ⟨j, n, hn, h⟩)
    · exact ⟨0, node, rfl, h⟩
    · exact ⟨j + 1, n, hn, by rwa [Nat.add_right_comm, Nat.add_assoc] at h⟩

theorem adds_navigator {head : NavigatorHead} {children : List Node} {q : Place} {m : Navigator} :
    Adds p (.navigator head children) q m ↔
      AddAll p.child 0 children q m ∨ (q, m) = (p, ⟨head, children⟩) := by
  constructor
  · rintro ⟨path, rfl, h⟩
    cases path with
    | nil =>
      cases m
      obtain ⟨rfl, rfl⟩ := Node.navigator.inj (Option.some.inj h)
      exact .inr rfl
    | cons i rest =>
      obtain ⟨node, hnode, h⟩ := Option.bind_eq_some_iff.mp h
      exact .inl ⟨i, node, hnode, rest, by rw [Nat.zero_add]; rfl, h⟩
  · rintro (⟨j, node, hnode, path, rfl, h⟩ | h)
    · refine ⟨j :: path, by rw [Nat.zero_add]; rfl, ?_⟩
      exact Option.bind_eq_some_iff.mpr ⟨node, hnode, h⟩
    · obtain ⟨rfl, rfl⟩ := Prod.mk.inj h
      exact ⟨[], rfl, rfl⟩

mutual

theorem mem_placeAt (placed : List (Place × Navigator)) (p q : Place) (m : Navigator) :
    ∀ node : Node, (q, m) ∈ placeAt placed p node ↔ (q, m) ∈ placed ∨ Adds p node q m
  | .navigator head children => by
    have ih := mem_placeListAt [] p.child q m 0 children
    rw [placeAt, List.mem_append, List.mem_append, ih, List.mem_singleton, adds_navigator]
    simp only [List.not_mem_nil, false_or]
    rw [or_comm (a := AddAll p.child 0 children q m), or_assoc]
  | .group g => by
    have hnone : ¬ Adds p (.group g) q m := fun ⟨path, _, h⟩ => group_at?_ne g path m h
    rw [placeAt, or_iff_left hnone]
  | .screen s => by
    have hnone : ¬ Adds p (.screen s) q m := fun ⟨path, _, h⟩ => screen_at?_ne s path m h
    rw [placeAt, or_iff_left hnone]

theorem mem_placeListAt (placed : List (Place × Navigator)) (spot : Nat → Place) (q : Place)
    (m : Navigator) : ∀ (i : Nat) (nodes : List Node),
      (q, m) ∈ placeListAt placed spot i nodes ↔ (q, m) ∈ placed ∨ AddAll spot i nodes q m
  | _, [] => by simp [placeListAt, AddAll]
  | i, n :: rest => by
    rw [placeListAt, mem_placeListAt _ spot q m (i + 1) rest, mem_placeAt placed (spot i) q m n,
      or_assoc, addAll_cons]

end

/-- What holds from each place to the ones placed after it: from a nested place to the place around
it and to all that lies outside of this one, and from an earlier spot of a row to a later one. -/
structure PlacedBefore (R : Place → Place → Prop) : Prop where
  outer : ∀ {p q : Place} {i : Nat}, q.Within (p.child i) → R q p
  outside : ∀ {p q r : Place} {i : Nat}, q.Within (p.child i) → ¬ r.Within p → R q r
  row : ∀ {spot : Nat → Place} {q : Place} {i j : Nat}, Place.Row spot → i < j →
    q.Within (spot i) → R q (spot j)

theorem Adds.within {node : Node} {q : Place} {m : Navigator} (h : Adds p node q m) :
    q.Within p := h.imp fun _ h => h.1

theorem AddAll.within {nodes : List Node} {q : Place} {m : Navigator}
    (h : AddAll spot i nodes q m) : ∃ j, q.Within (spot j) := by
  obtain ⟨j, node, _, h⟩ := h
  exact ⟨i + j, h.within⟩

section Pairwise

variable {R : Place → Place → Prop}

mutual

/-- A node keeps the order of the list if the places so far come before its place and none of them
lies in it. -/
theorem placeAt_pairwise (hR : PlacedBefore R) {placed : List (Place × Navigator)} {p : Place}
    (hplaced : placed.Pairwise fun a b => R a.1 b.1) (hin : ∀ a ∈ placed, ¬ a.1.Within p)
    (hbefore : ∀ a ∈ placed, R a.1 p) : ∀ node : Node,
      (placeAt placed p node).Pairwise fun a b => R a.1 b.1
  | .navigator head children => by
    have hinside : (placeListAt [] p.child 0 children).Pairwise fun a b => R a.1 b.1 :=
      placeListAt_pairwise hR (.inside p) .nil 0 (by simp) children
    have hwithin : ∀ a ∈ placeListAt [] p.child 0 children, ∃ j, a.1.Within (p.child j) := by
      rintro ⟨q, m⟩ ha
      rcases (mem_placeListAt [] p.child q m 0 children).mp ha with h | h
      · cases h
      · exact h.within
    rw [placeAt, List.append_assoc, List.pairwise_append, List.pairwise_append]
    refine ⟨hinside, ⟨hplaced, List.pairwise_singleton _ _, ?_⟩, ?_⟩
    · intro a ha b hb
      obtain rfl := List.mem_singleton.mp hb
      exact hbefore a ha
    · intro a ha b hb
      obtain ⟨j, hj⟩ := hwithin a ha
      rcases List.mem_append.mp hb with hb | hb
      · exact hR.outside hj (hin b hb)
      · obtain rfl := List.mem_singleton.mp hb
        exact hR.outer hj
  | .group _ => hplaced
  | .screen _ => hplaced

/-- The nodes of a row keep it if the places so far lie in earlier spots. -/
theorem placeListAt_pairwise (hR : PlacedBefore R) {placed : List (Place × Navigator)}
    {spot : Nat → Place} (hspot : Place.Row spot)
    (hplaced : placed.Pairwise fun a b => R a.1 b.1) (i : Nat)
    (hearlier : ∀ a ∈ placed, ∃ j, j < i ∧ a.1.Within (spot j)) : ∀ nodes : List Node,
      (placeListAt placed spot i nodes).Pairwise fun a b => R a.1 b.1
  | [] => hplaced
  | n :: rest => by
    have hin : ∀ a ∈ placed, ¬ a.1.Within (spot i) := by
      intro a ha hi
      obtain ⟨j, hlt, hj⟩ := hearlier a ha
      have heq : j = i := hspot.apart j i a.1 hj hi
      omega
    have hbefore : ∀ a ∈ placed, R a.1 (spot i) := by
      intro a ha
      obtain ⟨j, hlt, hj⟩ := hearlier a ha
      exact hR.row hspot hlt hj
    have hnode := placeAt_pairwise hR hplaced hin hbefore n
    refine placeListAt_pairwise hR hspot hnode (i + 1) ?_ rest
    rintro ⟨q, m⟩ ha
    rcases (mem_placeAt placed (spot i) q m n).mp ha with ha | h
    · obtain ⟨j, hlt, hj⟩ := hearlier _ ha
      exact ⟨j, Nat.lt_succ_of_lt hlt, hj⟩
    · exact ⟨i, Nat.lt_succ_self i, h.within⟩

end

end Pairwise

/-- No place comes before itself or before one that lies further down. -/
def InnerFirst (placed : List (Place × Navigator)) : Prop :=
  placed.Pairwise fun a b => ¬ b.1.Within a.1

/-- A place lies in itself, so it comes once. -/
theorem InnerFirst.places_nodup {placed : List (Place × Navigator)} (h : InnerFirst placed) :
    (placed.map (·.1)).Nodup := by
  rw [List.Nodup, List.pairwise_map]
  refine List.Pairwise.imp ?_ h
  rintro ⟨p, n⟩ ⟨q, m⟩ hpq (rfl : p = q)
  exact hpq (.refl p)

theorem placedBefore_innerFirst : PlacedBefore fun q r => ¬ r.Within q where
  outer h hin := Place.not_within_child _ _ (hin.trans h)
  outside h hout hin := hout (hin.trans (h.trans (Place.child_within _ _)))
  row hspot hlt h hin := by
    have heq := hspot.apart _ _ _ (hin.trans h) (.refl _)
    omega

end Node

namespace Tree

variable {t : Tree} {p : Place} {n : Navigator}

/-- The navigators of a tree, nested ones first, each with its place. -/
def placed (t : Tree) : List (Place × Navigator) :=
  Node.placeListAt [] (fun i => ⟨false, i, []⟩) 0 (t.navigators.map Navigator.node)

theorem map_snd_placed (t : Tree) : t.placed.map (·.2) = t.placedNavigators :=
  Node.map_snd_placeListAt [] _ 0 _

/-- No navigator stands in a declared group. -/
theorem not_declared (h : t.nodeAt? p = some n.node) : p.declared = false := by
  cases hp : p.declared with
  | false => rfl
  | true =>
    rw [nodeAt?, hp] at h
    obtain ⟨top, htop, h⟩ := Option.bind_eq_some_iff.mp h
    obtain ⟨g, _, rfl⟩ := List.mem_map.mp (List.mem_of_getElem? htop)
    exact absurd h (Node.group_at?_ne g _ n)

/-- A place is listed with a navigator exactly when this navigator stands in it. -/
theorem mem_placed : (p, n) ∈ t.placed ↔ t.nodeAt? p = some n.node := by
  rw [placed, Node.mem_placeListAt, nodeAt?]
  simp only [List.not_mem_nil, false_or]
  constructor
  · rintro ⟨i, node, hnode, path, rfl, h⟩
    rw [Nat.zero_add, Place.down_eq]
    simpa [tops, hnode] using h
  · intro h
    have hp : p.declared = false := not_declared h
    obtain ⟨top, htop, h⟩ := Option.bind_eq_some_iff.mp h
    obtain ⟨declared, i, children⟩ := p
    subst hp
    refine ⟨i, top, htop, children.reverse, ?_, h⟩
    rw [Nat.zero_add, Place.down_eq, List.reverse_reverse, List.append_nil]

theorem placed_innerFirst (t : Tree) : Node.InnerFirst t.placed :=
  Node.placeListAt_pairwise Node.placedBefore_innerFirst (.top false) .nil 0 (by simp) _

end Tree

end NavTree
