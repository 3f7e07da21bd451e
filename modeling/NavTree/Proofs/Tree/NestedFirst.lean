import Mathlib.Data.List.Nodup
import NavTree.Proofs.Tree.Listed

/-! # The order of flattened navigators

Flattening takes the navigators of the depth-first listing in another order. What is nested comes
before the navigator around it, and the navigators of one row stay in the order of their
declarations.
-/
namespace NavTree

namespace Place

variable {p q : Place} {spot spot' : Nat → Place} {i j k : Nat}

/-- If both are in one row, the first has the lower index. -/
def InRowOrder (p q : Place) : Prop :=
  ∀ spot, Row spot → ∀ i j, p = spot i → q = spot j → i < j

theorem Row.length_eq (h : Row spot) (i j : Nat) :
    (spot i).children.length = (spot j).children.length := by
  cases h with
  | top declared => rfl
  | inside p => rfl

theorem child_inj (h : p.child i = q.child j) : p = q ∧ i = j := by
  obtain ⟨hdeclared, hindex, hchildren⟩ := Place.mk.inj h
  obtain ⟨hij, hrest⟩ := List.cons.inj hchildren
  exact ⟨by rw [Place.mk.injEq]; exact ⟨hdeclared, hindex, hrest⟩, hij⟩

/-- A place directly inside another one is in one row only. -/
theorem Row.eq_child (h : Row spot) (he : spot i = p.child k) : spot = p.child ∧ i = k := by
  cases h with
  | top declared => cases (Place.mk.inj he).2.2
  | inside q =>
    obtain ⟨rfl, rfl⟩ := child_inj he
    exact ⟨rfl, rfl⟩

/-- A row with one place somewhere below a place lies below it as a whole. -/
theorem Row.within (h : Row spot) (hi : (spot i).Within (p.child k)) (j : Nat) :
    (spot j).Within p := by
  obtain ⟨way, hway⟩ := hi
  rcases List.eq_nil_or_concat way with rfl | ⟨before, m, rfl⟩
  · rw [(h.eq_child hway).1]
    exact p.child_within j
  · have hlast : spot i = ((p.child k).down before).child m := by
      rw [hway, List.concat_eq_append, down_append]
      rfl
    rw [(h.eq_child hlast).1]
    exact ((child_within _ j).trans ⟨before, rfl⟩).trans (p.child_within k)

/-- Two places of one row are one or apart. -/
theorem Row.inj (h : Row spot) (h' : Row spot') (he : spot i = spot' j) : spot = spot' ∧ i = j := by
  cases h' with
  | inside p => exact h.eq_child he
  | top declared =>
    cases h with
    | inside p => cases (Place.mk.inj he).2.2
    | top declared' =>
      obtain ⟨rfl, rfl, -⟩ := Place.mk.inj he
      exact ⟨rfl, rfl⟩

end Place

theorem Node.placedBefore_inRowOrder : PlacedBefore Place.InRowOrder where
  outer := by
    intro p q i hin spot hspot k l hk hl
    have hle := hin.length_le
    rw [hk, hspot.length_eq k l, ← hl, Place.child, List.length_cons] at hle
    omega
  outside := by
    intro p q r i hin hout spot hspot k l hk hl
    subst hk hl
    exact absurd (hspot.within hin l) hout
  row := by
    intro spot q i j hspot hlt hin row hrow k l hk hl
    subst hk
    obtain ⟨rfl, rfl⟩ := hrow.inj hspot hl.symm
    rwa [hspot.apart k i _ (.refl _) hin]

/-- How the navigators of a flattened tree follow from their depth-first listing. -/
structure Tree.NestedFirst (t : Tree) (listing placed : List (Place × Navigator)) : Prop where
  listed : t.Lists Node.navigator? listing
  navigators_eq : t.flatten.navigators = placed.map (·.2)
  perm : placed.Perm listing
  places_nodup : (placed.map (·.1)).Nodup
  nested_first : placed.Pairwise fun a b => ¬ b.1.Within a.1
  top_order : placed.Pairwise fun a b => ∀ i j : Nat,
    a.1 = ⟨false, i, []⟩ → b.1 = ⟨false, j, []⟩ → i < j
  inside_order : placed.Pairwise fun a b => ∀ (p : Place) (i j : Nat),
    a.1 = p.child i → b.1 = p.child j → i < j

namespace Tree

variable {t : Tree} {p : Place} {n : Navigator}

theorem placed_inRowOrder (t : Tree) : t.placed.Pairwise fun a b => a.1.InRowOrder b.1 :=
  Node.placeListAt_pairwise Node.placedBefore_inRowOrder (.top false) .nil 0 (by simp) _

theorem mem_listedBy_navigator :
    (p, n) ∈ t.listedBy Node.navigator? ↔ t.nodeAt? p = some n.node := by
  rw [(t.lists Node.navigator?).mem_iff]
  constructor
  · rintro ⟨-, node, hnode, hn⟩
    cases node with
    | navigator head children => rwa [← Option.some.inj hn]
    | group g => cases hn
    | screen s => cases hn
  · exact fun hn => ⟨not_declared hn, n.node, hn, rfl⟩

theorem placed_perm (t : Tree) : t.placed.Perm (t.listedBy Node.navigator?) := by
  have hplaced : t.placed.Nodup := .of_map _ t.placed_innerFirst.places_nodup
  refine (List.perm_ext_iff_of_nodup hplaced (t.lists Node.navigator?).nodup).mpr ?_
  exact fun a => mem_placed.trans mem_listedBy_navigator.symm

/-- The flattened navigators are all that stand in the tree, each once, nested ones first, and rows
in the order of declaration. -/
theorem flatten_nestedFirst (t : Tree) : ∃ listing placed, t.NestedFirst listing placed :=
  ⟨t.listedBy Node.navigator?, t.placed, {
    listed := t.lists Node.navigator?
    navigators_eq := t.map_snd_placed.symm
    perm := t.placed_perm
    places_nodup := t.placed_innerFirst.places_nodup
    nested_first := t.placed_innerFirst
    top_order := t.placed_inRowOrder.imp fun h => h _ (.top false)
    inside_order := t.placed_inRowOrder.imp fun h p => h _ (.inside p) }⟩

end Tree

namespace Plain

/-- What is nested in a later navigator goes in front of all that came before. -/
example :
    (tree [⟨head "App" true none, [.navigator (head "Home" false none) [],
        .navigator (head "Settings" false none) [.navigator (head "Profile" false none) []]]⟩,
      ⟨head "Help" false none, [.navigator (head "Chat" false none) []]⟩]).flatten.navigators.map
        (·.name) = ["Chat", "Profile", "Home", "Settings", "App", "Help"] := by rfl

end Plain

end NavTree
