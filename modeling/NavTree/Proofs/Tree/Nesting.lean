import NavTree.Outline.Basic
import NavTree.Proofs.Tree.Position

/-! # Nesting

What stands directly in a node, and the containers on the way to it. A way is found by going down
the tree; it does not look at the trails that nodes carry.
-/
namespace NavTree

namespace Node

/-- The nodes directly inside. -/
def children : Node → List Node
  | navigator _ children => children
  | group g => g.children.map .screen
  | screen _ => []

def config : Node → Config
  | navigator head _ => head.config
  | group g => g.config
  | screen s => s.config

/-- The trail that a node carries, if it is not at the top level. -/
def parent? : Node → Option Trail
  | navigator head _ => head.parent
  | group g => g.parent
  | screen s => some s.parent

/-- What naming needs of a container; a screen contains nothing. -/
def link? : Node → Option Link
  | navigator head _ => some head.link
  | group g => some g.link
  | screen _ => none

/-- The trail inside a container. -/
def trail? (node : Node) : Option Trail := node.link?.map (Trail.push node.parent?)

variable {c m : Node}

/-- Groups hold screens only. -/
theorem mem_children : m ∈ c.children ↔
    (∃ n : Navigator, c = n.node ∧ m ∈ n.children) ∨
      ∃ g s, c = .group g ∧ m = .screen s ∧ s ∈ g.children := by
  cases c with
  | navigator head children =>
    constructor
    · exact fun h => .inl ⟨⟨head, children⟩, rfl, h⟩
    · rintro (⟨n, hn, h⟩ | ⟨_, _, hg, _⟩)
      · cases hn
        exact h
      · cases hg
  | group g =>
    simp only [children, List.mem_map, Node.group.injEq]
    constructor
    · rintro ⟨s, hs, rfl⟩
      exact .inr ⟨g, s, rfl, rfl, hs⟩
    · rintro (⟨n, hn, _⟩ | ⟨_, s, rfl, rfl, hs⟩)
      · cases hn
      · exact ⟨s, hs, rfl⟩
  | screen s =>
    constructor
    · intro h
      cases h
    · rintro (⟨n, hn, _⟩ | ⟨_, _, hg, _⟩)
      · cases hn
      · cases hg

theorem exists_link (h : m ∈ c.children) : ∃ l, c.link? = some l := by
  cases c with
  | navigator head children => exact ⟨_, rfl⟩
  | group g => exact ⟨_, rfl⟩
  | screen s => simp [children] at h

theorem name_of_link {l : Link} (h : c.link? = some l) : l.name = c.name := by
  cases c with
  | navigator head children => exact congrArg Link.name (Option.some.inj h).symm
  | group g => exact congrArg Link.name (Option.some.inj h).symm
  | screen s => simp [link?] at h

end Node

/-- A node stands in a tree, inside the given containers, the outermost first. -/
inductive Tree.Stands (t : Tree) : List Node → Node → Prop
  | navigator {n : Navigator} (h : n ∈ t.navigators) : Stands t [] n.node
  | group {g : Group} (h : g ∈ t.groups) : Stands t [] (.group g)
  | child {way : List Node} {c m : Node} (hc : Stands t way c) (hm : m ∈ c.children) :
    Stands t (way ++ [c]) m

namespace Tree

variable {t : Tree} {way : List Node} {node : Node} {n : Navigator} {g : Group} {s : Screen}

theorem Contains.stands (h : t.Contains n) : ∃ way, t.Stands way n.node := by
  refine h.induct (P := fun n => ∃ way, t.Stands way n.node) ?_ ?_
  · exact fun n hn => ⟨[], .navigator hn⟩
  · rintro n - ⟨way, hw⟩ child hc
    exact ⟨way ++ [n.node], hw.child (Navigator.mem_nested.mp hc)⟩

theorem Contains.screen_stands (h : t.Contains n) (hs : n.Holds s) :
    ∃ way, t.Stands way (.screen s) := by
  obtain ⟨way, hw⟩ := h.stands
  rcases hs with hs | ⟨g, hg, hs⟩
  · exact ⟨_, hw.child hs⟩
  · have hg : t.Stands (way ++ [n.node]) (.group g) := hw.child hg
    exact ⟨_, hg.child (List.mem_map.mpr ⟨s, hs, rfl⟩)⟩

/-- Every screen of a flattened tree stands in the tree. -/
theorem stands_of_flatten (hs : s ∈ t.flatten.screens) : ∃ way, t.Stands way (.screen s) := by
  have hmem := List.mem_of_find?_eq_some (mem_flatten_screens.mp hs)
  obtain ⟨n, hn, hs⟩ := mem_screensOf_walk.mp hmem
  exact hn.screen_stands hs

/-- The containers on a way stand in the tree themselves. -/
theorem Stands.container (h : t.Stands way node) {c : Node} (hc : c ∈ way) :
    ∃ outer, t.Stands outer c := by
  induction h with
  | navigator h => simp at hc
  | group h => simp at hc
  | @child outer c' _ hs _ ih =>
    rcases List.mem_append.mp hc with hc | hc
    · exact ih hc
    · rw [List.mem_singleton.mp hc]
      exact ⟨outer, hs⟩

/-- A screen stands directly in a navigator or in a group. -/
theorem Stands.screen_cases (h : t.Stands way (.screen s)) :
    (∃ outer, ∃ n : Navigator, way = outer ++ [n.node] ∧ t.Stands outer n.node ∧
      .screen s ∈ n.children) ∨
    ∃ outer g, way = outer ++ [.group g] ∧ t.Stands outer (.group g) ∧ s ∈ g.children := by
  cases h with
  | @child outer c _ hc hm =>
    rcases Node.mem_children.mp hm with ⟨n, rfl, hs⟩ | ⟨g, s', rfl, hs, hg⟩
    · exact .inl ⟨outer, n, rfl, hc, hs⟩
    · obtain rfl := Node.screen.inj hs
      exact .inr ⟨outer, g, rfl, hc, hg⟩

/-- A group is declared at the top level or stands in a navigator. -/
theorem Stands.group_cases (h : t.Stands way (.group g)) :
    (way = [] ∧ g ∈ t.groups) ∨
    ∃ outer, ∃ n : Navigator, way = outer ++ [n.node] ∧ t.Stands outer n.node ∧
      .group g ∈ n.children := by
  cases h with
  | group h => exact .inl ⟨rfl, h⟩
  | @child outer c _ hc hm =>
    rcases Node.mem_children.mp hm with ⟨n, rfl, hg⟩ | ⟨_, _, _, hg, _⟩
    · exact .inr ⟨outer, n, rfl, hc, hg⟩
    · cases hg

end Tree

/-- The tag and the name of a node, and the shapes of the nodes directly inside, in their order. -/
inductive Shape where
  | mk (tag : NodeTag) (name : String) (children : List Shape)

namespace NodeOutline

mutual

def shape : NodeOutline → Shape
  | navigator head children => .mk .navigator head.name (shapes children)
  | group head children => .mk .group head.name (shapes children)
  | screen s => .mk .screen s.name []

def shapes : List NodeOutline → List Shape
  | [] => []
  | o :: rest => shape o :: shapes rest

end

end NodeOutline

def Screen.shape (s : Screen) : Shape := .mk .screen s.name []

namespace Node

mutual

def shape : Node → Shape
  | navigator head children => .mk .navigator head.name (shapes children)
  | group g => .mk .group g.name (g.children.map Screen.shape)
  | screen s => s.shape

def shapes : List Node → List Shape
  | [] => []
  | n :: rest => shape n :: shapes rest

end

end Node

/-- The shapes of the declared groups and of the navigators. -/
def Outline.shape (o : Outline) : List Shape × List Shape :=
  (NodeOutline.shapes o.groups, NodeOutline.shapes o.navigators)

def Tree.shape (t : Tree) : List Shape × List Shape :=
  (Node.shapes (t.groups.map .group), Node.shapes (t.navigators.map Navigator.node))

end NavTree
