import NavTree.Proofs.Code.Drawing
import NavTree.Proofs.Tree.FirstKept
import NavTree.Proofs.Tree.NestedFirst
import NavTree.Proofs.Tree.Visitor

/-! # The boxes of the graph file

The graph file draws what is listed below the navigators, each once: the containers from the last to
the first, then the screens. Apart from their order the containers that are navigators are those of
the flattened tree; the screens are the ones that a collector meets.
-/
namespace NavTree

namespace Node

/-- The node itself unless it is a screen. -/
def container? : Node → Option Node := Option.guard fun n => !n.isScreen

variable (nodes : List Node)

theorem filterMap_container? : nodes.filterMap container? = nodes.filter fun n => !n.isScreen := by
  rw [container?, List.filterMap_eq_filter]

theorem filterMap_container_navigator? :
    (nodes.filterMap container?).filterMap navigator? = nodes.filterMap navigator? := by
  rw [List.filterMap_filterMap]
  refine List.filterMap_congr fun n _ => ?_
  cases n <;> rfl

/-- Boxes of a kind are the boxes of the nodes of this kind. -/
theorem filter_boxes {α : Type} {kind : BoxKind} {read : Node → Option α} {draw : α → Box}
    (h : ∀ n : Node, Option.guard (·.kind == kind) n.box = (read n).map draw) :
    (nodes.map box).filter (·.kind == kind) = (nodes.filterMap read).map draw := by
  rw [← List.filterMap_eq_filter, List.filterMap_map, List.map_filterMap]
  exact List.filterMap_congr fun n _ => h n

theorem filter_navigator_boxes : (nodes.map box).filter (·.kind == .navigator) =
    (nodes.filterMap navigator?).map fun n => n.node.box :=
  filter_boxes nodes fun n => by cases n <;> rfl

theorem filter_screen_boxes : (nodes.map box).filter (·.kind == .screen) =
    (nodes.filterMap screen?).map Screen.box :=
  filter_boxes nodes fun n => by cases n <;> rfl

theorem map_box_filter_isScreen : (nodes.filter isScreen).map box =
    (nodes.map box).filter (·.kind == .screen) := by
  have hkind : (fun b : Box => b.kind == .screen) ∘ box = isScreen := by
    funext n
    cases n <;> rfl
  rw [List.filter_map, hkind]

end Node

/-- How the boxes of the graph file follow from the depth-first listings of the nodes, of the
containers among them and of the screens. -/
structure Tree.DrawnOnce (t : Tree) (nodes containers : List (Place × Node))
    (screens : List (Place × Screen)) : Prop where
  nodes_listed : t.Lists some nodes
  containers_listed : t.Lists Node.container? containers
  outer_first : containers.Pairwise fun a b => ¬ a.1.Within b.1
  screens_listed : t.Lists Node.screen? screens
  boxes_eq : boxes t.navigators =
    (containers.map (·.2.box)).reverse ++ screens.map (·.2.box)
  once : (boxes t.navigators).Perm (nodes.map (·.2.box))
  navigators_perm : (containers.filterMap (·.2.navigator?)).Perm t.flatten.navigators
  navigator_boxes : ((boxes t.navigators).filter (·.kind == .navigator)).Perm
    (t.flatten.navigators.map fun n => n.node.box)
  screens_met : screens.map (·.2) = (Visitor.collector.visitTree t ([], [])).1
  screen_boxes : (boxes t.navigators).filter (·.kind == .screen) =
    (Visitor.collector.visitTree t ([], [])).1.map Screen.box

namespace Tree

theorem flatten_navigators_perm (t : Tree) :
    t.flatten.navigators.Perm (t.nodes.filterMap Node.navigator?) := by
  have hplaced : t.flatten.navigators = t.placed.map (·.2) := t.map_snd_placed.symm
  rw [hplaced, ← map_snd_listedBy]
  exact t.placed_perm.map _

theorem collector_screens_eq (t : Tree) :
    (Visitor.collector.visitTree t ([], [])).1 = t.nodes.filterMap Node.screen? := by
  rw [Visitor.visitTree_collector, ← map_snd_listedBy]
  exact t.screensOf_walk_eq

theorem map_listedBy {α β : Type} (t : Tree) (read : Node → Option α) (f : α → β) :
    (t.listedBy read).map (fun a => f a.2) = (t.nodes.filterMap read).map f := by
  rw [← map_snd_listedBy, List.map_map]
  rfl

/-- The boxes of screens stay in the order of the nodes. -/
theorem filter_screen_boxes_eq (t : Tree) : (boxes t.navigators).filter (·.kind == .screen) =
    (t.nodes.map Node.box).filter (·.kind == .screen) := by
  have hcontainers : (t.nodes.filter fun n => !n.isScreen).reverse.filter Node.isScreen = [] := by
    simp
  rw [boxes_eq, List.filter_append, ← Node.map_box_filter_isScreen, hcontainers,
    ← Node.map_box_filter_isScreen, ← Node.map_box_filter_isScreen, List.filter_filter]
  simp

/-- Whatever the navigators are, all that is below them is drawn once. -/
theorem boxes_drawnOnce (t : Tree) : ∃ nodes containers screens,
    t.DrawnOnce nodes containers screens := by
  refine ⟨t.listedBy some, t.listedBy Node.container?, t.listedBy Node.screen?, ?_⟩
  exact {
    nodes_listed := t.lists some
    containers_listed := t.lists Node.container?
    outer_first := (t.lists Node.container?).outer_first
    screens_listed := t.lists Node.screen?
    boxes_eq := by
      rw [t.map_listedBy _ Node.box, t.map_listedBy _ Screen.box, Node.filterMap_container?,
        ← Node.filter_screen_boxes, ← Node.map_box_filter_isScreen, ← List.map_reverse]
      exact t.boxes_eq
    once := by
      rw [t.map_listedBy _ Node.box, List.filterMap_some]
      exact boxes_perm t
    navigators_perm := by
      have hcontainers : (t.listedBy Node.container?).filterMap (·.2.navigator?) =
          t.nodes.filterMap Node.navigator? := by
        rw [← Node.filterMap_container_navigator?, ← map_snd_listedBy, List.filterMap_map]
        rfl
      rw [hcontainers]
      exact t.flatten_navigators_perm.symm
    navigator_boxes := by
      refine ((boxes_perm t).filter _).trans ?_
      rw [Node.filter_navigator_boxes]
      exact (t.flatten_navigators_perm.map _).symm
    screens_met := (t.map_snd_listedBy _).trans t.collector_screens_eq.symm
    screen_boxes := by
      rw [collector_screens_eq, ← Node.filter_screen_boxes]
      exact t.filter_screen_boxes_eq }

end Tree

end NavTree
