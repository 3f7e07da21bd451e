import Mathlib.Data.List.Perm.Basic
import Mathlib.Logic.Relation
import NavTree.Code.Graph
import NavTree.Proofs.Tree.Canonical
import NavTree.Proofs.Tree.Nodes

/-! # The drawing of a tree

What the text of a box states: its id, and the edge from its container. Over all boxes of a
normalized tree these statements are closed, and every edge comes from the box of the node directly
around.
-/
namespace NavTree

/-- A statement of the drawing: a box or an edge, with its attributes. -/
inductive Stroke where
  | box (id attributes : String)
  | edge (source target attributes : String)

namespace Stroke

def text : Stroke → String
  | box id attributes => id ++ " [" ++ attributes ++ "]"
  | edge source target attributes => source ++ " -> " ++ target ++ " [" ++ attributes ++ "]"

def id? : Stroke → Option String
  | box id _ => some id
  | edge _ _ _ => none

def ends? : Stroke → Option (String × String)
  | box _ _ => none
  | edge source target _ => some (source, target)

end Stroke

/-- The ids that statements declare. -/
def declaredIds (strokes : List Stroke) : List String := strokes.filterMap Stroke.id?

/-- Source and target of the edges among statements. -/
def edgeEnds (strokes : List Stroke) : List (String × String) := strokes.filterMap Stroke.ends?

namespace Box

def strokes (b : Box) : List Stroke :=
  let label := "label=<" ++ b.label ++ "> " ++ b.kind.style
  match b.edgeFrom? with
  | some source =>
    [.box b.id (label ++ ", weight=" ++ b.kind.weight), .edge source b.id "dir=\"forward\""]
  | none => [.box b.id label, .box b.id ("weight=" ++ b.kind.weight)]

theorem text_eq (b : Box) : b.text = ";\n".intercalate (b.strokes.map Stroke.text) := by
  have hpair : ∀ s t : Stroke, ";\n".intercalate ([s, t].map Stroke.text) =
      s.text ++ ";\n" ++ t.text := fun _ _ => rfl
  unfold text strokes
  cases b.edgeFrom? with
  | some source =>
    rw [hpair]
    simp only [Stroke.text, String.append_assoc]
    rfl
  | none =>
    rw [hpair]
    simp only [Stroke.text, String.append_assoc]
    rfl

/-- A box at the top states its id twice, the second time for its weight. -/
theorem mem_declaredIds {b : Box} {id : String} : id ∈ declaredIds b.strokes ↔ id = b.id := by
  unfold strokes
  cases b.edgeFrom? with
  | some source => simp [declaredIds, Stroke.id?]
  | none => simp [declaredIds, Stroke.id?]

theorem edgeEnds_eq (b : Box) :
    edgeEnds b.strokes = (b.edgeFrom?.map fun source => (source, b.id)).toList := by
  unfold strokes
  cases b.edgeFrom? with
  | some source => rfl
  | none => rfl

end Box

/-- The file is the statements of all boxes, between the start of the drawing and its end. -/
theorem graph_eq (ns : List Navigator) : graph ns = ⟨"navigation.gen.dot", .text (graphHead ++
    "\n  ".intercalate ((boxes ns).map fun b => ";\n".intercalate (b.strokes.map Stroke.text)) ++
      "\n\x7d")⟩ := by
  have htext : Box.text = fun b => ";\n".intercalate (b.strokes.map Stroke.text) :=
    funext Box.text_eq
  rw [graph, graphText, htext]

namespace Node

def box : Node → Box
  | navigator head _ => head.box
  | group g => g.box
  | screen s => s.box

def isScreen : Node → Bool
  | screen _ => true
  | _ => false

variable {n c m : Node}

theorem box_name (n : Node) : n.box.name = n.name := by
  cases n <;> rfl

theorem box_parent (n : Node) : n.box.parent = n.parent? := by
  cases n <;> rfl

theorem box_edgeFrom? (n : Node) : n.box.edgeFrom? = n.parent?.map Trail.graphName := by
  rw [Box.edgeFrom?, box_parent]

theorem box_id (n : Node) : n.box.id = n.graphName := by
  cases hp : n.parent? with
  | some parent => simp only [Box.id, box_parent, box_name, hp, graphName_of_parent hp]
  | none => simp only [Box.id, box_parent, box_name, hp, graphName_of_top hp]

mutual

/-- Containers are drawn in front of what is drawn, the last one first, and screens behind it. -/
theorem draw_eq (drawn : List Box) : ∀ n : Node, draw drawn n =
    (n.all.filter fun m => !m.isScreen).reverse.map box ++ drawn ++
      (n.all.filter isScreen).map box
  | navigator head inside => by
    rw [draw, drawList_eq _ inside, all, List.filter_cons_of_pos rfl,
      List.filter_cons_of_neg (by simp [isScreen])]
    simp [box]
  | group g => by
    have hs : (g.children.map screen).filter isScreen = g.children.map screen := by
      simp [isScreen]
    have hc : (g.children.map screen).filter (fun m => !m.isScreen) = [] := by simp [isScreen]
    rw [draw, all, List.filter_cons_of_pos rfl, List.filter_cons_of_neg (by simp [isScreen]), hs,
      hc]
    simp [box, Function.comp_def]
  | screen s => by
    rw [draw, all, List.filter_cons_of_neg (by simp [isScreen]), List.filter_cons_of_pos rfl]
    simp [box]

theorem drawList_eq (drawn : List Box) : ∀ ns : List Node, drawList drawn ns =
    ((allOf ns).filter fun m => !m.isScreen).reverse.map box ++ drawn ++
      ((allOf ns).filter isScreen).map box
  | [] => by simp [drawList, allOf]
  | n :: rest => by
    rw [drawList, drawList_eq _ rest, draw_eq drawn n, allOf]
    simp [List.append_assoc]

end

end Node

namespace Tree

variable {t : Tree} {c m : Node}

/-- The containers, the last one first, and the screens in their order. -/
theorem boxes_eq (t : Tree) : boxes t.navigators =
    (t.nodes.filter fun m => !m.isScreen).reverse.map Node.box ++
      (t.nodes.filter Node.isScreen).map Node.box := by
  rw [boxes, Node.drawList_eq, Node.allOf_eq_flatMap, List.append_nil]
  rfl

theorem boxes_perm (t : Tree) : (boxes t.navigators).Perm (t.nodes.map Node.box) := by
  rw [boxes_eq, ← List.map_append]
  refine List.Perm.map _ ((List.Perm.append_right _ (List.reverse_perm _)).trans ?_)
  refine List.perm_append_comm.trans ?_
  exact List.filter_append_perm Node.isScreen t.nodes

theorem mem_boxes {b : Box} : b ∈ boxes t.navigators ↔ ∃ n ∈ t.nodes, n.box = b :=
  (boxes_perm t).mem_iff.trans List.mem_map

/-- The edges of a node that stands in another one. -/
theorem Settled.edgeEnds_inside (ht : t.Settled) (hc : c ∈ t.nodes) (hm : m ∈ c.children) :
    edgeEnds m.box.strokes = [(c.graphName, m.graphName)] := by
  obtain ⟨trail, htrail⟩ := Node.exists_trail hm
  have hp : m.parent? = some trail := ((ht.of_mem_nodes hc).parent hm).trans htrail
  rw [Box.edgeEnds_eq, Node.box_edgeFrom?, hp, Node.box_id, ← Node.graphName_of_trail htrail]
  rfl

theorem Settled.edgeEnds_top (ht : t.Settled) {n : Navigator} (hn : n ∈ t.navigators) :
    edgeEnds n.node.box.strokes = [] := by
  have hp : n.node.parent? = none := (ht.navigators n hn).1
  rw [Box.edgeEnds_eq, Node.box_edgeFrom?, hp]
  rfl

/-- All statements of the graph of a tree. -/
def strokes (t : Tree) : List Stroke := (boxes t.navigators).flatMap Box.strokes

theorem mem_declaredIds {id : String} :
    id ∈ declaredIds t.strokes ↔ ∃ n ∈ t.nodes, id = n.graphName := by
  simp only [declaredIds, strokes, List.filterMap_flatMap, List.mem_flatMap, mem_boxes]
  constructor
  · rintro ⟨_, ⟨n, hn, rfl⟩, hid⟩
    exact ⟨n, hn, (Box.mem_declaredIds.mp hid).trans n.box_id⟩
  · rintro ⟨n, hn, hid⟩
    exact ⟨_, ⟨n, hn, rfl⟩, Box.mem_declaredIds.mpr (hid.trans n.box_id.symm)⟩

theorem mem_edgeEnds {e : String × String} :
    e ∈ edgeEnds t.strokes ↔ ∃ n ∈ t.nodes, e ∈ edgeEnds n.box.strokes := by
  simp only [edgeEnds, strokes, List.filterMap_flatMap, List.mem_flatMap, mem_boxes]
  constructor
  · rintro ⟨_, ⟨n, hn, rfl⟩, he⟩
    exact ⟨n, hn, he⟩
  · rintro ⟨n, hn, he⟩
    exact ⟨_, ⟨n, hn, rfl⟩, he⟩

/-- The edges of a tree are those from a container to what stands in it. -/
theorem Settled.mem_edgeEnds (ht : t.Settled) {e : String × String} :
    e ∈ edgeEnds t.strokes ↔
      ∃ c ∈ t.nodes, ∃ m ∈ c.children, e = (c.graphName, m.graphName) := by
  rw [Tree.mem_edgeEnds]
  constructor
  · rintro ⟨m, hm, he⟩
    rcases nodes_cases hm with ⟨n, hn, rfl⟩ | ⟨c, hc, hm⟩
    · rw [ht.edgeEnds_top hn] at he
      cases he
    · rw [ht.edgeEnds_inside hc hm] at he
      exact ⟨c, hc, m, hm, List.mem_singleton.mp he⟩
  · rintro ⟨c, hc, m, hm, rfl⟩
    refine ⟨m, child_mem_nodes hc hm, ?_⟩
    rw [ht.edgeEnds_inside hc hm]
    exact List.mem_singleton_self _

/-- An edge of the graph, read from its target to its source. -/
def EdgeUp (t : Tree) (lower upper : String) : Prop := (upper, lower) ∈ edgeEnds t.strokes

/-- Every edge of the graph runs between declared boxes, from the box of a container to the box of
what stands directly in it. -/
structure ClosedGraph (t : Tree) : Prop where
  complete : (boxes t.navigators).Perm (t.nodes.map Node.box)
  rendered : ∀ b ∈ boxes t.navigators, b.text = ";\n".intercalate (b.strokes.map Stroke.text)
  file : graph t.navigators = ⟨"navigation.gen.dot", .text (graphHead ++
    "\n  ".intercalate ((boxes t.navigators).map fun b =>
      ";\n".intercalate (b.strokes.map Stroke.text)) ++ "\n\x7d")⟩
  declared : ∀ n ∈ t.nodes, ∀ id, id ∈ declaredIds n.box.strokes ↔ id = n.graphName
  placed : ∀ m ∈ t.nodes,
    (∃ n ∈ t.navigators, m = n.node) ∨ ∃ c ∈ t.nodes, m ∈ c.children
  top : ∀ n ∈ t.navigators, n.node ∈ t.nodes ∧ edgeEnds n.node.box.strokes = []
  inside : ∀ c ∈ t.nodes, ∀ m ∈ c.children,
    m ∈ t.nodes ∧ edgeEnds m.box.strokes = [(c.graphName, m.graphName)]
  closed : ∀ e ∈ edgeEnds t.strokes,
    e.1 ∈ declaredIds t.strokes ∧ e.2 ∈ declaredIds t.strokes
  rooted : ∀ id ∈ declaredIds t.strokes,
    ∃ n ∈ t.navigators, Relation.ReflTransGen t.EdgeUp id n.graphName

theorem Settled.rooted (ht : t.Settled) (hm : m ∈ t.nodes) :
    ∃ n ∈ t.navigators, Relation.ReflTransGen t.EdgeUp m.graphName n.graphName := by
  refine nodes_induct (P := fun m =>
    ∃ n ∈ t.navigators, Relation.ReflTransGen t.EdgeUp m.graphName n.graphName) ?_ ?_ hm
  · exact fun n hn => ⟨n, hn, .refl⟩
  · rintro c hc ⟨n, hn, hup⟩ m hm
    exact ⟨n, hn, .head (ht.mem_edgeEnds.mpr ⟨c, hc, m, hm, rfl⟩) hup⟩

theorem ofJson_closedGraph {j : Json} (h : ofJson j = .ok t) : t.ClosedGraph := by
  have ht : t.Settled := (ofJson_settled h).1
  refine ⟨boxes_perm t, fun b _ => b.text_eq, graph_eq t.navigators, ?_,
    fun m hm => nodes_cases hm, ?_, ?_, ?_, ?_⟩
  · intro n _ id
    rw [Box.mem_declaredIds, n.box_id]
  · exact fun n hn => ⟨navigator_mem_nodes hn, ht.edgeEnds_top hn⟩
  · exact fun c hc m hm => ⟨child_mem_nodes hc hm, ht.edgeEnds_inside hc hm⟩
  · intro e he
    obtain ⟨c, hc, m, hm, rfl⟩ := ht.mem_edgeEnds.mp he
    exact ⟨mem_declaredIds.mpr ⟨c, hc, rfl⟩, mem_declaredIds.mpr ⟨m, child_mem_nodes hc hm, rfl⟩⟩
  · intro id hid
    obtain ⟨m, hm, rfl⟩ := mem_declaredIds.mp hid
    exact ht.rooted hm

end Tree

namespace Plain

theorem shared_mem_nodes : .group shared ∈ sharedTree.nodes :=
  have happ : app.node ∈ sharedTree.nodes := Tree.navigator_mem_nodes List.mem_cons_self
  have hhome : appHome.node ∈ sharedTree.nodes := Tree.child_mem_nodes happ List.mem_cons_self
  Tree.child_mem_nodes hhome (List.mem_cons_of_mem _ List.mem_cons_self)

theorem shared_closedGraph :
    Tree.ofJson sharedJson = .ok sharedTree ∧ sharedTree.ClosedGraph ∧
    edgeEnds (Node.screen detail).box.strokes = [("AppHomeShared", "AppHomeSharedDetail")] :=
  have h := Tree.ofJson_closedGraph ofJson_sharedJson
  ⟨ofJson_sharedJson, h, (h.inside _ shared_mem_nodes _ List.mem_cons_self).2⟩

end Plain

end NavTree
