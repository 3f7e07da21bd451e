import NavTree.Proofs.Tree.Naming

/-! # The nodes of a tree

All nodes among and below the navigators, one for each position, in declaration order. Each is a
navigator of the top level or stands directly in another one of them. The graph name of a node
spells the names on the way to it.
-/
namespace NavTree

/-- Along a list the indices grow. -/
theorem pairwise_index_lt {α : Type} (l : List α) : l.zipIdx.Pairwise fun a b => a.2 < b.2 := by
  have hrange : (l.zipIdx.map Prod.snd).Pairwise (· < ·) := by
    rw [List.zipIdx_map_snd]
    exact List.pairwise_lt_range'
  exact List.pairwise_map.mp hrange

namespace Node

mutual

/-- A node and all that is below it, containers before what is in them. -/
def all : Node → List Node
  | navigator head children => navigator head children :: allOf children
  | group g => group g :: g.children.map screen
  | screen s => [screen s]

def allOf : List Node → List Node
  | [] => []
  | n :: rest => all n ++ allOf rest

end

theorem allOf_eq_flatMap (nodes : List Node) : allOf nodes = nodes.flatMap all := by
  induction nodes with
  | nil => rfl
  | cons n rest ih => rw [allOf, ih, List.flatMap_cons]

theorem all_eq (n : Node) : n.all = n :: n.children.flatMap all := by
  cases n with
  | navigator head inside => rw [all, allOf_eq_flatMap, children]
  | group g =>
    rw [all, children, List.flatMap_map]
    exact congrArg _ List.map_eq_flatMap
  | screen s => rw [all, children, List.flatMap_nil]

mutual

/-- What passes from the nodes directly inside to their container holds of every node. -/
theorem induct {P : Node → Prop} (h : ∀ n : Node, (∀ m ∈ n.children, P m) → P n) : ∀ n, P n
  | navigator _ inside => h _ (inductOf h inside)
  | group g => h _ fun m hm => by
    obtain ⟨s, _, rfl⟩ := List.mem_map.mp hm
    exact h _ (by simp [children])
  | screen s => h _ (by simp [children])

theorem inductOf {P : Node → Prop} (h : ∀ n : Node, (∀ m ∈ n.children, P m) → P n) :
    ∀ nodes : List Node, ∀ n ∈ nodes, P n
  | [] => by simp
  | n :: rest => List.forall_mem_cons.mpr ⟨induct h n, inductOf h rest⟩

end

/-- Every name on the way to a node, its own included. -/
def graphName : Node → String
  | navigator head _ => head.graphName
  | group g => g.graphName
  | screen s => s.graphName

variable {n c m : Node}

theorem self_mem_all (n : Node) : n ∈ n.all := by
  rw [all_eq]
  exact List.mem_cons_self

theorem mem_all_of_child (h : c ∈ n.all) (hm : m ∈ c.children) : m ∈ n.all := by
  induction n using induct with
  | h n ih =>
    rw [all_eq] at h ⊢
    refine List.mem_cons_of_mem _ (List.mem_flatMap.mpr ?_)
    rcases List.mem_cons.mp h with rfl | h
    · exact ⟨m, hm, m.self_mem_all⟩
    · obtain ⟨child, hchild, hc⟩ := List.mem_flatMap.mp h
      exact ⟨child, hchild, ih child hchild hc⟩

theorem mem_all_cases (h : m ∈ n.all) : m = n ∨ ∃ c ∈ n.all, m ∈ c.children := by
  induction n using induct with
  | h n ih =>
    rw [all_eq] at h ⊢
    rcases List.mem_cons.mp h with rfl | h
    · exact .inl rfl
    · obtain ⟨child, hchild, hm⟩ := List.mem_flatMap.mp h
      rcases ih child hchild hm with rfl | ⟨c, hc, hm⟩
      · exact .inr ⟨n, List.mem_cons_self, hchild⟩
      · exact .inr ⟨c, List.mem_cons_of_mem _ (List.mem_flatMap.mpr ⟨child, hchild, hc⟩), hm⟩

end Node

namespace Tree

/-- The nodes among and below the navigators. -/
def nodes (t : Tree) : List Node := (t.navigators.map Navigator.node).flatMap Node.all

variable {t : Tree} {n : Navigator} {c m : Node}

theorem navigator_mem_nodes (h : n ∈ t.navigators) : n.node ∈ t.nodes :=
  List.mem_flatMap.mpr ⟨n.node, List.mem_map_of_mem h, n.node.self_mem_all⟩

theorem child_mem_nodes (h : c ∈ t.nodes) (hm : m ∈ c.children) : m ∈ t.nodes := by
  obtain ⟨top, ht, hc⟩ := List.mem_flatMap.mp h
  exact List.mem_flatMap.mpr ⟨top, ht, Node.mem_all_of_child hc hm⟩

theorem nodes_cases (h : m ∈ t.nodes) :
    (∃ n ∈ t.navigators, m = n.node) ∨ ∃ c ∈ t.nodes, m ∈ c.children := by
  obtain ⟨top, ht, hm⟩ := List.mem_flatMap.mp h
  rcases Node.mem_all_cases hm with rfl | ⟨c, hc, hm⟩
  · obtain ⟨n, hn, rfl⟩ := List.mem_map.mp ht
    exact .inl ⟨n, hn, rfl⟩
  · exact .inr ⟨c, List.mem_flatMap.mpr ⟨top, ht, hc⟩, hm⟩

/-- What holds of the navigators of the top level and passes from a node to those directly inside
holds of every node. -/
theorem nodes_induct {P : Node → Prop} (htop : ∀ n ∈ t.navigators, P n.node)
    (hstep : ∀ c ∈ t.nodes, P c → ∀ m ∈ c.children, P m) (h : m ∈ t.nodes) : P m := by
  have hbelow : ∀ c : Node, c ∈ t.nodes → P c → ∀ m ∈ c.all, P m := by
    intro c
    induction c using Node.induct with
    | h c ih =>
      intro hc hp m hm
      rw [Node.all_eq] at hm
      rcases List.mem_cons.mp hm with rfl | hm
      · exact hp
      · obtain ⟨child, hchild, hm⟩ := List.mem_flatMap.mp hm
        exact ih child hchild (child_mem_nodes hc hchild) (hstep c hc hp child hchild) m hm
  obtain ⟨top, ht, hm⟩ := List.mem_flatMap.mp h
  obtain ⟨n, hn, rfl⟩ := List.mem_map.mp ht
  exact hbelow n.node (navigator_mem_nodes hn) (htop n hn) m hm

theorem Settled.of_mem_nodes (ht : t.Settled) (h : m ∈ t.nodes) : t.surroundings.Settled m :=
  nodes_induct (fun n hn => (ht.navigators n hn).2) (fun _ _ hc _ hm => hc.inside hm) h

end Tree

theorem Trail.graphName_push (parent : Option Trail) (l : Link) :
    (push parent l).graphName = concat ((links parent).reverse.map (·.name)) ++ l.name := by
  rw [graphName, chain_push, List.map_append, concat_append]
  simp [concat]

namespace Node

variable {c m : Node}

theorem graphName_of_parent {parent : Trail} (h : m.parent? = some parent) :
    m.graphName = parent.graphName ++ m.name := by
  cases m with
  | navigator head inside =>
    have hp : head.parent = some parent := h
    rw [graphName, NavigatorHead.graphName, NavigatorHead.trail, hp, Trail.graphName_push]
    rfl
  | group g =>
    have hp : g.parent = some parent := h
    rw [graphName, Group.graphName, Group.trail, hp, Trail.graphName_push]
    rfl
  | screen s =>
    obtain rfl : s.parent = parent := Option.some.inj h
    rfl

theorem graphName_of_top (h : m.parent? = none) : m.graphName = m.name := by
  cases m with
  | navigator head inside =>
    have hp : head.parent = none := h
    rw [graphName, NavigatorHead.graphName, NavigatorHead.trail, hp, Trail.graphName_push]
    exact String.empty_append
  | group g =>
    have hp : g.parent = none := h
    rw [graphName, Group.graphName, Group.trail, hp, Trail.graphName_push]
    exact String.empty_append
  | screen s => cases h

/-- Inside a container, names go on from the graph name of the container. -/
theorem graphName_of_trail {t : Trail} (h : c.trail? = some t) : t.graphName = c.graphName := by
  cases c with
  | navigator head inside => exact congrArg Trail.graphName (Option.some.inj h).symm
  | group g => exact congrArg Trail.graphName (Option.some.inj h).symm
  | screen s => cases h

theorem exists_trail (h : m ∈ c.children) : ∃ t, c.trail? = some t := by
  obtain ⟨l, hl⟩ := exists_link h
  exact ⟨_, by rw [trail?, hl]; rfl⟩

end Node

theorem Surroundings.Settled.graphName {env : Surroundings} {c m : Node} (h : env.Settled c)
    (hm : m ∈ c.children) : m.graphName = c.graphName ++ m.name := by
  obtain ⟨t, ht⟩ := Node.exists_trail hm
  rw [Node.graphName_of_parent ((h.parent hm).trans ht), Node.graphName_of_trail ht]

end NavTree
