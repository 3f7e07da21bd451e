import Mathlib.Data.List.Nodup
import Mathlib.Data.List.Pairwise
import NavTree.Proofs.Code.Drawing

/-! # Which nodes share a graph name

A graph name is spelled without separators. Among siblings of different names, two nodes spell the
same text only if the name of one sibling continues the name of the other, and the continuation is
spelled inside the other one as well.
-/
namespace NavTree

/-- Of two beginnings of a text, one continues the other. -/
theorem append_cases {a b u v : String} (h : a ++ u = b ++ v) :
    (∃ z, b = a ++ z ∧ u = z ++ v) ∨ ∃ z, a = b ++ z ∧ v = z ++ u := by
  have hl : a.toList ++ u.toList = b.toList ++ v.toList := by
    simpa using congrArg String.toList h
  rcases List.append_eq_append_iff.mp hl with ⟨z, hb, hu⟩ | ⟨z, ha, hv⟩
  · exact .inl ⟨String.ofList z, String.toList_injective (by simpa using hb),
      String.toList_injective (by simpa using hu)⟩
  · exact .inr ⟨String.ofList z, String.toList_injective (by simpa using ha),
      String.toList_injective (by simpa using hv)⟩

namespace Node

mutual

/-- The texts that the names from a node on spell, on the way to it and to all that is below it. -/
def spelled : Node → List String
  | navigator head inside => head.name :: (spelledOf inside).map (head.name ++ ·)
  | group g => g.name :: g.children.map fun s => g.name ++ s.name
  | screen s => [s.name]

def spelledOf : List Node → List String
  | [] => []
  | n :: rest => spelled n ++ spelledOf rest

end

/-- The texts that the names below a node spell. -/
def spelledInside (n : Node) : List String := n.children.flatMap spelled

theorem spelledOf_eq_flatMap (nodes : List Node) : spelledOf nodes = nodes.flatMap spelled := by
  induction nodes with
  | nil => rfl
  | cons n rest ih => rw [spelledOf, ih, List.flatMap_cons]

theorem spelled_eq (n : Node) : n.spelled = n.name :: n.spelledInside.map (n.name ++ ·) := by
  cases n with
  | navigator head inside =>
    rw [spelled, spelledOf_eq_flatMap]
    rfl
  | group g =>
    have hscreens : (g.children.map screen).flatMap spelled = g.children.map fun s => s.name := by
      rw [List.flatMap_map]
      exact List.map_eq_flatMap.symm
    rw [spelled, spelledInside, children, hscreens, List.map_map]
    rfl
  | screen s => simp [spelled, spelledInside, children, name]

/-- The graph names from a node on spell its names, after what is spelled around it. -/
theorem graphNames_eq {env : Surroundings} {n : Node} {around : String} (h : env.Settled n)
    (hn : n.graphName = around ++ n.name) :
    n.all.map graphName = n.spelled.map (around ++ ·) := by
  induction n using induct generalizing around with
  | h n ih =>
    have hinside : (n.children.flatMap all).map graphName =
        n.spelledInside.map (n.graphName ++ ·) := by
      rw [spelledInside, List.map_flatMap, List.map_flatMap]
      refine List.flatMap_congr fun m hm => ?_
      exact ih m hm (h.inside hm) (h.graphName hm)
    rw [all_eq, spelled_eq, List.map_cons, hinside, List.map_cons, List.map_map, hn]
    simp [Function.comp_def, String.append_assoc]

/-- Texts from a node on begin with its name. -/
theorem mem_spelled {n : Node} {x : String} :
    x ∈ n.spelled ↔ ∃ u, (u = "" ∨ u ∈ n.spelledInside) ∧ x = n.name ++ u := by
  rw [spelled_eq, List.mem_cons, List.mem_map]
  constructor
  · rintro (rfl | ⟨u, hu, rfl⟩)
    · exact ⟨"", .inl rfl, String.append_empty.symm⟩
    · exact ⟨u, .inr hu, rfl⟩
  · rintro ⟨u, rfl | hu, rfl⟩
    · exact .inl String.append_empty
    · exact .inr ⟨u, hu, rfl⟩

/-- The name of `b` continues that of `a`, and what continues it is spelled inside `a`, alone or
followed by what is spelled inside `b`. -/
def Clash (a b : Node) : Prop :=
  ∃ z, b.name = a.name ++ z ∧ ∃ v, (v = "" ∨ v ∈ b.spelledInside) ∧ z ++ v ∈ a.spelledInside

/-- Two siblings of different names clash. -/
def Clashing (siblings : List Node) : Prop :=
  ∃ a ∈ siblings, ∃ b ∈ siblings, a.name ≠ b.name ∧ a.Clash b

variable {n a b : Node} {siblings : List Node}

theorem Clash.not_disjoint (h : a.Clash b) : ¬ a.spelled.Disjoint b.spelled := by
  obtain ⟨z, hb, v, hv, hu⟩ := h
  refine fun hd => hd (mem_spelled.mpr ⟨z ++ v, .inr hu, rfl⟩) (mem_spelled.mpr ⟨v, hv, ?_⟩)
  rw [hb, String.append_assoc]

theorem clash_of_longer {u v z : String} (hne : a.name ≠ b.name)
    (hu : u = "" ∨ u ∈ a.spelledInside) (hv : v = "" ∨ v ∈ b.spelledInside)
    (hb : b.name = a.name ++ z) (huz : u = z ++ v) : a.Clash b := by
  rcases hu with hu | hu
  · have hz : z = "" := (String.append_eq_empty_iff.mp (huz.symm.trans hu)).1
    rw [hz, String.append_empty] at hb
    exact absurd hb.symm hne
  · exact ⟨z, hb, v, hv, huz ▸ hu⟩

/-- A text spelled from two nodes on begins with both names, so one of the names continues the
other. -/
theorem clash_of_not_disjoint (hne : a.name ≠ b.name) (h : ¬ a.spelled.Disjoint b.spelled) :
    a.Clash b ∨ b.Clash a := by
  obtain ⟨x, ha, hb⟩ : ∃ x, x ∈ a.spelled ∧ x ∈ b.spelled := by
    simpa [List.Disjoint] using h
  obtain ⟨u, hu, rfl⟩ := mem_spelled.mp ha
  obtain ⟨v, hv, hx⟩ := mem_spelled.mp hb
  rcases append_cases hx with ⟨z, hb, huz⟩ | ⟨z, ha, hvz⟩
  · exact .inl (clash_of_longer hne hu hv hb huz)
  · exact .inr (clash_of_longer hne.symm hv hu ha hvz)

/-- With names apart, the texts of siblings are apart if those of each one are and no two clash. -/
theorem nodup_siblings_iff (hd : (siblings.map name).Nodup) :
    (siblings.flatMap spelled).Nodup ↔
      (∀ n ∈ siblings, n.spelled.Nodup) ∧ ¬ Clashing siblings := by
  rw [List.nodup_flatMap]
  refine and_congr_right fun _ => ⟨?_, ?_⟩
  · rintro hp ⟨a, ha, b, hb, hne, h⟩
    have : Std.Symm (Function.onFun List.Disjoint spelled) := ⟨fun _ _ h _ hb ha => h ha hb⟩
    exact h.not_disjoint (hp.forall ha hb fun hab => hne (congrArg name hab))
  · intro hfree
    rw [List.Nodup, List.pairwise_map] at hd
    refine hd.imp_of_mem fun {a b} ha hb hne => ?_
    by_contra hnot
    rcases clash_of_not_disjoint hne hnot with h | h
    · exact hfree ⟨a, ha, b, hb, hne, h⟩
    · exact hfree ⟨b, hb, a, ha, hne.symm, h⟩

theorem empty_mem_spelledInside : "" ∈ n.spelledInside ↔ ∃ m ∈ n.children, m.name = "" := by
  rw [spelledInside, List.mem_flatMap]
  simp only [mem_spelled]
  constructor
  · rintro ⟨m, hm, u, _, hempty⟩
    exact ⟨m, hm, (String.append_eq_empty_iff.mp hempty.symm).1⟩
  · rintro ⟨m, hm, hempty⟩
    exact ⟨m, hm, "", .inl rfl, by rw [hempty, String.append_empty]⟩

theorem nodup_spelled_iff :
    n.spelled.Nodup ↔ (∀ m ∈ n.children, m.name ≠ "") ∧ n.spelledInside.Nodup := by
  have hself : n.name ∉ n.spelledInside.map (n.name ++ ·) ↔ ∀ m ∈ n.children, m.name ≠ "" := by
    have hempty : n.name ∈ n.spelledInside.map (n.name ++ ·) ↔ "" ∈ n.spelledInside := by
      simp
    rw [hempty, empty_mem_spelledInside]
    simp
  rw [spelled_eq, List.nodup_cons, hself,
    List.nodup_map_iff fun u v h => (String.append_right_inj _).mp h]

/-- What keeps the texts inside a container apart from each other and from its own. -/
def Clear (c : Node) : Prop := (∀ m ∈ c.children, m.name ≠ "") ∧ ¬ Clashing c.children

theorem nodup_spelled_iff_clear (hd : ∀ c ∈ n.all, (c.children.map name).Nodup) :
    n.spelled.Nodup ↔ ∀ c ∈ n.all, c.Clear := by
  induction n using induct with
  | h n ih =>
    rw [all_eq, List.forall_mem_cons] at hd
    obtain ⟨hn, hinside⟩ := hd
    have hbelow : (∀ m ∈ n.children, m.spelled.Nodup) ↔
        ∀ c ∈ n.children.flatMap all, c.Clear := by
      rw [List.forall_mem_flatMap]
      refine forall₂_congr fun m hm => ih m hm fun c hc => ?_
      exact hinside c (List.mem_flatMap.mpr ⟨m, hm, hc⟩)
    rw [nodup_spelled_iff, spelledInside, nodup_siblings_iff hn, hbelow, all_eq,
      List.forall_mem_cons, Clear]
    tauto

end Node

namespace Tree

variable {t : Tree}

/-- The lists of siblings: the navigators of the top level, and the nodes directly inside each
node. -/
def families (t : Tree) : List (List Node) :=
  t.navigators.map Navigator.node :: t.nodes.map Node.children

/-- No two siblings have the same name. -/
def SiblingsApart (t : Tree) : Prop := ∀ siblings ∈ t.families, (siblings.map Node.name).Nodup

/-- A node below the top level has the empty name, or two siblings clash. -/
def Ambiguous (t : Tree) : Prop :=
  (∃ c ∈ t.nodes, ∃ m ∈ c.children, m.name = "") ∨ ∃ siblings ∈ t.families, Node.Clashing siblings

theorem Settled.graphNames_eq (ht : t.Settled) :
    t.nodes.map Node.graphName = (t.navigators.map Navigator.node).flatMap Node.spelled := by
  rw [nodes, List.map_flatMap]
  refine List.flatMap_congr fun m hm => ?_
  obtain ⟨n, hn, rfl⟩ := List.mem_map.mp hm
  obtain ⟨hp, hs⟩ := ht.navigators n hn
  have htop : n.node.graphName = "" ++ n.node.name := by
    rw [Node.graphName_of_top (m := n.node) hp, String.empty_append]
  rw [Node.graphNames_eq hs htop]
  simp

theorem nodup_spelled_iff (hd : t.SiblingsApart) :
    ((t.navigators.map Navigator.node).flatMap Node.spelled).Nodup ↔ ¬ t.Ambiguous := by
  obtain ⟨htop, hinside⟩ := List.forall_mem_cons.mp hd
  rw [List.forall_mem_map] at hinside
  have hclear : (∀ n ∈ t.navigators.map Navigator.node, n.spelled.Nodup) ↔
      ∀ c ∈ t.nodes, c.Clear := by
    rw [nodes, List.forall_mem_flatMap]
    refine forall₂_congr fun n hn => Node.nodup_spelled_iff_clear fun c hc => ?_
    exact hinside c (List.mem_flatMap.mpr ⟨n, hn, hc⟩)
  rw [Node.nodup_siblings_iff htop, hclear, Ambiguous, families]
  constructor
  · rintro ⟨hc, hfree⟩ (⟨c, hmem, m, hm, hempty⟩ | ⟨siblings, hs, hclash⟩)
    · exact (hc c hmem).1 m hm hempty
    · rcases List.mem_cons.mp hs with rfl | hs
      · exact hfree hclash
      · obtain ⟨c, hmem, rfl⟩ := List.mem_map.mp hs
        exact (hc c hmem).2 hclash
  · intro h
    refine ⟨fun c hmem => ⟨fun m hm hempty => h (.inl ⟨c, hmem, m, hm, hempty⟩), fun hclash => ?_⟩,
      fun hclash => h (.inr ⟨_, List.mem_cons_self, hclash⟩)⟩
    exact h (.inr ⟨_, List.mem_cons_of_mem _ (List.mem_map_of_mem hmem), hclash⟩)

/-- With the names of siblings apart, the ids of the boxes are apart exactly if nothing clashes. -/
theorem graph_ids_nodup_iff {j : Json} (h : ofJson j = .ok t) (hd : t.SiblingsApart) :
    ((t.nodes.map Node.graphName).Nodup ↔ ¬ t.Ambiguous) ∧
    (((boxes t.navigators).map Box.id).Nodup ↔ ¬ t.Ambiguous) := by
  have ht : t.Settled := (ofJson_settled h).1
  have hnames : (t.nodes.map Node.graphName).Nodup ↔ ¬ t.Ambiguous := by
    rw [ht.graphNames_eq, nodup_spelled_iff hd]
  refine ⟨hnames, ?_⟩
  have hids : ((boxes t.navigators).map Box.id).Perm (t.nodes.map Node.graphName) := by
    have hboxes : (t.nodes.map Node.box).map Box.id = t.nodes.map Node.graphName := by
      rw [List.map_map]
      exact List.map_congr_left fun n _ => n.box_id
    exact hboxes ▸ (boxes_perm t).map Box.id
  rw [hids.nodup_iff, hnames]

/-- Nothing clashes if no name is the beginning of that of a sibling. -/
theorem not_ambiguous (hnamed : ∀ c ∈ t.nodes, ∀ m ∈ c.children, m.name ≠ "")
    (hfree : ∀ siblings ∈ t.families, ∀ a ∈ siblings, ∀ b ∈ siblings,
      a.name ≠ b.name → ¬ a.name.toList <+: b.name.toList) : ¬ t.Ambiguous := by
  rintro (⟨c, hc, m, hm, hempty⟩ | ⟨siblings, hs, a, ha, b, hb, hne, z, hz, _⟩)
  · exact hnamed c hc m hm hempty
  · exact hfree siblings hs a ha b hb hne ⟨z.toList, by rw [hz, String.toList_append]⟩

end Tree

namespace Plain

theorem shared_graph_ids :
    Tree.ofJson sharedJson = .ok sharedTree ∧ sharedTree.SiblingsApart ∧
    (sharedTree.nodes.map Node.graphName).Nodup ∧
    ((boxes sharedTree.navigators).map Box.id).Nodup := by
  have hd : sharedTree.SiblingsApart := by
    unfold Tree.SiblingsApart
    decide +kernel
  have hclear : ¬ sharedTree.Ambiguous := Tree.not_ambiguous (by decide +kernel) (by decide +kernel)
  obtain ⟨hnames, hids⟩ := Tree.graph_ids_nodup_iff ofJson_sharedJson hd
  exact ⟨ofJson_sharedJson, hd, hnames.mpr hclear, hids.mpr hclear⟩

/-- A screen beside a group whose name it continues by the name of the screen in the group. -/
def abcJson : Json :=
  treeJson [navigatorJson "A" false [screenJson "BC", groupJson "B" [screenJson "C"]]]

def abcHead : NavigatorHead := head "A" false none

def abcScreen : Screen := screen "BC" abcHead.trail

def abcInner : Screen := screen "C" (.push (some abcHead.trail) ⟨.group, "B", false, false⟩)

def abcTree : Tree :=
  tree [⟨abcHead, [.screen abcScreen, .group (group "B" abcHead.trail [abcInner])]⟩]

theorem abc_graph_ids_clash :
    Tree.ofJson abcJson = .ok abcTree ∧ abcTree.SiblingsApart ∧
    abcTree.nodes.map Node.graphName = ["A", "ABC", "AB", "ABC"] ∧
    ¬ ((boxes abcTree.navigators).map Box.id).Nodup := by
  unfold Tree.SiblingsApart
  exact ⟨rfl, by decide +kernel, by decide +kernel, by decide +kernel⟩

end Plain

end NavTree
