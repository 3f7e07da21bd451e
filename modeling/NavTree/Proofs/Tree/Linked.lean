import NavTree.Proofs.Result
import NavTree.Proofs.Tree.Nesting
import NavTree.Tree.Normal

/-! # Links of normalized trees

A trail is handed to the children before their container is finished. The finished container has
the same trail, so every node of a normalized tree carries the trail of the navigator or group that
holds it. Together with the settings and the marks of groups this is settled on the way down; the
shape of the outline is kept on the way.
-/
namespace NavTree

/-- A node carries the given trail, and the screens of a group carry that of the group. -/
def Node.Under (parent : Trail) : Node → Prop
  | navigator head _ => head.parent = some parent
  | group g => g.parent = some parent ∧ ∀ s ∈ g.children, s.parent = g.trail
  | screen s => s.parent = parent

/-- Every child of the navigator carries its trail. -/
def Navigator.Linked (n : Navigator) : Prop := ∀ node ∈ n.children, node.Under n.trail

/-- No navigator of the top level has a container, and every navigator at any depth is linked. -/
structure Tree.Linked (t : Tree) : Prop where
  top : ∀ n ∈ t.navigators, n.parent = none
  inside : ∀ n, t.Contains n → n.Linked

namespace Navigator

variable {n : Navigator}

theorem Linked.nested (h : n.Linked) {child : Navigator} (hc : child ∈ n.nested) :
    child.parent = some n.trail := h child.node (mem_nested.mp hc)

theorem Linked.screen (h : n.Linked) {s : Screen} (hs : .screen s ∈ n.children) :
    s.parent = n.trail := h _ hs

theorem Linked.group (h : n.Linked) {g : Group} (hg : .group g ∈ n.children) :
    g.parent = some n.trail := (h _ hg).1

theorem Linked.groupScreen (h : n.Linked) {g : Group} (hg : .group g ∈ n.children) {s : Screen}
    (hs : s ∈ g.children) : s.parent = .push (some n.trail) g.link := by
  have hp := (h _ hg).2 s hs
  rwa [Group.trail, h.group hg] at hp

end Navigator

/-- A node carries the settings of its tree, is marked by the declared names if it is a group, and
hands its trail to the nodes directly inside, which are settled in turn. -/
inductive Surroundings.Settled (env : Surroundings) : Node → Prop
  | intro {node : Node} (config : node.config = env.config)
    (marked : ∀ g, node = .group g → g.reference = env.declared.contains g.name)
    (linked : ∀ m ∈ node.children, m.parent? = node.trail?)
    (inside : ∀ m ∈ node.children, Settled env m) : Settled env node

namespace Surroundings.Settled

variable {env : Surroundings} {node : Node}

theorem config (h : env.Settled node) : node.config = env.config := by
  cases h with
  | intro config _ _ _ => exact config

theorem marked {g : Group} (h : env.Settled (.group g)) :
    g.reference = env.declared.contains g.name := by
  cases h with
  | intro _ marked _ _ => exact marked g rfl

theorem parent (h : env.Settled node) {m : Node} (hm : m ∈ node.children) :
    m.parent? = node.trail? := by
  cases h with
  | intro _ _ linked _ => exact linked m hm

theorem inside (h : env.Settled node) {m : Node} (hm : m ∈ node.children) : env.Settled m := by
  cases h with
  | intro _ _ _ inside => exact inside m hm

theorem group_parent {g : Group} (h : env.Settled (.group g)) {s : Screen} (hs : s ∈ g.children) :
    s.parent = g.trail :=
  Option.some.inj (h.parent (List.mem_map.mpr ⟨s, hs, rfl⟩))

theorem linked {n : Navigator} (h : env.Settled n.node) : n.Linked := by
  intro node hn
  have hp : node.parent? = some n.trail := h.parent hn
  cases node with
  | navigator head children => exact hp
  | group g =>
    have hg : env.Settled (.group g) := h.inside hn
    exact ⟨hp, fun s hs => hg.group_parent hs⟩
  | screen s => exact Option.some.inj hp

end Surroundings.Settled

/-- What the nodes of a tree share. -/
def Tree.surroundings (t : Tree) : Surroundings := ⟨t.config, t.groups.map (·.name)⟩

structure Tree.Settled (t : Tree) : Prop where
  navigators : ∀ n ∈ t.navigators, n.parent = none ∧ t.surroundings.Settled n.node
  groups : ∀ g ∈ t.groups, g.parent = none ∧ t.surroundings.Settled (.group g)

namespace Tree

variable {t : Tree} {way : List Node} {node : Node}

theorem Settled.of_stands (ht : t.Settled) (h : t.Stands way node) :
    t.surroundings.Settled node := by
  induction h with
  | navigator h => exact (ht.navigators _ h).2
  | group h => exact (ht.groups _ h).2
  | child _ hm ih => exact ih.inside hm

/-- A node carries the trail inside the last container on the way to it. -/
theorem Settled.parent (ht : t.Settled) (h : t.Stands way node) :
    node.parent? = way.getLast?.bind Node.trail? := by
  cases h with
  | navigator h => exact (ht.navigators _ h).1
  | group h => exact (ht.groups _ h).1
  | child hc hm => simpa using (ht.of_stands hc).parent hm

/-- The trail that a node carries spells the way to it. -/
theorem Settled.way_links (ht : t.Settled) (h : t.Stands way node) :
    way.map Node.link? = (Trail.links node.parent?).reverse.map some := by
  induction h with
  | navigator h =>
    have hp : Node.parent? (Navigator.node _) = none := (ht.navigators _ h).1
    rw [hp]
    rfl
  | group h =>
    have hp : Node.parent? (.group _) = none := (ht.groups _ h).1
    rw [hp]
    rfl
  | @child way c m hc hm ih =>
    -- The trail inside the last container is its link on top of its own trail.
    obtain ⟨l, hl⟩ := Node.exists_link hm
    have htrail : c.trail? = some (.push c.parent? l) := by rw [Node.trail?, hl]; rfl
    have hlinks : Trail.links m.parent? = l :: Trail.links c.parent? := by
      rw [(ht.of_stands hc).parent hm, htrail]
      rfl
    rw [hlinks, List.map_append, ih]
    simp [hl]

theorem Settled.linked (ht : t.Settled) : t.Linked where
  top n hn := (ht.navigators n hn).1
  inside n hn := by
    obtain ⟨way, hw⟩ := hn.stands
    exact (ht.of_stands hw).linked

end Tree

namespace Surroundings

variable {env : Surroundings}

theorem screen_settled {parent : Trail} {place : Place} {o : ScreenOutline} {s : Screen}
    (h : env.screen parent place o = .ok s) :
    s.parent = parent ∧ s.config = env.config ∧ s.name = o.name := by
  simp only [screen, bind_eq_ok, pure_eq_ok] at h
  obtain ⟨props, _, params, _, rfl⟩ := h
  exact ⟨rfl, rfl, rfl⟩

theorem settled_screen {s : Screen} (h : s.config = env.config) : env.Settled (.screen s) :=
  .intro h (by simp) (by simp [Node.children]) (by simp [Node.children])

theorem screens_settled {parent : Trail} {place : Place} {i : Nat} {os : List NodeOutline}
    {ss : List Screen} (h : env.screens parent place i os = .ok ss) :
    (∀ s ∈ ss, s.parent = parent ∧ s.config = env.config) ∧
      ss.map Screen.shape = NodeOutline.shapes os := by
  induction os generalizing i ss with
  | nil =>
    simp only [screens, pure_eq_ok] at h
    subst h
    exact ⟨by simp, rfl⟩
  | cons o rest ih =>
    cases o with
    | screen o =>
      simp only [screens, bind_eq_ok, pure_eq_ok] at h
      obtain ⟨s, hs, others, ho, rfl⟩ := h
      obtain ⟨hp, hc, hn⟩ := screen_settled hs
      obtain ⟨hrest, hshape⟩ := ih ho
      refine ⟨List.forall_mem_cons.mpr ⟨⟨hp, hc⟩, hrest⟩, ?_⟩
      rw [List.map_cons, hshape, Screen.shape, hn]
      rfl
    | navigator o children => simp [screens] at h
    | group o children => simp [screens] at h

theorem group_settled {parent : Option Trail} {reference : Bool} {place : Place}
    {o : GroupOutline} {children : List NodeOutline} {g : Group}
    (hr : reference = env.declared.contains o.name)
    (h : env.group parent reference place o children = .ok g) :
    g.parent = parent ∧ env.Settled (.group g) ∧
      (Node.group g).shape = (NodeOutline.group o children).shape := by
  simp only [group, bind_eq_ok, pure_eq_ok] at h
  obtain ⟨ss, hss, props, _, rfl⟩ := h
  obtain ⟨hin, hshape⟩ := screens_settled hss
  refine ⟨rfl, ?_, congrArg (Shape.mk .group o.name) hshape⟩
  refine .intro rfl ?_ ?_ ?_
  · rintro g ⟨⟩
    exact hr
  · intro m hm
    obtain ⟨s, hs, rfl⟩ := List.mem_map.mp hm
    exact congrArg some (hin s hs).1
  · intro m hm
    obtain ⟨s, hs, rfl⟩ := List.mem_map.mp hm
    exact settled_screen (hin s hs).2

/-- A navigator is settled if its head is finished and its children were made inside its link. -/
theorem navigator_settled {parent : Option Trail} {place : Place} {o : NavigatorOutline}
    {head : NavigatorHead} {inside : List Node} (h : env.head parent place o = .ok head)
    (hi : ∀ m ∈ inside, m.parent? = some (.push parent o.link) ∧ env.Settled m) :
    head.parent = parent ∧ head.name = o.name ∧ env.Settled (.navigator head inside) := by
  simp only [Surroundings.head, bind_eq_ok, pure_eq_ok] at h
  obtain ⟨props, _, rfl⟩ := h
  exact ⟨rfl, rfl, .intro rfl (by simp) (fun m hm => (hi m hm).1) (fun m hm => (hi m hm).2)⟩

mutual

theorem node_settled {parent : Trail} {place : Place} : ∀ {o : NodeOutline} {node : Node},
    env.node parent place o = .ok node →
      node.parent? = some parent ∧ env.Settled node ∧ node.shape = o.shape
  | .navigator o children, node, h => by
    simp only [Surroundings.node, bind_eq_ok, pure_eq_ok] at h
    obtain ⟨inside, hi, head, hh, rfl⟩ := h
    obtain ⟨hin, hshape⟩ := nodes_settled hi
    obtain ⟨hp, hn, hs⟩ := navigator_settled hh hin
    refine ⟨hp, hs, ?_⟩
    rw [Node.shape, NodeOutline.shape, hn, hshape]
  | .group o children, node, h => by
    simp only [Surroundings.node, bind_eq_ok, pure_eq_ok] at h
    obtain ⟨g, hg, rfl⟩ := h
    exact group_settled rfl hg
  | .screen o, node, h => by
    simp only [Surroundings.node, bind_eq_ok, pure_eq_ok] at h
    obtain ⟨s, hs, rfl⟩ := h
    obtain ⟨hp, hc, hn⟩ := screen_settled hs
    refine ⟨congrArg some hp, settled_screen hc, ?_⟩
    rw [Node.shape, Screen.shape, NodeOutline.shape, hn]

theorem nodes_settled {parent : Trail} {place : Place} : ∀ {i : Nat} {os : List NodeOutline}
    {ns : List Node}, env.nodes parent place i os = .ok ns →
      (∀ node ∈ ns, node.parent? = some parent ∧ env.Settled node) ∧
        Node.shapes ns = NodeOutline.shapes os
  | _, [], ns, h => by
    simp only [Surroundings.nodes, pure_eq_ok] at h
    subst h
    exact ⟨by simp, rfl⟩
  | i, o :: rest, ns, h => by
    simp only [Surroundings.nodes, bind_eq_ok, pure_eq_ok] at h
    obtain ⟨n, hn, others, ho, rfl⟩ := h
    obtain ⟨hp, hs, hshape⟩ := node_settled hn
    obtain ⟨hrest, hshapes⟩ := nodes_settled ho
    refine ⟨List.forall_mem_cons.mpr ⟨⟨hp, hs⟩, hrest⟩, ?_⟩
    rw [Node.shapes, NodeOutline.shapes, hshape, hshapes]

end

theorem navigators_settled {i : Nat} {os : List NodeOutline} {ns : List Navigator}
    (h : env.navigators i os = .ok ns) :
    (∀ n ∈ ns, n.parent = none ∧ env.Settled n.node) ∧
      Node.shapes (ns.map Navigator.node) = NodeOutline.shapes os := by
  induction os generalizing i ns with
  | nil =>
    simp only [navigators, pure_eq_ok] at h
    subst h
    exact ⟨by simp, rfl⟩
  | cons o rest ih =>
    cases o with
    | navigator o children =>
      simp only [navigators, bind_eq_ok, pure_eq_ok] at h
      obtain ⟨inside, hi, head, hh, others, ho, rfl⟩ := h
      obtain ⟨hin, hshape⟩ := nodes_settled hi
      obtain ⟨hp, hn, hs⟩ := navigator_settled hh hin
      obtain ⟨hrest, hshapes⟩ := ih ho
      refine ⟨List.forall_mem_cons.mpr ⟨⟨hp, hs⟩, hrest⟩, ?_⟩
      rw [List.map_cons, Node.shapes, NodeOutline.shapes, hshapes, Navigator.node, Node.shape,
        NodeOutline.shape, hn, hshape]
    | group o children => simp [navigators] at h
    | screen o => simp [navigators] at h

theorem groups_settled {i : Nat} {ds : List (GroupOutline × List NodeOutline)} {gs : List Group}
    (hd : ∀ d ∈ ds, d.1.name ∈ env.declared) (h : env.groups i ds = .ok gs) :
    (∀ g ∈ gs, g.parent = none ∧ env.Settled (.group g)) ∧ gs.map (·.name) = ds.map (·.1.name) ∧
      Node.shapes (gs.map .group) = NodeOutline.shapes (ds.map fun d => .group d.1 d.2) := by
  induction ds generalizing i gs with
  | nil =>
    simp only [groups, pure_eq_ok] at h
    subst h
    exact ⟨by simp, rfl, rfl⟩
  | cons d rest ih =>
    obtain ⟨o, children⟩ := d
    simp only [groups, bind_eq_ok, pure_eq_ok] at h
    obtain ⟨g, hg, others, ho, rfl⟩ := h
    obtain ⟨ho', hrest⟩ := List.forall_mem_cons.mp hd
    obtain ⟨hp, hs, hshape⟩ := group_settled (by simpa using ho') hg
    obtain ⟨hgs, hnames, hshapes⟩ := ih hrest ho
    have hname : g.name = o.name := (Shape.mk.inj hshape).2.1
    refine ⟨List.forall_mem_cons.mpr ⟨⟨hp, hs⟩, hgs⟩, ?_, ?_⟩
    · rw [List.map_cons, List.map_cons, hnames, hname]
    · rw [List.map_cons, List.map_cons, Node.shapes, NodeOutline.shapes, hshape, hshapes]

end Surroundings

theorem declarations_eq {i : Nat} {os : List NodeOutline}
    {ds : List (GroupOutline × List NodeOutline)} (h : declarations i os = .ok ds) :
    os = ds.map fun d => .group d.1 d.2 := by
  induction os generalizing i ds with
  | nil =>
    simp only [declarations, pure_eq_ok] at h
    subst h
    rfl
  | cons o rest ih =>
    cases o with
    | group o children =>
      simp only [declarations, bind_eq_ok, pure_eq_ok] at h
      obtain ⟨others, ho, rfl⟩ := h
      rw [List.map_cons, ← ih ho]
    | navigator o children => simp [declarations] at h
    | screen o => simp [declarations] at h

namespace Tree

theorem ofOutline_settled {o : Outline} {t : Tree} (h : ofOutline o = .ok t) :
    t.Settled ∧ t.config = o.config ∧ t.shape = o.shape := by
  simp only [ofOutline, bind_eq_ok, pure_eq_ok] at h
  obtain ⟨ds, hd, ns, hn, gs, hg, rfl⟩ := h
  obtain ⟨hns, hnshape⟩ := Surroundings.navigators_settled hn
  obtain ⟨hgs, hnames, hgshape⟩ := Surroundings.groups_settled
    (fun d hd => List.mem_map.mpr ⟨d, hd, rfl⟩) hg
  rw [← hnames] at hns hgs
  refine ⟨⟨hns, hgs⟩, rfl, ?_⟩
  rw [Tree.shape, Outline.shape, hnshape, hgshape, ← declarations_eq hd]

theorem ofJson_settled {j : Json} {t : Tree} (h : ofJson j = .ok t) :
    t.Settled ∧ ∃ o, Outline.ofJson j = .ok o ∧ t.config = o.config ∧ t.shape = o.shape := by
  simp only [ofJson, bind_eq_ok] at h
  obtain ⟨o, hj, ho⟩ := h
  obtain ⟨hs, hc, hshape⟩ := ofOutline_settled ho
  exact ⟨hs, o, hj, hc, hshape⟩

theorem ofJson_linked {j : Json} {t : Tree} (h : ofJson j = .ok t) : t.Linked :=
  (ofJson_settled h).1.linked

end Tree

namespace Plain

def screenJson (name : String) : Json :=
  .object [("_tag", .string "Screen"), ("name", .string name)]

def groupJson (name : String) (children : List Json) : Json :=
  .object [("_tag", .string "Group"), ("name", .string name), ("children", .array children)]

def navigatorJson (name : String) (root : Bool) (children : List Json) : Json :=
  .object [("_tag", .string "Navigator"), ("name", .string name), ("root", .bool root),
    ("children", .array children)]

def externalJson (name path : String) : Json :=
  .object [("_tag", .string "Navigator"), ("name", .string name), ("path", .string path),
    ("children", .array [])]

def treeJson (navigators : List Json) : Json :=
  .object [("config", .object [("path", .string "src")]), ("navigators", .array navigators)]

def screenOutline (name : String) : NodeOutline := .screen ⟨name, none, none, none, none, none⟩

def groupOutline (name : String) (children : List NodeOutline) : NodeOutline :=
  .group ⟨name, none, none⟩ children

def navigatorOutline (name : String) (root : Bool) (children : List NodeOutline) : NodeOutline :=
  .navigator ⟨name, none, some root, none, none, none⟩ children

def config : Config := ⟨"src", true, none⟩

def screen (name : String) (parent : Trail) : Screen :=
  ⟨name, none, .screen, none, none, none, parent, config⟩

def group (name : String) (parent : Trail) (children : List Screen) : Group :=
  ⟨name, none, none, children, false, some parent, config⟩

def head (name : String) (root : Bool) (parent : Option Trail) : NavigatorHead :=
  ⟨name, false, root, none, .nativeStack, none, parent, config⟩

def externalHead (name path : String) (parent : Option Trail) : NavigatorHead :=
  ⟨name, false, false, some path, .nativeStack, none, parent, config⟩

def tree (navigators : List Navigator) : Tree := ⟨config, [], navigators⟩

end Plain

end NavTree
