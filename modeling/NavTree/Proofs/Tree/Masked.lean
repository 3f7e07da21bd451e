import NavTree.Proofs.Tree.Seen

/-! # Masked trees

Masking blanks the names of the root navigators, those of the nodes and those in the trails.
Normalizing a masked outline gives the masked tree. No derived name but the graph name sees the
difference, so trees whose outlines differ in the names of roots only have the same names.
-/
namespace NavTree

def NavigatorOutline.masked (o : NavigatorOutline) : NavigatorOutline :=
  { o with name := if o.root.getD false then "" else o.name }

namespace NodeOutline

mutual

def masked : NodeOutline → NodeOutline
  | navigator head children => navigator head.masked (maskedAll children)
  | group head children => group head (maskedAll children)
  | screen s => screen s

def maskedAll : List NodeOutline → List NodeOutline
  | [] => []
  | o :: rest => masked o :: maskedAll rest

end

end NodeOutline

def Outline.masked (o : Outline) : Outline :=
  ⟨o.config, NodeOutline.maskedAll o.groups, NodeOutline.maskedAll o.navigators⟩

def Link.masked (l : Link) : Link :=
  if l.tag = .navigator ∧ l.root = true then { l with name := "" } else l

def Trail.masked (t : Trail) : Trail := ⟨t.link.masked, t.outer.map Link.masked⟩

def Screen.masked (s : Screen) : Screen := { s with parent := s.parent.masked }

def Group.masked (g : Group) : Group :=
  { g with children := g.children.map Screen.masked, parent := g.parent.map Trail.masked }

def NavigatorHead.masked (n : NavigatorHead) : NavigatorHead :=
  { n with name := if n.root then "" else n.name, parent := n.parent.map Trail.masked }

namespace Node

mutual

def masked : Node → Node
  | navigator head inside => navigator head.masked (maskedAll inside)
  | group g => group g.masked
  | screen s => screen s.masked

def maskedAll : List Node → List Node
  | [] => []
  | n :: rest => masked n :: maskedAll rest

end

theorem maskedAll_eq_map (nodes : List Node) : maskedAll nodes = nodes.map masked := by
  induction nodes with
  | nil => rfl
  | cons n rest ih => rw [maskedAll, ih, List.map_cons]

end Node

def Navigator.masked (n : Navigator) : Navigator :=
  ⟨n.toNavigatorHead.masked, Node.maskedAll n.children⟩

def Tree.masked (t : Tree) : Tree :=
  ⟨t.config, t.groups.map Group.masked, t.navigators.map Navigator.masked⟩

theorem Trail.masked_push (parent : Option Trail) (l : Link) :
    (push parent l).masked = push (parent.map masked) l.masked := by
  cases parent <;> rfl

theorem NavigatorOutline.masked_link (o : NavigatorOutline) : o.masked.link = o.link.masked := by
  cases h : o.root.getD false <;> simp [link, masked, Link.masked, h]

namespace Surroundings

variable {env : Surroundings} {place : Place}

theorem screen_masked {parent : Trail} {o : ScreenOutline} {s : Screen}
    (h : env.screen parent place o = .ok s) :
    env.screen parent.masked place o = .ok s.masked := by
  simp only [screen, bind_eq_ok, pure_eq_ok] at h ⊢
  obtain ⟨props, hprops, params, hparams, rfl⟩ := h
  exact ⟨props, hprops, params, hparams, rfl⟩

theorem screens_masked {parent : Trail} {i : Nat} {os : List NodeOutline} {ss : List Screen}
    (h : env.screens parent place i os = .ok ss) :
    env.screens parent.masked place i (NodeOutline.maskedAll os) =
      .ok (ss.map Screen.masked) := by
  induction os generalizing i ss with
  | nil =>
    simp only [screens, pure_eq_ok] at h
    subst h
    rfl
  | cons o rest ih =>
    cases o with
    | screen o =>
      simp only [screens, bind_eq_ok, pure_eq_ok] at h
      obtain ⟨s, hs, others, ho, rfl⟩ := h
      simp only [NodeOutline.maskedAll, NodeOutline.masked, screens, bind_eq_ok, pure_eq_ok]
      exact ⟨_, screen_masked hs, _, ih ho, rfl⟩
    | navigator o children => simp [screens] at h
    | group o children => simp [screens] at h

theorem group_masked {parent : Option Trail} {reference : Bool} {o : GroupOutline}
    {children : List NodeOutline} {g : Group}
    (h : env.group parent reference place o children = .ok g) :
    env.group (parent.map Trail.masked) reference place o (NodeOutline.maskedAll children) =
      .ok g.masked := by
  simp only [group, bind_eq_ok, pure_eq_ok] at h ⊢
  obtain ⟨ss, hss, props, hprops, rfl⟩ := h
  have hinside := screens_masked hss
  rw [Trail.masked_push] at hinside
  exact ⟨_, hinside, props, hprops, rfl⟩

theorem head_masked {parent : Option Trail} {o : NavigatorOutline} {head : NavigatorHead}
    (h : env.head parent place o = .ok head) :
    env.head (parent.map Trail.masked) place o.masked = .ok head.masked := by
  simp only [Surroundings.head, bind_eq_ok, pure_eq_ok] at h ⊢
  obtain ⟨props, hprops, rfl⟩ := h
  exact ⟨props, hprops, rfl⟩

mutual

theorem node_masked {parent : Trail} {place : Place} : ∀ {o : NodeOutline} {n : Node},
    env.node parent place o = .ok n → env.node parent.masked place o.masked = .ok n.masked
  | .navigator o children, n, h => by
    simp only [node, bind_eq_ok, pure_eq_ok] at h
    obtain ⟨inside, hi, head, hh, rfl⟩ := h
    have hinside := nodes_masked hi
    rw [Trail.masked_push, ← NavigatorOutline.masked_link] at hinside
    simp only [NodeOutline.masked, node, bind_eq_ok, pure_eq_ok]
    exact ⟨_, hinside, _, head_masked hh, by rw [Node.masked]⟩
  | .group o children, n, h => by
    simp only [node, bind_eq_ok, pure_eq_ok] at h
    obtain ⟨g, hg, rfl⟩ := h
    simp only [NodeOutline.masked, node, bind_eq_ok, pure_eq_ok]
    exact ⟨_, group_masked hg, by rw [Node.masked]⟩
  | .screen o, n, h => by
    simp only [node, bind_eq_ok, pure_eq_ok] at h
    obtain ⟨s, hs, rfl⟩ := h
    simp only [NodeOutline.masked, node, bind_eq_ok, pure_eq_ok]
    exact ⟨_, screen_masked hs, by rw [Node.masked]⟩

theorem nodes_masked {parent : Trail} {place : Place} : ∀ {i : Nat} {os : List NodeOutline}
    {ns : List Node}, env.nodes parent place i os = .ok ns →
      env.nodes parent.masked place i (NodeOutline.maskedAll os) = .ok (Node.maskedAll ns)
  | _, [], ns, h => by
    simp only [nodes, pure_eq_ok] at h
    subst h
    rfl
  | i, o :: rest, ns, h => by
    simp only [nodes, bind_eq_ok, pure_eq_ok] at h
    obtain ⟨n, hn, others, ho, rfl⟩ := h
    simp only [NodeOutline.maskedAll, nodes, bind_eq_ok, pure_eq_ok]
    exact ⟨_, node_masked hn, _, nodes_masked ho, by rw [Node.maskedAll]⟩

end

theorem navigators_masked {i : Nat} {os : List NodeOutline} {ns : List Navigator}
    (h : env.navigators i os = .ok ns) :
    env.navigators i (NodeOutline.maskedAll os) = .ok (ns.map Navigator.masked) := by
  induction os generalizing i ns with
  | nil =>
    simp only [navigators, pure_eq_ok] at h
    subst h
    rfl
  | cons o rest ih =>
    cases o with
    | navigator o children =>
      simp only [navigators, bind_eq_ok, pure_eq_ok] at h
      obtain ⟨inside, hi, head, hh, others, ho, rfl⟩ := h
      have hinside := nodes_masked hi
      rw [Trail.masked_push, ← NavigatorOutline.masked_link] at hinside
      simp only [NodeOutline.maskedAll, NodeOutline.masked, navigators, bind_eq_ok, pure_eq_ok]
      exact ⟨_, hinside, _, head_masked hh, _, ih ho, rfl⟩
    | group o children => simp [navigators] at h
    | screen o => simp [navigators] at h

theorem groups_masked {i : Nat} {ds : List (GroupOutline × List NodeOutline)} {gs : List Group}
    (h : env.groups i ds = .ok gs) :
    env.groups i (ds.map fun d => (d.1, NodeOutline.maskedAll d.2)) =
      .ok (gs.map Group.masked) := by
  induction ds generalizing i gs with
  | nil =>
    simp only [groups, pure_eq_ok] at h
    subst h
    rfl
  | cons d rest ih =>
    obtain ⟨o, children⟩ := d
    simp only [groups, bind_eq_ok, pure_eq_ok] at h
    obtain ⟨g, hg, others, ho, rfl⟩ := h
    simp only [List.map_cons, groups, bind_eq_ok, pure_eq_ok]
    exact ⟨_, group_masked hg, _, ih ho, rfl⟩

end Surroundings

theorem declarations_masked {i : Nat} {os : List NodeOutline}
    {ds : List (GroupOutline × List NodeOutline)} (h : declarations i os = .ok ds) :
    declarations i (NodeOutline.maskedAll os) =
      .ok (ds.map fun d => (d.1, NodeOutline.maskedAll d.2)) := by
  induction os generalizing i ds with
  | nil =>
    simp only [declarations, pure_eq_ok] at h
    subst h
    rfl
  | cons o rest ih =>
    cases o with
    | group o children =>
      simp only [declarations, bind_eq_ok, pure_eq_ok] at h
      obtain ⟨others, ho, rfl⟩ := h
      simp only [NodeOutline.maskedAll, NodeOutline.masked, declarations, bind_eq_ok, pure_eq_ok]
      exact ⟨_, ih ho, rfl⟩
    | navigator o children => simp [declarations] at h
    | screen o => simp [declarations] at h

/-- A masked outline is normalized to the masked tree. -/
theorem Tree.ofOutline_masked {o : Outline} {t : Tree} (h : ofOutline o = .ok t) :
    ofOutline o.masked = .ok t.masked := by
  simp only [ofOutline, bind_eq_ok, pure_eq_ok] at h ⊢
  obtain ⟨ds, hd, ns, hn, gs, hg, rfl⟩ := h
  refine ⟨_, declarations_masked hd, _, ?_, _, ?_, rfl⟩
  · rw [List.map_map]
    exact Surroundings.navigators_masked hn
  · rw [List.map_map]
    exact Surroundings.groups_masked hg

end NavTree
