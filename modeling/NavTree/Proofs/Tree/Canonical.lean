import NavTree.Proofs.Tree.Linked

/-! # Canonical trees

What a normalized tree carries at every depth: the trail of each node is the way to it, groups are
marked by the names of the declared ones alone, the settings are those of the tree, and tags and
names nest as they did in the outline.
-/
namespace NavTree

/-- The container stands in navigators only. -/
def Trail.InNavigators (t : Trail) : Prop := ∀ l ∈ t.outer, l.tag = .navigator

namespace Tree

variable {t : Tree} {way : List Node} {node : Node}

theorem Settled.chain (ht : t.Settled) (h : t.Stands way node) {parent : Trail}
    (hp : node.parent? = some parent) : way.map Node.link? = parent.chain.map some := by
  rw [ht.way_links h, hp]
  rfl

theorem Settled.outside_navigators (ht : t.Settled) (h : t.Stands way node) {l : Link}
    (hl : node.link? = some l) : ∀ o ∈ Trail.links node.parent?, o.tag = .navigator := by
  induction h generalizing l with
  | navigator h =>
    have hp : Node.parent? (Navigator.node _) = none := (ht.navigators _ h).1
    simp [hp, Trail.links]
  | group h =>
    have hp : Node.parent? (.group _) = none := (ht.groups _ h).1
    simp [hp, Trail.links]
  | child hs hm ih =>
    rcases Node.mem_children.mp hm with ⟨n, rfl, _⟩ | ⟨_, _, _, rfl, _⟩
    · rw [(ht.of_stands hs).parent hm]
      exact List.forall_mem_cons.mpr ⟨rfl, ih rfl⟩
    · cases hl

theorem Settled.in_navigators (ht : t.Settled) {s : Screen} (h : t.Stands way (.screen s)) :
    s.parent.InNavigators := by
  rcases h.screen_cases with ⟨outer, n, _, hn, hs⟩ | ⟨outer, g, _, hg, hs⟩
  · have hp : s.parent = n.trail := (ht.of_stands hn).linked.screen hs
    rw [hp]
    exact ht.outside_navigators hn rfl
  · rw [(ht.of_stands hg).group_parent hs]
    exact ht.outside_navigators hg rfl

theorem Settled.reference_iff (ht : t.Settled) {g : Group} (h : t.Stands way (.group g)) :
    g.reference = true ↔ g.name ∈ t.groups.map (·.name) := by
  rw [(ht.of_stands h).marked, List.contains_iff_mem]
  rfl

theorem ofJson_canonical {j : Json} (hj : ofJson j = .ok t) :
    (∃ o, Outline.ofJson j = .ok o ∧ t.config = o.config ∧ t.shape = o.shape) ∧
    (∀ n ∈ t.navigators, n.parent = none) ∧
    (∀ g ∈ t.groups, g.parent = none) ∧
    ∀ way node, t.Stands way node →
      node.parent? = way.getLast?.bind Node.trail? ∧
      (∀ parent, node.parent? = some parent → way.map Node.link? = parent.chain.map some) ∧
      node.config = t.config ∧
      ∀ g, node = .group g →
        (g.reference = true ↔ g.name ∈ t.groups.map (·.name)) ∧
        ∀ s ∈ g.children, s.parent.link.reference = g.reference := by
  obtain ⟨ht, ho⟩ := ofJson_settled hj
  refine ⟨ho, fun n hn => (ht.navigators n hn).1, fun g hg => (ht.groups g hg).1, ?_⟩
  intro way node h
  refine ⟨ht.parent h, fun parent hp => ht.chain h hp, (ht.of_stands h).config, ?_⟩
  rintro g rfl
  refine ⟨ht.reference_iff h, fun s hs => ?_⟩
  rw [(ht.of_stands h).group_parent hs]
  rfl

end Tree

namespace Plain

/-- A declared group and one that is not declared, side by side two navigators deep. -/
def sharedJson : Json :=
  .object [("config", .object [("path", .string "src")]),
    ("groups", .array [groupJson "Shared" [screenJson "Detail"]]),
    ("navigators", .array [navigatorJson "App" true [navigatorJson "Home" false
      [groupJson "Custom" [screenJson "Detail"], groupJson "Shared" [screenJson "Detail"]]]])]

def sharedOutline : Outline where
  config := config
  groups := [groupOutline "Shared" [screenOutline "Detail"]]
  navigators := [navigatorOutline "App" true [navigatorOutline "Home" false
    [groupOutline "Custom" [screenOutline "Detail"], groupOutline "Shared" [screenOutline "Detail"]]]]

def appHead : NavigatorHead := head "App" true none

def appHomeHead : NavigatorHead := head "Home" false (some appHead.trail)

def sharedLink : Link := ⟨.group, "Shared", true, false⟩

def detail : Screen := screen "Detail" (.push (some appHomeHead.trail) sharedLink)

def shared : Group := { group "Shared" appHomeHead.trail [detail] with reference := true }

def customDetail : Screen :=
  screen "Detail" (.push (some appHomeHead.trail) ⟨.group, "Custom", false, false⟩)

def custom : Group := group "Custom" appHomeHead.trail [customDetail]

def appHome : Navigator := ⟨appHomeHead, [.group custom, .group shared]⟩

def app : Navigator := ⟨appHead, [appHome.node]⟩

def declaredShared : Group :=
  ⟨"Shared", none, none, [screen "Detail" (.push none sharedLink)], true, none, config⟩

def sharedTree : Tree := ⟨config, [declaredShared], [app]⟩

theorem ofJson_sharedJson : Tree.ofJson sharedJson = .ok sharedTree := by
  rw [Tree.ofJson, bind_eq_ok]
  exact ⟨sharedOutline, rfl, rfl⟩

theorem appHome_stands : sharedTree.Stands [app.node] appHome.node :=
  .child (.navigator List.mem_cons_self) List.mem_cons_self

theorem custom_stands : sharedTree.Stands [app.node, appHome.node] (.group custom) :=
  appHome_stands.child List.mem_cons_self

theorem shared_stands : sharedTree.Stands [app.node, appHome.node] (.group shared) :=
  appHome_stands.child (List.mem_cons_of_mem _ List.mem_cons_self)

theorem detail_stands :
    sharedTree.Stands [app.node, appHome.node, .group shared] (.screen detail) :=
  shared_stands.child List.mem_cons_self

theorem shared_canonical :
    Tree.ofJson sharedJson = .ok sharedTree ∧
    [some ⟨.navigator, "App", false, true⟩, some ⟨.navigator, "Home", false, false⟩,
      some sharedLink] = detail.parent.chain.map some ∧
    shared.reference = true ∧ detail.parent.link.reference = shared.reference := by
  obtain ⟨_, _, _, hnodes⟩ := Tree.ofJson_canonical ofJson_sharedJson
  obtain ⟨_, hchain, _⟩ := hnodes _ _ detail_stands
  obtain ⟨_, _, _, hgroup⟩ := hnodes _ _ shared_stands
  obtain ⟨href, hinside⟩ := hgroup shared rfl
  exact ⟨ofJson_sharedJson, hchain _ rfl, href.mpr (by decide), hinside detail List.mem_cons_self⟩

end Plain

end NavTree
