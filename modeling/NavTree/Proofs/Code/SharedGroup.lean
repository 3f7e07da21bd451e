import Mathlib.Data.List.Nodup
import NavTree.Proofs.Tree.Canonical
import NavTree.Proofs.Tree.Seen

/-! # Sharing a declared group

A group that is declared at the top level may be referenced from many navigators. Its screens are
named after the group alone, so the references agree on every name and on all that is generated
for them, and flattening keeps each screen once.
-/
namespace NavTree

theorem firsts_keys_nodup {α κ : Type} [BEq κ] [LawfulBEq κ] (key : α → κ) (seen : List κ)
    (l : List α) : ((firsts key seen l).map key).Nodup := by
  induction l generalizing seen with
  | nil => exact List.nodup_nil
  | cons a as ih =>
    rw [firsts]
    split
    · exact ih seen
    · refine List.nodup_cons.mpr ⟨fun h => ?_, ih _⟩
      obtain ⟨b, hb, hk⟩ := List.mem_map.mp h
      exact (mem_firsts.mp hb).1 (hk ▸ List.mem_cons_self)

/-- A flattened tree keeps one screen at most with a name and container name. -/
theorem Tree.kept_once (t : Tree) (key : String × String) :
    (t.flatten.screens.filter (·.key == key)).length ≤ 1 := by
  have hnodup : (t.flatten.screens.map Screen.key).Nodup := firsts_keys_nodup ..
  have hcount : (t.flatten.screens.map Screen.key).count key ≤ 1 :=
    List.nodup_iff_count_le_one.mp hnodup key
  rwa [List.count, List.countP_map, List.countP_eq_length_filter] at hcount

namespace Tree

variable {t : Tree} {way way₁ way₂ : List Node} {g g₁ g₂ : Group} {s s₁ s₂ : Screen}

theorem Settled.group_screen_config (ht : t.Settled) (h : t.Stands way (.group g))
    (hs : s ∈ g.children) : s.config = t.config :=
  ((ht.of_stands h).inside (List.mem_map.mpr ⟨s, hs, rfl⟩)).config

/-- A group with a declared name hands on a reference, and its own name. -/
theorem Settled.declared_link (ht : t.Settled) (h : t.Stands way (.group g))
    (hd : g.name ∈ t.groups.map (·.name)) : g.link = ⟨.group, g.name, true, false⟩ := by
  rw [Group.link, (ht.reference_iff h).mpr hd]

theorem Settled.declared_seenAlike (ht : t.Settled) (h₁ : t.Stands way₁ (.group g₁))
    (h₂ : t.Stands way₂ (.group g₂)) (hg : g₁.name = g₂.name)
    (hd : g₁.name ∈ t.groups.map (·.name)) : g₁.trail.SeenAlike g₂.trail := by
  have hl₁ : g₁.trail.link = ⟨.group, g₁.name, true, false⟩ := ht.declared_link h₁ hd
  have hl₂ : g₂.trail.link = ⟨.group, g₂.name, true, false⟩ := ht.declared_link h₂ (hg ▸ hd)
  refine .of_reference ?_ (by rw [hl₁, hl₂, hg])
  rw [Trail.isReferenceGroup, hl₁]
  rfl

/-- Screens with one name, kind and path agree on all names wherever the declared group around them
is referenced. -/
theorem reference_screens_agree {j : Json} (hj : ofJson j = .ok t)
    (h₁ : t.Stands way₁ (.group g₁)) (h₂ : t.Stands way₂ (.group g₂))
    (hs₁ : s₁ ∈ g₁.children) (hs₂ : s₂ ∈ g₂.children) (hg : g₁.name = g₂.name)
    (hd : g₁.name ∈ t.groups.map (·.name)) (hn : s₁.name = s₂.name) (hk : s₁.kind = s₂.kind)
    (hp : s₁.path = s₂.path) :
    s₁.SameNames s₂ ∧ s₁.routeConstant = s₂.routeConstant ∧
      (s₁.params = s₂.params → s₁.routeBuilder = s₂.routeBuilder) ∧
      s₁.key = s₂.key ∧ (t.flatten.screens.filter (·.key == s₁.key)).length ≤ 1 := by
  have ht : t.Settled := (ofJson_settled hj).1
  have hp₁ : s₁.parent = g₁.trail := (ht.of_stands h₁).group_parent hs₁
  have hp₂ : s₂.parent = g₂.trail := (ht.of_stands h₂).group_parent hs₂
  have hseen : s₁.parent.SeenAlike s₂.parent := by
    rw [hp₁, hp₂]
    exact ht.declared_seenAlike h₁ h₂ hg hd
  have hconfig : s₁.config = s₂.config :=
    (ht.group_screen_config h₁ hs₁).trans (ht.group_screen_config h₂ hs₂).symm
  have hnames : s₁.SameNames s₂ := Screen.sameNames hn hk hp hconfig hseen
  have hkey : s₁.key = s₂.key := by
    rw [Screen.key, Screen.key, hn, hp₁, hp₂]
    exact congrArg (s₂.name, ·) hg
  exact ⟨hnames, hnames.routeConstant, hnames.routeBuilder, hkey, t.kept_once _⟩

end Tree

namespace Plain

/-- One declared group, referenced from the root navigator and from one inside it. -/
def twiceSharedJson : Json :=
  .object [("config", .object [("path", .string "src")]),
    ("groups", .array [groupJson "Shared" [screenJson "Detail"]]),
    ("navigators", .array [navigatorJson "App" true [groupJson "Shared" [screenJson "Detail"],
      navigatorJson "Home" false [groupJson "Shared" [screenJson "Detail"]]]])]

def twiceSharedOutline : Outline where
  config := config
  groups := [groupOutline "Shared" [screenOutline "Detail"]]
  navigators := [navigatorOutline "App" true [groupOutline "Shared" [screenOutline "Detail"],
    navigatorOutline "Home" false [groupOutline "Shared" [screenOutline "Detail"]]]]

def rootDetail : Screen := screen "Detail" (.push (some appHead.trail) sharedLink)

def rootShared : Group := { group "Shared" appHead.trail [rootDetail] with reference := true }

def sharedHome : Navigator := ⟨appHomeHead, [.group shared]⟩

def sharedApp : Navigator := ⟨appHead, [.group rootShared, sharedHome.node]⟩

def twiceSharedTree : Tree where
  config := config
  groups := sharedTree.groups
  navigators := [sharedApp]

theorem ofJson_twiceSharedJson : Tree.ofJson twiceSharedJson = .ok twiceSharedTree := by
  rw [Tree.ofJson, bind_eq_ok]
  exact ⟨twiceSharedOutline, rfl, rfl⟩

theorem rootShared_stands : twiceSharedTree.Stands [sharedApp.node] (.group rootShared) :=
  have happ : twiceSharedTree.Stands [] sharedApp.node := .navigator List.mem_cons_self
  happ.child List.mem_cons_self

theorem homeShared_stands :
    twiceSharedTree.Stands [sharedApp.node, sharedHome.node] (.group shared) :=
  have happ : twiceSharedTree.Stands [] sharedApp.node := .navigator List.mem_cons_self
  have hhome : twiceSharedTree.Stands [sharedApp.node] sharedHome.node :=
    happ.child (List.mem_cons_of_mem _ List.mem_cons_self)
  hhome.child List.mem_cons_self

theorem twice_shared_agree : Tree.ofJson twiceSharedJson = .ok twiceSharedTree ∧
    rootDetail.parent ≠ detail.parent ∧ rootDetail.SameNames detail ∧
      rootDetail.routeConstant = detail.routeConstant ∧
      rootDetail.routeBuilder = detail.routeBuilder ∧
      (twiceSharedTree.flatten.screens.filter (·.key == rootDetail.key)).length ≤ 1 := by
  obtain ⟨hnames, hconstant, hbuilder, -, honce⟩ :=
    Tree.reference_screens_agree ofJson_twiceSharedJson rootShared_stands homeShared_stands
      List.mem_cons_self List.mem_cons_self rfl List.mem_cons_self rfl rfl rfl
  exact ⟨ofJson_twiceSharedJson, by decide, hnames, hconstant, hbuilder rfl, honce⟩

end Plain

end NavTree
