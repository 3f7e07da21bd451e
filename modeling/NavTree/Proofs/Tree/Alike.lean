import NavTree.Tree.Normal
import NavTree.Proofs.Concur

/-! # Outlines that come to the same tree

Two nodes are alike if no surroundings tell them apart. Nodes that differ only in how their props
and params are written are alike, and a tree of alike nodes is normalized to the same result.
-/
namespace NavTree

/-- Both props are read as the same record. -/
def SameProps (props props' : Option JsonObject) : Prop :=
  Concur Eq (props.mapM Record.ofObject) (props'.mapM Record.ofObject)

def SameParams (params params' : Option JsonObject) : Prop :=
  Concur Eq (params.mapM Params.ofObject) (params'.mapM Params.ofObject)

theorem SameProps.read {props props' : Option JsonObject} (h : SameProps props props')
    (place : Place) : Concur Eq (readProps place props) (readProps place props') :=
  h.mapError _

inductive NodeOutline.Alike : NodeOutline → NodeOutline → Prop
  | screen {o o'}
    (h : ∀ (env : Surroundings) parent place,
      Concur Eq (env.screen parent place o) (env.screen parent place o')) :
    Alike (.screen o) (.screen o')
  | group {o o' children children'} (hname : o.name = o'.name)
    (h : ∀ (env : Surroundings) parent reference place,
      Concur Eq (env.group parent reference place o children)
        (env.group parent reference place o' children')) :
    Alike (.group o children) (.group o' children')
  | navigator {o o' children children'} (hlink : o.link = o'.link)
    (hhead : ∀ (env : Surroundings) parent place,
      Concur Eq (env.head parent place o) (env.head parent place o'))
    (hinside : ∀ (env : Surroundings) parent place,
      Concur Eq (env.nodes parent place 0 children) (env.nodes parent place 0 children')) :
    Alike (.navigator o children) (.navigator o' children')

theorem NodeOutline.Alike.refl (o : NodeOutline) : o.Alike o := by
  cases o with
  | screen o => exact .screen fun _ _ _ => .same _
  | group o children => exact .group rfl fun _ _ _ _ => .same _
  | navigator o children => exact .navigator rfl (fun _ _ _ => .same _) fun _ _ _ => .same _

/-- Declared groups are told apart by their names and their bodies. -/
structure SameGroup (d d' : GroupOutline × List NodeOutline) : Prop where
  name : d.1.name = d'.1.name
  body : ∀ (env : Surroundings) parent reference place,
    Concur Eq (env.group parent reference place d.1 d.2)
      (env.group parent reference place d'.1 d'.2)

structure Outline.Alike (o o' : Outline) : Prop where
  config : o.config = o'.config
  groups : List.Forall₂ NodeOutline.Alike o.groups o'.groups
  navigators : List.Forall₂ NodeOutline.Alike o.navigators o'.navigators

theorem Surroundings.node_concur (env : Surroundings) {o o' : NodeOutline} (h : o.Alike o')
    (parent : Trail) (place : Place) :
    Concur Eq (env.node parent place o) (env.node parent place o') := by
  cases h with
  | screen hs =>
    rw [node, node]
    exact (hs env parent place).next fun s => .same _
  | group hname hbody =>
    rw [node, node, hname]
    exact (hbody env _ _ place).next fun g => .same _
  | navigator hlink hhead hinside =>
    rw [node, node, hlink]
    exact (hinside env _ place).next fun inside => (hhead env _ place).next fun head => .same _

section

variable {os os' : List NodeOutline} (h : List.Forall₂ NodeOutline.Alike os os')

include h

theorem declarations_concur (i : Nat) :
    Concur (List.Forall₂ SameGroup) (declarations i os) (declarations i os') := by
  induction h generalizing i with
  | nil => exact .ok .nil
  | cons ho _ ih =>
    cases ho with
    | group hname hbody =>
      rw [declarations, declarations]
      exact (ih (i + 1)).bind fun _ _ hrest => .ok (.cons ⟨hname, hbody⟩ hrest)
    | screen _ => exact .error _ _
    | navigator _ _ _ => exact .error _ _

namespace Surroundings

variable (env : Surroundings)

theorem screens_concur (parent : Trail) (place : Place) (i : Nat) :
    Concur Eq (env.screens parent place i os) (env.screens parent place i os') := by
  induction h generalizing i with
  | nil => exact .same _
  | cons ho _ ih =>
    cases ho with
    | screen hs =>
      rw [screens, screens]
      exact (hs env parent _).next fun s => (ih (i + 1)).next fun rest => .same _
    | group _ _ => exact .error _ _
    | navigator _ _ _ => exact .error _ _

theorem nodes_concur (parent : Trail) (place : Place) (i : Nat) :
    Concur Eq (env.nodes parent place i os) (env.nodes parent place i os') := by
  induction h generalizing i with
  | nil => exact .same _
  | cons ho _ ih =>
    rw [nodes, nodes]
    exact (env.node_concur ho parent _).next fun n => (ih (i + 1)).next fun rest => .same _

theorem navigators_concur (i : Nat) : Concur Eq (env.navigators i os) (env.navigators i os') := by
  induction h generalizing i with
  | nil => exact .same _
  | cons ho _ ih =>
    cases ho with
    | navigator hlink hhead hinside =>
      rw [navigators, navigators, hlink]
      exact (hinside env _ _).next fun inside => (hhead env none _).next fun head =>
        (ih (i + 1)).next fun rest => .same _
    | screen _ => exact .error _ _
    | group _ _ => exact .error _ _

end Surroundings

end

theorem Surroundings.groups_concur (env : Surroundings)
    {ds ds' : List (GroupOutline × List NodeOutline)} (h : List.Forall₂ SameGroup ds ds')
    (i : Nat) : Concur Eq (env.groups i ds) (env.groups i ds') := by
  induction h generalizing i with
  | nil => exact .same _
  | @cons d d' _ _ hd _ ih =>
    obtain ⟨o, children⟩ := d
    obtain ⟨o', children'⟩ := d'
    rw [groups, groups]
    exact (hd.body env none true _).next fun g => (ih (i + 1)).next fun rest => .same _

theorem names_eq_of_sameGroups {ds ds' : List (GroupOutline × List NodeOutline)}
    (h : List.Forall₂ SameGroup ds ds') : ds.map (·.1.name) = ds'.map (·.1.name) := by
  induction h with
  | nil => rfl
  | cons hd _ ih => rw [List.map_cons, List.map_cons, hd.name, ih]

/-- Outlines that are alike come to the same tree, or to none. -/
theorem Tree.ofOutline_concur {o o' : Outline} (h : o.Alike o') :
    Concur Eq (ofOutline o) (ofOutline o') := by
  rw [ofOutline, ofOutline, h.config]
  refine (declarations_concur h.groups 0).bind fun ds ds' hds => ?_
  simp only [names_eq_of_sameGroups hds]
  exact (Surroundings.navigators_concur h.navigators _ 0).next fun navigators =>
    (Surroundings.groups_concur _ hds 0).next fun groups => .same _

namespace NodeOutline.Alike

variable {children children' : List NodeOutline} {props props' params params' : Option JsonObject}

/-- How the props and params of a screen are written does not matter. -/
theorem rewritten_screen (o : ScreenOutline) (hprops : SameProps props props')
    (hparams : SameParams params params') :
    Alike (.screen { o with props := props, params := params })
      (.screen { o with props := props', params := params' }) := by
  refine .screen fun env parent place => ?_
  rw [Surroundings.screen, Surroundings.screen]
  exact (hprops.read place).next fun r => (hparams.mapError _).next fun p => .same _

theorem rewritten_group (o : GroupOutline) (hprops : SameProps props props')
    (h : List.Forall₂ NodeOutline.Alike children children') :
    Alike (.group { o with props := props } children)
      (.group { o with props := props' } children') := by
  refine .group rfl fun env parent reference place => ?_
  rw [Surroundings.group, Surroundings.group]
  exact (Surroundings.screens_concur h env _ place 0).next fun screens =>
    (hprops.read place).next fun r => .same _

theorem rewritten_navigator (o : NavigatorOutline) (hprops : SameProps props props')
    (h : List.Forall₂ NodeOutline.Alike children children') :
    Alike (.navigator { o with props := props } children)
      (.navigator { o with props := props' } children') := by
  refine .navigator rfl (fun env parent place => ?_) fun env parent place =>
    Surroundings.nodes_concur h env parent place 0
  rw [Surroundings.head, Surroundings.head]
  exact (hprops.read place).next fun r => .same _

end NodeOutline.Alike

end NavTree
