import Mathlib.Data.List.Basic
import NavTree.Proofs.Tree.Nodes

/-! # Bare trees

Names are made from little of what a tree holds: the shape, the names, the marks of roots and
references, the kinds of screens, and which navigators are external. `naming` is just that, with the
params as far as types tell them apart. A bare tree has blanks for everything else but the trails;
as a normalized tree spells its trails along its names, its naming determines its bare form.
-/
namespace NavTree

namespace Value

mutual

/-- The value with blank literals. Values without a type are null. -/
def blank : Value → Value
  | .string _ => .string ""
  | .number _ => .number (.natural 0)
  | .boolean _ => .boolean false
  | .expression e => .expression e
  | .record entries => .record (blankEntries entries)
  | .null | .list _ | .code _ => .null

def blankEntries : List (String × Value) → List (String × Value)
  | [] => []
  | (key, v) :: rest => (key, blank v) :: blankEntries rest

end

end Value

def Params.blank : Params → Params
  | .record r => .record ⟨Value.blankEntries r.entries⟩
  | .expression e => .expression e

/-- What naming needs of a screen, and its params up to the contents of literals. -/
structure ScreenNaming where
  name : String
  kind : ScreenKind
  params : Option Params

/-- What naming needs of a node and of all that is below it. -/
inductive Naming where
  | navigator (name : String) (root external : Bool) (inside : List Naming)
  | group (name : String) (reference : Bool) (screens : List ScreenNaming)
  | screen (s : ScreenNaming)

def Screen.naming (s : Screen) : ScreenNaming := ⟨s.name, s.kind, s.params.map Params.blank⟩

namespace Node

mutual

def naming : Node → Naming
  | navigator head inside =>
    .navigator head.name head.root (Navigator.isExternal ⟨head, inside⟩) (namings inside)
  | group g => .group g.name g.reference (g.children.map Screen.naming)
  | screen s => .screen s.naming

def namings : List Node → List Naming
  | [] => []
  | n :: rest => naming n :: namings rest

end

theorem namings_eq_map (nodes : List Node) : namings nodes = nodes.map naming := by
  induction nodes with
  | nil => rfl
  | cons n rest ih => rw [namings, ih, List.map_cons]

end Node

def Tree.naming (t : Tree) : List Naming := Node.namings (t.navigators.map Navigator.node)

def Config.bare : Config := ⟨"", false, none⟩

def Screen.bare (s : Screen) : Screen where
  name := s.name
  lazy := none
  kind := s.kind
  path := none
  props := none
  params := s.params.map Params.blank
  parent := s.parent
  config := .bare

def Group.bare (g : Group) : Group where
  name := g.name
  path := none
  props := none
  children := g.children.map Screen.bare
  reference := g.reference
  parent := g.parent
  config := .bare

/-- Any path stands for the path of an external navigator. -/
def NavigatorHead.bare (external : Bool) (n : NavigatorHead) : NavigatorHead where
  name := n.name
  exported := false
  root := n.root
  path := if external then some "." else none
  kind := .nativeStack
  props := none
  parent := n.parent
  config := .bare

namespace Node

mutual

def bare : Node → Node
  | navigator head inside =>
    navigator (head.bare (Navigator.isExternal ⟨head, inside⟩)) (bares inside)
  | group g => group g.bare
  | screen s => screen s.bare

def bares : List Node → List Node
  | [] => []
  | n :: rest => bare n :: bares rest

end

theorem bares_eq_map (nodes : List Node) : bares nodes = nodes.map bare := by
  induction nodes with
  | nil => rfl
  | cons n rest ih => rw [bares, ih, List.map_cons]

end Node

def Navigator.bare (n : Navigator) : Navigator :=
  ⟨n.toNavigatorHead.bare n.isExternal, Node.bares n.children⟩

def Tree.bare (t : Tree) : Tree := ⟨.bare, [], t.navigators.map Navigator.bare⟩

namespace Node

theorem navigator?_bare (n : Node) : n.bare.navigator? = n.navigator?.map Navigator.bare := by
  cases n with
  | navigator head inside =>
    rw [bare]
    rfl
  | group g =>
    rw [bare]
    rfl
  | screen s =>
    rw [bare]
    rfl

end Node

namespace Navigator

theorem node_bare (n : Navigator) : n.node.bare = n.bare.node := by
  rw [node, Node.bare]
  rfl

theorem isExternal_bare (n : Navigator) : n.bare.isExternal = n.isExternal := by
  have hempty : n.bare.children.isEmpty = n.children.isEmpty := by
    rw [bare, Node.bares_eq_map, List.isEmpty_map]
  have hpath : n.bare.path = if n.isExternal then some "." else none := rfl
  rw [isExternal, externalPath?, hempty, hpath]
  cases hx : n.isExternal with
  | true =>
    have hchildren : n.children.isEmpty = true := by
      by_contra hne
      simp [isExternal, externalPath?, hne] at hx
    rw [hchildren]
    rfl
  | false => cases n.children.isEmpty <;> rfl

theorem nested_bare (n : Navigator) : n.bare.nested = n.nested.map bare := by
  rw [nested, nested, bare, Node.bares_eq_map, List.filterMap_map, List.map_filterMap]
  exact List.filterMap_congr fun m _ => m.navigator?_bare

end Navigator

/-- Two lists with one image have one image under all that the first function determines. -/
theorem map_eq_of_map_eq {α β γ δ : Type} {f : α → γ} {f' : β → γ} {g : α → δ} {g' : β → δ}
    {as : List α} {bs : List β} (hf : as.map f = bs.map f')
    (h : ∀ a ∈ as, ∀ b ∈ bs, f a = f' b → g a = g' b) : as.map g = bs.map g' := by
  induction as generalizing bs with
  | nil =>
    cases bs with
    | nil => rfl
    | cons b bs => cases hf
  | cons a as ih =>
    cases bs with
    | nil => cases hf
    | cons b bs =>
      obtain ⟨hab, hrest⟩ := List.cons.inj hf
      rw [List.map_cons, List.map_cons, h a List.mem_cons_self b List.mem_cons_self hab,
        ih hrest fun a ha b hb => h a (List.mem_cons_of_mem _ ha) b (List.mem_cons_of_mem _ hb)]

theorem Screen.bare_eq {s s' : Screen} (hp : s.parent = s'.parent) (h : s.naming = s'.naming) :
    s.bare = s'.bare := by
  obtain ⟨hname, hkind, hparams⟩ := ScreenNaming.mk.inj h
  rw [bare, bare, hp, hname, hkind, hparams]

theorem Group.bare_eq {env env' : Surroundings} {g g' : Group} (hg : env.Settled (.group g))
    (hg' : env'.Settled (.group g')) (hp : g.parent = g'.parent)
    (h : (Node.group g).naming = (Node.group g').naming) : g.bare = g'.bare := by
  simp only [Node.naming, Naming.group.injEq] at h
  obtain ⟨hname, href, hscreens⟩ := h
  have htrail : g.trail = g'.trail := by rw [trail, trail, link, link, hp, hname, href]
  have hinside : g.children.map Screen.bare = g'.children.map Screen.bare := by
    refine map_eq_of_map_eq hscreens fun s hs s' hs' => Screen.bare_eq ?_
    rw [hg.group_parent hs, hg'.group_parent hs', htrail]
  rw [bare, bare, hname, hinside, href, hp]

/-- Of settled nodes inside one container, the naming determines the bare form: it spells the trail
that is handed on to what is inside. -/
theorem Node.bare_eq {env env' : Surroundings} {n n' : Node} (hn : env.Settled n)
    (hn' : env'.Settled n') (hp : n.parent? = n'.parent?) (h : n.naming = n'.naming) :
    n.bare = n'.bare := by
  induction n using Node.induct generalizing n' with
  | h n ih =>
    cases n with
    | navigator head inside =>
      cases n' with
      | navigator head' inside' =>
        simp only [naming, Naming.navigator.injEq, namings_eq_map] at h
        obtain ⟨hname, hroot, hexternal, hinside⟩ := h
        have hparent : head.parent = head'.parent := hp
        have htrail : head.trail = head'.trail := by
          rw [NavigatorHead.trail, NavigatorHead.trail, NavigatorHead.link, NavigatorHead.link,
            hparent, hname, hroot]
        have hbares : inside.map bare = inside'.map bare := by
          refine map_eq_of_map_eq hinside fun m hm m' hm' => ?_
          refine ih m hm (hn.inside hm) (hn'.inside hm') ?_
          rw [hn.parent hm, hn'.parent hm']
          exact congrArg some htrail
        rw [bare, bare, bares_eq_map, bares_eq_map, hbares, hexternal, NavigatorHead.bare,
          NavigatorHead.bare, hname, hroot, hparent]
      | group g' => simp [naming] at h
      | screen s' => simp [naming] at h
    | group g =>
      cases n' with
      | group g' => rw [bare, bare, Group.bare_eq hn hn' hp h]
      | navigator head' inside' => simp [naming] at h
      | screen s' => simp [naming] at h
    | screen s =>
      cases n' with
      | screen s' =>
        rw [bare, bare, Screen.bare_eq (Option.some.inj hp) (Naming.screen.inj h)]
      | navigator head' inside' => simp [naming] at h
      | group g' => simp [naming] at h

namespace Tree

variable {t t' : Tree}

/-- Normalized trees with one naming have one bare form. -/
theorem Settled.bare_eq (ht : t.Settled) (ht' : t'.Settled) (h : t.naming = t'.naming) :
    t.bare = t'.bare := by
  have hnodes : ∀ n ∈ t.navigators, ∀ n' ∈ t'.navigators, n.node.naming = n'.node.naming →
      n.bare = n'.bare := by
    intro n hn n' hn' hnaming
    obtain ⟨hp, hs⟩ := ht.navigators n hn
    obtain ⟨hp', hs'⟩ := ht'.navigators n' hn'
    have hbare : n.bare.node = n'.bare.node := by
      rw [← n.node_bare, ← n'.node_bare]
      exact Node.bare_eq hs hs' (hp.trans hp'.symm) hnaming
    exact Option.some.inj (congrArg Node.navigator? hbare)
  rw [naming, naming, Node.namings_eq_map, Node.namings_eq_map, List.map_map, List.map_map] at h
  rw [bare, bare, map_eq_of_map_eq h hnodes]

end Tree

theorem firsts_map {α β κ : Type} [BEq κ] {key : α → κ} {key' : β → κ} (f : α → β)
    (hkey : ∀ a, key' (f a) = key a) (seen : List κ) (l : List α) :
    firsts key' seen (l.map f) = (firsts key seen l).map f := by
  induction l generalizing seen with
  | nil => rfl
  | cons a as ih =>
    rw [List.map_cons, firsts, firsts, hkey, ih, ih]
    split <;> rfl

namespace Node

mutual

theorem place_bare (placed : List Navigator) : ∀ n : Node,
    place (placed.map Navigator.bare) n.bare = (place placed n).map Navigator.bare
  | navigator head inside => by
    have hinside := placeList_bares [] inside
    rw [List.map_nil] at hinside
    rw [bare, place, place, hinside, List.map_append, List.map_append]
    rfl
  | group g => by rw [bare, place, place]
  | screen s => by rw [bare, place, place]

theorem placeList_bares (placed : List Navigator) : ∀ nodes : List Node,
    placeList (placed.map Navigator.bare) (bares nodes) =
      (placeList placed nodes).map Navigator.bare
  | [] => by rw [bares, placeList, placeList]
  | n :: rest => by rw [bares, placeList, placeList, place_bare placed n, placeList_bares _ rest]

end

mutual

theorem screensOf_bare : ∀ n : Node, screensOf (n.bare.walk everything) =
    (screensOf (n.walk everything)).map Screen.bare
  | navigator head inside => by
    simp only [bare, walk, screensOf_enter, screensOf_append, screensOf_walkProps, Event.screen?,
      Option.toList_none, List.nil_append, screensOf_bares inside]
  | group g => by
    simp only [bare, walk, screensOf_enter, Group.screensOf_walk, Event.screen?,
      Option.toList_none, List.nil_append, Group.bare]
  | screen s => by
    simp only [bare, walk, screensOf_enter, Screen.screensOf_walk, Event.screen?,
      Option.toList_none, List.nil_append, List.map_cons, List.map_nil]

theorem screensOf_bares : ∀ nodes : List Node, screensOf (walkList everything (bares nodes)) =
    (screensOf (walkList everything nodes)).map Screen.bare
  | [] => rfl
  | n :: rest => by
    rw [bares, walkList, walkList, screensOf_append, screensOf_append, List.map_append,
      screensOf_bare n, screensOf_bares rest]

end

end Node

namespace Tree

variable {t : Tree}

theorem flatten_bare_navigators (t : Tree) :
    t.bare.flatten.navigators = t.flatten.navigators.map Navigator.bare := by
  have hnodes : t.bare.navigators.map Navigator.node =
      Node.bares (t.navigators.map Navigator.node) := by
    rw [Node.bares_eq_map, bare, List.map_map, List.map_map]
    exact List.map_congr_left fun n _ => n.node_bare.symm
  exact (congrArg (Node.placeList []) hnodes).trans (Node.placeList_bares [] _)

theorem flatten_bare_screens (t : Tree) :
    t.bare.flatten.screens = t.flatten.screens.map Screen.bare := by
  have hwalk : screensOf (t.bare.walk everything) =
      (screensOf (t.walk everything)).map Screen.bare := by
    rw [walk, walk, screensOf_flatMap, screensOf_flatMap, List.map_flatMap, bare, List.flatMap_map]
    refine List.flatMap_congr fun n _ => ?_
    have hnode := Node.screensOf_bare n.node
    rw [n.node_bare] at hnode
    simpa only [Navigator.node, Navigator.walk, Node.walk, screensOf_enter, Event.screen?,
      Option.toList_none, List.nil_append] using hnode
  exact (congrArg (firsts Screen.key []) hwalk).trans (firsts_map Screen.bare (fun _ => rfl) [] _)

end Tree

end NavTree
