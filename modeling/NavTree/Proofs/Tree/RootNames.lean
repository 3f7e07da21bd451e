import NavTree.Proofs.Tree.Masked

/-! # Names of root navigators

Import and route names and the names of navigators do not show how root navigators are named: nodes
in one place have the same names in all trees that differ in the names of their roots only.
-/
namespace NavTree

namespace Link

variable {l : Link}

theorem masked_eq_self (h : (l.isNamedNavigator || l.tag == .group) = true) : l.masked = l := by
  rw [masked, if_neg]
  rintro ⟨htag, hroot⟩
  simp [isNamedNavigator, htag, hroot] at h

theorem masked_tag (l : Link) : l.masked.tag = l.tag := by
  unfold masked
  split <;> rfl

theorem masked_root (l : Link) : l.masked.root = l.root := by
  unfold masked
  split <;> rfl

theorem masked_reference (l : Link) : l.masked.reference = l.reference := by
  unfold masked
  split <;> rfl

theorem masked_isNamedNavigator (l : Link) : l.masked.isNamedNavigator = l.isNamedNavigator := by
  rw [isNamedNavigator, isNamedNavigator, masked_tag, masked_root]

end Link

namespace Trail

variable {t t' : Trail}

theorem chain_masked (t : Trail) : t.masked.chain = t.chain.map Link.masked := by
  rw [chain, chain, List.map_reverse]
  rfl

/-- Links that are not blanked are found in a masked chain as they are. -/
theorem filter_chain_masked {p : Link → Bool} (hp : ∀ l, p l.masked = p l)
    (hself : ∀ l, p l = true → l.masked = l) (t : Trail) :
    t.masked.chain.filter p = t.chain.filter p := by
  have hcomp : p ∘ Link.masked = p := funext hp
  have hkept : ∀ l ∈ t.chain.filter p, l.masked = id l :=
    fun l hl => hself l (List.mem_filter.mp hl).2
  rw [chain_masked, List.filter_map, hcomp, List.map_congr_left hkept, List.map_id]

theorem named_chain_masked (t : Trail) :
    t.masked.chain.filter Link.isNamedNavigator = t.chain.filter Link.isNamedNavigator :=
  filter_chain_masked Link.masked_isNamedNavigator
    (fun l h => Link.masked_eq_self (by simp [h])) t

theorem navigatorName_masked (t : Trail) : t.masked.navigatorName = t.navigatorName := by
  rw [navigatorName, navigatorName, named_chain_masked]

theorem layers_masked (t : Trail) : t.masked.layers = t.layers := by
  have htag : t.masked.link.tag = t.link.tag := t.link.masked_tag
  have href : t.masked.link.reference = t.link.reference := t.link.masked_reference
  rw [layers, layers, htag, href, named_chain_masked]
  cases ht : t.link.tag with
  | navigator => rfl
  | group =>
    cases t.link.reference with
    | true => exact congrArg (fun l => [l]) (Link.masked_eq_self (by simp [ht]))
    | false =>
      -- Roots are filtered out, and all that is left stays as it is.
      refine filter_chain_masked (fun l => ?_) (fun l h => Link.masked_eq_self h) t
      rw [Link.masked_isNamedNavigator, Link.masked_tag]

theorem seenAlike_masked (t : Trail) : t.masked.SeenAlike t where
  tag := t.link.masked_tag
  reference := t.link.masked_reference
  layers := t.layers_masked

theorem seenAlike_of_masked (h : t.masked = t'.masked) : t.SeenAlike t' where
  tag := t.seenAlike_masked.tag.symm.trans (h ▸ t'.seenAlike_masked.tag)
  reference := t.seenAlike_masked.reference.symm.trans (h ▸ t'.seenAlike_masked.reference)
  layers := t.layers_masked.symm.trans (h ▸ t'.layers_masked)

end Trail

namespace Node

/-- The node at the end of a way down, the indices of the outer children first. -/
def at? : Node → List Nat → Option Node
  | n, [] => some n
  | n, i :: rest => n.children[i]?.bind (at? · rest)

theorem at?_concat (n : Node) (path : List Nat) (i : Nat) :
    n.at? (path ++ [i]) = (n.at? path).bind (·.children[i]?) := by
  induction path generalizing n with
  | nil => simp [at?]
  | cons j rest ih =>
    rw [List.cons_append, at?, at?]
    cases n.children[j]? with
    | none => rfl
    | some m => exact ih m

theorem children_masked (n : Node) : n.masked.children = n.children.map masked := by
  cases n with
  | navigator head inside => rw [masked, children, children, maskedAll_eq_map]
  | group g =>
    rw [masked, children, children, Group.masked, List.map_map, List.map_map]
    refine List.map_congr_left fun s _ => ?_
    rw [Function.comp_apply, Function.comp_apply, masked]
  | screen s => rw [masked, children, children, List.map_nil]

theorem at?_masked (n : Node) (path : List Nat) :
    n.masked.at? path = (n.at? path).map masked := by
  induction path generalizing n with
  | nil => rfl
  | cons i rest ih =>
    rw [at?, at?, children_masked, List.getElem?_map]
    cases n.children[i]? with
    | none => rfl
    | some m => exact ih m

/-- What the derived names of two nodes agree on. -/
def SameNames : Node → Node → Prop
  | navigator head _, navigator head' _ => head.trail.SameNames head'.trail
  | group g, group g' => g.trail.SameNames g'.trail
  | screen s, screen s' => s.SameNames s' ∧ s.eagerImport? = s'.eagerImport?
  | _, _ => False

/-- Nodes have the same names, and so have the navigators around them. -/
structure NamedAlike (n n' : Node) : Prop where
  names : n.SameNames n'
  outer : n.parent?.map Trail.navigatorName = n'.parent?.map Trail.navigatorName

end Node

namespace Tree

def tops (t : Tree) (declared : Bool) : List Node :=
  if declared then t.groups.map .group else t.navigators.map Navigator.node

def nodeAt? (t : Tree) (p : Place) : Option Node :=
  (t.tops p.declared)[p.index]?.bind (·.at? p.children.reverse)

variable {t : Tree}

theorem nodeAt?_child (p : Place) (i : Nat) :
    t.nodeAt? (p.child i) = (t.nodeAt? p).bind (·.children[i]?) := by
  have hchildren : (p.child i).children.reverse = p.children.reverse ++ [i] := List.reverse_cons
  rw [nodeAt?, nodeAt?, hchildren]
  cases h : (t.tops p.declared)[p.index]? with
  | none => simp [Place.child, h]
  | some top => simpa [Place.child, h] using top.at?_concat p.children.reverse i

/-- Every node that stands in a tree has a place. -/
theorem Stands.exists_place {way : List Node} {m : Node} (h : t.Stands way m) :
    ∃ p, t.nodeAt? p = some m := by
  induction h with
  | @navigator n h =>
    obtain ⟨i, hi⟩ := List.mem_iff_getElem?.mp (List.mem_map_of_mem (f := Navigator.node) h)
    exact ⟨⟨false, i, []⟩, by simp [nodeAt?, tops, hi, Node.at?]⟩
  | @group g h =>
    obtain ⟨i, hi⟩ := List.mem_iff_getElem?.mp (List.mem_map_of_mem (f := Node.group) h)
    exact ⟨⟨true, i, []⟩, by simp [nodeAt?, tops, hi, Node.at?]⟩
  | child _ hm ih =>
    obtain ⟨p, hp⟩ := ih
    obtain ⟨i, hi⟩ := List.mem_iff_getElem?.mp hm
    exact ⟨p.child i, by rw [nodeAt?_child, hp, Option.bind_some, hi]⟩

theorem tops_masked (t : Tree) (declared : Bool) :
    t.masked.tops declared = (t.tops declared).map Node.masked := by
  cases declared with
  | true =>
    rw [tops, tops, if_pos rfl, if_pos rfl, masked, List.map_map, List.map_map]
    refine List.map_congr_left fun g _ => ?_
    rw [Function.comp_apply, Function.comp_apply, Node.masked]
  | false =>
    rw [tops, tops, if_neg Bool.false_ne_true, if_neg Bool.false_ne_true, masked, List.map_map,
      List.map_map]
    refine List.map_congr_left fun n _ => ?_
    rw [Function.comp_apply, Function.comp_apply, Navigator.node, Navigator.node, Node.masked]
    rfl

theorem nodeAt?_masked (t : Tree) (p : Place) :
    t.masked.nodeAt? p = (t.nodeAt? p).map Node.masked := by
  rw [nodeAt?, nodeAt?, tops_masked, List.getElem?_map]
  cases (t.tops p.declared)[p.index]? with
  | none => rfl
  | some top => exact top.at?_masked _

end Tree

theorem NavigatorHead.masked_trail (n : NavigatorHead) : n.masked.trail = n.trail.masked := by
  have hlink : n.masked.link = n.link.masked := by
    cases h : n.root <;> simp [link, masked, Link.masked, h]
  rw [trail, trail, Trail.masked_push, hlink]
  rfl

theorem Group.masked_trail (g : Group) : g.masked.trail = g.trail.masked := by
  rw [trail, trail, Trail.masked_push]
  rfl

theorem Screen.sameNames_of_masked {s s' : Screen} (h : s.masked = s'.masked) :
    s.SameNames s' ∧ s.eagerImport? = s'.eagerImport? := by
  obtain ⟨hname, hlazy, hkind, hpath, -, -, hparent, hconfig⟩ := Screen.mk.inj h
  have hseen : s.parent.SeenAlike s'.parent := Trail.seenAlike_of_masked hparent
  have hnames : s.SameNames s' := sameNames hname hkind hpath hconfig hseen
  have hload : s.isLazy = s'.isLazy := by rw [isLazy, isLazy, hlazy, hconfig]
  exact ⟨hnames, hnames.eagerImport? hload⟩

namespace Node

variable {n n' : Node}

theorem parent?_masked (n : Node) : n.masked.parent? = n.parent?.map Trail.masked := by
  cases n <;> rw [masked] <;> rfl

theorem sameNames_of_masked (h : n.masked = n'.masked) : n.SameNames n' := by
  cases n with
  | navigator head inside =>
    cases n' with
    | navigator head' inside' =>
      rw [masked, masked] at h
      have htrail : head.trail.masked = head'.trail.masked := by
        rw [← head.masked_trail, ← head'.masked_trail, (Node.navigator.inj h).1]
      exact (Trail.seenAlike_of_masked htrail).sameNames
    | group g' => simp [masked] at h
    | screen s' => simp [masked] at h
  | group g =>
    cases n' with
    | group g' =>
      rw [masked, masked] at h
      have htrail : g.trail.masked = g'.trail.masked := by
        rw [← g.masked_trail, ← g'.masked_trail, Node.group.inj h]
      exact (Trail.seenAlike_of_masked htrail).sameNames
    | navigator head' inside' => simp [masked] at h
    | screen s' => simp [masked] at h
  | screen s =>
    cases n' with
    | screen s' =>
      rw [masked, masked] at h
      exact Screen.sameNames_of_masked (Node.screen.inj h)
    | navigator head' inside' => simp [masked] at h
    | group g' => simp [masked] at h

theorem namedAlike_of_masked (h : n.masked = n'.masked) : n.NamedAlike n' where
  names := sameNames_of_masked h
  outer := by
    have hparent : n.parent?.map Trail.masked = n'.parent?.map Trail.masked := by
      rw [← parent?_masked, ← parent?_masked, h]
    have hname : Trail.navigatorName ∘ Trail.masked = Trail.navigatorName :=
      funext Trail.navigatorName_masked
    simpa only [Option.map_map, hname] using congrArg (Option.map Trail.navigatorName) hparent

/-- What nodes in one place agree on when they are masked alike. -/
theorem rel_namedAlike : ∀ {m m' : Option Node}, m.map masked = m'.map masked →
    Option.Rel NamedAlike m m'
  | none, none, _ => .none
  | some _, some _, h => .some (namedAlike_of_masked (Option.some.inj h))

end Node

/-- Trees whose outlines differ in the names of root navigators only have nodes in the same places,
and what stands in one place has the same names. -/
theorem Tree.roots_unseen {o o' : Outline} {t t' : Tree} (h : ofOutline o = .ok t)
    (h' : ofOutline o' = .ok t') (hmasked : o.masked = o'.masked) :
    (∀ p, Option.Rel Node.NamedAlike (t.nodeAt? p) (t'.nodeAt? p)) ∧
      ∀ way m, t.Stands way m → ∃ p, t.nodeAt? p = some m := by
  have htrees : t.masked = t'.masked := by
    have hok : ofOutline o.masked = .ok t.masked := ofOutline_masked h
    rw [hmasked, ofOutline_masked h'] at hok
    exact (Except.ok.inj hok).symm
  refine ⟨fun p => Node.rel_namedAlike ?_, fun way m hm => hm.exists_place⟩
  rw [← nodeAt?_masked, ← nodeAt?_masked, htrees]

namespace Plain

/-- Two root navigators, one of them below a navigator that is no root. -/
def rootsOutline (outer inner : String) : Outline where
  config := config
  groups := []
  navigators := [navigatorOutline outer true [navigatorOutline "Home" false
    [navigatorOutline inner true [groupOutline "Tabs" [screenOutline "Feed"]]]]]

def rootsHead (outer : String) : NavigatorHead := head outer true none

def rootsHome (outer : String) : NavigatorHead := head "Home" false (some (rootsHead outer).trail)

def rootsInner (outer inner : String) : NavigatorHead :=
  head inner true (some (rootsHome outer).trail)

def rootsFeed (outer inner : String) : Screen :=
  screen "Feed" (.push (some (rootsInner outer inner).trail) ⟨.group, "Tabs", false, false⟩)

def rootsTree (outer inner : String) : Tree :=
  tree [⟨rootsHead outer, [.navigator (rootsHome outer) [.navigator (rootsInner outer inner)
    [.group (group "Tabs" (rootsInner outer inner).trail [rootsFeed outer inner])]]]⟩]

theorem ofOutline_roots (outer inner : String) :
    Tree.ofOutline (rootsOutline outer inner) = .ok (rootsTree outer inner) := rfl

theorem roots_unseen_by_feed :
    (rootsOutline "App" "Core").masked = (rootsOutline "Shell" "Main").masked ∧
    (rootsTree "App" "Core").nodeAt? ⟨false, 0, [0, 0, 0, 0]⟩ =
      some (.screen (rootsFeed "App" "Core")) ∧
    (rootsFeed "App" "Core").SameNames (rootsFeed "Shell" "Main") ∧
    (rootsFeed "App" "Core").routeSegments = ["Home", "HomeTabsFeed"] := by
  have hmasked : (rootsOutline "App" "Core").masked = (rootsOutline "Shell" "Main").masked := rfl
  have hplaces := (Tree.roots_unseen (ofOutline_roots "App" "Core")
    (ofOutline_roots "Shell" "Main") hmasked).1
  refine ⟨hmasked, rfl, ?_, by decide⟩
  cases hplaces ⟨false, 0, [0, 0, 0, 0]⟩ with
  | some h => exact h.names.1

end Plain

end NavTree
