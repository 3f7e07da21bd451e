import NavTree.Code.Component
import NavTree.Proofs.Tree.Spelling

/-! # Trees without their roots

Root navigators show in no name but their own, so what is inside one is named as if it stood beside
it. In a dissolved tree it does stand there, and groups, screens and external navigators are gone:
the names of the generated navigators spell the ways through the dissolved tree.
-/
namespace NavTree

namespace Node

mutual

/-- The navigators that a node leaves: what is inside a root stands beside it. -/
def dissolved : Node → List Navigator
  | navigator head inside =>
    if (⟨head, inside⟩ : Navigator).isExternal then []
    else if head.root then ⟨head, []⟩ :: dissolvedOf inside
    else [⟨head, (dissolvedOf inside).map Navigator.node⟩]
  | group _ => []
  | screen _ => []

def dissolvedOf : List Node → List Navigator
  | [] => []
  | n :: rest => dissolved n ++ dissolvedOf rest

end

theorem dissolvedOf_eq_flatMap (nodes : List Node) :
    dissolvedOf nodes = nodes.flatMap dissolved := by
  induction nodes with
  | nil => rfl
  | cons n rest ih => rw [dissolvedOf, ih, List.flatMap_cons]

/-- The texts that the names in the dissolved tree of a node spell. -/
def dissolvedSpelled (n : Node) : List String := (n.dissolved.map Navigator.node).flatMap spelled

/-- The navigators from a node on that have a stack and a component, in declaration order. -/
def generated (n : Node) : List Navigator := (n.all.filterMap navigator?).filter (!·.isExternal)

theorem generated_eq (n : Node) :
    n.generated = n.navigator?.toList.filter (!·.isExternal) ++ n.children.flatMap generated := by
  have hinside : ((n.children.flatMap all).filterMap navigator?).filter (!·.isExternal) =
      n.children.flatMap generated := by
    rw [List.filterMap_flatMap, List.filter_flatMap]
    rfl
  rw [generated, all_eq, List.filterMap_cons, ← hinside]
  cases n.navigator? with
  | none => rfl
  | some m => exact List.filter_append [m] _

theorem spelled_of_navigator (head : NavigatorHead) (inside : List Node) :
    (navigator head inside).spelled =
      head.name :: (inside.flatMap spelled).map (head.name ++ ·) := spelled_eq _

/-- A navigator spells its name, and what is inside it after its name or, if it is a root, alone. -/
theorem dissolvedSpelled_navigator {head : NavigatorHead} {inside : List Node}
    (h : (⟨head, inside⟩ : Navigator).isExternal = false) :
    (navigator head inside).dissolvedSpelled = head.name ::
      (inside.flatMap dissolvedSpelled).map ((if head.root then "" else head.name) ++ ·) := by
  have hinside : ((dissolvedOf inside).map Navigator.node).flatMap spelled =
      inside.flatMap dissolvedSpelled := by
    rw [dissolvedOf_eq_flatMap, List.map_flatMap, List.flatMap_assoc]
    rfl
  rw [dissolvedSpelled, dissolved, h, if_neg Bool.false_ne_true, ← hinside]
  cases head.root with
  | true =>
    have hroot : (navigator head []).spelled = [head.name] := spelled_of_navigator head []
    simp only [if_true, List.map_cons, List.flatMap_cons, String.empty_append, List.map_id',
      Navigator.node, hroot]
    rfl
  | false =>
    simp only [Bool.false_eq_true, if_false, List.map_cons, List.map_nil, List.flatMap_cons,
      List.flatMap_nil, List.append_nil, Navigator.node, spelled_of_navigator]

theorem generated_group (g : Group) : (group g).generated = [] := by
  rw [generated_eq, children, List.flatMap_map]
  exact List.flatMap_eq_nil_iff.mpr fun s _ => rfl

theorem generated_external {head : NavigatorHead} {inside : List Node}
    (h : (⟨head, inside⟩ : Navigator).isExternal = true) :
    (navigator head inside).generated = [] := by
  have hnone : inside = [] := by
    refine List.eq_nil_iff_forall_not_mem.mpr fun m hm => ?_
    have hnot : (⟨head, inside⟩ : Navigator).isExternal = false := Navigator.isExternal_eq_false hm
    exact Bool.false_ne_true (hnot.symm.trans h)
  rw [generated_eq, children, hnone, List.flatMap_nil, ← hnone]
  simp [navigator?, h]

/-- The generated navigators from a node on are named by the ways through its dissolved tree, after
the names of the navigators around it. -/
theorem navigatorNames_eq {env : Surroundings} {n : Node} (h : env.Settled n) :
    n.generated.map (·.navigatorName) =
      n.dissolvedSpelled.map (Trail.outerName n.parent? ++ ·) := by
  induction n using induct with
  | h n ih =>
    cases n with
    | navigator head inside =>
      cases hext : (⟨head, inside⟩ : Navigator).isExternal with
      | true =>
        rw [generated_external hext, dissolvedSpelled, dissolved, hext]
        rfl
      | false =>
        have hself : (navigator head inside).navigator?.toList.filter (!·.isExternal) =
            [⟨head, inside⟩] := by simp [navigator?, hext]
        have hinside : (inside.flatMap generated).map (·.navigatorName) =
            (inside.flatMap dissolvedSpelled).map (head.trail.navigatorName ++ ·) := by
          rw [List.map_flatMap, List.map_flatMap]
          refine List.flatMap_congr fun m hm => ?_
          have hparent : m.parent? = some head.trail := h.parent hm
          rw [ih m hm (h.inside hm), hparent, Trail.outerName_some]
        rw [generated_eq, hself, List.map_append, children, hinside,
          dissolvedSpelled_navigator hext, head.trail_navigatorName]
        simp [parent?, head.navigatorName_eq, Function.comp_def, String.append_assoc]
    | group g =>
      rw [generated_group]
      rfl
    | screen s => rfl

/-- Each node spells its own name. -/
theorem names_sublist (siblings : List Node) :
    (siblings.map name).Sublist (siblings.flatMap spelled) := by
  induction siblings with
  | nil => exact .slnil
  | cons n rest ih =>
    rw [List.map_cons, List.flatMap_cons, spelled_eq, List.cons_append]
    exact (ih.trans (List.sublist_append_right _ _)).cons_cons n.name

mutual

/-- Placing changes the order of the navigators only. -/
theorem place_perm (placed : List Navigator) : ∀ node : Node,
    (place placed node).Perm (placed ++ node.all.filterMap navigator?)
  | .navigator head children => by
    have hinside : (placeList [] children).Perm ((allOf children).filterMap navigator?) := by
      rw [allOf_eq_flatMap]
      exact placeList_perm [] children
    rw [place, all, List.filterMap_cons_some (show navigator? _ = some _ from rfl), List.append_assoc]
    refine List.perm_append_comm.trans ?_
    rw [List.append_assoc]
    exact (hinside.cons _).append_left placed
  | .group g => by
    have hscreens : (g.children.map screen).filterMap navigator? = [] := by
      rw [List.filterMap_map]
      exact List.filterMap_eq_nil_iff.mpr fun s _ => rfl
    rw [place, all, List.filterMap_cons_none (show navigator? _ = none from rfl), hscreens,
      List.append_nil]
  | .screen s => by
    rw [place, all, List.filterMap_cons_none (show navigator? _ = none from rfl),
      List.filterMap_nil, List.append_nil]

theorem placeList_perm (placed : List Navigator) : ∀ nodes : List Node,
    (placeList placed nodes).Perm (placed ++ (nodes.flatMap all).filterMap navigator?)
  | [] => by simp [placeList]
  | n :: rest => by
    have hfirst : (place placed n).Perm (placed ++ n.all.filterMap navigator?) := place_perm placed n
    rw [placeList, List.flatMap_cons, List.filterMap_append, ← List.append_assoc]
    exact (placeList_perm (place placed n) rest).trans (hfirst.append_right _)

end

end Node

namespace Tree

variable {t : Tree}

def dissolved (t : Tree) : Tree :=
  { t with navigators := (t.navigators.map Navigator.node).flatMap Node.dissolved }

theorem generated_perm (t : Tree) :
    t.flatten.generated.Perm ((t.navigators.map Navigator.node).flatMap Node.generated) := by
  have hplaced := (Node.placeList_perm [] (t.navigators.map Navigator.node)).filter (!·.isExternal)
  rw [List.nil_append, List.filterMap_flatMap, List.filter_flatMap] at hplaced
  exact hplaced

/-- The names of the generated navigators are the texts that the dissolved tree spells. -/
theorem Settled.navigatorNames_perm (ht : t.Settled) :
    (t.flatten.generated.map (·.navigatorName)).Perm
      ((t.dissolved.navigators.map Navigator.node).flatMap Node.spelled) := by
  refine (t.generated_perm.map _).trans (List.Perm.of_eq ?_)
  rw [dissolved, List.map_flatMap, List.map_flatMap, List.flatMap_assoc]
  refine List.flatMap_congr fun m hm => ?_
  obtain ⟨n, hn, rfl⟩ := List.mem_map.mp hm
  obtain ⟨hp, hs⟩ := ht.navigators n hn
  have htop : n.node.parent? = none := hp
  have hnone : Trail.outerName none = "" := rfl
  rw [Node.navigatorNames_eq hs, htop, hnone]
  simp [Node.dissolvedSpelled]

/-- Where all texts are apart, so are the names of siblings. -/
theorem siblingsApart_of_nodup
    (h : ((t.navigators.map Navigator.node).flatMap Node.spelled).Nodup) : t.SiblingsApart := by
  have hnodes : ∀ c ∈ t.nodes, c.spelled.Nodup := by
    refine fun c hc => nodes_induct (P := fun c => c.spelled.Nodup) ?_ ?_ hc
    · exact fun n hn => (List.nodup_flatMap.mp h).1 n.node (List.mem_map_of_mem hn)
    · exact fun c _ hc m hm => (List.nodup_flatMap.mp (Node.nodup_spelled_iff.mp hc).2).1 m hm
  refine List.forall_mem_cons.mpr ⟨(Node.names_sublist _).nodup h,
    List.forall_mem_map.mpr fun c hc => ?_⟩
  exact (Node.names_sublist _).nodup (Node.nodup_spelled_iff.mp (hnodes c hc)).2

/-- The names of the generated navigators are apart exactly if siblings in the dissolved tree have
names apart and nothing clashes there. -/
theorem Settled.navigatorNames_nodup_iff (ht : t.Settled) :
    (t.flatten.generated.map (·.navigatorName)).Nodup ↔
      t.dissolved.SiblingsApart ∧ ¬ t.dissolved.Ambiguous := by
  rw [ht.navigatorNames_perm.nodup_iff]
  constructor
  · intro h
    have hd : t.dissolved.SiblingsApart := siblingsApart_of_nodup h
    exact ⟨hd, (nodup_spelled_iff hd).mp h⟩
  · rintro ⟨hd, hclear⟩
    exact (nodup_spelled_iff hd).mpr hclear

end Tree

end NavTree
