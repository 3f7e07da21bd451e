import NavTree.Proofs.Tree.Linked
import NavTree.Tree.Naming

/-! # Names along linked trails

How a derived name grows when a trail grows by one container, and what that makes of the names of a
linked navigator, of the screens and groups in it, and of the stand-ins of the navigators in it.
-/
namespace NavTree

theorem concat_append (xs ys : List String) : concat (xs ++ ys) = concat xs ++ concat ys := by
  induction xs with
  | nil => simp [concat]
  | cons x xs ih => simp only [List.cons_append, concat, ih, String.append_assoc]

namespace Trail

/-- Names of the navigators around a node, roots left out; nothing at the top level. -/
def outerName (parent : Option Trail) : String :=
  concat (((links parent).reverse.filter Link.isNamedNavigator).map (·.name))

theorem outerName_some (t : Trail) : outerName (some t) = t.navigatorName := rfl

theorem chain_push (parent : Option Trail) (l : Link) :
    (push parent l).chain = (links parent).reverse ++ [l] := List.reverse_cons

theorem navigatorName_push (parent : Option Trail) (l : Link) :
    (push parent l).navigatorName =
      outerName parent ++ if l.isNamedNavigator then l.name else "" := by
  rw [navigatorName, chain_push, List.filter_append, List.map_append, concat_append, outerName]
  cases h : l.isNamedNavigator <;> simp [h, concat]

/-- Inside a navigator, import and route names begin with the names of the navigators. -/
theorem importSpecifier_of_navigator {t : Trail} (h : t.link.tag = .navigator) :
    t.importSpecifier = t.navigatorName := by
  rw [importSpecifier, importPath, layers, h, navigatorName]

end Trail

namespace NavigatorHead

theorem navigatorName_eq (n : NavigatorHead) :
    n.navigatorName = Trail.outerName n.parent ++ n.name := by
  cases h : n.parent with
  | none => simp [navigatorName, h, Trail.outerName, Trail.links, concat]
  | some parent => simp only [navigatorName, h, Trail.outerName_some]

theorem trail_navigatorName (n : NavigatorHead) :
    n.trail.navigatorName = Trail.outerName n.parent ++ if n.root then "" else n.name := by
  rw [trail, Trail.navigatorName_push]
  cases h : n.root <;> simp [link, Link.isNamedNavigator, h]

end NavigatorHead

theorem Group.trail_navigatorName {parent : Trail} (g : Group) :
    (Trail.push (some parent) g.link).navigatorName = parent.navigatorName := by
  simp [Trail.navigatorName_push, Trail.outerName_some, link, Link.isNamedNavigator]

namespace Navigator

variable {n child : Navigator}

/-- The trail of a stand-in spells the same names as that of the navigator it stands in. -/
theorem childScreen_navigatorName :
    (n.childScreen child).parent.navigatorName = n.trail.navigatorName := by
  change (Trail.push n.parent { n.link with reference := child.isExternal }).navigatorName = _
  rw [Trail.navigatorName_push, NavigatorHead.trail, Trail.navigatorName_push]
  rfl

theorem childScreen_of_external (h : child.isExternal = true) :
    (n.childScreen child).importSpecifier = child.externalSymbol := by
  simp only [childScreen, Screen.importSpecifier, NavigatorHead.link, h, and_self, ↓reduceIte]
  rfl

/-- A stand-in is spelled along the trail around it and its navigator along its own; on linked
trees both come to the component of the navigator. -/
theorem childScreen_of_generated (hp : child.parent = some n.trail)
    (h : child.isExternal = false) :
    (n.childScreen child).importSpecifier = child.componentSymbol := by
  have hs : (n.childScreen child).importSpecifier =
      (n.childScreen child).parent.importSpecifier ++ (child.name ++ "Navigator") := by
    simp only [Screen.importSpecifier, childScreen, h, Bool.false_eq_true, and_false, ↓reduceIte]
    rfl
  rw [hs, Trail.importSpecifier_of_navigator rfl, childScreen_navigatorName,
    NavigatorHead.componentSymbol, NavigatorHead.navigatorName_eq, hp, Trail.outerName_some,
    String.append_assoc]

end Navigator

end NavTree
