import NavTree.Proofs.Code.Declared
import NavTree.Proofs.Code.Markup
import NavTree.Proofs.Tree.Naming

/-! # Stacks of elements

The tag of an element names a stack. All elements inside one component agree on it: it is derived
from the navigators around them, roots left out. The navigator itself does not leave out its own
name, so a root that has a name and lies inside named navigators declares one stack, and its
elements use another.
-/
namespace NavTree

namespace Navigator

variable {n : Navigator}

/-- The base of the stack symbol that everything directly inside the navigator uses. -/
def innerName (n : Navigator) : String :=
  if n.trail.navigatorName = "" then n.name else n.trail.navigatorName

/-- A root with a name of its own, somewhere inside a named navigator. -/
structure IsInnerRoot (n : Navigator) : Prop where
  root : n.root = true
  named : n.name ≠ ""
  inside : Trail.outerName n.parent ≠ ""

theorem innerName_of_isInnerRoot (h : n.IsInnerRoot) :
    n.innerName = Trail.outerName n.parent := by
  have ht : n.trail.navigatorName = Trail.outerName n.parent := by
    rw [NavigatorHead.trail_navigatorName, if_pos h.root, String.append_empty]
  rw [innerName, ht, if_neg h.inside]

theorem innerName_of_not_isInnerRoot (h : ¬ n.IsInnerRoot) : n.innerName = n.navigatorName := by
  rw [innerName, NavigatorHead.trail_navigatorName, NavigatorHead.navigatorName_eq]
  by_cases ho : Trail.outerName n.parent = ""
  · cases hr : n.root <;> simp [ho]
  · by_cases hn : n.name = ""
    · simp [ho, hn]
    · have hr : n.root = false := by
        cases hr : n.root with
        | false => rfl
        | true => exact absurd ⟨hr, hn, ho⟩ h
      simp [ho, hr]

theorem innerName_eq_iff : n.innerName = n.navigatorName ↔ ¬ n.IsInnerRoot := by
  constructor
  · intro he h
    rw [innerName_of_isInnerRoot h, NavigatorHead.navigatorName_eq] at he
    have hempty : Trail.outerName n.parent ++ "" = Trail.outerName n.parent ++ n.name := by
      rw [String.append_empty]
      exact he
    exact h.named (String.append_right_inj _ |>.mp hempty).symm
  · exact innerName_of_not_isInnerRoot

theorem childScreen_stackSymbol (child : Navigator) :
    (n.childScreen child).stackSymbol = n.innerName ++ "Stack" := by
  have htag : (n.childScreen child).parent.link.tag = .navigator := rfl
  have hname : (n.childScreen child).parent.link.name = n.name := rfl
  unfold Screen.stackSymbol innerName
  rw [childScreen_navigatorName, htag, hname]
  by_cases h : n.trail.navigatorName = "" <;> simp [h]

theorem Linked.screen_stackSymbol (h : n.Linked) {s : Screen} (hs : n.Holds s) :
    s.stackSymbol = n.innerName ++ "Stack" := by
  unfold Screen.stackSymbol innerName
  rcases hs with hs | ⟨g, hg, hs⟩
  · have htag : n.trail.link.tag = .navigator := rfl
    have hname : n.trail.link.name = n.name := rfl
    rw [h.screen hs, htag, hname]
    by_cases hn : n.trail.navigatorName = "" <;> simp [hn]
  · have houter : Trail.links (some n.trail) = n.link :: Trail.links n.parent := rfl
    have hname : n.link.name = n.name := rfl
    rw [h.groupScreen hg hs, Group.trail_navigatorName, Trail.push, houter]
    by_cases hn : n.trail.navigatorName = "" <;> simp [hn, hname, Group.link]

theorem Linked.group_stackSymbol (h : n.Linked) {g : Group} (hg : .group g ∈ n.children) :
    g.stackSymbol = n.innerName ++ "Stack" := by
  have htag : n.trail.link.tag = .navigator := rfl
  have hname : n.trail.link.name = n.name := rfl
  unfold Group.stackSymbol Group.navigatorName innerName
  rw [h.group hg]
  by_cases hn : n.trail.navigatorName = "" <;> simp [hn, htag, hname]

/-- Every tag inside the element of a navigator is a screen or a group of its inner stack. -/
theorem Linked.tag_inside (h : n.Linked) {e : Element} (he : e ∈ n.element.inside) :
    e.tag = n.innerName ++ "Stack" ++ ".Screen" ∨ e.tag = n.innerName ++ "Stack" ++ ".Group" := by
  rcases mem_element_inside.mp he with ⟨s, hs, rfl⟩ | ⟨g, hg, rfl⟩ | ⟨child, _, rfl⟩
  · exact .inl (congrArg (· ++ ".Screen") (h.screen_stackSymbol hs))
  · exact .inr (congrArg (· ++ ".Group") (h.group_stackSymbol hg))
  · exact .inl (congrArg (· ++ ".Screen") (childScreen_stackSymbol child))

end Navigator

namespace Tree

variable {t : Tree} {n : Navigator}

/-- The names around a navigator spell the stack of a navigator around it, if they spell any. -/
theorem Linked.exists_outer (hl : t.Linked) (hn : t.Contains n) :
    Trail.outerName n.parent = "" ∨ ∃ m, t.Contains m ∧ m.isExternal = false ∧
      m.navigatorName = Trail.outerName n.parent := by
  refine hn.induct (P := fun n => Trail.outerName n.parent = "" ∨ ∃ m, t.Contains m ∧
    m.isExternal = false ∧ m.navigatorName = Trail.outerName n.parent) ?_ ?_
  · intro top ht
    rw [hl.top top ht]
    exact .inl rfl
  · intro n hn ih child hc
    rw [(hl.inside n hn).nested hc, Trail.outerName_some, NavigatorHead.trail_navigatorName]
    cases hr : n.root with
    | true => simpa using ih
    | false =>
      have hg : n.isExternal = false := Navigator.isExternal_eq_false (Navigator.mem_nested.mp hc)
      refine .inr ⟨n, hn, hg, ?_⟩
      simp [NavigatorHead.navigatorName_eq]

/-- Whichever stack the elements of a component use, the component file declares it. -/
theorem Linked.innerStack_declared (hl : t.Linked) (hn : t.Contains n) (hg : n.isExternal = false) :
    ∃ value, .constant false (n.innerName ++ "Stack") value ∈
      t.flatten.component.declarations := by
  by_cases hr : n.IsInnerRoot
  · rcases hl.exists_outer hn with ho | ⟨m, hm, hgm, ho⟩
    · exact absurd ho hr.inside
    · rw [Navigator.innerName_of_isInnerRoot hr, ← ho]
      exact ⟨_, stack_declared hm hgm⟩
  · rw [Navigator.innerName_of_not_isInnerRoot hr]
    exact ⟨_, stack_declared hn hg⟩

/-- A component declares the stack of its navigator. Its elements use that stack unless the
navigator is an inner root; then all of them use the stack of a navigator further out, which is
declared as well. -/
theorem element_stack_iff {j : Json} (hj : ofJson j = .ok t) (hn : t.Contains n)
    (hg : n.isExternal = false) :
    n.element.tag = n.stackSymbol ++ ".Navigator" ∧
    n.stackDeclaration ∈ t.flatten.component.declarations ∧
    (∀ s, n.Holds s → (s.stackSymbol = n.stackSymbol ↔ ¬ n.IsInnerRoot)) ∧
    (∀ g, .group g ∈ n.children → (g.stackSymbol = n.stackSymbol ↔ ¬ n.IsInnerRoot)) ∧
    (∀ child ∈ n.nested, ((n.childScreen child).stackSymbol = n.stackSymbol ↔ ¬ n.IsInnerRoot)) ∧
    (∀ e ∈ n.element.inside, e.tag = n.innerName ++ "Stack" ++ ".Screen" ∨
      e.tag = n.innerName ++ "Stack" ++ ".Group") ∧
    ∃ value, .constant false (n.innerName ++ "Stack") value ∈
      t.flatten.component.declarations := by
  have hl := ofJson_linked hj
  have hln := hl.inside n hn
  have hiff : n.innerName ++ "Stack" = n.stackSymbol ↔ ¬ n.IsInnerRoot := by
    rw [NavigatorHead.stackSymbol, String.append_left_inj, Navigator.innerName_eq_iff]
  refine ⟨rfl, stack_declared hn hg, ?_, ?_, ?_, ?_, hl.innerStack_declared hn hg⟩
  · intro s hs
    rw [hln.screen_stackSymbol hs, hiff]
  · intro g hm
    rw [hln.group_stackSymbol hm, hiff]
  · intro child _
    rw [Navigator.childScreen_stackSymbol, hiff]
  · intro e he
    exact hln.tag_inside he

end Tree

namespace Plain

def homeJson : Json :=
  treeJson [navigatorJson "Home" false [navigatorJson "Inner" true
    [screenJson "Feed", groupJson "G" [screenJson "A"]]]]

def homeHead : NavigatorHead := head "Home" false none

def innerHead : NavigatorHead := head "Inner" true (some homeHead.trail)

def feed : Screen := screen "Feed" innerHead.trail

def inner : Navigator :=
  ⟨innerHead, [.screen feed, .group (group "G" innerHead.trail
    [screen "A" (.push (some innerHead.trail) ⟨.group, "G", false, false⟩)])]⟩

def home : Navigator := ⟨homeHead, [inner.node]⟩

def homeOutline : Outline where
  config := config
  groups := []
  navigators := [navigatorOutline "Home" false [navigatorOutline "Inner" true
    [screenOutline "Feed", groupOutline "G" [screenOutline "A"]]]]

theorem ofJson_homeJson : Tree.ofJson homeJson = .ok (tree [home]) := by
  rw [Tree.ofJson, bind_eq_ok]
  exact ⟨homeOutline, rfl, rfl⟩

theorem contains_home : (tree [home]).Contains home := ⟨home, List.mem_cons_self, .refl home⟩

theorem inner_nested : inner ∈ home.nested := Navigator.mem_nested.mpr List.mem_cons_self

/-- The elements of the outer navigator, the stand-in of the inner one among them. -/
theorem home_elements_in_own_stack :
    Tree.ofJson homeJson = .ok (tree [home]) ∧
    (home.childScreen inner).stackSymbol = "HomeStack" ∧
    home.stackDeclaration ∈ (tree [home]).flatten.component.declarations := by
  have hi : ¬ home.IsInnerRoot := fun h => absurd h.root (by decide)
  obtain ⟨_, hd, _, _, hs, _⟩ := Tree.element_stack_iff ofJson_homeJson contains_home rfl
  exact ⟨ofJson_homeJson, (hs inner inner_nested).mpr hi, hd⟩

/-- The screen of the inner navigator is not in its stack. -/
theorem feed_outside_inner_stack :
    Tree.ofJson homeJson = .ok (tree [home]) ∧ (tree [home]).Contains inner ∧
    inner.isExternal = false ∧ inner.Holds feed ∧ feed.stackSymbol = "HomeStack" ∧
    inner.stackSymbol = "HomeInnerStack" := by
  have hs : inner.Holds feed := .inl List.mem_cons_self
  exact ⟨ofJson_homeJson, contains_home.nested inner_nested, rfl, hs, by decide, by decide⟩

end Plain

end NavTree
