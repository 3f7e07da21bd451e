import NavTree.Proofs.Code.Declared
import NavTree.Proofs.Tree.Dissolved

/-! # Constants of the component file

A generated navigator declares its stack and its component under its name with a suffix. The two
suffixes are told apart by their last letters, so constants share a name only if navigators do.
-/
namespace NavTree

/-- The names of the constants that a generated source declares, in the order of the source. -/
def Artifact.constantNames (a : Artifact) : List String :=
  a.declarations.filterMap Declaration.constantName?

theorem Imports.constantNames_eq_nil (is : Imports) :
    is.declarations.filterMap Declaration.constantName? = [] := by
  rw [declarations, List.filterMap_map]
  exact List.filterMap_eq_nil_iff.mpr fun m _ => rfl

theorem stack_ne_navigator (x y : String) : x ++ "Stack" ≠ y ++ "Navigator" := by
  intro h
  have hlast := congrArg (fun s : String => s.toList.getLast?) h
  simp at hlast

namespace FlatTree

variable (f : FlatTree)

theorem component_constantNames : f.component.constantNames =
    (f.generated.reverse.map fun n => n.navigatorName ++ "Stack")
      ++ f.generated.map fun n => n.navigatorName ++ "Navigator" := by
  have hdeclarations : f.component.declarations = f.componentDeclarations := rfl
  have hstacks : (f.generated.reverse.map Navigator.stackDeclaration).filterMap
      Declaration.constantName? = f.generated.reverse.map (·.stackSymbol) := by
    rw [List.filterMap_map, ← List.filterMap_eq_map]
    rfl
  have hcomponents : (f.generated.map Navigator.componentDeclaration).filterMap
      Declaration.constantName? = f.generated.map (·.componentSymbol) := by
    rw [List.filterMap_map, ← List.filterMap_eq_map]
    rfl
  rw [Artifact.constantNames, hdeclarations, componentDeclarations, List.filterMap_append,
    List.filterMap_append, List.filterMap_append, f.componentImports.constantNames_eq_nil, hstacks,
    hcomponents]
  rfl

theorem component_constantNames_nodup_iff :
    f.component.constantNames.Nodup ↔ (f.generated.map (·.navigatorName)).Nodup := by
  have hsuffix : ∀ suffix : String, Function.Injective fun x : String => x ++ suffix :=
    fun suffix x y h => (String.append_left_inj suffix).mp h
  have hstacks : (f.generated.reverse.map fun n => n.navigatorName ++ "Stack") =
      ((f.generated.map (·.navigatorName)).map (· ++ "Stack")).reverse := by simp
  have hcomponents : (f.generated.map fun n => n.navigatorName ++ "Navigator") =
      (f.generated.map (·.navigatorName)).map (· ++ "Navigator") := by simp
  rw [component_constantNames, hstacks, hcomponents, List.nodup_append, List.nodup_reverse,
    List.nodup_map_iff (hsuffix "Stack"), List.nodup_map_iff (hsuffix "Navigator")]
  refine ⟨fun h => h.1, fun h => ⟨h, h, ?_⟩⟩
  intro s hs c hc he
  obtain ⟨x, _, rfl⟩ := List.mem_map.mp (List.mem_reverse.mp hs)
  obtain ⟨y, _, rfl⟩ := List.mem_map.mp hc
  exact stack_ne_navigator x y he

end FlatTree

/-- The component file declares no constant twice exactly if, with the roots dissolved, siblings
have names apart and nothing clashes. -/
theorem Tree.component_constants_nodup_iff {j : Json} {t : Tree} (h : ofJson j = .ok t) :
    t.flatten.component.constantNames.Nodup ↔
      t.dissolved.SiblingsApart ∧ ¬ t.dissolved.Ambiguous := by
  rw [FlatTree.component_constantNames_nodup_iff]
  exact (ofJson_settled h).1.navigatorNames_nodup_iff

namespace Plain

/-- A root navigator with a navigator inside, and another one beside it. -/
def besideRootJson (inner outer : String) : Json :=
  treeJson [navigatorJson "App" true [navigatorJson inner false [screenJson "Feed"]],
    navigatorJson outer false [screenJson "Login"]]

def besideRootOutline (inner outer : String) : Outline where
  config := config
  groups := []
  navigators := [navigatorOutline "App" true [navigatorOutline inner false [screenOutline "Feed"]],
    navigatorOutline outer false [screenOutline "Login"]]

def besideRootApp : NavigatorHead := head "App" true none

def besideRootInner (inner : String) : NavigatorHead := head inner false (some besideRootApp.trail)

def besideRootOuter (outer : String) : NavigatorHead := head outer false none

def besideRootTree (inner outer : String) : Tree :=
  tree [⟨besideRootApp, [.navigator (besideRootInner inner)
      [.screen (screen "Feed" (besideRootInner inner).trail)]]⟩,
    ⟨besideRootOuter outer, [.screen (screen "Login" (besideRootOuter outer).trail)]⟩]

theorem ofJson_besideRoot (inner outer : String) :
    Tree.ofJson (besideRootJson inner outer) = .ok (besideRootTree inner outer) := by
  rw [Tree.ofJson, bind_eq_ok]
  exact ⟨besideRootOutline inner outer, rfl, rfl⟩

theorem beside_root_constants_apart :
    Tree.ofJson (besideRootJson "Home" "Auth") = .ok (besideRootTree "Home" "Auth") ∧
    (besideRootTree "Home" "Auth").flatten.component.constantNames.Nodup := by
  have hjson := ofJson_besideRoot "Home" "Auth"
  have hd : (besideRootTree "Home" "Auth").dissolved.SiblingsApart := by
    unfold Tree.SiblingsApart
    decide +kernel
  have hclear : ¬ (besideRootTree "Home" "Auth").dissolved.Ambiguous :=
    Tree.not_ambiguous (by decide +kernel) (by decide +kernel)
  exact ⟨hjson, (Tree.component_constants_nodup_iff hjson).mpr ⟨hd, hclear⟩⟩

/-- Siblings have names apart here, but inside the root a navigator is named like one beside it. -/
theorem beside_root_constants_twice :
    Tree.ofJson (besideRootJson "Home" "Home") = .ok (besideRootTree "Home" "Home") ∧
    (besideRootTree "Home" "Home").SiblingsApart ∧
    (besideRootTree "Home" "Home").flatten.component.constantNames =
      ["HomeStack", "AppStack", "HomeStack", "HomeNavigator", "AppNavigator", "HomeNavigator"] ∧
    ¬ (besideRootTree "Home" "Home").flatten.component.constantNames.Nodup := by
  unfold Tree.SiblingsApart
  exact ⟨ofJson_besideRoot "Home" "Home", by decide +kernel, by decide +kernel, by decide +kernel⟩

end Plain

end NavTree
