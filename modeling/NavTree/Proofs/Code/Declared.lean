import NavTree.Code.Component
import NavTree.Code.Routes
import NavTree.Proofs.Code.MergedImports
import NavTree.Proofs.Tree.Position

/-! # What generated files declare

Membership in the two generated source files, said by positions in the tree: the stacks and
components of the component file, its imports, and the constants of the routes file.
-/
namespace NavTree

/-- The declarations of a generated source. -/
def Artifact.declarations (a : Artifact) : List Declaration :=
  match a.payload with
  | .source _ _ ds => ds
  | .text _ => []

namespace Imports

def Has (modules : List (String × List String)) (i : Import) : Prop :=
  ∃ symbols, (i.source, symbols) ∈ modules ∧ i.symbol ∈ symbols

theorem has_ofList {l : List Import} {i : Import} : Has (ofList l).modules i ↔ i ∈ l := by
  rw [Has, modules_ofList]
  constructor
  · rintro ⟨symbols, hm, hs⟩
    obtain ⟨source, -, he⟩ := List.mem_map.mp hm
    obtain ⟨rfl, rfl⟩ := Prod.mk.inj he
    exact mem_symbolsFrom.mp (List.mem_eraseDups.mp hs)
  · intro h
    have hsource : i.source ∈ (l.map (·.source)).eraseDups :=
      List.mem_eraseDups.mpr (List.mem_map_of_mem h)
    exact ⟨_, List.mem_map.mpr ⟨i.source, hsource, rfl⟩,
      List.mem_eraseDups.mpr (mem_symbolsFrom.mpr h)⟩

theorem has_iff_declared {is : Imports} {i : Import} : Has is.modules i ↔
    ∃ symbols, .namedImport symbols i.source ∈ is.declarations ∧ i.symbol ∈ symbols := by
  constructor
  · rintro ⟨symbols, hm, hs⟩
    exact ⟨symbols, List.mem_map.mpr ⟨_, hm, rfl⟩, hs⟩
  · rintro ⟨symbols, hd, hs⟩
    obtain ⟨m, hm, he⟩ := List.mem_map.mp hd
    obtain ⟨rfl, hsource⟩ := Declaration.namedImport.inj he
    exact ⟨m.2, hsource ▸ hm, hs⟩

end Imports

namespace Tree

variable {t : Tree} {n : Navigator}

theorem mem_generated : n ∈ t.flatten.generated ↔ t.Contains n ∧ n.isExternal = false := by
  have hf : t.flatten.navigators = t.placedNavigators := rfl
  simp [FlatTree.generated, hf, mem_placedNavigators]

theorem stack_declared (hn : t.Contains n) (hg : n.isExternal = false) :
    n.stackDeclaration ∈ t.flatten.component.declarations := by
  have h := mem_generated.mpr ⟨hn, hg⟩
  have hm : n.stackDeclaration ∈ t.flatten.generated.reverse.map Navigator.stackDeclaration :=
    List.mem_map.mpr ⟨n, List.mem_reverse.mpr h, rfl⟩
  exact List.mem_append_left _ (List.mem_append_right _ hm)

theorem component_declared (hn : t.Contains n) (hg : n.isExternal = false) :
    n.componentDeclaration ∈ t.flatten.component.declarations :=
  List.mem_append_right _ (List.mem_map.mpr ⟨n, mem_generated.mpr ⟨hn, hg⟩, rfl⟩)

/-- The component file binds a symbol by a named import. -/
def Binds (t : Tree) (i : Import) : Prop :=
  ∃ symbols, .namedImport symbols i.source ∈ t.flatten.component.declarations ∧ i.symbol ∈ symbols

/-- What a tree asks for from elsewhere. Of the screens with one name and container name only the
first one asks. -/
inductive Needs (t : Tree) : Import → Prop
  | factory {n : Navigator} (hn : t.Contains n) : Needs t n.kind.factory
  | external {n : Navigator} {i : Import} (hn : t.Contains n) (hi : n.externalImport? = some i) :
      Needs t i
  | screen {s : Screen} {i : Import} (hs : t.first? s.key = some s) (hi : s.eagerImport? = some i) :
      Needs t i
  | fragment {e : Expression} {i : Import} (he : e ∈ t.flatten.expressions) (hi : e.use = some i) :
      Needs t i

theorem mem_needed {i : Import} : t.Needs i ↔
    i ∈ t.flatten.navigators.map (·.kind.factory)
      ++ t.flatten.navigators.filterMap Navigator.externalImport?
      ++ t.flatten.screens.filterMap Screen.eagerImport?
      ++ t.flatten.expressions.filterMap Expression.use := by
  simp only [List.mem_append, List.mem_map, List.mem_filterMap, or_assoc]
  constructor
  · rintro (@⟨n, hn⟩ | @⟨n, _, hn, hi⟩ | @⟨s, _, hs, hi⟩ | @⟨e, _, he, hi⟩)
    · exact .inl ⟨n, mem_placedNavigators.mpr hn, rfl⟩
    · exact .inr (.inl ⟨n, mem_placedNavigators.mpr hn, hi⟩)
    · exact .inr (.inr (.inl ⟨s, mem_flatten_screens.mpr hs, hi⟩))
    · exact .inr (.inr (.inr ⟨e, he, hi⟩))
  · rintro (⟨n, hn, rfl⟩ | ⟨n, hn, hi⟩ | ⟨s, hs, hi⟩ | ⟨e, he, hi⟩)
    · exact .factory (mem_placedNavigators.mp hn)
    · exact .external (mem_placedNavigators.mp hn) hi
    · exact .screen (mem_flatten_screens.mp hs) hi
    · exact .fragment he hi

/-- The named imports of the component file are its imports, and nothing else. -/
theorem binds_iff_has {i : Import} :
    t.Binds i ↔ Imports.Has t.flatten.componentImports.modules i := by
  have hd : t.flatten.component.declarations = t.flatten.componentDeclarations := rfl
  have hnamed : ∀ symbols source,
      Declaration.namedImport symbols source ∈ t.flatten.component.declarations ↔
        .namedImport symbols source ∈ t.flatten.componentImports.declarations := by
    simp [hd, FlatTree.componentDeclarations, Navigator.stackDeclaration,
      Navigator.componentDeclaration]
  simp only [Binds, hnamed, Imports.has_iff_declared]

theorem binds_iff {i : Import} : t.Binds i ↔ t.Needs i := by
  rw [binds_iff_has, mem_needed]
  exact Imports.has_ofList

theorem external_imported (hn : t.Contains n) {i : Import} (hi : n.externalImport? = some i) :
    ∃ symbols, .namedImport symbols i.source ∈ t.flatten.component.declarations ∧
      i.symbol ∈ symbols :=
  binds_iff.mpr (.external hn hi)

end Tree

theorem Imports.declarations_ne_constant {is : Imports} {exported : Bool} {name value : String} :
    Declaration.constant exported name value ∉ is.declarations := by
  simp [declarations]

namespace Screen

theorem route_ne_builder (s s' : Screen) (exported : Bool) (value : String) :
    .constant exported s.routeSymbol value ≠ s'.routeBuilder.code := by
  have hname : s.routeSymbol ≠ s'.builderSymbol := by
    intro h
    have hc := congrArg (fun x : String => x.toList.head?) h
    simp [routeSymbol, builderSymbol] at hc
  intro h
  apply hname
  unfold routeBuilder at h
  split at h <;> exact (Declaration.constant.inj h).2.1

end Screen

namespace Tree

variable {t : Tree} {n : Navigator}

/-- The screens that the routes file has constants for: the stand-ins, and the first screen with
each name and container name. -/
def Routed (t : Tree) (r : Screen) : Prop :=
  (∃ n child, t.Contains n ∧ child ∈ n.nested ∧ r = n.childScreen child) ∨ t.first? r.key = some r

theorem Routed.declared {r : Screen} (h : t.Routed r) :
    r.routeConstant ∈ t.flatten.routes.declarations := by
  rcases h with ⟨n, child, hn, hc, rfl⟩ | hf
  · have hm : n.childScreen child ∈ t.flatten.navigators.flatMap Navigator.childScreens :=
      List.mem_flatMap.mpr ⟨n, mem_placedNavigators.mpr hn, List.mem_map.mpr ⟨child, hc, rfl⟩⟩
    have hr : (n.childScreen child).routeConstant ∈ t.flatten.routeConstants :=
      List.mem_append_left _ (List.mem_append_left _ (List.mem_map.mpr ⟨_, hm, rfl⟩))
    exact List.mem_append_right _ hr
  · have hm : r.routeConstant ∈ t.flatten.screens.map Screen.routeConstant :=
      List.mem_map.mpr ⟨r, mem_flatten_screens.mpr hf, rfl⟩
    have hr : r.routeConstant ∈ t.flatten.routeConstants :=
      List.mem_append_left _ (List.mem_append_right _ hm)
    exact List.mem_append_right _ hr

/-- Under the name of a route there are only the constants of routed screens. -/
theorem exists_routed {s : Screen} {exported : Bool} {value : String}
    (h : .constant exported s.routeSymbol value ∈ t.flatten.routes.declarations) :
    ∃ r, t.Routed r ∧ r.routeConstant = .constant exported s.routeSymbol value := by
  rcases List.mem_append.mp h with h | h
  · exact absurd h Imports.declarations_ne_constant
  rcases List.mem_append.mp h with h | h
  · rcases List.mem_append.mp h with h | h
    · obtain ⟨_, hm, he⟩ := List.mem_map.mp h
      obtain ⟨n, hn, hm⟩ := List.mem_flatMap.mp hm
      obtain ⟨child, hc, rfl⟩ := List.mem_map.mp hm
      exact ⟨_, .inl ⟨n, child, mem_placedNavigators.mp hn, hc, rfl⟩, he⟩
    · obtain ⟨f, hf, he⟩ := List.mem_map.mp h
      exact ⟨f, .inr (mem_flatten_screens.mp hf), he⟩
  · obtain ⟨f, _, he⟩ := List.mem_map.mp h
    exact absurd he.symm (s.route_ne_builder f exported value)

end Tree

end NavTree
