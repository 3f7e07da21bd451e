import NavTree.Proofs.Code.Declared
import NavTree.Proofs.Tree.Placed

/-! # The order of the component file

Imports come first, then the stacks, then the components. Each place of a navigator that is not
external adds one stack and one component; components go from the inside out, stacks the other way.
-/
namespace NavTree

/-- How the declarations of a component file follow from its imports and the places of the
navigators that it generates. -/
structure Tree.Shape (t : Tree) (imports : List Declaration) (body : Navigator → String)
    (order : List (Place × Navigator)) : Prop where
  declarations_eq : t.flatten.component.declarations =
    [.namespaceImport "React" "react", .namespaceImport "route" "./routes.gen"] ++ imports
      ++ order.reverse.map (fun a =>
          .constant false a.2.stackSymbol (a.2.kind.factory.symbol ++ "()"))
      ++ order.map fun a => .constant a.2.exported a.2.componentSymbol (body a.2)
  imports_named : ∀ d ∈ imports, ∃ symbols source, d = .namedImport symbols source
  factory_imported : ∀ a ∈ order, ∃ symbols,
    .namedImport symbols a.2.kind.factory.source ∈ imports ∧ a.2.kind.factory.symbol ∈ symbols
  mem_order : ∀ p n, (p, n) ∈ order ↔ t.nodeAt? p = some n.node ∧ n.isExternal = false
  places_nodup : (order.map (·.1)).Nodup
  nested_first : order.Pairwise fun a b => ¬ b.1.Within a.1

namespace Tree

variable {t : Tree} {p : Place} {n : Navigator}

/-- The generated navigators with their places, nested ones first. -/
def order (t : Tree) : List (Place × Navigator) := t.placed.filter fun a => !a.2.isExternal

theorem map_snd_order (t : Tree) : t.order.map (·.2) = t.flatten.generated := by
  have hflat : t.flatten.generated = t.placedNavigators.filter (!·.isExternal) := rfl
  rw [hflat, ← map_snd_placed, List.filter_map]
  rfl

theorem mem_order : (p, n) ∈ t.order ↔ t.nodeAt? p = some n.node ∧ n.isExternal = false := by
  rw [order, List.mem_filter, mem_placed, Bool.not_eq_true']

theorem order_innerFirst (t : Tree) : Node.InnerFirst t.order := t.placed_innerFirst.filter _

theorem factory_imported (h : n ∈ t.flatten.generated) : ∃ symbols,
    .namedImport symbols n.kind.factory.source ∈ t.flatten.componentImports.declarations ∧
      n.kind.factory.symbol ∈ symbols := by
  have hneeds : t.Needs n.kind.factory := .factory (mem_generated.mp h).1
  exact Imports.has_iff_declared.mp (Imports.has_ofList.mpr (mem_needed.mp hneeds))

/-- The component file of every tree has the two namespace imports, the named imports, a stack for
each place of a generated navigator, and in the opposite order a component for each. -/
theorem component_shape (t : Tree) : ∃ imports body order, t.Shape imports body order := by
  refine ⟨t.flatten.componentImports.declarations,
    fun n => "() => \x7b\n  return (\n" ++ n.element.text ++ "\n  );\n\x7d", t.order, ?_⟩
  exact {
    declarations_eq := by
      have hdeclarations : t.flatten.component.declarations = t.flatten.componentDeclarations := rfl
      rw [hdeclarations, FlatTree.componentDeclarations, ← map_snd_order, ← List.map_reverse,
        List.map_map, List.map_map]
      rfl
    imports_named := List.forall_mem_map.mpr fun m _ => ⟨m.2, m.1, rfl⟩
    factory_imported := by
      intro a ha
      refine factory_imported ?_
      rw [← map_snd_order]
      exact List.mem_map_of_mem ha
    mem_order := fun p n => mem_order
    places_nodup := t.order_innerFirst.places_nodup
    nested_first := t.order_innerFirst }

end Tree

end NavTree
