import Mathlib.Data.List.Nodup
import NavTree.Proofs.Code.Declared

/-! # Named imports

A generated source binds what was collected for it and nothing else: a module stands in one named
import, and each of its symbols stands there once.
-/
namespace NavTree

def Declaration.importedModule? : Declaration → Option String
  | namedImport _ source => some source
  | _ => none

namespace Artifact

/-- A generated source binds a symbol by a named import. -/
def Binds (a : Artifact) (i : Import) : Prop :=
  ∃ symbols, .namedImport symbols i.source ∈ a.declarations ∧ i.symbol ∈ symbols

def importedModules (a : Artifact) : List String :=
  a.declarations.filterMap Declaration.importedModule?

/-- No module stands in two named imports, and no symbol twice within one. -/
structure ImportsApart (a : Artifact) : Prop where
  modules_nodup : a.importedModules.Nodup
  symbols_nodup : ∀ symbols source, .namedImport symbols source ∈ a.declarations → symbols.Nodup

end Artifact

namespace Imports

/-- What collected imports keep: a module stands there once, and so does a symbol of it. -/
structure Apart (modules : List (String × List String)) : Prop where
  modules_nodup : (modules.map (·.1)).Nodup
  symbols_nodup : ∀ m ∈ modules, m.2.Nodup

theorem ofList_apart (l : List Import) : Apart (ofList l).modules := by
  rw [modules_ofList]
  refine ⟨?_, List.forall_mem_map.mpr fun source _ => nodup_eraseDups _⟩
  rw [List.map_map]
  exact (List.map_id _).symm ▸ nodup_eraseDups _

end Imports

/-- The named imports of a source are those that were collected for it. -/
structure Artifact.ImportsFrom (a : Artifact) (is : Imports) : Prop where
  importedModules_eq : a.importedModules = is.modules.map (·.1)
  declared_iff : ∀ symbols source,
    .namedImport symbols source ∈ a.declarations ↔ .namedImport symbols source ∈ is.declarations

namespace Artifact.ImportsFrom

variable {a : Artifact} {is : Imports} {l : List Import} {i : Import}

theorem binds_iff (h : a.ImportsFrom (.ofList l)) : a.Binds i ↔ i ∈ l := by
  simp only [Binds, h.declared_iff, ← Imports.has_iff_declared, Imports.has_ofList]

theorem importsApart (h : a.ImportsFrom (.ofList l)) : a.ImportsApart := by
  have hapart : Imports.Apart (Imports.ofList l).modules := Imports.ofList_apart l
  refine ⟨h.importedModules_eq ▸ hapart.modules_nodup, fun symbols source hd => ?_⟩
  obtain ⟨m, hm, he⟩ := List.mem_map.mp ((h.declared_iff symbols source).mp hd)
  obtain ⟨rfl, _⟩ := Declaration.namedImport.inj he
  exact hapart.symbols_nodup m hm

/-- Beside the collected imports there are no named ones. -/
theorem of_declarations (before after : List Declaration)
    (h : a.declarations = before ++ is.declarations ++ after)
    (hb : ∀ d ∈ before, d.importedModule? = none) (ha : ∀ d ∈ after, d.importedModule? = none) :
    a.ImportsFrom is where
  importedModules_eq := by
    have hcollected : is.declarations.filterMap Declaration.importedModule? =
        is.modules.map (·.1) := by
      rw [Imports.declarations, List.filterMap_map, ← List.filterMap_eq_map]
      rfl
    rw [importedModules, h, List.filterMap_append, List.filterMap_append,
      List.filterMap_eq_nil_iff.mpr hb, List.filterMap_eq_nil_iff.mpr ha, hcollected]
    simp
  declared_iff := by
    intro symbols source
    have hne : ∀ ds : List Declaration, (∀ d ∈ ds, d.importedModule? = none) →
        .namedImport symbols source ∉ ds := fun ds hds hd => by cases hds _ hd
    simp [h, hne before hb, hne after ha]

end Artifact.ImportsFrom

theorem FlatTree.component_importsFrom (f : FlatTree) :
    f.component.ImportsFrom f.componentImports := by
  refine .of_declarations
    [.namespaceImport "React" "react", .namespaceImport "route" "./routes.gen"]
    (f.generated.reverse.map Navigator.stackDeclaration
      ++ f.generated.map Navigator.componentDeclaration) ?_ ?_ ?_
  · exact List.append_assoc ..
  · simp [Declaration.importedModule?]
  · refine List.forall_mem_append.mpr ⟨?_, ?_⟩
    · exact List.forall_mem_map.mpr fun n _ => rfl
    · exact List.forall_mem_map.mpr fun n _ => rfl

theorem Screen.routeBuilder_importedModule (s : Screen) :
    s.routeBuilder.code.importedModule? = none := by
  unfold routeBuilder
  split <;> rfl

theorem FlatTree.routes_importsFrom (f : FlatTree) : f.routes.ImportsFrom f.routeImports := by
  refine .of_declarations [] f.routeConstants rfl (by simp) ?_
  refine List.forall_mem_append.mpr ⟨List.forall_mem_append.mpr ⟨?_, ?_⟩, ?_⟩
  · exact List.forall_mem_map.mpr fun s _ => rfl
  · exact List.forall_mem_map.mpr fun s _ => rfl
  · exact List.forall_mem_map.mpr fun s _ => s.routeBuilder_importedModule

end NavTree
