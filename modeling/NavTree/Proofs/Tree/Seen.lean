import NavTree.Code.Routes
import NavTree.Proofs.Tree.Segments

/-! # What names see of a trail

Import and route names look at the innermost container and at the layers of a trail, and at nothing
else around a node. Screens that differ in the rest only have the same names.
-/
namespace NavTree

/-- Two trails are seen alike by import and route names. -/
structure Trail.SeenAlike (t t' : Trail) : Prop where
  tag : t.link.tag = t'.link.tag
  reference : t.link.reference = t'.link.reference
  layers : t.layers = t'.layers

/-- The names that are made along the trail inside a container. -/
structure Trail.SameNames (t t' : Trail) : Prop where
  importSpecifier : t.importSpecifier = t'.importSpecifier
  importPath : t.importPath = t'.importPath
  routeLiteral : t.routeLiteral = t'.routeLiteral

structure Screen.SameNames (s s' : Screen) : Prop where
  importSpecifier : s.importSpecifier = s'.importSpecifier
  importPath : s.importPath = s'.importPath
  routeLiteral : s.routeLiteral = s'.routeLiteral
  routeSymbol : s.routeSymbol = s'.routeSymbol
  builderSymbol : s.builderSymbol = s'.builderSymbol
  routeSegments : s.routeSegments = s'.routeSegments

namespace Trail.SeenAlike

variable {t t' : Trail}

theorem sameNames (h : t.SeenAlike t') : t.SameNames t' := by
  have hpath : t.importPath = t'.importPath := by rw [importPath, importPath, h.layers]
  have hspecifier : t.importSpecifier = t'.importSpecifier := congrArg concat hpath
  exact ⟨hspecifier, hpath, hspecifier⟩

theorem isReferenceGroup (h : t.SeenAlike t') : t.isReferenceGroup = t'.isReferenceGroup := by
  rw [Trail.isReferenceGroup, Trail.isReferenceGroup, h.tag, h.reference]

/-- Inside reference groups with one link, nothing around the group is seen. -/
theorem of_reference (h : t.isReferenceGroup = true) (hl : t.link = t'.link) :
    t.SeenAlike t' where
  tag := congrArg Link.tag hl
  reference := congrArg Link.reference hl
  layers := by
    have h' : t'.isReferenceGroup = true := by
      rw [Trail.isReferenceGroup, ← hl]
      exact h
    rw [layers_of_reference h, layers_of_reference h', hl]

end Trail.SeenAlike

namespace Screen

variable {s s' : Screen}

theorem ownSpecifier_eq (hn : s.name = s'.name) (hk : s.kind = s'.kind) :
    s.ownSpecifier = s'.ownSpecifier := by
  rw [ownSpecifier, ownSpecifier, hn, hk]

/-- What screens are named after: what they hold themselves, and what is seen of their trails. -/
theorem sameNames (hn : s.name = s'.name) (hk : s.kind = s'.kind) (hp : s.path = s'.path)
    (hc : s.config = s'.config) (ht : s.parent.SeenAlike s'.parent) : s.SameNames s' := by
  have hinside : s.parent.SameNames s'.parent := ht.sameNames
  have hspecifier : s.importSpecifier = s'.importSpecifier := by
    rw [importSpecifier, importSpecifier, ht.tag, ht.reference, ownSpecifier_eq hn hk,
      hinside.importSpecifier]
  have hnames : s.routeNames = s'.routeNames := by
    rw [routeNames, routeNames, hinside.importPath, hn, ht.isReferenceGroup]
  exact {
    importSpecifier := hspecifier
    importPath := by rw [importPath, importPath, hp, hc, hinside.importPath, hn]
    routeLiteral := by rw [routeLiteral, routeLiteral, hinside.routeLiteral, hn]
    routeSymbol := congrArg ("route" ++ ·) hspecifier
    builderSymbol := congrArg ("to" ++ ·) hspecifier
    routeSegments := by rw [routeSegments, routeSegments, ht.layers, hnames] }

namespace SameNames

theorem routeConstant (h : s.SameNames s') : s.routeConstant = s'.routeConstant := by
  rw [Screen.routeConstant, Screen.routeConstant, h.routeSymbol, h.routeLiteral]

/-- With one params beside their names, screens have one builder. -/
theorem routeBuilder (h : s.SameNames s') (hp : s.params = s'.params) :
    s.routeBuilder = s'.routeBuilder := by
  have hobject : s.routeObject = s'.routeObject := by
    rw [routeObject, routeObject, h.routeSegments, h.routeLiteral, hp]
  rw [Screen.routeBuilder, Screen.routeBuilder, hp, h.builderSymbol, hobject]

theorem eagerImport? (h : s.SameNames s') (hl : s.isLazy = s'.isLazy) :
    s.eagerImport? = s'.eagerImport? := by
  rw [Screen.eagerImport?, Screen.eagerImport?, hl, h.importSpecifier, h.importPath]

end SameNames

end Screen

end NavTree
