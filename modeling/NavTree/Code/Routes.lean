import NavTree.Code.Declaration
import NavTree.Code.Splice
import NavTree.Tree.Flat
import NavTree.Tree.Naming

/-! # The routes file

A constant with the route name of every nested navigator and screen, and for every screen a
builder of the nested object that a navigation call expects.
-/
namespace NavTree

/-- What a route object leads to: nothing, the parameters of the builder, or an inner route. -/
inductive RouteObject where
  | leaf (screen : String)
  | argument (screen : String)
  | nest (screen : String) (inner : RouteObject)
deriving DecidableEq, Repr

namespace RouteObject

def text : RouteObject → String
  | leaf screen => "\x7b screen: " ++ moduleLiteral screen ++ " \x7d"
  | argument screen => "\x7b screen: " ++ moduleLiteral screen ++ ", params \x7d"
  | nest screen inner =>
    "\x7b screen: " ++ moduleLiteral screen ++ ", params: " ++ inner.text ++ " \x7d"

/-- One layer per name, outermost first, ending in `last`. -/
def ofLayers (withParams : Bool) : List String → String → RouteObject
  | [], last => if withParams then argument last else leaf last
  | outer :: rest, last => nest outer (ofLayers withParams rest last)

end RouteObject

namespace Screen

def routeConstant (s : Screen) : Declaration :=
  .constant true s.routeSymbol (moduleLiteral s.routeLiteral)

/-- The object of the builder. Without any segment it leads to the route name itself. -/
def routeObject (s : Screen) : RouteObject :=
  let segments := s.routeSegments
  match segments.getLast? with
  | some last => .ofLayers s.params.isSome segments.dropLast last
  | none => .ofLayers s.params.isSome [] s.routeLiteral

def routeBuilder (s : Screen) : Spliced Declaration :=
  match s.params with
  | some params =>
    let type := params.typeCode
    ⟨.constant true s.builderSymbol
      ("(params: " ++ type.code ++ ") => \x7b\n  return " ++ s.routeObject.text
        ++ " as const;\n\x7d"),
      type.uses⟩
  | none => ⟨.constant true s.builderSymbol (s.routeObject.text ++ " as const"), []⟩

end Screen

/-- The stand-in screens of the navigators directly inside. -/
def Navigator.childScreens (n : Navigator) : List Screen := n.nested.map n.childScreen

/-- Names declared more than once, in the order of their second declarations. -/
def repeated (seen reported : List String) : List String → List String
  | [] => []
  | name :: rest =>
    if seen.contains name then
      if reported.contains name then repeated seen reported rest
      else name :: repeated seen (name :: reported) rest
    else repeated (name :: seen) reported rest

/-- Constants that the declarations declare more than once, each once. -/
def collidingConstants (ds : List Declaration) : List String :=
  repeated [] [] (ds.filterMap Declaration.constantName?)

namespace FlatTree

/-- Constants of the nested navigators, constants of the screens, builders of the screens. -/
def routeConstants (f : FlatTree) : List Declaration :=
  (f.navigators.flatMap Navigator.childScreens).map Screen.routeConstant
    ++ f.screens.map Screen.routeConstant ++ f.screens.map (·.routeBuilder.code)

def routeImports (f : FlatTree) : Imports := .ofList (f.screens.flatMap (·.routeBuilder.uses))

def routes (f : FlatTree) : Artifact :=
  ⟨"routes.gen.ts", .source .ts true (f.routeImports.declarations ++ f.routeConstants)⟩

/-- One warning per constant declared more than once. -/
def routeWarnings (f : FlatTree) : List String :=
  (collidingConstants f.routeConstants).map fun name =>
    "routes.gen.ts: `" ++ name ++ "` is declared more than once"

end FlatTree

end NavTree
