import NavTree.Code.Declaration
import NavTree.Code.Splice
import NavTree.Tree.Flat
import NavTree.Tree.Naming

/-! # The component file

One stack and one component per generated navigator. A component is a markup element that holds the
screens, groups and nested navigators of its navigator; external navigators are only imported.
-/
namespace NavTree

/-- A markup element: an empty one, or one with a line per child. -/
inductive Element where
  | void (tag : String) (attributes : List Attribute)
  | container (tag : String) (attributes : List Attribute) (children : List Element)

namespace Element

def tag : Element → String
  | void tag _ => tag
  | container tag _ _ => tag

def attributes : Element → List Attribute
  | void _ as => as
  | container _ as _ => as

def opening (tag : String) (attributes : List Attribute) : String :=
  "<" ++ tag ++ String.join (attributes.map fun a => " " ++ a.text)

mutual

def text : Element → String
  | void tag as => opening tag as ++ " />"
  | container tag as children =>
    opening tag as ++ ">\n" ++ "\n".intercalate (texts children) ++ "\n</" ++ tag ++ ">"

def texts : List Element → List String
  | [] => []
  | e :: es => text e :: texts es

end

end Element

def propAttributes (props : Option Record) : List Attribute :=
  match props with
  | some r => r.attributes.code
  | none => []

namespace Screen

def loader (s : Screen) : String :=
  "() => require(" ++ moduleLiteral s.importPath ++ ")." ++ s.importSpecifier

/-- The user's props with the name and the one loader attribute set. A null value renders nothing,
which removes a prop of the user's under the other loader key. -/
def elementProps (s : Screen) : Record :=
  let named := (s.props.getD .empty).insert "name" (.code ("route." ++ s.routeSymbol))
  if s.isLazy then (named.insert "getComponent" (.code s.loader)).insert "component" .null
  else (named.insert "getComponent" .null).insert "component" (.code s.importSpecifier)

def element (s : Screen) : Element :=
  .void (s.stackSymbol ++ ".Screen") s.elementProps.attributes.code

end Screen

def Group.element (g : Group) : Element :=
  .container (g.stackSymbol ++ ".Group") (propAttributes g.props) (g.children.map Screen.element)

namespace Navigator

def childElement (n : Navigator) : Node → Element
  | .screen s => s.element
  | .group g => g.element
  | .navigator head children => (n.childScreen ⟨head, children⟩).element

def element (n : Navigator) : Element :=
  .container (n.stackSymbol ++ ".Navigator") (propAttributes n.props)
    (n.children.map n.childElement)

def stackDeclaration (n : Navigator) : Declaration :=
  .constant false n.stackSymbol (n.kind.factory.symbol ++ "()")

def componentDeclaration (n : Navigator) : Declaration :=
  .constant n.exported n.componentSymbol
    ("() => \x7b\n  return (\n" ++ n.element.text ++ "\n  );\n\x7d")

end Navigator

namespace FlatTree

def generated (f : FlatTree) : List Navigator := f.navigators.filter (!·.isExternal)

/-- Stack factories, external navigators, eager screens, and what code fragments use, in this
order. -/
def componentImports (f : FlatTree) : Imports :=
  .ofList (f.navigators.map (·.kind.factory) ++ f.navigators.filterMap Navigator.externalImport?
    ++ f.screens.filterMap Screen.eagerImport? ++ f.expressions.filterMap Expression.use)

/-- Stacks come before all components, for components render stacks of other navigators. -/
def componentDeclarations (f : FlatTree) : List Declaration :=
  [.namespaceImport "React" "react", .namespaceImport "route" "./routes.gen"]
    ++ f.componentImports.declarations
    ++ f.generated.reverse.map Navigator.stackDeclaration
    ++ f.generated.map Navigator.componentDeclaration

def component (f : FlatTree) : Artifact :=
  ⟨"navigation.gen.tsx", .source .tsx false f.componentDeclarations⟩

end FlatTree

end NavTree
