import NavTree.Tree.Basic

/-! # Derived names

Names accumulate along the trail of containers. Root navigators contribute to no name but the graph
name, and a reference group starts afresh: nothing around it shows in the names of its screens.
-/
namespace NavTree

def concat : List String → String
  | [] => ""
  | s :: ss => s ++ concat ss

namespace Link

def isNamedNavigator (l : Link) : Bool := l.tag == .navigator && !l.root

def isInlineGroup (l : Link) : Bool := l.tag == .group && !l.reference

end Link

namespace Trail

/-- Names of the navigators on the way, roots left out. -/
def navigatorName (t : Trail) : String :=
  concat ((t.chain.filter Link.isNamedNavigator).map (·.name))

/-- The links whose names make up import and route names, outermost first: navigators inside a
navigator, navigators and groups inside an inline group, the group alone inside a reference group.
-/
def layers (t : Trail) : List Link :=
  match t.link.tag, t.link.reference with
  | .navigator, _ => t.chain.filter Link.isNamedNavigator
  | .group, true => [t.link]
  | .group, false => t.chain.filter fun l => l.isNamedNavigator || l.tag == .group

def importPath (t : Trail) : List String := t.layers.map (·.name)

def importSpecifier (t : Trail) : String := concat t.importPath

def routeLiteral (t : Trail) : String := t.importSpecifier

/-- Every name on the way, roots included. -/
def graphName (t : Trail) : String := concat (t.chain.map (·.name))

def isReferenceGroup (t : Trail) : Bool := t.link.tag == .group && t.link.reference

end Trail

namespace NavigatorHead

/-- A navigator names its own stack, root or not. -/
def navigatorName (n : NavigatorHead) : String :=
  match n.parent with
  | some parent => parent.navigatorName ++ n.name
  | none => n.name

def stackSymbol (n : NavigatorHead) : String := n.navigatorName ++ "Stack"

def componentSymbol (n : NavigatorHead) : String := n.navigatorName ++ "Navigator"

/-- The symbol an external navigator is imported under. -/
def externalSymbol (n : NavigatorHead) : String := n.name ++ "Navigator"

def graphName (n : NavigatorHead) : String := n.trail.graphName

end NavigatorHead

namespace Navigator

def externalImport? (n : Navigator) : Option Import :=
  n.externalPath?.map fun path => ⟨n.externalSymbol, path⟩

def childScreen (n child : Navigator) : Screen where
  name := child.name
  lazy := some false
  kind := .navigator
  path := none
  props := none
  params := none
  parent := { n.trail with link := { n.link with reference := child.isExternal } }
  config := n.config

end Navigator

namespace Group

def navigatorName (g : Group) : String :=
  match g.parent with
  | some parent =>
    if parent.navigatorName = "" ∧ parent.link.tag = .navigator then parent.link.name
    else parent.navigatorName
  | none => g.name

def stackSymbol (g : Group) : String := g.navigatorName ++ "Stack"

def graphName (g : Group) : String := g.trail.graphName

end Group

/-- The texts accumulated so far, at each step of a list. -/
def running (soFar : String) : List String → List String
  | [] => []
  | s :: ss => (soFar ++ s) :: running (soFar ++ s) ss

/-- Drops the texts in the places of inline groups; texts beyond the links stay. -/
def dropInline : List Link → List String → List String
  | [], texts => texts
  | _, [] => []
  | l :: ls, t :: ts => if l.isInlineGroup then dropInline ls ts else t :: dropInline ls ts

namespace Screen

/-- The stack of the enclosing navigator. Without a named navigator on the way it is the stack of
the container that is or holds the navigator. -/
def stackSymbol (s : Screen) : String :=
  let name := s.parent.navigatorName
  let base :=
    if name ≠ "" then name
    else match s.parent.link.tag with
      | .navigator => s.parent.link.name
      | .group => (s.parent.outer.head?.map (·.name)).getD ""
  base ++ "Stack"

def ownSpecifier (s : Screen) : String :=
  match s.kind with
  | .screen => s.name
  | .navigator => s.name ++ "Navigator"

def importSpecifier (s : Screen) : String :=
  if s.parent.link.tag = .navigator ∧ s.parent.link.reference then s.ownSpecifier
  else s.parent.importSpecifier ++ s.ownSpecifier

/-- An explicit path replaces the derived one, which joins the names on the way below the tree's
path. -/
def importPath (s : Screen) : String :=
  match s.path with
  | some path => path
  | none =>
    "/".intercalate ((s.config.path :: (s.parent.importPath ++ [s.name])).filter (· ≠ ""))

/-- Eager screens are imported by name, lazy ones are required where they are used. -/
def eagerImport? (s : Screen) : Option Import :=
  if s.isLazy then none else some ⟨s.importSpecifier, s.importPath⟩

def routeLiteral (s : Screen) : String := s.parent.routeLiteral ++ s.name

def routeSymbol (s : Screen) : String := "route" ++ s.importSpecifier

def builderSymbol (s : Screen) : String := "to" ++ s.importSpecifier

def graphName (s : Screen) : String := s.parent.graphName ++ s.name

/-- The names that a route builder nests, before they accumulate. -/
def routeNames (s : Screen) : List String :=
  let names := s.parent.importPath ++ [s.name]
  if s.parent.isReferenceGroup then [concat names] else names

/-- The screen names of a route builder, outermost first. Inline groups add no layer. -/
def routeSegments (s : Screen) : List String :=
  dropInline s.parent.layers (running "" (s.routeNames.filter (· ≠ "")))

end Screen

end NavTree
