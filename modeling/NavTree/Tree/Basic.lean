import NavTree.Tree.Value

/-! # Navigation trees

Navigators hold navigators, groups and screens; groups hold screens. Every node carries the
settings of its tree and the trail of the containers above it, so names can be read off a node
alone.
-/
namespace NavTree

/-- Settings of a tree. Templates map file name patterns to content patterns, in order. -/
structure Config where
  path : String
  lazy : Bool
  template : Option (List (String × String))
deriving DecidableEq, Repr

inductive LinkTag where
  | navigator | group
deriving DecidableEq, Repr

/-- What naming needs of a container. A group is a reference when it is declared at the top level,
the link of a stand-in when its navigator is external. Only navigators can be roots. -/
structure Link where
  tag : LinkTag
  name : String
  reference : Bool
  root : Bool
deriving DecidableEq, Repr

/-- The containers around a node: the innermost one, and those around it from the inside out. -/
structure Trail where
  link : Link
  outer : List Link
deriving DecidableEq, Repr

namespace Trail

/-- The links of a trail that may be missing, from the inside out. -/
def links : Option Trail → List Link
  | none => []
  | some t => t.link :: t.outer

/-- The trail inside a container that itself lies inside `parent`. -/
def push (parent : Option Trail) (link : Link) : Trail := ⟨link, links parent⟩

/-- The links from the outermost container down. -/
def chain (t : Trail) : List Link := (t.link :: t.outer).reverse

end Trail

inductive NavigatorKind where
  | nativeStack | bottomTab | stack
  | custom (factory : Import)
deriving DecidableEq, Repr

def NavigatorKind.factory : NavigatorKind → Import
  | nativeStack => ⟨"createNativeStackNavigator", "@react-navigation/native-stack"⟩
  | bottomTab => ⟨"createBottomTabNavigator", "@react-navigation/bottom-tabs"⟩
  | stack => ⟨"createStackNavigator", "@react-navigation/stack"⟩
  | custom factory => factory

/-- A screen proper, or a nested navigator standing in as a screen. -/
inductive ScreenKind where
  | screen | navigator
deriving DecidableEq, Repr

structure Screen where
  name : String
  lazy : Option Bool
  kind : ScreenKind
  path : Option String
  props : Option Record
  params : Option Params
  parent : Trail
  config : Config

structure Group where
  name : String
  path : Option String
  props : Option Record
  children : List Screen
  reference : Bool
  parent : Option Trail
  config : Config

structure NavigatorHead where
  name : String
  exported : Bool
  root : Bool
  path : Option String
  kind : NavigatorKind
  props : Option Record
  parent : Option Trail
  config : Config

inductive Node where
  | navigator (head : NavigatorHead) (children : List Node)
  | group (g : Group)
  | screen (s : Screen)

structure Navigator extends NavigatorHead where
  children : List Node

/-- A navigation tree: the groups declared at the top level, and the navigators. -/
structure Tree where
  config : Config
  groups : List Group
  navigators : List Navigator

def Node.name : Node → String
  | navigator head _ => head.name
  | group g => g.name
  | screen s => s.name

def Node.navigator? : Node → Option Navigator
  | navigator head children => some ⟨head, children⟩
  | _ => none

namespace Navigator

def node (n : Navigator) : Node := .navigator n.toNavigatorHead n.children

def nested (n : Navigator) : List Navigator := n.children.filterMap Node.navigator?

/-- The path an external navigator is imported from: one without children and with a path. -/
def externalPath? (n : Navigator) : Option String :=
  if n.children.isEmpty then n.path.filter (· ≠ "") else none

def isExternal (n : Navigator) : Bool := n.externalPath?.isSome

end Navigator

namespace NavigatorHead

def link (n : NavigatorHead) : Link := ⟨.navigator, n.name, false, n.root⟩

def trail (n : NavigatorHead) : Trail := .push n.parent n.link

end NavigatorHead

namespace Group

def link (g : Group) : Link := ⟨.group, g.name, g.reference, false⟩

def trail (g : Group) : Trail := .push g.parent g.link

end Group

def Screen.isLazy (s : Screen) : Bool := s.lazy.getD s.config.lazy

end NavTree
