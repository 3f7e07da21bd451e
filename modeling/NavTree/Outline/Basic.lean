import NavTree.Outline.Fault
import NavTree.Tree.Basic

/-! # Outlines

The outline of a navigation tree is its input read field by field: nodes may still stand in places
where their tag is not allowed, and props and params are plain objects. A node is an object with a
tag, or an array that starts with the tag and lists the fields by position.
-/
namespace NavTree

abbrev JsonObject := List (String × Json)

structure ScreenOutline where
  name : String
  lazy : Option Bool
  kind : Option ScreenKind
  path : Option String
  props : Option JsonObject
  params : Option JsonObject

structure GroupOutline where
  name : String
  path : Option String
  props : Option JsonObject

structure NavigatorOutline where
  name : String
  exported : Option Bool
  root : Option Bool
  path : Option String
  kind : Option NavigatorKind
  props : Option JsonObject

inductive NodeOutline where
  | navigator (head : NavigatorOutline) (children : List NodeOutline)
  | group (head : GroupOutline) (children : List NodeOutline)
  | screen (s : ScreenOutline)

def NodeOutline.tag : NodeOutline → NodeTag
  | navigator _ _ => .navigator
  | group _ _ => .group
  | screen _ => .screen

structure Outline where
  config : Config
  groups : List NodeOutline
  navigators : List NodeOutline

end NavTree
