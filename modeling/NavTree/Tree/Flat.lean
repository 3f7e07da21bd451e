import NavTree.Tree.Walk

/-! # Flattened trees

The three lists that generated code is made from: navigators with nested ones first, screens without
repetitions, and code fragments with repetitions.
-/
namespace NavTree

structure FlatTree where
  navigators : List Navigator
  screens : List Screen
  expressions : List Expression

namespace Node

mutual

/-- A navigator among the nodes lands behind everything nested in it and behind the navigators
placed so far; what is nested in it goes in front of them. -/
def place (placed : List Navigator) : Node → List Navigator
  | .navigator head children => placeList [] children ++ placed ++ [⟨head, children⟩]
  | .group _ => placed
  | .screen _ => placed

def placeList (placed : List Navigator) : List Node → List Navigator
  | [] => placed
  | n :: rest => placeList (place placed n) rest

end

end Node

/-- The navigators of the top level and all that are nested in them. -/
def Tree.placedNavigators (t : Tree) : List Navigator :=
  Node.placeList [] (t.navigators.map Navigator.node)

/-- What makes two screens one: their name and the name of their container. -/
def Screen.key (s : Screen) : String × String := (s.name, s.parent.link.name)

/-- The first element for each key, leaving out the keys seen before. -/
def firsts {α κ : Type} [BEq κ] (key : α → κ) (seen : List κ) : List α → List α
  | [] => []
  | a :: as =>
    if seen.contains (key a) then firsts key seen as else a :: firsts key (key a :: seen) as

def Tree.flatten (t : Tree) : FlatTree where
  navigators := t.placedNavigators
  screens := firsts Screen.key [] ((t.walk everything).filterMap Event.screen?)
  expressions := (t.walk everything).filterMap Event.expression?

end NavTree
