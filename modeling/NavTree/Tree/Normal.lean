import NavTree.Outline.Decode
import NavTree.Outline.Value

/-! # From outlines to trees

Checks the tags of nodes against their places, marks references to declared groups, and gives
every node the settings of the tree and the trail of its containers. Faults arise in this order:
tags of the declared groups; the navigators depth first, children before the props of their
container; the bodies of the declared groups.
-/
namespace NavTree

/-- What the nodes of one tree share: its settings, and the names of the declared groups. -/
structure Surroundings where
  config : Config
  declared : List String

def within {α : Type} (place : Place) (field : Section) : Decoded α → Decoded α :=
  Except.mapError (.located place field)

def readProps (place : Place) (props : Option JsonObject) : Decoded (Option Record) :=
  within place .props (props.mapM Record.ofObject)

def NavigatorOutline.link (o : NavigatorOutline) : Link :=
  ⟨.navigator, o.name, false, o.root.getD false⟩

namespace Surroundings

variable (env : Surroundings)

def screen (parent : Trail) (place : Place) (o : ScreenOutline) : Decoded Screen := do
  let props ← readProps place o.props
  let params ← within place .params (o.params.mapM Params.ofObject)
  return {
    name := o.name, lazy := o.lazy, kind := o.kind.getD .screen, path := o.path
    props := props, params := params, parent := parent, config := env.config }

/-- The screens of a group, the first of them standing at index `i`. -/
def screens (parent : Trail) (place : Place) : Nat → List NodeOutline → Decoded (List Screen)
  | _, [] => return []
  | i, .screen o :: rest => do
    let s ← env.screen parent (place.child i) o
    return s :: (← screens parent place (i + 1) rest)
  | i, o :: _ => throw (.wrongTag (place.child i) .screen o.tag)

def group (parent : Option Trail) (reference : Bool) (place : Place) (head : GroupOutline)
    (children : List NodeOutline) : Decoded Group := do
  let trail : Trail := .push parent ⟨.group, head.name, reference, false⟩
  let screens ← env.screens trail place 0 children
  let props ← readProps place head.props
  return {
    name := head.name, path := head.path, props := props, children := screens
    reference := reference, parent := parent, config := env.config }

def head (parent : Option Trail) (place : Place) (o : NavigatorOutline) :
    Decoded NavigatorHead := do
  let props ← readProps place o.props
  return {
    name := o.name, exported := o.exported.getD false, root := o.root.getD false, path := o.path
    kind := o.kind.getD .nativeStack, props := props, parent := parent, config := env.config }

mutual

def node (parent : Trail) (place : Place) : NodeOutline → Decoded Node
  | .navigator o children => do
    let inside ← nodes (.push (some parent) o.link) place 0 children
    return .navigator (← env.head (some parent) place o) inside
  | .group o children => do
    return .group (← env.group (some parent) (env.declared.contains o.name) place o children)
  | .screen o => do return .screen (← env.screen parent place o)

/-- The children of a navigator, the first of them standing at index `i`. -/
def nodes (parent : Trail) (place : Place) : Nat → List NodeOutline → Decoded (List Node)
  | _, [] => return []
  | i, o :: rest => do
    let n ← node parent (place.child i) o
    return n :: (← nodes parent place (i + 1) rest)

end

/-- The navigators of the top level, the first of them standing at index `i`. -/
def navigators : Nat → List NodeOutline → Decoded (List Navigator)
  | _, [] => return []
  | i, .navigator o children :: rest => do
    let place : Place := ⟨false, i, []⟩
    let inside ← env.nodes (.push none o.link) place 0 children
    let head ← env.head none place o
    return ⟨head, inside⟩ :: (← navigators (i + 1) rest)
  | i, o :: _ => throw (.wrongTag ⟨false, i, []⟩ .navigator o.tag)

/-- The bodies of the declared groups, the first of them standing at index `i`. -/
def groups : Nat → List (GroupOutline × List NodeOutline) → Decoded (List Group)
  | _, [] => return []
  | i, (o, children) :: rest => do
    let g ← env.group none true ⟨true, i, []⟩ o children
    return g :: (← groups (i + 1) rest)

end Surroundings

/-- The declared groups, the first of them standing at index `i`. -/
def declarations : Nat → List NodeOutline → Decoded (List (GroupOutline × List NodeOutline))
  | _, [] => return []
  | i, .group o children :: rest => do return (o, children) :: (← declarations (i + 1) rest)
  | i, o :: _ => throw (.wrongTag ⟨true, i, []⟩ .group o.tag)

namespace Tree

def ofOutline (o : Outline) : Decoded Tree := do
  let declared ← declarations 0 o.groups
  let env : Surroundings := ⟨o.config, declared.map (·.1.name)⟩
  let navigators ← env.navigators 0 o.navigators
  let groups ← env.groups 0 declared
  return ⟨o.config, groups, navigators⟩

def ofJson (j : Json) : Decoded Tree := do ofOutline (← Outline.ofJson j)

end Tree

end NavTree
