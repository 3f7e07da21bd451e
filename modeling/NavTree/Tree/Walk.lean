import NavTree.Tree.Basic

/-! # The walk through a tree

One traversal serves every reader: a node's props, then its params, then its children, all in
declaration order. A walk reports an event for everything it enters, and a reader may prune kinds
of events: those are reported, but nothing inside them is.
-/
namespace NavTree

inductive EventKind where
  | node | navigator | group | screen | record | value | expression
deriving DecidableEq, Repr

inductive Event where
  | node (n : Node)
  | navigator (n : Navigator)
  | group (g : Group)
  | screen (s : Screen)
  | record (r : Record)
  | value (v : Value)
  | expression (e : Expression)

namespace Event

def kind : Event → EventKind
  | node _ => .node
  | navigator _ => .navigator
  | group _ => .group
  | screen _ => .screen
  | record _ => .record
  | value _ => .value
  | expression _ => .expression

def screen? : Event → Option Screen
  | screen s => some s
  | _ => none

def expression? : Event → Option Expression
  | expression e => some e
  | _ => none

end Event

def enter (pruned : EventKind → Bool) (e : Event) (inside : List Event) : List Event :=
  e :: if pruned e.kind then [] else inside

variable (pruned : EventKind → Bool)

namespace Value

mutual

def walk (v : Value) : List Event :=
  enter pruned (.value v) <|
    match v with
    | .record entries => enter pruned (.record ⟨entries⟩) (walkEntries entries)
    | .list items => walkItems items
    | .expression e => [.expression e]
    | .string _ | .number _ | .boolean _ | .null | .code _ => []

def walkItems : List Value → List Event
  | [] => []
  | v :: rest => walk v ++ walkItems rest

def walkEntries : List (String × Value) → List Event
  | [] => []
  | (_, v) :: rest => walk v ++ walkEntries rest

end

end Value

def Record.walk (r : Record) : List Event :=
  enter pruned (.record r) (Value.walkEntries pruned r.entries)

def walkProps : Option Record → List Event
  | some r => r.walk pruned
  | none => []

def walkParams : Option Params → List Event
  | some (.record r) => r.walk pruned
  | some (.expression e) => [.expression e]
  | none => []

def Screen.walk (s : Screen) : List Event :=
  enter pruned (.screen s) (walkProps pruned s.props ++ walkParams pruned s.params)

def Group.walk (g : Group) : List Event :=
  enter pruned (.group g) (walkProps pruned g.props ++ g.children.flatMap (·.walk pruned))

namespace Node

mutual

def walk (n : Node) : List Event :=
  enter pruned (.node n) <|
    match n with
    | .navigator head children =>
      enter pruned (.navigator ⟨head, children⟩) (walkProps pruned head.props ++ walkList children)
    | .group g => g.walk pruned
    | .screen s => s.walk pruned

def walkList : List Node → List Event
  | [] => []
  | n :: rest => walk n ++ walkList rest

end

end Node

def Navigator.walk (n : Navigator) : List Event :=
  enter pruned (.navigator n) (walkProps pruned n.props ++ Node.walkList pruned n.children)

def Tree.walk (t : Tree) : List Event := t.navigators.flatMap (·.walk pruned)

/-- The walk through the groups declared at the top level. -/
def Tree.walkGroups (t : Tree) : List Event := t.groups.flatMap (·.walk pruned)

def everything : EventKind → Bool := fun _ => false

end NavTree
