import NavTree.Code.Declaration
import NavTree.Tree.Naming

/-! # The graph file

A box per navigator, group and screen, each with an edge from the box of its container. Containers
are drawn before the screens, the last one first.
-/
namespace NavTree

inductive BoxKind where
  | navigator | group | screen
deriving DecidableEq, Repr

namespace BoxKind

def label : BoxKind → String
  | navigator => "Navigator"
  | group => "Group"
  | screen => "Screen"

def color : BoxKind → String
  | navigator => "#FDE33A"
  | group => "#F6ACD8"
  | screen => "#C3EFE0"

def weight : BoxKind → String
  | navigator => "10"
  | group => "2"
  | screen => "0.1"

def style (k : BoxKind) : String :=
  "shape=\"box\", fillcolor=\"" ++ k.color ++ "\", style=\"filled\", fontname=\"monospace\", "
    ++ "fontsize=\"16\", margin=\"0.3,0.2\", penwidth=\"1.5\""

end BoxKind

/-- What is drawn of a node. Only screens have a path. -/
structure Box where
  kind : BoxKind
  name : String
  parent : Option Trail
  path : Option String
  props : Option Record

def lineBreak : String := "<br align=\"left\" />"

def indent : Nat → String
  | 0 => ""
  | depth + 1 => "&nbsp;&nbsp;" ++ indent depth

namespace Value

mutual

/-- A label entry under its name; values without a text have none. -/
def labelLine? (depth : Nat) (name : String) : Value → Option String
  | .expression _ => some (indent depth ++ name ++ ": <i>Expression</i>")
  | .record entries =>
    some (indent depth ++ name ++ ":" ++ lineBreak
      ++ lineBreak.intercalate (labelLines (depth + 1) entries))
  | .string s => some (indent depth ++ name ++ ": " ++ s)
  | .number n => some (indent depth ++ name ++ ": " ++ n.text)
  | .boolean b => some (indent depth ++ name ++ ": " ++ if b then "true" else "false")
  | .code _ => none
  | .null => none
  | .list _ => none

def labelLines (depth : Nat) : List (String × Value) → List String
  | [] => []
  | (name, v) :: rest => (labelLine? depth name v).toList ++ labelLines depth rest

end

end Value

namespace Box

/-- The entries of a label: the name, the path and the props. -/
def entries (b : Box) : List (String × Value) :=
  [(b.kind.label, .string ("<b>" ++ b.name ++ "</b>"))]
    ++ (b.path.map fun p => ("Path", Value.string p)).toList
    ++ (b.props.map fun r => ("Props", Value.record r.entries)).toList

def label (b : Box) : String := lineBreak.intercalate (Value.labelLines 0 b.entries)

def id (b : Box) : String :=
  match b.parent with
  | some parent => parent.graphName ++ b.name
  | none => b.name

def edgeFrom? (b : Box) : Option String := b.parent.map Trail.graphName

/-- The statements of a box: its node, then the edge from its container or, at the top, its
weight. -/
def text (b : Box) : String :=
  let node := b.id ++ " [label=<" ++ b.label ++ "> " ++ b.kind.style
  match b.edgeFrom? with
  | some source =>
    node ++ ", weight=" ++ b.kind.weight ++ "];\n"
      ++ source ++ " -> " ++ b.id ++ " [dir=\"forward\"]"
  | none => node ++ "];\n" ++ b.id ++ " [weight=" ++ b.kind.weight ++ "]"

end Box

def Screen.box (s : Screen) : Box := ⟨.screen, s.name, some s.parent, some s.importPath, s.props⟩

def Group.box (g : Group) : Box := ⟨.group, g.name, g.parent, none, g.props⟩

def NavigatorHead.box (n : NavigatorHead) : Box := ⟨.navigator, n.name, n.parent, none, n.props⟩

namespace Node

mutual

/-- Adds the boxes of a node: those of containers in front, those of screens at the end. -/
def draw (drawn : List Box) : Node → List Box
  | .navigator head children => drawList (head.box :: drawn) children
  | .group g => (g.box :: drawn) ++ g.children.map Screen.box
  | .screen s => drawn ++ [s.box]

def drawList (drawn : List Box) : List Node → List Box
  | [] => drawn
  | n :: rest => drawList (draw drawn n) rest

end

end Node

def boxes (ns : List Navigator) : List Box := Node.drawList [] (ns.map Navigator.node)

/-- The start of the drawing, which lays the boxes out in circles. -/
def graphHead : String :=
  "digraph G \x7b\n  layout=circo;\n  graph [\n    nodesep=2.0,\n    ranksep=2.0,\n"
    ++ "    splines=\"curved\",\n    overlap=false,\n    pad=1.5,\n    sep=\"+2.0,2.0\",\n"
    ++ "    defaultdist=0.1,\n    mindist=0.1\n  ];\n  "

def graphText (ns : List Navigator) : String :=
  graphHead ++ "\n  ".intercalate ((boxes ns).map Box.text) ++ "\n\x7d"

def graph (ns : List Navigator) : Artifact := ⟨"navigation.gen.dot", .text (graphText ns)⟩

end NavTree
