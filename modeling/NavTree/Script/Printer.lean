import NavTree.Script.Printer.Statement

/-! # Writing scripts

One statement per line, tabs for indentation. Every node is written from its form and the texts of
its parts, each of which may be asked for at any place.
-/
namespace NavTree.Script

def Form.source (f : Form) (ps : Parts) (p : Place) : String :=
  match f with
  | .term f => f.source ps p
  | .markup f => f.source ps p
  | .type f => f.source ps p
  | .statement f => f.source ps p

mutual

def Node.source : Node → Place → String
  | .node form parts => form.source ⟨parts, Node.sources parts⟩

def Node.sources : List Node → List (Place → String)
  | [] => []
  | n :: ns => n.source :: Node.sources ns

end

def text (dialect : Dialect) (script : List Node) : String :=
  let items := script.map fun n => n.source { dialect := dialect }
  let ending := if items.isEmpty || script.getLast?.any Node.isOpenNote then "" else "\n"
  "\n".intercalate items ++ ending

end NavTree.Script
