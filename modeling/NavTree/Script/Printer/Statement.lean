import NavTree.Script.Printer.Term

/-! # Writing statements

A statement starts on a line of its own. A statement that belongs to another one stays on its line.
-/
namespace NavTree.Script

def Node.isBody : Node → Bool
  | node (.term .body) _ => true
  | _ => false

def Node.isBlank : Node → Bool
  | node (.statement .blank) _ => true
  | _ => false

def innerSource (ps : Parts) (i : Nat) (p : Place) : String :=
  if (ps.node i).isBlank then ";" else " " ++ ps.text i p

def choiceSource (ps : Parts) (p : Place) : String :=
  let gap := if (ps.node 1).isBody then " " else "\n" ++ tabs p.depth
  "if (" ++ ps.text 0 p ++ ")" ++ innerSource ps 1 p
    ++ (if ps.has 2 then gap ++ "else" ++ innerSource ps 2 p else "")

def doSource (ps : Parts) (p : Place) : String :=
  let repeated := if (ps.node 0).isBody then " " ++ ps.text 0 p ++ " "
    else "\n" ++ tabs (p.depth + 1) ++ ps.text 0 (p.deeper 0) ++ "\n" ++ tabs p.depth
  "do" ++ repeated ++ "while (" ++ ps.text 1 p ++ ");"

/-- A variable at the head of a loop, without the mark at its end. -/
def headSource (ps : Parts) (p : Place) : String :=
  let text := ps.text 0 p
  match ps.node 0 with
  | .node (.statement (.bindings _)) _ => String.ofList (text.toList.dropLast)
  | _ => text

def caseSource (ps : Parts) (p : Place) : String :=
  (if ps.has 0 then "case " ++ ps.text 0 p else "default") ++ ":"
    ++ match (ps.drop 1).texts with
      | [_] => innerSource ps 1 p
      | texts => String.join (texts.map fun text => "\n" ++ tabs (p.depth + 1) ++ text (p.deeper 0))

def namesSource (ps : Parts) (p : Place) : String :=
  if ps.isEmpty then "\x7b\x7d" else "\x7b " ++ ps.joined ", " p ++ " \x7d"

/-- What a name stands for, whether it is written as a word or as a string. -/
def Node.content? : Node → Option String
  | node (.term (.word s)) _ => some s
  | node (.term (.text s)) _ => some s
  | _ => none

def renamedSource (words : String) (ps : Parts) (p : Place) : String :=
  words ++ ps.text 0 p
    ++ (if (ps.node 0).content? = (ps.node 1).content? then "" else " as " ++ ps.text 1 p)

def importsSource (words source : String) (ps : Parts) (p : Place) : String :=
  let others := if ps.has 0 && ps.text 1 p = "\x7b\x7d" then "" else ps.text 1 p
  let comma := if ps.has 0 && others ≠ "" then ", " else ""
  "import " ++ words ++ ps.text 0 p ++ comma ++ others ++ " from " ++ stringText source ++ ";"

/-- The comments in front of a statement, and the statement on the same line or on the next one. -/
def notedSource (notes : List Note) (ps : Parts) (p : Place) : String :=
  let gap := if notes.getLast?.any (·.isEnded) then "\n" ++ tabs p.depth else " "
  notesText p.depth notes ++ if ps.has 0 then gap ++ ps.text 0 p else ""

def StatementForm.source (f : StatementForm) (ps : Parts) (p : Place) : String :=
  let q := p.inner 0
  let part := fun i => ps.text i q
  match f with
  | .blank => ";"
  | .noted notes => notedSource notes ps q
  | .plain => ps.text 0 { q with lead := .statement } ++ ";"
  | .bindings words => words ++ ps.joined ", " q ++ ";"
  | .declarator mark => part 0 ++ mark ++ part 1 ++ ps.behind 2 " = " (p.inner Level.comma)
  | .result => "return" ++ ps.behind 0 " " q ++ ";"
  | .throwing => "throw " ++ part 0 ++ ";"
  | .jump word label => word ++ (if label = "" then "" else " " ++ label) ++ ";"
  | .labeled label => label ++ ":" ++ innerSource ps 0 q
  | .choice => choiceSource ps q
  | .whileLoop => "while (" ++ part 0 ++ ")" ++ innerSource ps 1 q
  | .doLoop => doSource ps q
  | .countedLoop =>
    "for (" ++ headSource ps q ++ ";" ++ ps.behind 1 " " q ++ ";" ++ ps.behind 2 " " q ++ ")"
      ++ innerSource ps 3 q
  | .eachLoop words word =>
    words ++ " (" ++ headSource ps q ++ " " ++ word ++ " " ++ part 1 ++ ")" ++ innerSource ps 2 q
  | .guarded =>
    "try " ++ part 0
      ++ (if ps.has 2 then
          " catch" ++ (if ps.has 1 then " (" ++ part 1 ++ ")" else "") ++ " " ++ part 2
        else "")
      ++ ps.behind 3 " finally " q
  | .switch => "switch (" ++ part 0 ++ ") " ++ blockText p "" ((ps.drop 1).all (p.deeper 0))
  | .case => caseSource ps q
  | .typeAlias name => "type " ++ name ++ part 0 ++ " = " ++ part 1 ++ ";"
  | .interface name =>
    "interface " ++ name ++ part 0
      ++ (if (ps.node 1).parts.isEmpty then "" else " extends " ++ part 1) ++ " " ++ part 2
  | .imports words source => importsSource words source ps q
  | .importBare source => "import " ++ stringText source ++ ";"
  | .everything name => "* as " ++ name
  | .names => namesSource ps q
  | .renamed words => renamedSource words ps q
  | .exported words => "export " ++ words ++ part 0
  | .standardExport =>
    "export default " ++ ps.text 0 { p.inner Level.comma with lead := .standard } ++ ";"
  | .exportedNames words source =>
    "export " ++ words ++ namesSource ps q
      ++ (match source with | some s => " from " ++ stringText s | none => "") ++ ";"
  | .exportedAll words source => "export " ++ words ++ " from " ++ stringText source ++ ";"

end NavTree.Script
