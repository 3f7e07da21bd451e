import NavTree.Script.Printer.Place

/-! # Writing types

Types with members take a line per member. Parentheses around types are kept.
-/
namespace NavTree.Script

/-- Parameters of types. A single one takes a comma where it could be taken for a tag. -/
def genericsSource (ps : Parts) (p : Place) : String :=
  if ps.isEmpty then ""
  else if ps.texts.length = 1 then
    "<" ++ ps.joined "" (p.inner 0) ++ (if p.dialect = .tsx then "," else "") ++ ">"
  else lines p "<" ",\n" "\n" ">" (ps.all (p.deeper 0))

def TypeForm.source (f : TypeForm) (ps : Parts) (p : Place) : String :=
  let q := p.inner 0
  let part := fun i => ps.text i q
  let behind := fun i before => ps.behind i before q
  match f with
  | .named path => ".".intercalate path ++ part 0
  | .query path => "typeof " ++ ".".intercalate path ++ part 0
  | .imported isQuery source path =>
    (if isQuery then "typeof " else "") ++ "import(" ++ stringText source ++ ")"
      ++ String.join (path.map ("." ++ ·)) ++ part 0
  | .negative x => "-" ++ x.compact
  | .template texts => templateSource texts (ps.all q)
  | .object => blockText p ";" (ps.all (p.deeper 0))
  | .mapped before name mark =>
    "\x7b " ++ before ++ "[" ++ name ++ " in " ++ part 0 ++ behind 1 " as " ++ "]" ++ mark
      ++ part 2 ++ " \x7d"
  | .array => part 0 ++ "[]"
  | .access => part 0 ++ "[" ++ part 1 ++ "]"
  | .tuple => "[" ++ ps.joined ", " q ++ "]"
  | .item words => words ++ part 0
  | .union => ps.joined " | " q
  | .intersection => ps.joined " & " q
  | .group => "(" ++ part 0 ++ ")"
  | .function words => words ++ part 0 ++ part 1 ++ " => " ++ part 2
  | .conditional => part 0 ++ " extends " ++ part 1 ++ " ? " ++ part 2 ++ " : " ++ part 3
  | .inferred name => "infer " ++ name ++ behind 0 " extends "
  | .worded word => word ++ " " ++ part 0
  | .marked leading mark => if leading then mark ++ part 0 else part 0 ++ mark
  | .predicate words => words ++ behind 0 " is "
  | .arguments => if ps.isEmpty then "" else "<" ++ ps.joined ", " q ++ ">"
  | .bases => ps.joined ", " q
  | .generics => genericsSource ps p
  | .generic words => words ++ behind 0 " extends " ++ behind 1 " = "
  | .declared => ": " ++ part 0
  | .property words optional => words ++ part 0 ++ (if optional then "?" else "") ++ part 1
  | .method words optional =>
    words ++ part 0 ++ (if optional then "?" else "") ++ part 1 ++ part 2 ++ part 3
  | .signature words => words ++ part 0 ++ part 1 ++ part 2
  | .index words name => words ++ "[" ++ name ++ ": " ++ part 0 ++ "]: " ++ part 1

end NavTree.Script
