import NavTree.Script.Printer.Type

/-! # Writing terms and markup

Parentheses are written where they are needed, and around functions that stood in parentheses.
Object literals with more than one member and arrays with more than two items take a line for each;
everything else stays on the line where it starts.
-/
namespace NavTree.Script

/-- Whether a key and the value behind it can be written as a single name. -/
def isShorthand (key value : Node) : Bool :=
  match key.name?, value.name? with
  | some k, some v => k == v && k != "__proto__" && !constantWords.contains v
  | _, _ => false

/-- The name that a pattern starts with, in front of a standard value. -/
def Node.withoutStandard : Node → Node
  | node (.term .standard) (n :: _) => n
  | n => n

/-- Whether a term is a number that a point behind it would belong to. -/
def Node.takesPoint : Node → Bool
  | node (.term (.number x)) _ => x.compact.toList.all Char.isDigit
  | _ => false

/-- Whether two operators in a row need a space between them. -/
def sticks (operator rest : String) : Bool :=
  (operator == "+" || operator == "-") && rest.startsWith operator

def Operator.leftLeast (op : Operator) (left : Node) : Nat :=
  if op.isCoalesce && left.bare.isLogic then Level.unary
  else if op.isPower then (if left.bare.isUnary then Level.call else op.level)
  else op.level - 1

def Operator.rightLeast (op : Operator) (right : Node) : Nat :=
  if op.isCoalesce && right.bare.isLogic then Level.unary
  else if op.isPower then op.level - 1
  else op.level

def binarySource (op : Operator) (ps : Parts) (p : Place) : String :=
  enclosedIf (op.level ≤ p.least) p fun p =>
    ps.text 0 (p.first (op.leftLeast (ps.node 0))) ++ " " ++ op.symbol ++ " "
      ++ ps.text 1 (p.inner (op.rightLeast (ps.node 1)))

/-- Parentheses vanish, except around functions and around chains that end there. -/
def groupSource (ps : Parts) (p : Place) : String :=
  if (ps.node 0).isChain then enclosedIf (Level.suffix ≤ p.least) p (ps.text 0)
  else ps.text 0 { p with grouped := true }

def unarySource (operator : String) (ps : Parts) (p : Place) : String :=
  enclosedIf (Level.unary ≤ p.least) p fun p =>
    let operand := ps.text 0 (p.inner Level.power)
    let isWord := operator.toList.all Char.isAlpha
    operator ++ (if isWord || sticks operator operand then " " else "") ++ operand

def Node.isGroupedFunction : Node → Bool
  | node (.term .group) [n] =>
    match n.bare with
    | .node (.term (.function _ _)) _ => true
    | _ => false
  | _ => false

/-- A term and a type. One that is only checked stands in parentheses, and so does the whole. -/
def castSource (w : String) (ps : Parts) (p : Place) : String :=
  let type := " " ++ w ++ " " ++ ps.text 1 (p.inner 0)
  if w = "satisfies" then
    let n := ps.text 0 (p.inner p.least)
    "(" ++ (if (ps.node 0).isGroupedFunction then n else "(" ++ n ++ ")") ++ type ++ ")"
  else enclosedIf (Level.shift ≤ p.least) p fun p => ps.text 0 (p.first Level.power) ++ type

/-- A term that is never missing. Parentheses around it are kept. -/
def certainSource (ps : Parts) (p : Place) : String :=
  match ps.node 0 with
  | .node (.term .group) _ => "(" ++ ps.text 0 (p.inner p.least) ++ ")!"
  | _ => ps.text 0 { p.first p.least with forbidsCall := p.forbidsCall } ++ "!"

def updateSource (operator : String) (leading : Bool) (ps : Parts) (p : Place) : String :=
  if leading then
    enclosedIf (Level.unary ≤ p.least) p fun p => operator ++ ps.text 0 (p.inner Level.unary)
  else enclosedIf (Level.suffix ≤ p.least) p fun p => ps.text 0 (p.first Level.suffix) ++ operator

def arraySource (ps : Parts) (p : Place) : String :=
  let trailing := if ps.nodes.getLast?.any Node.isAbsent then "," else ""
  if ps.texts.length ≤ 2 then
    "[" ++ ps.joined ", " (p.inner Level.comma) ++ trailing ++ "]"
  else lines p "[" ",\n" (trailing ++ "\n") "]" (ps.all (p.deeper Level.comma))

def objectSource (ps : Parts) (p : Place) : String :=
  enclosedIf (p.lead = .statement || p.lead = .arrow) p fun p =>
    match ps.texts with
    | [] => "\x7b\x7d"
    | [text] => "\x7b " ++ text (p.inner Level.comma) ++ " \x7d"
    | _ => lines p "\x7b" ",\n" "\n" "\x7d" (ps.all (p.deeper Level.comma))

def pairSource (ps : Parts) (p : Place) : String :=
  let value := ps.text 1 (p.inner Level.comma)
  if isShorthand (ps.node 0) (ps.node 1).bare.withoutStandard then value
  else ps.text 0 (p.inner Level.comma) ++ ": " ++ value

def objectPatternSource (ps : Parts) (p : Place) : String :=
  if ps.isEmpty then "\x7b\x7d" else "\x7b " ++ ps.joined ", " (p.inner 0) ++ " \x7d"

def Node.isSpread : Node → Bool
  | node (.term .spread) _ => true
  | _ => false

def arrayPatternSource (ps : Parts) (p : Place) : String :=
  let before := if ps.nodes.head?.any Node.isSpread then " " else ""
  let trailing := if ps.nodes.getLast?.any Node.isAbsent then "," else ""
  "[" ++ before ++ ps.joined ", " (p.inner 0) ++ trailing ++ "]"

def arrowSource (async : Bool) (ps : Parts) (p : Place) : String :=
  enclosedIf (Level.assign ≤ p.least || p.grouped) p fun p =>
    (if async then "async " else "") ++ ps.text 0 (p.inner 0) ++ ps.text 1 (p.inner 0)
      ++ ps.text 2 (p.inner 0) ++ " => "
      ++ ps.text 3 { p.inner Level.comma with lead := .arrow }

def functionSource (words name : String) (ps : Parts) (p : Place) : String :=
  enclosedIf (p.lead = .statement || p.lead = .standard || p.grouped) p fun p =>
    words ++ (if words.endsWith "*" || name ≠ "" then " " else "") ++ name
      ++ ps.text 0 (p.inner 0) ++ ps.text 1 (p.inner 0) ++ ps.text 2 (p.inner 0) ++ " "
      ++ ps.text 3 (p.inner 0)

def classSource (name : String) (ps : Parts) (p : Place) : String :=
  enclosedIf (p.lead = .statement || p.lead = .standard) p fun p =>
    "class" ++ (if name = "" then "" else " " ++ name) ++ ps.text 0 (p.inner 0)
      ++ ps.behind 1 " extends " (p.inner Level.suffix) ++ ps.text 2 (p.inner 0)
      ++ (if (ps.node 3).parts.isEmpty then "" else " implements " ++ ps.text 3 (p.inner 0)) ++ " "
      ++ ps.text 4 (p.inner 0)

def TermForm.source (f : TermForm) (ps : Parts) (p : Place) : String :=
  let q := p.inner 0
  let part := fun i => ps.text i q
  match f with
  | .absent => ""
  | .word s => s
  | .text s => stringText s
  | .number x => x.compact
  | .template texts => templateSource texts (ps.all q)
  | .array => arraySource ps p
  | .object => objectSource ps p
  | .pair => pairSource ps p
  | .computed => "[" ++ ps.text 0 (p.inner Level.comma) ++ "]"
  | .spread => "..." ++ ps.text 0 (p.inner Level.comma)
  | .method words mark =>
    words ++ part 0 ++ mark ++ part 1 ++ part 2 ++ part 3 ++ " " ++ part 4
  | .select optional name =>
    ps.text 0 { p.first Level.suffix with forbidsCall := p.forbidsCall }
      ++ (if optional then "?." else if (ps.node 0).bare.takesPoint then " ." else ".") ++ name
  | .index optional =>
    ps.text 0 { p.first Level.suffix with forbidsCall := p.forbidsCall }
      ++ (if optional then "?.[" else "[") ++ part 1 ++ "]"
  | .call optional =>
    enclosedIf (Level.construct ≤ p.least || p.forbidsCall) p fun p =>
      ps.text 0 (p.first Level.suffix) ++ (if optional then "?." else "") ++ part 1 ++ part 2
  | .arguments => "(" ++ ps.joined ", " (p.inner Level.comma) ++ ")"
  | .construct =>
    "new " ++ ps.text 0 { p.inner Level.construct with forbidsCall := true } ++ part 1 ++ part 2
  | .tagged => ps.text 0 (p.first Level.suffix) ++ part 1 ++ part 2
  | .applied => ps.text 0 (p.first p.least) ++ part 1
  | .unary operator => unarySource operator ps p
  | .update operator leading => updateSource operator leading ps p
  | .binary operator => binarySource operator ps p
  | .conditional =>
    enclosedIf (Level.conditional ≤ p.least) p fun p =>
      ps.text 0 (p.first Level.conditional) ++ " ? " ++ ps.text 1 (p.inner Level.yielded) ++ " : "
        ++ ps.text 2 (p.inner Level.yielded)
  | .assign operator =>
    enclosedIf (Level.assign ≤ p.least) p fun p =>
      ps.text 0 (p.first Level.comma) ++ " " ++ operator ++ " " ++ ps.text 1 (p.inner Level.comma)
  | .sequence =>
    enclosedIf (Level.comma ≤ p.least) p fun p =>
      ps.text 0 (p.first 0) ++ String.join ((ps.drop 1).all q |>.map (", " ++ ·))
  | .cast w => castSource w ps p
  | .asserted => "<" ++ part 0 ++ ">" ++ ps.text 1 (p.inner Level.call)
  | .certain => certainSource ps p
  | .yielded words =>
    enclosedIf (Level.yielded ≤ p.least) p fun p =>
      words ++ ps.behind 0 " " (p.inner Level.yielded)
  | .arrow async => arrowSource async ps p
  | .function words name => functionSource words name ps p
  | .body => bodyText p ps
  | .group => groupSource ps p
  | .parameters => "(" ++ ps.joined ", " q ++ ")"
  | .parameter words optional =>
    words ++ part 0 ++ (if optional then "?" else "") ++ part 1
      ++ ps.behind 2 " = " (p.inner Level.comma)
  | .objectPattern => objectPatternSource ps p
  | .arrayPattern => arrayPatternSource ps p
  | .standard => part 0 ++ " = " ++ ps.text 1 (p.inner Level.comma)
  | .classBody name => classSource name ps p
  | .field words mark =>
    words ++ part 0 ++ mark ++ part 1 ++ ps.behind 2 " = " (p.inner Level.comma) ++ ";"
  | .initializer => "static " ++ bodyText p ps

/-- A text of an attribute between quotes that it does not contain. -/
def quotedSource (s : String) : String :=
  let quote := if s.contains '"' then "'" else "\""
  quote ++ s ++ quote

def MarkupForm.source (f : MarkupForm) (ps : Parts) (p : Place) : String :=
  let q := p.inner 0
  let part := fun i => ps.text i q
  match f with
  | .element tag =>
    let opening := "<" ++ tag ++ part 0 ++ part 1
    if ps.texts.length ≤ 2 then opening ++ " />"
    else opening ++ ">" ++ part 2 ++ "</" ++ tag ++ ">"
  | .fragment => "<>" ++ part 0 ++ "</>"
  | .attributes => String.join ((ps.all q).map (" " ++ ·))
  | .attribute name => if ps.isEmpty then name else name ++ "=" ++ part 0
  | .quoted s => quotedSource s
  | .braced => "\x7b" ++ part 0 ++ "\x7d"
  | .content => ps.joined "" q
  | .raw s => s

end NavTree.Script
