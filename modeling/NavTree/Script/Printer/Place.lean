import NavTree.Number.Notation
import NavTree.Script.Node
import NavTree.Text.Ranges

/-! # Places in written scripts

How a node is written depends on its place: how deep it stands, how tightly it is held from the
outside, and whether it is the first thing of a statement.
-/
namespace NavTree.Script

inductive Lead where
  | inside | statement | arrow | standard
deriving DecidableEq

structure Place where
  dialect : Dialect
  depth : Nat := 0
  /-- Terms of this level and looser ones take parentheses. -/
  least : Nat := 0
  lead : Lead := .inside
  /-- Whether the node stood in parentheses of its own. -/
  grouped : Bool := false
  /-- Whether a call would be taken for a part of what is around it. -/
  forbidsCall : Bool := false

namespace Place

def inner (p : Place) (least : Nat) : Place :=
  { dialect := p.dialect, depth := p.depth, least := least }

def first (p : Place) (least : Nat) : Place := { p.inner least with lead := p.lead }

def deeper (p : Place) (least : Nat) : Place := { p.inner least with depth := p.depth + 1 }

end Place

/-- The parts of a node: the nodes themselves and how each is written. -/
structure Parts where
  nodes : List Node
  texts : List (Place → String)

namespace Parts

def node (ps : Parts) (i : Nat) : Node := ps.nodes.getD i .absent

def text (ps : Parts) (i : Nat) (p : Place) : String := (ps.texts.getD i fun _ => "") p

def has (ps : Parts) (i : Nat) : Bool := !(ps.node i).isAbsent

/-- A part with a text in front of it, if the part is there. -/
def behind (ps : Parts) (i : Nat) (before : String) (p : Place) : String :=
  if ps.has i then before ++ ps.text i p else ""

def isEmpty (ps : Parts) : Bool := ps.texts.isEmpty

def all (ps : Parts) (p : Place) : List String := ps.texts.map fun text => text p

def joined (ps : Parts) (mark : String) (p : Place) : String := mark.intercalate (ps.all p)

def drop (ps : Parts) (n : Nat) : Parts := ⟨ps.nodes.drop n, ps.texts.drop n⟩

end Parts

/-- Writes in parentheses if need be. What is first inside of parentheses is first nowhere else. -/
def enclosedIf (condition : Bool) (p : Place) (write : Place → String) : String :=
  if condition then "(" ++ write { p with lead := .inside } ++ ")" else write p

def tabs (n : Nat) : String := String.ofList (List.replicate n '\t')

def lines (p : Place) (opening separator ending closing : String) (items : List String) :
    String :=
  opening ++ "\n" ++ separator.intercalate (items.map (tabs (p.depth + 1) ++ ·)) ++ ending
    ++ tabs p.depth ++ closing

/-- Braces around items that end their own lines, or around nothing. -/
def blockText (p : Place) (ending : String) (items : List String) : String :=
  if items.isEmpty then "\x7b\x7d"
  else lines p "\x7b" (ending ++ "\n") (ending ++ "\n") "\x7d" items

/-- A comment. Its lines take the indentation of where it stands. -/
def Note.source (n : Note) (depth : Nat) : String :=
  ("\n" ++ tabs depth).intercalate (n.text.splitToList (· == '\n') |>.map trimmed)
where
  trimmed (line : String) : String := String.ofList (line.toList.dropWhile isBlank)

/-- Comments in a row. Only those that stood on lines of their own get one. -/
def notesText (depth : Nat) : List Note → String
  | [] => ""
  | [n] => n.source depth
  | n :: m :: rest =>
    n.source depth ++ (if m.isLed then "\n" ++ tabs depth else "") ++ notesText depth (m :: rest)

/-- Whether a node is a comment behind which the line goes on. -/
def Node.isOpenNote : Node → Bool
  | node (.statement (.noted notes)) [n] => n.isAbsent && notes.getLast?.any (!·.isEnded)
  | _ => false

def bodyText (p : Place) (ps : Parts) : String :=
  let items := (ps.all (p.deeper 0)).map (tabs (p.depth + 1) ++ ·)
  if items.isEmpty then "\x7b\x7d"
  else
    let gap := if ps.nodes.getLast?.any Node.isOpenNote then " " else "\n" ++ tabs p.depth
    "\x7b\n" ++ "\n".intercalate items ++ gap ++ "\x7d"

/-- Whether a closing slash and the word `script`, in any case, stand at the front. -/
def closesScript (cs : List Char) : Bool :=
  match cs with
  | '/' :: rest => (rest.take 6).map Char.toLower == "script".toList
  | _ => false

/-- The escape of a character in front of `rest`, for the characters that need one. -/
def escape? (c : Char) (rest : List Char) : Option String :=
  match c.toNat with
  | 0 => some (if (rest.head?.map Char.isDigit).getD false then "\\x00" else "\\0")
  | 0x07 => some "\\x07"
  | 0x08 => some "\\b"
  | 0x0A => some "\\n"
  | 0x0B => some "\\v"
  | 0x0C => some "\\f"
  | 0x0D => some "\\r"
  | 0x1B => some "\\x1B"
  | 0x22 => some "\\\""
  | 0x5C => some "\\\\"
  | 0xA0 => some "\\xA0"
  | 0x2028 => some "\\u2028"
  | 0x2029 => some "\\u2029"
  | _ => none

/-- The inside of a string. The slash of a closing `script` tag takes a backslash. -/
def stringBody : List Char → List Char
  | [] => []
  | c :: rest =>
    if c = '<' ∧ closesScript rest then '<' :: '\\' :: stringBody rest
    else match escape? c rest with
      | some e => e.toList ++ stringBody rest
      | none => c :: stringBody rest

def stringText (s : String) : String := "\"" ++ String.ofList (stringBody s.toList) ++ "\""

/-- A template: its texts, with terms in braces between them. -/
def templateSource (texts items : List String) : String :=
  "\x60" ++ inner texts items ++ "\x60"
where
  inner : List String → List String → String
    | t :: ts, n :: ns => t ++ "$\x7b" ++ n ++ "\x7d" ++ inner ts ns
    | t :: _, [] => t
    | [], _ => ""

end NavTree.Script
