/-! # Quoted literals and keys

String literals of generated source. Both kinds of quote escape the backslash, the double quote
and the line and tab controls; the single-quoted form escapes its own quote as well.
-/
namespace NavTree

inductive QuoteMark where
  | double | single
deriving DecidableEq, Repr

def QuoteMark.char : QuoteMark → Char
  | double => '"'
  | single => '\''

/-- The letter that stands for a character behind a backslash, for the characters that need one. -/
def escapeLetter? (mark : QuoteMark) (c : Char) : Option Char :=
  if c = '\\' then some '\\'
  else if c = '"' then some '"'
  else if c = '\n' then some 'n'
  else if c = '\r' then some 'r'
  else if c = '\t' then some 't'
  else if c = '\'' ∧ mark = .single then some '\''
  else none

def escapeText (mark : QuoteMark) : List Char → List Char
  | [] => []
  | c :: cs =>
    match escapeLetter? mark c with
    | some l => '\\' :: l :: escapeText mark cs
    | none => c :: escapeText mark cs

def quoted (mark : QuoteMark) (s : String) : String :=
  String.ofList (mark.char :: (escapeText mark s.toList ++ [mark.char]))

def stringLiteral (s : String) : String := quoted .double s

def moduleLiteral (s : String) : String := quoted .single s

def isKeyStart (c : Char) : Bool := c.isAlpha || c == '_' || c == '$'

def isKeyRest (c : Char) : Bool := isKeyStart c || c.isDigit

/-- ASCII identifiers: the keys that need no quotes. -/
def isIdentifier (s : String) : Bool :=
  match s.toList with
  | [] => false
  | c :: cs => isKeyStart c && cs.all isKeyRest

/-- Key of an object or of a type: bare when it is an identifier, quoted otherwise. -/
def propertyKey (key : String) : String := if isIdentifier key then key else stringLiteral key

end NavTree
