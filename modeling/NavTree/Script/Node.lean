import NavTree.Number.Double
import NavTree.Script.Basic

/-! # Scripts

A script is a tree of nodes; the form of a node says what its parts stand for. The tree keeps what
the layout of a script depends on: parentheses around terms and types are nodes, comments in front
of statements are kept, blank space and all other comments leave no trace.
-/
namespace NavTree.Script

structure Note where
  text : String
  /-- Whether it starts on a line of its own. -/
  isLed : Bool
  /-- Whether a line ends behind it. -/
  isEnded : Bool
deriving DecidableEq, Repr

/-- Terms, and what they are made of. The parts are listed behind each form. -/
inductive TermForm where
  /-- Nothing where something may stand. -/
  | absent
  /-- A name, or a literal that is kept as it is written. -/
  | word (s : String)
  | text (s : String)
  | number (x : Double)
  /-- The terms between the given texts. -/
  | template (texts : List String)
  /-- Items: holes, spreads and terms. -/
  | array
  /-- Members: pairs, methods, spreads, and names that stand for a key and its value at once. -/
  | object
  /-- Key and value. -/
  | pair
  /-- The term that a key is computed from. -/
  | computed
  | spread
  /-- Key, generics, parameters, result type and body. -/
  | method (words mark : String)
  /-- The object. -/
  | select (optional : Bool) (name : String)
  /-- The object and the position. -/
  | index (optional : Bool)
  /-- Callee, types and arguments. -/
  | call (optional : Bool)
  | arguments
  /-- Callee, types and arguments. -/
  | construct
  /-- Tag, types and template. -/
  | tagged
  /-- Term and types. -/
  | applied
  | unary (operator : String)
  | update (operator : String) (leading : Bool)
  /-- Left and right operand. -/
  | binary (operator : Operator)
  /-- Test and both outcomes. -/
  | conditional
  /-- Target and value. -/
  | assign (operator : String)
  | sequence
  /-- Term and type, with a word between them. -/
  | cast (word : String)
  /-- Type and term. -/
  | asserted
  /-- A term that is never missing. -/
  | certain
  | yielded (words : String)
  /-- Generics, parameters, result type, and a term or a body. -/
  | arrow (async : Bool)
  /-- Generics, parameters, result type and body. -/
  | function (words name : String)
  /-- Statements. -/
  | body
  | group
  | parameters
  /-- Pattern, type and standard value. -/
  | parameter (words : String) (optional : Bool)
  /-- Pairs, names, defaults and rests. -/
  | objectPattern
  /-- Holes, patterns, defaults and rests. -/
  | arrayPattern
  /-- Pattern and standard value. -/
  | standard
  /-- Generics, the class extended and its types, interfaces and members. -/
  | classBody (name : String)
  /-- Key, type and value. -/
  | field (words mark : String)
  | initializer

inductive MarkupForm where
  /-- Types, attributes, and the content unless the tag closes itself. -/
  | element (tag : String)
  /-- The content. -/
  | fragment
  | attributes
  /-- The value, if there is one. -/
  | attribute (name : String)
  | quoted (s : String)
  /-- A term in braces. -/
  | braced
  | content
  | raw (s : String)

inductive TypeForm where
  /-- Arguments. -/
  | named (path : List String)
  /-- The type of a value; its arguments. -/
  | query (path : List String)
  /-- A type of another module; its arguments. -/
  | imported (isQuery : Bool) (source : String) (path : List String)
  | negative (x : Double)
  | template (texts : List String)
  /-- Members. -/
  | object
  /-- The type of the names, the type they are renamed by, and the type of the values. -/
  | mapped (before name mark : String)
  | array
  /-- Object and index. -/
  | access
  /-- Items. -/
  | tuple
  /-- A type behind a spread or a label. -/
  | item (words : String)
  | union
  | intersection
  | group
  /-- Generics, parameters and result. -/
  | function (words : String)
  /-- The type tested, the bound, and both outcomes. -/
  | conditional
  /-- The bound. -/
  | inferred (name : String)
  | worded (word : String)
  | marked (leading : Bool) (mark : String)
  /-- The type, if one is named. -/
  | predicate (words : String)
  /-- Arguments between angle brackets. -/
  | arguments
  /-- What a class or an interface is based on. -/
  | bases
  | generics
  /-- Bound and standard type. -/
  | generic (words : String)
  /-- A type behind a colon. -/
  | declared
  /-- Key and type. -/
  | property (words : String) (optional : Bool)
  /-- Key, generics, parameters and result type. -/
  | method (words : String) (optional : Bool)
  /-- Generics, parameters and result type. -/
  | signature (words : String)
  /-- The types of names and of values. -/
  | index (words name : String)

inductive StatementForm where
  | blank
  | plain
  /-- The statement behind the comments, if there is one. -/
  | noted (notes : List Note)
  /-- Declarators. -/
  | bindings (words : String)
  /-- Pattern, type and value. -/
  | declarator (mark : String)
  | result
  | throwing
  | jump (word label : String)
  | labeled (label : String)
  /-- Test and outcomes. -/
  | choice
  /-- Test and body. -/
  | whileLoop
  /-- Body and test. -/
  | doLoop
  /-- First statement, test, step and body. -/
  | countedLoop
  /-- Item, collection and body. -/
  | eachLoop (words word : String)
  /-- Body, pattern, handler and final body. -/
  | guarded
  /-- Tested term and cases. -/
  | switch
  /-- The value, unless it is the standard case, and statements. -/
  | case
  /-- Generics and type. -/
  | typeAlias (name : String)
  /-- Generics, what it extends, and members. -/
  | interface (name : String)
  /-- The name of the standard export, and single names or everything under one name. -/
  | imports (words source : String)
  | importBare (source : String)
  | everything (name : String)
  /-- Single names, each with the one it is given. -/
  | names
  | renamed (words : String)
  | exported (words : String)
  /-- A term as the standard export. -/
  | standardExport
  | exportedNames (words : String) (source : Option String)
  | exportedAll (words source : String)

inductive Form where
  | term (f : TermForm)
  | markup (f : MarkupForm)
  | type (f : TypeForm)
  | statement (f : StatementForm)

inductive Node where
  | node (form : Form) (parts : List Node)

namespace Node

def term (f : TermForm) (parts : List Node) : Node := node (.term f) parts

def markup (f : MarkupForm) (parts : List Node) : Node := node (.markup f) parts

def type (f : TypeForm) (parts : List Node) : Node := node (.type f) parts

def statement (f : StatementForm) (parts : List Node) : Node := node (.statement f) parts

def absent : Node := term .absent []

def word (s : String) : Node := term (.word s) []

def parts : Node → List Node
  | node _ parts => parts

def isAbsent : Node → Bool
  | node (.term .absent) _ => true
  | _ => false

/-- The term itself, without the parentheses around it. -/
def bare : Node → Node
  | node (.term .group) [n] => n.bare
  | n => n

def name? : Node → Option String
  | node (.term (.word s)) _ => some s
  | _ => none

/-- Whether a term is a step of an optional chain that is still open. -/
def isChain : Node → Bool
  | node (.term (.select optional _)) (n :: _) => optional || n.isChain
  | node (.term (.index optional)) (n :: _) => optional || n.isChain
  | node (.term (.call optional)) (n :: _) => optional || n.isChain
  | node (.term .certain) [n] => n.isChain
  | _ => false

/-- Whether a term is made by an operator in front of it. -/
def isUnary : Node → Bool
  | node (.term (.unary _)) _ => true
  | _ => false

/-- Whether a term is made by an operator that coalescing does not mix with. -/
def isLogic : Node → Bool
  | node (.term (.binary op)) _ => op.isLogic
  | _ => false

end Node

end NavTree.Script
