/-! # The vocabulary of scripts

Scripts are written in a typed language with markup: its dialects, its operators and how tightly
they bind, and the words that mean more than a name. A term is put in parentheses wherever its own
level or a tighter one is around it.
-/
namespace NavTree

/-- The dialect a source file must parse as: with or without markup. -/
inductive Dialect where
  | tsx | ts
deriving DecidableEq, Repr

namespace Script

namespace Level

def comma : Nat := 1

def yielded : Nat := 3

def assign : Nat := 4

def conditional : Nat := 5

def coalesce : Nat := 6

def comparison : Nat := 13

def shift : Nat := 14

def power : Nat := 17

def unary : Nat := 18

def suffix : Nat := 19

def construct : Nat := 20

def call : Nat := 21

end Level

/-- An operator between two terms. Higher levels bind more tightly. -/
structure Operator where
  symbol : String
  level : Nat
deriving DecidableEq, Repr

namespace Operator

/-- The operator that groups to the right. -/
def isPower (op : Operator) : Bool := op.symbol == "**"

def isCoalesce (op : Operator) : Bool := op.symbol == "??"

/-- The two operators that a coalescing one does not mix with. -/
def isLogic (op : Operator) : Bool := op.symbol == "||" || op.symbol == "&&"

end Operator

def operators : List Operator :=
  [⟨"??", Level.coalesce⟩, ⟨"||", 7⟩, ⟨"&&", 8⟩, ⟨"|", 9⟩, ⟨"^", 10⟩, ⟨"&", 11⟩, ⟨"==", 12⟩,
   ⟨"!=", 12⟩, ⟨"===", 12⟩, ⟨"!==", 12⟩, ⟨"<", Level.comparison⟩, ⟨">", Level.comparison⟩,
   ⟨"<=", Level.comparison⟩, ⟨">=", Level.comparison⟩, ⟨"instanceof", Level.comparison⟩,
   ⟨"in", Level.comparison⟩, ⟨"<<", Level.shift⟩, ⟨">>", Level.shift⟩, ⟨">>>", Level.shift⟩,
   ⟨"+", 15⟩, ⟨"-", 15⟩, ⟨"*", 16⟩, ⟨"/", 16⟩, ⟨"%", 16⟩, ⟨"**", Level.power⟩]

def assignments : List String :=
  ["=", "+=", "-=", "*=", "/=", "%=", "**=", "<<=", ">>=", ">>>=", "&=", "|=", "^=", "&&=", "||=",
   "??="]

/-- Words for values that no name can stand for. -/
def constantWords : List String := ["this", "null", "true", "false"]

end Script

end NavTree
