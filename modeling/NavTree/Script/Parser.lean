import NavTree.Script.Parser.Statement

/-! # Reading scripts

The grammar of a text is tied together level by level. Every level of nesting takes at least a
character, so a text needs no more levels than it is long.
-/
namespace NavTree.Script

open Reader in
/-- The grammar of what is nested less deeply than a number of levels. -/
def grammar : Nat → Grammar
  | 0 => .nothing
  | n + 1 =>
    { term := fun s => term (grammar n) s
      operation := fun s => operation (grammar n) s
      unary := fun s => unary (grammar n) s
      callee := fun s => callee (grammar n) s
      type := fun s => type (grammar n) s
      typeOperand := fun s => typeOperand (grammar n) s
      pattern := fun s => pattern (grammar n) s
      markup := fun s => markup (grammar n) s
      statement := fun s => statement (grammar n) s }

open Reader in
/-- The statements of a text, if all of it can be read. -/
def script (dialect : Dialect) (levels : Nat) : Reader (List Node) := do
  skipGaps
  let ns ← statements (moduleItem (grammar levels) { dialect := dialect }) (← steps)
  guard (← isAtEnd)
  return ns

def parse? (dialect : Dialect) (source : String) : Option (List Node) :=
  let cs := source.toList
  ((script dialect (2 * cs.length + 16)).run
    { rest := cs, fresh := true, bound := cs.length + 1 }).map (·.1)

end NavTree.Script
