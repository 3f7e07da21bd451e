import NavTree.Script.Parser.Function

/-! # Reading terms -/
namespace NavTree.Script

def Node.isTarget : Node → Bool
  | node (.term .group) [n] => n.isTarget
  | node (.term (.word w)) _ => (w.toList.all isNameRest) && !constantWords.contains w
  | node (.term (.select optional _)) [n] => !optional && !n.isChain
  | node (.term (.index optional)) (n :: _) => !optional && !n.isChain
  | node (.term (.cast _)) (n :: _) => n.isTarget
  | node (.term .certain) [n] => n.isTarget
  | node (.term .asserted) [_, n] => n.isTarget
  | _ => false

def Node.withTypes : Node → Node × Node
  | node (.term .applied) [n, types] => (n, types)
  | n => (n, .type .arguments [])

def Node.isApplied : Node → Bool
  | node (.term .applied) _ => true
  | _ => false

namespace Reader

variable (g : Grammar) (s : Setting)

def sequence : Reader Node := do
  match ← separated "," (g.term s) (← steps) with
  | [n] => return n
  | ns => return .term .sequence ns

def spread : Reader Node := do
  symbol "..."
  return .term .spread [← g.term s]

def arguments : Reader Node := do
  symbol "("
  return .term .arguments (← listed ")" (spread g s.inside <|> g.term s.inside) (← steps))

def group : Reader Node := do
  symbol "("
  let n ← sequence g s.inside
  symbol ")"
  return .term .group [n]

/-- An item of an array, or a hole in front of a comma. -/
def arrayItem : Reader Node := do
  if (← peekMark?) == some "," then return .absent else spread g s <|> g.term s

def objectMember : Reader Node :=
  spread g s <|> method g s <|>
  (do
    let k ← key g s
    symbol ":"
    return .term .pair [k, ← g.term s]) <|>
  nameNode s

def templateNode (strict : Bool) : Reader Node := do
  let (texts, items) ← template strict (sequence g s.inside)
  return .term (.template texts) items

def importTerm : Reader Node := do
  keyword "import"
  if ← hasSymbol "." then
    keyword "meta"
    return .word "import.meta"
  else
    let given ← arguments g s
    guard !given.parts.isEmpty
    return .term (.call false) [.word "import", .type .arguments [], given]

def construct : Reader Node := do
  keyword "new"
  if ← hasSymbol "." then
    keyword "target"
    return .word "new.target"
  else
    guard ((← peekWord?) != some "import")
    let (n, types) := (← g.callee s false).withTypes
    let given ← if (← peek?) == some '(' then arguments g s else pure (.term .arguments [])
    return .term .construct [n, types, given]

def wordAtom : Reader Node := do
  match ← peekWord? with
  | some "function" => function g s false
  | some "class" => classNode g s false
  | some "new" => construct g s
  | some "import" => importTerm g s
  | some "super" => do
    keyword "super"
    guard ((["(", ".", "["].map some).contains (← peekMark?))
    return .word "super"
  | some w =>
    if constantWords.contains w then do
      keyword w
      return .word w
    else if w = "async" && (← secondWord?) == (some "function", true) then function g s false
    else nameNode s
  | none => failure

def atom : Reader Node := do
  match ← peek? with
  | some '(' => group g s
  | some '[' => do
    symbol "["
    return .term .array (← listed "]" (arrayItem g s.inside) (← steps))
  | some '{' => do
    symbol "\x7b"
    return .term .object (← listed "\x7d" (objectMember g s.inside) (← steps))
  | some '\x60' => templateNode g s true
  | some '/' => return .word (← token pattern?)
  | some c =>
    if c = '"' ∨ c = '\'' then return .term (.text (← string)) []
    else if c.isDigit ∨ c = '.' then return numeralNode (← number)
    else wordAtom g s
  | none => failure

/-- Words that start no term, although they are words. -/
def innerWords : List String :=
  ["break", "case", "catch", "const", "continue", "debugger", "default", "do", "else", "enum",
   "export", "extends", "finally", "for", "if", "in", "instanceof", "return", "switch", "throw",
   "try", "var", "while", "with", "as", "satisfies"]

/-- Whether types between angle brackets, and not two comparisons, stand in front of this. -/
def endsTypes : Reader Bool := do
  match ← peekMark? with
  | some m =>
    if ["(", "?."].contains m then return true
    else if m.startsWith "<" || m.startsWith ">" || m == "+" || m == "-" then return false
    else return (← isFresh) || !(["[", "\x7b", "!", "~", "++", "--", "#", "@"].contains m)
  | none =>
    match ← peekWord? with
    | some w => return (← isFresh) || innerWords.contains w
    | none =>
      if (← isFresh) || (← peek?) == some '\x60' then return true
      else return !((← peek?).any fun c => c.isDigit || c == '"' || c == '\'')

def termTypes : Reader Node := do
  angle "<"
  let types ← separated "," (g.type s.inside) (← steps)
  guard ((← peekMark?) != some ">=")
  angle ">"
  guard (← endsTypes)
  return .type .arguments types

def memberName : Reader String := do
  if ← hasSymbol "#" then return "#" ++ (← word) else word

def position : Reader Node := do
  symbol "["
  let n ← sequence g s.inside
  symbol "]"
  return n

def tagged (n types : Node) : Reader Node := do
  guard !n.isChain
  return .term .tagged [n, types, ← templateNode g s false]

def optionalStep (n : Node) : Reader Node := do
  symbol "?."
  match ← peek? with
  | some '[' => return .term (.index true) [n, ← position g s]
  | some '(' => return .term (.call true) [n, .type .arguments [], ← arguments g s]
  | some '<' => return .term (.call true) [n, ← termTypes g s, ← arguments g s]
  | _ => return .term (.select true (← memberName)) [n]

def typedStep (calls : Bool) (n : Node) : Reader Node := do
  let types ← termTypes g s
  match ← peek? with
  | some '(' =>
    if calls then return .term (.call false) [n, types, ← arguments g s]
    else return .term .applied [n, types]
  | some '\x60' => tagged g s n types
  | _ => return .term .applied [n, types]

/-- A step from a term to one of its members, to what it answers, or the like. -/
def step (calls : Bool) (n : Node) : Reader Node := do
  match ← peekMark? with
  | some "." => do
    symbol "."
    guard !n.isApplied
    return .term (.select false (← memberName)) [n]
  | some "?." => do
    guard calls
    optionalStep g s n
  | some "[" => return .term (.index false) [n, ← position g s]
  | some "(" => do
    guard calls
    return .term (.call false) [n, .type .arguments [], ← arguments g s]
  | some "!" => do
    guard !(← isFresh)
    symbol "!"
    return .term .certain [n]
  | some _ => typedStep g s calls n
  | none => tagged g s n (.type .arguments [])

def stepsFrom (calls : Bool) : Nat → Node → Reader Node
  | 0, _ => failure
  | fuel + 1, n => (do stepsFrom calls fuel (← step g s calls n)) <|> return n

def callee (calls : Bool) : Reader Node := do
  let n ← atom g s
  stepsFrom g s calls (← steps) n

def asserted : Reader Node := do
  angle "<"
  let type ← g.type s.inside
  angle ">"
  return .term .asserted [type, ← g.unary s]

/-- A term that may be stepped up or down behind it, on the same line. -/
def updated : Reader Node := do
  let n ← callee g s true
  match ← peekMark? with
  | some m =>
    if (m = "++" || m = "--") && !(← isFresh) then do
      guard n.isTarget
      symbol m
      return .term (.update m false) [n]
    else return n
  | none => return n

def unaryMarks : List String := ["+", "-", "!", "~"]

def unaryWords : List String := ["typeof", "void", "delete"]

def unary : Reader Node := do
  match ← peekMark?, ← peekWord? with
  | some m, _ =>
    if unaryMarks.contains m then do
      symbol m
      return .term (.unary m) [← g.unary s]
    else if m = "++" || m = "--" then do
      symbol m
      let n ← g.unary s
      guard n.isTarget
      return .term (.update m true) [n]
    else if (← peek?) == some '<' then
      if s.dialect = .tsx then g.markup s false else asserted g s
    else updated g s
  | none, some w =>
    if unaryWords.contains w || (w = "await" && s.awaiting) then do
      keyword w
      return .term (.unary w) [← g.unary s]
    else updated g s
  | none, none => updated g s

/-- Reads an operator that binds more tightly than `least`. -/
def operator (least : Nat) : Reader Operator := do
  let symbol ← match ← peekMark? with
    | some m => token (exactly m) *> pure m
    | none => word
  match operators.find? (·.symbol == symbol) with
  | some op =>
    guard (if op.isPower then least ≤ op.level else least < op.level)
    guard (s.allowsIn || op.symbol != "in")
    return op
  | none => failure

/-- Whether an operator can stand between two terms that have no parentheses around them. -/
def joins (op : Operator) (left right : Node) : Bool :=
  !(op.isPower && left.isUnary) && !(op.isCoalesce && (left.isLogic || right.isLogic))

def castWord (least : Nat) : Reader String := do
  let w ← word
  guard (least < Level.comparison && (w == "as" || w == "satisfies"))
  return w

/-- An operator and what follows it, behind a first operand. -/
def operationStep (least : Nat) (n : Node) : Reader Node :=
  (do
    guard !(← isFresh)
    let w ← castWord least
    return .term (.cast w) [n, ← g.type s]) <|>
  (do
    let op ← operator s least
    let right ← g.operation s op.level
    guard (joins op n right)
    return .term (.binary op) [n, right])

def operationRest (least : Nat) : Nat → Node → Reader Node
  | 0, _ => failure
  | fuel + 1, n => (do operationRest least fuel (← operationStep g s least n)) <|> return n

/-- Operands joined by operators that bind more tightly than `least`. -/
def operation (least : Nat) : Reader Node := do
  let n ← unary g s
  operationRest g s least (← steps) n

def yielded : Reader Node := do
  guard s.yielding
  keyword "yield"
  if ← hasSymbol "*" then return .term (.yielded "yield*") [← g.term s]
  else
    let n ← if ← isFresh then pure .absent else optional (g.term s)
    return .term (.yielded "yield") [n]

def assignment : Reader Node := do
  let n ← operation g s Level.comma
  match ← peekMark? with
  | some m =>
    if assignments.contains m then do
      guard n.isTarget
      symbol m
      return .term (.assign m) [n, ← g.term s]
    else if m = "?" then do
      symbol "?"
      let yes ← g.term { s with allowsIn := true, typedArrows := false }
      symbol ":"
      return .term .conditional [n, yes, ← g.term s]
    else return n
  | none => return n

def term : Reader Node := yielded g s <|> arrow g s <|> assignment g s

end Reader

end NavTree.Script
