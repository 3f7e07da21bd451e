import NavTree.Script.Literal

/-! # The shape of the grammar

What can stand inside of something else is read by a grammar for what is nested. The readers of
types, terms, markup and statements are functions of such a grammar; tied together level by level
they make the grammar of texts of any depth.
-/
namespace NavTree.Script

/-- What depends on where in a script something stands. -/
structure Setting where
  dialect : Dialect
  /-- Whether `in` is an operator. -/
  allowsIn : Bool := true
  awaiting : Bool := true
  yielding : Bool := false
  returning : Bool := false
  /-- Whether the result type of an arrow function may stand in front of anything. -/
  typedArrows : Bool := true
  conditionalTypes : Bool := true

def Setting.inside (s : Setting) : Setting :=
  { s with allowsIn := true, typedArrows := true, conditionalTypes := true }

structure Grammar where
  term : Setting → Reader Node
  /-- Terms made with operators of at least the given level. -/
  operation : Setting → Nat → Reader Node
  unary : Setting → Reader Node
  /-- A term without operators, and without calls if there may be none. -/
  callee : Setting → Bool → Reader Node
  type : Setting → Reader Node
  /-- A type behind a word such as `keyof`. -/
  typeOperand : Setting → Reader Node
  pattern : Setting → Reader Node
  /-- An element, perhaps between tags, where the gap behind it counts. -/
  markup : Setting → Bool → Reader Node
  statement : Setting → Reader Node

def Grammar.nothing : Grammar where
  term _ := failure
  operation _ _ := failure
  unary _ := failure
  callee _ _ := failure
  type _ := failure
  typeOperand _ := failure
  pattern _ := failure
  markup _ _ := failure
  statement _ := failure

namespace Reader

/-- A word that can name a variable here. -/
def bindingName (s : Setting) : Reader String := do
  let w ← word
  guard (!reservedWords.contains w && !(w == "await" && s.awaiting)
    && !(w == "yield" && s.yielding))
  return w

def optional (r : Reader Node) : Reader Node := r <|> return .absent

/-- The texts and the items of a template behind its opening mark. -/
def templateRest (strict : Bool) (item : Reader Node) : Nat → Reader (List String × List Node)
  | 0 => failure
  | fuel + 1 => do
    let (s, more) ← raw (templateText? strict)
    skipGaps
    if more then
      let n ← item
      guard ((← peek?) == some '}')
      rawSymbol "\x7d"
      let (texts, items) ← templateRest strict item fuel
      return (String.ofList s :: texts, n :: items)
    else return ([String.ofList s], [])

def template (strict : Bool) (item : Reader Node) : Reader (List String × List Node) := do
  guard ((← peek?) == some '\x60')
  rawSymbol "\x60"
  templateRest strict item (← steps)

def numeralNode : Numeral → Node
  | .finite x => .term (.number x) []
  | .infinite => .word "Infinity"
  | .whole digits => .word digits

/-- The name of a member: a word, a literal, or a term in brackets. -/
def key (g : Grammar) (s : Setting) : Reader Node := do
  match ← peek? with
  | some '[' => do
    symbol "["
    let n ← g.term s.inside
    symbol "]"
    return .term .computed [n]
  | some '#' => do
    symbol "#"
    return .word ("#" ++ (← word))
  | some c =>
    if c = '"' ∨ c = '\'' then return .term (.text (← string)) []
    else if c.isDigit ∨ c = '.' then return numeralNode (← number)
    else return .word (← word)
  | none => failure

end Reader

end NavTree.Script
