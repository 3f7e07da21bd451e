import NavTree.Script.Parser.Type

/-! # Reading patterns

What the parts of a value are bound to.
-/
namespace NavTree.Script.Reader

variable (g : Grammar) (s : Setting)

/-- What takes all that is left. Only the closing mark may follow. -/
def restPattern (close : String) (target : Reader Node) : Reader Node := do
  symbol "..."
  let n ← target
  guard ((← peekMark?) == some close)
  return .term .spread [n]

def nameNode : Reader Node := do return .word (← bindingName s)

/-- An item of an array pattern, or a hole in front of a comma. -/
def itemPattern : Reader Node := do
  if (← peekMark?) == some "," then return .absent
  else restPattern "]" (g.pattern s) <|> do withStandard g s (← g.pattern s)

/-- A key with a pattern for its value, or a name for a key and its value at once. -/
def memberPattern : Reader Node :=
  restPattern "\x7d" (nameNode s) <|>
  (do
    let k ← key g s
    symbol ":"
    return .term .pair [k, ← withStandard g s (← g.pattern s)]) <|>
  do withStandard g s (← nameNode s)

def pattern : Reader Node := do
  match ← peek? with
  | some '[' => do
    symbol "["
    return .term .arrayPattern (← listed "]" (itemPattern g s.inside) (← steps))
  | some '{' => do
    symbol "\x7b"
    return .term .objectPattern (← listed "\x7d" (memberPattern g s.inside) (← steps))
  | _ => nameNode s

end NavTree.Script.Reader
