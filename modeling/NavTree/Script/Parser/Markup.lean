import NavTree.Script.Parser.Term

/-! # Reading markup -/
namespace NavTree.Script.Reader

variable (g : Grammar) (s : Setting)

def hyphenated : Reader String := token (word? true)

def qualified : Reader String := do
  let w ← hyphenated
  if ← hasSymbol ":" then return w ++ ":" ++ (← hyphenated) else return w

/-- The name of a tag. One that is found by steps has no hyphens. -/
def tagName : Reader String :=
  (do
    let names ← path (← steps)
    guard (1 < names.length)
    return ".".intercalate names) <|> qualified

def quoted? (cs : List Char) : Option (String × List Char) :=
  match cs with
  | c :: cs =>
    let inner := cs.takeWhile (· ≠ c)
    let rest := cs.drop inner.length
    if (c = '"' ∨ c = '\'') ∧ !rest.isEmpty then some (String.ofList inner, rest.drop 1) else none
  | [] => none

def braced (item : Reader Node) : Reader Node := do
  symbol "\x7b"
  let n ← item
  symbol "\x7d"
  return .markup .braced [n]

def attributeValue : Reader Node :=
  (do return .markup (.quoted (← token quoted?)) []) <|> braced (g.term s.inside) <|>
  g.markup s false

def tagAttribute : Reader Node :=
  braced (spread g s.inside) <|>
  (do
    let name ← qualified
    if ← hasSymbol "=" then return .markup (.attribute name) [← attributeValue g s]
    else return .markup (.attribute name) [])

/-- Reads something over and over until it is not there. -/
def many (item : Reader Node) : Nat → Reader (List Node)
  | 0 => failure
  | fuel + 1 => (do
      let n ← item
      return n :: (← many item fuel)) <|> return []

def text? (cs : List Char) : Option (String × List Char) :=
  let text := cs.takeWhile fun c => c ≠ '<' && c ≠ '{'
  if text.isEmpty || text.contains '>' || text.contains '}' then none
  else some (String.ofList text, cs.drop text.length)

/-- Braces between tags, which may be empty. Blank space behind them counts. -/
def bracedContent : Reader Node := do
  symbol "\x7b"
  let n ← optional (spread g s.inside <|> g.term s.inside)
  guard ((← peek?) == some '}')
  rawSymbol "\x7d"
  return .markup .braced [n]

def content : Reader Node := do
  let item := (do return .markup (.raw (← raw text?)) []) <|> bracedContent g s <|> g.markup s true
  return .markup .content (← many item (← steps))

/-- The closing bracket of the last tag of an element. -/
def lastBracket (inContent : Bool) : Reader Unit := if inContent then rawSymbol ">" else angle ">"

def markup (inContent : Bool) : Reader Node := do
  angle "<"
  if (← peek?) == some '>' then
    rawSymbol ">"
    let inner ← content g s
    angle "<"
    angle "/"
    lastBracket inContent
    return .markup .fragment [inner]
  else
    let tag ← tagName
    let types ← if (← peek?) == some '<' then typeArguments g s else pure (.type .arguments [])
    let attributes := .markup .attributes (← many (tagAttribute g s) (← steps))
    if ← has (angle "/") then
      lastBracket inContent
      return .markup (.element tag) [types, attributes]
    else
      rawSymbol ">"
      let inner ← content g s
      angle "<"
      angle "/"
      guard ((← tagName) == tag)
      lastBracket inContent
      return .markup (.element tag) [types, attributes, inner]

end NavTree.Script.Reader
