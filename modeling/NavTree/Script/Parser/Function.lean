import NavTree.Script.Parser.Pattern

/-! # Reading functions and classes -/
namespace NavTree.Script.Reader

variable (g : Grammar) (s : Setting)

def functionSetting (awaiting yielding : Bool) : Setting :=
  { s.inside with awaiting := awaiting, yielding := yielding, returning := true }

def block : Reader (List Node) := do
  symbol "\x7b"
  let ns ← statements (g.statement s.inside) (← steps)
  symbol "\x7d"
  return ns

def body : Reader Node := do return .term .body (← block g s)

/-- Generics, parameters, result and body. -/
def functionRest (inner : Setting) : Reader (List Node) := do
  let gs ← generics g inner
  let ps ← parameters g inner
  let result ← declaredResult g inner
  return [gs, ps, result, ← body g inner]

/-- The words and marks in front of a function, and whether it may wait and yield. -/
def functionWords : Reader (String × Bool × Bool) := do
  let async ← has (do keyword "async"; guard !(← isFresh))
  keyword "function"
  let starred ← hasSymbol "*"
  let words := (if async then "async " else "") ++ if starred then "function*" else "function"
  return (words, async, starred)

def function (named : Bool) : Reader Node := do
  let (words, async, starred) ← functionWords
  let inner := functionSetting s async starred
  let name ← bindingName (if named then s else inner) <|> do guard !named; return ""
  return .term (.function words name) (← functionRest g inner)

/-- Whether angle brackets enclose types where they could also enclose a tag. -/
def opensGenerics : Reader Bool := do
  if s.dialect == .ts then return true
  else looksAt do
    angle "<"
    let _ ← has (do keyword "const"; guard (← peekWord?).isSome)
    let _ ← word
    match ← peekMark? with
    | some m => guard (m == "," || m == "=")
    | none => do
      keyword "extends"
      let m ← peekMark?
      guard (!(["=", ">", "/"].map some).contains m)

def soleParameter : Reader (List Node) := do
  let n ← nameNode s
  return [.type .generics [],
    .term .parameters [.term (.parameter "" false) [n, .absent, .absent]], .absent]

def arrowParameters : Reader (List Node) := do
  let gs ← if (← peek?) == some '<' && !(← opensGenerics s) then failure else generics g s
  let ps ← parameters g s
  return [gs, ps, ← declaredResult g s]

def arrowRest (async : Bool) : Reader Node := do
  let inner := { s with awaiting := s.awaiting || async }
  let head ← soleParameter inner <|> arrowParameters g inner.inside
  guard !(← isFresh)
  symbol "=>"
  let outcome ← if (← peek?) == some '{' then body g { inner with returning := true }
    else g.term inner
  guard (s.typedArrows || head.getLast?.any Node.isAbsent || (← peekMark?) == some ":")
  return .term (.arrow async) (head ++ [outcome])

def arrow : Reader Node :=
  (do keyword "async"; guard !(← isFresh); arrowRest g s true) <|> arrowRest g s false

/-- A word in front of something that can be a key, on the same line. -/
def leadingWord (w : String) : Reader String := do
  keyword w
  guard !(← isFresh)
  guard (← looksAt (do let _ ← hasSymbol "*"; key g s))
  return w ++ " "

/-- The words and marks in front of the key of a method. -/
def methodWords : Reader String := do
  let w ← leadingWord g s "async" <|> leadingWord g s "get" <|> leadingWord g s "set" <|> return ""
  if ← hasSymbol "*" then
    guard (w == "" || w == "async ")
    return w ++ "*"
  else return w

/-- Whether a method with these words can have so many parameters. -/
def allowsParameters (words : String) (count : Nat) : Bool :=
  if words = "get " then count = 0 else if words = "set " then count = 1 else true

def methodRest (words : String) : Reader (List Node) := do
  let c ← peek?
  guard (c == some '(' || c == some '<')
  let parts ← functionRest g (functionSetting s (words.startsWith "async") (words.endsWith "*"))
  guard (allowsParameters words ((parts.map fun n => n.parts.length).getD 1 0))
  return parts

def method : Reader Node := do
  let words ← methodWords g s
  let k ← key g s
  return .term (.method words "") (k :: (← methodRest g s words))

def memberWords : List String :=
  ["public", "private", "protected", "declare", "abstract", "static", "override", "readonly",
   "accessor"]

def modifiers : Nat → Reader String
  | 0 => failure
  | fuel + 1 =>
    (do
      let w ← memberWords.foldr (fun w r => leadingWord g s w <|> r) failure
      return w ++ (← modifiers fuel)) <|>
    return ""

def memberMark : Reader String := do
  if ← hasSymbol "?" then return "?"
  else if ← hasSymbol "!" then return "!"
  else return ""

def classMember : Reader Node :=
  (do
    keyword "static"
    return .term .initializer (← block g (functionSetting s true false))) <|>
  (do
    let words ← modifiers g s (← steps)
    let inner ← methodWords g s
    let k ← key g s
    let mark ← memberMark
    return .term (.method (words ++ inner) mark) (k :: (← methodRest g s inner))) <|>
  (do
    let words ← modifiers g s (← steps)
    let k ← key g s
    let mark ← memberMark
    let type ← declaredType g s
    let value ← if ← hasSymbol "=" then g.term s.inside else pure .absent
    statementEnd
    return .term (.field words mark) [k, type, value])

/-- What a class extends, and the types it is applied to. -/
def base : Reader (List Node) := do
  if ← hasKeyword "extends" then
    let n ← g.callee s true
    match n with
    | .node (.term .applied) [n, types] => return [n, types]
    | _ => return [n, ← typeArgumentsHere g s]
  else return [.absent, .type .arguments []]

/-- Names of types behind a word, if the word is there. -/
def basesBehind (w : String) : Reader Node := do
  if ← hasKeyword w then return .type .bases (← separated "," (namedType g s) (← steps))
  else return .type .bases []

/-- The members of a class, without the semicolons between them. -/
def classMembers : Nat → Reader (List Node)
  | 0 => failure
  | fuel + 1 => do
    if ← hasSymbol "\x7d" then return []
    else if ← hasSymbol ";" then classMembers fuel
    else return (← classMember g s) :: (← classMembers fuel)

def classNode (named : Bool) : Reader Node := do
  keyword "class"
  let name ← (do
    guard ((← peekWord?) != some "implements")
    bindingName s) <|> do guard !named; return ""
  let gs ← generics g s
  let above ← base g s
  let promised ← basesBehind g s "implements"
  symbol "\x7b"
  let members ← classMembers g s.inside (← steps)
  return .term (.classBody name) ([gs] ++ above ++ [promised, .term .body members])

end NavTree.Script.Reader
