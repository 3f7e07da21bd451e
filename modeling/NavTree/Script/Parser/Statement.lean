import NavTree.Script.Parser.Markup

/-! # Reading statements -/
namespace NavTree.Script.Reader

variable (g : Grammar) (s : Setting)

def tested : Reader Node := do
  symbol "("
  let n ← sequence g s.inside
  symbol ")"
  return n

def variableWord : Reader String :=
  (do keyword "const"; return "const ") <|> (do keyword "let"; return "let ") <|>
  (do keyword "var"; return "var ")

/-- A variable with its value, which constants and patterns have to have. One that is marked as
assigned elsewhere has a type instead. -/
def declarator (word : String) : Reader Node := do
  let n ← g.pattern s
  let mark ← if ← hasSymbol "!" then pure "!" else pure ""
  let type ← declaredType g s
  let value ← if ← hasSymbol "=" then g.term s else pure .absent
  guard (mark == "" || (!type.isAbsent && value.isAbsent))
  guard (!value.isAbsent || (n.name?.isSome && word != "const "))
  return .statement (.declarator mark) [n, type, value]

def bindings : Reader Node := do
  let w ← variableWord
  return .statement (.bindings w) (← separated "," (declarator g s w) (← steps))

def choice : Reader Node := do
  keyword "if"
  let test ← tested g s
  let yes ← g.statement s
  let no ← if ← hasKeyword "else" then g.statement s else pure .absent
  return .statement .choice [test, yes, no]

def whileLoop : Reader Node := do
  keyword "while"
  let test ← tested g s
  return .statement .whileLoop [test, ← g.statement s]

def doLoop : Reader Node := do
  keyword "do"
  let repeated ← g.statement s
  keyword "while"
  let test ← tested g s
  let _ ← hasSymbol ";"
  return .statement .doLoop [repeated, test]

/-- The variable or the target that a loop puts its items in. -/
def eachItem : Reader Node :=
  (do
    let w ← variableWord
    let n ← g.pattern s
    return .statement (.bindings w)
      [.statement (.declarator "") [n, ← declaredType g s, .absent]]) <|>
  (do
    let n ← g.callee s true
    guard n.isTarget
    return n)

def eachLoop (words : String) : Reader Node := do
  let item ← eachItem g s
  let isOf ← hasKeyword "of"
  let collection ← if isOf then g.term s else do
    keyword "in"
    sequence g s
  symbol ")"
  return .statement (.eachLoop words (if isOf then "of" else "in"))
    [item, collection, ← g.statement s]

def countedLoop : Reader Node := do
  let first ← optional (bindings g { s with allowsIn := false } <|>
    sequence g { s with allowsIn := false })
  symbol ";"
  let test ← optional (sequence g s)
  symbol ";"
  let step ← optional (sequence g s)
  symbol ")"
  return .statement .countedLoop [first, test, step, ← g.statement s]

def forLoop : Reader Node := do
  keyword "for"
  let waits ← has (do guard s.awaiting; keyword "await")
  symbol "("
  eachLoop g s.inside (if waits then "for await" else "for") <|> do
    guard !waits
    countedLoop g s.inside

def guarded : Reader Node := do
  keyword "try"
  let tried ← body g s
  let (pattern, handler) ← (do
      keyword "catch"
      let p ← (do
        symbol "("
        let n ← g.pattern s.inside
        let type ← declaredType g s
        symbol ")"
        return .term (.parameter "" false) [n, type, .absent]) <|> return .absent
      return (p, ← body g s)) <|> return (.absent, .absent)
  let final ← if ← hasKeyword "finally" then body g s else pure .absent
  guard !(handler.isAbsent && final.isAbsent)
  return .statement .guarded [tried, pattern, handler, final]

def caseBody : Nat → Reader (List Node)
  | 0 => failure
  | fuel + 1 => do
    if (← peekMark?) == some "\x7d" || (["case", "default"].map some).contains (← peekWord?) then
      return []
    else
      let n ← g.statement s
      return n :: (← caseBody fuel)

def switchCase : Reader Node := do
  let value ← (do keyword "case"; sequence g s) <|> (do keyword "default"; return .absent)
  symbol ":"
  return .statement .case (value :: (← caseBody g s (← steps)))

def switch : Reader Node := do
  keyword "switch"
  let n ← tested g s
  symbol "\x7b"
  return .statement .switch (n :: (← untilMark "\x7d" (switchCase g s.inside) (← steps)))

/-- Something that ends here, or a term on the same line. -/
def restOfLine : Reader Node := do
  if ← isFresh then return .absent else optional (sequence g s)

def result : Reader Node := do
  guard s.returning
  keyword "return"
  let n ← restOfLine g s
  statementEnd
  return .statement .result [n]

def throwing : Reader Node := do
  keyword "throw"
  guard !(← isFresh)
  let n ← sequence g s
  statementEnd
  return .statement .throwing [n]

def jump (w : String) : Reader Node := do
  keyword w
  let label ← if ← isFresh then pure "" else nameHere <|> return ""
  statementEnd
  return .statement (.jump w label) []
where
  nameHere : Reader String := bindingName s

def labeled : Reader Node := do
  let name ← bindingName s
  symbol ":"
  return .statement (.labeled name) [← g.statement s]

def plain : Reader Node := do
  let n ← sequence g s
  statementEnd
  return .statement .plain [n]

/-- The word `debugger`, which is a statement of its own. -/
def pause : Reader Node := do
  keyword "debugger"
  statementEnd
  return .statement .plain [.word "debugger"]

def typeAlias : Reader Node := do
  keyword "type"
  guard !(← isFresh)
  let name ← bindingName s
  let gs ← generics g s
  symbol "="
  let n ← g.type s
  statementEnd
  return .statement (.typeAlias name) [gs, n]

def interface : Reader Node := do
  keyword "interface"
  guard !(← isFresh)
  let name ← bindingName s
  let gs ← generics g s
  let above ← basesBehind g s "extends"
  return .statement (.interface name) [gs, above, .type .object (← signatures g s)]

def closedBindings : Reader Node := do
  let n ← bindings g s
  statementEnd
  return n

/-- A function, a class, variables, or the name of a type. -/
def declaration : Reader Node :=
  function g s true <|> classNode g s true <|> closedBindings g s <|> typeAlias g s <|>
  interface g s

def wordStatement (w : String) : Reader Node :=
  match w with
  | "if" => choice g s
  | "while" => whileLoop g s
  | "do" => doLoop g s
  | "for" => forLoop g s
  | "try" => guarded g s
  | "switch" => switch g s
  | "return" => result g s
  | "throw" => throwing g s
  | "break" => jump s w
  | "continue" => jump s w
  | "debugger" => pause
  | "function" => function g s true
  | "class" => classNode g s true
  | "const" => closedBindings g s
  | "var" => closedBindings g s
  | _ => declaration g s <|> labeled g s <|> plain g s

def statement : Reader Node := do
  match ← peek? with
  | some '{' => body g s
  | some ';' => do
    symbol ";"
    return .statement .blank []
  | _ =>
    match ← peekWord? with
    | some w => wordStatement g s w
    | none => plain g s

def moduleName : Reader Node := do
  if (← peek?).any fun c => c == '"' || c == '\'' then return .term (.text (← string)) []
  else return .word (← word)

/-- A single name and the name it is given. A leading `type` and the word `as` can be names too;
what they are is settled by how many names there are. -/
def renamed : Reader Node := do
  let names ← many moduleName (← steps)
  match names with
  | [a] => return .statement (.renamed "") [a, a]
  | [t, a] => renamedIf (t.name? == some "type") "type " a a
  | [a, w, b] => renamedIf (w.name? == some "as") "" a b
  | [t, a, w, b] => renamedIf (t.name? == some "type" && w.name? == some "as") "type " a b
  | _ => failure
where
  renamedIf (condition : Bool) (words : String) (a b : Node) : Reader Node := do
    guard condition
    return .statement (.renamed words) [a, b]

/-- Whether a node is a name that something can be bound to in a module. -/
def isBindable (n : Node) : Bool :=
  n.name?.any fun w => !reservedWords.contains w && w != "await" && w != "yield"

def innerName : Node → Node
  | .node _ [_, b] => b
  | n => n

def outerName : Node → Node
  | .node _ [a, _] => a
  | n => n

def importNames : Reader Node := do
  symbol "\x7b"
  let items ← listed "\x7d" renamed (← steps)
  guard (items.all fun n => isBindable (innerName n))
  return .statement .names items

def importEverything : Reader Node := do
  symbol "*"
  keyword "as"
  return .statement (.everything (← bindingName s)) []

def moduleSource : Reader String := do
  keyword "from"
  string

def importRest (words : String) : Reader Node := do
  let first ← optional (do
    let n ← nameNode s
    guard (isBindable n)
    return n)
  let more ← if first.isAbsent then pure true else hasSymbol ","
  let others ← if more then importNames <|> importEverything s else pure .absent
  let source ← moduleSource
  statementEnd
  return .statement (.imports words source) [first, others]

def importing : Reader Node := do
  keyword "import"
  (do
    let source ← string
    statementEnd
    return .statement (.importBare source) []) <|>
  (do
    keyword "type"
    importRest s "type ") <|>
  importRest s ""

def exportNames (words : String) : Reader Node := do
  symbol "\x7b"
  let items ← listed "\x7d" renamed (← steps)
  let source ← (do return some (← moduleSource)) <|> return none
  guard (source.isSome || items.all fun n => isBindable (outerName n))
  statementEnd
  return .statement (.exportedNames words source) items

def exportAll (words : String) : Reader Node := do
  symbol "*"
  let name ← (do keyword "as"; return "* as " ++ (← word)) <|> return "*"
  let source ← moduleSource
  statementEnd
  return .statement (.exportedAll (words ++ name) source) []

def exportStandard : Reader Node := do
  keyword "default"
  (do return .statement (.exported "default ") [← function g s false <|> classNode g s false]) <|>
  (do
    let n ← g.term s
    statementEnd
    return .statement .standardExport [n])

def exporting : Reader Node := do
  keyword "export"
  exportStandard g s <|> exportNames "" <|> exportAll "" <|>
  (do
    keyword "type"
    exportNames "type " <|> exportAll "type ") <|>
  (do return .statement (.exported "") [← declaration g s])

def moduleItem : Reader Node := importing s <|> exporting g s <|> statement g s

end NavTree.Script.Reader
