import NavTree.Script.Grammar

/-! # Reading types -/
namespace NavTree.Script.Reader

variable (g : Grammar) (s : Setting)

def path : Nat → Reader (List String)
  | 0 => failure
  | fuel + 1 => do
    let w ← word
    if ← hasSymbol "." then return w :: (← path fuel) else return [w]

def typeArguments : Reader Node := do
  angle "<"
  let types ← listed ">" (g.type s.inside) (← steps)
  guard (!types.isEmpty)
  return .type .arguments types

/-- Types between angle brackets on the same line, if there are any. -/
def typeArgumentsHere : Reader Node := do
  if (← peek?) == some '<' && !(← isFresh) then typeArguments g s else return .type .arguments []

def declaredType : Reader Node := do
  if ← hasSymbol ":" then return .type .declared [← g.type s.inside] else return .absent

def generic : Reader Node := do
  let words ← modifiers (← steps)
  let name ← word
  let bound ← if ← hasKeyword "extends" then g.type s.inside else pure .absent
  let standard ← if ← hasSymbol "=" then g.type s.inside else pure .absent
  return .type (.generic (words ++ name)) [bound, standard]
where
  /-- Words in front of the name. -/
  modifiers : Nat → Reader String
    | 0 => failure
    | fuel + 1 => do
      match ← peekWord? with
      | some w =>
        if ["const", "in", "out"].contains w && (← secondWord?).1.any (· ≠ "extends") then
          keyword w
          return w ++ " " ++ (← modifiers fuel)
        else return ""
      | none => return ""

/-- The parameters of a type between angle brackets, if there are any. -/
def generics : Reader Node := do
  if (← peek?) == some '<' then
    angle "<"
    let items ← listed ">" (generic g s) (← steps)
    guard (!items.isEmpty)
    return .type .generics items
  else return .type .generics []

def withStandard (n : Node) : Reader Node := do
  if ← hasSymbol "=" then return .term .standard [n, ← g.term s.inside] else return n

def parameterWords : List String :=
  ["public", "private", "protected", "readonly", "override"]

def parameter : Reader Node := do
  let spread ← hasSymbol "..."
  let words ← modifiers (← steps)
  let n ← (do keyword "this"; return .word "this") <|> g.pattern s
  let optional ← hasSymbol "?"
  let type ← declaredType g s
  let standard ← if ← hasSymbol "=" then g.term s.inside else pure .absent
  guard (!spread || (!optional && standard.isAbsent && (← peekMark?) == some ")"))
  return .term (.parameter ((if spread then "..." else "") ++ words) optional) [n, type, standard]
where
  modifiers : Nat → Reader String
    | 0 => failure
    | fuel + 1 => do
      match ← peekWord? with
      | some w =>
        if parameterWords.contains w && (← secondWord?).1.isSome then
          keyword w
          return w ++ " " ++ (← modifiers fuel)
        else return ""
      | none => return ""

def parameters : Reader Node := do
  symbol "("
  return .term .parameters (← listed ")" (parameter g s) (← steps))

/-- A statement about a parameter in place of a result. -/
def predicate : Reader Node := do
  let w ← word
  guard !(← isFresh)
  keyword "is"
  return .type (.predicate w) [← g.type s]

def resultType : Reader Node := predicate g s <|> g.type s

def declaredResult : Reader Node := do
  if ← hasSymbol ":" then return .type .declared [← resultType g s.inside] else return .absent

def memberEnd : Reader Unit := do
  if ← hasSymbol ";" then return
  else if ← hasSymbol "," then return
  else guard ((← isFresh) || (← peek?) == some '}')

def keyWord (words : List String) : Reader String := do
  let w ← word
  guard (words.contains w && !(← isFresh))
  guard ((← peek?) == some '[' || (← looksAt (key g s)))
  return w ++ " "

def indexSignature (words : String) : Reader Node := do
  symbol "["
  let name ← word
  symbol ":"
  let key ← g.type s.inside
  symbol "]"
  symbol ":"
  return .type (.index words name) [key, ← g.type s.inside]

def callSignature (words : String) : Reader Node := do
  guard ((← peek?) == some '(' || (← peek?) == some '<')
  return .type (.signature words) [← generics g s, ← parameters g s, ← declaredResult g s]

def keySignature (words : String) : Reader Node := do
  let k ← key g s
  let optional ← hasSymbol "?"
  let c ← peek?
  if c == some '(' || c == some '<' then
    return .type (.method words optional)
      [k, ← generics g s, ← parameters g s, ← declaredResult g s]
  else return .type (.property words optional) [k, ← declaredType g s]

def signature : Reader Node := do
  let n ← callSignature g s "" <|>
    (do keyword "new"; callSignature g s "new ") <|>
    (do
      let w ← keyWord g s ["readonly"]
      indexSignature g s w <|> keySignature g s w) <|>
    (do keySignature g s (← keyWord g s ["get", "set"])) <|>
    indexSignature g s "" <|>
    keySignature g s ""
  memberEnd
  return n

def signatures : Reader (List Node) := do
  symbol "\x7b"
  untilMark "\x7d" (signature g s) (← steps)

def signed (mark : Reader Unit) (text : String) : Reader String :=
  (do symbol "+"; mark; return "+" ++ text) <|> (do symbol "-"; mark; return "-" ++ text) <|>
  (do mark; return text) <|> return ""

def mappedType : Reader Node := do
  symbol "\x7b"
  let before ← signed (keyword "readonly") "readonly "
  symbol "["
  let name ← word
  keyword "in"
  let source ← g.type s.inside
  let rename ← if ← hasKeyword "as" then g.type s.inside else pure .absent
  symbol "]"
  let mark ← signed (symbol "?") "?"
  let value ← declaredType g s
  if !(← hasSymbol ";") then let _ ← hasSymbol ","
  symbol "\x7d"
  return .type (.mapped before name mark) [source, rename, value]

def tupleItem : Reader Node := do
  let spread ← hasSymbol "..."
  let label ← (do
      let w ← word
      let mark ← if ← hasSymbol "?" then pure "?: " else pure ": "
      symbol ":"
      return w ++ mark) <|> return ""
  let words := (if spread then "..." else "") ++ label
  return .type (.item words) [← g.type s.inside]

def importedType (isQuery : Bool) : Reader Node := do
  keyword "import"
  symbol "("
  let source ← string
  symbol ")"
  let names ← if ← hasSymbol "." then path (← steps) else pure []
  return .type (.imported isQuery source names) [← typeArgumentsHere g s]

/-- A statement that a parameter is something, or is not missing. -/
def assertion : Reader Node := do
  keyword "asserts"
  guard !(← isFresh)
  let w ← word
  let type ← if ← hasKeyword "is" then g.type s else pure .absent
  return .type (.predicate ("asserts " ++ w)) [type]

/-- A type behind a mark that says whether it may be missing. The mark alone is any type. -/
def markedType (mark : String) : Reader Node := do
  symbol mark
  if mark = "?" && ([",", "\x7d", ")", ">", "=", "|"].map some).contains (← peekMark?) then
    return .word mark
  else return .type (.marked true mark) [← if mark = "?" then g.type s else g.typeOperand s]

def plainTypes : List String :=
  ["any", "unknown", "string", "number", "bigint", "boolean", "symbol", "object", "undefined",
   "never", "void", "null", "this", "true", "false"]

def namedType : Reader Node := do
  let names ← path (← steps)
  if names.length = 1 && names.all plainTypes.contains then
    return .type (.named names) [.type .arguments []]
  else return .type (.named names) [← typeArgumentsHere g s]

def typeAtom : Reader Node := do
  match ← peek? with
  | some '{' => mappedType g s <|> return .type .object (← signatures g s)
  | some '[' => do
    symbol "["
    return .type .tuple (← listed "]" (tupleItem g s) (← steps))
  | some '(' => do
    symbol "("
    let n ← g.type s.inside
    symbol ")"
    return .type .group [n]
  | some '\x60' => do
    let (texts, items) ← template true (g.type s.inside)
    return .type (.template texts) items
  | some '-' => do
    symbol "-"
    match ← number with
    | .finite x => return .type (.negative x) []
    | .infinite => return .word "-Infinity"
    | .whole digits => return .word ("-" ++ digits)
  | some '?' => markedType g s "?"
  | some '!' => markedType g s "!"
  | some c =>
    if c = '"' ∨ c = '\'' then return .term (.text (← string)) []
    else if c.isDigit ∨ c = '.' then do
      let (n, written) ← writtenNumber
      match n with
      | .whole digits => return .word digits
      | _ => return .word written
    else
      match ← peekWord? with
      | some "asserts" => assertion g s <|> namedType g s
      | some "this" => do
        keyword "this"
        predicateOfThis <|> return .type (.named ["this"]) [.type .arguments []]
      | some "import" => importedType g s false
      | some "typeof" => do
        keyword "typeof"
        importedType g s true <|> do
          let names ← path (← steps)
          return .type (.query names) [← typeArgumentsHere g s]
      | _ => namedType g s
  | none => failure
where
  predicateOfThis : Reader Node := do
    guard !(← isFresh)
    keyword "is"
    return .type (.predicate "this") [← g.type s]

/-- The marks behind a type. A question mark in front of another type belongs to something else. -/
def typeSuffixes : Nat → Node → Reader Node
  | 0, _ => failure
  | fuel + 1, n => do
    if ← isFresh then return n
    else if ← hasSymbol "[" then
      if ← hasSymbol "]" then typeSuffixes fuel (.type .array [n])
      else do
        let index ← g.type s.inside
        symbol "]"
        typeSuffixes fuel (.type .access [n, index])
    else if ← hasSymbol "!" then typeSuffixes fuel (.type (.marked false "!") [n])
    else if (← peekMark?) == some "?" then
      if ← looksAt (do symbol "?"; g.type s.inside) then return n
      else do
        symbol "?"
        typeSuffixes fuel (.type (.marked false "?") [n])
    else return n

/-- The bound of an inferred type. In front of a question mark it is the test of a condition. -/
def inferredBound : Reader Node := optional do
  keyword "extends"
  let n ← g.type { s with conditionalTypes := false }
  guard (!s.conditionalTypes || (← peekMark?) != some "?")
  return n

def typeOperand : Reader Node := do
  match ← peekWord? with
  | some w =>
    if ["keyof", "unique", "readonly"].contains w then do
      keyword w
      return .type (.worded w) [← g.typeOperand s]
    else if w = "infer" then do
      keyword w
      let name ← word
      return .type (.inferred name) [← inferredBound g s]
    else suffixed
  | none => suffixed
where
  suffixed : Reader Node := do
    let n ← typeAtom g { s with conditionalTypes := true }
    typeSuffixes g s (← steps) n

/-- Items with a mark between them and perhaps in front of the first. -/
def typeList (mark : String) (form : TypeForm) (item : Reader Node) : Reader Node := do
  let led ← hasSymbol mark
  let items ← separated mark item (← steps)
  match items with
  | [n] => return if led then .type form [n] else n
  | _ => return .type form items

def unionType : Reader Node := typeList "|" .union (typeList "&" .intersection (typeOperand g s))

def functionType : Reader Node := do
  let words ← (do keyword "abstract"; keyword "new"; return "abstract new ") <|>
    (do keyword "new"; return "new ") <|> return ""
  let gs ← generics g s
  let ps ← parameters g s
  symbol "=>"
  return .type (.function words) [gs, ps, ← resultType g s]

def type : Reader Node := functionType g s <|> do
  let n ← unionType g s
  if s.conditionalTypes && !(← isFresh) && (← hasKeyword "extends") then
    let bound ← g.type { s with conditionalTypes := false }
    symbol "?"
    let yes ← g.type s.inside
    symbol ":"
    return .type .conditional [n, bound, yes, ← g.type s.inside]
  else return n

end NavTree.Script.Reader
