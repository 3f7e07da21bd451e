import NavTree.Json.Basic

/-! # Reading JSON text

A strict reader with located errors. Columns count bytes from the start of the line: an error
about the next byte is located on that byte, an error about a byte already taken or about the end
of the text where reading stopped. Arrays and objects nest at most 127 deep.
-/
namespace NavTree

inductive JsonFault where
  | endOfValue | endOfString | endOfList | endOfObject
  | expectedValue | expectedIdent | expectedColon | expectedListEnd | expectedObjectEnd
  | keyNotString | trailingComma | trailingCharacters
  | invalidNumber | numberOutOfRange
  | invalidEscape | controlCharacter | endOfHexEscape | loneSurrogate
  | tooDeep
deriving DecidableEq, Repr

def JsonFault.message : JsonFault → String
  | endOfValue => "EOF while parsing a value"
  | endOfString => "EOF while parsing a string"
  | endOfList => "EOF while parsing a list"
  | endOfObject => "EOF while parsing an object"
  | expectedValue => "expected value"
  | expectedIdent => "expected ident"
  | expectedColon => "expected `:`"
  | expectedListEnd => "expected `,` or `]`"
  | expectedObjectEnd => "expected `,` or `\x7d`"
  | keyNotString => "key must be a string"
  | trailingComma => "trailing comma"
  | trailingCharacters => "trailing characters"
  | invalidNumber => "invalid number"
  | numberOutOfRange => "number out of range"
  | invalidEscape => "invalid escape"
  | controlCharacter => "control character (\\u0000-\\u001F) found while parsing a string"
  | endOfHexEscape => "unexpected end of hex escape"
  | loneSurrogate => "lone leading surrogate in hex escape"
  | tooDeep => "recursion limit exceeded"

structure JsonError where
  fault : JsonFault
  line : Nat
  column : Nat
deriving DecidableEq, Repr

def JsonError.message (e : JsonError) : String :=
  e.fault.message ++ " at line " ++ toString e.line ++ " column " ++ toString e.column

/-- The unread text, with the line it stands on and the bytes of that line already read. -/
structure JsonCursor where
  rest : List Char
  line : Nat
  column : Nat

namespace JsonCursor

/-- The cursor behind a character that was read, `rest` being the text after it. -/
def past (at_ : JsonCursor) (c : Char) (rest : List Char) : JsonCursor :=
  if c = '\n' then ⟨rest, at_.line + 1, 0⟩ else ⟨rest, at_.line, at_.column + c.utf8Size⟩

/-- The cursor after reading `n` bytes, which may end inside a character. -/
def skipBytes : Nat → JsonCursor → JsonCursor
  | 0, k => k
  | n + 1, k =>
    match k.rest with
    | [] => k
    | c :: rest =>
      if n + 1 < c.utf8Size then { k with column := k.column + (n + 1) }
      else skipBytes (n + 1 - c.utf8Size) (k.past c rest)
termination_by n => n
decreasing_by
  have := c.utf8Size_pos
  omega

def fail (k : JsonCursor) (fault : JsonFault) : JsonError := ⟨fault, k.line, k.column⟩

def failNext (k : JsonCursor) (fault : JsonFault) : JsonError := (k.skipBytes 1).fail fault

end JsonCursor

abbrev JsonReader := StateT JsonCursor (Except JsonError)

namespace JsonReader

def fail {α : Type} (fault : JsonFault) : JsonReader α := do throw ((← get).fail fault)

def failNext {α : Type} (fault : JsonFault) : JsonReader α := do throw ((← get).failNext fault)

def peek? : JsonReader (Option Char) := do return (← get).rest.head?

def skip : JsonReader Unit := modify fun k =>
  match k.rest with
  | [] => k
  | c :: rest => k.past c rest

def isBlank (c : Char) : Bool := c == ' ' || c == '\n' || c == '\t' || c == '\r'

/-- The characters at the cursor that satisfy `p`, which are read. -/
def takeWhile (p : Char → Bool) : JsonReader (List Char) := do
  let k ← get
  let taken := k.rest.takeWhile p
  set (taken.foldl (fun k c => k.past c k.rest.tail) k)
  return taken

def peekToken? : JsonReader (Option Char) := do
  let _ ← takeWhile isBlank
  peek?

def word : List Char → JsonReader Unit
  | [] => return
  | c :: cs => do
    match ← peek? with
    | none => fail .endOfValue
    | some d => if d = c then do skip; word cs else failNext .expectedIdent

/-- Appends digits to a number while it fits 64 bits; the second number counts those left over. -/
def appendDigits (n : Nat) : List Char → Nat × Nat
  | [] => (n, 0)
  | d :: ds =>
    let longer := 10 * n + (d.toNat - '0'.toNat)
    if longer < Nat.pow 2 64 then appendDigits longer ds else (n, ds.length + 1)

/-- Digits of an exponent after its first one. More digits than 31 bits hold end the reading: the
number is then out of range, unless it is zero or the exponent is negative. -/
def exponentDigits (tiny : Bool) : Nat → Nat → JsonReader (Option Nat)
  | 0, e => return some e
  | fuel + 1, e => do
    match ← peek? with
    | some d =>
      if d.isDigit then do
        skip
        let e := 10 * e + (d.toNat - '0'.toNat)
        if e > 2147483647 then
          if tiny then do
            let _ ← takeWhile Char.isDigit
            return none
          else fail .numberOutOfRange
        else exponentDigits tiny fuel e
      else return some e
    | none => return some e

/-- The exponent part behind `e`, for a number whose other digits are all zero or not. The number is
zero if there is no exponent. -/
def exponentPart (zero : Bool) : JsonReader (Option Int) := do
  let below ← match ← peek? with
    | some '+' => do skip; pure false
    | some '-' => do skip; pure true
    | _ => pure false
  match ← peek? with
  | none => fail .endOfValue
  | some d =>
    if d.isDigit then do
      skip
      let e ← exponentDigits (zero || below) (← get).rest.length (d.toNat - '0'.toNat)
      return e.map fun e : Nat => if below then -(e : Int) else e
    else failNext .invalidNumber

/-- The digits before the point: a single zero, or digits that do not start with one. -/
def wholePart : JsonReader (List Char) := do
  match ← peek? with
  | none => fail .endOfValue
  | some '0' => do
    skip
    match ← peek? with
    | some d => if d.isDigit then failNext .invalidNumber else return ['0']
    | none => return ['0']
  | some d => if d.isDigit then takeWhile Char.isDigit else failNext .invalidNumber

def fractionPart : JsonReader (List Char) := do
  let ds ← takeWhile Char.isDigit
  if ds.isEmpty then
    match ← peek? with
    | none => fail .endOfValue
    | some _ => failNext .invalidNumber
  else return ds

/-- An integer that fits 64 bits, if there is one; minus zero is a double. -/
def integer? (negative : Bool) (n : Nat) : Option JsonNumber :=
  if negative then
    if 0 < n ∧ n ≤ Nat.pow 2 63 then some (.negative (-(n : Int))) else none
  else if n < Nat.pow 2 64 then some (.natural n) else none

/-- An integer, or a double put together from as many digits as fit 64 bits. Digits of the whole
part that do not fit count for the exponent, those of the fraction for nothing. -/
def number (negative : Bool) : JsonReader JsonNumber := do
  let whole ← wholePart
  let (digits, beyond) := appendDigits 0 whole
  let fraction ← match ← peek? with
    | some '.' => do skip; some <$> fractionPart
    | _ => pure none
  let decimals := fraction.getD []
  let (digits, left) := appendDigits digits decimals
  let exponent ← match ← peek? with
    | some 'e' | some 'E' => do skip; some <$> exponentPart (digits == 0)
    | _ => pure none
  let isPlain := fraction.isNone && exponent.isNone && beyond == 0
  match if isPlain then integer? negative digits else none, exponent.getD (some 0) with
  | some n, _ => return n
  | none, none => return .double (.zero negative)
  | none, some e =>
    match Double.ofParts? negative ⟨digits, e + beyond - (decimals.length - left : Nat)⟩ with
    | some x => return .double x
    | none => fail .numberOutOfRange

def hexDigit? (c : Char) : Option Nat :=
  if c.isDigit then some (c.toNat - '0'.toNat)
  else if 'a' ≤ c ∧ c ≤ 'f' then some (c.toNat - 'a'.toNat + 10)
  else if 'A' ≤ c ∧ c ≤ 'F' then some (c.toNat - 'A'.toNat + 10)
  else none

def hexUnit : JsonReader Nat := do
  let k ← get
  let next := k.rest.take 4
  set (k.skipBytes 4)
  if next.foldl (fun n c => n + c.utf8Size) 0 < 4 then fail .endOfString
  else match next.mapM hexDigit? with
    | some ds => return ds.foldl (fun n d => 16 * n + d) 0
    | none => fail .invalidEscape

/-- One character that the second half of an escaped pair must have. -/
def pairMark (c : Char) : JsonReader Unit := do
  match ← peek? with
  | none => fail .endOfString
  | some d => if d = c then skip else failNext .endOfHexEscape

/-- The character of a `\u` escape; two escapes make one character beyond 16 bits. -/
def unicodeEscape : JsonReader Char := do
  let unit ← hexUnit
  if 0xDC00 ≤ unit ∧ unit ≤ 0xDFFF then fail .loneSurrogate
  else if 0xD800 ≤ unit ∧ unit ≤ 0xDBFF then do
    pairMark '\\'
    pairMark 'u'
    let second ← hexUnit
    if 0xDC00 ≤ second ∧ second ≤ 0xDFFF then
      return Char.ofNat (0x10000 + (unit - 0xD800) * 0x400 + (second - 0xDC00))
    else fail .loneSurrogate
  else return Char.ofNat unit

def escape : JsonReader Char := do
  match ← peek? with
  | none => fail .endOfString
  | some '"' => do skip; return '"'
  | some '\\' => do skip; return '\\'
  | some '/' => do skip; return '/'
  | some 'b' => do skip; return Char.ofNat 8
  | some 'f' => do skip; return Char.ofNat 12
  | some 'n' => do skip; return '\n'
  | some 'r' => do skip; return '\r'
  | some 't' => do skip; return '\t'
  | some 'u' => do skip; unicodeEscape
  | some _ => failNext .invalidEscape

/-- The characters up to the closing quote, in reverse on top of `acc`. -/
def stringBody : Nat → List Char → JsonReader String
  | 0, _ => fail .endOfString
  | fuel + 1, acc => do
    match ← peek? with
    | none => fail .endOfString
    | some '"' => do skip; return String.ofList acc.reverse
    | some '\\' => do skip; stringBody fuel ((← escape) :: acc)
    | some c => do
      skip
      if c.toNat < 0x20 then fail .controlCharacter else stringBody fuel (c :: acc)

def string : JsonReader String := do stringBody ((← get).rest.length + 1) []

/-- What stands before the next element of a list or object: nothing for the first one, a comma
for the others. `false` means that the closing mark follows. -/
def nextElement (first : Bool) (close : Char) (ended unclosed : JsonFault) : JsonReader Bool := do
  match ← peekToken? with
  | none => fail ended
  | some c =>
    if c = close then return false
    else if first then return true
    else if c = ',' then do
      skip
      match ← peekToken? with
      | none => fail .endOfValue
      | some d => if d = close then failNext .trailingComma else return true
    else failNext unclosed

def colon : JsonReader Unit := do
  match ← peekToken? with
  | none => fail .endOfObject
  | some ':' => skip
  | some _ => failNext .expectedColon

mutual

/-- A value at nesting level `depth`; `fuel` bounds the number of steps. -/
def value (depth : Nat) : Nat → JsonReader Json
  | 0 => fail .endOfValue
  | fuel + 1 => do
    match ← peekToken? with
    | none => fail .endOfValue
    | some 'n' => do skip; word "ull".toList; return .null
    | some 't' => do skip; word "rue".toList; return .bool true
    | some 'f' => do skip; word "alse".toList; return .bool false
    | some '-' => do skip; return .number (← number true)
    | some '"' => do skip; return .string (← string)
    | some '[' =>
      if depth = 127 then failNext .tooDeep
      else do skip; return .array (← elements (depth + 1) fuel true)
    | some '{' =>
      if depth = 127 then failNext .tooDeep
      else do skip; return Json.ofFields (← fields (depth + 1) fuel true)
    | some c => if c.isDigit then return .number (← number false) else failNext .expectedValue

def elements (depth : Nat) : Nat → Bool → JsonReader (List Json)
  | 0, _ => fail .endOfList
  | fuel + 1, first => do
    if ← nextElement first ']' .endOfList .expectedListEnd then do
      let item ← value depth fuel
      return item :: (← elements depth fuel false)
    else do skip; return []

def fields (depth : Nat) : Nat → Bool → JsonReader (List (String × Json))
  | 0, _ => fail .endOfObject
  | fuel + 1, first => do
    if ← nextElement first '}' .endOfObject .expectedObjectEnd then do
      match ← peek? with
      | some '"' => do
        skip
        let key ← string
        colon
        let item ← value depth fuel
        return (key, item) :: (← fields depth fuel false)
      | _ => failNext .keyNotString
    else do skip; return []

end

/-- A whole text: one value and nothing but blanks around it. Every step reads a character or
closes one level, so twice the length of the text is fuel enough. -/
def document : JsonReader Json := do
  let v ← value 0 (2 * (← get).rest.length + 2)
  match ← peekToken? with
  | none => return v
  | some _ => failNext .trailingCharacters

end JsonReader

namespace Json

def parse (text : String) : Except JsonError Json :=
  (JsonReader.document.run ⟨text.toList, 1, 0⟩).map (·.1)

end Json

end NavTree
