import NavTree.Script.Token

/-! # Literals of scripts

Strings and numbers are read to what they mean, templates and regular expressions are kept as they
are written.
-/
namespace NavTree.Script

def hexDigit? (c : Char) : Option Nat :=
  if c.isDigit then some (c.toNat - '0'.toNat)
  else if 'a' ≤ c ∧ c ≤ 'f' then some (c.toNat - 'a'.toNat + 10)
  else if 'A' ≤ c ∧ c ≤ 'F' then some (c.toNat - 'A'.toNat + 10)
  else none

/-- The number that digits stand for, if all of them are digits to the base. -/
def digitsValue? (base : Nat) (cs : List Char) : Option Nat :=
  cs.foldlM (fun n c => do
    let d ← hexDigit? c
    if d < base then return base * n + d else none) 0

def scalar? (n : Nat) : Option Char :=
  if n < 0xD800 ∨ (0xDFFF < n ∧ n < 0x110000) then some (Char.ofNat n) else none

/-- The character that four hexadecimal digits stand for, or two of these escapes. -/
def unit? (cs : List Char) : Option (Char × List Char) := do
  guard (4 ≤ cs.length)
  let n ← digitsValue? 16 (cs.take 4)
  let rest := cs.drop 4
  if 0xD800 ≤ n ∧ n < 0xDC00 then
    guard (rest.take 2 == ['\\', 'u'] && 6 ≤ rest.length)
    let low ← digitsValue? 16 ((rest.drop 2).take 4)
    guard (0xDC00 ≤ low ∧ low < 0xE000)
    return (Char.ofNat (0x10000 + (n - 0xD800) * 0x400 + (low - 0xDC00)), rest.drop 6)
  else return (← scalar? n, rest)

/-- The character that an escape behind the letter `u` stands for. -/
def unicode? (cs : List Char) : Option (Char × List Char) :=
  match cs with
  | '{' :: cs => do
    let digits := cs.takeWhile (· ≠ '}')
    guard (!digits.isEmpty)
    let c ← scalar? (← digitsValue? 16 digits)
    return (c, (cs.drop digits.length).drop 1)
  | cs => unit? cs

/-- The octal digits of an escape: at most three, and no number above 255. -/
def octalDigits (cs : List Char) : List Char :=
  let ds := (cs.take 3).takeWhile fun c => '0' ≤ c && c ≤ '7'
  if ds.length = 3 ∧ ds.head?.any ('3' < ·) then ds.take 2 else ds

/-- What an escape behind a backslash stands for, and the rest behind it. -/
def escaped? (cs : List Char) : Option (List Char × List Char) :=
  match cs with
  | [] => none
  | c :: rest =>
    match c with
    | 'n' => some (['\n'], rest)
    | 'r' => some (['\r'], rest)
    | 't' => some (['\t'], rest)
    | 'b' => some ([Char.ofNat 8], rest)
    | 'v' => some ([Char.ofNat 11], rest)
    | 'f' => some ([Char.ofNat 12], rest)
    | '\r' => some ([], if rest.head? = some '\n' then rest.drop 1 else rest)
    | 'x' => do
      guard (2 ≤ rest.length)
      let n ← digitsValue? 16 (rest.take 2)
      return ([Char.ofNat n], rest.drop 2)
    | 'u' => do
      let (d, rest) ← unicode? rest
      return ([d], rest)
    | _ =>
      if isLineEnd c then some ([], rest)
      else if '0' ≤ c ∧ c ≤ '7' then
        let ds := octalDigits cs
        some ([Char.ofNat ((digitsValue? 8 ds).getD 0)], cs.drop ds.length)
      else some ([c], rest)

/-- The characters up to the closing quote, and the rest behind it. A backslash keeps the character
behind it from ending the string. -/
def quotedText? (quote : Char) : List Char → Option (List Char × List Char)
  | [] => none
  | '\\' :: '\r' :: '\n' :: cs => do
    let (s, rest) ← quotedText? quote cs
    return ('\\' :: '\n' :: s, rest)
  | '\\' :: c :: cs => do
    let (s, rest) ← quotedText? quote cs
    return ('\\' :: c :: s, rest)
  | c :: cs =>
    if c = quote then some ([], cs)
    else if c = '\n' ∨ c = '\r' then none
    else do
      let (s, rest) ← quotedText? quote cs
      return (c :: s, rest)

/-- What characters with escapes stand for, if there are no more of them than the given number. -/
def unescaped? : Nat → List Char → Option (List Char)
  | _, [] => some []
  | 0, _ => none
  | fuel + 1, c :: cs =>
    if c = '\\' then do
      let (ds, cs) ← escaped? cs
      return ds ++ (← unescaped? fuel cs)
    else do return c :: (← unescaped? fuel cs)

def string? (cs : List Char) : Option (String × List Char) :=
  match cs with
  | c :: cs =>
    if c = '"' ∨ c = '\'' then do
      let (s, rest) ← quotedText? c cs
      return (String.ofList (← unescaped? s.length s), rest)
    else none
  | [] => none

/-- The form of a number literal. A number too large for a double is infinite. -/
inductive Numeral where
  | finite (x : Double)
  | infinite
  /-- An integer of any size, as it is written. -/
  | whole (digits : String)

/-- Whether marks in a run of digits stand between digits only. -/
def hasSoundMarks : List Char → Bool
  | ['_'] => false
  | '_' :: '_' :: _ => false
  | _ :: cs => hasSoundMarks cs
  | [] => true

def run? (isDigit : Char → Bool) (cs : List Char) : Option (List Char × List Char) :=
  let run := cs.takeWhile fun c => isDigit c || c == '_'
  if run.head? = some '_' ∨ !hasSoundMarks run then none
  else some (run.filter (· ≠ '_'), cs.drop run.length)

def Numeral.ofDecimal (d : Decimal) : Numeral :=
  match Double.ofDecimal? false d with
  | some x => .finite x
  | none => .infinite

/-- The exponent of a number: nothing, or a signed integer behind `e`. -/
def exponent? (cs : List Char) : Option (Option Int × List Char) :=
  match cs with
  | c :: cs =>
    if c = 'e' ∨ c = 'E' then
      let (below, cs) := match cs with
        | '-' :: cs => (true, cs)
        | '+' :: cs => (false, cs)
        | cs => (false, cs)
      do
        let (ds, rest) ← run? Char.isDigit cs
        guard (!ds.isEmpty)
        let n : Nat ← digitsValue? 10 ds
        return (some (if below then -(n : Int) else n), rest)
    else some (none, c :: cs)
  | [] => some (none, [])

/-- A decimal number. One that starts with a zero and goes on with digits is octal if all of them
can be. -/
def decimal? (cs : List Char) : Option (Numeral × List Char) := do
  let (whole, rest) ← run? Char.isDigit cs
  let zeroLed := 1 < whole.length && whole.head? == some '0'
  if zeroLed && (digitsValue? 8 whole).isSome then
    return (.ofDecimal ⟨← digitsValue? 8 whole, 0⟩, rest)
  else if !whole.isEmpty && !zeroLed && rest.head? == some 'n' then
    return (.whole (String.ofList whole ++ "n"), rest.drop 1)
  else
    let (fraction, rest) ← match rest with
      | '.' :: rest => run? Char.isDigit rest
      | rest => some ([], rest)
    guard (!whole.isEmpty || !fraction.isEmpty)
    let (scale, rest) ← exponent? rest
    let digits ← digitsValue? 10 (whole ++ fraction)
    return (.ofDecimal ⟨digits, scale.getD 0 - fraction.length⟩, rest)

/-- An integer to the base that its second character names. -/
def based? (base : Nat) (cs : List Char) : Option (Numeral × List Char) := do
  let (ds, rest) ← run? (fun c => (hexDigit? c).any (· < base)) (cs.drop 2)
  guard (!ds.isEmpty)
  if rest.head? = some 'n' then
    return (.whole (String.ofList (cs.take 2 ++ ds) ++ "n"), rest.drop 1)
  else return (.ofDecimal ⟨← digitsValue? base ds, 0⟩, rest)

def numeral? (cs : List Char) : Option (Numeral × List Char) :=
  match cs with
  | '0' :: c :: _ =>
    if c = 'x' ∨ c = 'X' then based? 16 cs
    else if c = 'o' ∨ c = 'O' then based? 8 cs
    else if c = 'b' ∨ c = 'B' then based? 2 cs
    else decimal? cs
  | cs => decimal? cs

/-- A number, which no word or digit may follow at once. -/
def number? (cs : List Char) : Option (Numeral × List Char) := do
  let (n, rest) ← numeral? cs
  guard (!(rest.head?.map isNameRest).getD false)
  return (n, rest)

def writtenNumber? (cs : List Char) : Option ((Numeral × String) × List Char) := do
  let (n, rest) ← number? cs
  return ((n, String.ofList (cs.take (cs.length - rest.length))), rest)

/-- Whether the escape behind a backslash is one that a template may hold. -/
def isTemplateEscape (cs : List Char) : Bool :=
  match cs with
  | c :: rest =>
    if c = 'x' ∨ c = 'u' then (escaped? cs).isSome
    else if c = '0' then !(rest.head?.any Char.isDigit)
    else !c.isDigit
  | [] => false

/-- The text of a template up to its end or up to a term, and whether a term follows. -/
def templateText? (strict : Bool) : List Char → Option ((List Char × Bool) × List Char)
  | [] => none
  | '\x60' :: cs => some (([], false), cs)
  | '$' :: '{' :: cs => some (([], true), cs)
  | '\\' :: c :: cs => do
    guard (!strict || isTemplateEscape (c :: cs))
    let ((s, more), rest) ← templateText? strict cs
    return (('\\' :: c :: s, more), rest)
  | '\r' :: '\n' :: cs => do
    let ((s, more), rest) ← templateText? strict cs
    return (('\n' :: s, more), rest)
  | c :: cs => do
    let ((s, more), rest) ← templateText? strict cs
    return ((c :: s, more), rest)

/-- The inside of a regular expression. A slash in brackets does not end it. -/
def patternText? (inBrackets : Bool) : List Char → Option (List Char × List Char)
  | [] => none
  | '\\' :: c :: cs => do
    guard (!isLineEnd c)
    let (s, rest) ← patternText? inBrackets cs
    return ('\\' :: c :: s, rest)
  | c :: cs =>
    if isLineEnd c then none
    else if c = '/' ∧ !inBrackets then some ([], cs)
    else do
      let (s, rest) ← patternText? (c = '[' || (inBrackets && c != ']')) cs
      return (c :: s, rest)

/-- The flags of a regular expression, in their order. -/
def patternFlags : List Char := ['d', 'g', 'i', 'm', 's', 'u', 'v', 'y']

def pattern? (cs : List Char) : Option (String × List Char) :=
  match cs with
  | '/' :: cs => do
    let (body, rest) ← patternText? false cs
    let flags := rest.takeWhile isNameRest
    guard (flags.all patternFlags.contains && flags.eraseDups.length == flags.length)
    let sorted := patternFlags.filter flags.contains
    return (String.ofList ('/' :: body ++ '/' :: sorted), rest.drop flags.length)
  | _ => none

namespace Reader

def string : Reader String := token string?

def number : Reader Numeral := token number?

def writtenNumber : Reader (Numeral × String) := token writtenNumber?

end Reader

end NavTree.Script
