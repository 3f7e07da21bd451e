import NavTree.Script.Node
import NavTree.Text.Letter

/-! # Tokens of scripts

A reader works on the characters that are left. Blank space and comments behind a token are skipped
together with it; it is remembered whether a line ended there, and which comments lead what comes
next. Readers answer `none` for whatever they cannot read.
-/
namespace NavTree.Script

def isLineEnd (c : Char) : Bool :=
  c == '\n' || c == '\r' || c.toNat == 0x2028 || c.toNat == 0x2029

def isGap (c : Char) : Bool :=
  (isBlank c && !isLineEnd c) || c.toNat == 0x200B || c.toNat == 0xFEFF

def isNameStart (c : Char) : Bool :=
  c.isAlpha || c == '_' || c == '$' || (127 < c.toNat && inRanges letterRanges c)

def isNameRest (c : Char) : Bool :=
  isNameStart c || c.isDigit || (127 < c.toNat && inRanges letterMarkRanges c)

/-- What a reader has in front of it, whether a line ends right before that, and the comments that
lead it. -/
structure Cursor where
  rest : List Char
  fresh : Bool
  notes : List Note := []
  /-- More steps than the whole text has characters. -/
  bound : Nat

abbrev Reader := StateT Cursor Option

/-- Between tokens: in blank space, in a comment up to the end of the line, or in a closed one. The
characters of a comment come last first. -/
inductive Gap where
  | blank
  | line (text : List Char)
  | closed (text : List Char)

/-- What is known of a gap so far. Its comments come last first. -/
structure GapState where
  fresh : Bool
  /-- Whether a line ended outside of closed comments. -/
  broken : Bool
  notes : List Note := []

namespace GapState

/-- The end of a line. Comments on the line where the gap starts lead nothing. -/
def endLine (g : GapState) : GapState :=
  ⟨true, true,
    match g.notes with
    | n :: ns => if g.broken then { n with isEnded := true } :: ns else []
    | [] => []⟩

def addLine (g : GapState) (text : List Char) : GapState :=
  ⟨true, true, if g.broken then ⟨String.ofList text.reverse, true, true⟩ :: g.notes else []⟩

def addClosed (g : GapState) (text : List Char) : GapState :=
  ⟨g.fresh || text.any isLineEnd, g.broken,
    ⟨String.ofList text.reverse, g.broken, false⟩ :: g.notes⟩

end GapState

def skipGap : Gap → GapState → List Char → Option (GapState × List Char)
  | .blank, g, '/' :: '/' :: cs => skipGap (.line ['/', '/']) g cs
  | .blank, g, '/' :: '*' :: cs => skipGap (.closed ['*', '/']) g cs
  | .blank, g, c :: cs =>
    if isLineEnd c then skipGap .blank g.endLine cs
    else if isGap c then skipGap .blank g cs
    else some (g, c :: cs)
  | .line text, g, c :: cs =>
    if isLineEnd c then skipGap .blank (g.addLine text) cs else skipGap (.line (c :: text)) g cs
  | .closed text, g, '*' :: '/' :: cs => skipGap .blank (g.addClosed ('/' :: '*' :: text)) cs
  | .closed text, g, c :: cs => skipGap (.closed (c :: text)) g cs
  | .closed _, _, [] => none
  | .line text, g, [] => some (g.addLine text, [])
  | .blank, g, [] => some (g, [])

def Cursor.skip (c : Cursor) (rest : List Char) : Option Cursor := do
  let (g, rest) ← skipGap .blank ⟨c.fresh, c.fresh, []⟩ rest
  return { c with rest := rest, fresh := g.fresh, notes := g.notes.reverse }

namespace Reader

/-- Reads by a function on the characters and leaves what is behind them untouched. -/
def raw {α : Type} (f : List Char → Option (α × List Char)) : Reader α := fun c => do
  let (a, rest) ← f c.rest
  return (a, { c with rest := rest, fresh := false, notes := [] })

def token {α : Type} (f : List Char → Option (α × List Char)) : Reader α := fun c => do
  let (a, rest) ← f c.rest
  return (a, ← { c with fresh := false }.skip rest)

def skipGaps : Reader Unit := fun c => do return ((), ← c.skip c.rest)

def isFresh : Reader Bool := do return (← get).fresh

def isAtEnd : Reader Bool := do return (← get).rest.isEmpty

def peek? : Reader (Option Char) := do return (← get).rest.head?

def has {α : Type} (r : Reader α) : Reader Bool := (do let _ ← r; return true) <|> return false

def looksAt {α : Type} (r : Reader α) : Reader Bool := fun c => some ((r.run c).isSome, c)

/-- Steps that are surely enough for a loop that reads at least a character each time. -/
def steps : Reader Nat := do return (← get).bound

/-- Marks made of several characters, the longer ones first. -/
def longMarks : List String :=
  [">>>=", "...", "===", "!==", "**=", "<<=", ">>=", ">>>", "&&=", "||=", "??=", "=>", "==", "!=",
   "++", "--", "+=", "-=", "*=", "/=", "%=", "&=", "|=", "^=", "&&", "||", "??", "?.", "**", "<<",
   ">>", "<=", ">="]

def shortMarks : List Char := "\x7b\x7d()[];,<>+-*/%&|^!~?:=.@#".toList

/-- The mark that comes next, and its length. A question mark in front of a number stands alone. -/
def mark? (cs : List Char) : Option String :=
  match longMarks.find? fun m => m.toList.isPrefixOf cs with
  | some m =>
    if m = "?." ∧ ((cs.drop 2).head?.map Char.isDigit).getD false then some "?" else some m
  | none =>
    match cs with
    | c :: _ => if shortMarks.contains c then some c.toString else none
    | [] => none

def peekMark? : Reader (Option String) := do return mark? (← get).rest

def exactly (s : String) (cs : List Char) : Option (Unit × List Char) :=
  if s.toList.isPrefixOf cs then some ((), cs.drop s.length) else none

def symbol (s : String) : Reader Unit := do
  guard ((← peekMark?) == some s)
  token (exactly s)

def hasSymbol (s : String) : Reader Bool := has (symbol s)

/-- Reads a mark of one character from the front of a longer one. -/
def angle (s : String) : Reader Unit := token (exactly s)

def rawSymbol (s : String) : Reader Unit := raw (exactly s)

def isWordChar (hyphens : Bool) (c : Char) : Bool := isNameRest c || (hyphens && c == '-')

def word? (hyphens : Bool) : List Char → Option (String × List Char)
  | [] => none
  | c :: cs =>
    if isNameStart c then
      some (String.ofList (c :: cs.takeWhile (isWordChar hyphens)),
        cs.dropWhile (isWordChar hyphens))
    else none

def word : Reader String := token (word? false)

def peekWord? : Reader (Option String) := do return (word? false (← get).rest).map (·.1)

/-- The word behind the next one, and whether both are on one line. -/
def secondWord? : Reader (Option String × Bool) := fun c =>
  some (match (do let _ ← word; return (← peekWord?, !(← isFresh)) : Reader _).run c with
    | some (r, _) => r
    | none => (none, false), c)

def keyword (s : String) : Reader Unit := do guard ((← word) == s)

def hasKeyword (s : String) : Reader Bool := has (keyword s)

/-- Words that name nothing, wherever they stand. -/
def reservedWords : List String :=
  ["break", "case", "catch", "class", "const", "continue", "debugger", "default", "delete", "do",
   "else", "enum", "export", "extends", "false", "finally", "for", "function", "if", "import",
   "in", "instanceof", "new", "null", "return", "super", "switch", "this", "throw", "true", "try",
   "typeof", "var", "void", "while", "with"]

/-- A list of items up to a closing mark, with commas between them and perhaps behind the last. -/
def listed {α : Type} (close : String) (item : Reader α) : Nat → Reader (List α)
  | 0 => failure
  | fuel + 1 => do
    if ← has (token (exactly close)) then return []
    else do
      let a ← item
      if ← hasSymbol "," then return a :: (← listed close item fuel)
      else do
        token (exactly close)
        return [a]

/-- Items up to a closing mark, one or more characters each. -/
def untilMark {α : Type} (close : String) (item : Reader α) : Nat → Reader (List α)
  | 0 => failure
  | fuel + 1 => do
    if ← hasSymbol close then return []
    else do
      let a ← item
      return a :: (← untilMark close item fuel)

/-- Statements, with the comments that lead them, up to the end of a block or of the text. Comments
at the end lead nothing. -/
def statements (item : Reader Node) : Nat → Reader (List Node)
  | 0 => failure
  | fuel + 1 => do
    let notes := (← get).notes
    let noted (n : Node) := if notes.isEmpty then n else .statement (.noted notes) [n]
    if (← isAtEnd) || (← peek?) == some '}' then
      return if notes.isEmpty then [] else [noted .absent]
    else
      let n ← item
      return noted n :: (← statements item fuel)

def separated {α : Type} (mark : String) (item : Reader α) : Nat → Reader (List α)
  | 0 => failure
  | fuel + 1 => do
    let a ← item
    if ← hasSymbol mark then return a :: (← separated mark item fuel) else return [a]

/-- The end of a statement: a semicolon, or nothing at the end of a line, of a block or of the
text. -/
def statementEnd : Reader Unit := do
  if ← hasSymbol ";" then return
  else guard ((← isFresh) || (← isAtEnd) || (← peek?) == some '}')

end Reader

end NavTree.Script
