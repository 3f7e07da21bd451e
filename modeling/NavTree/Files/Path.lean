/-! # Paths

Paths are texts with slashes between their parts. Empty parts and parts `.` mean nothing, except
for a `.` at the very front. Operations keep the text as written wherever they do not drop a part.
-/
namespace NavTree

inductive PathPart where
  | root
  | here
  | up
  | name (s : String)
deriving DecidableEq, Repr

namespace PathPart

def rank : PathPart → Nat
  | root => 0
  | here => 1
  | up => 2
  | name _ => 3

/-- Root, then the leading dot, then parents, then names by code points. -/
def compare : PathPart → PathPart → Ordering
  | name a, name b => Ord.compare a b
  | a, b => Ord.compare a.rank b.rank

end PathPart

namespace Path

/-- The pieces between slashes, at least one. -/
def pieces : List Char → List (List Char)
  | [] => [[]]
  | c :: cs =>
    if c = '/' then [] :: pieces cs
    else match pieces cs with
      | [] => [[c]]
      | p :: ps => (c :: p) :: ps

def ofPieces : List (List Char) → List Char
  | [] => []
  | [p] => p
  | p :: q :: ps => p ++ '/' :: ofPieces (q :: ps)

/-- A leading slash or lone dot, and the text behind it. -/
def splitLead : List Char → List Char × List Char
  | '/' :: cs => (['/'], cs)
  | ['.'] => (['.'], [])
  | '.' :: '/' :: cs => (['.'], '/' :: cs)
  | cs => ([], cs)

/-- Pieces that name nothing. -/
def isIdle (p : List Char) : Bool := p = [] || p = ['.']

/-- Pieces up to the last one that names something. -/
def trimPieces (ps : List (List Char)) : List (List Char) := (ps.reverse.dropWhile isIdle).reverse

def isAbsolute (p : String) : Bool := p.toList.head? == some '/'

def parts (p : String) : List PathPart :=
  let (lead, body) := splitLead p.toList
  let first := match lead with
    | ['/'] => [.root]
    | ['.'] => [.here]
    | _ => []
  first ++ ((pieces body).filter (!isIdle ·)).map fun piece =>
    if piece = ['.', '.'] then .up else .name (String.ofList piece)

/-- How a path is walked: all of its parts in turn, and whether a slash ends it. -/
structure Route where
  parts : List PathPart
  slashed : Bool

def route (p : String) : Route :=
  let ps := (pieces p.toList).filter (· ≠ [])
  let first := if isAbsolute p then [.root] else []
  let part (piece : List Char) : PathPart :=
    if piece = ['.'] then .here
    else if piece = ['.', '.'] then .up
    else .name (String.ofList piece)
  ⟨first ++ ps.map part, !ps.isEmpty && p.toList.getLast? = some '/'⟩

/-- The text before the last part, or `none` when there is no part to drop. -/
def parent? (p : String) : Option String :=
  let (lead, body) := splitLead p.toList
  match trimPieces (pieces body) with
  | [] => if lead = ['.'] then some "" else none
  | ps => some (String.ofList (lead ++ ofPieces (trimPieces ps.dropLast)))

/-- The path and the paths around it, as far as they have a part. -/
def ancestorsWithin : Nat → String → List String
  | 0, _ => []
  | fuel + 1, p =>
    match parent? p with
    | some outer => p :: ancestorsWithin fuel outer
    | none => []

/-- Every parent is shorter, so the length bounds their number. -/
def ancestors (p : String) : List String := ancestorsWithin (p.length + 1) p

def fileName? (p : String) : Option String :=
  match (parts p).getLast? with
  | some (.name s) => some s
  | _ => none

/-- What follows the last dot of a file name, unless the name starts with its only dot. -/
def extension? (p : String) : Option String := do
  let name ← fileName? p
  let after := name.toList.reverse.takeWhile (· ≠ '.')
  let before := name.toList.reverse.drop (after.length + 1)
  if after.length = name.length ∨ before = [] then none
  else some (String.ofList after.reverse)

/-- An absolute path stands for itself; any other is appended behind one slash. -/
def join (base p : String) : String :=
  if isAbsolute p ∨ base = "" then p
  else if base.toList.getLast? = some '/' then base ++ p
  else base ++ "/" ++ p

/-- Exchanges the last part if it is a name, or appends the name. -/
def withFileName (p name : String) : String :=
  match fileName? p, parent? p with
  | some _, some parent => join parent name
  | _, _ => join p name

def compareParts : List PathPart → List PathPart → Ordering
  | [], [] => .eq
  | [], _ => .lt
  | _, [] => .gt
  | a :: as, b :: bs => (a.compare b).then (compareParts as bs)

def le (p q : String) : Bool := compareParts (parts p) (parts q) != .gt

/-- The directory that the files generated for a source land in. -/
def outputDirectory (source : String) : String :=
  match parent? source with
  | some "" => "."
  | some parent => parent
  | none => "."

end Path

end NavTree
