import NavTree.Text.Shown

/-! # Why an input is no navigation tree

Causes of a refusal, and their wording in one place. A fault inside props or params carries the
place of its node.
-/
namespace NavTree

inductive Found where
  | null
  | boolean (b : Bool)
  | number (n : JsonNumber)
  | string (s : String)
  | sequence
  | map
deriving DecidableEq, Repr

def Json.found : Json → Found
  | .null => .null
  | .bool b => .boolean b
  | .number n => .number n
  | .string s => .string s
  | .array _ => .sequence
  | .object _ => .map

def Found.text : Found → String
  | null => "null"
  | boolean b => "boolean `" ++ toString b ++ "`"
  | number (.double x) => "floating point `" ++ x.text ++ "`"
  | number n => "integer `" ++ n.text ++ "`"
  | string s => "string " ++ shown s
  | sequence => "sequence"
  | map => "map"

inductive NodeTag where
  | navigator | group | screen
deriving DecidableEq, Repr

def NodeTag.all : List NodeTag := [navigator, group, screen]

def NodeTag.text : NodeTag → String
  | navigator => "Navigator"
  | group => "Group"
  | screen => "Screen"

/-- Names of the fields of a node besides its tag, in their positional order. -/
def NodeTag.fields : NodeTag → List String
  | navigator => ["name", "export", "root", "path", "type", "props", "children"]
  | group => ["name", "path", "props", "children"]
  | screen => ["name", "lazy", "type", "path", "props", "params"]

inductive Expected where
  | string | boolean | sequence | map | unit | pair
  | tree | config | node | tag | templates | stringOrMap
deriving DecidableEq, Repr

def Expected.text : Expected → String
  | string => "a string"
  | boolean => "a boolean"
  | sequence => "a sequence"
  | map => "a map"
  | unit => "unit"
  | pair => "a tuple of size 2"
  | tree => "struct RawTree"
  | config => "struct Config"
  | node => "internally tagged enum RawNode"
  | tag => "variant identifier"
  | templates => "a map of file name patterns to content patterns"
  | stringOrMap => "string or map"

/-- The positional forms that can be too short. -/
inductive Positional where
  | tree | config | pair
  | node (tag : NodeTag)
deriving DecidableEq, Repr

def Positional.text : Positional → String
  | tree => "struct RawTree with 3 elements"
  | config => "struct Config with 3 elements"
  | pair => "a tuple of size 2"
  | node tag => "struct Raw" ++ tag.text ++ " with " ++ toString tag.fields.length ++ " elements"

inductive Section where
  | props | params
deriving DecidableEq, Repr

def Section.text : Section → String
  | props => "props"
  | params => "params"

/-- Place of a node: the top-level list and index, and the child indices below, innermost first. -/
structure Place where
  declared : Bool
  index : Nat
  children : List Nat
deriving DecidableEq, Repr

namespace Place

def child (p : Place) (i : Nat) : Place := { p with children := i :: p.children }

def text (p : Place) : String :=
  (if p.declared then "groups[" else "navigators[") ++ toString p.index ++ "]"
    ++ String.join (p.children.reverse.map fun i => ".children[" ++ toString i ++ "]")

end Place

inductive DecodeFault where
  | mismatch (found : Found) (expected : Expected)
  | missingField (name : String)
  | unknownTag (name : String)
  | tagIndex (n : Nat)
  | unknownScreenKind (name : String)
  | notSingleKey
  | noKind
  | tooShort (length : Nat) (expected : Positional)
  | tooLong (length : Nat)
  | nodeTooLong (length : Nat) (tag : NodeTag)
  | inExpression (fault : DecodeFault)
  | wrongTag (at_ : Place) (expected found : NodeTag)
  | located (at_ : Place) (field : Section) (fault : DecodeFault)
deriving DecidableEq, Repr

def backticked (s : String) : String := "`" ++ s ++ "`"

def DecodeFault.message : DecodeFault → String
  | mismatch found expected => "invalid type: " ++ found.text ++ ", expected " ++ expected.text
  | missingField name => "missing field " ++ backticked name
  | unknownTag name =>
    "unknown variant " ++ backticked name ++ ", expected one of "
      ++ ", ".intercalate (NodeTag.all.map fun t => backticked t.text)
  | tagIndex n =>
    "invalid value: integer " ++ backticked (toString n) ++ ", expected variant index 0 <= i < 3"
  | unknownScreenKind name =>
    "unknown variant " ++ backticked name ++ ", expected `Screen` or `Navigator`"
  | notSingleKey => "invalid value: map, expected map with a single key"
  | noKind => "data did not match any variant of untagged enum RawKind"
  | tooShort length expected =>
    "invalid length " ++ toString length ++ ", expected " ++ expected.text
  | tooLong length => "invalid length " ++ toString length ++ ", expected fewer elements in array"
  | nodeTooLong length tag =>
    "invalid length " ++ toString length ++ ", expected " ++ toString tag.fields.length
      ++ " elements in sequence"
  | inExpression fault => "invalid Expression: " ++ fault.message
  | wrongTag at_ expected found =>
    at_.text ++ ": expected " ++ expected.text ++ ", found " ++ found.text
  | located at_ field fault => at_.text ++ "." ++ field.text ++ ": " ++ fault.message

end NavTree
