import NavTree.Number.Notation

/-! # JSON values

Objects keep the order of their fields. `Json.ofFields` is the reading of a field list that may
repeat a key: the first position and the last value win.
-/
namespace NavTree

/-- A JSON number: integers that fit 64 bits stay integers, all others are doubles. -/
inductive JsonNumber where
  | natural (n : Nat)
  | negative (n : Int)
  | double (x : Double)
deriving DecidableEq, Repr

def JsonNumber.text : JsonNumber → String
  | .natural n => toString n
  | .negative n => toString n
  | .double x => x.text

inductive Json where
  | null
  | bool (b : Bool)
  | number (n : JsonNumber)
  | string (s : String)
  | array (items : List Json)
  | object (fields : List (String × Json))
deriving Inhabited

namespace Json

/-- Overwrites the value of a present key in place, or appends the field. -/
def putField (fields : List (String × Json)) (key : String) (value : Json) : List (String × Json) :=
  if fields.any (·.1 == key) then fields.map fun f => if f.1 == key then (key, value) else f
  else fields ++ [(key, value)]

def ofFields (fields : List (String × Json)) : Json :=
  .object (fields.foldl (fun acc f => putField acc f.1 f.2) [])

def field? (key : String) : Json → Option Json
  | .object fields => fields.lookup key
  | _ => none

end Json

end NavTree
