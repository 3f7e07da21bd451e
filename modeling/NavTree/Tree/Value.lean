import NavTree.Json.Basic

/-! # Values of props and params

Open-ended data attached to nodes. A record keeps its keys in the order of their first insertion;
writing to a present key replaces its value in place.
-/
namespace NavTree

structure Import where
  symbol : String
  source : String
deriving DecidableEq, Repr

/-- A verbatim code fragment and the import it needs in scope. -/
structure Expression where
  code : String
  use : Option Import
deriving DecidableEq, Repr

/-- A prop or param value. `code` is text built by an emitter and never decoded from input. -/
inductive Value where
  | string (s : String)
  | number (n : JsonNumber)
  | boolean (b : Bool)
  | null
  | list (items : List Value)
  | record (entries : List (String × Value))
  | expression (e : Expression)
  | code (text : String)
deriving Inhabited

structure Record where
  entries : List (String × Value)

namespace Record

def empty : Record := ⟨[]⟩

/-- Replaces the value of the first entry with the key, or appends an entry. -/
def put (key : String) (value : Value) : List (String × Value) → List (String × Value)
  | [] => [(key, value)]
  | (k, v) :: rest => if k = key then (k, value) :: rest else (k, v) :: put key value rest

def insert (r : Record) (key : String) (value : Value) : Record := ⟨put key value r.entries⟩

def ofList (entries : List (String × Value)) : Record :=
  entries.foldl (fun r e => r.insert e.1 e.2) empty

def get? (r : Record) (key : String) : Option Value := r.entries.lookup key

def keys (r : Record) : List String := r.entries.map (·.1)

def values (r : Record) : List Value := r.entries.map (·.2)

end Record

/-- Route parameters: a typed record, or a type named by an expression. -/
inductive Params where
  | record (r : Record)
  | expression (e : Expression)

end NavTree
