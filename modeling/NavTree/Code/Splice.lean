import NavTree.Text.Literal
import NavTree.Tree.Value

/-! # Values as code

A record becomes attributes, an object literal or a type literal. Every rendering carries the
imports of the fragments it splices, in the order of their occurrence. Values without a rendering
(null and lists, and for types built code as well) leave no trace.
-/
namespace NavTree

structure Spliced (α : Type) where
  code : α
  uses : List Import
deriving DecidableEq, Repr

namespace Expression

def splice (e : Expression) : Spliced String := ⟨e.code, e.use.toList⟩

end Expression

/-- Braces around members, with nothing inside when there are none. -/
def braced (separator : String) (members : List String) : String :=
  if members.isEmpty then "\x7b\x7d" else "\x7b " ++ separator.intercalate members ++ " \x7d"

def booleanText (b : Bool) : String := if b then "true" else "false"

namespace Value

mutual

def code? : Value → Option (Spliced String)
  | .string s => some ⟨stringLiteral s, []⟩
  | .number n => some ⟨n.text, []⟩
  | .boolean b => some ⟨booleanText b, []⟩
  | .expression e => some e.splice
  | .record entries =>
    let ps := properties entries
    some ⟨braced ", " ps.code, ps.uses⟩
  | .code text => some ⟨text, []⟩
  | .null => none
  | .list _ => none

def properties : List (String × Value) → Spliced (List String)
  | [] => ⟨[], []⟩
  | (key, v) :: rest =>
    let others := properties rest
    match code? v with
    | some c => ⟨(propertyKey key ++ ": " ++ c.code) :: others.code, c.uses ++ others.uses⟩
    | none => others

end

mutual

def type? : Value → Option (Spliced String)
  | .string _ => some ⟨"string", []⟩
  | .number _ => some ⟨"number", []⟩
  | .boolean _ => some ⟨"boolean", []⟩
  | .expression e => some e.splice
  | .record entries =>
    let ss := signatures entries
    some ⟨braced " " ss.code, ss.uses⟩
  | .code _ => none
  | .null => none
  | .list _ => none

def signatures : List (String × Value) → Spliced (List String)
  | [] => ⟨[], []⟩
  | (key, v) :: rest =>
    let others := signatures rest
    match type? v with
    | some t => ⟨(propertyKey key ++ ": " ++ t.code ++ ";") :: others.code, t.uses ++ others.uses⟩
    | none => others

end

end Value

structure Attribute where
  key : String
  value : String
deriving DecidableEq, Repr

def Attribute.text (a : Attribute) : String := a.key ++ "=\x7b" ++ a.value ++ "\x7d"

namespace Record

def attributesOf : List (String × Value) → Spliced (List Attribute)
  | [] => ⟨[], []⟩
  | (key, v) :: rest =>
    let others := attributesOf rest
    match v.code? with
    | some c => ⟨⟨key, c.code⟩ :: others.code, c.uses ++ others.uses⟩
    | none => others

def attributes (r : Record) : Spliced (List Attribute) := attributesOf r.entries

def object (r : Record) : Spliced String :=
  let ps := Value.properties r.entries
  ⟨braced ", " ps.code, ps.uses⟩

def typeLiteral (r : Record) : Spliced String :=
  let ss := Value.signatures r.entries
  ⟨braced " " ss.code, ss.uses⟩

end Record

def Params.typeCode : Params → Spliced String
  | .record r => r.typeLiteral
  | .expression e => e.splice

end NavTree
