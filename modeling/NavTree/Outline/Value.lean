import NavTree.Outline.Field

/-! # Reading props and params

An object tagged `Expression` is a code fragment, any other object a record. Props as a whole are
always a record; params as a whole may be a fragment.
-/
namespace NavTree

def Json.toPair : Json → Decoded (String × String)
  | .array [] => .error (.tooShort 0 .pair)
  | .array [a] => do
    let _ ← a.toText
    throw (.tooShort 1 .pair)
  | .array (a :: b :: rest) => do
    let pair := (← a.toText, ← b.toText)
    if rest.isEmpty then return pair else throw (.tooLong (rest.length + 2))
  | j => j.mismatch .pair

/-- A code fragment of which some fields have not been read yet. -/
structure ExpressionDraft where
  code : Option String := none
  use : Option Import := none

def ExpressionDraft.put (d : ExpressionDraft) (key : String) (j : Json) : Decoded ExpressionDraft :=
  if key = "value" then do return { d with code := some (← j.toText) }
  else if key = "use" then do
    return { d with use := (← j.optional Json.toPair).map fun p => ⟨p.1, p.2⟩ }
  else return d

namespace Expression

def isTagged (fields : JsonObject) : Bool :=
  match fields.lookup "_tag" with
  | some (.string name) => name == "Expression"
  | _ => false

/-- The code fragment of an object, whatever its tag. -/
def ofObject (fields : JsonObject) : Decoded Expression :=
  Except.mapError DecodeFault.inExpression do
    let d ← fields.foldlM (fun (d : ExpressionDraft) f => d.put f.1 f.2) {}
    match d.code with
    | some code => return ⟨code, d.use⟩
    | none => throw (.missingField "value")

end Expression

namespace Value

mutual

def ofJson : Json → Decoded Value
  | .null => return .null
  | .bool b => return .boolean b
  | .number n => return .number n
  | .string s => return .string s
  | .array items => do return .list (← ofItems items)
  | .object fields =>
    if Expression.isTagged fields then do return .expression (← Expression.ofObject fields)
    else do return .record (Record.ofList (← ofFields fields)).entries

def ofItems : List Json → Decoded (List Value)
  | [] => return []
  | j :: rest => do
    let v ← ofJson j
    return v :: (← ofItems rest)

def ofFields : List (String × Json) → Decoded (List (String × Value))
  | [] => return []
  | (key, j) :: rest => do
    let v ← ofJson j
    return (key, v) :: (← ofFields rest)

end

end Value

def Record.ofObject (fields : JsonObject) : Decoded Record := do
  return .ofList (← Value.ofFields fields)

def Params.ofObject (fields : JsonObject) : Decoded Params :=
  if Expression.isTagged fields then do return .expression (← Expression.ofObject fields)
  else do return .record (← Record.ofObject fields)

end NavTree
