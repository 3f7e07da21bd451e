import NavTree.Code.Splice

/-! # Renderings with a running list of imports

Values are rendered one after another. The import of a fragment is appended to one list, which all
renderings share, at the moment when the fragment is spliced.
-/
namespace NavTree

/-- A computation that may append imports to the running list. -/
abbrev Rendering := StateM (List Import)

def Expression.render (e : Expression) : Rendering String := do
  if let some use := e.use then modify (· ++ [use])
  return e.code

namespace Value

mutual

def render? : Value → Rendering (Option String)
  | .string s => return some (stringLiteral s)
  | .number n => return some n.text
  | .boolean b => return some (booleanText b)
  | .expression e => return some (← e.render)
  | .record entries => return some (braced ", " (← renderProperties entries))
  | .code text => return some text
  | .null => return none
  | .list _ => return none

def renderProperties : List (String × Value) → Rendering (List String)
  | [] => return []
  | (key, v) :: rest => do
    let code ← render? v
    let others ← renderProperties rest
    return (code.map fun c => propertyKey key ++ ": " ++ c).toList ++ others

end

mutual

def renderType? : Value → Rendering (Option String)
  | .string _ => return some "string"
  | .number _ => return some "number"
  | .boolean _ => return some "boolean"
  | .expression e => return some (← e.render)
  | .record entries => return some (braced " " (← renderSignatures entries))
  | .code _ => return none
  | .null => return none
  | .list _ => return none

def renderSignatures : List (String × Value) → Rendering (List String)
  | [] => return []
  | (key, v) :: rest => do
    let type ← renderType? v
    let others ← renderSignatures rest
    return (type.map fun t => propertyKey key ++ ": " ++ t ++ ";").toList ++ others

end

end Value

namespace Record

def renderAttributesOf : List (String × Value) → Rendering (List Attribute)
  | [] => return []
  | (key, v) :: rest => do
    let code ← v.render?
    let others ← renderAttributesOf rest
    return (code.map fun c => ⟨key, c⟩).toList ++ others

def renderAttributes (r : Record) : Rendering (List Attribute) := renderAttributesOf r.entries

def renderObject (r : Record) : Rendering String := do
  return braced ", " (← Value.renderProperties r.entries)

def renderTypeLiteral (r : Record) : Rendering String := do
  return braced " " (← Value.renderSignatures r.entries)

end Record

def Params.renderType : Params → Rendering String
  | .record r => r.renderTypeLiteral
  | .expression e => e.render

/-- What can be asked to be rendered. -/
inductive ShapeCall where
  | value (v : Value)
  | attributes (r : Record)
  | object (r : Record)
  | type (p : Params)

inductive ShapeAnswer where
  | value (code : Option String)
  | attributes (as : List Attribute)
  | text (code : String)
deriving DecidableEq, Repr

namespace ShapeCall

def run : ShapeCall → Rendering ShapeAnswer
  | value v => return .value (← v.render?)
  | attributes r => return .attributes (← r.renderAttributes)
  | object r => return .text (← r.renderObject)
  | type p => return .text (← p.renderType)

def runAll : List ShapeCall → Rendering (List ShapeAnswer)
  | [] => return []
  | call :: rest => do
    let answer ← call.run
    return answer :: (← runAll rest)

end ShapeCall

end NavTree
