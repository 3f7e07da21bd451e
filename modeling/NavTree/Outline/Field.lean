import NavTree.Outline.Basic

/-! # Reading single fields

Readers of the fields whose content does not nest. `null` stands for a missing optional field.
-/
namespace NavTree

abbrev Decoded (α : Type) := Except DecodeFault α

namespace Json

def mismatch {α : Type} (j : Json) (expected : Expected) : Decoded α :=
  .error (.mismatch j.found expected)

def toText : Json → Decoded String
  | .string s => .ok s
  | j => j.mismatch .string

def toBool : Json → Decoded Bool
  | .bool b => .ok b
  | j => j.mismatch .boolean

def toObject : Json → Decoded JsonObject
  | .object fields => .ok fields
  | j => j.mismatch .map

def optional {α : Type} (read : Json → Decoded α) : Json → Decoded (Option α)
  | .null => .ok none
  | j => (read j).map some

/-- The name of a variant without content: a text, or an object with it as its only key and
nothing as its value. -/
def builtinKind? (name : String) : Option NavigatorKind :=
  if name = "native-stack" then some .nativeStack
  else if name = "bottom-tab" then some .bottomTab
  else if name = "stack" then some .stack
  else none

def toNavigatorKind (j : Json) : Decoded NavigatorKind :=
  let kind := match j with
    | .string name => builtinKind? name
    | .object [(name, .null)] => builtinKind? name
    | .array [.string symbol, .string source] => some (.custom ⟨symbol, source⟩)
    | _ => none
  match kind with
  | some kind => .ok kind
  | none => .error .noKind

def screenKind (name : String) : Decoded ScreenKind :=
  if name = "Screen" then .ok .screen
  else if name = "Navigator" then .ok .navigator
  else .error (.unknownScreenKind name)

/-- A screen kind by its name, or as the only key of an object with nothing below it. -/
def toScreenKind : Json → Decoded ScreenKind
  | .string name => screenKind name
  | .object [(name, content)] => do
    let kind ← screenKind name
    match content with
    | .null | .object [] => return kind
    | j => j.mismatch .unit
  | .object _ => .error .notSingleKey
  | j => j.mismatch .stringOrMap

def toTemplates : Json → Decoded (List (String × String))
  | .object fields => fields.mapM fun f => do return (f.1, ← f.2.toText)
  | j => j.mismatch .templates

/-- The tag of a node. Below the top level it may also be given by its index. -/
def toTag (nested : Bool) : Json → Decoded NodeTag
  | .string name =>
    match NodeTag.all.find? (·.text == name) with
    | some tag => .ok tag
    | none => .error (.unknownTag name)
  | .number (.natural n) =>
    if nested then
      match NodeTag.all[n]? with
      | some tag => .ok tag
      | none => .error (.tagIndex n)
    else .error (.mismatch (.number (.natural n)) .tag)
  | j => j.mismatch .tag

end Json

structure ConfigDraft where
  path : Option String := none
  lazy : Bool := true
  template : Option (List (String × String)) := none

namespace ConfigDraft

def fields : List String := ["path", "lazy", "template"]

def put (d : ConfigDraft) (key : String) (j : Json) : Decoded ConfigDraft :=
  if key = "path" then do return { d with path := some (← j.toText) }
  else if key = "lazy" then do return { d with lazy := ← j.toBool }
  else if key = "template" then do return { d with template := ← j.optional Json.toTemplates }
  else return d

/-- The finished settings; a missing path is the given fault. -/
def finish (d : ConfigDraft) (missing : DecodeFault) : Decoded Config :=
  match d.path with
  | some path => .ok ⟨path, d.lazy, d.template⟩
  | none => .error missing

end ConfigDraft

def Json.toConfig : Json → Decoded Config
  | .object fields => do
    let d ← fields.foldlM (fun (d : ConfigDraft) f => d.put f.1 f.2) {}
    d.finish (.missingField "path")
  | .array items => do
    let d ← (ConfigDraft.fields.zip items).foldlM (fun (d : ConfigDraft) f => d.put f.1 f.2) {}
    let config ← d.finish (.tooShort 0 .config)
    if items.length > ConfigDraft.fields.length then throw (.tooLong items.length)
    return config
  | j => j.mismatch .config

end NavTree
