import NavTree.Outline.Field

/-! # Reading outlines

Fields are read in the order of the input, and the first fault is the answer; a missing field is
noticed at the end. `Outline.ofJson` reads a whole tree.
-/
namespace NavTree

/-- A node of which some fields have not been read yet. -/
structure NodeDraft where
  name : Option String := none
  exported : Option Bool := none
  root : Option Bool := none
  lazy : Option Bool := none
  path : Option String := none
  navigatorKind : Option NavigatorKind := none
  screenKind : Option ScreenKind := none
  props : Option JsonObject := none
  params : Option JsonObject := none
  children : Option (List NodeOutline) := none

namespace NodeDraft

def put (d : NodeDraft) (tag : NodeTag) (key : String) (j : Json) : Decoded NodeDraft :=
  if key = "name" then do return { d with name := some (← j.toText) }
  else if key = "export" then do return { d with exported := ← j.optional Json.toBool }
  else if key = "root" then do return { d with root := ← j.optional Json.toBool }
  else if key = "lazy" then do return { d with lazy := ← j.optional Json.toBool }
  else if key = "path" then do return { d with path := ← j.optional Json.toText }
  else if key = "props" then do return { d with props := ← j.optional Json.toObject }
  else if key = "params" then do return { d with params := ← j.optional Json.toObject }
  else if key = "type" then
    match tag with
    | .screen => do return { d with screenKind := ← j.optional Json.toScreenKind }
    | _ => do return { d with navigatorKind := ← j.optional Json.toNavigatorKind }
  else return d

/-- The finished node. `missing` is the fault of a required field that was never read. -/
def finish (d : NodeDraft) (tag : NodeTag) (missing : String → DecodeFault) : Decoded NodeOutline :=
  match d.name, tag, d.children with
  | none, _, _ => .error (missing "name")
  | some name, .screen, _ =>
    .ok (.screen ⟨name, d.lazy, d.screenKind, d.path, d.props, d.params⟩)
  | some _, _, none => .error (missing "children")
  | some name, .group, some children => .ok (.group ⟨name, d.path, d.props⟩ children)
  | some name, .navigator, some children =>
    .ok (.navigator ⟨name, d.exported, d.root, d.path, d.navigatorKind, d.props⟩ children)

end NodeDraft

/-- The fault of a field missing in the positional form of a node. -/
def missingAt (tag : NodeTag) (field : String) : DecodeFault :=
  .tooShort ((tag.fields.idxOf? field).getD 0) (.node tag)

namespace NodeOutline

mutual

def ofJson (nested : Bool) : Json → Decoded NodeOutline
  | .object fields =>
    match fields.lookup "_tag" with
    | none => .error (.missingField "_tag")
    | some t => do
      let tag ← t.toTag nested
      let d ← readFields tag {} fields
      d.finish tag .missingField
  | .array [] => .error (.missingField "_tag")
  | .array (t :: items) => do
    let tag ← t.toTag nested
    let d ← readItems tag tag.fields {} items
    let node ← d.finish tag (missingAt tag)
    if items.length > tag.fields.length then throw (.nodeTooLong items.length tag)
    return node
  | j => j.mismatch .node

/-- Reads the fields of an object; unknown ones are skipped. -/
def readFields (tag : NodeTag) (d : NodeDraft) : List (String × Json) → Decoded NodeDraft
  | [] => return d
  | (key, j) :: rest =>
    if key ∈ tag.fields then
      if key = "children" then do
        let children ← readChildren j
        readFields tag { d with children := some children } rest
      else do readFields tag (← d.put tag key j) rest
    else readFields tag d rest

/-- Reads fields by position; items beyond the fields are left. -/
def readItems (tag : NodeTag) : List String → NodeDraft → List Json → Decoded NodeDraft
  | _, d, [] => return d
  | [], d, _ => return d
  | key :: keys, d, j :: rest =>
    if key = "children" then do
      let children ← readChildren j
      readItems tag keys { d with children := some children } rest
    else do readItems tag keys (← d.put tag key j) rest

def readChildren : Json → Decoded (List NodeOutline)
  | .array items => ofItems true items
  | j => j.mismatch .sequence

def ofItems (nested : Bool) : List Json → Decoded (List NodeOutline)
  | [] => return []
  | j :: rest => do
    let node ← ofJson nested j
    return node :: (← ofItems nested rest)

end

end NodeOutline

/-- A tree of which some fields have not been read yet. -/
structure OutlineDraft where
  config : Option Config := none
  groups : List NodeOutline := []
  navigators : Option (List NodeOutline) := none

namespace OutlineDraft

def fields : List String := ["config", "groups", "navigators"]

def topLevel : Json → Decoded (List NodeOutline)
  | .array items => NodeOutline.ofItems false items
  | j => j.mismatch .sequence

def put (d : OutlineDraft) (key : String) (j : Json) : Decoded OutlineDraft :=
  if key = "config" then do return { d with config := some (← j.toConfig) }
  else if key = "groups" then do return { d with groups := ← topLevel j }
  else if key = "navigators" then do return { d with navigators := some (← topLevel j) }
  else return d

def finish (d : OutlineDraft) (missing : String → DecodeFault) : Decoded Outline :=
  match d.config, d.navigators with
  | none, _ => .error (missing "config")
  | _, none => .error (missing "navigators")
  | some config, some navigators => .ok ⟨config, d.groups, navigators⟩

end OutlineDraft

def Outline.ofJson : Json → Decoded Outline
  | .object fields => do
    let d ← fields.foldlM (fun (d : OutlineDraft) f => d.put f.1 f.2) {}
    d.finish .missingField
  | .array items => do
    let d ← (OutlineDraft.fields.zip items).foldlM (fun (d : OutlineDraft) f => d.put f.1 f.2) {}
    let outline ← d.finish fun field =>
      .tooShort ((OutlineDraft.fields.idxOf? field).getD 0) .tree
    if items.length > OutlineDraft.fields.length then throw (.tooLong items.length)
    return outline
  | j => j.mismatch .tree

end NavTree
