import Mathlib.Logic.Relation
import NavTree.Proofs.Json.Distinct
import NavTree.Proofs.Keyed
import NavTree.Proofs.Outline.Drafts

/-! # One input in other words

Objects that are read field by field may list their fields in any order and may have fields that
nothing reads. Such an input is normalized to the same tree, or fails as well, though perhaps with
another fault.
-/
namespace NavTree

/-- What a JSON value is read as at its place. -/
inductive Role where
  | tree | config
  | nodes (nested : Bool)
  | node (nested : Bool)
  | props | params | value
  | other

def NodeTag.of? (nested : Bool) (fields : JsonObject) : Option NodeTag :=
  (fields.lookup "_tag").bind fun t => (t.toTag nested).toOption

namespace Role

def inTree (key : String) : Role :=
  if key = "config" then .config
  else if key = "groups" ∨ key = "navigators" then .nodes false
  else .other

def inNode (key : String) : Role :=
  if key = "children" then .nodes true
  else if key = "props" then .props
  else if key = "params" then .params
  else .other

/-- The field names of the type an object is read as. There is no such type for objects whose keys
are data, such as records; a node whose tag is not known has no fields. -/
def names? : Role → JsonObject → Option (List String)
  | .tree, _ => some OutlineDraft.fields
  | .config, _ => some ConfigDraft.fields
  | .node nested, fields => some ((NodeTag.of? nested fields).elim [] NodeTag.fields)
  | .params, fields | .value, fields =>
    if Expression.isTagged fields then some Expression.reader.names else none
  | _, _ => none

def field : Role → JsonObject → String → Role
  | .tree, _, key => inTree key
  | .node _, _, key => inNode key
  | .props, _, _ => .value
  | .params, fields, _ | .value, fields, _ => if Expression.isTagged fields then .other else .value
  | _, _, _ => .other

/-- Trees and nodes may also be given by position, nodes with their tag in front. -/
def item : Role → List Json → Nat → Role
  | .tree, _, i => (OutlineDraft.fields[i]?).elim .other inTree
  | .node nested, t :: _, i + 1 =>
    (t.toTag nested).toOption.elim .other fun tag => (tag.fields[i]?).elim .other inNode
  | .nodes nested, _, _ => .node nested
  | .value, _, _ => .value
  | _, _, _ => .other

end Role

/-- One object, anywhere in a value, has its fields rearranged and perhaps further ones. Several
objects are changed one after the other, as no change to one is seen by another. The keys that an
object has afterwards may be restricted. -/
inductive Json.Rearranged (fit : List String → Prop) : Role → Json → Json → Prop
  | rearranged {role fields extra fields' names} (hnames : Role.names? role fields = some names)
    (hp : (fields ++ extra).Perm fields') (hn : fit (fields'.map (·.1)))
    (hx : ∀ f ∈ extra, f.1 ∉ names ∧ f.1 ≠ "_tag") :
    Rearranged fit role (.object fields) (.object fields')
  | field {role before key j j' after}
    (h : Rearranged fit (role.field (before ++ (key, j) :: after) key) j j') :
    Rearranged fit role (.object (before ++ (key, j) :: after))
      (.object (before ++ (key, j') :: after))
  | item {role before j j' after}
    (h : Rearranged fit (role.item (before ++ j :: after) before.length) j j') :
    Rearranged fit role (.array (before ++ j :: after)) (.array (before ++ j' :: after))

/-- An object is rearranged, and has no key twice afterwards. -/
abbrev Json.Restated : Role → Json → Json → Prop := Rearranged List.Nodup

namespace Role

def readNodes (nested : Bool) (j : Json) : Decoded (List NodeOutline) :=
  if nested then NodeOutline.readChildren j else OutlineDraft.topLevel j

/-- Nothing that is read from the values at this place tells them apart. -/
def ReadsAlike : Role → Json → Json → Prop
  | .tree, j, j' => Concur Eq (Tree.ofJson j) (Tree.ofJson j')
  | .config, j, j' => Concur Eq j.toConfig j'.toConfig
  | .nodes nested, j, j' =>
    Concur (List.Forall₂ NodeOutline.Alike) (readNodes nested j) (readNodes nested j')
  | .node nested, j, j' =>
    Concur NodeOutline.Alike (NodeOutline.ofJson nested j) (NodeOutline.ofJson nested j')
  | .props, j, j' => Concur SameProps (j.optional Json.toObject) (j'.optional Json.toObject)
  | .params, j, j' => Concur SameParams (j.optional Json.toObject) (j'.optional Json.toObject)
  | .value, j, j' => Concur Eq (Value.ofJson j) (Value.ofJson j')
  | .other, j, j' => j = j'

end Role

section

variable {fields fields' extra before after : JsonObject} {key : String} {j j' : Json}

theorem Expression.ofObject_rearranged (hp : (fields ++ extra).Perm fields')
    (hn : (fields'.map (·.1)).Nodup) (hx : ∀ f ∈ extra, f.1 ∉ reader.names) :
    Concur Eq (ofObject fields) (ofObject fields') :=
  ((reader.read_rearranged hp hn hx {}).next fun _ => .same _).mapError _

theorem Value.ofFields_changed (h : Concur Eq (ofJson j) (ofJson j')) :
    Concur Eq (ofFields (before ++ (key, j) :: after))
      (ofFields (before ++ (key, j') :: after)) := by
  rw [← List.forall₂_eq_eq_eq]
  refine Concur.changed (fun f : String × Json => ofJson f.2 >>= fun v => .ok (f.1, v))
    (fun f rest => ?_) (fun _ => rfl) (h.next fun _ => .same _) before after
  rw [ofFields, bind_assoc]
  rfl

theorem Value.ofItems_changed {before after : List Json} (h : Concur Eq (ofJson j) (ofJson j')) :
    Concur Eq (ofItems (before ++ j :: after)) (ofItems (before ++ j' :: after)) := by
  rw [← List.forall₂_eq_eq_eq]
  refine Concur.changed ofJson (fun j rest => ?_) (fun _ => rfl) h before after
  rw [ofItems]
  rfl

theorem NodeOutline.ofItems_changed {nested : Bool} {before after : List Json}
    (h : Concur Alike (ofJson nested j) (ofJson nested j')) :
    Concur (List.Forall₂ Alike) (ofItems nested (before ++ j :: after))
      (ofItems nested (before ++ j' :: after)) := by
  refine Concur.changed (ofJson nested) (fun j rest => ?_) Alike.refl h before after
  rw [ofItems]
  rfl

theorem NodeOutline.ofJson_concur {nested : Bool}
    (ht : fields'.lookup "_tag" = fields.lookup "_tag")
    (h : ∀ tag, NodeTag.of? nested fields = some tag →
      Concur NodeDraft.Alike ((NodeDraft.reader tag).read {} fields)
        ((NodeDraft.reader tag).read {} fields')) :
    Concur Alike (ofJson nested (.object fields)) (ofJson nested (.object fields')) := by
  rw [ofJson, ofJson, ht]
  cases hl : fields.lookup "_tag" with
  | none => exact .error _ _
  | some t =>
    cases htag : t.toTag nested with
    | error fault =>
      simp only [htag]
      exact .error _ _
    | ok tag =>
      have hof : NodeTag.of? nested fields = some tag := by
        rw [NodeTag.of?, hl, Option.bind_some, htag]
        rfl
      simp only [htag, readFields_eq]
      exact (h tag hof).bind fun _ _ hd => hd.finish tag _

theorem NodeOutline.ofArray_concur {nested : Bool} {t : Json} {items items' : List Json}
    (hlength : items'.length = items.length)
    (h : ∀ tag, t.toTag nested = .ok tag →
      Concur NodeDraft.Alike ((NodeDraft.reader tag).read {} (tag.fields.zip items))
        ((NodeDraft.reader tag).read {} (tag.fields.zip items'))) :
    Concur Alike (ofJson nested (.array (t :: items))) (ofJson nested (.array (t :: items'))) := by
  rw [ofJson, ofJson]
  cases htag : t.toTag nested with
  | error fault => exact .error _ _
  | ok tag =>
    show Concur _ (readItems tag tag.fields {} items >>= _)
      (readItems tag tag.fields {} items' >>= _)
    rw [readItems_eq tag _ fun _ hname => hname, readItems_eq tag _ fun _ hname => hname, hlength]
    refine (h tag htag).bind fun _ _ hd => (hd.finish tag _).bind fun _ _ hnode => ?_
    split
    · exact .error _ _
    · exact .ok hnode

theorem Tree.ofObject_concur
    (h : Concur OutlineDraft.Alike (OutlineDraft.reader.read {} fields)
      (OutlineDraft.reader.read {} fields')) :
    Concur Eq (ofJson (.object fields)) (ofJson (.object fields')) :=
  (h.bind fun _ _ hd => hd.finish .missingField).bind fun _ _ ho => ofOutline_concur ho

theorem Tree.ofArray_concur {items items' : List Json} (hlength : items'.length = items.length)
    (h : Concur OutlineDraft.Alike (OutlineDraft.reader.read {} (OutlineDraft.fields.zip items))
      (OutlineDraft.reader.read {} (OutlineDraft.fields.zip items'))) :
    Concur Eq (ofJson (.array items)) (ofJson (.array items')) := by
  refine Concur.bind ?_ fun _ _ ho => ofOutline_concur ho
  rw [Outline.ofJson, Outline.ofJson, hlength]
  refine h.bind fun _ _ hd => (hd.finish _).bind fun _ _ ho => ?_
  split
  · exact .error _ _
  · exact .ok ho

/-- A field of a node is read alike if its value is. -/
theorem NodeDraft.step_alike (tag : NodeTag) (h : (Role.inNode key).ReadsAlike j j') :
    Concur Alike (step tag {} key j) (step tag {} key j') := by
  rw [step, step]
  split
  · rw [Role.inNode] at h
    split
    · next hk =>
      rw [if_pos hk] at h
      exact Concur.bind h fun _ _ hc => .ok { Alike.refl {} with children := .some hc }
    · next hk =>
      rw [if_neg hk] at h
      split at h
      · next hk =>
        subst hk
        exact Concur.bind h fun _ _ hp => .ok { Alike.refl {} with props := hp }
      split at h
      · next hk =>
        subst hk
        exact Concur.bind h fun _ _ hp => .ok { Alike.refl {} with params := hp }
      · obtain rfl : j = j' := h
        exact .refl Alike.refl _
  · exact .ok (Alike.refl {})

theorem OutlineDraft.put_alike (h : (Role.inTree key).ReadsAlike j j') :
    Concur Alike (put {} key j) (put {} key j') := by
  have hstart : Alike {} {} := reader.alike_refl {}
  rw [Role.inTree] at h
  split at h
  · next hk =>
    subst hk
    exact Concur.next h fun config => .ok { hstart with config := rfl }
  split at h
  · next hk =>
    rcases hk with rfl | rfl
    · exact Concur.bind h fun _ _ hos => .ok { hstart with groups := hos }
    · exact Concur.bind h fun _ _ hos => .ok { hstart with navigators := .some hos }
  · obtain rfl : j = j' := h
    exact .refl reader.alike_refl _

/-- Params are read as any object is. -/
theorem Value.ofJson_object (fields : JsonObject) :
    ofJson (.object fields) = Params.ofObject fields >>= fun
      | .record r => .ok (.record r.entries)
      | .expression e => .ok (.expression e) := by
  rw [ofJson, Params.ofObject]
  split
  · rw [bind_assoc]
    rfl
  · rw [bind_assoc, Record.ofObject, bind_assoc]
    rfl

theorem SameProps.of_records (h : Concur Eq (Record.ofObject fields) (Record.ofObject fields')) :
    SameProps (some fields) (some fields') :=
  h.next fun _ => .same _

theorem SameParams.of_objects (h : Concur Eq (Params.ofObject fields) (Params.ofObject fields')) :
    SameParams (some fields) (some fields') :=
  h.next fun _ => .same _

theorem Record.ofObject_changed (h : Concur Eq (Value.ofJson j) (Value.ofJson j')) :
    Concur Eq (ofObject (before ++ (key, j) :: after)) (ofObject (before ++ (key, j') :: after)) :=
  (Value.ofFields_changed h).next fun _ => .same _

theorem Expression.isTagged_rearranged (hp : (fields ++ extra).Perm fields')
    (hn : (fields'.map (·.1)).Nodup) (hx : ∀ f ∈ extra, f.1 ≠ "_tag") :
    isTagged fields' = isTagged fields := by
  rw [isTagged, lookup_rearranged hp hn hx]
  rfl

theorem Json.Restated.not_text {role : Role} (h : Restated role j j') (text : String) :
    j ≠ .string text ∧ j' ≠ .string text := by
  cases h <;> exact ⟨nofun, nofun⟩

/-- A record may have its tag as a key, but no text changes, and only a text is a tag. -/
theorem Expression.isTagged_changed {role : Role} (h : Json.Restated role j j') :
    isTagged (before ++ (key, j') :: after) = isTagged (before ++ (key, j) :: after) := by
  rw [Bool.eq_iff_iff, isTagged_iff, isTagged_iff, Tagged, Tagged, List.lookup_append,
    List.lookup_append, List.lookup_cons, List.lookup_cons]
  cases before.lookup "_tag" with
  | some t => rfl
  | none =>
    cases "_tag" == key with
    | true => simp [h.not_text "Expression"]
    | false => rfl

theorem Params.ofObject_rearranged (ht : Expression.isTagged fields)
    (hp : (fields ++ extra).Perm fields') (hn : (fields'.map (·.1)).Nodup)
    (hx : ∀ f ∈ extra, f.1 ∉ Expression.reader.names ∧ f.1 ≠ "_tag") :
    Concur Eq (ofObject fields) (ofObject fields') := by
  have htag := Expression.isTagged_rearranged hp hn fun f hf => (hx f hf).2
  have hread := Expression.ofObject_rearranged hp hn fun f hf => (hx f hf).1
  rw [ofObject, ofObject, if_pos ht, if_pos (htag.trans ht)]
  exact hread.next fun _ => .same _

theorem Params.ofObject_changed {role : Role} (hj : Json.Restated role j j')
    (ht : ¬ Expression.isTagged (before ++ (key, j) :: after))
    (h : Concur Eq (Value.ofJson j) (Value.ofJson j')) :
    Concur Eq (ofObject (before ++ (key, j) :: after))
      (ofObject (before ++ (key, j') :: after)) := by
  rw [ofObject, ofObject, if_neg ht, if_neg (by rwa [Expression.isTagged_changed hj])]
  exact (Record.ofObject_changed h).next fun _ => .same _

theorem lookup_changed {name : String} (h : name ≠ key) :
    (before ++ (key, j') :: after).lookup name = (before ++ (key, j) :: after).lookup name := by
  rw [List.lookup_append, List.lookup_append, List.lookup_cons, List.lookup_cons,
    beq_eq_false_iff_ne.mpr h]

end

namespace Role

variable {role : Role} {j j' : Json}

theorem ReadsAlike.refl (role : Role) (j : Json) : role.ReadsAlike j j := by
  cases role with
  | tree | config | value => exact .same _
  | nodes _ => exact Concur.refl (fun os => List.forall₂_same.mpr fun o _ => .refl o) _
  | node _ => exact Concur.refl NodeOutline.Alike.refl _
  | props | params => exact Concur.refl (fun _ => .same _) _
  | other => rfl

section

variable {fields fields' extra before after : JsonObject} {key : String}

theorem readsAlike_rearranged {names : List String} (hnames : role.names? fields = some names)
    (hp : (fields ++ extra).Perm fields') (hn : (fields'.map (·.1)).Nodup)
    (hx : ∀ f ∈ extra, f.1 ∉ names ∧ f.1 ≠ "_tag") :
    role.ReadsAlike (.object fields) (.object fields') := by
  cases role with
  | tree =>
    cases hnames
    exact Tree.ofObject_concur
      (OutlineDraft.reader.read_rearranged hp hn (fun f hf => (hx f hf).1) {})
  | config =>
    cases hnames
    exact (Config.reader.read_rearranged hp hn (fun f hf => (hx f hf).1) {}).next fun _ => .same _
  | node nested =>
    cases hnames
    refine NodeOutline.ofJson_concur (lookup_rearranged hp hn fun f hf => (hx f hf).2) ?_
    intro tag ht
    rw [ht] at hx
    exact (NodeDraft.reader tag).read_rearranged hp hn (fun f hf => (hx f hf).1) {}
  | value =>
    obtain ⟨ht, hnames⟩ := Option.ite_none_right_eq_some.mp hnames
    cases hnames
    rw [ReadsAlike, Value.ofJson_object, Value.ofJson_object]
    exact (Params.ofObject_rearranged ht hp hn hx).next fun _ => .same _
  | params =>
    obtain ⟨ht, hnames⟩ := Option.ite_none_right_eq_some.mp hnames
    cases hnames
    exact .ok (.of_objects (Params.ofObject_rearranged ht hp hn hx))
  | nodes _ | props | other => cases hnames

theorem readsAlike_field {inner : Role} (hj : Json.Restated inner j j')
    (h : (role.field (before ++ (key, j) :: after) key).ReadsAlike j j') :
    role.ReadsAlike (.object (before ++ (key, j) :: after))
      (.object (before ++ (key, j') :: after)) := by
  cases role with
  | tree =>
    have hstart := OutlineDraft.reader.alike_refl {}
    exact Tree.ofObject_concur (OutlineDraft.reader.read_changed hstart (OutlineDraft.put_alike h))
  | node nested =>
    by_cases hk : "_tag" = key
    · subst hk
      obtain rfl : j = j' := h
      exact .refl _ _
    · exact NodeOutline.ofJson_concur (lookup_changed hk) fun tag _ =>
        (NodeDraft.reader tag).read_changed (.refl {}) (NodeDraft.step_alike tag h)
  | props => exact .ok (.of_records (Record.ofObject_changed h))
  | value =>
    rw [field] at h
    split at h
    · obtain rfl : j = j' := h
      exact .refl _ _
    · next ht =>
      rw [ReadsAlike, Value.ofJson_object, Value.ofJson_object]
      exact (Params.ofObject_changed hj ht h).next fun _ => .same _
  | params =>
    rw [field] at h
    split at h
    · obtain rfl : j = j' := h
      exact .refl _ _
    · next ht => exact .ok (.of_objects (Params.ofObject_changed hj ht h))
  | config | nodes _ | other =>
    obtain rfl : j = j' := h
    exact .refl _ _

end

theorem readsAlike_item {before after : List Json}
    (h : (role.item (before ++ j :: after) before.length).ReadsAlike j j') :
    role.ReadsAlike (.array (before ++ j :: after)) (.array (before ++ j' :: after)) := by
  have hlength : (before ++ j' :: after).length = (before ++ j :: after).length := by simp
  cases role with
  | tree =>
    refine Tree.ofArray_concur hlength ?_
    refine OutlineDraft.reader.read_zip_changed (OutlineDraft.reader.alike_refl {}) _ ?_
    intro key hk
    rw [item, hk] at h
    exact OutlineDraft.put_alike h
  | node nested =>
    cases before with
    | nil =>
      obtain rfl : j = j' := h
      exact .refl _ _
    | cons t before =>
      refine NodeOutline.ofArray_concur (Nat.succ.inj hlength) fun tag ht => ?_
      refine (NodeDraft.reader tag).read_zip_changed (.refl {}) _ fun key hk => ?_
      rw [List.cons_append, List.length_cons, item, ht] at h
      change (tag.fields[before.length]?.elim other inNode).ReadsAlike j j' at h
      rw [hk] at h
      exact NodeDraft.step_alike tag h
  | nodes nested => cases nested <;> exact NodeOutline.ofItems_changed h
  | value =>
    rw [ReadsAlike, Value.ofJson, Value.ofJson]
    exact (Value.ofItems_changed h).next fun _ => .same _
  | config | props | params | other =>
    obtain rfl : j = j' := h
    exact .refl _ _

end Role

/-- Rearranging one object changes nothing that is read. -/
theorem Json.Restated.readsAlike {role : Role} {j j' : Json} (h : Restated role j j') :
    role.ReadsAlike j j' := by
  induction h with
  | rearranged hnames hp hn hx => exact Role.readsAlike_rearranged hnames hp hn hx
  | field hj ih => exact Role.readsAlike_field hj ih
  | item _ ih => exact Role.readsAlike_item ih

/-- Inputs that differ by any number of rearrangements come to the same tree, or both to none. -/
theorem Tree.ofJson_restated {j j' : Json}
    (h : Relation.ReflTransGen (Json.Restated .tree) j j') (t : Tree) :
    ofJson j = .ok t ↔ ofJson j' = .ok t := by
  induction h with
  | refl => rfl
  | tail _ hstep ih => exact ih.trans (Concur.eq_ok_iff hstep.readsAlike)

namespace Json

variable {role : Role} {j j' : Json}

/-- An object has no key twice if that is so after further fields are added. -/
theorem Distinct.of_rearranged {fields extra fields' : JsonObject}
    (hd : (object fields').Distinct) (hp : (fields ++ extra).Perm fields') :
    (object fields).Distinct := by
  have hkept : ∀ f ∈ fields, f ∈ fields' := fun f hf => hp.subset (List.mem_append_left _ hf)
  refine ⟨?_, distinctFields_iff.mpr fun f hf => distinctFields_iff.mp hd.2 f (hkept f hf)⟩
  have hnodup : ((fields ++ extra).map (·.1)).Nodup := (hp.map _).nodup_iff.mpr hd.1
  rw [List.map_append] at hnodup
  exact hnodup.of_append_left

/-- Where the outcome has no key twice in an object, none was there before. -/
theorem Rearranged.restated (h : Rearranged (fun _ => True) role j j') (hd : j'.Distinct) :
    Restated role j j' ∧ j.Distinct := by
  induction h with
  | rearranged hnames hp _ hx => exact ⟨.rearranged hnames hp hd.1 hx, hd.of_rearranged hp⟩
  | @field role before key j j' after _ ih =>
    obtain ⟨hkeys, hfields⟩ := hd
    rw [distinctFields_iff, List.forall_mem_append, List.forall_mem_cons] at hfields
    obtain ⟨hbefore, hfield, hafter⟩ := hfields
    obtain ⟨hstep, hj⟩ := ih hfield
    refine ⟨.field hstep, by simpa using hkeys, ?_⟩
    rw [distinctFields_iff, List.forall_mem_append, List.forall_mem_cons]
    exact ⟨hbefore, hj, hafter⟩
  | item _ ih =>
    rw [Distinct, distinctItems_iff, List.forall_mem_append, List.forall_mem_cons] at hd
    obtain ⟨hbefore, hitem, hafter⟩ := hd
    obtain ⟨hstep, hj⟩ := ih hitem
    refine ⟨.item hstep, ?_⟩
    rw [Distinct, distinctItems_iff, List.forall_mem_append, List.forall_mem_cons]
    exact ⟨hbefore, hj, hafter⟩

end Json

/-- An input may be rearranged in any way to one that a text holds, as no text has a key twice in an
object. -/
theorem Tree.ofJson_rearranged_to_parse {text : String} {j j' : Json}
    (ht : Json.parse text = .ok j')
    (h : Relation.ReflTransGen (Json.Rearranged (fun _ => True) .tree) j j') (t : Tree) :
    ofJson j = .ok t ↔ ofJson j' = .ok t := by
  have hd : j'.Distinct := Json.parse_distinct ht
  clear ht
  -- From the end, for it is the distinct keys of what comes later that those before have.
  refine (Relation.ReflTransGen.head_induction_on (motive := fun i _ =>
    i.Distinct ∧ (ofJson i = .ok t ↔ ofJson j' = .ok t)) h ⟨hd, .rfl⟩ ?_).2
  intro i i' hstep _ ⟨hd, ih⟩
  obtain ⟨hrestated, hd⟩ := hstep.restated hd
  exact ⟨hd, (Concur.eq_ok_iff hrestated.readsAlike).trans ih⟩

namespace Icon

/-- The fields from last to first, behind one that nothing reads. -/
def backwards (fields : JsonObject) (extra : String) : JsonObject :=
  (fields ++ [(extra, Json.null)]).reverse

theorem restated_backwards {role : Role} {fields : JsonObject} {extra : String}
    {names : List String} (hnames : role.names? fields = some names)
    (hn : (extra :: fields.map (·.1)).Nodup)
    (hx : extra ∉ names ∧ extra ≠ "_tag") :
    Json.Restated role (.object fields) (.object (backwards fields extra)) := by
  refine .rearranged hnames (List.reverse_perm _).symm ?_ fun f hf => ?_
  · rw [backwards, List.map_reverse, List.nodup_reverse, List.map_append]
    exact List.nodup_middle.mpr (by simpa using hn)
  · obtain rfl := List.mem_singleton.mp hf
    exact hx

def settings : JsonObject := [("path", .string "src")]

def icon : JsonObject := [("_tag", .string "Expression"), ("value", .string "HomeIcon")]

def screen (icon : JsonObject) : JsonObject :=
  [("_tag", .string "Screen"), ("name", .string "Home"),
    ("props", .object [("icon", .object icon)])]

def app (screen : JsonObject) : JsonObject :=
  [("_tag", .string "Navigator"), ("name", .string "App"), ("children", .array [.object screen])]

def input (settings screen : JsonObject) : JsonObject :=
  [("config", .object settings), ("navigators", .array [.object (app screen)])]

def plainJson : Json := .object (input settings (screen icon))

/-- Screens have no children, so that a field of that name is not looked into. -/
def backwardsJson : Json :=
  .object (backwards (input (backwards settings "root")
    (backwards (screen (backwards icon "size")) "children")) "version")

def config : Config := ⟨"src", true, none⟩

def outline : Outline where
  config := config
  groups := []
  navigators := [.navigator ⟨"App", none, none, none, none, none⟩
    [.screen ⟨"Home", none, none, none, some [("icon", .object icon)], none⟩]]

def tree : Tree where
  config := config
  groups := []
  navigators := [⟨⟨"App", false, false, none, .nativeStack, none, none, config⟩, [.screen {
    name := "Home", lazy := none, kind := .screen, path := none
    props := some ⟨[("icon", .expression ⟨"HomeIcon", none⟩)]⟩, params := none
    parent := .push none ⟨.navigator, "App", false, false⟩, config := config }]⟩]

theorem ofJson_plainJson : Tree.ofJson plainJson = .ok tree := by
  rw [Tree.ofJson, bind_eq_ok]
  exact ⟨outline, rfl, rfl⟩

variable {before after : JsonObject}

theorem input_of_settings (screen : JsonObject)
    (h : Json.Restated .config (.object before) (.object after)) :
    Json.Restated .tree (.object (input before screen)) (.object (input after screen)) := by
  have hfield : Json.Restated .tree
      (.object ([] ++ ("config", .object before) :: (input before screen).tail))
      (.object ([] ++ ("config", .object after) :: (input before screen).tail)) := .field h
  exact hfield

theorem input_of_screen (settings : JsonObject)
    (h : Json.Restated (.node true) (.object before) (.object after)) :
    Json.Restated .tree (.object (input settings before)) (.object (input settings after)) := by
  have hchildren : Json.Restated (.nodes true) (.array ([] ++ .object before :: []))
      (.array ([] ++ .object after :: [])) := .item h
  have happ : Json.Restated (.node false)
      (.object ((app before).take 2 ++ ("children", .array [.object before]) :: []))
      (.object ((app before).take 2 ++ ("children", .array [.object after]) :: [])) :=
    .field hchildren
  have hnavigators : Json.Restated (.nodes false) (.array ([] ++ .object (app before) :: []))
      (.array ([] ++ .object (app after) :: [])) := .item happ
  have hfield : Json.Restated .tree
      (.object ([("config", .object settings)] ++
        ("navigators", .array [.object (app before)]) :: []))
      (.object ([("config", .object settings)] ++
        ("navigators", .array [.object (app after)]) :: [])) := .field hnavigators
  exact hfield

theorem screen_of_icon (h : Json.Restated .value (.object before) (.object after)) :
    Json.Restated (.node true) (.object (screen before)) (.object (screen after)) := by
  have hprops : Json.Restated .props (.object ([] ++ ("icon", .object before) :: []))
      (.object ([] ++ ("icon", .object after) :: [])) := .field h
  have hfield : Json.Restated (.node true)
      (.object ((screen before).take 2 ++ ("props", .object [("icon", .object before)]) :: []))
      (.object ((screen before).take 2 ++ ("props", .object [("icon", .object after)]) :: [])) :=
    .field hprops
  exact hfield

theorem backwards_restates :
    Tree.ofJson plainJson = .ok tree ∧ Tree.ofJson backwardsJson = .ok tree := by
  have hicon : Json.Restated .value (.object icon) (.object (backwards icon "size")) :=
    restated_backwards rfl (by decide) (by decide)
  have hscreen : Json.Restated (.node true) (.object (screen (backwards icon "size")))
      (.object (backwards (screen (backwards icon "size")) "children")) :=
    restated_backwards rfl (by decide) (by decide)
  have hsettings : Json.Restated .config (.object settings) (.object (backwards settings "root")) :=
    restated_backwards rfl (by decide) (by decide)
  have hsteps : Relation.ReflTransGen (Json.Restated .tree) plainJson backwardsJson :=
    .head (input_of_screen _ (screen_of_icon hicon)) <| .head (input_of_screen _ hscreen) <|
      .head (input_of_settings _ hsettings) <|
      .single (restated_backwards rfl (by decide) (by decide))
  exact ⟨ofJson_plainJson, (Tree.ofJson_restated hsteps tree).mp ofJson_plainJson⟩

end Icon

end NavTree
