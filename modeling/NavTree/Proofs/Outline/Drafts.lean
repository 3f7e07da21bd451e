import NavTree.Proofs.Outline.Fields
import NavTree.Proofs.Outline.Fragment
import NavTree.Proofs.Tree.Alike

/-! # The objects that are read field by field

Code fragments, settings, nodes and trees; all other objects keep the order of their fields.
-/
namespace NavTree

section

variable {δ : Type} {key key' name : String} {a b c : δ}

theorem ite_name_comm (h : key ≠ key') :
    (if key' = name then b else if key = name then a else c) =
      if key = name then a else if key' = name then b else c := by
  by_cases hk : key = name
  · rw [if_pos hk, if_neg fun hk' => h (hk.trans hk'.symm), if_pos hk]
  · rw [if_neg hk, if_neg hk]

theorem ite_related {R : δ → δ → Prop} {p : Prop} [Decidable p] {a' c' : δ} (ha : R a a')
    (hc : R c c') : R (if p then a else c) (if p then a' else c') := by
  split
  · exact ha
  · exact hc

end

def Expression.reader : FieldReader ExpressionDraft where
  names := ["value", "use"]
  start := {}
  put := ExpressionDraft.put
  take key e d :=
    { code := if key = "value" then e.code else d.code
      use := if key = "use" then e.use else d.use }
  Alike := Eq
  put_known := by
    intro key hk d j
    simp only [List.mem_cons, List.not_mem_nil, or_false] at hk
    rcases hk with rfl | rfl
    · cases hj : j.toText <;> simp [ExpressionDraft.put, hj, Except.map]
    · cases hj : j.optional Json.toPair <;> simp [ExpressionDraft.put, hj, Except.map]
  put_unknown := by
    intro key hk d j
    simp only [List.mem_cons, List.not_mem_nil, or_false, not_or] at hk
    rw [ExpressionDraft.put, if_neg hk.1, if_neg hk.2]
    rfl
  take_comm h d e e' := by simp only [ite_name_comm h]
  alike_refl d := rfl
  alike_take key he hd := by rw [he, hd]

def Config.reader : FieldReader ConfigDraft where
  names := ConfigDraft.fields
  start := {}
  put := ConfigDraft.put
  take key e d :=
    { path := if key = "path" then e.path else d.path
      lazy := if key = "lazy" then e.lazy else d.lazy
      template := if key = "template" then e.template else d.template }
  Alike := Eq
  put_known := by
    intro key hk d j
    simp only [ConfigDraft.fields, List.mem_cons, List.not_mem_nil, or_false] at hk
    rcases hk with rfl | rfl | rfl
    · cases hj : j.toText <;> simp [ConfigDraft.put, hj, Except.map]
    · cases hj : j.toBool <;> simp [ConfigDraft.put, hj, Except.map]
    · cases hj : j.optional Json.toTemplates <;> simp [ConfigDraft.put, hj, Except.map]
  put_unknown := by
    intro key hk d j
    simp only [ConfigDraft.fields, List.mem_cons, List.not_mem_nil, or_false, not_or] at hk
    rw [ConfigDraft.put, if_neg hk.1, if_neg hk.2.1, if_neg hk.2.2]
    rfl
  take_comm h d e e' := by simp only [ite_name_comm h]
  alike_refl d := rfl
  alike_take key he hd := by rw [he, hd]

namespace NodeDraft

/-- The step of the readers of nodes: children are nodes, all other fields are flat. -/
def step (tag : NodeTag) (d : NodeDraft) (key : String) (j : Json) : Decoded NodeDraft :=
  if key ∈ tag.fields then
    if key = "children" then do
      let children ← NodeOutline.readChildren j
      return { d with children := some children }
    else d.put tag key j
  else return d

structure Alike (d d' : NodeDraft) : Prop where
  name : d.name = d'.name
  exported : d.exported = d'.exported
  root : d.root = d'.root
  lazy : d.lazy = d'.lazy
  path : d.path = d'.path
  navigatorKind : d.navigatorKind = d'.navigatorKind
  screenKind : d.screenKind = d'.screenKind
  props : SameProps d.props d'.props
  params : SameParams d.params d'.params
  children : Option.Rel (List.Forall₂ NodeOutline.Alike) d.children d'.children

theorem alike_children (children : Option (List NodeOutline)) :
    Option.Rel (List.Forall₂ NodeOutline.Alike) children children := by
  cases children with
  | none => exact .none
  | some children => exact .some (List.forall₂_same.mpr fun o _ => .refl o)

theorem Alike.refl (d : NodeDraft) : d.Alike d :=
  ⟨rfl, rfl, rfl, rfl, rfl, rfl, rfl, .same _, .same _, alike_children _⟩

/-- A node keeps one of two kinds, by its tag. -/
def take (tag : NodeTag) (key : String) (e d : NodeDraft) : NodeDraft where
  name := if key = "name" then e.name else d.name
  exported := if key = "export" then e.exported else d.exported
  root := if key = "root" then e.root else d.root
  lazy := if key = "lazy" then e.lazy else d.lazy
  path := if key = "path" then e.path else d.path
  navigatorKind := if key = "type" ∧ tag ≠ .screen then e.navigatorKind else d.navigatorKind
  screenKind := if key = "type" ∧ tag = .screen then e.screenKind else d.screenKind
  props := if key = "props" then e.props else d.props
  params := if key = "params" then e.params else d.params
  children := if key = "children" then e.children else d.children

theorem put_eq_take {key : String} (hk : key ≠ "children") (tag : NodeTag) (d : NodeDraft)
    (j : Json) : d.put tag key j = (put {} tag key j).map fun e => take tag key e d := by
  by_cases ht : key = "type"
  · subst ht
    cases tag with
    | screen => cases hj : j.optional Json.toScreenKind <;> simp [put, take, hj, Except.map]
    | _ => cases hj : j.optional Json.toNavigatorKind <;> simp [put, take, hj, Except.map]
  simp only [put, if_neg ht]
  split
  · next h => cases j.toText <;> simp [take, h, Except.map]
  split
  · next h => cases j.optional Json.toBool <;> simp [take, h, Except.map]
  split
  · next h => cases j.optional Json.toBool <;> simp [take, h, Except.map]
  split
  · next h => cases j.optional Json.toBool <;> simp [take, h, Except.map]
  split
  · next h => cases j.optional Json.toText <;> simp [take, h, Except.map]
  split
  · next h => cases j.optional Json.toObject <;> simp [take, h, Except.map]
  split
  · next h => cases j.optional Json.toObject <;> simp [take, h, Except.map]
  have hd : take tag key {} d = d := by simp [take, *]
  exact congrArg Except.ok hd.symm

theorem step_known {tag : NodeTag} {key : String} (hk : key ∈ tag.fields) (d : NodeDraft)
    (j : Json) : step tag d key j = (step tag {} key j).map fun e => take tag key e d := by
  rw [step, step, if_pos hk, if_pos hk]
  split
  · next h => cases NodeOutline.readChildren j <;> simp [take, h, Except.map]
  · next h => exact put_eq_take h tag d j

def reader (tag : NodeTag) : FieldReader NodeDraft where
  names := tag.fields
  start := {}
  put := step tag
  take := take tag
  Alike := Alike
  put_known := step_known
  put_unknown hk d j := by
    rw [step, if_neg hk]
    rfl
  take_comm h d e e' := by cases tag <;> simp [take, ite_name_comm h]
  alike_refl := Alike.refl
  alike_take key he hd :=
    ⟨ite_related he.name hd.name, ite_related he.exported hd.exported,
      ite_related he.root hd.root, ite_related he.lazy hd.lazy,
      ite_related he.path hd.path, ite_related he.navigatorKind hd.navigatorKind,
      ite_related he.screenKind hd.screenKind, ite_related he.props hd.props,
      ite_related he.params hd.params, ite_related he.children hd.children⟩

theorem Alike.finish {d d' : NodeDraft} (h : d.Alike d') (tag : NodeTag)
    (missing : String → DecodeFault) :
    Concur NodeOutline.Alike (d.finish tag missing) (d'.finish tag missing) := by
  obtain ⟨name, exported, root, lazy, path, navigatorKind, screenKind, props, params, children⟩ := d
  cases d'
  obtain ⟨hname, hexported, hroot, hlazy, hpath, hnavigator, hscreen, hprops, hparams, hc⟩ := h
  dsimp only at hname hexported hroot hlazy hpath hnavigator hscreen hprops hparams hc
  subst hname hexported hroot hlazy hpath hnavigator hscreen
  cases name with
  | none => exact .error _ _
  | some name =>
    cases tag with
    | screen =>
      exact .ok (.rewritten_screen ⟨name, lazy, screenKind, path, props, params⟩ hprops hparams)
    | group =>
      cases hc with
      | none => exact .error _ _
      | some hc => exact .ok (.rewritten_group ⟨name, path, props⟩ hprops hc)
    | navigator =>
      cases hc with
      | none => exact .error _ _
      | some hc =>
        exact .ok
          (.rewritten_navigator ⟨name, exported, root, path, navigatorKind, props⟩ hprops hc)

end NodeDraft

namespace NodeOutline

/-- The readers of nodes are the reader of their drafts. -/
theorem readFields_eq (tag : NodeTag) (d : NodeDraft) (fields : JsonObject) :
    readFields tag d fields = (NodeDraft.reader tag).read d fields := by
  induction fields generalizing d with
  | nil => rfl
  | cons f rest ih =>
    obtain ⟨key, j⟩ := f
    rw [readFields, FieldReader.read_cons]
    show _ = NodeDraft.step tag d key j >>= _
    rw [NodeDraft.step]
    simp only [ih]
    split
    · split
      · rw [bind_assoc]
        rfl
      · rfl
    · rfl

theorem readItems_eq (tag : NodeTag) (d : NodeDraft) {names : List String}
    (h : ∀ name ∈ names, name ∈ tag.fields) (items : List Json) :
    readItems tag names d items = (NodeDraft.reader tag).read d (names.zip items) := by
  induction names generalizing d items with
  | nil => cases items <;> rfl
  | cons name names ih =>
    obtain ⟨hname, hnames⟩ := List.forall_mem_cons.mp h
    cases items with
    | nil => rfl
    | cons j rest =>
      rw [readItems, List.zip_cons_cons, FieldReader.read_cons]
      show _ = NodeDraft.step tag d name j >>= _
      rw [NodeDraft.step, if_pos hname]
      simp only [fun d => ih d hnames]
      split
      · rw [bind_assoc]
        rfl
      · rfl

end NodeOutline

namespace OutlineDraft

structure Alike (d d' : OutlineDraft) : Prop where
  config : d.config = d'.config
  groups : List.Forall₂ NodeOutline.Alike d.groups d'.groups
  navigators : Option.Rel (List.Forall₂ NodeOutline.Alike) d.navigators d'.navigators

def take (key : String) (e d : OutlineDraft) : OutlineDraft where
  config := if key = "config" then e.config else d.config
  groups := if key = "groups" then e.groups else d.groups
  navigators := if key = "navigators" then e.navigators else d.navigators

def reader : FieldReader OutlineDraft where
  names := OutlineDraft.fields
  start := {}
  put := OutlineDraft.put
  take := take
  Alike := Alike
  put_known := by
    intro key hk d j
    simp only [OutlineDraft.fields, List.mem_cons, List.not_mem_nil, or_false] at hk
    rcases hk with rfl | rfl | rfl
    · cases hj : j.toConfig <;> simp [put, take, hj, Except.map]
    · cases hj : topLevel j <;> simp [put, take, hj, Except.map]
    · cases hj : topLevel j <;> simp [put, take, hj, Except.map]
  put_unknown := by
    intro key hk d j
    simp only [OutlineDraft.fields, List.mem_cons, List.not_mem_nil, or_false, not_or] at hk
    rw [put, if_neg hk.1, if_neg hk.2.1, if_neg hk.2.2]
    rfl
  take_comm h d e e' := by simp only [take, ite_name_comm h]
  alike_refl d := ⟨rfl, List.forall₂_same.mpr fun o _ => .refl o, NodeDraft.alike_children _⟩
  alike_take key he hd :=
    ⟨ite_related he.config hd.config, ite_related he.groups hd.groups,
      ite_related he.navigators hd.navigators⟩

theorem Alike.finish {d d' : OutlineDraft} (h : d.Alike d') (missing : String → DecodeFault) :
    Concur Outline.Alike (d.finish missing) (d'.finish missing) := by
  obtain ⟨config, groups, navigators⟩ := d
  obtain ⟨config', groups', navigators'⟩ := d'
  obtain ⟨hconfig, hgroups, hnavigators⟩ := h
  obtain rfl : config = config' := hconfig
  cases config with
  | none => exact .error _ _
  | some config =>
    cases hnavigators with
    | none => exact .error _ _
    | some hn => exact .ok ⟨rfl, hgroups, hn⟩

end OutlineDraft

end NavTree
