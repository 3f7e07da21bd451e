import NavTree.Proofs.Code.Members
import NavTree.Proofs.Code.Rendered

/-! # What is left of a record

Null values and lists have no code, and built code has no type either. Renderings pass over such
entries, at any depth of records, and over nothing else: every entry that is left becomes one
member, in its place. What is appended to the running list are the imports of the fragments that are
left, as often and in the order in which they stand in the text.
-/
namespace NavTree

namespace Value

def isCodeless : Value → Bool
  | .null | .list _ => true
  | _ => false

def isTypeless : Value → Bool
  | .null | .list _ | .code _ => true
  | _ => false

theorem code?_eq_none_iff (v : Value) : v.code? = none ↔ v.isCodeless = true := by
  cases v <;> simp [code?, isCodeless]

theorem type?_eq_none_iff (v : Value) : v.type? = none ↔ v.isTypeless = true := by
  cases v <;> simp [type?, isTypeless]

end Value

/-- The record without the entries whose value is dropped, at any depth. -/
def Record.pruned (drops : Value → Bool) (r : Record) : Record := ⟨Value.prunedOf drops r.entries⟩

namespace ShapeCall

/-- The call on what is left of its argument. -/
def pruned : ShapeCall → ShapeCall
  | value v => value (v.pruned Value.isCodeless)
  | attributes r => attributes (r.pruned Value.isCodeless)
  | object r => object (r.pruned Value.isCodeless)
  | type (.record r) => type (.record (r.pruned Value.isTypeless))
  | type (.expression e) => type (.expression e)

/-- The expressions in the argument of a call. -/
def fragments : ShapeCall → List Expression
  | value v => v.fragments
  | attributes r => Value.fragmentsOf r.entries
  | object r => Value.fragmentsOf r.entries
  | type p => p.fragments

end ShapeCall

/-- Everything an answer says, one attribute behind the other. -/
def ShapeAnswer.allText : ShapeAnswer → String
  | value code => code.getD ""
  | attributes as => " ".intercalate (as.map Attribute.text)
  | text code => code

/-- The answer has one member for each entry of the argument, in the same order, and it is made from
the key and from what the value renders to. -/
inductive ShapeCall.Lists : ShapeCall → ShapeAnswer → Prop
  | nothing {v : Value} : v.isCodeless = true → Lists (.value v) (.value none)
  | value {v : Value} {c : Spliced String} : v.isCodeless = false → v.code? = some c →
      Lists (.value v) (.value (some c.code))
  | attributes {r : Record} {as : List Attribute} :
      List.Forall₂ (fun e a => ∃ c, e.2.code? = some c ∧ a = ⟨e.1, c.code⟩) r.entries as →
      Lists (.attributes r) (.attributes as)
  | object {r : Record} {ps : List String} :
      List.Forall₂ (fun e p => ∃ c, e.2.code? = some c ∧ p = Value.property e.1 c.code)
        r.entries ps →
      Lists (.object r) (.text (braced ", " ps))
  | typeLiteral {r : Record} {ss : List String} :
      List.Forall₂ (fun e s => ∃ t, e.2.type? = some t ∧ s = Value.signature e.1 t.code)
        r.entries ss →
      Lists (.type (.record r)) (.text (braced " " ss))
  | typeName (e : Expression) : Lists (.type (.expression e)) (.text e.code)

namespace ShapeCall

open Value (code?_isRendering type?_isRendering code?_eq_none_iff type?_eq_none_iff)

theorem spliced_pruned (call : ShapeCall) : call.pruned.spliced = call.spliced := by
  have hcode : ∀ v : Value, v.isCodeless = true → v.code? = none :=
    fun v hv => (code?_eq_none_iff v).mpr hv
  have htype : ∀ v : Value, v.isTypeless = true → v.type? = none :=
    fun v hv => (type?_eq_none_iff v).mpr hv
  cases call with
  | value v => simp only [pruned, spliced, code?_isRendering.pruned hcode]
  | attributes r =>
    simp only [pruned, spliced, Record.attributes, Record.pruned, Record.attributesOf_eq,
      code?_isRendering.members_pruned hcode]
  | object r =>
    simp only [pruned, spliced, Record.object, Record.pruned, Value.properties_eq,
      code?_isRendering.members_pruned hcode]
  | type p =>
    cases p with
    | record r =>
      simp only [pruned, spliced, Params.typeCode, Record.typeLiteral, Record.pruned,
        Value.signatures_eq, type?_isRendering.members_pruned htype]
    | expression e => rfl

theorem uses_eq (call : ShapeCall) :
    call.spliced.uses = call.fragments.filterMap Expression.use := by
  cases call with
  | value v =>
    have hv : RendersAll v.code? v.fragments := v.code?_rendersAll
    simp only [spliced, fragments]
    cases hc : v.code? with
    | none =>
      rw [hc] at hv
      rw [hv]
      rfl
    | some c =>
      rw [hc] at hv
      exact hv.uses_eq
  | attributes r =>
    simp only [spliced, fragments, Record.attributes, Record.attributesOf_eq]
    exact Value.members_uses Value.code?_rendersAll r.entries
  | object r => exact (Value.properties_splice r.entries).uses_eq
  | type p => exact p.typeCode_splices.uses_eq

theorem threads (call : ShapeCall) : Threads call.fragments call.spliced.code.allText := by
  cases call with
  | value v =>
    simp only [spliced, fragments, ShapeAnswer.allText]
    cases hc : v.code? with
    | none =>
      rw [code?_isRendering.fragments_of_none hc]
      exact .nil _
    | some c => exact code?_isRendering.threads v c hc
  | attributes r =>
    simp only [spliced, fragments, Record.attributes, Record.attributesOf_eq, ShapeAnswer.allText]
    exact code?_isRendering.members_thread " " Attribute.text
      (fun key code => ⟨key ++ "=\x7b", "\x7d", rfl⟩) (code?_isRendering.threads_all r.entries)
  | object r => exact code?_isRendering.threads (.record r.entries) r.object rfl
  | type p =>
    cases p with
    | record r => exact type?_isRendering.threads (.record r.entries) r.typeLiteral rfl
    | expression e => exact .single e

theorem pruned_lists (call : ShapeCall) : call.pruned.Lists call.pruned.spliced.code := by
  have hcode : ∀ r : Record, ∀ e ∈ Value.prunedOf Value.isCodeless r.entries, e.2.code? ≠ none :=
    fun _ => code?_isRendering.prunedOf_ne_none code?_eq_none_iff
  cases call with
  | value v =>
    have hnone : (v.pruned Value.isCodeless).code? = none ↔ _ := code?_eq_none_iff _
    simp only [pruned, spliced]
    cases hc : (v.pruned Value.isCodeless).code? with
    | none => exact .nothing (hnone.mp hc)
    | some c =>
      refine .value ?_ hc
      rw [← Bool.not_eq_true, ← hnone, hc]
      exact Option.some_ne_none c
  | attributes r =>
    simp only [pruned, spliced, Record.attributes, Record.attributesOf_eq]
    exact .attributes (Value.members_forall₂ (hcode r))
  | object r =>
    simp only [pruned, spliced, Record.object, Value.properties_eq]
    exact .object (Value.members_forall₂ (hcode r))
  | type p =>
    cases p with
    | record r =>
      have htype : ∀ e ∈ Value.prunedOf Value.isTypeless r.entries, e.2.type? ≠ none :=
        type?_isRendering.prunedOf_ne_none type?_eq_none_iff
      simp only [pruned, spliced, Params.typeCode, Record.typeLiteral, Value.signatures_eq]
      exact .typeLiteral (Value.members_forall₂ htype)
    | expression e => exact .typeName e

/-- A call erases the entries without a rendering and nothing else, whatever the running list holds:
each entry that is left is listed once, and the imports of the fragments that are left are appended
as they stand in the answer. -/
structure Erases (call : ShapeCall) : Prop where
  same : ∀ imports, call.run.run imports = call.pruned.run.run imports
  lists : ∀ imports, call.pruned.Lists (call.run.run imports).1
  threads : ∀ imports, Threads call.pruned.fragments (call.run.run imports).1.allText
  appends : ∀ imports, (call.run.run imports).2 =
    imports ++ call.pruned.fragments.filterMap Expression.use

theorem erases (call : ShapeCall) : call.Erases := by
  have hrun : ∀ imports, call.run.run imports =
      (call.pruned.spliced.code, imports ++ call.pruned.spliced.uses) := by
    rw [spliced_pruned]
    exact call.run_yields
  refine ⟨fun imports => ?_, fun imports => ?_, fun imports => ?_, fun imports => ?_⟩
  · rw [hrun, call.pruned.run_yields imports]
  · rw [hrun]
    exact call.pruned_lists
  · rw [hrun]
    exact call.pruned.threads
  · rw [hrun, call.pruned.uses_eq]

/-- After any calls the running list holds what was there and what each of the calls surfaced. -/
theorem runAll_surfaces (calls : List ShapeCall) (imports : List Import) :
    (∀ call : ShapeCall, call.Erases) ∧
    (runAll calls).run imports = (calls.map fun call => (call.run.run []).1,
      imports ++ calls.flatMap fun call => (call.run.run []).2) := by
  have halone : ∀ call : ShapeCall, call.run.run [] = (call.spliced.code, call.spliced.uses) :=
    fun call => call.run_yields []
  refine ⟨erases, ?_⟩
  rw [runAll_yields calls imports]
  simp only [halone]

end ShapeCall

end NavTree
