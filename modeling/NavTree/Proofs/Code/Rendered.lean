import NavTree.Code.Rendering
import NavTree.Proofs.Code.Fragments

/-! # What renderings yield

A rendering answers the code of its value and appends what the value uses to the running list,
whatever stands there already. So the list that remains after some renderings is put together from
what each of them uses.
-/
namespace NavTree

/-- The rendering answers the code and appends the uses. -/
def Rendering.Yields {α : Type} (x : Rendering α) (c : Spliced α) : Prop :=
  ∀ imports : List Import, x.run imports = (c.code, imports ++ c.uses)

namespace Rendering.Yields

variable {α β : Type} {x : Rendering α} {code : α} {uses others : List Import}

theorem pure (code : α) : Yields (Pure.pure code) ⟨code, []⟩ := by
  intro imports
  rw [List.append_nil]
  rfl

theorem bind {f : α → Rendering β} {answer : β} (hx : x.Yields ⟨code, uses⟩)
    (hf : (f code).Yields ⟨answer, others⟩) : (x >>= f).Yields ⟨answer, uses ++ others⟩ := by
  intro imports
  have hrun : (x >>= f).run imports = (f (x.run imports).1).run (x.run imports).2 := rfl
  rw [hrun, hx imports, hf (imports ++ uses), List.append_assoc]

theorem map (hx : x.Yields ⟨code, uses⟩) (f : α → β) :
    (do return f (← x)).Yields ⟨f code, uses⟩ := by
  have h : (do return f (← x)).Yields ⟨f code, uses ++ []⟩ := hx.bind (.pure (f code))
  rwa [List.append_nil] at h

end Rendering.Yields

/-- What may have no code, as an answer that always comes. -/
def Spliced.ofOption {α : Type} : Option (Spliced α) → Spliced (Option α)
  | some c => ⟨some c.code, c.uses⟩
  | none => ⟨none, []⟩

open Rendering (Yields)

/-- A member in front of others, which a value without code does not have. -/
def Spliced.before {α : Type} (make : String → α) (c? : Option (Spliced String))
    (others : Spliced (List α)) : Spliced (List α) :=
  match c? with
  | some c => ⟨make c.code :: others.code, c.uses ++ others.uses⟩
  | none => others

/-- A member is rendered before those behind it. -/
theorem Rendering.Yields.member {α : Type} {x : Rendering (Option String)}
    {c? : Option (Spliced String)} {y : Rendering (List α)} {others : Spliced (List α)}
    (make : String → α) (hx : x.Yields (.ofOption c?)) (hy : y.Yields others) :
    (do
      let code ← x
      let others ← y
      return (code.map make).toList ++ others).Yields (.before make c? others) := by
  cases c? with
  | none => exact hx.bind (hy.map _)
  | some c => exact hx.bind (hy.map _)

theorem Expression.render_yields (e : Expression) : e.render.Yields e.splice := by
  intro imports
  rcases e with ⟨code, _ | use⟩
  · show (code, imports) = (code, imports ++ [])
    rw [List.append_nil]
  · rfl

namespace Value

mutual

theorem render?_yields : ∀ v : Value, v.render?.Yields (.ofOption v.code?)
  | .expression e => by
    rw [render?, code?]
    exact e.render_yields.map some
  | .record entries => by
    rw [render?, code?]
    exact (renderProperties_yields entries).map fun ps => some (braced ", " ps)
  | .string _ | .number _ | .boolean _ | .code _ | .null | .list _ => by
    rw [render?, code?]
    exact .pure _

theorem renderProperties_yields : ∀ entries : List (String × Value),
    (renderProperties entries).Yields (properties entries)
  | [] => .pure []
  | (key, v) :: rest => by
    rw [renderProperties, properties]
    exact .member _ (render?_yields v) (renderProperties_yields rest)

end

mutual

theorem renderType?_yields : ∀ v : Value, v.renderType?.Yields (.ofOption v.type?)
  | .expression e => by
    rw [renderType?, type?]
    exact e.render_yields.map some
  | .record entries => by
    rw [renderType?, type?]
    exact (renderSignatures_yields entries).map fun ss => some (braced " " ss)
  | .string _ | .number _ | .boolean _ | .code _ | .null | .list _ => by
    rw [renderType?, type?]
    exact .pure _

theorem renderSignatures_yields : ∀ entries : List (String × Value),
    (renderSignatures entries).Yields (signatures entries)
  | [] => .pure []
  | (key, v) :: rest => by
    rw [renderSignatures, signatures]
    exact .member _ (renderType?_yields v) (renderSignatures_yields rest)

end

end Value

namespace Record

theorem renderAttributesOf_yields (entries : List (String × Value)) :
    (renderAttributesOf entries).Yields (attributesOf entries) := by
  induction entries with
  | nil => exact .pure []
  | cons e rest ih =>
    obtain ⟨key, v⟩ := e
    rw [renderAttributesOf, attributesOf]
    exact .member _ v.render?_yields ih

variable (r : Record)

theorem renderAttributes_yields : r.renderAttributes.Yields r.attributes :=
  renderAttributesOf_yields r.entries

theorem renderObject_yields : r.renderObject.Yields r.object :=
  (Value.renderProperties_yields r.entries).map (braced ", ")

theorem renderTypeLiteral_yields : r.renderTypeLiteral.Yields r.typeLiteral :=
  (Value.renderSignatures_yields r.entries).map (braced " ")

end Record

theorem Params.renderType_yields (p : Params) : p.renderType.Yields p.typeCode := by
  cases p with
  | record r => exact r.renderTypeLiteral_yields
  | expression e => exact e.render_yields

namespace ShapeCall

/-- What a call answers and uses, on its own. -/
def spliced : ShapeCall → Spliced ShapeAnswer
  | value v => let c := Spliced.ofOption v.code?; ⟨.value c.code, c.uses⟩
  | attributes r => ⟨.attributes r.attributes.code, r.attributes.uses⟩
  | object r => ⟨.text r.object.code, r.object.uses⟩
  | type p => ⟨.text p.typeCode.code, p.typeCode.uses⟩

theorem run_yields (call : ShapeCall) : call.run.Yields call.spliced := by
  cases call with
  | value v => exact v.render?_yields.map ShapeAnswer.value
  | attributes r => exact r.renderAttributes_yields.map ShapeAnswer.attributes
  | object r => exact r.renderObject_yields.map ShapeAnswer.text
  | type p => exact p.renderType_yields.map ShapeAnswer.text

theorem runAll_yields (calls : List ShapeCall) :
    (runAll calls).Yields ⟨calls.map (·.spliced.code), calls.flatMap (·.spliced.uses)⟩ := by
  induction calls with
  | nil => exact .pure []
  | cons call rest ih => exact call.run_yields.bind (ih.map (call.spliced.code :: ·))

end ShapeCall

end NavTree
