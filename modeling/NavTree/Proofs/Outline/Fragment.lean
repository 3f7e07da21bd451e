import NavTree.Outline.Value
import NavTree.Proofs.Result

/-! # Fragments in props and params

Open-ended data is refused for one reason only: an object that is tagged as a code fragment and is
none. The tagged objects are those met on the way down through records and lists; what lies below
one of them is not looked at.
-/
namespace NavTree

/-- The object is marked as a code fragment, whether or not it is one. -/
def Tagged (fields : JsonObject) : Prop := fields.lookup "_tag" = some (.string "Expression")

/-- The object has a text as its code, and as the import it needs nothing or two texts. -/
structure IsFragment (fields : JsonObject) : Prop where
  code : ∃ j, ("value", j) ∈ fields
  codeText : ∀ j, ("value", j) ∈ fields → ∃ s, j = .string s
  use : ∀ j, ("use", j) ∈ fields →
    j = .null ∨ ∃ symbol source, j = .array [.string symbol, .string source]

namespace Json

/-- A tagged object is met on the way down from a value, below no other one. -/
inductive Meets : Json → JsonObject → Prop
  | here {fields} (ht : Tagged fields) : Meets (.object fields) fields
  | item {items j fragment} (hj : j ∈ items) (h : Meets j fragment) : Meets (.array items) fragment
  | field {fields key j fragment} (ht : ¬ Tagged fields) (hj : (key, j) ∈ fields)
    (h : Meets j fragment) : Meets (.object fields) fragment

def Sound (j : Json) : Prop := ∀ fragment, j.Meets fragment → IsFragment fragment

/-- A record as a whole is no fragment, whatever its tag. -/
def SoundRecord (fields : JsonObject) : Prop := ∀ key j, (key, j) ∈ fields → j.Sound

theorem sound_object {fields : JsonObject} :
    (object fields).Sound ↔
      Tagged fields ∧ IsFragment fields ∨ ¬ Tagged fields ∧ SoundRecord fields := by
  constructor
  · intro h
    by_cases ht : Tagged fields
    · exact .inl ⟨ht, h fields (.here ht)⟩
    · exact .inr ⟨ht, fun _ _ hj fragment hm => h fragment (.field ht hj hm)⟩
  · rintro (⟨ht, hf⟩ | ⟨ht, hr⟩) fragment hm
    · cases hm with
      | here _ => exact hf
      | field hn _ _ => exact absurd ht hn
    · cases hm with
      | here hy => exact absurd hy ht
      | field _ hj h => exact hr _ _ hj fragment h

theorem sound_array {items : List Json} : (array items).Sound ↔ ∀ j ∈ items, j.Sound := by
  constructor
  · exact fun h j hj fragment hm => h fragment (.item hj hm)
  · intro h fragment hm
    cases hm with
    | item hj hm => exact h _ hj fragment hm

theorem toText_eq_ok {j : Json} {s : String} : j.toText = .ok s ↔ j = .string s := by
  cases j <;> simp [toText, mismatch]

theorem toPair_eq_ok {j : Json} {p : String × String} :
    j.toPair = .ok p ↔ j = .array [.string p.1, .string p.2] := by
  constructor
  · intro h
    cases j with
    | array items =>
      match items, h with
      | [], h => cases h
      | [a], h =>
        obtain ⟨_, _, h⟩ := bind_eq_ok.mp h
        cases h
      | a :: b :: rest, h =>
        obtain ⟨symbol, ha, h⟩ := bind_eq_ok.mp h
        obtain ⟨source, hb, h⟩ := bind_eq_ok.mp h
        rw [toText_eq_ok] at ha hb
        cases rest with
        | nil =>
          cases h
          rw [ha, hb]
        | cons c rest => cases h
    | _ => cases h
  · rintro rfl
    rfl

theorem optional_toPair_isOk {j : Json} : (∃ use, j.optional toPair = .ok use) ↔
    j = .null ∨ ∃ symbol source, j = .array [.string symbol, .string source] := by
  constructor
  · rintro ⟨use, h⟩
    by_cases hn : j = .null
    · exact .inl hn
    · have hread : (j.toPair).map some = .ok use := by
        cases j <;> first | exact absurd rfl hn | exact h
      cases hp : j.toPair with
      | error fault => simp [hp, Except.map] at hread
      | ok p => exact .inr ⟨p.1, p.2, toPair_eq_ok.mp hp⟩
  · rintro (rfl | ⟨symbol, source, rfl⟩)
    · exact ⟨none, rfl⟩
    · exact ⟨some (symbol, source), rfl⟩

end Json

namespace Expression

theorem isTagged_iff {fields : JsonObject} : isTagged fields = true ↔ Tagged fields := by
  rw [isTagged, Tagged]
  split
  · next name h => simp [h]
  · next h =>
    constructor
    · intro hf
      cases hf
    · exact fun hl => absurd hl (h "Expression")

end Expression

namespace ExpressionDraft

variable {d d' : ExpressionDraft} {fields : JsonObject}

theorem put_isOk {key : String} {j : Json} : (∃ d', d.put key j = .ok d') ↔
    (key = "value" → ∃ s, j = .string s) ∧
      (key = "use" → j = .null ∨ ∃ symbol source, j = .array [.string symbol, .string source]) := by
  rw [put]
  by_cases hv : key = "value"
  · subst hv
    simp [exists_map_ok, Json.toText_eq_ok]
  · by_cases hu : key = "use"
    · subst hu
      simp [exists_map_ok, Json.optional_toPair_isOk]
    · simp [hv, hu]

theorem put_code {key : String} {j : Json} (h : d.put key j = .ok d') :
    d'.code.isSome ↔ key = "value" ∨ d.code.isSome := by
  rw [put] at h
  split at h
  · next hv =>
    obtain ⟨code, _, h⟩ := bind_eq_ok.mp h
    cases h
    simp [hv]
  · next hv =>
    split at h
    · obtain ⟨use, _, h⟩ := bind_eq_ok.mp h
      cases h
      simp [hv]
    · cases h
      simp [hv]

/-- Every field is read by itself. -/
theorem foldlM_isOk : (∃ d', fields.foldlM (fun d f => d.put f.1 f.2) d = .ok d') ↔
    ∀ f ∈ fields, ∃ d', put {} f.1 f.2 = .ok d' := by
  induction fields generalizing d with
  | nil => simp
  | cons f rest ih =>
    have hput : (∃ d', put {} f.1 f.2 = .ok d') ↔ ∃ d', d.put f.1 f.2 = .ok d' := by
      rw [put_isOk, put_isOk]
    rw [List.forall_mem_cons, hput]
    simp only [List.foldlM_cons, bind_eq_ok]
    constructor
    · rintro ⟨d', d₁, h₁, h⟩
      exact ⟨⟨d₁, h₁⟩, ih.mp ⟨d', h⟩⟩
    · rintro ⟨⟨d₁, h₁⟩, h⟩
      obtain ⟨d', h⟩ := ih.mpr h
      exact ⟨d', d₁, h₁, h⟩

theorem foldlM_code (h : fields.foldlM (fun d f => put d f.1 f.2) d = .ok d') :
    d'.code.isSome ↔ d.code.isSome ∨ ∃ j, ("value", j) ∈ fields := by
  induction fields generalizing d with
  | nil =>
    cases h
    simp
  | cons f rest ih =>
    obtain ⟨key, j⟩ := f
    obtain ⟨d₁, h₁, h⟩ := bind_eq_ok.mp h
    rw [ih h, put_code h₁]
    simp only [List.mem_cons, Prod.mk.injEq, exists_or, exists_and_left, exists_eq, and_true]
    rw [@eq_comm _ "value" key, or_assoc, or_left_comm]

end ExpressionDraft

theorem Expression.ofObject_isOk {fields : JsonObject} :
    (∃ e, Expression.ofObject fields = .ok e) ↔ IsFragment fields := by
  have hfields : (∀ f ∈ fields, ∃ d', ExpressionDraft.put {} f.1 f.2 = .ok d') ↔
      (∀ j, ("value", j) ∈ fields → ∃ s, j = .string s) ∧
        ∀ j, ("use", j) ∈ fields →
          j = .null ∨ ∃ symbol source, j = .array [.string symbol, .string source] := by
    simp only [ExpressionDraft.put_isOk]
    constructor
    · exact fun h => ⟨fun j hj => (h _ hj).1 rfl, fun j hj => (h _ hj).2 rfl⟩
    · rintro ⟨hv, hu⟩ ⟨key, j⟩ hj
      constructor
      · rintro rfl
        exact hv j hj
      · rintro rfl
        exact hu j hj
  rw [Expression.ofObject, exists_mapError_ok]
  constructor
  · rintro ⟨e, h⟩
    obtain ⟨d, hd, h⟩ := bind_eq_ok.mp h
    obtain ⟨hv, hu⟩ := hfields.mp (ExpressionDraft.foldlM_isOk.mp ⟨d, hd⟩)
    have hcode : d.code.isSome := by
      cases hc : d.code with
      | some code => rfl
      | none => simp [hc] at h
    exact ⟨by simpa using (ExpressionDraft.foldlM_code hd).mp hcode, hv, hu⟩
  · rintro ⟨hc, hv, hu⟩
    obtain ⟨d, hd⟩ := ExpressionDraft.foldlM_isOk.mpr (hfields.mpr ⟨hv, hu⟩)
    obtain ⟨code, hcode⟩ := Option.isSome_iff_exists.mp
      ((ExpressionDraft.foldlM_code hd).mpr (.inr hc))
    exact ⟨⟨code, d.use⟩, bind_eq_ok.mpr ⟨d, hd, by simp [hcode]⟩⟩

namespace Value

theorem sound_of_no_entries {j : Json} (ha : ∀ items, j ≠ .array items)
    (ho : ∀ fields, j ≠ .object fields) : j.Sound := by
  intro fragment hm
  cases hm with
  | here _ => exact absurd rfl (ho _)
  | item _ _ => exact absurd rfl (ha _)
  | field _ _ _ => exact absurd rfl (ho _)

mutual

/-- A value is read exactly if every tagged object met in it is a fragment. -/
theorem ofJson_isOk : ∀ j : Json, (∃ v, ofJson j = .ok v) ↔ j.Sound
  | .null => iff_of_true ⟨.null, rfl⟩ (sound_of_no_entries (by simp) (by simp))
  | .bool b => iff_of_true ⟨.boolean b, rfl⟩ (sound_of_no_entries (by simp) (by simp))
  | .number n => iff_of_true ⟨.number n, rfl⟩ (sound_of_no_entries (by simp) (by simp))
  | .string s => iff_of_true ⟨.string s, rfl⟩ (sound_of_no_entries (by simp) (by simp))
  | .array items => by
    rw [Json.sound_array, ← ofItems_isOk items, ofJson, bind_pure_comp, exists_map_ok]
  | .object fields => by
    rw [Json.sound_object, ← ofFields_isOk fields, ofJson]
    by_cases ht : Tagged fields
    · rw [if_pos (Expression.isTagged_iff.mpr ht), bind_pure_comp, exists_map_ok,
        Expression.ofObject_isOk]
      simp [ht]
    · rw [if_neg (mt Expression.isTagged_iff.mp ht), bind_pure_comp, exists_map_ok]
      simp [ht]

theorem ofItems_isOk : ∀ items : List Json, (∃ vs, ofItems items = .ok vs) ↔ ∀ j ∈ items, j.Sound
  | [] => by simp [ofItems]
  | j :: rest => by
    rw [List.forall_mem_cons, ← ofJson_isOk j, ← ofItems_isOk rest, ofItems, exists_bind_ok]
    simp only [bind_pure_comp, exists_map_ok, exists_and_right]

theorem ofFields_isOk : ∀ fields : JsonObject,
    (∃ vs, ofFields fields = .ok vs) ↔ Json.SoundRecord fields
  | [] => by simp [ofFields, Json.SoundRecord]
  | (key, j) :: rest => by
    have hrecord : Json.SoundRecord ((key, j) :: rest) ↔ j.Sound ∧ Json.SoundRecord rest := by
      simp [Json.SoundRecord, or_imp, forall_and]
    rw [hrecord, ← ofJson_isOk j, ← ofFields_isOk rest, ofFields, exists_bind_ok]
    simp only [bind_pure_comp, exists_map_ok, exists_and_right]

end

end Value

theorem Record.ofObject_isOk {fields : JsonObject} :
    (∃ r, Record.ofObject fields = .ok r) ↔ Json.SoundRecord fields := by
  rw [Record.ofObject, bind_pure_comp, exists_map_ok, Value.ofFields_isOk]

theorem Params.ofObject_isOk {fields : JsonObject} :
    (∃ p, Params.ofObject fields = .ok p) ↔ (Json.object fields).Sound := by
  rw [Json.sound_object, Params.ofObject]
  by_cases ht : Tagged fields
  · rw [if_pos (Expression.isTagged_iff.mpr ht), bind_pure_comp, exists_map_ok,
      Expression.ofObject_isOk]
    simp [ht]
  · rw [if_neg (mt Expression.isTagged_iff.mp ht), bind_pure_comp, exists_map_ok,
      Record.ofObject_isOk]
    simp [ht]

end NavTree
