import NavTree.Proofs.Json.Distinct
import NavTree.Proofs.Keyed
import NavTree.Proofs.Outline.Fragment
import NavTree.Proofs.Tree.Record

/-! # Values keep what they are read from

Of an object tagged as a code fragment its code and its import are kept, and everything else of a
value is. Two values are told apart after reading exactly if they differ in what is kept.
-/
namespace NavTree

/-- What a tagged object is reduced to. The tag stays, since a record may have the same two other
fields; a missing import is none. -/
def Expression.kept (fields : JsonObject) : JsonObject :=
  [("_tag", .string "Expression"), ("value", (fields.lookup "value").getD .null),
    ("use", (fields.lookup "use").getD .null)]

namespace Json

mutual

/-- The value with its outermost tagged objects reduced to their code and their import. -/
def reduced : Json → Json
  | .array items => .array (reducedItems items)
  | .object fields =>
    if Expression.isTagged fields then .object (Expression.kept fields)
    else .object (reducedFields fields)
  | j => j

def reducedItems : List Json → List Json
  | [] => []
  | j :: rest => j.reduced :: reducedItems rest

def reducedFields : List (String × Json) → List (String × Json)
  | [] => []
  | (key, j) :: rest => (key, j.reduced) :: reducedFields rest

end

theorem lookup_reducedFields (key : String) (fields : JsonObject) :
    (reducedFields fields).lookup key = (fields.lookup key).map reduced := by
  induction fields with
  | nil => rfl
  | cons f rest ih =>
    rw [reducedFields, List.lookup_cons, List.lookup_cons, ih]
    split <;> rfl

theorem reduced_eq_string {j : Json} {s : String} : j.reduced = .string s ↔ j = .string s := by
  cases j with
  | object fields =>
    rw [reduced]
    split <;> simp
  | _ => simp [reduced]

/-- A record is not taken for a fragment once its fields are reduced. -/
theorem tagged_reducedFields {fields : JsonObject} :
    Tagged (reducedFields fields) ↔ Tagged fields := by
  rw [Tagged, Tagged, lookup_reducedFields]
  simp [Option.map_eq_some_iff, reduced_eq_string]

end Json

def Import.json : Option Import → Json
  | none => .null
  | some i => .array [.string i.symbol, .string i.source]

def Expression.json (e : Expression) : JsonObject :=
  [("_tag", .string "Expression"), ("value", .string e.code), ("use", Import.json e.use)]

namespace Value

mutual

/-- The value in its least form. Code is none of the values that are read. -/
def json : Value → Json
  | .null => .null
  | .boolean b => .bool b
  | .number n => .number n
  | .string s => .string s
  | .list items => .array (jsonItems items)
  | .record entries => .object (jsonEntries entries)
  | .expression e => .object e.json
  | .code text => .string text

def jsonItems : List Value → List Json
  | [] => []
  | v :: rest => v.json :: jsonItems rest

def jsonEntries : List (String × Value) → JsonObject
  | [] => []
  | (key, v) :: rest => (key, v.json) :: jsonEntries rest

end

/-- A value stands for a JSON value: lists item by item, records field by field, tagged objects as
code fragments. Nothing stands for code. -/
inductive Mirrors : Json → Value → Prop
  | null : Mirrors .null .null
  | boolean (b) : Mirrors (.bool b) (.boolean b)
  | number (n) : Mirrors (.number n) (.number n)
  | string (s) : Mirrors (.string s) (.string s)
  | list {items vs} (h : List.Forall₂ Mirrors items vs) : Mirrors (.array items) (.list vs)
  | record {fields entries} (ht : ¬ Tagged fields) (hkeys : fields.map (·.1) = entries.map (·.1))
    (h : List.Forall₂ Mirrors (fields.map (·.2)) (entries.map (·.2))) :
    Mirrors (.object fields) (.record entries)
  | expression {fields e} (ht : Tagged fields) (h : Expression.kept fields = e.json) :
    Mirrors (.object fields) (.expression e)

/-- A value is met in another one, at any depth. -/
inductive Meets : Value → Value → Prop
  | here (v) : Meets v v
  | item {items v w} (hv : v ∈ items) (h : Meets v w) : Meets (.list items) w
  | field {entries key v w} (hv : (key, v) ∈ entries) (h : Meets v w) : Meets (.record entries) w

theorem exists_of_forall₂ {js : List Json} {vs : List Value} (h : List.Forall₂ Mirrors js vs)
    {v : Value} (hv : v ∈ vs) : ∃ j, Mirrors j v := by
  induction h with
  | nil => cases hv
  | cons hj _ ih =>
    rcases List.mem_cons.mp hv with rfl | hv
    · exact ⟨_, hj⟩
    · exact ih hv

theorem Mirrors.meets {j : Json} {v w : Value} (h : Mirrors j v) (hw : v.Meets w) :
    ∃ i, Mirrors i w := by
  induction hw generalizing j with
  | here v => exact ⟨j, h⟩
  | item hv _ ih =>
    cases h with
    | list h =>
      obtain ⟨i, hi⟩ := exists_of_forall₂ h hv
      exact ih hi
  | field hv _ ih =>
    cases h with
    | record _ _ h =>
      obtain ⟨i, hi⟩ := exists_of_forall₂ h (List.mem_map_of_mem hv)
      exact ih hi

/-- No value that stands for a JSON value has code in it. -/
theorem Mirrors.codeless {j : Json} {v : Value} (h : Mirrors j v) (text : String) :
    ¬ v.Meets (.code text) := by
  intro hw
  obtain ⟨i, hi⟩ := h.meets hw
  cases hi

end Value

theorem Json.optional_toPair_eq_ok {j : Json} {p : Option (String × String)}
    (h : j.optional toPair = .ok p) : j = Import.json (p.map fun p => ⟨p.1, p.2⟩) := by
  by_cases hn : j = .null
  · subst hn
    cases h
    rfl
  · have hread : (j.toPair).map some = .ok p := by
      cases j <;> first | exact absurd rfl hn | exact h
    cases hp : j.toPair with
    | error fault => simp [hp, Except.map] at hread
    | ok pair =>
      rw [hp] at hread
      cases hread
      exact toPair_eq_ok.mp hp

namespace ExpressionDraft

variable {d d' : ExpressionDraft} {fields : JsonObject}

/-- Reading one field sets what the field is about. -/
theorem put_eq_ok {key : String} {j : Json} (h : d.put key j = .ok d') :
    d'.code.map .string = (if key = "value" then some j else d.code.map .string) ∧
      Import.json d'.use = if key = "use" then j else Import.json d.use := by
  rw [put] at h
  split at h
  · next hv =>
    obtain ⟨code, hcode, h⟩ := bind_eq_ok.mp h
    cases h
    simp [hv, Json.toText_eq_ok.mp hcode]
  · next hv =>
    split at h
    · next hu =>
      obtain ⟨use, huse, h⟩ := bind_eq_ok.mp h
      cases h
      simp [hu, Json.optional_toPair_eq_ok huse]
    · next hu =>
      cases h
      simp [hv, hu]

/-- Reading all fields of an object with distinct keys sets what is found under its keys. -/
theorem foldlM_eq_ok (hn : (fields.map (·.1)).Nodup)
    (h : fields.foldlM (fun d f => put d f.1 f.2) d = .ok d') :
    d'.code.map .string = (fields.lookup "value").or (d.code.map .string) ∧
      Import.json d'.use = (fields.lookup "use").getD (Import.json d.use) := by
  induction fields generalizing d with
  | nil =>
    cases h
    exact ⟨rfl, rfl⟩
  | cons f rest ih =>
    obtain ⟨key, j⟩ := f
    obtain ⟨hkey, hrest⟩ := List.nodup_cons.mp hn
    obtain ⟨d₁, h₁, h⟩ := bind_eq_ok.mp h
    obtain ⟨hcode, huse⟩ := ih hrest h
    obtain ⟨hcode₁, huse₁⟩ := put_eq_ok h₁
    rw [hcode, huse, hcode₁, huse₁, List.lookup_cons, List.lookup_cons]
    constructor
    · by_cases hv : key = "value"
      · subst hv
        simp [lookup_eq_none.mpr hkey]
      · simp [hv, beq_eq_false_iff_ne.mpr (Ne.symm hv)]
    · by_cases hu : key = "use"
      · subst hu
        simp [lookup_eq_none.mpr hkey]
      · simp [hu, beq_eq_false_iff_ne.mpr (Ne.symm hu)]

end ExpressionDraft

namespace Expression

theorem kept_eq_json {fields : JsonObject} {e : Expression} (hn : (fields.map (·.1)).Nodup)
    (h : ofObject fields = .ok e) : kept fields = e.json := by
  obtain ⟨d, hd, h⟩ := bind_eq_ok.mp (mapError_eq_ok.mp h)
  obtain ⟨hcode, huse⟩ := ExpressionDraft.foldlM_eq_ok hn hd
  cases hc : d.code with
  | none => simp [hc] at h
  | some code =>
    obtain rfl : ⟨code, d.use⟩ = e := by simpa [hc] using h
    have hvalue : fields.lookup "value" = some (.string code) := by simpa [hc] using hcode.symm
    have hnone : Import.json none = .null := rfl
    rw [kept, json, hvalue, huse, hnone]
    rfl

theorem ofObject_json (e : Expression) : ofObject e.json = .ok e := by
  obtain ⟨code, use⟩ := e
  cases use <;> rfl

theorem tagged_json (e : Expression) : Tagged e.json := rfl

end Expression

namespace Value

theorem keys_eq_of_ofFields : ∀ {fields : JsonObject} {entries : List (String × Value)},
    ofFields fields = .ok entries → fields.map (·.1) = entries.map (·.1)
  | [], _, h => by
    cases h
    rfl
  | (key, j) :: rest, _, h => by
    rw [ofFields] at h
    obtain ⟨v, _, h⟩ := bind_eq_ok.mp h
    obtain ⟨entries, hrest, h⟩ := bind_eq_ok.mp h
    cases h
    exact congrArg (key :: ·) (keys_eq_of_ofFields hrest)

mutual

/-- What is read stands for what it is read from. -/
theorem ofJson_mirrors : ∀ (j : Json) {v : Value}, j.Distinct → ofJson j = .ok v → Mirrors j v
  | .null, _, _, h => by
    cases h
    exact .null
  | .bool b, _, _, h => by
    cases h
    exact .boolean b
  | .number n, _, _, h => by
    cases h
    exact .number n
  | .string s, _, _, h => by
    cases h
    exact .string s
  | .array items, _, hd, h => by
    rw [ofJson] at h
    obtain ⟨vs, hvs, h⟩ := bind_eq_ok.mp h
    cases h
    exact .list (ofItems_mirror items hd hvs)
  | .object fields, _, hd, h => by
    rw [ofJson] at h
    split at h
    · next ht =>
      obtain ⟨e, he, h⟩ := bind_eq_ok.mp h
      cases h
      exact .expression (Expression.isTagged_iff.mp ht) (Expression.kept_eq_json hd.1 he)
    · next ht =>
      obtain ⟨entries, he, h⟩ := bind_eq_ok.mp h
      cases h
      have hkeys := keys_eq_of_ofFields he
      rw [Record.ofList_of_nodup (hkeys ▸ hd.1)]
      exact .record (mt Expression.isTagged_iff.mpr ht) hkeys (ofFields_mirror fields hd.2 he)

theorem ofItems_mirror : ∀ (items : List Json) {vs : List Value}, Json.DistinctItems items →
    ofItems items = .ok vs → List.Forall₂ Mirrors items vs
  | [], _, _, h => by
    cases h
    exact .nil
  | j :: rest, _, hd, h => by
    rw [ofItems] at h
    obtain ⟨v, hv, h⟩ := bind_eq_ok.mp h
    obtain ⟨vs, hvs, h⟩ := bind_eq_ok.mp h
    cases h
    exact .cons (ofJson_mirrors j hd.1 hv) (ofItems_mirror rest hd.2 hvs)

theorem ofFields_mirror : ∀ (fields : JsonObject) {entries : List (String × Value)},
    Json.DistinctFields fields → ofFields fields = .ok entries →
    List.Forall₂ Mirrors (fields.map (·.2)) (entries.map (·.2))
  | [], _, _, h => by
    cases h
    exact .nil
  | (_, j) :: rest, _, hd, h => by
    rw [ofFields] at h
    obtain ⟨v, hv, h⟩ := bind_eq_ok.mp h
    obtain ⟨entries, he, h⟩ := bind_eq_ok.mp h
    cases h
    exact .cons (ofJson_mirrors j hd.1 hv) (ofFields_mirror rest hd.2 he)

end

mutual

/-- The least form of a value is what its source is reduced to. -/
theorem reduced_of_mirrors : ∀ (j : Json) {v : Value}, Mirrors j v → j.reduced = v.json
  | _, _, .null => rfl
  | _, _, .boolean _ => rfl
  | _, _, .number _ => rfl
  | _, _, .string _ => rfl
  | .array items, _, .list h => by rw [Json.reduced, json, reducedItems_of_mirrors items h]
  | .object fields, _, .expression ht h => by
    rw [Json.reduced, if_pos (Expression.isTagged_iff.mpr ht), h, json]
  | .object fields, _, .record ht hkeys h => by
    rw [Json.reduced, if_neg (mt Expression.isTagged_iff.mp ht), json,
      reducedFields_of_mirrors fields hkeys h]

theorem reducedItems_of_mirrors : ∀ (items : List Json) {vs : List Value},
    List.Forall₂ Mirrors items vs → Json.reducedItems items = jsonItems vs
  | [], _, .nil => rfl
  | j :: rest, _, .cons hj hrest => by
    rw [Json.reducedItems, jsonItems, reduced_of_mirrors j hj, reducedItems_of_mirrors rest hrest]

theorem reducedFields_of_mirrors : ∀ (fields : JsonObject) {entries : List (String × Value)},
    fields.map (·.1) = entries.map (·.1) →
    List.Forall₂ Mirrors (fields.map (·.2)) (entries.map (·.2)) →
    Json.reducedFields fields = jsonEntries entries
  | [], [], _, _ => rfl
  | (key, j) :: rest, (first, v) :: entries, hkeys, .cons hj hrest => by
    obtain ⟨hkey, hkeys'⟩ := List.cons.inj hkeys
    obtain rfl : key = first := hkey
    rw [Json.reducedFields, jsonEntries, reduced_of_mirrors j hj,
      reducedFields_of_mirrors rest hkeys' hrest]

end

mutual

/-- What is left after reducing is read in the same way. -/
theorem ofJson_reduced : ∀ (j : Json) {v : Value}, j.Distinct → ofJson j = .ok v →
    ofJson j.reduced = .ok v
  | .null, _, _, h | .bool _, _, _, h | .number _, _, _, h | .string _, _, _, h => h
  | .array items, _, hd, h => by
    rw [ofJson] at h
    obtain ⟨vs, hvs, h⟩ := bind_eq_ok.mp h
    cases h
    rw [Json.reduced, ofJson, ofItems_reduced items hd hvs]
    rfl
  | .object fields, _, hd, h => by
    rw [ofJson] at h
    rw [Json.reduced]
    split at h
    · next ht =>
      obtain ⟨e, he, h⟩ := bind_eq_ok.mp h
      cases h
      rw [if_pos ht, Expression.kept_eq_json hd.1 he, ofJson,
        if_pos (Expression.isTagged_iff.mpr e.tagged_json), Expression.ofObject_json]
      rfl
    · next ht =>
      obtain ⟨entries, he, h⟩ := bind_eq_ok.mp h
      cases h
      have ht' : ¬ Expression.isTagged (Json.reducedFields fields) := by
        rwa [Expression.isTagged_iff, Json.tagged_reducedFields, ← Expression.isTagged_iff]
      rw [if_neg ht, ofJson, if_neg ht', ofFields_reduced fields hd.2 he]
      rfl

theorem ofItems_reduced : ∀ (items : List Json) {vs : List Value}, Json.DistinctItems items →
    ofItems items = .ok vs → ofItems (Json.reducedItems items) = .ok vs
  | [], _, _, h => h
  | j :: rest, _, hd, h => by
    rw [ofItems] at h
    obtain ⟨v, hv, h⟩ := bind_eq_ok.mp h
    obtain ⟨vs, hvs, h⟩ := bind_eq_ok.mp h
    cases h
    rw [Json.reducedItems, ofItems, ofJson_reduced j hd.1 hv, ofItems_reduced rest hd.2 hvs]
    rfl

theorem ofFields_reduced : ∀ (fields : JsonObject) {entries : List (String × Value)},
    Json.DistinctFields fields → ofFields fields = .ok entries →
    ofFields (Json.reducedFields fields) = .ok entries
  | [], _, _, h => h
  | (key, j) :: rest, _, hd, h => by
    rw [ofFields] at h
    obtain ⟨v, hv, h⟩ := bind_eq_ok.mp h
    obtain ⟨entries, he, h⟩ := bind_eq_ok.mp h
    cases h
    rw [Json.reducedFields, ofFields, ofJson_reduced j hd.1 hv, ofFields_reduced rest hd.2 he]
    rfl

end

section

variable {j₁ j₂ : Json} {v₁ v₂ : Value}

theorem eq_iff_reduced_eq (hd₁ : j₁.Distinct) (hd₂ : j₂.Distinct) (h₁ : ofJson j₁ = .ok v₁)
    (h₂ : ofJson j₂ = .ok v₂) : v₁ = v₂ ↔ j₁.reduced = j₂.reduced := by
  refine ⟨?_, fun hj => ?_⟩
  · rintro rfl
    have hm₁ := ofJson_mirrors j₁ hd₁ h₁
    have hm₂ := ofJson_mirrors j₂ hd₂ h₂
    rw [reduced_of_mirrors j₁ hm₁, reduced_of_mirrors j₂ hm₂]
  · have hread : ofJson j₁.reduced = .ok v₂ := by
      rw [hj]
      exact ofJson_reduced j₂ hd₂ h₂
    rw [ofJson_reduced j₁ hd₁ h₁] at hread
    exact Except.ok.inj hread

/-- Reading values loses nothing but what a fragment has besides its code and its import: two
values are read as the same exactly if they are reduced to the same. -/
theorem ofJson_lossless (hd₁ : j₁.Distinct) (hd₂ : j₂.Distinct)
    (h₁ : ofJson j₁ = .ok v₁) (h₂ : ofJson j₂ = .ok v₂) :
    (v₁ = v₂ ↔ j₁.reduced = j₂.reduced) ∧ Mirrors j₁ v₁ ∧ ∀ text, ¬ v₁.Meets (.code text) :=
  have hmirrors := ofJson_mirrors j₁ hd₁ h₁
  ⟨eq_iff_reduced_eq hd₁ hd₂ h₁ h₂, hmirrors, hmirrors.codeless⟩

/-- For values that stand in texts nothing is asked, as no text has a key twice in an object. -/
theorem ofJson_lossless_of_parse {text₁ text₂ : String} {i₁ i₂ : Json}
    (ht₁ : Json.parse text₁ = .ok i₁) (ht₂ : Json.parse text₂ = .ok i₂) (hi₁ : i₁.Has j₁)
    (hi₂ : i₂.Has j₂) (h₁ : ofJson j₁ = .ok v₁) (h₂ : ofJson j₂ = .ok v₂) :
    (v₁ = v₂ ↔ j₁.reduced = j₂.reduced) ∧ Mirrors j₁ v₁ ∧ ∀ text, ¬ v₁.Meets (.code text) :=
  have hd₁ : j₁.Distinct := (Json.parse_distinct ht₁).of_has hi₁
  have hd₂ : j₂.Distinct := (Json.parse_distinct ht₂).of_has hi₂
  have hmirrors := ofJson_mirrors j₁ hd₁ h₁
  ⟨eq_iff_reduced_eq hd₁ hd₂ h₁ h₂, hmirrors, hmirrors.codeless⟩

end

/-- A fragment in a list in a record; one spelling names no import and adds a field. -/
def iconJson (spelling : JsonObject) : Json :=
  .object [("icons", .array [.bool true, .object spelling]), ("_tag", .string "Icons")]

def iconValue : Value :=
  .record [("icons", .list [.boolean true, .expression ⟨"Icon", none⟩]), ("_tag", .string "Icons")]

def shortIcon : Json :=
  iconJson [("_tag", .string "Expression"), ("value", .string "Icon")]

def longIcon : Json :=
  iconJson [("size", .number (.natural 2)), ("use", .null), ("value", .string "Icon"),
    ("_tag", .string "Expression")]

theorem icons_lossless : shortIcon ≠ longIcon ∧ shortIcon.reduced = longIcon.reduced := by
  have hshort : shortIcon.Distinct := by
    simp [shortIcon, iconJson, Json.Distinct, Json.DistinctItems, Json.DistinctFields]
  have hlong : longIcon.Distinct := by
    simp [longIcon, iconJson, Json.Distinct, Json.DistinctItems, Json.DistinctFields]
  have hs : ofJson shortIcon = .ok iconValue := rfl
  have hl : ofJson longIcon = .ok iconValue := rfl
  exact ⟨by simp [shortIcon, longIcon, iconJson], (ofJson_lossless hshort hlong hs hl).1.mp rfl⟩

end Value

end NavTree
