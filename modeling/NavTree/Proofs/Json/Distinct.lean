import Mathlib.Data.List.Nodup
import NavTree.Json.Parser
import NavTree.Proofs.Result

/-! # Distinct keys

No object that is read from a text has a key twice, at any depth: a repeated key overwrites the
field that is already there.
-/
namespace NavTree

namespace Json

mutual

/-- No object in the value has a key twice. -/
def Distinct : Json → Prop
  | .array items => DistinctItems items
  | .object fields => (fields.map (·.1)).Nodup ∧ DistinctFields fields
  | _ => True

def DistinctItems : List Json → Prop
  | [] => True
  | j :: rest => j.Distinct ∧ DistinctItems rest

def DistinctFields : List (String × Json) → Prop
  | [] => True
  | (_, j) :: rest => j.Distinct ∧ DistinctFields rest

end

theorem distinctItems_iff {items : List Json} : DistinctItems items ↔ ∀ j ∈ items, j.Distinct := by
  induction items with
  | nil => simp [DistinctItems]
  | cons j rest ih => rw [DistinctItems, ih, List.forall_mem_cons]

theorem distinctFields_iff {fields : List (String × Json)} :
    DistinctFields fields ↔ ∀ f ∈ fields, f.2.Distinct := by
  induction fields with
  | nil => simp [DistinctFields]
  | cons f rest ih => rw [DistinctFields, ih, List.forall_mem_cons]

/-- A value stands in another one, at any depth. -/
inductive Has : Json → Json → Prop
  | here (j) : Has j j
  | item {items j i} (hj : j ∈ items) (h : Has j i) : Has (.array items) i
  | field {fields key j i} (hj : (key, j) ∈ fields) (h : Has j i) : Has (.object fields) i

theorem Distinct.of_has {j i : Json} (hd : j.Distinct) (h : j.Has i) : i.Distinct := by
  induction h with
  | here => exact hd
  | item hj _ ih => exact ih (distinctItems_iff.mp hd _ hj)
  | field hj _ ih => exact ih (distinctFields_iff.mp hd.2 _ hj)

variable {fields : List (String × Json)} {key : String} {value : Json}

theorem nodup_keys_putField (h : (fields.map (·.1)).Nodup) :
    ((putField fields key value).map (·.1)).Nodup := by
  rw [putField]
  split
  · have hkeys : (fields.map fun f => if f.1 == key then (key, value) else f).map (·.1) =
        fields.map (·.1) := by
      rw [List.map_map]
      refine List.map_congr_left fun f _ => ?_
      by_cases hf : f.1 = key <;> simp [hf]
    rwa [hkeys]
  · next hnew =>
    rw [List.map_append, List.nodup_append]
    refine ⟨h, List.nodup_singleton key, ?_⟩
    rintro k hk _ hlast rfl
    obtain ⟨f, hf, rfl⟩ := List.mem_map.mp hk
    exact hnew (List.any_eq_true.mpr ⟨f, hf, beq_iff_eq.mpr (List.mem_singleton.mp hlast)⟩)

theorem mem_putField {f : String × Json} (h : f ∈ putField fields key value) :
    f ∈ fields ∨ f = (key, value) := by
  rw [putField] at h
  split at h
  · obtain ⟨g, hg, rfl⟩ := List.mem_map.mp h
    split
    · exact .inr rfl
    · exact .inl hg
  · simpa using h

theorem distinct_foldl_putField {before : List (String × Json)} (hb : (object before).Distinct)
    (h : DistinctFields fields) :
    (object (fields.foldl (fun acc f => putField acc f.1 f.2) before)).Distinct := by
  induction fields generalizing before with
  | nil => exact hb
  | cons f rest ih =>
    refine ih ⟨nodup_keys_putField hb.1, distinctFields_iff.mpr fun g hg => ?_⟩ h.2
    rcases mem_putField hg with hg | rfl
    · exact distinctFields_iff.mp hb.2 g hg
    · exact h.1

/-- An object read from its fields has every key once, whatever keys are repeated. -/
theorem distinct_ofFields (h : DistinctFields fields) : (ofFields fields).Distinct :=
  distinct_foldl_putField ⟨List.nodup_nil, trivial⟩ h

end Json

namespace JsonReader

/-- Whatever the reader gives has the property. -/
def Gives {α : Type} (P : α → Prop) (r : JsonReader α) : Prop :=
  ∀ k a k', r k = .ok (a, k') → P a

namespace Gives

variable {α β : Type} {P : β → Prop}

theorem pure {b : β} (h : P b) : Gives P (Pure.pure b) := by
  intro k a k' hr
  cases hr
  exact h

theorem fail {fault : JsonFault} : Gives P (JsonReader.fail fault) := nofun

theorem failNext {fault : JsonFault} : Gives P (JsonReader.failNext fault) := nofun

theorem bind {Q : α → Prop} {r : JsonReader α} {next : α → JsonReader β} (h : Gives Q r)
    (hn : ∀ a, Q a → Gives P (next a)) : Gives P (r >>= next) := by
  intro k b k' hr
  obtain ⟨⟨a, between⟩, ha, hb⟩ := bind_eq_ok.mp hr
  exact hn a (h k a between ha) between b k' hb

/-- What comes first gives nothing of interest. -/
theorem after {r : JsonReader α} {next : α → JsonReader β} (hn : ∀ a, Gives P (next a)) :
    Gives P (r >>= next) :=
  bind (Q := fun _ => True) (fun _ _ _ _ => trivial) fun a _ => hn a

end Gives

open Json in
/-- The three readers of nested values, by induction on the steps they may take. -/
theorem gives_distinct (fuel : Nat) :
    (∀ depth, Gives Distinct (value depth fuel)) ∧
      (∀ depth first, Gives DistinctItems (elements depth fuel first)) ∧
      ∀ depth first, Gives DistinctFields (fields depth fuel first) := by
  induction fuel with
  | zero => exact ⟨fun _ => .fail, fun _ _ => .fail, fun _ _ => .fail⟩
  | succ fuel ih =>
    obtain ⟨hvalue, helements, hfields⟩ := ih
    refine ⟨fun depth => ?_, fun depth first => ?_, fun depth first => ?_⟩
    · rw [value]
      refine .after fun next => ?_
      split
      · exact .fail
      · exact .after fun _ => .after fun _ => .pure trivial
      · exact .after fun _ => .after fun _ => .pure trivial
      · exact .after fun _ => .after fun _ => .pure trivial
      · exact .after fun _ => .after fun _ => .pure trivial
      · exact .after fun _ => .after fun _ => .pure trivial
      · split
        · exact .failNext
        · exact .after fun _ => (helements _ _).bind fun items h => .pure h
      · split
        · exact .failNext
        · exact .after fun _ => (hfields _ _).bind fun items h => .pure (distinct_ofFields h)
      · split
        · exact .after fun _ => .pure trivial
        · exact .failNext
    · rw [elements]
      refine .after fun more => ?_
      split
      · exact (hvalue _).bind fun j hj => (helements _ _).bind fun rest hrest => .pure ⟨hj, hrest⟩
      · exact .after fun _ => .pure trivial
    · rw [fields]
      refine .after fun more => ?_
      split
      · refine .after fun next => ?_
        split
        · exact .after fun _ => .after fun _ => .after fun _ => (hvalue _).bind fun j hj =>
            (hfields _ _).bind fun rest hrest => .pure ⟨hj, hrest⟩
        · exact .failNext
      · exact .after fun _ => .pure trivial

end JsonReader

/-- Every value read from a text has distinct keys throughout. -/
theorem Json.parse_distinct {text : String} {j : Json} (h : parse text = .ok j) : j.Distinct := by
  have hdocument : JsonReader.Gives Json.Distinct JsonReader.document := by
    refine .after fun k => ((JsonReader.gives_distinct _).1 0).bind fun v hv => ?_
    refine .after fun next => ?_
    split
    · exact .pure hv
    · exact .failNext
  rw [parse] at h
  cases hr : JsonReader.document.run ⟨text.toList, 1, 0⟩ with
  | error e =>
    rw [hr] at h
    cases h
  | ok read =>
    rw [hr] at h
    cases h
    exact hdocument _ read.1 read.2 hr

end NavTree
