import Mathlib.Data.List.Nodup
import NavTree.Outline.Decode
import NavTree.Outline.Value
import NavTree.Proofs.Concur

/-! # Reading objects field by field

An object is read into a draft, one field after the other. What a field sets depends on that field
alone, so neither the order of the fields nor fields of other names matter, and a change inside one
field matters only as far as that field is read differently.
-/
namespace NavTree

structure FieldReader (δ : Type) where
  names : List String
  start : δ
  put : δ → String → Json → Decoded δ
  /-- The second draft, with what the named field sets taken from the first one. -/
  take : String → δ → δ → δ
  /-- Drafts that lead to the same in the end. -/
  Alike : δ → δ → Prop
  put_known : ∀ {key}, key ∈ names →
    ∀ d j, put d key j = (put start key j).map fun e => take key e d
  put_unknown : ∀ {key}, key ∉ names → ∀ d j, put d key j = .ok d
  take_comm : ∀ {key key'}, key ≠ key' →
    ∀ d e e', take key' e' (take key e d) = take key e (take key' e' d)
  alike_refl : ∀ d, Alike d d
  alike_take : ∀ {d d' e e'} key, Alike e e' → Alike d d' → Alike (take key e d) (take key e' d')

namespace FieldReader

variable {δ : Type} (r : FieldReader δ) {d d' : δ} {key : String} {j j' : Json}
  {fields fields' extra : JsonObject}

def read (d : δ) (fields : JsonObject) : Decoded δ :=
  fields.foldlM (fun d f => r.put d f.1 f.2) d

theorem read_cons (f : String × Json) :
    r.read d (f :: fields) = r.put d f.1 f.2 >>= fun d => r.read d fields := by
  rw [read, List.foldlM_cons]
  rfl

theorem read_append :
    r.read d (fields ++ fields') = r.read d fields >>= fun d => r.read d fields' := by
  rw [read, List.foldlM_append]
  rfl

/-- What reading a field does to any draft. Two of these commute, which two readings in a row
cannot be said to do: they may fail with different faults. -/
def effect (key : String) (j : Json) : Decoded (δ → δ) :=
  if key ∈ r.names then (r.put r.start key j).map (r.take key) else .ok id

theorem put_eq (d : δ) (key : String) (j : Json) :
    r.put d key j = (r.effect key j).map fun change => change d := by
  rw [effect]
  split
  · next hk =>
    rw [r.put_known hk]
    cases r.put r.start key j <;> rfl
  · next hk => exact r.put_unknown hk d j

theorem effect_comm {f g : String × Json} (h : f.1 ≠ g.1) {u v : δ → δ}
    (hu : r.effect f.1 f.2 = .ok u) (hv : r.effect g.1 g.2 = .ok v) (d : δ) :
    v (u d) = u (v d) := by
  rw [effect] at hu hv
  split at hu
  · split at hv
    · cases hf : r.put r.start f.1 f.2 with
      | error e => simp [hf, Except.map] at hu
      | ok a =>
        cases hg : r.put r.start g.1 g.2 with
        | error e => simp [hg, Except.map] at hv
        | ok b =>
          rw [hf] at hu
          rw [hg] at hv
          cases hu
          cases hv
          exact r.take_comm h d a b
    · cases hv
      rfl
  · cases hu
    rfl

theorem put_comm {f g : String × Json} (h : f.1 ≠ g.1) (d : δ) :
    Concur Eq (r.put d f.1 f.2 >>= fun d => r.put d g.1 g.2)
      (r.put d g.1 g.2 >>= fun d => r.put d f.1 f.2) := by
  simp only [r.put_eq]
  cases hu : r.effect f.1 f.2 with
  | error e =>
    cases hv : r.effect g.1 g.2 with
    | error e' => exact .error e e'
    | ok v => exact .error e e
  | ok u =>
    cases hv : r.effect g.1 g.2 with
    | error e' => exact .error e' e'
    | ok v => exact .ok (r.effect_comm h hu hv d)

theorem put_alike (h : r.Alike d d')
    (hj : Concur r.Alike (r.put r.start key j) (r.put r.start key j')) :
    Concur r.Alike (r.put d key j) (r.put d' key j') := by
  by_cases hk : key ∈ r.names
  · rw [r.put_known hk d, r.put_known hk d']
    generalize r.put r.start key j = first, r.put r.start key j' = second at hj
    cases hj with
    | ok ha => exact .ok (r.alike_take key ha h)
    | error e e' => exact .error e e'
  · rw [r.put_unknown hk, r.put_unknown hk]
    exact .ok h

theorem read_perm (hp : fields.Perm fields') (hn : (fields.map (·.1)).Nodup) (d : δ) :
    Concur Eq (r.read d fields) (r.read d fields') := by
  induction hp generalizing d with
  | nil => exact Concur.same _
  | cons f _ ih =>
    rw [read_cons, read_cons]
    refine (Concur.same _).bind ?_
    rintro d _ rfl
    exact ih (List.nodup_cons.mp hn).2 d
  | swap f g rest =>
    have hne : g.1 ≠ f.1 := fun he => (List.nodup_cons.mp hn).1 (by simp [he])
    simp only [read_cons, ← bind_assoc]
    refine (r.put_comm hne d).bind ?_
    rintro d _ rfl
    exact Concur.same _
  | trans hp _ ih ih' => exact (ih hn d).trans (ih' ((hp.map _).nodup_iff.mp hn) d)

theorem read_unknown (h : ∀ f ∈ extra, f.1 ∉ r.names) (d : δ) : r.read d extra = .ok d := by
  induction extra with
  | nil => rfl
  | cons f rest ih =>
    obtain ⟨hf, hrest⟩ := List.forall_mem_cons.mp h
    rw [read_cons, r.put_unknown hf]
    exact ih hrest

/-- Neither the order of the fields matters nor fields of other names. -/
theorem read_rearranged (hp : (fields ++ extra).Perm fields') (hn : (fields'.map (·.1)).Nodup)
    (hx : ∀ f ∈ extra, f.1 ∉ r.names) (d : δ) :
    Concur r.Alike (r.read d fields) (r.read d fields') := by
  have hsame : r.read d (fields ++ extra) = r.read d fields := by
    rw [read_append]
    simp only [r.read_unknown hx]
    exact bind_pure _
  have hperm := r.read_perm hp ((hp.map _).nodup_iff.mpr hn) d
  rw [hsame] at hperm
  exact hperm.mono fun d _ he => he ▸ r.alike_refl d

theorem read_alike (h : r.Alike d d') (fields : JsonObject) :
    Concur r.Alike (r.read d fields) (r.read d' fields) := by
  induction fields generalizing d d' with
  | nil => exact .ok h
  | cons f rest ih =>
    rw [read_cons, read_cons]
    exact (r.put_alike h (Concur.refl r.alike_refl _)).bind fun _ _ => ih

theorem read_changed (h : r.Alike d d') {before after : JsonObject}
    (hj : Concur r.Alike (r.put r.start key j) (r.put r.start key j')) :
    Concur r.Alike (r.read d (before ++ (key, j) :: after))
      (r.read d' (before ++ (key, j') :: after)) := by
  rw [read_append, read_append]
  refine (r.read_alike h before).bind fun _ _ h => ?_
  rw [read_cons, read_cons]
  exact (r.put_alike h hj).bind fun _ _ h => r.read_alike h after

/-- In the positional form the name of a field is the one at its place. -/
theorem read_zip_changed (h : r.Alike d d') (names : List String) {before after : List Json}
    (hj : ∀ key, names[before.length]? = some key →
      Concur r.Alike (r.put r.start key j) (r.put r.start key j')) :
    Concur r.Alike (r.read d (names.zip (before ++ j :: after)))
      (r.read d' (names.zip (before ++ j' :: after))) := by
  induction before generalizing d d' names with
  | nil =>
    cases names with
    | nil => exact .ok h
    | cons key names =>
      rw [List.nil_append, List.nil_append, List.zip_cons_cons, List.zip_cons_cons, read_cons,
        read_cons]
      exact (r.put_alike h (hj key rfl)).bind fun _ _ h => r.read_alike h _
  | cons i before ih =>
    cases names with
    | nil => exact .ok h
    | cons key names =>
      rw [List.cons_append, List.cons_append, List.zip_cons_cons, List.zip_cons_cons, read_cons,
        read_cons]
      refine (r.put_alike h (Concur.refl r.alike_refl _)).bind fun _ _ h => ih h names ?_
      exact fun key hk => hj key (by simpa using hk)

end FieldReader

end NavTree
