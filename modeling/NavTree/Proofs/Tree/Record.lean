import NavTree.Proofs.Appearance
import NavTree.Proofs.Keyed
import NavTree.Tree.Value

/-! # Records as ordered maps

A record that is filled by insertion has every key once, where it was first inserted, with the value
that was inserted last. One insertion changes the value of its own key and no other.
-/
namespace NavTree

namespace Record

variable {key k : String} {value v : Value} {entries : List (String × Value)}

theorem keys_put : (put key value entries).map (·.1) =
    if key ∈ entries.map (·.1) then entries.map (·.1) else entries.map (·.1) ++ [key] := by
  induction entries with
  | nil => rfl
  | cons e rest ih =>
    rw [put]
    split
    · next h => simp [h]
    · next h =>
      rw [List.map_cons, ih]
      by_cases hm : key ∈ rest.map (·.1) <;> simp [hm, Ne.symm h]

theorem mem_keys_put :
    k ∈ (put key value entries).map (·.1) ↔ k ∈ entries.map (·.1) ∨ k = key := by
  rw [keys_put]
  split
  · next h => exact ⟨.inl, fun hk => hk.elim id (· ▸ h)⟩
  · rw [List.mem_append, List.mem_singleton]

theorem nodup_keys_put (h : (entries.map (·.1)).Nodup) :
    ((put key value entries).map (·.1)).Nodup := by
  rw [keys_put]
  split
  · exact h
  · next hnew => simpa using h.concat hnew

theorem put_of_notMem (h : key ∉ entries.map (·.1)) :
    put key value entries = entries ++ [(key, value)] := by
  induction entries with
  | nil => rfl
  | cons e rest ih =>
    obtain ⟨hne, hrest⟩ := not_or.mp (mt List.mem_cons.mpr h)
    rw [put, if_neg (Ne.symm hne), ih hrest, List.cons_append]

theorem mem_put_self : (key, value) ∈ put key value entries := by
  induction entries with
  | nil => simp [put]
  | cons e rest ih =>
    rw [put]
    split
    · next h => simp [h]
    · exact List.mem_cons_of_mem _ ih

theorem mem_put_of_ne (hk : k ≠ key) (h : (k, v) ∈ entries) : (k, v) ∈ put key value entries := by
  induction entries with
  | nil => simp at h
  | cons e rest ih =>
    rw [put]
    rcases List.mem_cons.mp h with rfl | h
    · simp [hk]
    · split
      · exact List.mem_cons_of_mem _ h
      · exact List.mem_cons_of_mem _ (ih h)

/-- Writing a value that has a property leaves no entry without it. -/
theorem forall_put {P : Value → Prop} (h : ∀ v, (k, v) ∈ entries → P v) (hvalue : P value) :
    ∀ v, (k, v) ∈ put key value entries → P v := by
  intro v hv
  induction entries with
  | nil => exact (Prod.mk.inj (List.mem_singleton.mp hv)).2 ▸ hvalue
  | cons e rest ih =>
    have hrest : ∀ w, (k, w) ∈ rest → P w := fun w hw => h w (List.mem_cons_of_mem _ hw)
    rw [put] at hv
    split at hv
    · rcases List.mem_cons.mp hv with he | hv
      · exact (Prod.mk.inj he).2 ▸ hvalue
      · exact hrest v hv
    · rcases List.mem_cons.mp hv with he | hv
      · exact h v (he ▸ List.mem_cons_self)
      · exact ih hrest hv

theorem lookup_put :
    (put key value entries).lookup k = if k = key then some value else entries.lookup k := by
  induction entries with
  | nil => simp only [put, List.lookup_cons, List.lookup_nil]; grind
  | cons e rest ih =>
    rw [put]
    split <;> simp only [List.lookup_cons, ih] <;> grind

theorem keys_insert (r : Record) : (r.insert key value).keys =
    if key ∈ r.keys then r.keys else r.keys ++ [key] :=
  keys_put

theorem get?_insert (r : Record) :
    (r.insert key value).get? k = if k = key then some value else r.get? k :=
  lookup_put

theorem ofList_concat (entries : List (String × Value)) (e : String × Value) :
    ofList (entries ++ [e]) = (ofList entries).insert e.1 e.2 := by
  simp [ofList]

theorem keys_ofList (entries : List (String × Value)) :
    (ofList entries).keys = (entries.map (·.1)).eraseDups := by
  induction entries using List.reverseRecOn with
  | nil => rfl
  | append_singleton entries e ih =>
    rw [ofList_concat, keys_insert, ih, List.map_append, List.map_singleton, eraseDups_concat]
    simp only [List.mem_eraseDups]

/-- Records are filled by insertion only, so no record has a key twice. -/
theorem nodup_keys_ofList (entries : List (String × Value)) : (ofList entries).keys.Nodup := by
  rw [keys_ofList]
  exact nodup_eraseDups _

/-- Distinct keys are all kept, each with its value. -/
theorem ofList_of_nodup (h : (entries.map (·.1)).Nodup) : ofList entries = ⟨entries⟩ := by
  induction entries using List.reverseRecOn with
  | nil => rfl
  | append_singleton entries e ih =>
    rw [List.map_append, List.map_singleton, ← List.concat_eq_append, List.nodup_concat] at h
    rw [ofList_concat, ih h.2, insert, put_of_notMem h.1]

/-- The value was inserted under the key, and nothing was later. -/
def LastInserted (entries : List (String × Value)) (key : String) (value : Value) : Prop :=
  ∃ before after, entries = before ++ (key, value) :: after ∧ key ∉ after.map (·.1)

theorem get?_ofList (entries : List (String × Value)) (key : String) :
    (ofList entries).get? key = entries.reverse.lookup key := by
  induction entries using List.reverseRecOn with
  | nil => rfl
  | append_singleton entries e ih =>
    rw [ofList_concat, get?_insert, ih, List.reverse_concat, List.lookup_cons]
    grind

theorem get?_ofList_eq_some :
    (ofList entries).get? key = some value ↔ LastInserted entries key value := by
  rw [get?_ofList, lookup_eq_some, LastInserted]
  constructor
  · rintro ⟨after, before, hsplit, hlast⟩
    exact ⟨before.reverse, after.reverse, by simpa using congrArg List.reverse hsplit,
      by simpa using hlast⟩
  · rintro ⟨before, after, rfl, hlast⟩
    exact ⟨after.reverse, before.reverse, by simp, by simpa using hlast⟩

theorem get?_ofList_eq_none : (ofList entries).get? key = none ↔ key ∉ entries.map (·.1) := by
  rw [get?_ofList, lookup_eq_none, List.map_reverse, List.mem_reverse]

/-- Where all keys are different, every key finds the value that stands beside it. -/
theorem values_eq {r : Record} (h : r.keys.Nodup) : r.values.map some = r.keys.map r.get? := by
  rw [values, keys, List.map_map, List.map_map]
  exact List.map_congr_left fun e he => (lookup_of_mem h he).symm

/-- What a record holds after insertions into an empty one: every key once, in the order of first
insertions, and under each key what was last inserted. -/
structure Holds (r : Record) (inserted : List (String × Value)) : Prop where
  keys_nodup : r.keys.Nodup
  keys_eq : r.keys = (inserted.map (·.1)).eraseDups
  get?_eq_some : ∀ key value, r.get? key = some value ↔ LastInserted inserted key value
  get?_eq_none : ∀ key, r.get? key = none ↔ key ∉ inserted.map (·.1)
  values_eq : r.values.map some = r.keys.map r.get?

/-- Whatever is inserted, a record is an ordered map. Inserting once more under one of its keys
changes neither the keys nor any other value. -/
theorem ofList_holds (inserted : List (String × Value)) :
    (ofList inserted).Holds inserted ∧ ∀ key value,
      ((ofList inserted).insert key value).keys =
        (if key ∈ (ofList inserted).keys then (ofList inserted).keys
          else (ofList inserted).keys ++ [key]) ∧
      ∀ other, ((ofList inserted).insert key value).get? other =
        if other = key then some value else (ofList inserted).get? other := by
  refine ⟨?_, fun key value => ⟨keys_insert _, fun other => get?_insert _⟩⟩
  exact {
    keys_nodup := nodup_keys_ofList inserted
    keys_eq := keys_ofList inserted
    get?_eq_some := fun _ _ => get?_ofList_eq_some
    get?_eq_none := fun _ => get?_ofList_eq_none
    values_eq := values_eq (nodup_keys_ofList inserted) }

end Record

end NavTree
