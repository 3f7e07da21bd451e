import Mathlib.Data.List.Nodup

/-! # Lists with keys

What a search for a key finds: nothing if no entry has the key, and else the value of the first
entry that has it. Where no two entries share a key, their order does not matter.
-/
namespace NavTree

variable {κ β : Type} [BEq κ] [LawfulBEq κ] {entries entries' extra : List (κ × β)} {key : κ}
  {value : β}

theorem lookup_eq_none : entries.lookup key = none ↔ key ∉ entries.map (·.1) := by
  rw [List.lookup_eq_none_iff, List.mem_map, not_exists]
  exact forall_congr' fun e => by rw [bne_iff_ne, not_and, ne_comm]

/-- The first entry that has the key is found. -/
theorem lookup_eq_some : entries.lookup key = some value ↔
    ∃ before after, entries = before ++ (key, value) :: after ∧ key ∉ before.map (·.1) := by
  simp only [List.lookup_eq_some_iff, ← lookup_eq_none, List.lookup_eq_none_iff]

theorem lookup_of_mem (hn : (entries.map (·.1)).Nodup) (h : (key, value) ∈ entries) :
    entries.lookup key = some value := by
  obtain ⟨before, after, rfl⟩ := List.append_of_mem h
  rw [List.map_append, List.map_cons, List.nodup_append] at hn
  exact lookup_eq_some.mpr ⟨before, after, rfl, fun hm => hn.2.2 key hm key List.mem_cons_self rfl⟩

theorem lookup_perm (hp : entries.Perm entries') (hn : (entries.map (·.1)).Nodup) :
    entries.lookup key = entries'.lookup key := by
  have hkeys : (entries.map (·.1)).Perm (entries'.map (·.1)) := hp.map _
  by_cases hk : key ∈ entries.map (·.1)
  · obtain ⟨⟨_, value⟩, hf, rfl⟩ := List.mem_map.mp hk
    rw [lookup_of_mem hn hf, lookup_of_mem (hkeys.nodup_iff.mp hn) (hp.mem_iff.mp hf)]
  · rw [lookup_eq_none.mpr hk, lookup_eq_none.mpr (mt hkeys.mem_iff.mpr hk)]

/-- Entries with other keys do not hide the key. -/
theorem lookup_rearranged (hp : (entries ++ extra).Perm entries')
    (hn : (entries'.map (·.1)).Nodup) (hx : ∀ e ∈ extra, e.1 ≠ key) :
    entries'.lookup key = entries.lookup key := by
  have hextra : key ∉ extra.map (·.1) := fun hm => by
    obtain ⟨e, he, hkey⟩ := List.mem_map.mp hm
    exact hx e he hkey
  rw [← lookup_perm hp ((hp.map _).nodup_iff.mpr hn), List.lookup_append,
    lookup_eq_none.mpr hextra, Option.or_none]

end NavTree
