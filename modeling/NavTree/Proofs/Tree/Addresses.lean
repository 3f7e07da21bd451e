import NavTree.Proofs.Tree.Parts

/-! # Addresses of events

An address leads from part to part. A walk lists the events at the addresses inside a tree, sorted
by address, and leaves out those that have a pruned event around them.
-/
namespace NavTree

/-- The way from an event to one inside it: the index of the part to enter, and on from there. -/
abbrev Address := List Nat

namespace Event

theorem length_walk_lt {e p : Event} (hp : p ∈ e.parts) :
    (p.walk everything).length < (e.walk everything).length := by
  have hle : (p.walk everything).length ≤ (e.parts.flatMap (walk everything)).length :=
    (List.infix_flatMap_of_mem hp _).length_le
  have he : (e.walk everything).length = (e.parts.flatMap (walk everything)).length + 1 := by
    rw [walk_eq]
    rfl
  omega

/-- The addresses inside an event, each before those that go on from it. -/
def addresses (e : Event) : List Address :=
  [] :: e.parts.zipIdx.attach.flatMap fun ⟨(p, i), _⟩ => (addresses p).map (i :: ·)
-- Values nest in records and lists, so the events inside are counted by the walk through them.
termination_by (e.walk everything).length
decreasing_by
  rename_i h
  exact length_walk_lt (List.fst_mem_of_mem_zipIdx h)

/-- The event at an address inside an event. -/
def at? : Event → Address → Option Event
  | e, [] => some e
  | e, i :: rest => e.parts[i]?.bind (at? · rest)

end Event

/-- The addresses inside the events of a list, which start with the index in the list. -/
def addressesOf (parts : List Event) : List Address :=
  parts.zipIdx.flatMap fun p => p.1.addresses.map (p.2 :: ·)

def among? (parts : List Event) : Address → Option Event
  | [] => none
  | i :: rest => parts[i]?.bind (·.at? rest)

/-- The events that the one at an address lies strictly inside of, the outermost first. -/
def around (look : Address → Option Event) (a : Address) : List Event :=
  a.inits.dropLast.filterMap look

/-- No event around the address is pruned. -/
def isReached (pruned : EventKind → Bool) (look : Address → Option Event) (a : Address) : Bool :=
  (around look a).all fun e => !pruned e.kind

theorem around_cons (look : Address → Option Event) (i : Nat) (a : Address) :
    around look (i :: a) = (look []).toList ++ around (fun b => look (i :: b)) a := by
  have hne : a.inits.map (i :: ·) ≠ [] := by cases a <;> simp
  rw [around, around, List.inits_cons, List.dropLast_cons_of_ne_nil hne, ← List.map_dropLast,
    List.filterMap_cons, List.filterMap_map]
  cases look [] <;> rfl

theorem Event.addresses_eq (e : Event) : e.addresses = [] :: addressesOf e.parts := by
  rw [addresses, addressesOf]
  rw [List.flatMap_subtype fun _ _ => rfl, List.unattach_attach]

section Parts

variable {parts : List Event}

theorem among?_of_mem_zipIdx {p : Event × Nat} (hp : p ∈ parts.zipIdx) (a : Address) :
    among? parts (p.2 :: a) = p.1.at? a := by
  rw [among?, List.mem_zipIdx_iff_getElem?.mp hp, Option.bind_some]

theorem exists_cons_of_mem {a : Address} (ha : a ∈ addressesOf parts) : ∃ i b, a = i :: b := by
  obtain ⟨p, _, ha⟩ := List.mem_flatMap.mp ha
  obtain ⟨b, _, rfl⟩ := List.mem_map.mp ha
  exact ⟨p.2, b, rfl⟩

theorem mem_addressesOf (h : ∀ p ∈ parts, ∀ a, a ∈ p.addresses ↔ (p.at? a).isSome) (a : Address) :
    a ∈ addressesOf parts ↔ (among? parts a).isSome := by
  simp only [addressesOf, List.mem_flatMap, List.mem_map]
  constructor
  · rintro ⟨p, hp, b, hb, rfl⟩
    rw [among?_of_mem_zipIdx hp]
    exact (h p.1 (List.fst_mem_of_mem_zipIdx hp) b).mp hb
  · intro ha
    cases a with
    | nil => cases ha
    | cons i b =>
      rw [among?, Option.isSome_bind] at ha
      cases hp : parts[i]? with
      | none => simp [hp] at ha
      | some p =>
        refine ⟨(p, i), List.mem_zipIdx_iff_getElem?.mpr hp, b, ?_, rfl⟩
        exact (h p (List.mem_of_getElem? hp) b).mpr (by simpa [hp] using ha)

theorem sorted_addressesOf (h : ∀ p ∈ parts, p.addresses.Pairwise (· < ·)) :
    (addressesOf parts).Pairwise (· < ·) := by
  rw [addressesOf, List.pairwise_flatMap]
  constructor
  · intro p hp
    rw [List.pairwise_map]
    exact (h p.1 (List.fst_mem_of_mem_zipIdx hp)).imp fun hab =>
      List.cons_lt_cons_iff.mpr (.inr ⟨rfl, hab⟩)
  · refine (pairwise_index_lt parts).imp fun hpq a ha b hb => ?_
    obtain ⟨a, _, rfl⟩ := List.mem_map.mp ha
    obtain ⟨b, _, rfl⟩ := List.mem_map.mp hb
    exact List.cons_lt_cons_iff.mpr (.inl hpq)

/-- One after another, the walks through the events of a list list what is reached in it. -/
theorem flatMap_walk_eq {pruned : EventKind → Bool}
    (h : ∀ p ∈ parts,
      p.walk pruned = (p.addresses.filter (isReached pruned p.at?)).filterMap p.at?) :
    parts.flatMap (Event.walk pruned) =
      ((addressesOf parts).filter (isReached pruned (among? parts))).filterMap (among? parts) := by
  have hpart : ∀ p ∈ parts.zipIdx, ((p.1.addresses.map (p.2 :: ·)).filter
      (isReached pruned (among? parts))).filterMap (among? parts) = p.1.walk pruned := by
    intro p hp
    have hlook : (fun a => among? parts (p.2 :: a)) = p.1.at? :=
      funext (among?_of_mem_zipIdx hp)
    have hreached : isReached pruned (among? parts) ∘ (p.2 :: ·) = isReached pruned p.1.at? := by
      funext a
      rw [Function.comp_apply, isReached, around_cons, hlook]
      rfl
    rw [h p.1 (List.fst_mem_of_mem_zipIdx hp), List.filter_map, List.filterMap_map, hreached]
    exact congrArg (List.filterMap · _) hlook
  rw [addressesOf, List.filter_flatMap, List.filterMap_flatMap, List.flatMap_congr hpart]
  conv_lhs => rw [← List.zipIdx_map_fst 0 parts, List.flatMap_map]

end Parts

namespace Event

theorem mem_addresses (e : Event) : ∀ a, a ∈ e.addresses ↔ (e.at? a).isSome := by
  induction e using Event.induct with
  | h e ih =>
    intro a
    rw [addresses_eq]
    cases a with
    | nil => simp [at?]
    | cons i b =>
      have hat : e.at? (i :: b) = among? e.parts (i :: b) := rfl
      rw [hat, ← mem_addressesOf ih]
      simp

theorem sorted_addresses (e : Event) : e.addresses.Pairwise (· < ·) := by
  induction e using Event.induct with
  | h e ih =>
    rw [addresses_eq, List.pairwise_cons]
    refine ⟨fun a ha => ?_, sorted_addressesOf ih⟩
    obtain ⟨i, b, rfl⟩ := exists_cons_of_mem ha
    exact List.nil_lt_cons i b

theorem walk_eq_filter (pruned : EventKind → Bool) (e : Event) :
    e.walk pruned = (e.addresses.filter (isReached pruned e.at?)).filterMap e.at? := by
  induction e using Event.induct with
  | h e ih =>
    -- All addresses but the first go on into a part, so the event itself is around each of them.
    have hinside : ((addressesOf e.parts).filter (isReached pruned e.at?)).filterMap e.at? =
        if pruned e.kind then [] else e.parts.flatMap (walk pruned) := by
      have hreached : ∀ a ∈ addressesOf e.parts, isReached pruned e.at? a =
          (!pruned e.kind && isReached pruned (among? e.parts) a) := by
        intro a ha
        obtain ⟨i, b, rfl⟩ := exists_cons_of_mem ha
        rw [isReached, isReached, around_cons, around_cons]
        rfl
      have hlook : ∀ a ∈ addressesOf e.parts, e.at? a = among? e.parts a := by
        intro a ha
        obtain ⟨i, b, rfl⟩ := exists_cons_of_mem ha
        rfl
      rw [List.filter_congr hreached]
      cases hp : pruned e.kind with
      | true => simp
      | false =>
        rw [flatMap_walk_eq ih]
        simp only [Bool.not_false, Bool.true_and, Bool.false_eq_true, ↓reduceIte]
        exact List.filterMap_congr fun a ha => hlook a (List.mem_of_mem_filter ha)
    rw [walk_eq, enter, addresses_eq, List.filter_cons_of_pos rfl, List.filterMap_cons, at?,
      hinside]

end Event

namespace Tree

variable (t : Tree)

def addresses : List Address := addressesOf t.parts

def at? : Address → Option Event := among? t.parts

theorem mem_addresses (a : Address) : a ∈ t.addresses ↔ (t.at? a).isSome :=
  mem_addressesOf (fun p _ => p.mem_addresses) a

theorem sorted_addresses : t.addresses.Pairwise (· < ·) :=
  sorted_addressesOf fun p _ => p.sorted_addresses

/-- A walk lists the events at the addresses that it reaches, in the order of the addresses. -/
theorem walk_eq_filter (pruned : EventKind → Bool) :
    t.walk pruned = (t.addresses.filter (isReached pruned t.at?)).filterMap t.at? := by
  rw [walk_eq]
  exact flatMap_walk_eq fun p _ => p.walk_eq_filter pruned

theorem walk_everything_eq : t.walk everything = t.addresses.filterMap t.at? := by
  have hall : ∀ a ∈ t.addresses, isReached everything t.at? a = true := by
    intro a _
    simp [isReached, everything]
  rw [walk_eq_filter, List.filter_eq_self.mpr hall]

end Tree

end NavTree
