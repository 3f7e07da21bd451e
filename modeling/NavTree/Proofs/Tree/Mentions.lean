import NavTree.Proofs.Tree.Parts
import NavTree.Tree.Flat

/-! # What nodes mention

An expression may stand anywhere in the props and the params of a node, in lists too. The flattened
tree holds exactly the expressions that some node among or below the navigators mentions.
-/
namespace NavTree

/-- An expression stands in a value, at any nesting of lists and records. -/
inductive Value.Mentions (e : Expression) : Value → Prop
  | self : Mentions e (.expression e)
  | item {items : List Value} {v : Value} (h : v ∈ items) (hv : Mentions e v) :
    Mentions e (.list items)
  | entry {entries : List (String × Value)} {key : String} {v : Value} (h : (key, v) ∈ entries)
    (hv : Mentions e v) : Mentions e (.record entries)

def Record.Mentions (e : Expression) (r : Record) : Prop := ∃ v ∈ r.values, v.Mentions e

def Params.Mentions (e : Expression) : Params → Prop
  | .record r => r.Mentions e
  | .expression x => x = e

def Node.Mentions (e : Expression) (n : Node) : Prop :=
  (∃ r, n.props? = some r ∧ r.Mentions e) ∨ ∃ p, n.params? = some p ∧ p.Mentions e

/-- What is entered in an event mentions the expression. -/
def Event.Mentions (e : Expression) : Event → Prop
  | .expression x => x = e
  | .value v => v.Mentions e
  | .record r => r.Mentions e
  | own => ∃ n ∈ own.nodes, n.Mentions e

variable {e : Expression}

theorem Value.mentions_record {entries : List (String × Value)} :
    (Value.record entries).Mentions e ↔ Record.Mentions e ⟨entries⟩ := by
  constructor
  · intro h
    cases h with
    | @entry _ key v h hv => exact ⟨v, List.mem_map.mpr ⟨(key, v), h, rfl⟩, hv⟩
  · rintro ⟨v, h, hv⟩
    obtain ⟨x, hx, rfl⟩ := List.mem_map.mp h
    exact .entry hx hv

theorem Value.mentions_list {items : List Value} :
    (Value.list items).Mentions e ↔ ∃ v ∈ items, v.Mentions e := by
  constructor
  · intro h
    cases h with
    | item h hv => exact ⟨_, h, hv⟩
  · rintro ⟨v, h, hv⟩
    exact .item h hv

theorem Value.mentions_expression {x : Expression} :
    (Value.expression x).Mentions e ↔ x = e := by
  constructor
  · intro h
    cases h
    rfl
  · rintro rfl
    exact .self

namespace Event

theorem mentions_propsParts {props : Option Record} :
    (∃ p ∈ propsParts props, p.Mentions e) ↔ ∃ r, props = some r ∧ r.Mentions e := by
  cases props <;> simp [propsParts, Mentions]

theorem mentions_paramsParts {params : Option Params} :
    (∃ p ∈ paramsParts params, p.Mentions e) ↔ ∃ p, params = some p ∧ p.Mentions e := by
  rcases params with _ | ⟨r | x⟩ <;> simp [paramsParts, Mentions, Params.Mentions]

theorem mentions_event {n : Node} : n.event.Mentions e ↔ ∃ m ∈ n.all, m.Mentions e := by
  rw [← nodes_event]
  cases n <;> rfl

theorem mentions_childEvents {n : Node} :
    (∃ p ∈ n.childEvents, p.Mentions e) ↔ ∃ m ∈ n.children.flatMap Node.all, m.Mentions e := by
  have hchild : ∀ p ∈ n.childEvents, p.Mentions e ↔ ∃ m ∈ p.nodes, m.Mentions e := by
    intro p hp
    cases n with
    | navigator head inside =>
      obtain ⟨m, _, rfl⟩ := List.mem_map.mp hp
      rfl
    | group g =>
      obtain ⟨s, _, rfl⟩ := List.mem_map.mp hp
      rfl
    | screen s => cases hp
  rw [← nodes_childEvents]
  simp only [List.mem_flatMap]
  constructor
  · rintro ⟨p, hp, h⟩
    obtain ⟨m, hm, h⟩ := (hchild p hp).mp h
    exact ⟨m, ⟨p, hp, hm⟩, h⟩
  · rintro ⟨m, ⟨p, hp, hm⟩, h⟩
    exact ⟨p, hp, (hchild p hp).mpr ⟨m, hm, h⟩⟩

/-- A node mentions what its props and params do, and what is below it the rest. -/
theorem mentions_own {n : Node} :
    n.event.Mentions e ↔ ∃ p ∈ n.event.parts, p.Mentions e := by
  rw [mentions_event, n.all_eq, n.event_parts]
  simp only [List.mem_cons, List.mem_append, or_and_right, exists_or, exists_eq_left,
    mentions_propsParts, mentions_paramsParts, mentions_childEvents, Node.Mentions]

theorem mentions_iff (x : Event) :
    x.Mentions e ↔ .expression e = x ∨ ∃ p ∈ x.parts, p.Mentions e := by
  cases x with
  | node n =>
    have hn : (node n).Mentions e ↔ n.event.Mentions e := mentions_event.symm
    simp [hn, parts]
  | navigator n => exact (mentions_own (n := n.node)).trans (by simp [Navigator.node, Node.event])
  | group g => exact (mentions_own (n := .group g)).trans (by simp [Node.event])
  | screen s => exact (mentions_own (n := .screen s)).trans (by simp [Node.event])
  | record r => simp [Mentions, Record.Mentions, parts]
  | value v =>
    cases v with
    | record entries => simp [Mentions, parts, Value.parts, Value.mentions_record]
    | list items => simp [Mentions, parts, Value.parts, Value.mentions_list]
    | expression x => simp [Mentions, parts, Value.parts, Value.mentions_expression]
    | string _ | number _ | boolean _ | null | code _ =>
      refine ⟨fun h => ?_, by simp [parts, Value.parts]⟩
      cases h
  | expression x => simp [Mentions, parts, eq_comm]

theorem expression_mem_walk (x : Event) : .expression e ∈ x.walk everything ↔ x.Mentions e := by
  induction x using Event.induct with
  | h x ih =>
    have hwalk : x.walk everything = x :: x.parts.flatMap (walk everything) := walk_eq everything x
    rw [hwalk, List.mem_cons, List.mem_flatMap, mentions_iff]
    refine or_congr Iff.rfl ⟨?_, ?_⟩
    · rintro ⟨p, hp, he⟩
      exact ⟨p, hp, (ih p hp).mp he⟩
    · rintro ⟨p, hp, he⟩
      exact ⟨p, hp, (ih p hp).mpr he⟩

end Event

/-- A flattened tree holds the expressions that its nodes mention. -/
theorem Tree.mem_flatten_expressions {t : Tree} :
    e ∈ t.flatten.expressions ↔ ∃ n ∈ t.nodes, n.Mentions e := by
  have hflat : e ∈ t.flatten.expressions ↔ .expression e ∈ t.walk everything := by
    change e ∈ (t.walk everything).filterMap Event.expression? ↔ _
    rw [List.mem_filterMap]
    constructor
    · rintro ⟨x, hx, he⟩
      cases x <;> cases he
      exact hx
    · intro h
      exact ⟨_, h, rfl⟩
  have hpart : ∀ n : Navigator, .expression e ∈ (Event.navigator n).walk everything ↔
      ∃ m ∈ n.node.all, m.Mentions e := fun n => Event.expression_mem_walk _
  rw [hflat, walk_eq, parts, nodes, List.flatMap_map]
  simp only [List.mem_flatMap, hpart, List.mem_map, exists_exists_and_eq_and]
  constructor
  · rintro ⟨n, hn, m, hm, h⟩
    exact ⟨m, ⟨n, hn, hm⟩, h⟩
  · rintro ⟨m, ⟨n, hn, hm⟩, h⟩
    exact ⟨n, hn, m, hm, h⟩

end NavTree
