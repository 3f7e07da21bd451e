import Mathlib.Data.List.Basic
import Mathlib.Data.List.Infix
import NavTree.Proofs.Tree.Nodes

/-! # Events inside events

Every event has parts, the events entered directly inside it: of a node its props come first, then
its params, then its children. A walk goes through the parts one after another, and the whole walk
meets every node once.
-/
namespace NavTree

/-- The event of a node itself. -/
def Node.event : Node → Event
  | navigator head children => .navigator ⟨head, children⟩
  | group g => .group g
  | screen s => .screen s

def propsParts (props : Option Record) : List Event := props.toList.map .record

def paramsParts : Option Params → List Event
  | none => []
  | some (.record r) => [.record r]
  | some (.expression e) => [.expression e]

def Value.parts : Value → List Event
  | .record entries => [.record ⟨entries⟩]
  | .list items => items.map .value
  | .expression e => [.expression e]
  | .string _ | .number _ | .boolean _ | .null | .code _ => []

namespace Event

def parts : Event → List Event
  | node n => [n.event]
  | navigator n => propsParts n.props ++ n.children.map .node
  | group g => propsParts g.props ++ g.children.map .screen
  | screen s => propsParts s.props ++ paramsParts s.params
  | record r => r.values.map .value
  | value v => v.parts
  | expression _ => []

/-- The walk through what an event enters. -/
def walk (pruned : EventKind → Bool) : Event → List Event
  | node n => n.walk pruned
  | navigator n => n.walk pruned
  | group g => g.walk pruned
  | screen s => s.walk pruned
  | record r => r.walk pruned
  | value v => v.walk pruned
  | expression e => [.expression e]

end Event

section Walk

variable (pruned : EventKind → Bool)

theorem Value.walkItems_eq (items : List Value) :
    walkItems pruned items = (items.map .value).flatMap (Event.walk pruned) := by
  induction items with
  | nil => rfl
  | cons v rest ih => rw [walkItems, ih, List.map_cons, List.flatMap_cons, Event.walk]

theorem Value.walkEntries_eq (entries : List (String × Value)) :
    walkEntries pruned entries = (entries.map fun e => .value e.2).flatMap (Event.walk pruned) := by
  induction entries with
  | nil => rfl
  | cons e rest ih => rw [walkEntries, ih, List.map_cons, List.flatMap_cons, Event.walk]

theorem Node.walkList_eq (nodes : List Node) :
    walkList pruned nodes = (nodes.map .node).flatMap (Event.walk pruned) := by
  induction nodes with
  | nil => rfl
  | cons n rest ih => rw [walkList, ih, List.map_cons, List.flatMap_cons, Event.walk]

theorem walkProps_eq (props : Option Record) :
    walkProps pruned props = (propsParts props).flatMap (Event.walk pruned) := by
  cases props with
  | none => rfl
  | some r => exact (List.flatMap_singleton ..).symm

theorem walkParams_eq (params : Option Params) :
    walkParams pruned params = (paramsParts params).flatMap (Event.walk pruned) := by
  rcases params with _ | ⟨r | e⟩
  · rfl
  · exact (List.flatMap_singleton ..).symm
  · rfl

theorem Record.walk_eq (r : Record) : r.walk pruned =
    enter pruned (.record r) ((r.values.map .value).flatMap (Event.walk pruned)) := by
  rw [walk, Value.walkEntries_eq, values, List.map_map]
  rfl

/-- A walk enters the parts of an event one after another. -/
theorem Event.walk_eq (e : Event) :
    e.walk pruned = enter pruned e (e.parts.flatMap (walk pruned)) := by
  cases e with
  | node n =>
    have hnode : n.walk pruned = enter pruned (.node n) (n.event.walk pruned) := by
      cases n <;> rfl
    rw [walk, hnode, parts, List.flatMap_singleton]
  | navigator n =>
    rw [walk, Navigator.walk, walkProps_eq, Node.walkList_eq, parts, List.flatMap_append]
  | group g =>
    rw [walk, Group.walk, walkProps_eq, parts, List.flatMap_append, List.flatMap_map]
    rfl
  | screen s => rw [walk, Screen.walk, walkProps_eq, walkParams_eq, parts, List.flatMap_append]
  | record r => rw [walk, Record.walk_eq, parts]
  | value v =>
    cases v with
    | record entries =>
      rw [walk, Value.walk, parts, Value.parts, List.flatMap_singleton]
      rfl
    | list items => rw [walk, Value.walk, Value.walkItems_eq, parts, Value.parts]
    | expression e =>
      rw [walk, Value.walk, parts, Value.parts, List.flatMap_singleton]
      rfl
    | string s => rw [walk, Value.walk]; rfl
    | number n => rw [walk, Value.walk]; rfl
    | boolean b => rw [walk, Value.walk]; rfl
    | null => rw [walk, Value.walk]; rfl
    | code text => rw [walk, Value.walk]; rfl
  | expression e => cases h : pruned .expression <;> simp [walk, enter, parts, kind, h]

end Walk

/-- What holds of the parts of an event holds of the event. -/
def Event.PassesUp (P : Event → Prop) : Prop := ∀ e : Event, (∀ p ∈ e.parts, P p) → P e

section Induction

variable {P : Event → Prop}

theorem Event.PassesUp.leaf (h : PassesUp P) {e : Event} (he : e.parts = []) : P e :=
  h e (by simp [he])

theorem Event.PassesUp.single (h : PassesUp P) {e p : Event} (he : e.parts = [p]) (hp : P p) :
    P e := h e (by simpa [he] using hp)

mutual

theorem Value.event_induct (h : Event.PassesUp P) : ∀ v : Value, P (.value v)
  | .record entries => by
    refine h.single rfl (h _ (List.forall_mem_map.mpr fun v hv => ?_))
    obtain ⟨e, he, rfl⟩ := List.mem_map.mp hv
    exact entries_event_induct h entries e he
  | .list items => h _ (List.forall_mem_map.mpr (items_event_induct h items))
  | .expression e => h.single rfl (h.leaf rfl)
  | .string _ | .number _ | .boolean _ | .null | .code _ => h.leaf rfl

theorem Value.items_event_induct (h : Event.PassesUp P) :
    ∀ items : List Value, ∀ v ∈ items, P (.value v)
  | [] => by simp
  | v :: rest => List.forall_mem_cons.mpr ⟨event_induct h v, items_event_induct h rest⟩

theorem Value.entries_event_induct (h : Event.PassesUp P) :
    ∀ entries : List (String × Value), ∀ e ∈ entries, P (.value e.2)
  | [] => by simp
  | (_, v) :: rest => List.forall_mem_cons.mpr ⟨event_induct h v, entries_event_induct h rest⟩

end

theorem Record.event_induct (h : Event.PassesUp P) (r : Record) : P (.record r) :=
  h _ (List.forall_mem_map.mpr fun v _ => v.event_induct h)

theorem forall_propsParts (h : Event.PassesUp P) (props : Option Record) :
    ∀ p ∈ propsParts props, P p :=
  List.forall_mem_map.mpr fun r _ => r.event_induct h

theorem forall_paramsParts (h : Event.PassesUp P) (params : Option Params) :
    ∀ p ∈ paramsParts params, P p := by
  rcases params with _ | ⟨r | e⟩
  · simp [paramsParts]
  · exact List.forall_mem_singleton.mpr (r.event_induct h)
  · exact List.forall_mem_singleton.mpr (h.leaf rfl)

theorem Node.event_induct (h : Event.PassesUp P) (n : Node) : P n.event := by
  induction n using Node.induct with
  | h n ih =>
    cases n with
    | navigator head inside =>
      refine h _ (List.forall_mem_append.mpr ⟨forall_propsParts h _, ?_⟩)
      exact List.forall_mem_map.mpr fun m hm => h.single rfl (ih m hm)
    | group g =>
      refine h _ (List.forall_mem_append.mpr ⟨forall_propsParts h _, ?_⟩)
      exact List.forall_mem_map.mpr fun s hs => ih (.screen s) (List.mem_map_of_mem hs)
    | screen s =>
      exact h _ (List.forall_mem_append.mpr ⟨forall_propsParts h _, forall_paramsParts h _⟩)

/-- What passes from the parts of an event to the event holds of every event. -/
theorem Event.induct (h : ∀ e : Event, (∀ p ∈ e.parts, P p) → P e) (e : Event) : P e := by
  have hup : PassesUp P := h
  cases e with
  | node n => exact hup.single rfl (n.event_induct h)
  | navigator n => exact n.node.event_induct h
  | group g => exact (Node.group g).event_induct h
  | screen s => exact (Node.screen s).event_induct h
  | record r => exact r.event_induct h
  | value v => exact v.event_induct h
  | expression e => exact hup.leaf rfl

end Induction

namespace Node

def props? : Node → Option Record
  | navigator head _ => head.props
  | group g => g.props
  | screen s => s.props

/-- Only screens have params. -/
def params? : Node → Option Params
  | screen s => s.params
  | _ => none

/-- The events of the nodes directly inside. -/
def childEvents : Node → List Event
  | navigator _ inside => inside.map .node
  | group g => g.children.map .screen
  | screen _ => []

theorem event_parts (n : Node) :
    n.event.parts = propsParts n.props? ++ paramsParts n.params? ++ n.childEvents := by
  cases n <;> simp [event, Event.parts, props?, params?, childEvents, paramsParts]

end Node

namespace Event

/-- The node that an event is the own event of. -/
def own? : Event → Option Node
  | navigator n => some n.node
  | group g => some (.group g)
  | screen s => some (.screen s)
  | _ => none

/-- The nodes that are met in an event. -/
def nodes : Event → List Node
  | node n => n.all
  | navigator n => n.node.all
  | group g => (Node.group g).all
  | screen s => (Node.screen s).all
  | record _ | value _ | expression _ => []

theorem own_event (n : Node) : n.event.own? = some n := by
  cases n <;> rfl

theorem eq_event_of_own {e : Event} {n : Node} (h : e.own? = some n) : e = n.event := by
  cases e <;> simp only [own?, Option.some.injEq, reduceCtorEq] at h <;> rw [← h] <;> rfl

theorem nodes_event (n : Node) : n.event.nodes = n.all := by
  cases n <;> rfl

theorem nodes_propsParts (props : Option Record) : (propsParts props).flatMap nodes = [] := by
  simp [propsParts, List.flatMap_map, nodes]

theorem nodes_paramsParts (params : Option Params) : (paramsParts params).flatMap nodes = [] := by
  rcases params with _ | ⟨r | e⟩ <;> rfl

theorem nodes_childEvents (n : Node) :
    n.childEvents.flatMap nodes = n.children.flatMap Node.all := by
  cases n with
  | navigator head inside => exact List.flatMap_map ..
  | group g =>
    rw [Node.childEvents, Node.children, List.flatMap_map, List.flatMap_map]
    rfl
  | screen s => rfl

/-- The own event of a node meets the node, and then what is below it. -/
theorem nodes_own_eq (n : Node) :
    n.event.nodes = n.event.own?.toList ++ n.event.parts.flatMap nodes := by
  rw [nodes_event, n.all_eq, own_event, n.event_parts, List.flatMap_append, List.flatMap_append,
    nodes_propsParts, nodes_paramsParts, nodes_childEvents]
  rfl

theorem nodes_eq (e : Event) : e.nodes = e.own?.toList ++ e.parts.flatMap nodes := by
  cases e with
  | node n => rw [parts, List.flatMap_singleton, nodes_event]; rfl
  | navigator n => exact nodes_own_eq n.node
  | group g => exact nodes_own_eq (.group g)
  | screen s => exact nodes_own_eq (.screen s)
  | record r => simp [nodes, own?, parts, List.flatMap_map]
  | value v => cases v <;> simp [nodes, own?, parts, Value.parts, List.flatMap_map]
  | expression e => rfl

end Event

/-- The nodes whose own events are among the events. -/
def nodesOf (events : List Event) : List Node := events.filterMap Event.own?

theorem nodesOf_enter (e : Event) (inside : List Event) :
    nodesOf (enter everything e inside) = e.own?.toList ++ nodesOf inside := by
  cases h : e.own? <;> simp [enter, everything, nodesOf, h]

theorem Event.nodesOf_walk (e : Event) : nodesOf (e.walk everything) = e.nodes := by
  induction e using Event.induct with
  | h e ih =>
    have hinside : nodesOf (e.parts.flatMap (walk everything)) = e.parts.flatMap nodes := by
      rw [nodesOf, List.filterMap_flatMap]
      exact List.flatMap_congr ih
    rw [walk_eq, nodesOf_enter, hinside, ← nodes_eq]

/-- What is walked through inside an event stands together in the walk through the event. -/
theorem Event.walk_infix {e x : Event} (h : x ∈ e.walk everything) :
    x.walk everything <:+: e.walk everything := by
  induction e using Event.induct with
  | h e ih =>
    have he : e.walk everything = e :: e.parts.flatMap (walk everything) := walk_eq everything e
    rw [he] at h ⊢
    rcases List.mem_cons.mp h with rfl | h
    · exact he ▸ List.infix_refl _
    · obtain ⟨p, hp, hx⟩ := List.mem_flatMap.mp h
      exact ((ih p hp hx).trans (List.infix_flatMap_of_mem hp _)).trans
        (List.suffix_cons e _).isInfix

theorem Node.event_walk (n : Node) : n.event.walk everything =
    n.event :: (walkProps everything n.props? ++ walkParams everything n.params?
      ++ n.childEvents.flatMap (Event.walk everything)) := by
  rw [Event.walk_eq, event_parts, List.flatMap_append, List.flatMap_append, walkProps_eq,
    walkParams_eq]
  rfl

namespace Tree

def parts (t : Tree) : List Event := t.navigators.map .navigator

variable {t : Tree}

theorem walk_eq (pruned : EventKind → Bool) :
    t.walk pruned = t.parts.flatMap (Event.walk pruned) := by
  rw [parts, List.flatMap_map]
  rfl

/-- The whole walk meets every node once, in declaration order. -/
theorem nodesOf_walk : nodesOf (t.walk everything) = t.nodes := by
  rw [walk_eq, nodesOf, List.filterMap_flatMap, nodes, parts, List.flatMap_map, List.flatMap_map]
  exact List.flatMap_congr fun n _ => Event.nodesOf_walk (.navigator n)

theorem walk_infix {x : Event} (h : x ∈ t.walk everything) :
    x.walk everything <:+: t.walk everything := by
  rw [walk_eq] at h ⊢
  obtain ⟨p, hp, hx⟩ := List.mem_flatMap.mp h
  exact (Event.walk_infix hx).trans (List.infix_flatMap_of_mem hp _)

theorem event_mem_walk {n : Node} (h : n ∈ t.nodes) : n.event ∈ t.walk everything := by
  rw [← nodesOf_walk, nodesOf, List.mem_filterMap] at h
  obtain ⟨e, he, hn⟩ := h
  exact Event.eq_event_of_own hn ▸ he

end Tree

end NavTree
