import NavTree.Proofs.Tree.Addresses
import NavTree.Tree.Flat

/-! # Visitors

A visitor goes down a tree by itself and may override what is done at each thing it meets. All that
visitors see is settled by the walk: a visitor that acts on the events it meets, and prunes some
kinds, acts on the events of the walk one after another.
-/
namespace NavTree

/-- What to do at each thing met on the way, which includes whether to walk through it. By default
a method only walks on. The state `σ` is what visitors gather. -/
structure Visitor (σ : Type) where
  node : Node → (σ → σ) → σ → σ := fun _ walk => walk
  navigator : Navigator → (σ → σ) → σ → σ := fun _ walk => walk
  group : Group → (σ → σ) → σ → σ := fun _ walk => walk
  screen : Screen → (σ → σ) → σ → σ := fun _ walk => walk
  record : Record → (σ → σ) → σ → σ := fun _ walk => walk
  value : Value → (σ → σ) → σ → σ := fun _ walk => walk
  expression : Expression → σ → σ := fun _ s => s

namespace Visitor

variable {σ : Type} (v : Visitor σ)

mutual

def visitValue (x : Value) : σ → σ :=
  v.value x <|
    match x with
    | .record entries => v.record ⟨entries⟩ (visitEntries entries)
    | .list items => visitItems items
    | .expression e => v.expression e
    | .string _ | .number _ | .boolean _ | .null | .code _ => id

def visitItems : List Value → σ → σ
  | [] => id
  | x :: rest => visitItems rest ∘ visitValue x

def visitEntries : List (String × Value) → σ → σ
  | [] => id
  | (_, x) :: rest => visitEntries rest ∘ visitValue x

end

def visitRecord (r : Record) : σ → σ := v.record r (v.visitEntries r.entries)

def visitProps : Option Record → σ → σ
  | some r => v.visitRecord r
  | none => id

def visitParams : Option Params → σ → σ
  | some (.record r) => v.visitRecord r
  | some (.expression e) => v.expression e
  | none => id

def visitScreen (s : Screen) : σ → σ := v.screen s (v.visitParams s.params ∘ v.visitProps s.props)

def visitScreens : List Screen → σ → σ
  | [] => id
  | s :: rest => visitScreens rest ∘ v.visitScreen s

def visitGroup (g : Group) : σ → σ := v.group g (v.visitScreens g.children ∘ v.visitProps g.props)

mutual

def visitNode (n : Node) : σ → σ :=
  v.node n <|
    match n with
    | .navigator head inside =>
      v.navigator ⟨head, inside⟩ (visitNodes inside ∘ v.visitProps head.props)
    | .group g => v.visitGroup g
    | .screen s => v.visitScreen s

def visitNodes : List Node → σ → σ
  | [] => id
  | n :: rest => visitNodes rest ∘ visitNode n

end

def visitNavigator (n : Navigator) : σ → σ :=
  v.navigator n (v.visitNodes n.children ∘ v.visitProps n.props)

def visitNavigators : List Navigator → σ → σ
  | [] => id
  | n :: rest => visitNavigators rest ∘ v.visitNavigator n

def visitTree (t : Tree) : σ → σ := v.visitNavigators t.navigators

section Acting

variable (act : σ → Event → σ) (pruned : EventKind → Bool)

/-- Acts on the event, and walks on unless its kind is pruned. -/
def onEvent (e : Event) (walk : σ → σ) (s : σ) : σ :=
  if pruned e.kind then act s e else walk (act s e)

def acting : Visitor σ where
  node n := onEvent act pruned (.node n)
  navigator n := onEvent act pruned (.navigator n)
  group g := onEvent act pruned (.group g)
  screen s := onEvent act pruned (.screen s)
  record r := onEvent act pruned (.record r)
  value x := onEvent act pruned (.value x)
  expression e s := act s (.expression e)

/-- To do `f` is to act on the events one after another. -/
def Folds (f : σ → σ) (events : List Event) : Prop := ∀ s, f s = events.foldl act s

variable {act pruned}

variable {f g : σ → σ} {before after : List Event}

theorem Folds.idle : Folds act id [] := fun _ => rfl

theorem Folds.comp (hf : Folds act f before) (hg : Folds act g after) :
    Folds act (g ∘ f) (before ++ after) := by
  intro s
  rw [List.foldl_append, Function.comp_apply, hf, hg]

theorem Folds.onEvent (h : Folds act f before) (e : Event) :
    Folds act (onEvent act pruned e f) (enter pruned e before) := by
  intro s
  rw [Visitor.onEvent, enter, List.foldl_cons]
  split
  · rfl
  · exact h _

theorem expression_acting (e : Expression) :
    Folds act ((acting act pruned).expression e) [.expression e] := fun _ => rfl

mutual

theorem visitValue_acting : ∀ x : Value,
    Folds act ((acting act pruned).visitValue x) (x.walk pruned)
  | .record entries => by
    rw [visitValue, Value.walk]
    exact ((visitEntries_acting entries).onEvent _).onEvent _
  | .list items => by
    rw [visitValue, Value.walk]
    exact (visitItems_acting items).onEvent _
  | .expression e => by
    rw [visitValue, Value.walk]
    exact (expression_acting e).onEvent _
  | .string _ | .number _ | .boolean _ | .null | .code _ => by
    rw [visitValue, Value.walk]
    exact Folds.idle.onEvent _

theorem visitItems_acting : ∀ items : List Value,
    Folds act ((acting act pruned).visitItems items) (Value.walkItems pruned items)
  | [] => Folds.idle
  | x :: rest => (visitValue_acting x).comp (visitItems_acting rest)

theorem visitEntries_acting : ∀ entries : List (String × Value),
    Folds act ((acting act pruned).visitEntries entries) (Value.walkEntries pruned entries)
  | [] => Folds.idle
  | (_, x) :: rest => (visitValue_acting x).comp (visitEntries_acting rest)

end

theorem visitRecord_acting (r : Record) :
    Folds act ((acting act pruned).visitRecord r) (r.walk pruned) :=
  (visitEntries_acting r.entries).onEvent _

theorem visitProps_acting (props : Option Record) :
    Folds act ((acting act pruned).visitProps props) (walkProps pruned props) := by
  cases props with
  | none => exact Folds.idle
  | some r => exact visitRecord_acting r

theorem visitParams_acting (params : Option Params) :
    Folds act ((acting act pruned).visitParams params) (walkParams pruned params) := by
  rcases params with _ | ⟨r | e⟩
  · exact Folds.idle
  · exact visitRecord_acting r
  · exact expression_acting e

theorem visitScreen_acting (s : Screen) :
    Folds act ((acting act pruned).visitScreen s) (s.walk pruned) :=
  ((visitProps_acting s.props).comp (visitParams_acting s.params)).onEvent _

theorem visitScreens_acting : ∀ screens : List Screen,
    Folds act ((acting act pruned).visitScreens screens) (screens.flatMap (·.walk pruned))
  | [] => Folds.idle
  | s :: rest => (visitScreen_acting s).comp (visitScreens_acting rest)

theorem visitGroup_acting (g : Group) :
    Folds act ((acting act pruned).visitGroup g) (g.walk pruned) :=
  ((visitProps_acting g.props).comp (visitScreens_acting g.children)).onEvent _

mutual

theorem visitNode_acting : ∀ n : Node,
    Folds act ((acting act pruned).visitNode n) (n.walk pruned)
  | .navigator head inside => by
    rw [visitNode, Node.walk]
    exact (((visitProps_acting head.props).comp (visitNodes_acting inside)).onEvent _).onEvent _
  | .group g => by
    rw [visitNode, Node.walk]
    exact (visitGroup_acting g).onEvent _
  | .screen s => by
    rw [visitNode, Node.walk]
    exact (visitScreen_acting s).onEvent _

theorem visitNodes_acting : ∀ nodes : List Node,
    Folds act ((acting act pruned).visitNodes nodes) (Node.walkList pruned nodes)
  | [] => Folds.idle
  | n :: rest => (visitNode_acting n).comp (visitNodes_acting rest)

end

theorem visitNavigator_acting (n : Navigator) :
    Folds act ((acting act pruned).visitNavigator n) (n.walk pruned) :=
  ((visitProps_acting n.props).comp (visitNodes_acting n.children)).onEvent _

theorem visitNavigators_acting : ∀ navigators : List Navigator,
    Folds act ((acting act pruned).visitNavigators navigators)
      (navigators.flatMap (·.walk pruned))
  | [] => Folds.idle
  | n :: rest => (visitNavigator_acting n).comp (visitNavigators_acting rest)

/-- A visitor that acts on every event it meets acts on the events of the walk. -/
theorem visitTree_acting (t : Tree) (s : σ) :
    (acting act pruned).visitTree t s = (t.walk pruned).foldl act s :=
  visitNavigators_acting t.navigators s

end Acting

/-- Overrides every method to note the event down, and walks on unless its kind is pruned. -/
def recorder (pruned : EventKind → Bool) : Visitor (List Event) where
  node n walk events := if pruned .node then events ++ [.node n] else walk (events ++ [.node n])
  navigator n walk events :=
    if pruned .navigator then events ++ [.navigator n] else walk (events ++ [.navigator n])
  group g walk events := if pruned .group then events ++ [.group g] else walk (events ++ [.group g])
  screen s walk events :=
    if pruned .screen then events ++ [.screen s] else walk (events ++ [.screen s])
  record r walk events :=
    if pruned .record then events ++ [.record r] else walk (events ++ [.record r])
  value x walk events := if pruned .value then events ++ [.value x] else walk (events ++ [.value x])
  expression e events := events ++ [.expression e]

/-- Overrides the method for expressions only. -/
def reader (read : σ → Expression → σ) : Visitor σ where
  expression e s := read s e

/-- Notes down screens, which it walks through, and expressions. -/
def collector : Visitor (List Screen × List Expression) where
  screen s walk found := walk (found.1 ++ [s], found.2)
  expression e found := (found.1, found.2 ++ [e])

theorem recorder_eq (pruned : EventKind → Bool) :
    recorder pruned = acting (fun events e => events ++ [e]) pruned := rfl

theorem visitTree_recorder (pruned : EventKind → Bool) (t : Tree) :
    (recorder pruned).visitTree t [] = t.walk pruned := by
  rw [recorder_eq, visitTree_acting, List.foldl_append_eq_append, List.nil_append]
  exact List.flatMap_singleton' _

/-- What a reader does with an event. -/
def readEvent (read : σ → Expression → σ) (s : σ) : Event → σ
  | .expression e => read s e
  | _ => s

theorem foldl_readEvent (read : σ → Expression → σ) (events : List Event) (s : σ) :
    events.foldl (readEvent read) s = (events.filterMap Event.expression?).foldl read s := by
  induction events generalizing s with
  | nil => rfl
  | cons e rest ih =>
    rw [List.foldl_cons, ih]
    cases e <;> rfl

theorem visitTree_reader (read : σ → Expression → σ) (t : Tree) (s : σ) :
    (reader read).visitTree t s =
      ((t.walk everything).filterMap Event.expression?).foldl read s := by
  have hacting : reader read = acting (readEvent read) everything := rfl
  rw [hacting, visitTree_acting, foldl_readEvent]

/-- What a collector does with an event. -/
def collect (found : List Screen × List Expression) : Event → List Screen × List Expression
  | .screen s => (found.1 ++ [s], found.2)
  | .expression e => (found.1, found.2 ++ [e])
  | _ => found

theorem foldl_collect (events : List Event) (screens : List Screen) (es : List Expression) :
    events.foldl collect (screens, es) =
      (screens ++ events.filterMap Event.screen?, es ++ events.filterMap Event.expression?) := by
  induction events generalizing screens es with
  | nil => simp
  | cons e rest ih =>
    rw [List.foldl_cons]
    cases e <;> simp [collect, ih, Event.screen?, Event.expression?, List.filterMap_cons]

theorem visitTree_collector (t : Tree) : collector.visitTree t ([], []) =
    ((t.walk everything).filterMap Event.screen?, t.flatten.expressions) := by
  have hacting : collector = acting collect everything := rfl
  rw [hacting, visitTree_acting, foldl_collect, List.nil_append, List.nil_append]
  rfl

end Visitor

open Visitor in
/-- The list of events of a tree, with what it says about the tree and about other visitors. -/
structure Tree.OneTraversal (t : Tree) (events : List Event) : Prop where
  /-- There is one address for each event inside the tree. -/
  addresses_complete : ∀ a, a ∈ t.addresses ↔ (t.at? a).isSome
  addresses_sorted : t.addresses.Pairwise (· < ·)
  events_eq : events = t.addresses.filterMap t.at?
  /-- Pruning takes out the events that lie strictly inside one of a pruned kind. -/
  pruned_eq : ∀ pruned, (recorder pruned).visitTree t [] =
    (t.addresses.filter (isReached pruned t.at?)).filterMap t.at?
  nodes_eq : nodesOf events = t.nodes
  /-- After a node come its props, then its params, then what is directly inside. -/
  node_order : ∀ n ∈ t.nodes,
    n.event :: (walkProps everything n.props? ++ walkParams everything n.params?
      ++ n.childEvents.flatMap (Event.walk everything)) <:+: events
  reader_eq : ∀ {σ : Type} (read : σ → Expression → σ) (s : σ),
    (reader read).visitTree t s = (events.filterMap Event.expression?).foldl read s
  collector_eq : collector.visitTree t ([], []) =
    (events.filterMap Event.screen?, events.filterMap Event.expression?)
  flat_expressions_eq : t.flatten.expressions = events.filterMap Event.expression?
  flat_screens_eq : t.flatten.screens = firsts Screen.key [] (events.filterMap Event.screen?)

open Visitor in
/-- What a visitor notes down that looks at everything settles what all others see. -/
theorem Tree.recorder_oneTraversal (t : Tree) :
    t.OneTraversal ((recorder everything).visitTree t []) := by
  have hevents : (recorder everything).visitTree t [] = t.walk everything :=
    visitTree_recorder everything t
  rw [hevents]
  exact {
    addresses_complete := t.mem_addresses
    addresses_sorted := t.sorted_addresses
    events_eq := t.walk_everything_eq
    pruned_eq := fun pruned => (visitTree_recorder pruned t).trans (t.walk_eq_filter pruned)
    nodes_eq := nodesOf_walk
    node_order := fun n hn => n.event_walk ▸ walk_infix (event_mem_walk hn)
    reader_eq := fun read s => visitTree_reader read t s
    collector_eq := visitTree_collector t
    flat_expressions_eq := rfl
    flat_screens_eq := rfl }

namespace Plain

/-- A screen with a list among its props. -/
def listedProps : Record :=
  ⟨[("badges", .list [.expression ⟨"New", none⟩]), ("title", .string "Feed")]⟩

def listedHome : NavigatorHead := head "Home" false none

def listedFeed : Screen := { screen "Feed" listedHome.trail with props := some listedProps }

def listedRoot : Navigator := ⟨listedHome, [.screen listedFeed]⟩

def listedTree : Tree := tree [listedRoot]

theorem listed_traversed :
    (Visitor.reader fun seen e => seen ++ [e.code]).visitTree listedTree [] = ["New"] ∧
    listedTree.flatten.expressions = [⟨"New", none⟩] ∧
    nodesOf ((Visitor.recorder everything).visitTree listedTree []) =
      [listedRoot.node, .screen listedFeed] ∧
    .screen listedFeed :: listedProps.walk everything <:+:
      (Visitor.recorder everything).visitTree listedTree [] := by
  have htraversal := Tree.recorder_oneTraversal listedTree
  have hroot : listedRoot.node ∈ listedTree.nodes := Tree.navigator_mem_nodes List.mem_cons_self
  have hfeed : .screen listedFeed ∈ listedTree.nodes :=
    Tree.child_mem_nodes hroot List.mem_cons_self
  refine ⟨?_, ?_, htraversal.nodes_eq, htraversal.node_order _ hfeed⟩
  · rw [htraversal.reader_eq]
    rfl
  · rw [htraversal.flat_expressions_eq]
    rfl

example : (((Visitor.recorder everything).visitTree listedTree []).map Event.kind) =
    [.navigator, .node, .screen, .record, .value, .value, .expression, .value] := by rfl

example : (((Visitor.recorder (· == .value)).visitTree listedTree []).map Event.kind) =
    [.navigator, .node, .screen, .record, .value, .value] := by rfl

end Plain

end NavTree
