import NavTree.Tree.Flat

/-! # Positions in a tree

Which navigators and screens a tree contains, said by nesting alone. The lists of a flattened tree
hold exactly these: all navigators, and one screen for every name and container name.
-/
namespace NavTree

/-- The navigators nested in a navigator at any depth, itself included. -/
inductive Navigator.Reaches : Navigator → Navigator → Prop
  | refl (n : Navigator) : Reaches n n
  | step {n child m : Navigator} (h : child ∈ n.nested) (hm : Reaches child m) : Reaches n m

namespace Navigator

/-- A screen stands directly in the navigator or in one of its groups. -/
def Holds (n : Navigator) (s : Screen) : Prop :=
  .screen s ∈ n.children ∨ ∃ g, .group g ∈ n.children ∧ s ∈ g.children

theorem Reaches.nested {n m child : Navigator} (h : n.Reaches m) (hc : child ∈ m.nested) :
    n.Reaches child := by
  induction h with
  | refl n => exact .step hc (.refl child)
  | step hm _ ih => exact .step hm (ih hc)

theorem mem_nested {n child : Navigator} :
    child ∈ n.nested ↔ child.node ∈ n.children := by
  simp only [nested, List.mem_filterMap]
  constructor
  · rintro ⟨node, hn, he⟩
    cases node with
    | navigator head children =>
      obtain rfl : (⟨head, children⟩ : Navigator) = child := by simpa [Node.navigator?] using he
      exact hn
    | group g => simp [Node.navigator?] at he
    | screen s => simp [Node.navigator?] at he
  · intro h
    exact ⟨child.node, h, rfl⟩

theorem isExternal_eq_false {n : Navigator} {node : Node} (h : node ∈ n.children) :
    n.isExternal = false := by
  have hne : n.children.isEmpty = false := by
    cases hc : n.children with
    | nil => simp [hc] at h
    | cons _ _ => rfl
  simp [isExternal, externalPath?, hne]

theorem Holds.isExternal {n : Navigator} {s : Screen} (h : n.Holds s) : n.isExternal = false := by
  rcases h with h | ⟨g, h, _⟩
  · exact isExternal_eq_false h
  · exact isExternal_eq_false h

end Navigator

/-- A navigator of the top level, or one nested in it. -/
def Tree.Contains (t : Tree) (n : Navigator) : Prop := ∃ top ∈ t.navigators, top.Reaches n

theorem Tree.Contains.nested {t : Tree} {n child : Navigator} (h : t.Contains n)
    (hc : child ∈ n.nested) : t.Contains child := by
  obtain ⟨top, ht, hr⟩ := h
  exact ⟨top, ht, hr.nested hc⟩

/-- What holds at the top level and passes from a navigator to those directly inside holds of every
navigator. -/
theorem Tree.Contains.induct {t : Tree} {P : Navigator → Prop} (htop : ∀ n ∈ t.navigators, P n)
    (hstep : ∀ n, t.Contains n → P n → ∀ child ∈ n.nested, P child) {n : Navigator}
    (hn : t.Contains n) : P n := by
  obtain ⟨top, ht, hr⟩ := hn
  have hinside : t.Contains top ∧ P top := ⟨⟨top, ht, .refl top⟩, htop top ht⟩
  clear ht
  induction hr with
  | refl n => exact hinside.2
  | step hc _ ih => exact ih ⟨hinside.1.nested hc, hstep _ hinside.1 hinside.2 _ hc⟩

namespace Node

mutual

theorem mem_place (placed : List Navigator) (m : Navigator) : ∀ node : Node,
    m ∈ place placed node ↔ m ∈ placed ∨ ∃ n, node.navigator? = some n ∧ n.Reaches m
  | .navigator head children => by
    have ih := mem_placeList [] m children
    simp only [place, List.mem_append, ih, List.not_mem_nil, false_or, List.mem_singleton,
      navigator?, Option.some.injEq, exists_eq_left']
    constructor
    · rintro ((⟨n, hn, hr⟩ | h) | rfl)
      · exact .inr (.step hn hr)
      · exact .inl h
      · exact .inr (.refl _)
    · rintro (h | h)
      · exact .inl (.inr h)
      · cases h with
        | refl => exact .inr rfl
        | step hn hr => exact .inl (.inl ⟨_, hn, hr⟩)
  | .group g => by simp [place, navigator?]
  | .screen s => by simp [place, navigator?]

theorem mem_placeList (placed : List Navigator) (m : Navigator) : ∀ nodes : List Node,
    m ∈ placeList placed nodes ↔
      m ∈ placed ∨ ∃ n ∈ nodes.filterMap Node.navigator?, n.Reaches m
  | [] => by simp [placeList]
  | node :: rest => by
    simp only [placeList, mem_placeList (place placed node) m rest, mem_place placed m node,
      List.mem_filterMap, List.mem_cons, or_assoc]
    refine or_congr Iff.rfl ?_
    constructor
    · rintro (⟨n, hn, hr⟩ | ⟨n, ⟨a, ha, hn⟩, hr⟩)
      · exact ⟨n, ⟨node, .inl rfl, hn⟩, hr⟩
      · exact ⟨n, ⟨a, .inr ha, hn⟩, hr⟩
    · rintro ⟨n, ⟨a, rfl | ha, hn⟩, hr⟩
      · exact .inl ⟨n, hn, hr⟩
      · exact .inr ⟨n, ⟨a, ha, hn⟩, hr⟩

end

end Node

theorem Tree.mem_placedNavigators {t : Tree} {m : Navigator} :
    m ∈ t.placedNavigators ↔ t.Contains m := by
  have hnode : Node.navigator? ∘ Navigator.node = some := rfl
  rw [placedNavigators, Node.mem_placeList, List.filterMap_map, hnode, List.filterMap_some]
  simp only [List.not_mem_nil, false_or, Contains]

def screensOf (events : List Event) : List Screen := events.filterMap Event.screen?

theorem screensOf_append (es fs : List Event) :
    screensOf (es ++ fs) = screensOf es ++ screensOf fs := List.filterMap_append

theorem screensOf_flatMap {α : Type} (f : α → List Event) (l : List α) :
    screensOf (l.flatMap f) = l.flatMap fun a => screensOf (f a) := by
  induction l with
  | nil => rfl
  | cons a l ih => simp only [List.flatMap_cons, screensOf_append, ih]

theorem screensOf_enter (e : Event) (inside : List Event) :
    screensOf (enter everything e inside) = e.screen?.toList ++ screensOf inside := by
  cases h : e.screen? <;> simp [enter, everything, screensOf, h]

namespace Value

mutual

theorem screensOf_walk : ∀ v : Value, screensOf (v.walk everything) = []
  | .record entries => by
    simp [walk, screensOf_enter, Event.screen?, screensOf_walkEntries entries]
  | .list items => by simp [walk, screensOf_enter, Event.screen?, screensOf_walkItems items]
  | .expression _ | .string _ | .number _ | .boolean _ | .null | .code _ => by
    simp [walk, enter, everything, screensOf, Event.screen?]

theorem screensOf_walkItems : ∀ items : List Value, screensOf (walkItems everything items) = []
  | [] => rfl
  | v :: rest => by
    rw [walkItems, screensOf_append, screensOf_walk v, screensOf_walkItems rest]; rfl

theorem screensOf_walkEntries : ∀ entries : List (String × Value),
    screensOf (walkEntries everything entries) = []
  | [] => rfl
  | (_, v) :: rest => by
    rw [walkEntries, screensOf_append, screensOf_walk v, screensOf_walkEntries rest]; rfl

end

end Value

theorem Record.screensOf_walk (r : Record) : screensOf (r.walk everything) = [] := by
  simp [walk, screensOf_enter, Event.screen?, Value.screensOf_walkEntries]

theorem screensOf_walkProps (props : Option Record) :
    screensOf (walkProps everything props) = [] := by
  cases props with
  | none => rfl
  | some r => exact r.screensOf_walk

theorem screensOf_walkParams (params : Option Params) :
    screensOf (walkParams everything params) = [] := by
  rcases params with _ | ⟨r | e⟩
  · rfl
  · exact r.screensOf_walk
  · rfl

theorem Screen.screensOf_walk (s : Screen) : screensOf (s.walk everything) = [s] := by
  simp [walk, screensOf_enter, screensOf_append, screensOf_walkProps, screensOf_walkParams,
    Event.screen?]

theorem Group.screensOf_walk (g : Group) : screensOf (g.walk everything) = g.children := by
  simp [walk, screensOf_enter, screensOf_append, screensOf_walkProps, screensOf_flatMap,
    Screen.screensOf_walk, Event.screen?]

namespace Node

/-- The screens that stand in a node without a navigator between. -/
def ownScreens : Node → List Screen
  | navigator _ _ => []
  | group g => g.children
  | screen s => [s]

mutual

theorem mem_screensOf_walk (s : Screen) : ∀ node : Node,
    s ∈ screensOf (node.walk everything) ↔
      s ∈ node.ownScreens ∨ ∃ n m, node.navigator? = some n ∧ n.Reaches m ∧ m.Holds s
  | .navigator head children => by
    have ih := mem_screensOf_walkList s children
    simp only [walk, screensOf_enter, screensOf_append, screensOf_walkProps, Event.screen?,
      Option.toList_none, List.nil_append, ih, ownScreens, List.not_mem_nil, false_or, navigator?,
      Option.some.injEq, exists_eq_left', exists_and_left]
    constructor
    · rintro (h | ⟨n, hn, m, hr, hs⟩)
      · exact ⟨_, .refl _, h⟩
      · exact ⟨m, .step hn hr, hs⟩
    · rintro ⟨m, hr, hs⟩
      cases hr with
      | refl => exact .inl hs
      | step hn hr => exact .inr ⟨_, hn, m, hr, hs⟩
  | .group g => by
    simp [walk, screensOf_enter, Group.screensOf_walk, ownScreens, navigator?, Event.screen?]
  | .screen s' => by
    simp [walk, screensOf_enter, Screen.screensOf_walk, ownScreens, navigator?, Event.screen?]

theorem mem_screensOf_walkList (s : Screen) : ∀ nodes : List Node,
    s ∈ screensOf (walkList everything nodes) ↔
      (.screen s ∈ nodes ∨ ∃ g, .group g ∈ nodes ∧ s ∈ g.children) ∨
        ∃ n ∈ nodes.filterMap Node.navigator?, ∃ m, n.Reaches m ∧ m.Holds s
  | [] => by simp [walkList, screensOf]
  | node :: rest => by
    rw [walkList, screensOf_append, List.mem_append, mem_screensOf_walk s node,
      mem_screensOf_walkList s rest]
    cases node <;> simp [ownScreens, navigator?, exists_or, or_and_right, or_assoc, or_left_comm]

end

end Node

/-- The screens met by a walk through a tree are those that its navigators hold. -/
theorem Tree.mem_screensOf_walk {t : Tree} {s : Screen} :
    s ∈ screensOf (t.walk everything) ↔ ∃ n, t.Contains n ∧ n.Holds s := by
  have hwalk : ∀ top : Navigator, s ∈ screensOf (top.walk everything) ↔
      ∃ n, top.Reaches n ∧ n.Holds s := by
    intro top
    have h := Node.mem_screensOf_walk s top.node
    simpa [Navigator.node, Node.walk, Navigator.walk, screensOf_enter, Event.screen?,
      Node.ownScreens, Node.navigator?] using h
  simp only [walk, screensOf_flatMap, List.mem_flatMap, hwalk, Contains]
  constructor
  · rintro ⟨top, ht, n, hr, hs⟩
    exact ⟨n, ⟨top, ht, hr⟩, hs⟩
  · rintro ⟨n, ⟨top, ht, hr⟩, hs⟩
    exact ⟨top, ht, n, hr, hs⟩

/-- What is kept of a list is the first of its elements with each key that was not seen before. -/
theorem mem_firsts {α κ : Type} [BEq κ] [LawfulBEq κ] {key : α → κ} {seen : List κ} {l : List α}
    {b : α} : b ∈ firsts key seen l ↔
      key b ∉ seen ∧ l.find? (fun a => key a == key b) = some b := by
  induction l generalizing seen with
  | nil => simp [firsts]
  | cons a as ih =>
    rw [firsts, List.find?_cons]
    by_cases hk : key a = key b
    · by_cases hs : key a ∈ seen
      · have hb : key b ∉ seen ↔ False := by simp [← hk, hs]
        simp [hs, ih, hb]
      · have hb : key b ∉ seen := hk ▸ hs
        simp [ih, hk, hb, eq_comm]
    · have hb : (key a == key b) = false := by simpa using hk
      have hab : b ≠ a := fun h => hk (h ▸ rfl)
      by_cases hs : key a ∈ seen
      · simp [hs, ih, hb]
      · simp [hs, ih, hb, hab, Ne.symm hk]

/-- The first screen below the navigators, in declaration order, with a name and container name. -/
def Tree.first? (t : Tree) (key : String × String) : Option Screen :=
  (screensOf (t.walk everything)).find? (·.key == key)

/-- A flattened tree keeps a screen exactly when none with its key comes before it. -/
theorem Tree.mem_flatten_screens {t : Tree} {s : Screen} :
    s ∈ t.flatten.screens ↔ t.first? s.key = some s := by
  change s ∈ firsts Screen.key [] (screensOf (t.walk everything)) ↔ _
  simp [mem_firsts, first?]

/-- Every screen below the navigators has a kept one with its key. -/
theorem Tree.exists_first {t : Tree} {n : Navigator} {s : Screen} (hn : t.Contains n)
    (hs : n.Holds s) : ∃ f, t.first? s.key = some f ∧ f.key = s.key ∧ f ∈ t.flatten.screens := by
  have hmem : s ∈ screensOf (t.walk everything) := mem_screensOf_walk.mpr ⟨n, hn, hs⟩
  cases hf : t.first? s.key with
  | none => exact absurd (List.find?_eq_none.mp hf s hmem) (by simp)
  | some f =>
    have hk : f.key = s.key := by simpa using List.find?_some hf
    exact ⟨f, rfl, hk, mem_flatten_screens.mpr (hk ▸ hf)⟩

end NavTree
