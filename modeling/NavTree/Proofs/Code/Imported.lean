import NavTree.Proofs.Code.Builder
import NavTree.Proofs.Code.Markup
import NavTree.Proofs.Code.NamedImports
import NavTree.Proofs.Tree.Mentions

/-! # Imports of spliced code

The imports of the component file are gathered by a walk, its code by going down the values of the
props. Whatever is spliced is met by the walk, so it is imported. The routes file imports what the
annotations of its builders splice, and nothing else.
-/
namespace NavTree

/-- The records that the elements of the components render. Stand-ins have no props but the ones
that are set for them. -/
inductive Tree.Renders (t : Tree) : Element → Record → Prop
  | navigator {n : Navigator} {r : Record} (hn : t.Contains n) (hg : n.isExternal = false)
    (hr : n.props = some r) : Renders t n.element r
  | group {n : Navigator} {g : Group} {r : Record} (hn : t.Contains n)
    (hg : .group g ∈ n.children) (hr : g.props = some r) : Renders t g.element r
  | screen {n : Navigator} {s : Screen} (hn : t.Contains n) (hs : n.Holds s) :
    Renders t s.element s.elementProps
  | standIn {n child : Navigator} (hn : t.Contains n) (hc : child ∈ n.nested) :
    Renders t (n.childScreen child).element (n.childScreen child).elementProps

namespace Record

variable {key : String} {v : Value}

/-- An entry of a record becomes an attribute if its value has code. -/
theorem attribute_of_entry {r : Record} {c : Spliced String} (h : (key, v) ∈ r.entries)
    (hc : v.code? = some c) : (⟨key, c.code⟩ : Attribute) ∈ r.attributes.code :=
  mem_attributesOf.mpr ⟨v, c.uses, h, hc⟩

end Record

namespace Value

variable {e : Expression}

mutual

theorem mentions_of_fragments : ∀ {v : Value}, e ∈ v.fragments → v.Mentions e
  | .expression x, h => by
    rw [fragments] at h
    exact mentions_expression.mpr (List.mem_singleton.mp h).symm
  | .record entries, h => by
    rw [fragments] at h
    obtain ⟨key, v, hv, he⟩ := mentions_of_fragmentsOf h
    exact .entry hv he
  | .list _, h | .string _, h | .number _, h | .boolean _, h | .null, h | .code _, h => by
    rw [fragments] at h
    cases h

theorem mentions_of_fragmentsOf : ∀ {entries : List (String × Value)}, e ∈ fragmentsOf entries →
    ∃ key v, (key, v) ∈ entries ∧ v.Mentions e
  | [], h => by cases h
  | (key, v) :: rest, h => by
    rw [fragmentsOf] at h
    rcases List.mem_append.mp h with h | h
    · exact ⟨key, v, List.mem_cons_self, mentions_of_fragments h⟩
    · obtain ⟨k, w, hw, he⟩ := mentions_of_fragmentsOf h
      exact ⟨k, w, List.mem_cons_of_mem _ hw, he⟩

end

end Value

namespace Screen

variable {s : Screen} {key : String} {v : Value}

/-- A value that splices nothing, or one of the user's props. -/
def PlainOrGiven (s : Screen) (key : String) (v : Value) : Prop :=
  v.fragments = [] ∨ ∃ r, s.props = some r ∧ (key, v) ∈ r.entries

theorem given_plainOrGiven (h : (key, v) ∈ (s.props.getD .empty).entries) :
    s.PlainOrGiven key v := by
  cases hp : s.props with
  | none =>
    rw [hp] at h
    cases h
  | some r =>
    rw [hp] at h
    exact .inr ⟨r, hp, h⟩

/-- Beside the user's props, an element of a screen has built code and null only. -/
theorem mem_elementProps (h : (key, v) ∈ s.elementProps.entries) : s.PlainOrGiven key v := by
  have hnamed : ∀ w, (key, w) ∈ ((s.props.getD .empty).insert "name"
      (.code ("route." ++ s.routeSymbol))).entries → s.PlainOrGiven key w :=
    Record.forall_put (fun _ hw => given_plainOrGiven hw) (.inl rfl)
  -- The two loader keys are written over what there is, one of them with null.
  unfold elementProps at h
  split at h
  · exact Record.forall_put (Record.forall_put hnamed (.inl rfl)) (.inl rfl) v h
  · exact Record.forall_put (Record.forall_put hnamed (.inl rfl)) (.inl rfl) v h

end Screen

namespace Tree

variable {t : Tree} {n : Navigator} {s : Screen} {el : Element} {r : Record}

theorem Contains.mem_nodes (h : t.Contains n) : n.node ∈ t.nodes := by
  refine h.induct (P := fun n => n.node ∈ t.nodes) ?_ ?_
  · exact fun n hn => navigator_mem_nodes hn
  · exact fun n _ hn child hc => child_mem_nodes hn (Navigator.mem_nested.mp hc)

theorem Contains.screen_mem_nodes (h : t.Contains n) (hs : n.Holds s) : .screen s ∈ t.nodes := by
  rcases hs with hs | ⟨g, hg, hs⟩
  · exact child_mem_nodes h.mem_nodes hs
  · have hgroup : .group g ∈ t.nodes := child_mem_nodes h.mem_nodes hg
    exact child_mem_nodes hgroup (List.mem_map_of_mem hs)

theorem propAttributes_entry {props : Option Record} {a : Attribute}
    (h : a ∈ propAttributes props) : ∃ r, props = some r ∧ a ∈ r.attributes.code := by
  cases props with
  | none => cases h
  | some r => exact ⟨r, rfl, h⟩

/-- The attributes of an element are those of the record that it renders. -/
theorem Renders.attributes_eq (h : t.Renders el r) : el.attributes = r.attributes.code := by
  cases h with
  | navigator hn hg hr =>
    rw [Navigator.element, Element.attributes, hr]
    rfl
  | group hn hg hr =>
    rw [Group.element, Element.attributes, hr]
    rfl
  | screen hn hs => rfl
  | standIn hn hc => rfl

/-- Every attribute in a component comes from a record that is rendered. -/
theorem exists_renders (hn : n ∈ t.flatten.generated) (hel : el ∈ n.element :: n.element.inside)
    {a : Attribute} (ha : a ∈ el.attributes) : ∃ r, t.Renders el r ∧ a ∈ r.attributes.code := by
  obtain ⟨hn, hg⟩ := mem_generated.mp hn
  rcases List.mem_cons.mp hel with rfl | hel
  · obtain ⟨r, hr, ha⟩ := propAttributes_entry ha
    exact ⟨r, .navigator hn hg hr, ha⟩
  rcases Navigator.mem_element_inside.mp hel with ⟨s, hs, rfl⟩ | ⟨g, hg, rfl⟩ | ⟨child, hc, rfl⟩
  · exact ⟨_, .screen hn hs, ha⟩
  · obtain ⟨r, hr, ha⟩ := propAttributes_entry ha
    exact ⟨r, .group hn hg hr, ha⟩
  · exact ⟨_, .standIn hn hc, ha⟩

/-- An entry that splices anything is one of the props of a node. -/
theorem Renders.entry_cases (h : t.Renders el r) {key : String} {v : Value}
    (hv : (key, v) ∈ r.entries) :
    v.fragments = [] ∨
      ∃ m ∈ t.nodes, ∃ props, m.props? = some props ∧ (key, v) ∈ props.entries := by
  cases h with
  | navigator hn _ hr => exact .inr ⟨_, hn.mem_nodes, r, hr, hv⟩
  | group hn hg hr => exact .inr ⟨_, child_mem_nodes hn.mem_nodes hg, r, hr, hv⟩
  | screen hn hs =>
    rcases Screen.mem_elementProps hv with hnone | ⟨props, hp, hv⟩
    · exact .inl hnone
    · exact .inr ⟨_, hn.screen_mem_nodes hs, props, hp, hv⟩
  | standIn hn hc =>
    rcases Screen.mem_elementProps hv with hnone | ⟨props, hp, _⟩
    · exact .inl hnone
    · cases hp

/-- What a rendered record splices is met by the walk, and so it is imported. -/
theorem Renders.binds (h : t.Renders el r) {key : String} {v : Value} (hv : (key, v) ∈ r.entries)
    {e : Expression} (he : e ∈ v.fragments) {i : Import} (hi : e.use = some i) :
    t.flatten.component.Binds i := by
  rcases h.entry_cases hv with hnone | ⟨m, hm, props, hp, hv⟩
  · rw [hnone] at he
    cases he
  · have hmentions : props.Mentions e :=
      ⟨v, List.mem_map.mpr ⟨(key, v), hv, rfl⟩, Value.mentions_of_fragments he⟩
    have hexpression : e ∈ t.flatten.expressions :=
      mem_flatten_expressions.mpr ⟨m, hm, .inl ⟨props, hp, hmentions⟩⟩
    exact binds_iff.mpr (.fragment hexpression hi)

end Tree

theorem Screen.mem_routeBuilder_uses {s : Screen} {i : Import} : i ∈ s.routeBuilder.uses ↔
    ∃ p, s.params = some p ∧ ∃ e ∈ p.fragments, e.use = some i := by
  unfold routeBuilder
  cases s.params with
  | none => simp
  | some p => simp [p.typeCode_splices.uses_eq]

/-- The builder of a screen with params holds their type. -/
theorem Screen.annotation_occurs {s : Screen} {p : Params} (h : s.params = some p) :
    ∃ value, s.routeBuilder.code = .constant true s.builderSymbol value ∧
      Occurs p.typeCode.code value := by
  unfold routeBuilder
  rw [h]
  exact ⟨_, rfl, (((((Occurs.refl _).before _).after _).after _).after _)⟩

/-- The imports of the two generated sources against the code that is spliced into them. -/
structure Tree.ImportsSpliced (t : Tree) : Prop where
  /-- The component of a navigator shows the elements whose attributes are meant below. -/
  shown : ∀ n ∈ t.flatten.generated, n.componentDeclaration ∈ t.flatten.component.declarations ∧
    ∀ el ∈ n.element :: n.element.inside, el.ShownIn n.componentDeclaration.text
  /-- Every attribute of a component is the code of a value in a rendered record. -/
  attribute_rendered : ∀ n ∈ t.flatten.generated, ∀ el ∈ n.element :: n.element.inside,
    ∀ a ∈ el.attributes, ∃ r v c,
      t.Renders el r ∧ (a.key, v) ∈ r.entries ∧ v.code? = some c ∧ c.code = a.value
  /-- Such a value splices its fragments, and all of these have their imports. -/
  fragment_imported : ∀ el r, t.Renders el r → ∀ key v c, (key, v) ∈ r.entries →
    v.code? = some c → (⟨key, c.code⟩ : Attribute) ∈ el.attributes ∧ c.Splices v.fragments ∧
      ∀ e ∈ v.fragments, ∀ i, e.use = some i → t.flatten.component.Binds i
  component_binds_iff : ∀ i, t.flatten.component.Binds i ↔
    (∃ n, t.Contains n ∧ n.kind.factory = i) ∨
    (∃ n, t.Contains n ∧ n.externalImport? = some i) ∨
    (∃ s ∈ t.flatten.screens, s.eagerImport? = some i) ∨
    ∃ n ∈ t.nodes, ∃ e, n.Mentions e ∧ e.use = some i
  annotation_splices : ∀ s ∈ t.flatten.screens, ∀ p, s.params = some p →
    p.typeCode.Splices p.fragments ∧ ∃ value, Occurs p.typeCode.code value ∧
      .constant true s.builderSymbol value ∈ t.flatten.routes.declarations
  routes_binds_iff : ∀ i, t.flatten.routes.Binds i ↔
    ∃ s ∈ t.flatten.screens, ∃ p, s.params = some p ∧ ∃ e ∈ p.fragments, e.use = some i
  component_apart : t.flatten.component.ImportsApart
  routes_apart : t.flatten.routes.ImportsApart

namespace Tree

variable {t : Tree}

theorem component_binds_iff {i : Import} : t.flatten.component.Binds i ↔
    (∃ n, t.Contains n ∧ n.kind.factory = i) ∨
    (∃ n, t.Contains n ∧ n.externalImport? = some i) ∨
    (∃ s ∈ t.flatten.screens, s.eagerImport? = some i) ∨
    ∃ n ∈ t.nodes, ∃ e, n.Mentions e ∧ e.use = some i := by
  have hneeds : t.flatten.component.Binds i ↔ t.Needs i := binds_iff
  rw [hneeds]
  constructor
  · rintro (@⟨n, hn⟩ | @⟨n, _, hn, hi⟩ | @⟨s, _, hs, hi⟩ | @⟨e, _, he, hi⟩)
    · exact .inl ⟨n, hn, rfl⟩
    · exact .inr (.inl ⟨n, hn, hi⟩)
    · exact .inr (.inr (.inl ⟨s, mem_flatten_screens.mpr hs, hi⟩))
    · obtain ⟨n, hn, he⟩ := mem_flatten_expressions.mp he
      exact .inr (.inr (.inr ⟨n, hn, e, he, hi⟩))
  · rintro (⟨n, hn, rfl⟩ | ⟨n, hn, hi⟩ | ⟨s, hs, hi⟩ | ⟨n, hn, e, he, hi⟩)
    · exact .factory hn
    · exact .external hn hi
    · exact .screen (mem_flatten_screens.mp hs) hi
    · exact .fragment (mem_flatten_expressions.mpr ⟨n, hn, he⟩) hi

theorem routes_binds_iff {i : Import} : t.flatten.routes.Binds i ↔
    ∃ s ∈ t.flatten.screens, ∃ p, s.params = some p ∧ ∃ e ∈ p.fragments, e.use = some i := by
  rw [t.flatten.routes_importsFrom.binds_iff, List.mem_flatMap]
  simp only [Screen.mem_routeBuilder_uses]

/-- Code that is spliced has its imports, and there are no others but those of navigators and
eager screens. -/
theorem spliced_imported (t : Tree) : t.ImportsSpliced where
  shown := by
    intro n hn
    obtain ⟨hc, hg⟩ := mem_generated.mp hn
    exact ⟨component_declared hc hg, fun el hel => n.element_shown hel⟩
  attribute_rendered := by
    intro n hn el hel a ha
    obtain ⟨r, hr, ha⟩ := exists_renders hn hel ha
    obtain ⟨v, uses, hv, hc⟩ := Record.mem_attributesOf.mp ha
    exact ⟨r, v, _, hr, hv, hc, rfl⟩
  fragment_imported := by
    intro el r hr key v c hv hc
    refine ⟨?_, Value.code?_splices hc, fun e he i hi => hr.binds hv he hi⟩
    rw [hr.attributes_eq]
    exact Record.attribute_of_entry hv hc
  component_binds_iff := fun i => component_binds_iff
  annotation_splices := by
    intro s hs p hp
    obtain ⟨value, hbuilder, hoccurs⟩ := Screen.annotation_occurs hp
    exact ⟨p.typeCode_splices, value, hoccurs, hbuilder ▸ builder_declared hs⟩
  routes_binds_iff := fun i => routes_binds_iff
  component_apart := t.flatten.component_importsFrom.importsApart
  routes_apart := t.flatten.routes_importsFrom.importsApart

end Tree

namespace Plain

def badge (name : String) : Expression := ⟨name, some ⟨name, "./badges"⟩⟩

def badgedHome : NavigatorHead := head "Home" false none

/-- A badge in a list of the props, which no code shows, and one in a record. -/
def badgedFeed : Screen :=
  { screen "Feed" badgedHome.trail with
    props := some ⟨[("badges", .list [.expression (badge "New")]),
      ("options", .record [("badge", .expression (badge "Hot"))])]⟩
    params := some (.record ⟨[("id", .expression ⟨"FeedId", some ⟨"FeedId", "./ids"⟩⟩)]⟩) }

def badgedRoot : Navigator := ⟨badgedHome, [.screen badgedFeed]⟩

def badgedTree : Tree := tree [badgedRoot]

/-- The record with a badge is one of the props that the element of the screen renders. -/
theorem badged_options : ("options", .record [("badge", .expression (badge "Hot"))]) ∈
    badgedFeed.elementProps.entries :=
  List.mem_cons_of_mem _ List.mem_cons_self

theorem badged_imported :
    (⟨"options", "\x7b badge: Hot \x7d"⟩ : Attribute) ∈ badgedFeed.element.attributes ∧
    badgedTree.flatten.component.Binds ⟨"Hot", "./badges"⟩ ∧
    badgedTree.flatten.component.Binds ⟨"New", "./badges"⟩ ∧
    badgedTree.flatten.routes.Binds ⟨"FeedId", "./ids"⟩ ∧
    ¬ badgedTree.flatten.routes.Binds ⟨"Hot", "./badges"⟩ := by
  have himports : badgedTree.ImportsSpliced := Tree.spliced_imported badgedTree
  have hroot : badgedTree.Contains badgedRoot := ⟨badgedRoot, List.mem_cons_self, .refl _⟩
  have hfeed : badgedRoot.Holds badgedFeed := .inl List.mem_cons_self
  obtain ⟨hattribute, _, hbinds⟩ :=
    himports.fragment_imported _ _ (.screen hroot hfeed) _ _ _ badged_options rfl
  have hnew : (Node.screen badgedFeed).Mentions (badge "New") :=
    .inl ⟨_, rfl, _, List.mem_cons_self, .item List.mem_cons_self .self⟩
  have hkept : badgedFeed ∈ badgedTree.flatten.screens := List.mem_cons_self
  refine ⟨hattribute, hbinds _ List.mem_cons_self _ rfl, ?_, ?_, ?_⟩
  · exact (himports.component_binds_iff _).mpr (.inr (.inr (.inr
      ⟨_, hroot.screen_mem_nodes hfeed, badge "New", hnew, rfl⟩)))
  · exact (himports.routes_binds_iff _).mpr ⟨_, hkept, _, rfl, _, List.mem_cons_self, rfl⟩
  · intro h
    obtain ⟨s, hs, p, hp, e, he, hi⟩ := (himports.routes_binds_iff _).mp h
    obtain rfl : s = badgedFeed := List.mem_singleton.mp hs
    obtain rfl := Option.some.inj hp
    obtain rfl := List.mem_singleton.mp he
    exact absurd hi (by decide)

end Plain

end NavTree
