import NavTree.Proofs.Code.Declared
import NavTree.Proofs.Text.Literal
import NavTree.Proofs.Tree.Canonical
import NavTree.Proofs.Tree.Segments

/-! # Route builders

A builder nests one layer per screen that is registered on the way to its own, and ends in the
value of the route constant. Both hold where every node has a name; the end also holds in most
trees with empty names, and where it fails is said exactly. The text of an object is read off its
layers, so both are said of what is written as well.
-/
namespace NavTree

namespace RouteObject

/-- The screen names of the layers around the innermost one, outermost first. -/
def outer : RouteObject → List String
  | leaf _ => []
  | argument _ => []
  | nest screen inner => screen :: inner.outer

def innermost : RouteObject → String
  | leaf screen => screen
  | argument screen => screen
  | nest _ inner => inner.innermost

/-- The innermost layer carries the parameters of the builder; no other layer can. -/
def takesParams : RouteObject → Bool
  | leaf _ => false
  | argument _ => true
  | nest _ inner => inner.takesParams

/-- A layer is written around what it leads to. -/
def layer (screen inner : String) : String :=
  "\x7b screen: " ++ moduleLiteral screen ++ ", params: " ++ inner ++ " \x7d"

def core (withParams : Bool) (screen : String) : String :=
  "\x7b screen: " ++ moduleLiteral screen ++ (if withParams then ", params" else "") ++ " \x7d"

theorem text_eq (o : RouteObject) :
    o.text = o.outer.foldr layer (core o.takesParams o.innermost) := by
  induction o with
  | leaf screen => simp [text, outer, takesParams, innermost, core]
  | argument screen => simp [text, outer, takesParams, innermost, core, String.append_assoc]
  | nest screen inner ih => rw [text, ih, outer, takesParams, innermost, List.foldr_cons, layer]

variable (withParams : Bool) (layers : List String) (last : String)

theorem outer_ofLayers : (ofLayers withParams layers last).outer = layers := by
  induction layers with
  | nil => cases withParams <;> rfl
  | cons layer layers ih => rw [ofLayers, outer, ih]

theorem innermost_ofLayers : (ofLayers withParams layers last).innermost = last := by
  induction layers with
  | nil => cases withParams <;> rfl
  | cons layer layers ih => rw [ofLayers, innermost, ih]

theorem takesParams_ofLayers : (ofLayers withParams layers last).takesParams = withParams := by
  induction layers with
  | nil => cases withParams <;> rfl
  | cons layer layers ih => rw [ofLayers, takesParams, ih]

end RouteObject

namespace Screen

theorem routeObject_eq (s : Screen) :
    s.routeObject = .ofLayers s.params.isSome s.routeSegments.dropLast s.lastSegment := by
  cases h : s.routeSegments.getLast? with
  | none =>
    have hnil : s.routeSegments = [] := List.getLast?_eq_none_iff.mp h
    simp [routeObject, lastSegment, hnil]
  | some last => simp [routeObject, lastSegment, h]

theorem routeObject_takesParams (s : Screen) : s.routeObject.takesParams = s.params.isSome := by
  rw [s.routeObject_eq, RouteObject.takesParams_ofLayers]

/-- The object is written into the value of the builder. -/
theorem routeBuilder_code (s : Screen) : ∃ before after, s.routeBuilder.code =
    .constant true s.builderSymbol (before ++ s.routeObject.text ++ after) := by
  cases h : s.params with
  | none => exact ⟨"", " as const", by simp [routeBuilder, h]⟩
  | some params =>
    exact ⟨"(params: " ++ params.typeCode.code ++ ") => \x7b\n  return ", " as const;\n\x7d",
      by simp [routeBuilder, h, String.append_assoc]⟩

end Screen

namespace Tree

variable {t : Tree} {s : Screen}

theorem builder_declared (hs : s ∈ t.flatten.screens) :
    s.routeBuilder.code ∈ t.flatten.routes.declarations := by
  have hm : s.routeBuilder.code ∈ t.flatten.screens.map (·.routeBuilder.code) :=
    List.mem_map.mpr ⟨s, hs, rfl⟩
  have hr : s.routeBuilder.code ∈ t.flatten.routeConstants := List.mem_append_right _ hm
  exact List.mem_append_right _ hr

/-- In an ordinary tree a route leads through the stand-ins of the nested navigators on the way, or
through none if the screen is in a reference group, and the builder nests exactly these. -/
theorem builder_nests_registered {j : Json} (hj : ofJson j = .ok t) (ho : t.Ordinary) :
    (∀ way s, t.Stands way (.screen s) →
      (s.parent.isReferenceGroup = true → s.routeSegments = [s.routeLiteral]) ∧
      (s.parent.isReferenceGroup = false → s.routeSegments =
        (Navigator.standIns (way.filterMap Node.navigator?)).map Screen.routeLiteral
          ++ [s.routeLiteral]) ∧
      s.routeObject.outer = (s.registered way).map Screen.routeLiteral ∧
      s.routeObject.innermost = s.routeLiteral ∧
      s.routeObject.takesParams = s.params.isSome ∧
      s.routeObject.text = ((s.registered way).map Screen.routeLiteral).foldr RouteObject.layer
        (RouteObject.core s.params.isSome s.routeLiteral)) ∧
    (∀ way g, t.Stands way (.group g) → g.reference = false → ∀ s ∈ g.children,
      s.routeLiteral =
        ((Navigator.standIns (way.filterMap Node.navigator?)).map Screen.routeLiteral).getLast?.getD
          "" ++ g.name ++ s.name) ∧
    ∀ s ∈ t.flatten.screens, (∃ way, t.Stands way (.screen s)) ∧
      s.routeBuilder.code ∈ t.flatten.routes.declarations ∧
      ∃ before after, s.routeBuilder.code =
        .constant true s.builderSymbol (before ++ s.routeObject.text ++ after) := by
  have ht := (ofJson_settled hj).1
  refine ⟨?_, fun way g hg hr s hs => ho.routeLiteral_of_inline ht hg hs hr,
    fun s hs => ⟨stands_of_flatten hs, builder_declared hs, s.routeBuilder_code⟩⟩
  intro way s h
  have hseg := ho.routeSegments_eq ht h
  have hlast : s.lastSegment = s.routeLiteral := by simp [Screen.lastSegment, hseg]
  have houter : s.routeObject.outer = (s.registered way).map Screen.routeLiteral := by
    rw [s.routeObject_eq, RouteObject.outer_ofLayers, hseg, List.dropLast_concat]
  have hinner : s.routeObject.innermost = s.routeLiteral := by
    rw [s.routeObject_eq, RouteObject.innermost_ofLayers, hlast]
  have hparams : s.routeObject.takesParams = s.params.isSome := s.routeObject_takesParams
  refine ⟨?_, ?_, houter, hinner, hparams, ?_⟩
  · intro hr
    rw [hseg, Screen.registered, if_pos hr]
    rfl
  · intro hr
    rw [hseg, Screen.registered, hr]
    rfl
  · rw [s.routeObject.text_eq, houter, hinner, hparams]

end Tree

namespace Plain

/-- The declared group and the inline one again: only the inline one is routed through `Home`. -/
def sharedNodes : List Node :=
  [app.node, appHome.node, .group custom, .screen customDetail, .group shared, .screen detail,
    .group declaredShared, .screen (screen "Detail" (.push none sharedLink))]

theorem mem_sharedNodes {way : List Node} {node : Node} (h : sharedTree.Stands way node) :
    node ∈ sharedNodes := by
  have hclosed : ∀ c ∈ sharedNodes, ∀ m ∈ c.children, m ∈ sharedNodes := by
    simp [sharedNodes, Node.children, Navigator.node, app, appHome, custom, shared,
      declaredShared, group]
  induction h with
  | navigator h =>
    rw [List.mem_singleton.mp h]
    simp [sharedNodes]
  | group h =>
    rw [List.mem_singleton.mp h]
    simp [sharedNodes]
  | child _ hm ih => exact hclosed _ ih _ hm

theorem sharedTree_ordinary : sharedTree.Ordinary where
  top := by decide
  nested _ c n hc hn := by
    have hroots : ∀ c ∈ sharedNodes, ∀ m ∈ c.children, m.navigator?.all (!·.root) = true := by
      decide
    simpa [Navigator.node, Node.navigator?] using hroots c (mem_sharedNodes hc) n.node hn
  named _ node h := by
    have hnames : ∀ node ∈ sharedNodes, node.name ≠ "" := by decide
    exact hnames node (mem_sharedNodes h)

theorem detail_builders_nest :
    Tree.ofJson sharedJson = .ok sharedTree ∧ sharedTree.Ordinary ∧
    customDetail.routeSegments = ["Home", "HomeCustomDetail"] ∧
    customDetail.routeObject.outer = [(app.childScreen appHome).routeLiteral] ∧
    detail.routeSegments = ["SharedDetail"] ∧ detail.routeObject.outer = [] := by
  obtain ⟨hscreens, _⟩ := Tree.builder_nests_registered ofJson_sharedJson sharedTree_ordinary
  have hcustom : sharedTree.Stands [app.node, appHome.node, .group custom] (.screen customDetail) :=
    custom_stands.child List.mem_cons_self
  obtain ⟨_, hinline, houter, _⟩ := hscreens _ _ hcustom
  obtain ⟨hreference, _, hnone, _⟩ := hscreens _ _ detail_stands
  exact ⟨ofJson_sharedJson, sharedTree_ordinary, hinline rfl, houter, hreference rfl, hnone⟩

end Plain

namespace Tree

variable {t : Tree} {s : Screen}

/-- A builder ends in the value of the route constant exactly if the route is not misaligned.
Otherwise it ends one name short of it. -/
theorem builder_ends_in_constant_iff {j : Json} (hj : ofJson j = .ok t)
    (hs : s ∈ t.flatten.screens) :
    .constant true s.routeSymbol (moduleLiteral s.routeLiteral) ∈ t.flatten.routes.declarations ∧
    s.routeBuilder.code ∈ t.flatten.routes.declarations ∧
    (∃ before after, s.routeBuilder.code =
      .constant true s.builderSymbol (before ++ s.routeObject.text ++ after)) ∧
    s.routeObject.text = s.routeObject.outer.foldr RouteObject.layer
      (RouteObject.core s.params.isSome s.routeObject.innermost) ∧
    (moduleLiteral s.routeObject.innermost = moduleLiteral s.routeLiteral ↔ ¬ s.Misaligned) ∧
    (s.Misaligned → ∃ dropped, dropped ≠ "" ∧
      s.routeLiteral = s.routeObject.innermost ++ dropped) := by
  have ht := (ofJson_settled hj).1
  obtain ⟨way, h⟩ := stands_of_flatten hs
  have hinner : s.routeObject.innermost = s.lastSegment := by
    rw [s.routeObject_eq, RouteObject.innermost_ofLayers]
  refine ⟨Routed.declared (.inr (mem_flatten_screens.mp hs)), builder_declared hs,
    s.routeBuilder_code, ?_, ?_, ?_⟩
  · rw [← s.routeObject_takesParams]
    exact s.routeObject.text_eq
  · rw [moduleLiteral_inj, hinner]
    exact Screen.lastSegment_eq_iff (ht.in_navigators h)
  · intro hm
    rw [hinner]
    exact hm.lastSegment (ht.in_navigators h)

end Tree

namespace Plain

theorem customDetail_builder_ends :
    Tree.ofJson sharedJson = .ok sharedTree ∧ customDetail ∈ sharedTree.flatten.screens ∧
    moduleLiteral customDetail.routeObject.innermost = "'HomeCustomDetail'" := by
  have hs : customDetail ∈ sharedTree.flatten.screens := List.mem_cons_self
  have haligned : ¬ customDetail.Misaligned := fun hm => absurd hm.single (by decide)
  obtain ⟨_, _, _, _, hend, _⟩ := Tree.builder_ends_in_constant_iff ofJson_sharedJson hs
  exact ⟨ofJson_sharedJson, hs, (hend.mpr haligned).trans (by decide)⟩

/-- A group without a name, inside a navigator that has one. -/
def namelessJson : Json :=
  treeJson [navigatorJson "Home" false [groupJson "" [screenJson "Feed"]]]

def namelessHead : NavigatorHead := head "Home" false none

def namelessFeed : Screen :=
  screen "Feed" (.push (some namelessHead.trail) ⟨.group, "", false, false⟩)

def namelessTree : Tree :=
  tree [⟨namelessHead, [.group (group "" namelessHead.trail [namelessFeed])]⟩]

/-- The builder of the screen ends in the navigator around it. -/
theorem nameless_builder_ends_early :
    Tree.ofJson namelessJson = .ok namelessTree ∧ namelessFeed ∈ namelessTree.flatten.screens ∧
    namelessFeed.Misaligned ∧ namelessFeed.routeObject.innermost = "Home" ∧
    .constant true "routeHomeFeed" "'HomeFeed'" ∈ namelessTree.flatten.routes.declarations ∧
    .constant true "toHomeFeed" "\x7b screen: 'Home' \x7d as const" ∈
      namelessTree.flatten.routes.declarations := by
  have hs : namelessFeed ∈ namelessTree.flatten.screens := List.mem_cons_self
  exact ⟨rfl, hs, ⟨by decide, by decide, by decide⟩, by decide, by decide, by decide⟩

end Plain

end NavTree
