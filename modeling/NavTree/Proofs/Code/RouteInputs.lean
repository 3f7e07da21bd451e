import NavTree.Code.Routes
import NavTree.Proofs.Tree.Bare

/-! # What the routes file reads

The routes file of a tree is that of its bare form. So normalized trees with one naming have one
routes file, whatever else they hold.
-/
namespace NavTree

namespace Value

mutual

theorem type?_blank : ∀ v : Value, v.blank.type? = v.type?
  | .string _ => rfl
  | .number _ => rfl
  | .boolean _ => rfl
  | .expression _ => rfl
  | .record entries => by rw [blank, type?, type?, signatures_blank entries]
  | .null => rfl
  | .list _ => rfl
  | .code _ => rfl

theorem signatures_blank : ∀ entries : List (String × Value),
    signatures (blankEntries entries) = signatures entries
  | [] => rfl
  | (key, v) :: rest => by
    rw [blankEntries, signatures, signatures, type?_blank v, signatures_blank rest]

end

end Value

theorem Params.typeCode_blank (p : Params) : p.blank.typeCode = p.typeCode := by
  cases p with
  | record r =>
    rw [blank, typeCode, typeCode, Record.typeLiteral, Record.typeLiteral, Value.signatures_blank]
  | expression e => rfl

namespace Screen

theorem routeObject_bare (s : Screen) : s.bare.routeObject = s.routeObject := by
  have hparams : s.bare.params.isSome = s.params.isSome := Option.isSome_map
  simp only [routeObject, hparams]
  rfl

theorem routeBuilder_bare (s : Screen) : s.bare.routeBuilder = s.routeBuilder := by
  have hparams : s.bare.params = s.params.map Params.blank := rfl
  have hsymbol : s.bare.builderSymbol = s.builderSymbol := rfl
  rw [routeBuilder, routeBuilder, routeObject_bare, hsymbol, hparams]
  cases s.params with
  | none => rfl
  | some params => rw [Option.map_some]; simp only [Params.typeCode_blank]

end Screen

namespace Navigator

theorem childScreens_bare (n : Navigator) :
    n.bare.childScreens.map Screen.routeConstant = n.childScreens.map Screen.routeConstant := by
  have hchild : ∀ child : Navigator, (n.bare.childScreen child.bare).routeConstant =
      (n.childScreen child).routeConstant := by
    intro child
    have hscreen : n.bare.childScreen child.bare =
        { n.childScreen child with config := Config.bare } := by
      rw [childScreen, childScreen, child.isExternal_bare]
      rfl
    rw [hscreen]
    rfl
  rw [childScreens, childScreens, nested_bare, List.map_map, List.map_map, List.map_map]
  exact List.map_congr_left fun child _ => hchild child

end Navigator

namespace Tree

variable {t t' : Tree}

theorem routeConstants_bare (t : Tree) :
    t.bare.flatten.routeConstants = t.flatten.routeConstants := by
  rw [FlatTree.routeConstants, FlatTree.routeConstants, flatten_bare_navigators,
    flatten_bare_screens]
  have hnested : ((t.flatten.navigators.map Navigator.bare).flatMap Navigator.childScreens).map
      Screen.routeConstant =
      (t.flatten.navigators.flatMap Navigator.childScreens).map Screen.routeConstant := by
    rw [List.flatMap_map, List.map_flatMap, List.map_flatMap]
    exact List.flatMap_congr fun n _ => n.childScreens_bare
  have hconstants : (t.flatten.screens.map Screen.bare).map Screen.routeConstant =
      t.flatten.screens.map Screen.routeConstant := by
    rw [List.map_map]
    rfl
  have hbuilders : (t.flatten.screens.map Screen.bare).map (·.routeBuilder.code) =
      t.flatten.screens.map (·.routeBuilder.code) := by
    rw [List.map_map]
    exact List.map_congr_left fun s _ => congrArg Spliced.code s.routeBuilder_bare
  rw [hnested, hconstants, hbuilders]

theorem routeImports_bare (t : Tree) : t.bare.flatten.routeImports = t.flatten.routeImports := by
  have huses : (t.flatten.screens.map Screen.bare).flatMap (·.routeBuilder.uses) =
      t.flatten.screens.flatMap (·.routeBuilder.uses) := by
    rw [List.flatMap_map]
    exact List.flatMap_congr fun s _ => congrArg Spliced.uses s.routeBuilder_bare
  rw [FlatTree.routeImports, FlatTree.routeImports, flatten_bare_screens, huses]

theorem routes_bare (t : Tree) : t.bare.flatten.routes = t.flatten.routes := by
  rw [FlatTree.routes, FlatTree.routes, routeImports_bare, routeConstants_bare]

/-- Whatever else two normalized trees hold, with one naming they have one routes file and one list
of repeated constants. -/
theorem routes_eq_of_naming {j j' : Json} (h : ofJson j = .ok t) (h' : ofJson j' = .ok t')
    (hnaming : t.naming = t'.naming) :
    t.flatten.routes.rawText = t'.flatten.routes.rawText ∧
    collidingConstants t.flatten.routeConstants = collidingConstants t'.flatten.routeConstants := by
  have hbare : t.bare = t'.bare := (ofJson_settled h).1.bare_eq (ofJson_settled h').1 hnaming
  constructor
  · rw [← t.routes_bare, ← t'.routes_bare, hbare]
  · rw [← t.routeConstants_bare, ← t'.routeConstants_bare, hbare]

end Tree

namespace Plain

def feedParams (id : String) (page : Nat) (filters : List Json) : JsonObject :=
  [("id", .string id), ("page", .number (.natural page)), ("filters", .array filters)]

/-- A root navigator with tabs and an external navigator inside. -/
def bareTabsJson : Json :=
  treeJson [navigatorJson "Home" true [navigatorJson "Tabs" false
    [.object [("_tag", .string "Screen"), ("name", .string "Feed"),
      ("params", .object (feedParams "a" 1 []))], screenJson "Detail"],
    externalJson "Legacy" "./legacy"]]

/-- The same navigators with many settings. -/
def ampleTabsJson : Json :=
  .object [("config", .object [("path", .string "app"), ("lazy", .bool false)]),
    ("navigators", .array [.object [("_tag", .string "Navigator"), ("name", .string "Home"),
      ("root", .bool true), ("export", .bool true),
      ("children", .array [.object [("_tag", .string "Navigator"), ("name", .string "Tabs"),
        ("type", .string "bottom-tab"),
        ("children", .array [
          .object [("_tag", .string "Screen"), ("name", .string "Feed"), ("lazy", .bool true),
            ("params", .object (feedParams "b" 2 [.null]))],
          .object [("_tag", .string "Screen"), ("name", .string "Detail"),
            ("path", .string "./pages/Detail"),
            ("props", .object [("title", .string "Detail")])]])],
        externalJson "Legacy" "../old"])]])]

def bareTabsOutline : Outline where
  config := config
  groups := []
  navigators := [.navigator ⟨"Home", none, some true, none, none, none⟩
    [.navigator ⟨"Tabs", none, some false, none, none, none⟩
      [.screen ⟨"Feed", none, none, none, none, some (feedParams "a" 1 [])⟩,
        .screen ⟨"Detail", none, none, none, none, none⟩],
    .navigator ⟨"Legacy", none, none, some "./legacy", none, none⟩ []]]

def ampleConfig : Config := ⟨"app", false, none⟩

def ampleTabsOutline : Outline where
  config := ampleConfig
  groups := []
  navigators := [.navigator ⟨"Home", some true, some true, none, none, none⟩
    [.navigator ⟨"Tabs", none, none, none, some .bottomTab, none⟩
      [.screen ⟨"Feed", some true, none, none, none, some (feedParams "b" 2 [.null])⟩,
        .screen ⟨"Detail", none, none, some "./pages/Detail",
          some [("title", .string "Detail")], none⟩],
    .navigator ⟨"Legacy", none, none, some "../old", none, none⟩ []]]

def feedRecord (id : String) (page : Nat) (filters : List Value) : Params :=
  .record ⟨[("id", .string id), ("page", .number (.natural page)), ("filters", .list filters)]⟩

def bareHome : NavigatorHead := head "Home" true none

def bareTabs : NavigatorHead := head "Tabs" false (some bareHome.trail)

def bareTabsTree : Tree :=
  tree [⟨bareHome, [
    .navigator bareTabs [
      .screen { screen "Feed" bareTabs.trail with params := some (feedRecord "a" 1 []) },
      .screen (screen "Detail" bareTabs.trail)],
    .navigator (externalHead "Legacy" "./legacy" (some bareHome.trail)) []]⟩]

def ampleHome : NavigatorHead := { bareHome with exported := true, config := ampleConfig }

def ampleTabs : NavigatorHead := { bareTabs with kind := .bottomTab, config := ampleConfig }

def ampleFeed : Screen where
  name := "Feed"
  lazy := some true
  kind := .screen
  path := none
  props := none
  params := some (feedRecord "b" 2 [.null])
  parent := ampleTabs.trail
  config := ampleConfig

def ampleDetail : Screen where
  name := "Detail"
  lazy := none
  kind := .screen
  path := some "./pages/Detail"
  props := some ⟨[("title", .string "Detail")]⟩
  params := none
  parent := ampleTabs.trail
  config := ampleConfig

def ampleTabsTree : Tree where
  config := ampleConfig
  groups := []
  navigators := [⟨ampleHome, [
    .navigator ampleTabs [.screen ampleFeed, .screen ampleDetail],
    .navigator { externalHead "Legacy" "../old" (some ampleHome.trail) with
      config := ampleConfig } []]⟩]

theorem ofJson_bareTabsJson : Tree.ofJson bareTabsJson = .ok bareTabsTree := by
  rw [Tree.ofJson, bind_eq_ok]
  exact ⟨bareTabsOutline, rfl, rfl⟩

theorem ofJson_ampleTabsJson : Tree.ofJson ampleTabsJson = .ok ampleTabsTree := by
  rw [Tree.ofJson, bind_eq_ok]
  exact ⟨ampleTabsOutline, rfl, rfl⟩

theorem tabs_routes_agree :
    Tree.ofJson bareTabsJson = .ok bareTabsTree ∧ Tree.ofJson ampleTabsJson = .ok ampleTabsTree ∧
    bareTabsTree.naming = ampleTabsTree.naming ∧
    bareTabsTree.flatten.routes.rawText = ampleTabsTree.flatten.routes.rawText :=
  have hnaming : bareTabsTree.naming = ampleTabsTree.naming := rfl
  ⟨ofJson_bareTabsJson, ofJson_ampleTabsJson, hnaming,
    (Tree.routes_eq_of_naming ofJson_bareTabsJson ofJson_ampleTabsJson hnaming).1⟩

end Plain

end NavTree
