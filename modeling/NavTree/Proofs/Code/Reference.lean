import NavTree.Proofs.Code.Declared
import NavTree.Proofs.Code.Markup
import NavTree.Proofs.Text.Literal
import NavTree.Proofs.Tree.Naming

/-! # References of the markup

The markup of a component names components, imported symbols and route constants. Stand-ins always
find theirs. The route constant of a screen is found through the first screen with its name and
container name, the only one of these that the routes file knows.
-/
namespace NavTree

namespace Tree

variable {t : Tree} {n : Navigator} {j : Json}

/-- The component that a stand-in names is what is generated for its navigator, or the symbol that
an external navigator is imported under; its route constant is exported from the routes file. -/
theorem stand_in_wired (hj : ofJson j = .ok t) (hn : t.Contains n) (hg : n.isExternal = false)
    {child : Navigator} (hc : child ∈ n.nested) :
    n.componentDeclaration ∈ t.flatten.component.declarations ∧
    (n.childScreen child).element ∈ n.element.inside ∧
    (n.childScreen child).element.ShownIn n.componentDeclaration.text ∧
    ⟨"component", (n.childScreen child).importSpecifier⟩ ∈
      (n.childScreen child).element.attributes ∧
    (child.isExternal = false →
      (n.childScreen child).importSpecifier = child.componentSymbol ∧
      ∃ value, .constant child.exported child.componentSymbol value ∈
        t.flatten.component.declarations) ∧
    (child.isExternal = true →
      (n.childScreen child).importSpecifier = child.externalSymbol ∧
      ∃ path symbols, child.externalPath? = some path ∧ child.externalSymbol ∈ symbols ∧
        .namedImport symbols path ∈ t.flatten.component.declarations) ∧
    ⟨"name", "route." ++ (n.childScreen child).routeSymbol⟩ ∈
      (n.childScreen child).element.attributes ∧
    .constant true (n.childScreen child).routeSymbol
      (moduleLiteral (n.childScreen child).routeLiteral) ∈ t.flatten.routes.declarations := by
  have hl := (ofJson_linked hj).inside n hn
  have hin : (n.childScreen child).element ∈ n.element.inside :=
    Navigator.mem_element_inside.mpr (.inr (.inr ⟨child, hc, rfl⟩))
  refine ⟨component_declared hn hg, hin, n.element_shown (List.mem_cons_of_mem _ hin),
    Screen.component_attribute rfl, ?_, ?_, Screen.name_attribute _,
    Routed.declared (.inl ⟨n, child, hn, hc, rfl⟩)⟩
  · intro he
    exact ⟨Navigator.childScreen_of_generated (hl.nested hc) he,
      _, component_declared (hn.nested hc) he⟩
  · intro he
    obtain ⟨path, hp⟩ := Option.isSome_iff_exists.mp he
    have hi : child.externalImport? = some ⟨child.externalSymbol, path⟩ := by
      simp only [Navigator.externalImport?, hp, Option.map_some]
    obtain ⟨symbols, hd, hs⟩ := external_imported (hn.nested hc) hi
    exact ⟨Navigator.childScreen_of_external he, path, symbols, hp, hs, hd⟩

end Tree

namespace Plain

/-- An external navigator beside a root, inside a named navigator. -/
def mainJson : Json :=
  treeJson [navigatorJson "Main" false [externalJson "Shop" "./shop",
    navigatorJson "Inner" true [screenJson "Feed"]]]

def mainOutline : Outline where
  config := config
  groups := []
  navigators := [navigatorOutline "Main" false
    [.navigator ⟨"Shop", none, none, some "./shop", none, none⟩ [],
      navigatorOutline "Inner" true [screenOutline "Feed"]]]

def mainHead : NavigatorHead := head "Main" false none

def innerFeedHead : NavigatorHead := head "Inner" true (some mainHead.trail)

def shop : Navigator := ⟨externalHead "Shop" "./shop" (some mainHead.trail), []⟩

def innerFeed : Navigator := ⟨innerFeedHead, [.screen (screen "Feed" innerFeedHead.trail)]⟩

def mainNavigator : Navigator := ⟨mainHead, [shop.node, innerFeed.node]⟩

theorem ofJson_mainJson : Tree.ofJson mainJson = .ok (tree [mainNavigator]) := by
  rw [Tree.ofJson, bind_eq_ok]
  exact ⟨mainOutline, rfl, rfl⟩

theorem main_stand_ins_wired :
    Tree.ofJson mainJson = .ok (tree [mainNavigator]) ∧
    (mainNavigator.childScreen shop).importSpecifier = "ShopNavigator" ∧
    (mainNavigator.childScreen innerFeed).importSpecifier = "MainInnerNavigator" ∧
    .constant true "routeShopNavigator" "'MainShop'" ∈
      (tree [mainNavigator]).flatten.routes.declarations := by
  have hn : (tree [mainNavigator]).Contains mainNavigator :=
    ⟨mainNavigator, List.mem_cons_self, .refl mainNavigator⟩
  have hs : shop ∈ mainNavigator.nested := Navigator.mem_nested.mpr List.mem_cons_self
  have hi : innerFeed ∈ mainNavigator.nested :=
    Navigator.mem_nested.mpr (List.mem_cons_of_mem _ List.mem_cons_self)
  obtain ⟨_, _, _, _, _, hshop, _, hroute⟩ := Tree.stand_in_wired ofJson_mainJson hn rfl hs
  obtain ⟨_, _, _, _, hinner, _⟩ := Tree.stand_in_wired ofJson_mainJson hn rfl hi
  exact ⟨ofJson_mainJson, (hshop rfl).1, (hinner rfl).1, hroute⟩

end Plain

namespace Tree

variable {t : Tree} {n : Navigator}

/-- The markup of a screen names a route constant, which is exported exactly if a routed screen has
that constant. That is so for the first screen with its name and container name; for a later one
the constant of the first is exported, under the name derived for the first. -/
theorem screen_route_iff (hn : t.Contains n) {s : Screen} (hs : n.Holds s) :
    n.componentDeclaration ∈ t.flatten.component.declarations ∧
    s.element ∈ n.element.inside ∧
    s.element.ShownIn n.componentDeclaration.text ∧
    ⟨"name", "route." ++ s.routeSymbol⟩ ∈ s.element.attributes ∧
    (t.first? s.key = some s → s.routeConstant ∈ t.flatten.routes.declarations) ∧
    (∃ f, t.first? s.key = some f ∧ f.routeConstant ∈ t.flatten.routes.declarations) ∧
    ((∃ value, .constant true s.routeSymbol value ∈ t.flatten.routes.declarations) ↔
      ∃ r, t.Routed r ∧ r.routeSymbol = s.routeSymbol) ∧
    (.constant true s.routeSymbol (moduleLiteral s.routeLiteral) ∈ t.flatten.routes.declarations ↔
      ∃ r, t.Routed r ∧ r.routeSymbol = s.routeSymbol ∧ r.routeLiteral = s.routeLiteral) := by
  have hin : s.element ∈ n.element.inside := hs.inside
  refine ⟨component_declared hn hs.isExternal, hin, n.element_shown (List.mem_cons_of_mem _ hin),
    s.name_attribute, fun hf => Routed.declared (.inr hf), ?_, ?_, ?_⟩
  · obtain ⟨f, hf, hk, _⟩ := exists_first hn hs
    exact ⟨f, hf, Routed.declared (.inr (hk ▸ hf))⟩
  · constructor
    · rintro ⟨value, h⟩
      obtain ⟨r, hr, he⟩ := exists_routed h
      exact ⟨r, hr, (Declaration.constant.inj he).2.1⟩
    · rintro ⟨r, hr, he⟩
      rw [← he]
      exact ⟨_, hr.declared⟩
  · constructor
    · intro h
      obtain ⟨r, hr, he⟩ := exists_routed h
      obtain ⟨-, hsym, hlit⟩ := Declaration.constant.inj he
      exact ⟨r, hr, hsym, moduleLiteral_inj.mp hlit⟩
    · rintro ⟨r, hr, hsym, hlit⟩
      rw [← hsym, ← hlit]
      exact hr.declared

end Tree

namespace Plain

/-- Two navigators of the same name at different depths, each with a screen of the same name. -/
def authJson : Json :=
  treeJson [navigatorJson "Auth" false [screenJson "Login"],
    navigatorJson "Deep" false [navigatorJson "Auth" false [screenJson "Login"]]]

def authOutline (login : NodeOutline) : Outline where
  config := config
  groups := []
  navigators := [navigatorOutline "Auth" false [login],
    navigatorOutline "Deep" false [navigatorOutline "Auth" false [login]]]

def login : Screen := screen "Login" (head "Auth" false none).trail

def auth : Navigator := ⟨head "Auth" false none, [.screen login]⟩

def deepHead : NavigatorHead := head "Deep" false none

def deepAuthHead : NavigatorHead := head "Auth" false (some deepHead.trail)

def deepLogin : Screen := screen "Login" deepAuthHead.trail

def deepAuth : Navigator := ⟨deepAuthHead, [.screen deepLogin]⟩

def deep : Navigator := ⟨deepHead, [deepAuth.node]⟩

def authTree : Tree := tree [auth, deep]

theorem ofJson_authJson : Tree.ofJson authJson = .ok authTree := by
  rw [Tree.ofJson, bind_eq_ok]
  exact ⟨authOutline (screenOutline "Login"), rfl, rfl⟩

theorem first_login_route :
    authTree.Contains auth ∧ auth.Holds login ∧
    .constant true "routeAuthLogin" "'AuthLogin'" ∈ authTree.flatten.routes.declarations := by
  have hn : authTree.Contains auth := ⟨auth, List.mem_cons_self, .refl auth⟩
  have hs : auth.Holds login := .inl List.mem_cons_self
  obtain ⟨_, _, _, _, hfirst, _⟩ := Tree.screen_route_iff hn hs
  exact ⟨hn, hs, hfirst rfl⟩

/-- The second screen is dropped for the first, but the markup still names its route. -/
theorem second_login_unrouted :
    Tree.ofJson authJson = .ok authTree ∧ authTree.Contains deepAuth ∧ deepAuth.Holds deepLogin ∧
    deepLogin.routeSymbol = "routeDeepAuthLogin" ∧
    ⟨"name", "route.routeDeepAuthLogin"⟩ ∈ deepLogin.element.attributes ∧
    ∀ value, .constant true "routeDeepAuthLogin" value ∉ authTree.flatten.routes.declarations := by
  have hn : authTree.Contains deep :=
    ⟨deep, List.mem_cons_of_mem _ List.mem_cons_self, .refl deep⟩
  have hc : deepAuth ∈ deep.nested := Navigator.mem_nested.mpr List.mem_cons_self
  have hnames : "routeDeepAuthLogin" ∉
      authTree.flatten.routes.declarations.filterMap Declaration.constantName? := by decide
  refine ⟨ofJson_authJson, hn.nested hc, .inl List.mem_cons_self, by decide,
    deepLogin.name_attribute, ?_⟩
  intro value h
  exact hnames (List.mem_filterMap.mpr ⟨_, h, rfl⟩)

end Plain

namespace Tree

variable {t : Tree} {n : Navigator}

/-- The markup of an eager screen names its component, which is imported exactly if the tree needs
that import. That is so for the first screen with its name and container name; for a later one the
first asks, if it is eager, for the import derived for it. -/
theorem eager_screen_imported_iff (hn : t.Contains n) {s : Screen} (hs : n.Holds s)
    (he : s.isLazy = false) :
    n.componentDeclaration ∈ t.flatten.component.declarations ∧
    s.element ∈ n.element.inside ∧
    s.element.ShownIn n.componentDeclaration.text ∧
    ⟨"component", s.importSpecifier⟩ ∈ s.element.attributes ∧
    (t.first? s.key = some s → t.Binds ⟨s.importSpecifier, s.importPath⟩) ∧
    (∃ f, t.first? s.key = some f ∧
      (f.isLazy = false → t.Binds ⟨f.importSpecifier, f.importPath⟩)) ∧
    (t.Binds ⟨s.importSpecifier, s.importPath⟩ ↔ t.Needs ⟨s.importSpecifier, s.importPath⟩) := by
  have hin : s.element ∈ n.element.inside := hs.inside
  have hfirst : ∀ f : Screen, t.first? f.key = some f → f.isLazy = false →
      t.Binds ⟨f.importSpecifier, f.importPath⟩ := by
    intro f hf hl
    have hi : f.eagerImport? = some ⟨f.importSpecifier, f.importPath⟩ := by
      simp [Screen.eagerImport?, hl]
    exact binds_iff.mpr (.screen hf hi)
  refine ⟨component_declared hn hs.isExternal, hin, n.element_shown (List.mem_cons_of_mem _ hin),
    Screen.component_attribute he, fun hf => hfirst s hf he, ?_, binds_iff⟩
  obtain ⟨f, hf, hk, _⟩ := exists_first hn hs
  exact ⟨f, hf, hfirst f (hk ▸ hf)⟩

end Tree

namespace Plain

def eagerJson (name : String) : Json :=
  .object [("_tag", .string "Screen"), ("name", .string name), ("lazy", .bool false)]

/-- The same navigators with eager screens. -/
def eagerAuthJson : Json :=
  treeJson [navigatorJson "Auth" false [eagerJson "Login"],
    navigatorJson "Deep" false [navigatorJson "Auth" false [eagerJson "Login"]]]

def eagerLogin : Screen := { login with lazy := some false }

def eagerAuth : Navigator := ⟨head "Auth" false none, [.screen eagerLogin]⟩

def deepEagerLogin : Screen := { deepLogin with lazy := some false }

def deepEagerAuth : Navigator := ⟨deepAuthHead, [.screen deepEagerLogin]⟩

def deepEager : Navigator := ⟨deepHead, [deepEagerAuth.node]⟩

def eagerTree : Tree := tree [eagerAuth, deepEager]

theorem ofJson_eagerAuthJson : Tree.ofJson eagerAuthJson = .ok eagerTree := by
  rw [Tree.ofJson, bind_eq_ok]
  exact ⟨authOutline (.screen ⟨"Login", some false, none, none, none, none⟩), rfl, rfl⟩

theorem first_eager_login_imported :
    eagerTree.Contains eagerAuth ∧ eagerAuth.Holds eagerLogin ∧ eagerLogin.isLazy = false ∧
    eagerTree.Binds ⟨"AuthLogin", "src/Auth/Login"⟩ := by
  have hn : eagerTree.Contains eagerAuth := ⟨eagerAuth, List.mem_cons_self, .refl eagerAuth⟩
  have hs : eagerAuth.Holds eagerLogin := .inl List.mem_cons_self
  obtain ⟨_, _, _, _, hfirst, _⟩ := Tree.eager_screen_imported_iff hn hs rfl
  exact ⟨hn, hs, rfl, hfirst rfl⟩

/-- The second screen is dropped for the first, but the markup still names its component. -/
theorem second_eager_login_unbound :
    Tree.ofJson eagerAuthJson = .ok eagerTree ∧ eagerTree.Contains deepEagerAuth ∧
    deepEagerAuth.Holds deepEagerLogin ∧ deepEagerLogin.isLazy = false ∧
    ⟨"component", "DeepAuthLogin"⟩ ∈ deepEagerLogin.element.attributes ∧
    deepEagerLogin.importPath = "src/Deep/Auth/Login" ∧
    ∀ source, ¬ eagerTree.Binds ⟨"DeepAuthLogin", source⟩ := by
  have hn : eagerTree.Contains deepEager :=
    ⟨deepEager, List.mem_cons_of_mem _ List.mem_cons_self, .refl deepEager⟩
  have hc : deepEagerAuth ∈ deepEager.nested := Navigator.mem_nested.mpr List.mem_cons_self
  have hsymbols : ∀ m ∈ eagerTree.flatten.componentImports.modules,
      "DeepAuthLogin" ∉ m.2 := by decide
  refine ⟨ofJson_eagerAuthJson, hn.nested hc, .inl List.mem_cons_self, rfl,
    Screen.component_attribute rfl, by decide, ?_⟩
  intro source h
  obtain ⟨symbols, hm, hs⟩ := Tree.binds_iff_has.mp h
  exact hsymbols _ hm hs

end Plain

end NavTree
