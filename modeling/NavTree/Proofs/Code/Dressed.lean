import Mathlib.Data.List.Nodup
import NavTree.Proofs.Code.Declared
import NavTree.Proofs.Code.Erased
import NavTree.Proofs.Code.Markup
import NavTree.Proofs.Tree.Linked

/-! # Attributes of a screen

The element of a screen, which the component shows whole, has the user's props in their order. Its
name and its one loader stand where the user has a prop of that key, or behind all props, the name
first; a prop under the key of the other loader is gone.
-/
namespace NavTree

namespace Record

variable {key k : String} {value : Value} {entries : List (String × Value)}

/-- The items, unless an entry has the key. -/
def unlessKey {α : Type} (key : String) (entries : List (String × Value)) (items : List α) :
    List α :=
  if key ∈ entries.map (·.1) then [] else items

theorem unlessKey_put {α : Type} (h : k ≠ key) (items : List α) :
    unlessKey k (put key value entries) items = unlessKey k entries items := by
  have hmem : k ∈ (put key value entries).map (·.1) ↔ k ∈ entries.map (·.1) :=
    mem_keys_put.trans (or_iff_left h)
  simp only [unlessKey, hmem]

theorem mem_of_mem_unlessKey {α : Type} {items : List α} {a : α}
    (h : a ∈ unlessKey key entries items) : a ∈ items := by
  unfold unlessKey at h
  split at h
  · cases h
  · exact h

/-- What is read from the entries after a write: the written entry in the place of the old one, or
behind all others. -/
theorem filterMap_put {α : Type} (h : (entries.map (·.1)).Nodup) (f : String × Value → Option α) :
    (put key value entries).filterMap f =
      entries.filterMap (fun e => if e.1 = key then f (key, value) else f e) ++
        unlessKey key entries (f (key, value)).toList := by
  induction entries with
  | nil => cases hf : f (key, value) <;> simp [put, unlessKey, hf]
  | cons e rest ih =>
    obtain ⟨first, v⟩ := e
    obtain ⟨hfirst, hrest⟩ := List.nodup_cons.mp h
    rw [put]
    split
    · next he =>
      -- The key does not come again, so the rest is read as it is.
      have hkept : ∀ e ∈ rest, f e = if e.1 = key then f (key, value) else f e := by
        intro e hm
        have hne : e.1 ≠ key := fun hk => hfirst (he ▸ hk ▸ List.mem_map.mpr ⟨e, hm, rfl⟩)
        rw [if_neg hne]
      rw [List.filterMap_cons, List.filterMap_cons, if_pos he, List.filterMap_congr hkept]
      simp [unlessKey, he]
    · next hne =>
      have hmem : key ∈ ((first, v) :: rest).map (·.1) ↔ key ∈ rest.map (·.1) := by
        rw [List.map_cons, List.mem_cons]
        exact or_iff_right fun hk => hne hk.symm
      rw [List.filterMap_cons, List.filterMap_cons, if_neg hne, ih hrest]
      simp only [unlessKey, hmem]
      cases f (first, v) <;> rfl

/-- The attribute of an entry. -/
def attribute? (e : String × Value) : Option Attribute := e.2.code?.map fun c => ⟨e.1, c.code⟩

theorem attributesOf_code (entries : List (String × Value)) :
    (attributesOf entries).code = entries.filterMap attribute? := by
  induction entries with
  | nil => rfl
  | cons e rest ih =>
    rw [attributesOf, List.filterMap_cons, attribute?, ← ih]
    cases e.2.code? <;> rfl

theorem attribute?_key {e : String × Value} {a : Attribute} (h : attribute? e = some a) :
    a.key = e.1 := by
  obtain ⟨c, -, rfl⟩ := Option.map_eq_some_iff.mp h
  rfl

theorem attribute_keys_sublist (entries : List (String × Value)) :
    ((entries.filterMap attribute?).map (·.key)).Sublist (entries.map (·.1)) := by
  induction entries with
  | nil => exact .refl _
  | cons e rest ih =>
    rw [List.filterMap_cons]
    cases ha : attribute? e with
    | none => exact ih.cons _
    | some a =>
      rw [List.map_cons, List.map_cons, attribute?_key ha]
      exact ih.cons_cons _

end Record

/-- An attribute with a key that no other one has is all that a search for the key finds. -/
theorem filter_key_eq {as : List Attribute} (h : (as.map (·.key)).Nodup) {a : Attribute}
    (ha : a ∈ as) : as.filter (·.key = a.key) = [a] := by
  induction as with
  | nil => cases ha
  | cons b rest ih =>
    obtain ⟨hb, hrest⟩ := List.nodup_cons.mp h
    have hkey : ∀ c ∈ rest, b.key ≠ c.key :=
      fun c hc he => hb (List.mem_map.mpr ⟨c, hc, he.symm⟩)
    rcases List.mem_cons.mp ha with rfl | ha
    · have hnone : rest.filter (·.key = a.key) = [] :=
        List.filter_eq_nil_iff.mpr fun c hc => by simpa using (hkey c hc).symm
      rw [List.filter_cons_of_pos (by simp), hnone]
    · rw [List.filter_cons_of_neg (by simpa using hkey a ha), ih hrest ha]

namespace Screen

variable (s : Screen)

/-- The entries of the user's props. -/
def given : List (String × Value) := (s.props.getD .empty).entries

def nameAttribute : Attribute := ⟨"name", "route." ++ s.routeSymbol⟩

/-- A lazy screen is loaded when it is shown, any other one is imported. -/
def loaderAttribute : Attribute :=
  if s.isLazy then ⟨"getComponent", s.loader⟩ else ⟨"component", s.importSpecifier⟩

/-- The key of the loader that the screen does not have. -/
def otherLoaderKey : String := if s.isLazy then "component" else "getComponent"

/-- What stands in the place of one of the user's props. -/
def attributeFor? (e : String × Value) : Option Attribute :=
  if e.1 = "name" then some s.nameAttribute
  else if e.1 = s.loaderAttribute.key then some s.loaderAttribute
  else if e.1 = s.otherLoaderKey then none
  else Record.attribute? e

/-- The attributes of an element as the screen asks for them. -/
structure Dressed (as : List Attribute) : Prop where
  keys_nodup : (as.map (·.key)).Nodup
  name : as.filter (·.key = "name") = [s.nameAttribute]
  loader : as.filter (fun a => a.key = "getComponent" ∨ a.key = "component") = [s.loaderAttribute]
  other : ∀ key v, (key, v) ∈ s.given → key ∉ ["name", "getComponent", "component"] →
    v.isCodeless = false → ∃ c, v.code? = some c ∧ ⟨key, c.code⟩ ∈ as
  order : as = s.given.filterMap s.attributeFor? ++
    Record.unlessKey "name" s.given [s.nameAttribute] ++
      Record.unlessKey s.loaderAttribute.key s.given [s.loaderAttribute]

variable {s}

/-- What is written under the keys of the loaders: one of them, and null for the other. -/
def loaderValue (s : Screen) (key : String) : Value :=
  if key = s.loaderAttribute.key then .code s.loaderAttribute.value else .null

/-- The name is written first, then the loaders. -/
theorem elementProps_entries (s : Screen) : s.elementProps.entries =
    Record.put "component" (s.loaderValue "component")
      (Record.put "getComponent" (s.loaderValue "getComponent")
        (Record.put "name" (.code s.nameAttribute.value) s.given)) := by
  unfold elementProps loaderValue loaderAttribute
  split <;> rfl

theorem attribute?_of_code (key text : String) :
    Record.attribute? (key, .code text) = some ⟨key, text⟩ := by
  rw [Record.attribute?, Value.code?]
  rfl

theorem attribute?_of_null (key : String) : Record.attribute? (key, .null) = none := by
  rw [Record.attribute?, Value.code?]
  rfl

theorem attribute?_loader (key : String) : Record.attribute? (key, s.loaderValue key) =
    if key = s.loaderAttribute.key then some s.loaderAttribute else none := by
  unfold loaderValue
  split
  · next h => rw [attribute?_of_code, h]
  · exact attribute?_of_null key

/-- The two keys of loaders, in either order. -/
theorem loader_keys (s : Screen) :
    (s.loaderAttribute.key = "getComponent" ∧ s.otherLoaderKey = "component") ∨
      (s.loaderAttribute.key = "component" ∧ s.otherLoaderKey = "getComponent") := by
  unfold loaderAttribute otherLoaderKey
  split
  · exact .inl ⟨rfl, rfl⟩
  · exact .inr ⟨rfl, rfl⟩

theorem attributeFor?_eq (e : String × Value) : s.attributeFor? e =
    if e.1 = "name" then some s.nameAttribute
    else if e.1 = "getComponent" then
      Record.attribute? ("getComponent", s.loaderValue "getComponent")
    else if e.1 = "component" then Record.attribute? ("component", s.loaderValue "component")
    else Record.attribute? e := by
  unfold attributeFor?
  rw [attribute?_loader, attribute?_loader]
  rcases s.loader_keys with ⟨hkey, hother⟩ | ⟨hkey, hother⟩
  · simp [hkey, hother]
  · grind

/-- Of the two loaders only the one that the screen has shows. -/
theorem unlessKey_loaders (s : Screen) :
    Record.unlessKey "getComponent" s.given
        (Record.attribute? ("getComponent", s.loaderValue "getComponent")).toList ++
      Record.unlessKey "component" s.given
        (Record.attribute? ("component", s.loaderValue "component")).toList =
    Record.unlessKey s.loaderAttribute.key s.given [s.loaderAttribute] := by
  rw [attribute?_loader, attribute?_loader]
  rcases s.loader_keys with ⟨hkey, -⟩ | ⟨hkey, -⟩
  · rw [hkey]
    simp [Record.unlessKey]
  · rw [hkey]
    simp [Record.unlessKey]

theorem attributes_eq (h : (s.given.map (·.1)).Nodup) : s.element.attributes =
    s.given.filterMap s.attributeFor? ++
      Record.unlessKey "name" s.given [s.nameAttribute] ++
        Record.unlessKey s.loaderAttribute.key s.given [s.loaderAttribute] := by
  have hattributes : s.element.attributes = s.elementProps.entries.filterMap Record.attribute? :=
    Record.attributesOf_code s.elementProps.entries
  have hfor : s.attributeFor? = _ := funext attributeFor?_eq
  have hname : Record.attribute? ("name", .code s.nameAttribute.value) = some s.nameAttribute :=
    attribute?_of_code "name" _
  rw [hattributes, elementProps_entries,
    Record.filterMap_put (Record.nodup_keys_put (Record.nodup_keys_put h)),
    Record.filterMap_put (Record.nodup_keys_put h), Record.filterMap_put h,
    Record.unlessKey_put (by decide), Record.unlessKey_put (by decide),
    Record.unlessKey_put (by decide), ← s.unlessKey_loaders, hfor]
  simp [hname]

theorem otherLoaderKey_ne (s : Screen) :
    s.otherLoaderKey ≠ s.nameAttribute.key ∧ s.otherLoaderKey ≠ s.loaderAttribute.key := by
  rcases s.loader_keys with ⟨hkey, hother⟩ | ⟨hkey, hother⟩
  · rw [hkey, hother]
    exact ⟨(by decide : "component" ≠ "name"), by decide⟩
  · rw [hkey, hother]
    exact ⟨(by decide : "getComponent" ≠ "name"), by decide⟩

theorem attributeFor?_key_ne {e : String × Value} {a : Attribute}
    (h : s.attributeFor? e = some a) : a.key ≠ s.otherLoaderKey := by
  unfold attributeFor? at h
  split at h
  · exact Option.some.inj h ▸ s.otherLoaderKey_ne.1.symm
  · split at h
    · exact Option.some.inj h ▸ s.otherLoaderKey_ne.2.symm
    · split at h
      · cases h
      · next hne => exact Record.attribute?_key h ▸ hne

/-- No attribute stands under the key of the other loader. -/
theorem otherLoader_cleared (h : (s.given.map (·.1)).Nodup) :
    ∀ a ∈ s.element.attributes, a.key ≠ s.otherLoaderKey := by
  intro a ha
  rw [attributes_eq h, List.mem_append, List.mem_append] at ha
  rcases ha with (ha | ha) | ha
  · obtain ⟨e, -, he⟩ := List.mem_filterMap.mp ha
    exact attributeFor?_key_ne he
  · rw [List.mem_singleton.mp (Record.mem_of_mem_unlessKey ha)]
    exact s.otherLoaderKey_ne.1.symm
  · rw [List.mem_singleton.mp (Record.mem_of_mem_unlessKey ha)]
    exact s.otherLoaderKey_ne.2.symm

theorem attribute_keys_nodup (h : (s.given.map (·.1)).Nodup) :
    (s.element.attributes.map (·.key)).Nodup := by
  have hattributes : s.element.attributes = s.elementProps.entries.filterMap Record.attribute? :=
    Record.attributesOf_code s.elementProps.entries
  have hentries : (s.elementProps.entries.map (·.1)).Nodup := by
    rw [elementProps_entries]
    exact Record.nodup_keys_put (Record.nodup_keys_put (Record.nodup_keys_put h))
  rw [hattributes]
  exact hentries.sublist (Record.attribute_keys_sublist _)

/-- What a prop shows under a key of its own stays. -/
theorem given_attribute {key : String} {v : Value} {c : Spliced String}
    (h : (s.given.map (·.1)).Nodup) (hv : (key, v) ∈ s.given)
    (hkey : key ∉ ["name", "getComponent", "component"]) (hc : v.code? = some c) :
    (⟨key, c.code⟩ : Attribute) ∈ s.element.attributes := by
  have hfor : s.attributeFor? (key, v) = some ⟨key, c.code⟩ := by
    simp only [List.mem_cons, List.not_mem_nil, or_false, not_or] at hkey
    obtain ⟨hname, hget, hcomponent⟩ := hkey
    rw [attributeFor?_eq, if_neg hname, if_neg hget, if_neg hcomponent, Record.attribute?, hc]
    rfl
  rw [attributes_eq h, List.append_assoc]
  exact List.mem_append_left _ (List.mem_filterMap.mpr ⟨_, hv, hfor⟩)

theorem loader_attribute (s : Screen) : s.loaderAttribute ∈ s.element.attributes := by
  have hmem : ∀ key, (key, s.loaderValue key) ∈ s.elementProps.entries →
      key = s.loaderAttribute.key → s.loaderAttribute ∈ s.element.attributes := by
    intro key hm hkey
    rw [hkey, loaderValue, if_pos rfl] at hm
    exact Record.mem_attributes_of_code hm
  rw [elementProps_entries] at hmem
  rcases s.loader_keys with ⟨hkey, -⟩ | ⟨hkey, -⟩
  · exact hmem "getComponent" (Record.mem_put_of_ne (by decide) Record.mem_put_self) hkey.symm
  · exact hmem "component" Record.mem_put_self hkey.symm

theorem filter_loader (h : (s.given.map (·.1)).Nodup) :
    s.element.attributes.filter (fun a => a.key = "getComponent" ∨ a.key = "component") =
      [s.loaderAttribute] := by
  rw [← filter_key_eq (attribute_keys_nodup h) s.loader_attribute]
  refine List.filter_congr fun a ha => decide_eq_decide.mpr ?_
  have hother : a.key ≠ s.otherLoaderKey := otherLoader_cleared h a ha
  rcases s.loader_keys with ⟨hkey, hne⟩ | ⟨hkey, hne⟩
  · rw [hkey]
    exact or_iff_left (hne ▸ hother)
  · rw [hkey]
    exact or_iff_right (hne ▸ hother)

/-- The element of a screen, whatever the user's props hold under the keys that it needs, and its
text in the component of the navigator that holds the screen. -/
theorem element_dressed (h : ∀ r, s.props = some r → r.keys.Nodup) :
    s.Dressed s.element.attributes ∧
    s.element.text = "<" ++ (s.stackSymbol ++ ".Screen") ++
      String.join (s.element.attributes.map fun a =>
        " " ++ (a.key ++ "=\x7b" ++ a.value ++ "\x7d")) ++ " />" ∧
    ∀ (t : Tree) (n : Navigator), t.Contains n → n.Holds s →
      n.componentDeclaration ∈ t.flatten.component.declarations ∧
      s.element.ShownIn n.componentDeclaration.text := by
  have hgiven : (s.given.map (·.1)).Nodup := by
    unfold given
    cases hp : s.props with
    | none => exact List.nodup_nil
    | some r => exact h r hp
  refine ⟨⟨attribute_keys_nodup hgiven,
    filter_key_eq (attribute_keys_nodup hgiven) s.name_attribute, filter_loader hgiven,
    fun key v hv hkey hshown => ?_, attributes_eq hgiven⟩, s.element.text_eq, fun t n hn hs => ?_⟩
  · have hne : v.code? ≠ none := fun hnone => by
      rw [(Value.code?_eq_none_iff v).mp hnone] at hshown
      cases hshown
    obtain ⟨c, hc⟩ := Option.ne_none_iff_exists'.mp hne
    exact ⟨c, hc, given_attribute hgiven hv hkey hc⟩
  · exact ⟨Tree.component_declared hn hs.isExternal,
      n.element_shown (List.mem_cons_of_mem _ hs.inside)⟩

end Screen

namespace Plain

/-- Props that take all the keys that the element of their screen needs. -/
def ownKeysProps : Record := ⟨[("component", .string "Mine"), ("tags", .list [.string "new"]),
  ("name", .null), ("options", .record [("title", .string "Feed"), ("icon", .null)])]⟩

def ownKeysFeed : Screen :=
  { screen "Feed" ⟨⟨.navigator, "App", false, true⟩, []⟩ with props := some ownKeysProps }

theorem ownKeysFeed_dressed :
    ownKeysProps.keys.Nodup ∧ ownKeysFeed.Dressed ownKeysFeed.element.attributes ∧
    ownKeysFeed.element.attributes = [⟨"name", "route.routeFeed"⟩,
      ⟨"options", "\x7b title: \"Feed\" \x7d"⟩,
      ⟨"getComponent", "() => require('src/Feed').Feed"⟩] ∧
    ownKeysFeed.element.text = "<AppStack.Screen name=\x7broute.routeFeed\x7d " ++
      "options=\x7b\x7b title: \"Feed\" \x7d\x7d " ++
      "getComponent=\x7b() => require('src/Feed').Feed\x7d />" := by
  have hkeys : ownKeysProps.keys.Nodup := by decide
  have hgiven : ∀ r, ownKeysFeed.props = some r → r.keys.Nodup :=
    fun _ hr => Option.some.inj hr ▸ hkeys
  obtain ⟨hdressed, htext, _⟩ := Screen.element_dressed hgiven
  exact ⟨hkeys, hdressed, by rfl, htext.trans (by rfl)⟩

end Plain

end NavTree
