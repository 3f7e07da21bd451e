import NavTree.Code.Component
import NavTree.Proofs.Code.Fragments
import NavTree.Proofs.Tree.Position
import NavTree.Proofs.Tree.Record

/-! # Elements of a component

What a component renders for one node: the elements inside an element, the attributes that a record
of props becomes, and the text of all that. The text of an element is its tag, its attributes in
their order and what is inside, so the declaration of a component shows every element of it whole.
-/
namespace NavTree

namespace Record

variable {key : String} {entries : List (String × Value)}

theorem mem_attributesOf {a : Attribute} :
    a ∈ (attributesOf entries).code ↔
      ∃ v uses, (a.key, v) ∈ entries ∧ v.code? = some ⟨a.value, uses⟩ := by
  induction entries with
  | nil => simp [attributesOf]
  | cons e rest ih =>
    obtain ⟨k, v⟩ := e
    rw [attributesOf]
    cases hc : v.code? with
    | none =>
      simp only [ih, List.mem_cons, Prod.mk.injEq]
      constructor
      · rintro ⟨w, uses, hw, he⟩
        exact ⟨w, uses, .inr hw, he⟩
      · rintro ⟨w, uses, ⟨-, rfl⟩ | hw, he⟩
        · simp [hc] at he
        · exact ⟨w, uses, hw, he⟩
    | some c =>
      simp only [List.mem_cons, ih, Prod.mk.injEq]
      constructor
      · rintro (rfl | ⟨w, uses, hw, he⟩)
        · exact ⟨v, c.uses, .inl ⟨rfl, rfl⟩, hc⟩
        · exact ⟨w, uses, .inr hw, he⟩
      · rintro ⟨w, uses, ⟨hk, rfl⟩ | hw, he⟩
        · obtain rfl : c = ⟨a.value, uses⟩ := Option.some.inj (hc.symm.trans he)
          exact .inl (by rw [← hk])
        · exact .inr ⟨w, uses, hw, he⟩

/-- Built code that is written to a record becomes an attribute as it is. -/
theorem mem_attributes_of_code {r : Record} {text : String}
    (h : (key, Value.code text) ∈ r.entries) : (⟨key, text⟩ : Attribute) ∈ r.attributes.code :=
  mem_attributesOf.mpr ⟨_, [], h, by simp [Value.code?]⟩

end Record

namespace Screen

theorem name_attribute (s : Screen) :
    (⟨"name", "route." ++ s.routeSymbol⟩ : Attribute) ∈ s.element.attributes := by
  refine Record.mem_attributes_of_code ?_
  unfold elementProps
  split <;>
    exact Record.mem_put_of_ne (by decide)
      (Record.mem_put_of_ne (by decide) Record.mem_put_self)

theorem component_attribute {s : Screen} (h : s.isLazy = false) :
    (⟨"component", s.importSpecifier⟩ : Attribute) ∈ s.element.attributes := by
  refine Record.mem_attributes_of_code ?_
  simp only [elementProps, h, Bool.false_eq_true, ↓reduceIte]
  exact Record.mem_put_self

end Screen

namespace Element

mutual

/-- The elements inside an element, at any depth. -/
def inside : Element → List Element
  | void _ _ => []
  | container _ _ children => insideAll children

/-- The elements of a list and those inside them. -/
def insideAll : List Element → List Element
  | [] => []
  | e :: es => e :: (inside e ++ insideAll es)

end

theorem mem_insideAll {e : Element} {es : List Element} :
    e ∈ insideAll es ↔ ∃ c ∈ es, e = c ∨ e ∈ c.inside := by
  induction es with
  | nil => simp [insideAll]
  | cons c es ih => simp [insideAll, ih, or_assoc]

/-- What stands behind the attributes: the end of an element without children, or a line per child
and the tag again. -/
def body : Element → String
  | void _ _ => " />"
  | container tag _ children =>
    ">\n" ++ "\n".intercalate (children.map text) ++ "\n</" ++ tag ++ ">"

theorem texts_eq (es : List Element) : texts es = es.map text := by
  induction es with
  | nil => rw [texts, List.map_nil]
  | cons e es ih => rw [texts, ih, List.map_cons]

theorem text_eq (e : Element) : e.text =
    "<" ++ e.tag ++ String.join (e.attributes.map fun a =>
      " " ++ (a.key ++ "=\x7b" ++ a.value ++ "\x7d")) ++ e.body := by
  cases e with
  | void tag as =>
    rw [text, opening, Element.tag, attributes, body]
    rfl
  | container tag as children =>
    rw [text, opening, texts_eq, Element.tag, attributes, body]
    simp only [Attribute.text, String.append_assoc]

mutual

theorem occurs_of_inside {e : Element} : ∀ el : Element, e ∈ el.inside → Occurs e.text el.text
  | void _ _, h => by cases h
  | container tag as children, h => by
    obtain ⟨child, hchild, ho⟩ := exists_occurs children h
    rw [text, texts_eq]
    have hlines : Occurs e.text ("\n".intercalate (children.map text)) :=
      ho.trans (.intercalate "\n" (List.mem_map_of_mem hchild))
    exact (((hlines.before _).after _).after _).after _

theorem exists_occurs {e : Element} : ∀ es : List Element, e ∈ insideAll es →
    ∃ child ∈ es, Occurs e.text child.text
  | [], h => by cases h
  | child :: es, h => by
    rw [insideAll] at h
    rcases List.mem_cons.mp h with rfl | h
    · exact ⟨_, List.mem_cons_self, .refl _⟩
    rcases List.mem_append.mp h with h | h
    · exact ⟨child, List.mem_cons_self, occurs_of_inside child h⟩
    · obtain ⟨c, hc, ho⟩ := exists_occurs es h
      exact ⟨c, List.mem_cons_of_mem _ hc, ho⟩

end

/-- A source shows an element: all of it stands there, with its attributes behind the tag. -/
structure ShownIn (e : Element) (source : String) : Prop where
  text_eq : e.text =
    "<" ++ e.tag ++ String.join (e.attributes.map fun a =>
      " " ++ (a.key ++ "=\x7b" ++ a.value ++ "\x7d")) ++ e.body
  whole : Occurs e.text source
  each : ∀ a ∈ e.attributes, Occurs (a.key ++ "=\x7b" ++ a.value ++ "\x7d") source

theorem shownIn_of_occurs {e : Element} {source : String} (h : Occurs e.text source) :
    e.ShownIn source where
  text_eq := e.text_eq
  whole := h
  each := by
    intro a ha
    have hlisted : " " ++ a.text ∈ e.attributes.map fun a => " " ++ a.text :=
      List.mem_map.mpr ⟨a, ha, rfl⟩
    have hspaced : Occurs a.text (" " ++ a.text) := (Occurs.refl a.text).before " "
    have htext : Occurs a.text e.text := by
      rw [e.text_eq]
      exact ((hspaced.trans (.join hlisted)).before _).after _
    exact htext.trans h

end Element

/-- The declaration of a component shows the element of its navigator and all those inside. -/
theorem Navigator.element_shown (n : Navigator) {e : Element}
    (h : e ∈ n.element :: n.element.inside) : e.ShownIn n.componentDeclaration.text := by
  have hvalue : Occurs n.element.text n.componentDeclaration.text :=
    ((((Occurs.refl _).before _).after _).before _).after _
  rcases List.mem_cons.mp h with rfl | h
  · exact Element.shownIn_of_occurs hvalue
  · exact Element.shownIn_of_occurs ((Element.occurs_of_inside _ h).trans hvalue)

theorem Screen.element_inside (s : Screen) : s.element.inside = [] := rfl

theorem Group.mem_element_inside {g : Group} {e : Element} :
    e ∈ g.element.inside ↔ ∃ s ∈ g.children, e = s.element := by
  simp only [element, Element.inside, Element.mem_insideAll, List.mem_map]
  constructor
  · rintro ⟨_, ⟨s, hs, rfl⟩, he⟩
    exact ⟨s, hs, by simpa [Screen.element_inside] using he⟩
  · rintro ⟨s, hs, rfl⟩
    exact ⟨_, ⟨s, hs, rfl⟩, .inl rfl⟩

/-- Inside the element of a navigator stand those of its screens and groups, and the stand-ins of
the navigators directly inside. -/
theorem Navigator.mem_element_inside {n : Navigator} {e : Element} :
    e ∈ n.element.inside ↔ (∃ s, n.Holds s ∧ e = s.element) ∨
      (∃ g, .group g ∈ n.children ∧ e = g.element) ∨
        ∃ child ∈ n.nested, e = (n.childScreen child).element := by
  simp only [element, Element.inside, Element.mem_insideAll, List.mem_map]
  constructor
  · rintro ⟨_, ⟨node, hn, rfl⟩, he⟩
    cases node with
    | screen s =>
      simp only [childElement, Screen.element_inside, List.not_mem_nil, or_false] at he
      exact .inl ⟨s, .inl hn, he⟩
    | group g =>
      rcases he with he | he
      · exact .inr (.inl ⟨g, hn, he⟩)
      · obtain ⟨s, hs, he⟩ := Group.mem_element_inside.mp he
        exact .inl ⟨s, .inr ⟨g, hn, hs⟩, he⟩
    | navigator head children =>
      simp only [childElement, Screen.element_inside, List.not_mem_nil, or_false] at he
      exact .inr (.inr ⟨⟨head, children⟩, mem_nested.mpr hn, he⟩)
  · rintro (⟨s, hs | ⟨g, hg, hs⟩, rfl⟩ | ⟨g, hg, rfl⟩ | ⟨child, hc, rfl⟩)
    · exact ⟨_, ⟨_, hs, rfl⟩, .inl rfl⟩
    · exact ⟨_, ⟨_, hg, rfl⟩, .inr (Group.mem_element_inside.mpr ⟨s, hs, rfl⟩)⟩
    · exact ⟨_, ⟨_, hg, rfl⟩, .inl rfl⟩
    · exact ⟨_, ⟨_, mem_nested.mp hc, rfl⟩, .inl rfl⟩

theorem Navigator.Holds.inside {n : Navigator} {s : Screen} (h : n.Holds s) :
    s.element ∈ n.element.inside :=
  mem_element_inside.mpr (.inl ⟨s, h, rfl⟩)

end NavTree
