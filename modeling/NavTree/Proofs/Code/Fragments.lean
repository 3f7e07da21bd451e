import NavTree.Code.Splice

/-! # Fragments in code

The expressions that are spliced into the code of a value: the value itself, or those in the entries
of a record at any nesting. What stands in a list has no code and is spliced nowhere. A rendering
holds the code of each fragment and carries the imports of all of them.
-/
namespace NavTree

/-- A text stands somewhere in another. -/
def Occurs (part text : String) : Prop := part.toList <:+: text.toList

namespace Occurs

variable {part text : String} {texts : List String}

theorem refl (text : String) : Occurs text text := List.infix_refl _

theorem trans {whole : String} (h : Occurs part text) (ht : Occurs text whole) :
    Occurs part whole := List.IsInfix.trans h ht

theorem before (h : Occurs part text) (front : String) : Occurs part (front ++ text) := by
  rw [Occurs, String.toList_append]
  exact List.IsInfix.trans h (List.suffix_append _ _).isInfix

theorem after (h : Occurs part text) (back : String) : Occurs part (text ++ back) := by
  rw [Occurs, String.toList_append]
  exact List.IsInfix.trans h (List.prefix_append _ _).isInfix

theorem intercalate (separator : String) (h : part ∈ texts) :
    Occurs part (separator.intercalate texts) := by
  induction texts with
  | nil => cases h
  | cons text rest ih =>
    cases rest with
    | nil =>
      rw [String.intercalate_singleton]
      exact List.mem_singleton.mp h ▸ refl part
    | cons next others =>
      rw [String.intercalate_cons_cons]
      rcases List.mem_cons.mp h with rfl | h
      · exact ((refl part).after _).after _
      · exact (ih h).before _

theorem join (h : part ∈ texts) : Occurs part (String.join texts) := by
  rw [Occurs, String.toList_join, List.flatMap_def]
  exact List.infix_of_mem_flatten (List.mem_map_of_mem h)

theorem braced (separator : String) (h : part ∈ texts) :
    Occurs part (NavTree.braced separator texts) := by
  have hne : texts.isEmpty = false := by
    cases texts with
    | nil => cases h
    | cons _ _ => rfl
  rw [NavTree.braced, hne]
  exact ((intercalate separator h).before _).after _

end Occurs

namespace Value

mutual

def fragments : Value → List Expression
  | .expression e => [e]
  | .record entries => fragmentsOf entries
  | .list _ | .string _ | .number _ | .boolean _ | .null | .code _ => []

def fragmentsOf : List (String × Value) → List Expression
  | [] => []
  | (_, v) :: rest => fragments v ++ fragmentsOf rest

end

end Value

def Params.fragments : Params → List Expression
  | .record r => Value.fragmentsOf r.entries
  | .expression e => [e]

/-- A rendering splices the expressions. -/
structure Spliced.Splices (c : Spliced String) (es : List Expression) : Prop where
  uses_eq : c.uses = es.filterMap Expression.use
  occurs : ∀ e ∈ es, Occurs e.code c.code

/-- The members of a record splice the expressions. -/
structure Spliced.MembersSplice (ms : Spliced (List String)) (es : List Expression) : Prop where
  uses_eq : ms.uses = es.filterMap Expression.use
  occurs : ∀ e ∈ es, ∃ m ∈ ms.code, Occurs e.code m

/-- What has no rendering has no fragments. -/
def RendersAll : Option (Spliced String) → List Expression → Prop
  | some c, es => c.Splices es
  | none, es => es = []

namespace Spliced

variable {c : Spliced String} {ms : Spliced (List String)} {es others : List Expression}

theorem Splices.expression (e : Expression) : e.splice.Splices [e] where
  uses_eq := by
    cases h : e.use <;> simp [Expression.splice, h]
  occurs := List.forall_mem_singleton.mpr (Occurs.refl e.code)

theorem Splices.plain (text : String) : Splices ⟨text, []⟩ [] := ⟨rfl, by simp⟩

theorem MembersSplice.nil : MembersSplice ⟨[], []⟩ [] := ⟨rfl, by simp⟩

theorem MembersSplice.cons (hc : c.Splices es) (hms : ms.MembersSplice others) {member : String}
    (hm : Occurs c.code member) :
    MembersSplice ⟨member :: ms.code, c.uses ++ ms.uses⟩ (es ++ others) where
  uses_eq := by rw [hc.uses_eq, hms.uses_eq, List.filterMap_append]
  occurs := by
    refine List.forall_mem_append.mpr ⟨fun e he => ?_, fun e he => ?_⟩
    · exact ⟨member, List.mem_cons_self, (hc.occurs e he).trans hm⟩
    · obtain ⟨m, hms, hm⟩ := hms.occurs e he
      exact ⟨m, List.mem_cons_of_mem _ hms, hm⟩

theorem MembersSplice.braced (h : ms.MembersSplice es) (separator : String) :
    Splices ⟨NavTree.braced separator ms.code, ms.uses⟩ es where
  uses_eq := h.uses_eq
  occurs := by
    intro e he
    obtain ⟨m, hm, ho⟩ := h.occurs e he
    exact ho.trans (.braced separator hm)

end Spliced

namespace Value

mutual

theorem code?_rendersAll : ∀ v : Value, RendersAll v.code? v.fragments
  | .expression e => by
    rw [code?, fragments]
    exact .expression e
  | .record entries => by
    rw [code?, fragments]
    exact (properties_splice entries).braced ", "
  | .string _ | .number _ | .boolean _ | .code _ => by
    rw [code?, fragments]
    exact .plain _
  | .null | .list _ => by
    rw [code?, fragments]
    rfl

theorem properties_splice : ∀ entries : List (String × Value),
    (properties entries).MembersSplice (fragmentsOf entries)
  | [] => .nil
  | (key, v) :: rest => by
    have hv : RendersAll v.code? v.fragments := code?_rendersAll v
    have hrest : (properties rest).MembersSplice (fragmentsOf rest) := properties_splice rest
    rw [properties, fragmentsOf]
    cases hc : v.code? with
    | none =>
      rw [hc] at hv
      rw [hv]
      exact hrest
    | some c =>
      rw [hc] at hv
      exact .cons hv hrest ((Occurs.refl c.code).before _)

end

mutual

theorem type?_rendersAll : ∀ v : Value, RendersAll v.type? v.fragments
  | .expression e => by
    rw [type?, fragments]
    exact .expression e
  | .record entries => by
    rw [type?, fragments]
    exact (signatures_splice entries).braced " "
  | .string _ | .number _ | .boolean _ => by
    rw [type?, fragments]
    exact .plain _
  | .code _ | .null | .list _ => by
    rw [type?, fragments]
    rfl

theorem signatures_splice : ∀ entries : List (String × Value),
    (signatures entries).MembersSplice (fragmentsOf entries)
  | [] => .nil
  | (key, v) :: rest => by
    have hv : RendersAll v.type? v.fragments := type?_rendersAll v
    have hrest : (signatures rest).MembersSplice (fragmentsOf rest) := signatures_splice rest
    rw [signatures, fragmentsOf]
    cases hc : v.type? with
    | none =>
      rw [hc] at hv
      rw [hv]
      exact hrest
    | some c =>
      rw [hc] at hv
      exact .cons hv hrest (((Occurs.refl c.code).before _).after _)

end

variable {v : Value} {c : Spliced String}

theorem code?_splices (h : v.code? = some c) : c.Splices v.fragments := by
  have hall : RendersAll v.code? v.fragments := v.code?_rendersAll
  rw [h] at hall
  exact hall

end Value

theorem Params.typeCode_splices (p : Params) : p.typeCode.Splices p.fragments := by
  cases p with
  | record r => exact (Value.signatures_splice r.entries).braced " "
  | expression e => exact .expression e

end NavTree
