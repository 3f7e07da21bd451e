import Mathlib.Data.List.Forall2
import NavTree.Proofs.Code.Fragments

/-! # Members of a rendering

Attributes, properties and signatures are made alike: entry by entry, from the key and from the code
of the value, where an entry without code is passed over. What holds of all three is proved here
once, for any rendering of values that treats expressions and records as code and types do: entries
without code can be left out of a record at any depth, every other entry becomes one member, and the
fragments stand in the members in the order of the entries.
-/
namespace NavTree

/-- The text holds the codes of the expressions one behind the other. -/
inductive Threads : List Expression → String → Prop
  | nil (text : String) : Threads [] text
  | cons (front : String) (e : Expression) {es : List Expression} {back : String} :
      Threads es back → Threads (e :: es) (front ++ e.code ++ back)

namespace Threads

variable {es others : List Expression} {text back : String}

theorem single (e : Expression) : Threads [e] e.code := by
  have h : Threads [e] ("" ++ e.code ++ "") := .cons "" e (.nil "")
  rwa [String.empty_append, String.append_empty] at h

theorem before (h : Threads es text) (front : String) : Threads es (front ++ text) := by
  cases h with
  | nil => exact .nil _
  | cons f e h =>
    rw [← String.append_assoc, ← String.append_assoc]
    exact .cons (front ++ f) e h

theorem append (h : Threads es text) (hb : Threads others back) :
    Threads (es ++ others) (text ++ back) := by
  induction h with
  | nil text => exact hb.before text
  | cons front e _ ih =>
    rw [String.append_assoc]
    exact .cons front e ih

theorem after (h : Threads es text) (back : String) : Threads es (text ++ back) := by
  have hboth : Threads (es ++ []) (text ++ back) := h.append (.nil back)
  rwa [List.append_nil] at hboth

theorem intercalate_cons {separator : String} {texts : List String} (h : Threads es text)
    (ht : Threads others (separator.intercalate texts)) :
    Threads (es ++ others) (separator.intercalate (text :: texts)) := by
  cases texts with
  | nil =>
    have hboth : Threads (es ++ others) (text ++ "") := h.append ht
    rwa [String.append_empty] at hboth
  | cons next rest =>
    rw [String.intercalate_cons_cons, String.append_assoc]
    exact h.append (ht.before separator)

theorem braced {separator : String} {texts : List String}
    (h : Threads es (separator.intercalate texts)) :
    Threads es (NavTree.braced separator texts) := by
  cases texts with
  | nil =>
    have hempty : Threads es (NavTree.braced separator [] ++ "") := h.before _
    rwa [String.append_empty] at hempty
  | cons text rest => exact (h.before _).after _

end Threads

namespace Value

/-- The members that entries become. -/
def members {α : Type} (render : Value → Option (Spliced String)) (member : String → String → α) :
    List (String × Value) → Spliced (List α)
  | [] => ⟨[], []⟩
  | (key, v) :: rest =>
    let others := members render member rest
    match render v with
    | some c => ⟨member key c.code :: others.code, c.uses ++ others.uses⟩
    | none => others

def property (key code : String) : String := propertyKey key ++ ": " ++ code

def signature (key type : String) : String := propertyKey key ++ ": " ++ type ++ ";"

theorem properties_eq (entries : List (String × Value)) :
    properties entries = members code? property entries := by
  induction entries with
  | nil => rfl
  | cons e rest ih =>
    rw [properties, ih]
    rfl

theorem signatures_eq (entries : List (String × Value)) :
    signatures entries = members type? signature entries := by
  induction entries with
  | nil => rfl
  | cons e rest ih =>
    rw [signatures, ih]
    rfl

end Value

theorem Record.attributesOf_eq (entries : List (String × Value)) :
    attributesOf entries = Value.members Value.code? Attribute.mk entries := by
  induction entries with
  | nil => rfl
  | cons e rest ih =>
    rw [attributesOf, ih]
    rfl

namespace Value

/-- Neither a fragment nor a record, so there is nothing in it to be spliced. -/
def isLeaf : Value → Bool
  | .expression _ | .record _ => false
  | _ => true

/-- Fragments are spliced, records put their members into braces, and nothing else uses anything. -/
structure IsRendering (render : Value → Option (Spliced String)) (separator : String)
    (member : String → String → String) : Prop where
  expression : ∀ e, render (.expression e) = some e.splice
  record : ∀ entries, render (.record entries) = some
    ⟨braced separator (members render member entries).code, (members render member entries).uses⟩
  leaf : ∀ v c, v.isLeaf = true → render v = some c → c.uses = []
  around : ∀ key code, ∃ front back, member key code = front ++ code ++ back

theorem code?_isRendering : IsRendering code? ", " property where
  expression e := by rw [code?]
  record entries := by rw [code?, properties_eq]
  leaf v c hv hc := by
    cases v with
    | expression _ | record _ => cases hv
    | null | list _ => simp [code?] at hc
    | _ => simp [code?] at hc; rw [← hc]
  around key code := ⟨propertyKey key ++ ": ", "", by rw [property, String.append_empty]⟩

theorem type?_isRendering : IsRendering type? " " signature where
  expression e := by rw [type?]
  record entries := by rw [type?, signatures_eq]
  leaf v c hv hc := by
    cases v with
    | expression _ | record _ => cases hv
    | null | list _ | code _ => simp [type?] at hc
    | _ => simp [type?] at hc; rw [← hc]
  around key code := ⟨propertyKey key ++ ": ", ";", rfl⟩

theorem fragments_of_isLeaf {v : Value} (h : v.isLeaf = true) : v.fragments = [] := by
  cases v with
  | expression _ | record _ => cases h
  | _ => rw [fragments]

mutual

/-- The value without the entries whose value is dropped, at any depth of records. -/
def pruned (drops : Value → Bool) : Value → Value
  | .record entries => .record (prunedOf drops entries)
  | v => v

def prunedOf (drops : Value → Bool) : List (String × Value) → List (String × Value)
  | [] => []
  | (key, v) :: rest =>
    if drops v then prunedOf drops rest else (key, pruned drops v) :: prunedOf drops rest

end

section Pruned

variable {drops : Value → Bool} {render : Value → Option (Spliced String)} {separator : String}
  {member : String → String → String}

theorem mem_prunedOf {e : String × Value} {entries : List (String × Value)}
    (h : e ∈ prunedOf drops entries) :
    ∃ v, (e.1, v) ∈ entries ∧ drops v = false ∧ e.2 = v.pruned drops := by
  induction entries with
  | nil => cases h
  | cons first rest ih =>
    obtain ⟨key, v⟩ := first
    rw [prunedOf] at h
    split at h
    · obtain ⟨w, hw, hkept⟩ := ih h
      exact ⟨w, List.mem_cons_of_mem _ hw, hkept⟩
    · next hkept =>
      rcases List.mem_cons.mp h with rfl | h
      · exact ⟨v, List.mem_cons_self, by simpa using hkept, rfl⟩
      · obtain ⟨w, hw, hkept⟩ := ih h
        exact ⟨w, List.mem_cons_of_mem _ hw, hkept⟩

mutual

/-- What is dropped has no rendering, so leaving it out changes nothing. -/
theorem IsRendering.pruned (hr : IsRendering render separator member)
    (hd : ∀ v, drops v = true → render v = none) :
    ∀ v : Value, render (v.pruned drops) = render v
  | .record entries => by
    rw [Value.pruned, hr.record, hr.record, hr.members_pruned hd entries]
  | .expression _ | .string _ | .number _ | .boolean _ | .null | .list _ | .code _ => by
    rw [Value.pruned]
    all_goals simp

theorem IsRendering.members_pruned {α : Type} {make : String → String → α}
    (hr : IsRendering render separator member) (hd : ∀ v, drops v = true → render v = none) :
    ∀ entries : List (String × Value),
      members render make (prunedOf drops entries) = members render make entries
  | [] => by rw [prunedOf]
  | (key, v) :: rest => by
    have hrest : members render make (prunedOf drops rest) = members render make rest :=
      hr.members_pruned hd rest
    rw [prunedOf]
    split
    · next hv => rw [members, hd v hv, hrest]
    · rw [members, members, hr.pruned hd v, hrest]

end

/-- What is not dropped has a rendering. -/
theorem IsRendering.prunedOf_ne_none (hr : IsRendering render separator member)
    (hd : ∀ v, render v = none ↔ drops v = true) {entries : List (String × Value)} :
    ∀ e ∈ prunedOf drops entries, render e.2 ≠ none := by
  intro e he hnone
  obtain ⟨v, -, hkept, hv⟩ := mem_prunedOf he
  rw [hv, hr.pruned fun w hw => (hd w).mpr hw] at hnone
  rw [(hd v).mp hnone] at hkept
  cases hkept

end Pruned

section Members

variable {α : Type} {render : Value → Option (Spliced String)} {separator : String}
  {member : String → String → String} {make : String → String → α}
  {entries : List (String × Value)}

theorem members_forall₂ (h : ∀ e ∈ entries, render e.2 ≠ none) :
    List.Forall₂ (fun e m => ∃ c, render e.2 = some c ∧ m = make e.1 c.code)
      entries (members render make entries).code := by
  induction entries with
  | nil => exact .nil
  | cons e rest ih =>
    obtain ⟨hv, hrest⟩ := List.forall_mem_cons.mp h
    obtain ⟨c, hc⟩ := Option.ne_none_iff_exists'.mp hv
    rw [members, hc]
    exact .cons ⟨c, hc, rfl⟩ (ih hrest)

theorem members_uses (h : ∀ v : Value, RendersAll (render v) v.fragments)
    (entries : List (String × Value)) :
    (members render make entries).uses = (fragmentsOf entries).filterMap Expression.use := by
  induction entries with
  | nil => rfl
  | cons e rest ih =>
    obtain ⟨key, v⟩ := e
    have hv : RendersAll (render v) v.fragments := h v
    rw [members, fragmentsOf, List.filterMap_append, ← ih]
    cases hc : render v with
    | none =>
      rw [hc] at hv
      rw [hv]
      rfl
    | some c =>
      rw [hc] at hv
      rw [← hv.uses_eq]

theorem IsRendering.fragments_of_none (hr : IsRendering render separator member) {v : Value}
    (h : render v = none) : v.fragments = [] := by
  cases v with
  | expression e => rw [hr.expression] at h; cases h
  | record entries => rw [hr.record] at h; cases h
  | _ => exact fragments_of_isLeaf rfl

/-- What the values of the entries thread, their members thread together. -/
theorem IsRendering.members_thread (hr : IsRendering render separator member)
    (between : String) (text : α → String)
    (ht : ∀ key code, ∃ front back, text (make key code) = front ++ code ++ back)
    (h : ∀ e ∈ entries, ∀ c, render e.2 = some c → Threads e.2.fragments c.code) :
    Threads (fragmentsOf entries)
      (between.intercalate ((members render make entries).code.map text)) := by
  induction entries with
  | nil => exact .nil _
  | cons e rest ih =>
    obtain ⟨key, v⟩ := e
    obtain ⟨hv, hrest⟩ := List.forall_mem_cons.mp h
    rw [members, fragmentsOf]
    cases hc : render v with
    | none =>
      rw [hr.fragments_of_none hc]
      exact ih hrest
    | some c =>
      obtain ⟨front, back, hm⟩ := ht key c.code
      refine Threads.intercalate_cons ?_ (ih hrest)
      rw [hm]
      exact ((hv c hc).before front).after back

mutual

theorem IsRendering.threads (hr : IsRendering render separator member) :
    ∀ (v : Value) (c : Spliced String), render v = some c → Threads v.fragments c.code
  | .expression e, c, h => by
    rw [hr.expression] at h
    rw [fragments, ← Option.some.inj h]
    exact .single e
  | .record entries, c, h => by
    rw [hr.record] at h
    rw [fragments, ← Option.some.inj h]
    have hm : Threads (fragmentsOf entries)
        (separator.intercalate ((members render member entries).code.map id)) :=
      hr.members_thread separator id hr.around (hr.threads_all entries)
    rw [List.map_id] at hm
    exact hm.braced
  | .string _, c, _ | .number _, c, _ | .boolean _, c, _ | .null, c, _ | .list _, c, _
  | .code _, c, _ => by
    rw [fragments]
    exact .nil _

theorem IsRendering.threads_all (hr : IsRendering render separator member) :
    ∀ (entries : List (String × Value)), ∀ e ∈ entries, ∀ c,
      render e.2 = some c → Threads e.2.fragments c.code
  | (key, v) :: rest, e, he, c, hc => by
    rcases List.mem_cons.mp he with rfl | he
    · exact hr.threads v c hc
    · exact hr.threads_all rest e he c hc

end

end Members

end Value

end NavTree
