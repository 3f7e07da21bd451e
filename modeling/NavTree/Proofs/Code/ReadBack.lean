import NavTree.Proofs.Code.Members
import NavTree.Proofs.Script.ObjectLiteral
import NavTree.Proofs.Text.Quoted

/-! # Objects are read back

The object literal of a record of plain data has one reading, and that is the record. So records of
plain data with the same object are equal, down to the order of their keys.
-/
namespace NavTree

open Script

theorem letter_range {c : Char} (h : c.isAlpha = true) :
    (65 ≤ c.toNat ∧ c.toNat ≤ 90) ∨ (97 ≤ c.toNat ∧ c.toNat ≤ 122) := by
  change (decide (c.val ≥ 65 ∧ c.val ≤ 90) || (decide (c.val ≥ 97) && decide (c.val ≤ 122))) = true
    at h
  simp only [Bool.or_eq_true, Bool.and_eq_true, decide_eq_true_eq, ge_iff_le,
    UInt32.le_iff_toNat_le] at h
  exact h

theorem isSolid_of_isKeyStart {c : Char} (h : isKeyStart c = true) : IsSolid c := by
  rw [isKeyStart, Bool.or_eq_true, Bool.or_eq_true, beq_iff_eq, beq_iff_eq] at h
  rcases h with (hletter | rfl) | rfl
  · have hrange : (65 ≤ c.toNat ∧ c.toNat ≤ 90) ∨ (97 ≤ c.toNat ∧ c.toNat ≤ 122) :=
      letter_range hletter
    refine ⟨by omega, by omega, ?_⟩
    rintro rfl
    exact absurd hrange (by decide)
  all_goals decide

theorem isNameRest_of_isNameStart {c : Char} (h : isNameStart c = true) : isNameRest c = true := by
  rw [isNameRest, h]
  rfl

theorem isNameStart_of_isKeyStart {c : Char} (h : isKeyStart c = true) : isNameStart c = true := by
  rw [isKeyStart] at h
  rw [isNameStart, h]
  rfl

theorem isNameRest_of_isKeyRest {c : Char} (h : isKeyRest c = true) : isNameRest c = true := by
  rw [isKeyRest, Bool.or_eq_true] at h
  rcases h with hstart | hdigit
  · exact isNameRest_of_isNameStart (isNameStart_of_isKeyStart hstart)
  · rw [isNameRest, hdigit, Bool.or_true, Bool.true_or]

theorem toList_of_isIdentifier {key : String} (h : isIdentifier key = true) :
    ∃ c cs, key.toList = c :: cs ∧ isKeyStart c = true ∧ ∀ d ∈ cs, isKeyRest d = true := by
  unfold isIdentifier at h
  cases hkey : key.toList with
  | nil => simp [hkey] at h
  | cons c cs =>
    simp only [hkey, Bool.and_eq_true, List.all_eq_true] at h
    exact ⟨c, cs, rfl, h⟩

theorem isName_of_isIdentifier {key : String} (h : isIdentifier key = true) :
    IsName key.toList := by
  obtain ⟨c, cs, hkey, hstart, hrest⟩ := toList_of_isIdentifier h
  have hname : isNameStart c = true := isNameStart_of_isKeyStart hstart
  rw [hkey]
  refine ⟨⟨c, rfl, hname⟩, List.forall_mem_cons.mpr ⟨isNameRest_of_isNameStart hname, ?_⟩⟩
  intro d hd
  exact isNameRest_of_isKeyRest (hrest d hd)

theorem readsKey_propertyKey (key : String) (rest : List Char) :
    ReadsKey key ((propertyKey key).toList ++ ':' :: rest) (':' :: rest) := by
  unfold propertyKey
  split
  · next hkey =>
    refine .bare rfl (isName_of_isIdentifier hkey) ?_
    rintro c ⟨⟩
    decide
  · exact .quoted (head?_stringLiteral key _) (string?_quoted .double key _)

theorem isSolid_propertyKey (key : String) (rest : List Char) :
    ∃ c ∈ ((propertyKey key).toList ++ rest).head?, IsSolid c := by
  unfold propertyKey
  split
  · next hkey =>
    obtain ⟨c, cs, hcs, hstart, -⟩ := toList_of_isIdentifier hkey
    exact ⟨c, by rw [hcs]; rfl, isSolid_of_isKeyStart hstart⟩
  · exact ⟨'"', head?_stringLiteral key rest, by decide⟩

namespace Value

mutual

/-- Strings, known numbers, booleans and records of them, at any depth. -/
def IsData (known : JsonNumber → Prop) : Value → Prop
  | .string _ | .boolean _ => True
  | .number n => known n
  | .record entries => AllData known entries
  | .null | .list _ | .expression _ | .code _ => False

def AllData (known : JsonNumber → Prop) : List (String × Value) → Prop
  | [] => True
  | (_, v) :: rest => IsData known v ∧ AllData known rest

end

/-- What stands behind a value in an object. -/
def Stops (rest : List Char) : Prop := ∀ c ∈ rest.head?, c = ',' ∨ c = ' '

theorem Stops.ends {rest : List Char} (h : Stops rest) {inside : Char → Bool}
    (hcomma : inside ',' = false) (hspace : inside ' ' = false) : Ends inside rest := by
  intro c hc
  rcases h c hc with rfl | rfl
  · exact hcomma
  · exact hspace

/-- The code of the value is read as the value. -/
def ReadsBack (known : JsonNumber → Prop) (v : Value) : Prop :=
  ∃ c, v.code? = some c ∧
    ∀ rest, Stops rest → ReadsValue known v (c.code.toList ++ rest) rest

section ReadsBack

variable {known : JsonNumber → Prop} {key code : String} {v : Value}
  {entries : List (String × Value)} {after tail rest : List Char}

theorem property_toList (key code : String) (after : List Char) :
    (property key code).toList ++ after =
      (propertyKey key).toList ++ ':' :: ' ' :: (code.toList ++ after) := by
  simp [property]

/-- One member, in front of what follows it. -/
theorem readsMembers_property
    (hv : ∀ rest, Stops rest → ReadsValue known v (code.toList ++ rest) rest)
    (hstop : Stops after) (hafter : afterGap? after = some tail)
    (htail : ReadsTail known entries tail rest) :
    ReadsMembers known ((key, v) :: entries) ((property key code).toList ++ after) rest := by
  rw [property_toList]
  have hvalue : ReadsValue known v (code.toList ++ after) after := hv after hstop
  refine .member (readsKey_propertyKey key _) (afterGap?_solid (by decide)) ?_ hvalue hafter htail
  rw [afterGap?_space]
  exact hvalue.afterGap?

/-- The members of an object and its end, in front of what follows it. -/
def memberText (entries : List (String × Value)) (rest : List Char) : List Char :=
  (", ".intercalate (properties entries).code).toList ++ ' ' :: '}' :: rest

theorem memberText_single {c : Spliced String} (hc : v.code? = some c) (rest : List Char) :
    memberText [(key, v)] rest = (property key c.code).toList ++ ' ' :: '}' :: rest := by
  rw [memberText, properties, hc]
  exact congrArg (·.toList ++ _) String.intercalate_singleton

theorem memberText_cons {c : Spliced String} (hc : v.code? = some c)
    (hne : (properties entries).code ≠ []) (rest : List Char) :
    memberText ((key, v) :: entries) rest =
      (property key c.code).toList ++ ',' :: ' ' :: memberText entries rest := by
  rw [memberText, memberText, properties, hc]
  cases hcode : (properties entries).code with
  | nil => exact absurd hcode hne
  | cons next others =>
    rw [String.intercalate_cons_cons]
    simp [property]

theorem properties_ne_nil {c : Spliced String} (hc : v.code? = some c) :
    (properties ((key, v) :: entries)).code ≠ [] := by
  rw [properties, hc]
  exact List.cons_ne_nil _ _

theorem afterGap?_property (key code : String) (after : List Char) :
    afterGap? ((property key code).toList ++ after) =
      some ((property key code).toList ++ after) := by
  rw [property_toList]
  exact afterGap?_head (isSolid_propertyKey key _)

/-- The members are read one behind the other, each up to the comma or the space behind it. -/
theorem readsMembers_memberText {first : String × Value}
    (h : ∀ e ∈ first :: entries, ReadsBack known e.2) (rest : List Char) :
    afterGap? (memberText (first :: entries) rest) = some (memberText (first :: entries) rest) ∧
      ReadsMembers known (first :: entries) (memberText (first :: entries) rest) rest := by
  induction entries generalizing first with
  | nil =>
    obtain ⟨key, v⟩ := first
    obtain ⟨c, hc, hv⟩ := h (key, v) List.mem_cons_self
    -- The last member ends at the space in front of the brace.
    rw [memberText_single hc]
    refine ⟨afterGap?_property _ _ _, readsMembers_property hv ?_ ?_ .close⟩
    · exact fun d hd => .inr (Option.mem_some_iff.mp hd).symm
    · rw [afterGap?_space]
      exact afterGap?_solid (by decide)
  | cons second entries ih =>
    obtain ⟨key, v⟩ := first
    obtain ⟨c, hc, hv⟩ := h (key, v) List.mem_cons_self
    have hothers : ∀ e ∈ second :: entries, ReadsBack known e.2 := (List.forall_mem_cons.mp h).2
    obtain ⟨c₂, hc₂, -⟩ := hothers second List.mem_cons_self
    obtain ⟨hgap, hreads⟩ := ih hothers
    -- Every other one ends at its comma, and the space behind that is a gap.
    have htail : ReadsTail known (second :: entries)
        (',' :: ' ' :: memberText (second :: entries) rest) rest :=
      .comma ((afterGap?_space _).trans hgap) hreads
    rw [memberText_cons hc (properties_ne_nil hc₂)]
    refine ⟨afterGap?_property _ _ _, readsMembers_property hv ?_ ?_ htail⟩
    · exact fun d hd => .inl (Option.mem_some_iff.mp hd).symm
    · exact afterGap?_solid (by decide)

theorem readsBack_record (h : ∀ e ∈ entries, ReadsBack known e.2) :
    ReadsBack known (.record entries) := by
  refine ⟨⟨braced ", " (properties entries).code, (properties entries).uses⟩, by rw [code?], ?_⟩
  intro rest _
  cases entries with
  | nil =>
    have hgap : afterGap? ('}' :: rest) = some ('}' :: rest) := afterGap?_solid (by decide)
    exact .record hgap .close
  | cons first entries =>
    obtain ⟨c, hc, -⟩ := h first List.mem_cons_self
    obtain ⟨hgap, hreads⟩ := readsMembers_memberText h rest
    have htext : (braced ", " (properties (first :: entries)).code).toList ++ rest =
        '{' :: ' ' :: memberText (first :: entries) rest := by
      rw [braced, if_neg (by simpa using properties_ne_nil hc)]
      simp [memberText]
    rw [htext]
    exact .record ((afterGap?_space _).trans hgap) hreads

mutual

/-- The code of plain data is read as the data. -/
theorem IsData.readsBack : ∀ {v : Value}, IsData known v → ReadsBack known v
  | .string s, _ => by
    refine ⟨⟨stringLiteral s, []⟩, by rw [code?], fun rest _ => ?_⟩
    exact .string (head?_stringLiteral s rest) (string?_quoted .double s rest)
  | .number n, h => by
    refine ⟨⟨n.text, []⟩, by rw [code?], fun rest hrest => .number h rfl ?_⟩
    exact hrest.ends (by decide) (by decide)
  | .boolean b, _ => by
    refine ⟨⟨booleanText b, []⟩, by rw [code?], fun rest hrest => .boolean rfl ?_⟩
    exact hrest.ends (by decide) (by decide)
  | .record entries, h => readsBack_record (AllData.readsBack h)
  | .null, h | .list _, h | .expression _, h | .code _, h => h.elim

theorem AllData.readsBack :
    ∀ {entries : List (String × Value)}, AllData known entries → ∀ e ∈ entries, ReadsBack known e.2
  | (key, v) :: rest, h, e, he => by
    rcases List.mem_cons.mp he with rfl | he
    · exact h.1.readsBack
    · exact h.2.readsBack e he

end

end ReadsBack

end Value

namespace Record

variable {known : JsonNumber → Prop}

theorem object_reads {r : Record} (h : Value.AllData known r.entries) :
    ReadsValue known (.record r.entries) r.object.code.toList [] := by
  obtain ⟨c, hc, hreads⟩ := Value.readsBack_record h.readsBack
  have hobject : r.object = c := by
    rw [Value.code?] at hc
    exact Option.some.inj hc
  rw [hobject, ← List.append_nil c.code.toList]
  refine hreads [] ?_
  rintro c ⟨⟩

/-- The object of plain data has one reading, the record it was made from, so no other record has
the same object. All numbers are known ones, which are told apart by their texts. -/
theorem object_reads_back (hknown : ∀ m n, known m → known n → m.text = n.text → m = n)
    {r₁ r₂ : Record} (h₁ : Value.AllData known r₁.entries) (h₂ : Value.AllData known r₂.entries) :
    (r₁.object.code = r₂.object.code → r₁ = r₂) ∧
      ∀ v, ReadsValue known v r₁.object.code.toList [] ↔ v = .record r₁.entries := by
  have hreads : ReadsValue known (.record r₁.entries) r₁.object.code.toList [] := object_reads h₁
  constructor
  · intro heq
    have hreads₂ : ReadsValue known (.record r₂.entries) r₁.object.code.toList [] := by
      rw [heq]
      exact object_reads h₂
    obtain ⟨hentries, -⟩ := hreads.unique hknown hreads₂
    cases r₁
    cases r₂
    cases hentries
    rfl
  · intro v
    constructor
    · intro hv
      exact (hv.unique hknown hreads).1
    · rintro rfl
      exact hreads

end Record

namespace Plain

/-- A record with keys that need quotes and a string that looks like a member. -/
def markedProps : Record := ⟨[("title", .string "a\", b: \\"), ("b c", .number (.natural 10)),
  ("", .record [("\x7d", .record []), ("$on", .boolean true), ("to", .number (.negative (-1)))])]⟩

def turnedProps : Record := ⟨markedProps.entries.reverse⟩

theorem markedProps_reads_back :
    (∀ m n : JsonNumber, m.IsInteger → n.IsInteger → m.text = n.text → m = n) ∧
    Value.AllData JsonNumber.IsInteger markedProps.entries ∧
    Value.AllData JsonNumber.IsInteger turnedProps.entries ∧
    (markedProps.object.code = turnedProps.object.code → markedProps = turnedProps) ∧
    ∀ v, ReadsValue JsonNumber.IsInteger v markedProps.object.code.toList [] ↔
      v = .record markedProps.entries := by
  have hmarked : Value.AllData JsonNumber.IsInteger markedProps.entries := by
    simp [markedProps, Value.AllData, Value.IsData, JsonNumber.IsInteger]
  have hturned : Value.AllData JsonNumber.IsInteger turnedProps.entries := by
    simp [turnedProps, markedProps, Value.AllData, Value.IsData, JsonNumber.IsInteger]
  exact ⟨JsonNumber.text_inj, hmarked, hturned,
    Record.object_reads_back JsonNumber.text_inj hmarked hturned⟩

example : markedProps.object.code = "\x7b title: \"a\\\", b: \\\\\", \"b c\": 10, \"\": "
    ++ "\x7b \"\x7d\": \x7b\x7d, $on: true, to: -1 \x7d \x7d" := by rfl

end Plain

end NavTree
