import NavTree.Code.Splice
import NavTree.Proofs.Number.Text
import NavTree.Script.Literal

/-! # Object literals

The grammar of object literals with bare or double-quoted keys, whose values are strings, numbers,
booleans and object literals again. It relates what is read, the characters that a reader has in
front of it and those it leaves. Blank space and comments may stand between tokens, and a comma may
stand behind the last member. Names and numbers run as long as they can. No text has two readings,
wherever the reader stops.
-/
namespace NavTree.Script

/-- What is left behind blank space and comments. -/
def afterGap? (cs : List Char) : Option (List Char) :=
  (skipGap .blank ⟨false, false, []⟩ cs).map (·.2)

/-- What comes next does not continue a run of the characters. -/
def Ends (inside : Char → Bool) (rest : List Char) : Prop := ∀ c ∈ rest.head?, inside c = false

def IsName (cs : List Char) : Prop :=
  (∃ c ∈ cs.head?, isNameStart c = true) ∧ ∀ c ∈ cs, isNameRest c = true

inductive ReadsKey : String → List Char → List Char → Prop
  | bare {name : String} {cs rest : List Char} : cs = name.toList ++ rest → IsName name.toList →
      Ends isNameRest rest → ReadsKey name cs rest
  | quoted {key : String} {cs rest : List Char} : cs.head? = some '"' →
      string? cs = some (key, rest) → ReadsKey key cs rest

mutual

/-- The value that a literal stands for. A number is one of the known ones, by its text. -/
inductive ReadsValue (known : JsonNumber → Prop) : Value → List Char → List Char → Prop
  | string {s : String} {cs rest : List Char} : cs.head? = some '"' →
      string? cs = some (s, rest) → ReadsValue known (.string s) cs rest
  | number {n : JsonNumber} {cs rest : List Char} : known n → cs = n.text.toList ++ rest →
      Ends isNumberChar rest → ReadsValue known (.number n) cs rest
  | boolean {b : Bool} {cs rest : List Char} : cs = (booleanText b).toList ++ rest →
      Ends isNameRest rest → ReadsValue known (.boolean b) cs rest
  | record {entries : List (String × Value)} {cs cs' rest : List Char} : afterGap? cs = some cs' →
      ReadsMembers known entries cs' rest → ReadsValue known (.record entries) ('{' :: cs) rest

/-- The members up to the closing brace. -/
inductive ReadsMembers (known : JsonNumber → Prop) :
    List (String × Value) → List Char → List Char → Prop
  | close {rest : List Char} : ReadsMembers known [] ('}' :: rest) rest
  | member {key : String} {v : Value} {entries : List (String × Value)}
      {cs colon gap value gap' tail rest : List Char} :
      ReadsKey key cs colon → afterGap? colon = some (':' :: gap) → afterGap? gap = some value →
      ReadsValue known v value gap' → afterGap? gap' = some tail →
      ReadsTail known entries tail rest → ReadsMembers known ((key, v) :: entries) cs rest

/-- What follows a member. -/
inductive ReadsTail (known : JsonNumber → Prop) :
    List (String × Value) → List Char → List Char → Prop
  | close {rest : List Char} : ReadsTail known [] ('}' :: rest) rest
  | comma {entries : List (String × Value)} {gap cs rest : List Char} : afterGap? gap = some cs →
      ReadsMembers known entries cs rest → ReadsTail known entries (',' :: gap) rest

end

section Runs

variable {inside : Char → Bool} {run run' rest rest' : List Char}

theorem Ends.takeWhile_append (h : ∀ c ∈ run, inside c = true) (hrest : Ends inside rest) :
    (run ++ rest).takeWhile inside = run := by
  have hstop : rest.takeWhile inside = [] := by
    cases rest with
    | nil => rfl
    | cons c cs => rw [List.takeWhile_cons, hrest c rfl]; rfl
  rw [List.takeWhile_append_of_pos h, hstop, List.append_nil]

/-- Two runs that both end where the characters of their kind do are one. -/
theorem Ends.unique (h : ∀ c ∈ run, inside c = true) (h' : ∀ c ∈ run', inside c = true)
    (hrest : Ends inside rest) (hrest' : Ends inside rest') (heq : run ++ rest = run' ++ rest') :
    run = run' ∧ rest = rest' := by
  have hrun : run = run' := by
    rw [← hrest.takeWhile_append h, heq, hrest'.takeWhile_append h']
  rw [hrun] at heq
  exact ⟨hrun, List.append_cancel_left heq⟩

end Runs

/-- ASCII characters that neither stand in a gap nor start a comment. -/
def IsSolid (c : Char) : Prop := 32 < c.toNat ∧ c.toNat < 127 ∧ c ≠ '/'

instance (c : Char) : Decidable (IsSolid c) :=
  inferInstanceAs (Decidable (32 < c.toNat ∧ c.toNat < 127 ∧ c ≠ '/'))

theorem afterGap?_space (cs : List Char) : afterGap? (' ' :: cs) = afterGap? cs := by
  have hline : isLineEnd ' ' = false := by decide
  have hgap : isGap ' ' = true := by decide
  simp [afterGap?, skipGap, hline, hgap]

theorem afterGap?_solid {c : Char} {cs : List Char} (h : IsSolid c) :
    afterGap? (c :: cs) = some (c :: cs) := by
  obtain ⟨hlow, hhigh, hslash⟩ := h
  have hblank : isBlank c = false := by
    simp [isBlank, blankRanges, inRanges]
    omega
  have hends : ∀ d : Char, d.toNat ≤ 32 → c ≠ d := by
    rintro d hd rfl
    omega
  have hline : isLineEnd c = false := by
    simp [isLineEnd, hends '\n' (by decide), hends '\r' (by decide)]
    omega
  have hgap : isGap c = false := by
    simp [isGap, hblank]
    omega
  simp [afterGap?, skipGap, hline, hgap, hslash]

theorem afterGap?_head {cs : List Char} (h : ∃ c ∈ cs.head?, IsSolid c) :
    afterGap? cs = some cs := by
  obtain ⟨c, hc, hsolid⟩ := h
  cases cs with
  | nil => cases hc
  | cons d cs => cases hc; exact afterGap?_solid hsolid

theorem isSolid_of_isNumberChar {c : Char} (h : isNumberChar c = true) : IsSolid c := by
  simp only [isNumberChar, Bool.or_eq_true, beq_iff_eq] at h
  rcases h with ((((hdigit | rfl) | rfl) | rfl) | rfl) | rfl
  · rw [Char.isDigit_iff_toNat] at hdigit
    have hzero : '0'.toNat = 48 := rfl
    have hnine : '9'.toNat = 57 := rfl
    refine ⟨by omega, by omega, ?_⟩
    rintro rfl
    exact absurd hdigit.1 (by decide)
  all_goals decide

section Keys

variable {key key' : String} {cs rest rest' : List Char}

theorem IsName.opens {name : List Char} (h : IsName name) (rest : List Char) :
    ∃ c ∈ (name ++ rest).head?, isNameStart c = true := by
  obtain ⟨c, hc, hstart⟩ := h.1
  refine ⟨c, ?_, hstart⟩
  rw [List.head?_append, hc]
  rfl

theorem ReadsKey.opens (h : ReadsKey key cs rest) :
    ∃ c ∈ cs.head?, isNameStart c = true ∨ c = '"' := by
  cases h with
  | bare hcs hname _ =>
    obtain ⟨c, hc, hstart⟩ := hname.opens rest
    exact ⟨c, hcs ▸ hc, .inl hstart⟩
  | quoted hquote _ => exact ⟨'"', hquote, .inr rfl⟩

theorem not_quote_of_isName {name : List Char} (h : IsName name) (hcs : cs = name ++ rest) :
    cs.head? ≠ some '"' := by
  intro hquote
  obtain ⟨c, hc, hstart⟩ := h.opens rest
  rw [← hcs, hquote, Option.mem_some_iff] at hc
  rw [← hc] at hstart
  exact absurd hstart (by decide)

theorem ReadsKey.unique (h : ReadsKey key cs rest) (h' : ReadsKey key' cs rest') :
    key = key' ∧ rest = rest' := by
  cases h with
  | bare hcs hname hend =>
    cases h' with
    | bare hcs' hname' hend' =>
      obtain ⟨hkey, hrest⟩ := Ends.unique hname.2 hname'.2 hend hend' (hcs.symm.trans hcs')
      exact ⟨String.toList_injective hkey, hrest⟩
    | quoted hquote _ => exact absurd hquote (not_quote_of_isName hname hcs)
  | quoted hquote hs =>
    cases h' with
    | bare hcs' hname' _ => exact absurd hquote (not_quote_of_isName hname' hcs')
    | quoted _ hs' =>
      rw [hs] at hs'
      exact Prod.mk.inj (Option.some.inj hs')

end Keys

/-- The constructor of the value whose literal starts with the character. -/
def kindAt (c : Char) : Nat :=
  if isNumberChar c then (Value.number (.natural 0)).ctorIdx
  else if c = '"' then (Value.string "").ctorIdx
  else if c = '{' then (Value.record []).ctorIdx
  else (Value.boolean true).ctorIdx

section Values

variable {known : JsonNumber → Prop} {v v' : Value} {entries entries' : List (String × Value)}
  {cs rest rest' : List Char}

theorem ReadsValue.opens (h : ReadsValue known v cs rest) :
    ∃ c ∈ cs.head?, IsSolid c ∧ v.ctorIdx = kindAt c := by
  cases h with
  | string hquote _ => exact ⟨'"', hquote, by decide, rfl⟩
  | @number n _ _ _ hcs _ =>
    cases htext : n.text.toList with
    | nil => exact absurd (String.toList_eq_nil_iff.mp htext) n.text_ne_empty
    | cons c cs =>
      have hc : isNumberChar c = true := n.text_numeric c (htext ▸ List.mem_cons_self)
      refine ⟨c, by rw [hcs, htext]; rfl, isSolid_of_isNumberChar hc, ?_⟩
      rw [kindAt, if_pos hc]
      rfl
  | @boolean b _ _ hcs _ => cases b <;> exact ⟨_, by rw [hcs]; rfl, by decide, rfl⟩
  | record _ _ => exact ⟨'{', rfl, by decide, rfl⟩

theorem ReadsValue.afterGap? (h : ReadsValue known v cs rest) :
    Script.afterGap? cs = some cs := by
  obtain ⟨c, hc, hsolid, -⟩ := h.opens
  exact afterGap?_head ⟨c, hc, hsolid⟩

theorem ReadsValue.ctorIdx_eq (h : ReadsValue known v cs rest)
    (h' : ReadsValue known v' cs rest') : v.ctorIdx = v'.ctorIdx := by
  obtain ⟨c, hc, -, hv⟩ := h.opens
  obtain ⟨c', hc', -, hv'⟩ := h'.opens
  rw [hv, hv', Option.mem_unique hc hc']

theorem ReadsKey.not_brace {key : String} (h : ReadsKey key ('}' :: cs) rest) : False := by
  obtain ⟨c, hc, hopens⟩ := h.opens
  rw [List.head?_cons, Option.mem_some_iff] at hc
  rw [← hc] at hopens
  exact absurd hopens (by decide)

/-- The rest of an object has one reading if the members behind a comma do. -/
theorem ReadsTail.unique (h : ReadsTail known entries cs rest)
    (h' : ReadsTail known entries' cs rest')
    (hmembers : ∀ {entries' cs rest rest'}, ReadsMembers known entries cs rest →
      ReadsMembers known entries' cs rest' → entries = entries' ∧ rest = rest') :
    entries = entries' ∧ rest = rest' := by
  cases h with
  | close =>
    cases h'
    exact ⟨rfl, rfl⟩
  | comma hgap hms =>
    cases h' with
    | comma hgap' hms' =>
      cases Option.some.inj (hgap.symm.trans hgap')
      exact hmembers hms hms'

mutual

theorem ReadsValue.unique (hknown : ∀ m n, known m → known n → m.text = n.text → m = n) :
    ∀ {v v' : Value} {cs rest rest' : List Char}, ReadsValue known v cs rest →
      ReadsValue known v' cs rest' → v = v' ∧ rest = rest'
  | .string s, v', cs, rest, rest', h, h' => by
    -- The first character leaves only readings of one kind to be compared.
    have hkind := h.ctorIdx_eq h'
    cases h with
    | string _ hs =>
      cases h' with
      | string _ hs' =>
        cases Option.some.inj (hs.symm.trans hs')
        exact ⟨rfl, rfl⟩
      | _ => cases hkind
  | .number n, v', cs, rest, rest', h, h' => by
    have hkind := h.ctorIdx_eq h'
    cases h with
    | number hn hcs hend =>
      cases h' with
      | @number n' _ _ hn' hcs' hend' =>
        obtain ⟨htext, hrest⟩ :=
          Ends.unique n.text_numeric n'.text_numeric hend hend' (hcs.symm.trans hcs')
        exact ⟨congrArg _ (hknown n n' hn hn' (String.toList_injective htext)), hrest⟩
      | _ => cases hkind
  | .boolean b, v', cs, rest, rest', h, h' => by
    have hkind := h.ctorIdx_eq h'
    cases h with
    | boolean hcs _ =>
      cases h' with
      | @boolean b' _ _ hcs' _ =>
        rw [hcs] at hcs'
        cases b <;> cases b' <;> simp [booleanText] at hcs' ⊢
        all_goals exact hcs'
      | _ => cases hkind
  | .record entries, v', cs, rest, rest', h, h' => by
    have hkind := h.ctorIdx_eq h'
    cases h with
    | record hgap hms =>
      cases h' with
      | record hgap' hms' =>
        cases Option.some.inj (hgap.symm.trans hgap')
        obtain ⟨hentries, hrest⟩ := ReadsMembers.unique hknown hms hms'
        exact ⟨congrArg _ hentries, hrest⟩
      | _ => cases hkind
  | .null, _, _, _, _, h, _ | .list _, _, _, _, _, h, _ | .expression _, _, _, _, _, h, _
  | .code _, _, _, _, _, h, _ => by cases h

theorem ReadsMembers.unique (hknown : ∀ m n, known m → known n → m.text = n.text → m = n) :
    ∀ {entries entries' : List (String × Value)} {cs rest rest' : List Char},
      ReadsMembers known entries cs rest → ReadsMembers known entries' cs rest' →
        entries = entries' ∧ rest = rest'
  | [], entries', cs, rest, rest', h, h' => by
    cases h
    cases h' with
    | close => exact ⟨rfl, rfl⟩
    | member hkey => exact hkey.not_brace.elim
  | (key, v) :: entries, entries', cs, rest, rest', h, h' => by
    cases h with
    | member hkey hcolon hgap hv hafter htail =>
      cases h' with
      | close => exact hkey.not_brace.elim
      | member hkey' hcolon' hgap' hv' hafter' htail' =>
        -- From the key on, both readings go through the same rests.
        obtain ⟨rfl, rfl⟩ := hkey.unique hkey'
        cases Option.some.inj (hcolon.symm.trans hcolon')
        cases Option.some.inj (hgap.symm.trans hgap')
        obtain ⟨rfl, rfl⟩ := ReadsValue.unique hknown hv hv'
        cases Option.some.inj (hafter.symm.trans hafter')
        obtain ⟨rfl, rfl⟩ := htail.unique htail' (ReadsMembers.unique hknown)
        exact ⟨rfl, rfl⟩

end

end Values

end NavTree.Script
