import NavTree.Json.Basic

/-! # Texts of numbers

The text of a number is made of digits, signs, points and the letter of an exponent, and is not
empty.
-/
namespace NavTree

/-- The characters of JSON numbers. -/
def isNumberChar (c : Char) : Bool :=
  c.isDigit || c == '-' || c == '+' || c == '.' || c == 'e' || c == 'E'

def Numeric (s : String) : Prop := ∀ c ∈ s.toList, isNumberChar c = true

instance (s : String) : Decidable (Numeric s) :=
  decidable_of_iff (s.toList.all isNumberChar = true) List.all_eq_true

namespace Numeric

variable {s t : String}

theorem append (hs : Numeric s) (ht : Numeric t) : Numeric (s ++ t) := by
  intro c hc
  rw [String.toList_append, List.mem_append] at hc
  exact hc.elim (hs c) (ht c)

theorem ite {p : Prop} [Decidable p] (hs : Numeric s) (ht : Numeric t) :
    Numeric (if p then s else t) := by
  split
  · exact hs
  · exact ht

theorem of_nat (n : Nat) : Numeric (toString n) := by
  intro c hc
  have hdigit : c ∈ Nat.toDigits 10 n := Nat.toList_repr ▸ hc
  rw [isNumberChar, Nat.isDigit_of_mem_toDigits (by decide) (by decide) hdigit]
  rfl

theorem zeros (n : Nat) : Numeric (zeros n) := by
  intro c hc
  rw [NavTree.zeros, String.toList_ofList] at hc
  rw [List.eq_of_mem_replicate hc]
  rfl

theorem splitEnd (hs : Numeric s) (n : Nat) :
    Numeric (splitEnd s n).1 ∧ Numeric (splitEnd s n).2 := by
  constructor
  · intro c hc
    rw [NavTree.splitEnd, String.toList_ofList] at hc
    exact hs c (List.mem_of_mem_take hc)
  · intro c hc
    rw [NavTree.splitEnd, String.toList_ofList] at hc
    exact hs c (List.mem_of_mem_drop hc)

end Numeric

theorem Decimal.plain_numeric (d : Decimal) : Numeric d.plain := by
  have hdigits : Numeric (toString d.digits) := .of_nat d.digits
  have hparts := hdigits.splitEnd (-d.exponent).toNat
  unfold plain
  refine .ite (hdigits.append (.zeros _)) (.ite ?_ ?_)
  · exact (hparts.1.append (by decide)).append hparts.2
  · exact (Numeric.append (by decide) (.zeros _)).append hdigits

theorem Decimal.scientific_numeric (d : Decimal) : Numeric d.scientific := by
  have hparts := (Numeric.of_nat d.digits).splitEnd ((toString d.digits).length - 1)
  unfold scientific
  refine Numeric.append (.append (.append (hparts.1.append ?_) ?_) ?_) (.of_nat _)
  · exact .ite (by decide) (.append (by decide) hparts.2)
  · decide
  · exact .ite (by decide) (by decide)

theorem Double.text_numeric (x : Double) : Numeric x.text := by
  have hsign : Numeric (if x.negative then "-" else "") := .ite (by decide) (by decide)
  unfold text
  refine .ite (hsign.append (by decide)) (.ite ?_ ?_)
  · exact (hsign.append x.shortest.plain_numeric).append (.ite (by decide) (by decide))
  · exact hsign.append x.shortest.scientific_numeric

theorem JsonNumber.text_numeric (n : JsonNumber) : Numeric n.text := by
  cases n with
  | natural n => exact .of_nat n
  | negative n =>
    cases n with
    | ofNat m => exact .of_nat m
    | negSucc m => exact Numeric.append (by decide) (.of_nat (m + 1))
  | double x => exact x.text_numeric

theorem Decimal.plain_ne_empty (d : Decimal) : d.plain ≠ "" := by
  unfold plain
  split
  · simp [String.append_eq_empty_iff]
  · split
    · simp [String.append_eq_empty_iff]
    · simp [String.append_eq_empty_iff]

theorem Decimal.scientific_ne_empty (d : Decimal) : d.scientific ≠ "" := by
  simp [scientific, String.append_eq_empty_iff]

theorem JsonNumber.text_ne_empty (n : JsonNumber) : n.text ≠ "" := by
  cases n with
  | natural n => exact Nat.repr_ne_empty
  | negative n =>
    cases n with
    | ofNat m => exact Nat.repr_ne_empty
    | negSucc m =>
      show "-" ++ toString (m + 1) ≠ ""
      simp [String.append_eq_empty_iff]
  | double x =>
    have hplain : x.shortest.plain ≠ "" := x.shortest.plain_ne_empty
    have hscientific : x.shortest.scientific ≠ "" := x.shortest.scientific_ne_empty
    unfold text Double.text
    dsimp only
    split
    · simp [String.append_eq_empty_iff]
    · split
      · simp [String.append_eq_empty_iff, hplain]
      · simp [String.append_eq_empty_iff, hscientific]

theorem natText_inj {a b : Nat} (h : toString a = toString b) : a = b := by
  have hdigits : Nat.toDigits 10 a = Nat.toDigits 10 b := by
    rw [← Nat.toList_repr, ← Nat.toList_repr]
    exact congrArg String.toList h
  rw [← Nat.ofDigitChars_ten_toDigits (n := a), hdigits, Nat.ofDigitChars_ten_toDigits]

theorem natText_ne_minus (a b : Nat) : toString a ≠ "-" ++ toString b := by
  intro h
  have hminus : '-' ∈ Nat.toDigits 10 a := by
    rw [← Nat.toList_repr]
    change '-' ∈ (toString a).toList
    rw [h, String.toList_append]
    exact List.mem_append_left _ List.mem_cons_self
  exact absurd (Nat.isDigit_of_mem_toDigits (by decide) (by decide) hminus) (by decide)

namespace JsonNumber

/-- Integers as they are decoded, where only the negative ones are kept apart. -/
def IsInteger : JsonNumber → Prop
  | .natural _ => True
  | .negative n => n < 0
  | .double _ => False

theorem text_inj (m n : JsonNumber) (hm : m.IsInteger) (hn : n.IsInteger)
    (h : m.text = n.text) : m = n := by
  rcases m with a | ⟨a | a⟩ | _
  · rcases n with b | ⟨b | b⟩ | _
    · exact congrArg _ (natText_inj h)
    · exact absurd hn (by simp [IsInteger])
    · exact absurd h (natText_ne_minus a (b + 1))
    · exact hn.elim
  · exact absurd hm (by simp [IsInteger])
  · rcases n with b | ⟨b | b⟩ | _
    · exact absurd h.symm (natText_ne_minus b (a + 1))
    · exact absurd hn (by simp [IsInteger])
    · have hsigned : "-" ++ toString (a + 1) = "-" ++ toString (b + 1) := h
      have hab : toString (a + 1) = toString (b + 1) := (String.append_right_inj "-").mp hsigned
      rw [Nat.succ.inj (natText_inj hab)]
    · exact hn.elim
  · exact hm.elim

end JsonNumber

end NavTree
