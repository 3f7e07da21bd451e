import NavTree.Text.Literal

/-! # Quoted literals are faithful

Escaping loses nothing: texts with the same literal are equal.
-/
namespace NavTree

variable {mark : QuoteMark}

theorem escapeLetter?_inj {c d l : Char} (hc : escapeLetter? mark c = some l)
    (hd : escapeLetter? mark d = some l) : c = d := by
  unfold escapeLetter? at hc hd
  split at hc <;> split at hd <;> grind

theorem escapeText_inj {cs ds : List Char} (h : escapeText mark cs = escapeText mark ds) :
    cs = ds := by
  have hslash : escapeLetter? mark '\\' = some '\\' := rfl
  induction cs generalizing ds with
  | nil =>
    cases ds with
    | nil => rfl
    | cons d ds => cases hd : escapeLetter? mark d <;> simp [escapeText, hd] at h
  | cons c cs ih =>
    cases ds with
    | nil => cases hc : escapeLetter? mark c <;> simp [escapeText, hc] at h
    | cons d ds =>
      rw [escapeText, escapeText] at h
      cases hc : escapeLetter? mark c with
      | none =>
        cases hd : escapeLetter? mark d with
        | none =>
          simp only [hc, hd, List.cons.injEq] at h
          rw [h.1, ih h.2]
        | some l =>
          simp only [hc, hd, List.cons.injEq] at h
          rw [h.1, hslash] at hc
          cases hc
      | some l =>
        cases hd : escapeLetter? mark d with
        | none =>
          simp only [hc, hd, List.cons.injEq] at h
          rw [← h.1, hslash] at hd
          cases hd
        | some l' =>
          simp only [hc, hd, List.cons.injEq, true_and] at h
          rw [← h.1] at hd
          rw [escapeLetter?_inj hc hd, ih h.2]

theorem quoted_inj {s s' : String} (h : quoted mark s = quoted mark s') : s = s' := by
  have hl := String.ofList_injective h
  rw [List.cons.injEq] at hl
  exact String.toList_injective (escapeText_inj (List.append_cancel_right hl.2))

theorem moduleLiteral_inj {s s' : String} : moduleLiteral s = moduleLiteral s' ↔ s = s' :=
  ⟨quoted_inj, congrArg moduleLiteral⟩

end NavTree
