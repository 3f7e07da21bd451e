import NavTree.Script.Literal
import NavTree.Text.Literal

/-! # Reading quoted literals

A quoted literal ends at its last character, and reading it with the escapes of scripts gives the
text back. What is read of a literal does not depend on what stands behind it.
-/
namespace NavTree

open Script (quotedText? unescaped? escaped? string?)

variable {mark : QuoteMark} {c l : Char}

/-- The characters that have an escape, with its letter. -/
theorem mem_escapes (h : escapeLetter? mark c = some l) : (c, l) ∈ [('\\', '\\'), ('"', '"'),
    ('\n', 'n'), ('\r', 'r'), ('\t', 't'), ('\'', '\'')] := by
  unfold escapeLetter? at h
  grind

/-- The letter behind a backslash, read as an escape, is the character. -/
theorem escaped?_letter (h : escapeLetter? mark c = some l) (rest : List Char) :
    l ≠ '\r' ∧ escaped? (l :: rest) = some ([c], rest) := by
  have hmem := mem_escapes h
  simp only [List.mem_cons, List.not_mem_nil, or_false, Prod.mk.injEq] at hmem
  rcases hmem with ⟨rfl, rfl⟩ | ⟨rfl, rfl⟩ | ⟨rfl, rfl⟩ | ⟨rfl, rfl⟩ | ⟨rfl, rfl⟩ | ⟨rfl, rfl⟩
  all_goals exact ⟨by decide, rfl⟩

/-- A character without an escape neither starts one nor ends the literal. -/
theorem not_special_of_escapeLetter? (h : escapeLetter? mark c = none) :
    c ≠ '\\' ∧ c ≠ mark.char ∧ c ≠ '\n' ∧ c ≠ '\r' := by
  unfold escapeLetter? at h
  cases mark <;> grind [QuoteMark.char]

theorem quotedText?_escapeText (mark : QuoteMark) (cs rest : List Char) :
    quotedText? mark.char (escapeText mark cs ++ mark.char :: rest) =
      some (escapeText mark cs, rest) := by
  induction cs with
  | nil => cases mark <;> rfl
  | cons c cs ih =>
    rw [escapeText]
    cases hc : escapeLetter? mark c with
    | some l =>
      obtain ⟨hl, -⟩ := escaped?_letter hc []
      simp [quotedText?, hl, ih]
    | none =>
      obtain ⟨hslash, hmark, hn, hr⟩ := not_special_of_escapeLetter? hc
      simp [quotedText?, hslash, hmark, hn, hr, ih]

theorem unescaped?_escapeText {n : Nat} {cs : List Char} (h : (escapeText mark cs).length ≤ n) :
    unescaped? n (escapeText mark cs) = some cs := by
  induction cs generalizing n with
  | nil => cases n <;> rfl
  | cons c cs ih =>
    rw [escapeText] at h ⊢
    cases hc : escapeLetter? mark c with
    | some l =>
      simp only [hc, List.length_cons] at h
      obtain ⟨m, rfl⟩ : ∃ m, n = m + 1 := ⟨n - 1, by omega⟩
      obtain ⟨-, hl⟩ := escaped?_letter hc (escapeText mark cs)
      simp [unescaped?, hl, ih (n := m) (by omega)]
    | none =>
      simp only [hc, List.length_cons] at h
      obtain ⟨m, rfl⟩ : ∃ m, n = m + 1 := ⟨n - 1, by omega⟩
      obtain ⟨hslash, -⟩ := not_special_of_escapeLetter? hc
      simp [unescaped?, hslash, ih (n := m) (by omega)]

theorem head?_stringLiteral (s : String) (rest : List Char) :
    ((stringLiteral s).toList ++ rest).head? = some '"' := by
  simp [stringLiteral, quoted, QuoteMark.char]

theorem string?_quoted (mark : QuoteMark) (s : String) (rest : List Char) :
    string? ((quoted mark s).toList ++ rest) = some (s, rest) := by
  have hmark : mark.char = '"' ∨ mark.char = '\'' := by cases mark <;> decide
  have hquoted : (quoted mark s).toList ++ rest =
      mark.char :: (escapeText mark s.toList ++ mark.char :: rest) := by
    simp [quoted]
  rw [hquoted, string?, if_pos hmark, quotedText?_escapeText]
  simp [unescaped?_escapeText]

end NavTree
