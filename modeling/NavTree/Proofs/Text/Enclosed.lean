import NavTree.Proofs.Text.Literal
import NavTree.Proofs.Text.Quoted

/-! # Quoted literals are closed and reversible

The inside of a literal is the text with one character after another replaced, the backslash first.
It stays on one line, no quote ends it early, and its escapes mean the text again.
-/
namespace NavTree

variable {mark : QuoteMark} {c l : Char} {cs ds before after : List Char}

/-- Every occurrence of a character is replaced by a backslash and a letter. -/
def replaceAll (cs : List Char) (escape : Char × Char) : List Char :=
  cs.flatMap fun c => if c = escape.1 then ['\\', escape.2] else [c]

/-- The replacements for a kind of quote, each made in what the earlier ones have left. -/
def replacements : QuoteMark → List (Char × Char)
  | .double => [('\\', '\\'), ('"', '"'), ('\n', 'n'), ('\r', 'r'), ('\t', 't')]
  | .single => [('\\', '\\'), ('"', '"'), ('\n', 'n'), ('\r', 'r'), ('\t', 't'), ('\'', '\'')]

def replaced (mark : QuoteMark) (cs : List Char) : List Char :=
  (replacements mark).foldl replaceAll cs

theorem escapeLetter?_eq_lookup (mark : QuoteMark) (c : Char) :
    escapeLetter? mark c = (replacements mark).lookup c := by
  unfold escapeLetter?
  cases mark <;> simp only [replacements, List.lookup_cons, List.lookup_nil] <;> grind

theorem foldl_replaceAll_append (escapes : List (Char × Char)) (cs ds : List Char) :
    escapes.foldl replaceAll (cs ++ ds) =
      escapes.foldl replaceAll cs ++ escapes.foldl replaceAll ds := by
  induction escapes generalizing cs ds with
  | nil => rfl
  | cons escape escapes ih =>
    have hone : replaceAll (cs ++ ds) escape = replaceAll cs escape ++ replaceAll ds escape :=
      List.flatMap_append
    rw [List.foldl_cons, hone, ih, List.foldl_cons, List.foldl_cons]

theorem foldl_replaceAll_of_free {escapes : List (Char × Char)} (h : ∀ e ∈ escapes, c ≠ e.1) :
    escapes.foldl replaceAll [c] = [c] := by
  induction escapes with
  | nil => rfl
  | cons escape escapes ih =>
    obtain ⟨hc, hrest⟩ := List.forall_mem_cons.mp h
    have hone : replaceAll [c] escape = [c] := by simp [replaceAll, hc]
    rw [List.foldl_cons, hone, ih hrest]

/-- No replacement touches what an earlier one has put there, as the backslash is the first. -/
theorem replaced_of_escape (h : escapeLetter? mark c = some l) : replaced mark [c] = ['\\', l] := by
  have hmem := mem_escapes h
  simp only [List.mem_cons, List.not_mem_nil, or_false, Prod.mk.injEq] at hmem
  cases mark <;> rcases hmem with
    ⟨rfl, rfl⟩ | ⟨rfl, rfl⟩ | ⟨rfl, rfl⟩ | ⟨rfl, rfl⟩ | ⟨rfl, rfl⟩ | ⟨rfl, rfl⟩
  all_goals first | rfl | cases h

theorem replaced_of_plain (h : escapeLetter? mark c = none) : replaced mark [c] = [c] := by
  rw [escapeLetter?_eq_lookup, List.lookup_eq_none_iff] at h
  exact foldl_replaceAll_of_free fun e he => by simpa using h e he

theorem escapeText_eq_replaced (mark : QuoteMark) (cs : List Char) :
    escapeText mark cs = replaced mark cs := by
  induction cs with
  | nil => cases mark <;> rfl
  | cons c cs ih =>
    have hsplit : replaced mark (c :: cs) = replaced mark [c] ++ replaced mark cs :=
      foldl_replaceAll_append _ [c] cs
    rw [hsplit, ← ih, escapeText]
    cases hc : escapeLetter? mark c with
    | some l => rw [replaced_of_escape hc]; rfl
    | none => rw [replaced_of_plain hc]; rfl

/-- The number of backslashes at the end. -/
def slashes (cs : List Char) : Nat := (cs.reverse.takeWhile (· = '\\')).length

theorem slashes_append (h : slashes cs % 2 = 0) : slashes (cs ++ ds) % 2 = slashes ds % 2 := by
  have hsplit : slashes (cs ++ ds) = slashes ds ∨ slashes (cs ++ ds) = slashes ds + slashes cs := by
    unfold slashes
    rw [List.reverse_append, List.takeWhile_append]
    split
    next hall =>
      right
      rw [List.length_append, hall]
    next => exact .inl rfl
  omega

theorem slashes_escape (h : escapeLetter? mark c = some l) : slashes ['\\', l] % 2 = 0 := by
  by_cases hl : l = '\\'
  · subst hl
    rfl
  · simp [slashes, hl]

theorem slashes_plain (h : escapeLetter? mark c = none) : slashes [c] % 2 = 0 := by
  simp [slashes, (not_special_of_escapeLetter? h).1]

/-- The backslashes of a literal come in pairs, up to those that stand in front of a letter. -/
theorem slashes_escapeText (mark : QuoteMark) (cs : List Char) :
    slashes (escapeText mark cs) % 2 = 0 := by
  induction cs with
  | nil => rfl
  | cons c cs ih =>
    rw [escapeText]
    cases hc : escapeLetter? mark c with
    | some l => exact (slashes_append (slashes_escape hc)).trans ih
    | none => exact (slashes_append (slashes_plain hc)).trans ih

theorem slashes_before_quote (h : escapeText mark cs = before ++ mark.char :: after) :
    slashes before % 2 = 1 := by
  have hslash : mark.char ≠ '\\' := by cases mark <;> decide
  induction cs generalizing before with
  | nil => simp [escapeText] at h
  | cons c cs ih =>
    rw [escapeText] at h
    cases hc : escapeLetter? mark c with
    | some l =>
      simp only [hc] at h
      rcases before with _ | ⟨b, _ | ⟨b', before⟩⟩
      · exact absurd (List.cons.inj h).1.symm hslash
      · obtain ⟨rfl, -⟩ := List.cons.inj h
        rfl
      · simp only [List.cons_append, List.cons.injEq] at h
        obtain ⟨rfl, rfl, h⟩ := h
        exact (slashes_append (slashes_escape hc)).trans (ih h)
    | none =>
      simp only [hc] at h
      obtain ⟨-, hmark, -⟩ := not_special_of_escapeLetter? hc
      cases before with
      | nil => exact absurd (List.cons.inj h).1 hmark
      | cons b before =>
        simp only [List.cons_append, List.cons.injEq] at h
        obtain ⟨rfl, h⟩ := h
        exact (slashes_append (slashes_plain hc)).trans (ih h)

theorem no_line_break (hc : c ∈ escapeText mark cs) : c ≠ '\n' ∧ c ≠ '\r' := by
  induction cs with
  | nil => simp [escapeText] at hc
  | cons d cs ih =>
    rw [escapeText] at hc
    cases hd : escapeLetter? mark d with
    | some l =>
      simp only [hd, List.mem_cons] at hc
      obtain rfl | rfl | hc := hc
      · decide
      · have hmem := mem_escapes hd
        simp only [List.mem_cons, List.not_mem_nil, or_false, Prod.mk.injEq] at hmem
        rcases hmem with ⟨-, rfl⟩ | ⟨-, rfl⟩ | ⟨-, rfl⟩ | ⟨-, rfl⟩ | ⟨-, rfl⟩ | ⟨-, rfl⟩
        all_goals decide
      · exact ih hc
    | none =>
      simp only [hd, List.mem_cons] at hc
      obtain rfl | hc := hc
      · exact (not_special_of_escapeLetter? hd).2.2
      · exact ih hc

/-- A way to write texts as string literals with a quote, such that each can be read back. A quote
is escaped if an odd number of backslashes stands right in front of it. -/
structure Encloses (mark : QuoteMark) (literal : String → String) : Prop where
  text : ∀ s : String, (literal s).toList = mark.char :: (replaced mark s.toList ++ [mark.char])
  one_line : ∀ s : String, ∀ c ∈ replaced mark s.toList, c ≠ '\n' ∧ c ≠ '\r'
  inner_escaped : ∀ (s : String) (before after : List Char),
    replaced mark s.toList = before ++ mark.char :: after → slashes before % 2 = 1
  last_unescaped : ∀ s : String, slashes (replaced mark s.toList) % 2 = 0
  reads : ∀ s : String, Script.unescaped? (replaced mark s.toList).length (replaced mark s.toList) =
    some s.toList
  reads_literal : ∀ (s : String) (rest : List Char),
    Script.string? ((literal s).toList ++ rest) = some (s, rest)
  injective : Function.Injective literal

/-- Both kinds of literals close at their last character and mean the text that they are made of. -/
theorem literals_enclose : Encloses .double stringLiteral ∧ Encloses .single moduleLiteral := by
  have hquoted : ∀ mark, Encloses mark (quoted mark) := by
    intro mark
    refine ⟨fun s => ?_, fun s c hc => ?_, fun s before after h => ?_, fun s => ?_, fun s => ?_,
      string?_quoted mark, fun _ _ => quoted_inj⟩
    all_goals rw [← escapeText_eq_replaced] at *
    · exact String.toList_ofList
    · exact no_line_break hc
    · exact slashes_before_quote h
    · exact slashes_escapeText mark s.toList
    · exact unescaped?_escapeText (Nat.le_refl _)
  exact ⟨hquoted .double, hquoted .single⟩

end NavTree
