import NavTree.Text.Ranges

/-! # Replacements in generated text

The two replacements of patterns: the component name in file templates, and the blank line before
nested `params` in routes. Matches are taken from the left and do not overlap.
-/
namespace NavTree

/-- The rest of the text behind `lead`, if the text starts with it. -/
def dropLead? : List Char → List Char → Option (List Char)
  | [], cs => some cs
  | _ :: _, [] => none
  | l :: ls, c :: cs => if l = c then dropLead? ls cs else none

theorem length_dropLead? {lead cs rest : List Char} (h : dropLead? lead cs = some rest) :
    rest.length + lead.length = cs.length := by
  induction lead generalizing cs with
  | nil => simp only [dropLead?, Option.some.injEq] at h; simp [h]
  | cons l ls ih =>
    cases cs with
    | nil => simp [dropLead?] at h
    | cons c cs =>
      simp only [dropLead?] at h
      split at h
      · have := ih h
        simp only [List.length_cons]
        omega
      · simp at h

/-- What stands behind a placeholder for the component name, if the text starts with one: the name
between double braces, with blanks around it or none. -/
def dropPlaceholder? (cs : List Char) : Option (List Char) := do
  let inside ← dropLead? "\x7b\x7b".toList cs
  let name ← dropLead? "component.name".toList (inside.dropWhile isBlank)
  dropLead? "\x7d\x7d".toList (name.dropWhile isBlank)

theorem length_dropPlaceholder? {cs rest : List Char} (h : dropPlaceholder? cs = some rest) :
    rest.length < cs.length := by
  simp only [dropPlaceholder?, Option.bind_eq_bind, Option.bind_eq_some_iff] at h
  obtain ⟨inside, hi, name, hn, hr⟩ := h
  have h₁ := length_dropLead? hi
  have h₂ := length_dropLead? hn
  have h₃ := length_dropLead? hr
  have h₄ := (List.dropWhile_sublist isBlank (l := inside)).length_le
  have h₅ := (List.dropWhile_sublist isBlank (l := name)).length_le
  simp only [String.reduceToList, List.length_cons, List.length_nil] at h₁ h₂ h₃
  omega

/-- Replaces every placeholder by the component name. -/
def fillPlaceholders (name : List Char) : List Char → List Char
  | [] => []
  | c :: cs =>
    match _h : dropPlaceholder? (c :: cs) with
    | some rest => name ++ fillPlaceholders name rest
    | none => c :: fillPlaceholders name cs
termination_by cs => cs.length
decreasing_by
  · exact length_dropPlaceholder? ‹_›
  · simp

def interpolate (pattern name : String) : String :=
  String.ofList (fillPlaceholders name.toList pattern.toList)

/-- The match of a nested `params` object behind an empty line: blanks, at least one, then
`params: {`. Gives the matched text and what follows it. -/
def nestedParams? (cs : List Char) : Option (List Char × List Char) :=
  let blanks := cs.takeWhile isBlank
  let opening := "params: \x7b".toList
  if blanks.isEmpty then none
  else (dropLead? opening (cs.dropWhile isBlank)).map fun rest => (blanks ++ opening, rest)

theorem length_nestedParams? {cs matched rest : List Char}
    (h : nestedParams? cs = some (matched, rest)) : rest.length < cs.length := by
  rw [nestedParams?] at h
  split at h
  · cases h
  · obtain ⟨rest', hr, h'⟩ := Option.map_eq_some_iff.1 h
    cases h'
    have h₁ := length_dropLead? hr
    have h₂ := (List.dropWhile_sublist isBlank (l := cs)).length_le
    simp only [String.reduceToList, List.length_cons, List.length_nil] at h₁
    omega

/-- Drops the first of two line breaks in front of nested `params`. -/
def joinParams : List Char → List Char
  | [] => []
  | [c] => [c]
  | c :: d :: cs =>
    if c = '\n' ∧ d = '\n' then
      match _h : nestedParams? cs with
      | some (matched, rest) => '\n' :: (matched ++ joinParams rest)
      | none => c :: joinParams (d :: cs)
    else c :: joinParams (d :: cs)
termination_by cs => cs.length
decreasing_by
  · have := length_nestedParams? ‹_›
    simp only [List.length_cons]
    omega
  all_goals simp

def joinNestedParams (s : String) : String := String.ofList (joinParams s.toList)

end NavTree
