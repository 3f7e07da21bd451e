import Mathlib.Data.List.DropRight
import NavTree.Project.Install

/-! # Parts of paths

A path counts through its steps, the parts that move. The text operations are described by what
they do to the steps: the parent of a path drops the last one, joining appends one, and the
temporary path of a file ends in a name next to it.
-/
namespace NavTree.Path

theorem pieces_ne_nil (cs : List Char) : pieces cs ≠ [] := by
  cases cs with
  | nil => simp [pieces]
  | cons c cs =>
    rw [pieces]
    split
    · simp
    · split <;> simp

theorem pieces_slash (cs : List Char) : pieces ('/' :: cs) = [] :: pieces cs := by
  rw [pieces, if_pos rfl]

theorem pieces_cons {c : Char} (hc : c ≠ '/') {cs p : List Char} {ps : List (List Char)}
    (h : pieces cs = p :: ps) : pieces (c :: cs) = (c :: p) :: ps := by
  rw [pieces, if_neg hc, h]

theorem pieces_of_no_slash {cs : List Char} (h : '/' ∉ cs) : pieces cs = [cs] := by
  induction cs with
  | nil => rfl
  | cons c cs ih =>
    rw [List.mem_cons, not_or] at h
    exact pieces_cons (Ne.symm h.1) (ih h.2)

theorem pieces_append_slash (cs ds : List Char) :
    pieces (cs ++ '/' :: ds) = pieces cs ++ pieces ds := by
  induction cs with
  | nil => exact pieces_slash ds
  | cons c cs ih =>
    by_cases hc : c = '/'
    · subst hc
      rw [List.cons_append, pieces_slash, pieces_slash, ih, List.cons_append]
    · cases h : pieces cs with
      | nil => exact absurd h (pieces_ne_nil cs)
      | cons p ps =>
        rw [h, List.cons_append] at ih
        rw [List.cons_append, pieces_cons hc h, pieces_cons hc ih, List.cons_append]

theorem no_slash_of_mem_pieces {cs p : List Char} (hp : p ∈ pieces cs) : '/' ∉ p := by
  induction cs generalizing p with
  | nil =>
    obtain rfl : p = [] := by simpa [pieces] using hp
    simp
  | cons c cs ih =>
    by_cases hc : c = '/'
    · subst hc
      rw [pieces_slash] at hp
      rcases List.mem_cons.mp hp with rfl | hp
      · simp
      · exact ih hp
    · cases h : pieces cs with
      | nil => exact absurd h (pieces_ne_nil cs)
      | cons q qs =>
        rw [pieces_cons hc h] at hp
        rcases List.mem_cons.mp hp with rfl | hp
        · have hq : '/' ∉ q := ih (h ▸ List.mem_cons_self)
          simp [hq, Ne.symm hc]
        · exact ih (h ▸ List.mem_cons_of_mem _ hp)

/-- Pieces without slashes are found again, but for the empty list, which leaves an empty piece. -/
theorem pieces_ofPieces {qs : List (List Char)} (hs : ∀ q ∈ qs, '/' ∉ q) (hne : qs ≠ []) :
    pieces (ofPieces qs) = qs := by
  induction qs with
  | nil => exact absurd rfl hne
  | cons q qs ih =>
    have hq : '/' ∉ q := hs q List.mem_cons_self
    cases qs with
    | nil => exact pieces_of_no_slash hq
    | cons r rs =>
      rw [ofPieces, pieces_append_slash, pieces_of_no_slash hq,
        ih (fun r hr => hs r (List.mem_cons_of_mem _ hr)) (by simp)]
      rfl

def partOf (piece : List Char) : PathPart :=
  if piece = ['.'] then .here
  else if piece = ['.', '.'] then .up
  else .name (String.ofList piece)

/-- The parts of a path that move. -/
def steps (p : String) : List PathPart := (route p).parts.filter (· ≠ .here)

def stepsOf (ps : List (List Char)) : List PathPart := (ps.filter (!isIdle ·)).map partOf

theorem stepsOf_cons_idle {p : List Char} (h : isIdle p = true) (ps : List (List Char)) :
    stepsOf (p :: ps) = stepsOf ps := by
  simp [stepsOf, h]

theorem stepsOf_cons {p : List Char} (h : isIdle p = false) (ps : List (List Char)) :
    stepsOf (p :: ps) = partOf p :: stepsOf ps := by
  simp [stepsOf, h]

theorem stepsOf_append (ps qs : List (List Char)) :
    stepsOf (ps ++ qs) = stepsOf ps ++ stepsOf qs := by
  simp [stepsOf]

theorem filter_append_name (front : List PathPart) (n : String) :
    (front ++ [PathPart.name n]).filter (· ≠ .here) = front.filter (· ≠ .here) ++ [.name n] := by
  rw [List.filter_append]
  rfl

theorem filter_partOf (ps : List (List Char)) :
    ((ps.filter (· ≠ [])).map partOf).filter (· ≠ .here) = stepsOf ps := by
  induction ps with
  | nil => rfl
  | cons p ps ih =>
    by_cases he : p = []
    · subst he
      rw [stepsOf_cons_idle (by decide), ← ih]
      rfl
    · have hf : (p :: ps).filter (· ≠ []) = p :: ps.filter (· ≠ []) := by simp [he]
      rw [hf, List.map_cons, List.filter_cons, ih]
      by_cases hd : p = ['.']
      · subst hd
        rw [stepsOf_cons_idle (by decide)]
        rfl
      · have hi : isIdle p = false := by simp [isIdle, he, hd]
        have hp : partOf p ≠ .here := by
          rw [partOf, if_neg hd]
          split <;> simp
        rw [stepsOf_cons hi, if_pos (by simpa using hp)]

theorem route_eq (p : String) :
    route p = ⟨(if isAbsolute p then [.root] else []) ++
      ((pieces p.toList).filter (· ≠ [])).map partOf,
      !((pieces p.toList).filter (· ≠ [])).isEmpty && p.toList.getLast? = some '/'⟩ := rfl

theorem steps_eq (p : String) :
    steps p = (if isAbsolute p then [.root] else []) ++ stepsOf (pieces p.toList) := by
  have hroot : (if isAbsolute p then [PathPart.root] else []).filter (· ≠ .here) =
      if isAbsolute p then [.root] else [] := by
    split <;> rfl
  rw [steps, route_eq, List.filter_append, filter_partOf, hroot]

/-- A text that is a part of a path by itself, and no dots. -/
structure IsName (n : String) : Prop where
  nonempty : n.toList ≠ []
  noSlash : '/' ∉ n.toList
  notHere : n.toList ≠ ['.']
  notUp : n.toList ≠ ['.', '.']

namespace IsName

variable {n : String}

theorem partOf_eq (h : IsName n) : partOf n.toList = .name n := by
  rw [partOf, if_neg h.notHere, if_neg h.notUp, String.ofList_toList]

theorem not_slashed (h : IsName n) (cs : List Char) : (cs ++ n.toList).getLast? ≠ some '/' := by
  intro hl
  obtain ⟨c, hc⟩ : ∃ c, n.toList.getLast? = some c := ⟨_, List.getLast?_eq_some_getLast h.nonempty⟩
  rw [List.getLast?_append, hc, Option.some_or, ← hc] at hl
  exact h.noSlash (List.mem_of_getLast? hl)

theorem not_absolute (h : IsName n) : isAbsolute n = false := by
  rw [isAbsolute, beq_eq_false_iff_ne]
  intro hh
  exact h.noSlash (List.mem_of_mem_head? hh)

theorem ending {n : String} (h : n = "" ∨ IsName n) : IsName (n ++ ".tmp") := by
  have hl : (n ++ ".tmp").toList = n.toList ++ ['.', 't', 'm', 'p'] := by simp
  have hlen : 4 ≤ (n ++ ".tmp").toList.length := by
    rw [hl, List.length_append]
    exact Nat.le_add_left _ _
  have hn : '/' ∉ n.toList := by
    rcases h with rfl | h
    · simp
    · exact h.noSlash
  refine ⟨?_, ?_, ?_, ?_⟩
  · intro he
    simp [he] at hlen
  · rw [hl]
    simp [hn]
  · intro he
    simp [he] at hlen
  · intro he
    simp [he] at hlen

end IsName

theorem join_eq (b : String) {n : String} (hn : IsName n) :
    ∃ front, (join b n).toList = front ++ n.toList ∧ isAbsolute (join b n) = isAbsolute b ∧
      (pieces (join b n).toList).filter (· ≠ []) =
        (pieces b.toList).filter (· ≠ []) ++ [n.toList] := by
  have hpiece : [n.toList].filter (· ≠ []) = [n.toList] := by simp [hn.nonempty]
  by_cases hb : b = ""
  · subst hb
    have hj : join "" n = n := by simp [join]
    have hempty : (pieces "".toList).filter (· ≠ []) = [] := by decide
    refine ⟨[], by rw [hj, List.nil_append], by rw [hj, hn.not_absolute]; rfl, ?_⟩
    rw [hj, pieces_of_no_slash hn.noSlash, hpiece, hempty, List.nil_append]
  · by_cases hs : b.toList.getLast? = some '/'
    · obtain ⟨front, hf⟩ := List.getLast?_eq_some_iff.mp hs
      have hj : (join b n).toList = front ++ '/' :: n.toList := by
        simp [join, hn.not_absolute, hb, hf]
      have hempty : (pieces []).filter (· ≠ []) = [] := by decide
      refine ⟨front ++ ['/'], by rw [hj, List.append_assoc, List.singleton_append], ?_, ?_⟩
      · rw [isAbsolute, isAbsolute, hj, hf]
        cases front <;> rfl
      · rw [hj, hf, pieces_append_slash, pieces_append_slash, pieces_of_no_slash hn.noSlash,
          List.filter_append, List.filter_append, hpiece, hempty, List.append_nil]
    · have hj : (join b n).toList = b.toList ++ '/' :: n.toList := by
        simp [join, hn.not_absolute, hb, hs]
      refine ⟨b.toList ++ ['/'], by rw [hj, List.append_assoc, List.singleton_append], ?_, ?_⟩
      · rw [isAbsolute, isAbsolute, hj]
        cases h : b.toList with
        | nil => exact absurd (String.toList_eq_nil_iff.mp h) hb
        | cons c cs => rfl
      · rw [hj, pieces_append_slash, pieces_of_no_slash hn.noSlash, List.filter_append, hpiece]

/-- A name that is joined to a path is its last part, without a slash behind it. -/
theorem route_join (b : String) {n : String} (hn : IsName n) :
    route (join b n) = ⟨(route b).parts ++ [.name n], false⟩ := by
  obtain ⟨front, hj, ha, hpieces⟩ := join_eq b hn
  have hlast : decide ((front ++ n.toList).getLast? = some '/') = false :=
    decide_eq_false (hn.not_slashed front)
  rw [route_eq, route_eq, hpieces, ha, hj, hlast, Bool.and_false, List.map_append,
    List.map_singleton, hn.partOf_eq, List.append_assoc]

theorem splitLead_cases (cs : List Char) :
    (∃ r, cs = '/' :: r ∧ splitLead cs = (['/'], r)) ∨
    (cs = ['.'] ∧ splitLead cs = (['.'], [])) ∨
    (∃ r, cs = '.' :: '/' :: r ∧ splitLead cs = (['.'], '/' :: r)) ∨
    (cs.head? ≠ some '/' ∧ splitLead cs = ([], cs)) := by
  unfold splitLead
  split
  · exact .inl ⟨_, rfl, rfl⟩
  · exact .inr (.inl ⟨rfl, rfl⟩)
  · exact .inr (.inr (.inl ⟨_, rfl, rfl⟩))
  · next h _ _ =>
    refine .inr (.inr (.inr ⟨?_, rfl⟩))
    intro hh
    obtain ⟨r, hr⟩ := List.head?_eq_some_iff.mp hh
    exact h r hr

def leadParts : List Char → List PathPart
  | ['/'] => [.root]
  | ['.'] => [.here]
  | _ => []

theorem name_not_mem_leadParts (lead : List Char) (s : String) : .name s ∉ leadParts lead := by
  unfold leadParts
  split <;> simp

/-- The parts that move behind the lead. -/
def innerSteps (p : String) : List PathPart := stepsOf (pieces (splitLead p.toList).2)

theorem steps_split (p : String) :
    steps p = (if isAbsolute p then [.root] else []) ++ innerSteps p := by
  rw [steps_eq, innerSteps]
  rcases splitLead_cases p.toList with ⟨r, hp, hs⟩ | ⟨hp, hs⟩ | ⟨r, hp, hs⟩ | ⟨hp, hs⟩
  · rw [hs, hp, pieces_slash, stepsOf_cons_idle rfl]
  · rw [hs, hp]
    rfl
  · have hpieces : pieces ('.' :: '/' :: r) = ['.'] :: pieces r :=
      pieces_cons (by decide) (pieces_slash r)
    rw [hs, hp, hpieces, pieces_slash, stepsOf_cons_idle rfl, stepsOf_cons_idle rfl]
  · rw [hs]

theorem parts_split (p : String) : parts p = leadParts (splitLead p.toList).1 ++ innerSteps p := by
  have hmap : ∀ ps : List (List Char), ((ps.filter (!isIdle ·)).map fun piece =>
      if piece = ['.', '.'] then PathPart.up else .name (String.ofList piece)) = stepsOf ps := by
    intro ps
    refine List.map_congr_left fun piece hp => ?_
    have hd : piece ≠ ['.'] := by
      rintro rfl
      simp [isIdle] at hp
    rw [partOf, if_neg hd]
  exact congrArg (leadParts (splitLead p.toList).1 ++ ·) (hmap _)

/-- The parts of a path are a dot, if that leads it, and its steps. -/
theorem parts_eq_steps (p : String) :
    parts p = (if (splitLead p.toList).1 = ['.'] then [.here] else []) ++ steps p := by
  rw [parts_split, steps_split, ← List.append_assoc]
  congr 1
  rcases splitLead_cases p.toList with ⟨r, hp, hs⟩ | ⟨hp, hs⟩ | ⟨r, hp, hs⟩ | ⟨hp, hs⟩
  · rw [hs, isAbsolute, hp]
    rfl
  · rw [hs, isAbsolute, hp]
    rfl
  · rw [hs, isAbsolute, hp]
    rfl
  · have ha : isAbsolute p = false := by rw [isAbsolute, beq_eq_false_iff_ne]; exact hp
    rw [hs, ha]
    rfl

theorem steps_eq_filter (p : String) : steps p = (parts p).filter (· ≠ .here) := by
  have hsteps : (steps p).filter (· ≠ .here) = steps p := by
    rw [steps, List.filter_filter]
    simp only [Bool.and_self]
  rw [parts_eq_steps, List.filter_append, hsteps]
  split <;> rfl

theorem getLast?_append_name {lead inner : List PathPart} (h : ∀ s, .name s ∉ lead) {n : String} :
    (lead ++ inner).getLast? = some (.name n) ↔ inner.getLast? = some (.name n) := by
  rw [List.getLast?_append, Option.or_eq_some_iff]
  constructor
  · rintro (hi | ⟨-, hl⟩)
    · exact hi
    · exact absurd (List.mem_of_getLast? hl) (h n)
  · exact .inl

theorem steps_getLast? {p n : String} :
    (steps p).getLast? = some (.name n) ↔ (innerSteps p).getLast? = some (.name n) := by
  have hroot : ∀ s, PathPart.name s ∉ if isAbsolute p then [PathPart.root] else [] := by
    intro s
    split <;> simp
  rw [steps_split, getLast?_append_name hroot]

/-- The file name of a path is its last step, if that is a name. -/
theorem fileName?_eq_some_iff {p n : String} :
    fileName? p = some n ↔ (steps p).getLast? = some (.name n) := by
  rw [steps_getLast?, ← getLast?_append_name (name_not_mem_leadParts _), ← parts_split, fileName?]
  cases (parts p).getLast? with
  | none => simp
  | some part => cases part <;> simp

theorem isName_of_fileName? {p n : String} (h : fileName? p = some n) : IsName n := by
  have hm : PathPart.name n ∈ steps p := List.mem_of_getLast? (fileName?_eq_some_iff.mp h)
  rw [steps_eq, List.mem_append] at hm
  rcases hm with hm | hm
  · split at hm <;> simp at hm
  · obtain ⟨piece, hq, he⟩ := List.mem_map.mp hm
    obtain ⟨hq, hi⟩ := List.mem_filter.mp hq
    have hidle : piece ≠ [] ∧ piece ≠ ['.'] := by simpa [isIdle] using hi
    rw [partOf, if_neg hidle.2] at he
    split at he
    · cases he
    · next hu =>
      obtain rfl : String.ofList piece = n := PathPart.name.inj he
      exact ⟨by simpa using hidle.1, by simpa using no_slash_of_mem_pieces hq,
        by simpa using hidle.2, by simpa using hu⟩

theorem stepsOf_trimPieces (ps : List (List Char)) : stepsOf (trimPieces ps) = stepsOf ps := by
  have hidle : stepsOf (ps.rtakeWhile isIdle) = [] := by
    rw [stepsOf, List.map_eq_nil_iff, List.filter_eq_nil_iff]
    intro q hq
    simp [List.mem_rtakeWhile_imp hq]
  have hs := stepsOf_append (ps.rdropWhile isIdle) (ps.rtakeWhile isIdle)
  rw [List.rdropWhile_append_rtakeWhile, hidle, List.append_nil] at hs
  exact hs.symm

theorem stepsOf_ofPieces {qs : List (List Char)} (h : ∀ q ∈ qs, '/' ∉ q) :
    stepsOf (pieces (ofPieces qs)) = stepsOf qs := by
  by_cases hq : qs = []
  · subst hq
    rfl
  · rw [pieces_ofPieces h hq]

theorem head?_of_pieces {cs : List Char} {ps : List (List Char)} (h : pieces cs = [] :: ps) :
    cs = [] ∨ cs.head? = some '/' := by
  cases cs with
  | nil => exact .inl rfl
  | cons c cs =>
    by_cases hc : c = '/'
    · exact .inr (by rw [hc]; rfl)
    · cases hp : pieces cs with
      | nil => exact absurd hp (pieces_ne_nil cs)
      | cons q qs => simp [pieces_cons hc hp] at h

/-- Pieces of a text that no slash leads do not begin with a slash when they are joined again. -/
theorem not_absolute_ofPieces {cs : List Char} {qs : List (List Char)} (hh : cs.head? ≠ some '/')
    (hne : cs ≠ []) (hq : qs <+: pieces cs) : (ofPieces qs).head? ≠ some '/' := by
  cases qs with
  | nil => simp [ofPieces]
  | cons q qs =>
    obtain ⟨rest, hr⟩ := hq
    cases q with
    | nil => exact absurd (head?_of_pieces hr.symm) (by simp [hh, hne])
    | cons c q =>
      have hs : '/' ∉ c :: q := by
        have hm : c :: q ∈ pieces cs := by
          rw [← hr]
          exact List.mem_cons_self
        exact no_slash_of_mem_pieces hm
      have hc : c ≠ '/' := fun h => hs (h ▸ List.mem_cons_self)
      cases qs <;> simpa [ofPieces] using hc

/-- A text that begins with a lone dot has that dot as its lead. -/
theorem splitLead_dot {cs : List Char} {ps : List (List Char)} (h : pieces cs = ['.'] :: ps) :
    (splitLead cs).1 = ['.'] := by
  rcases cs with _ | ⟨c, cs⟩
  · simp [pieces] at h
  · by_cases hc : c = '/'
    · subst hc
      simp [pieces_slash] at h
    · cases hp : pieces cs with
      | nil => exact absurd hp (pieces_ne_nil cs)
      | cons q qs =>
        rw [pieces_cons hc hp] at h
        obtain ⟨⟨rfl, rfl⟩, rfl⟩ : (c = '.' ∧ q = []) ∧ qs = ps := by simpa using h
        rcases cs with _ | ⟨c', cs⟩
        · rfl
        · have hh := (head?_of_pieces hp).resolve_left (by simp)
          obtain rfl : c' = '/' := by simpa using hh
          rfl

/-- No piece at the end names nothing. -/
def Trimmed (qs : List (List Char)) : Prop := ∀ q ∈ qs.getLast?, isIdle q = false

theorem trimmed_trimPieces (ps : List (List Char)) : Trimmed (trimPieces ps) := by
  intro q hq
  have hne : trimPieces ps ≠ [] := by
    intro he
    simp [he] at hq
  have hlast := List.rdropWhile_last_not isIdle ps hne
  rw [Option.mem_def, List.getLast?_eq_some_getLast hne, Option.some.injEq] at hq
  rw [← hq]
  exact eq_false_of_ne_true hlast

theorem trimPieces_of_trimmed {qs : List (List Char)} (h : Trimmed qs) : trimPieces qs = qs := by
  rcases List.eq_nil_or_concat' qs with rfl | ⟨init, q, rfl⟩
  · rfl
  · exact List.rdropWhile_concat_neg isIdle init q (by simp [h q (by simp)])

theorem eq_nil_of_trimmed {qs : List (List Char)} (hq : qs <+: pieces []) (ht : Trimmed qs) :
    qs = [] := by
  rcases qs with _ | ⟨q, qs⟩
  · rfl
  · obtain ⟨rfl, hnil⟩ := List.cons_prefix_cons.mp hq
    obtain rfl := List.prefix_nil.mp hnil
    exact absurd (ht [] rfl) (by decide)

/-- A lead and trimmed pieces behind it are split there again. -/
theorem splitLead_ofPieces {cs : List Char} {qs : List (List Char)}
    (hq : qs <+: pieces (splitLead cs).2) (ht : Trimmed qs) :
    splitLead ((splitLead cs).1 ++ ofPieces qs) = ((splitLead cs).1, ofPieces qs) := by
  rcases splitLead_cases cs with ⟨r, rfl, hs⟩ | ⟨rfl, hs⟩ | ⟨r, rfl, hs⟩ | ⟨hh, hs⟩
  · rw [hs]
    rfl
  · rw [hs] at hq ⊢
    rw [eq_nil_of_trimmed hq ht]
    rfl
  · rw [hs, pieces_slash] at hq
    rw [hs]
    rcases qs with _ | ⟨q, _ | ⟨q', qs⟩⟩
    · rfl
    · obtain ⟨rfl, -⟩ := List.cons_prefix_cons.mp hq
      exact absurd (ht [] rfl) (by decide)
    · obtain ⟨rfl, -⟩ := List.cons_prefix_cons.mp hq
      rfl
  · rw [hs] at hq ⊢
    rw [List.nil_append]
    have hslash : ∀ q ∈ qs, '/' ∉ q := fun q h => no_slash_of_mem_pieces (hq.subset h)
    by_cases hqs : qs = []
    · subst hqs
      rfl
    have hcs : cs ≠ [] := by
      rintro rfl
      exact hqs (eq_nil_of_trimmed hq ht)
    have hpieces := pieces_ofPieces hslash hqs
    rcases splitLead_cases (ofPieces qs) with ⟨r, hp, -⟩ | ⟨hp, -⟩ | ⟨r, hp, -⟩ | ⟨-, hp⟩
    · exact absurd (by rw [hp]; rfl) (not_absolute_ofPieces hh hcs hq)
    · rw [hp] at hpieces
      obtain rfl : qs = [['.']] := hpieces.symm
      exact absurd (ht ['.'] rfl) (by decide)
    · have hdot : pieces ('.' :: '/' :: r) = ['.'] :: pieces r :=
        pieces_cons (by decide) (pieces_slash r)
      rw [hp, hdot] at hpieces
      obtain ⟨rest, hrest⟩ := hq
      rw [← hpieces, List.cons_append] at hrest
      have hlead := splitLead_dot hrest.symm
      rw [hs] at hlead
      cases hlead
    · exact hp

theorem innerSteps_ofPieces {p : String} {qs : List (List Char)}
    (hq : qs <+: pieces (splitLead p.toList).2) (ht : Trimmed qs) :
    innerSteps (String.ofList ((splitLead p.toList).1 ++ ofPieces qs)) = stepsOf qs := by
  rw [innerSteps, String.toList_ofList, splitLead_ofPieces hq ht]
  exact stepsOf_ofPieces fun q h => no_slash_of_mem_pieces (hq.subset h)

/-- The parent of a path that ends in a name drops that name. -/
theorem parts_parent {p n : String} (h : fileName? p = some n) :
    ∃ q, parent? p = some q ∧ parts p = parts q ++ [.name n] := by
  have hlast := steps_getLast?.mp (fileName?_eq_some_iff.mp h)
  obtain ⟨lead, body, hs⟩ : ∃ lead body, splitLead p.toList = (lead, body) := ⟨_, _, rfl⟩
  have hinner : innerSteps p = stepsOf (trimPieces (pieces body)) := by
    rw [stepsOf_trimPieces, innerSteps, hs]
  rw [hinner] at hlast
  have hps : trimPieces (pieces body) ≠ [] := by
    intro he
    simp [he, stepsOf] at hlast
  obtain ⟨init, l, hl⟩ := (List.eq_nil_or_concat' _).resolve_left hps
  have hidle : isIdle l = false := trimmed_trimPieces (pieces body) l (by simp [hl])
  have hsteps : stepsOf (trimPieces (pieces body)) = stepsOf init ++ [partOf l] := by
    rw [hl, stepsOf_append, stepsOf_cons hidle]
    rfl
  rw [hsteps, List.getLast?_concat, Option.some.injEq] at hlast
  have hinit : trimPieces init <+: pieces (splitLead p.toList).2 := by
    rw [hs]
    have hconcat : init <+: trimPieces (pieces body) := ⟨[l], hl.symm⟩
    exact (List.rdropWhile_prefix _ _).trans (hconcat.trans (List.rdropWhile_prefix _ _))
  refine ⟨String.ofList (lead ++ ofPieces (trimPieces init)), ?_, ?_⟩
  · simp only [parent?, hs]
    rw [hl, List.dropLast_concat]
  · have hlead := splitLead_ofPieces hinit (trimmed_trimPieces init)
    have hsteps' := innerSteps_ofPieces hinit (trimmed_trimPieces init)
    rw [hs] at hlead hsteps'
    rw [parts_split, parts_split, String.toList_ofList, hlead, hsteps', stepsOf_trimPieces, hinner,
      hsteps, hlast, hs, List.append_assoc]

theorem exists_parent {p n : String} (h : fileName? p = some n) :
    ∃ q, parent? p = some q ∧ steps p = steps q ++ [.name n] := by
  obtain ⟨q, hq, hp⟩ := parts_parent h
  exact ⟨q, hq, by rw [steps_eq_filter, hp, filter_append_name, ← steps_eq_filter]⟩

/-- The steps to the directory that a path names a file in. Without a name at its end, the path
itself leads there. -/
def around (p : String) : List PathPart :=
  match fileName? p with
  | some _ => (steps p).dropLast
  | none => steps p

def temporaryName (p : String) : String := (fileName? p).getD "" ++ ".tmp"

theorem isName_temporaryName (p : String) : IsName (temporaryName p) := by
  rw [temporaryName]
  cases h : fileName? p with
  | none => exact .ending (.inl rfl)
  | some n => exact .ending (.inr (isName_of_fileName? h))

theorem route_temporaryPath (p : String) : ∃ front,
    route (temporaryPath p) = ⟨front ++ [.name (temporaryName p)], false⟩ ∧
      front.filter (· ≠ .here) = around p := by
  have hname := isName_temporaryName p
  cases h : fileName? p with
  | none =>
    have htmp : temporaryPath p = join p (temporaryName p) := by
      simp [temporaryPath, withFileName, temporaryName, h]
    exact ⟨_, by rw [htmp, route_join p hname], by rw [around, h]; rfl⟩
  | some n =>
    obtain ⟨q, hq, hs⟩ := exists_parent h
    have htmp : temporaryPath p = join q (temporaryName p) := by
      simp [temporaryPath, withFileName, temporaryName, h, hq]
    refine ⟨_, by rw [htmp, route_join q hname], ?_⟩
    rw [around, h, hs, List.dropLast_concat]
    rfl

theorem route_named {p n : String} {front : List PathPart}
    (h : (route p).parts = front ++ [.name n]) :
    fileName? p = some n ∧ front.filter (· ≠ .here) = around p := by
  have hs : steps p = front.filter (· ≠ .here) ++ [.name n] := by
    rw [steps, h, filter_append_name]
  have hn : fileName? p = some n := by
    rw [fileName?_eq_some_iff, hs, List.getLast?_concat]
  refine ⟨hn, ?_⟩
  rw [around, hn, hs, List.dropLast_concat]

end NavTree.Path
