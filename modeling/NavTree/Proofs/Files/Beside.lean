import NavTree.Proofs.Files.Path

/-! # Beside a source

The directory that generated files land in is written without idle parts at its end. So a name that
is joined to it comes off again as its parent, and the temporary of a generated file has its name
with an ending.
-/
namespace NavTree.Path

theorem splitLead_append {cs lead body : List Char} (h : splitLead cs = (lead, body))
    (hb : body ≠ []) (ds : List Char) : splitLead (cs ++ ds) = (lead, body ++ ds) := by
  rcases splitLead_cases cs with ⟨r, rfl, hs⟩ | ⟨rfl, hs⟩ | ⟨r, rfl, hs⟩ | ⟨hh, hs⟩
  · cases hs.symm.trans h
    rfl
  · cases hs.symm.trans h
    exact absurd rfl hb
  · cases hs.symm.trans h
    rfl
  · cases hs.symm.trans h
    rcases cs with _ | ⟨c, _ | ⟨c', cs⟩⟩
    · exact absurd rfl hb
    · have hc : c ≠ '/' ∧ c ≠ '.' := by
        constructor
        · rintro rfl
          simp at hh
        · rintro rfl
          cases hs
      unfold splitLead
      split <;> simp_all
    · unfold splitLead at hs ⊢
      split at hs <;> split <;> simp_all

/-- A directory as it is written in front of names: a lead, and trimmed pieces behind it. -/
structure Base (b : String) (lead : List Char) (qs : List (List Char)) : Prop where
  toList_eq : b.toList = lead ++ ofPieces qs
  splitLead_eq : splitLead b.toList = (lead, ofPieces qs)
  trimmed : Trimmed qs
  no_slash : ∀ q ∈ qs, '/' ∉ q
  nonempty : b ≠ ""

theorem outputDirectory_base (s : String) : ∃ lead qs, Base (outputDirectory s) lead qs := by
  have hdot : Base "." ['.'] [] := ⟨rfl, rfl, by simp [Trimmed], by simp, by simp⟩
  rw [outputDirectory]
  split
  · exact ⟨_, _, hdot⟩
  · next parent hne hp =>
    obtain ⟨lead, body, hs⟩ : ∃ lead body, splitLead s.toList = (lead, body) := ⟨_, _, rfl⟩
    obtain ⟨qs, hq, ht, hparent⟩ : ∃ qs, qs <+: pieces body ∧ Trimmed qs ∧
        parent = String.ofList (lead ++ ofPieces qs) := by
      simp only [parent?, hs] at hp
      split at hp
      · split at hp
        · exact absurd (Option.some.inj hp).symm (by simpa using hne)
        · cases hp
      · refine ⟨_, ?_, trimmed_trimPieces _, (Option.some.inj hp).symm⟩
        exact (List.rdropWhile_prefix _ _).trans
          ((List.dropLast_prefix _).trans (List.rdropWhile_prefix _ _))
    have hpieces : qs <+: pieces (splitLead s.toList).2 := by
      rw [hs]
      exact hq
    have hsplit := splitLead_ofPieces hpieces ht
    rw [hs] at hsplit
    refine ⟨lead, qs, by simp [hparent], ?_, ht, fun q hm => no_slash_of_mem_pieces (hq.subset hm),
      fun h => hne h⟩
    rw [hparent, String.toList_ofList]
    exact hsplit
  · exact ⟨_, _, hdot⟩

namespace Base

variable {b n : String} {lead : List Char} {qs : List (List Char)}

theorem ofPieces_ne_nil (h : Base b lead qs) (hq : qs ≠ []) : ofPieces qs ≠ [] := by
  intro he
  have hp := pieces_ofPieces h.no_slash hq
  rw [he] at hp
  exact hq (eq_nil_of_trimmed (hp ▸ List.prefix_refl _) h.trimmed)

theorem not_slashed (h : Base b lead qs) (hq : qs ≠ []) : b.toList.getLast? ≠ some '/' := by
  intro hl
  have hlast : (ofPieces qs).getLast? = some '/' := by
    rw [h.toList_eq, List.getLast?_append_of_ne_nil _ (h.ofPieces_ne_nil hq)] at hl
    exact hl
  obtain ⟨front, hf⟩ := List.getLast?_eq_some_iff.mp hlast
  have hp := pieces_ofPieces h.no_slash hq
  rw [hf, pieces_append_slash] at hp
  exact absurd (h.trimmed [] (by rw [← hp]; simp [pieces])) (by decide)

/-- Joined to a directory, a name is split off where it was joined. -/
theorem splitLead_join (h : Base b lead qs) (hn : IsName n) : ∃ body,
    splitLead (join b n).toList = (lead, body) ∧
      trimPieces (trimPieces (pieces body)).dropLast = qs ∧ trimPieces (pieces body) ≠ [] := by
  have hname : Trimmed (qs ++ [n.toList]) := by
    intro q hq
    obtain rfl : n.toList = q := by simpa using hq
    simp [isIdle, hn.nonempty, hn.notHere]
  have hdrop : trimPieces (qs ++ [n.toList]).dropLast = qs := by
    rw [List.dropLast_concat, trimPieces_of_trimmed h.trimmed]
  have hdone : ∀ body, trimPieces (pieces body) = qs ++ [n.toList] →
      trimPieces (trimPieces (pieces body)).dropLast = qs ∧ trimPieces (pieces body) ≠ [] := by
    intro body hb
    rw [hb]
    exact ⟨hdrop, by simp⟩
  by_cases hq : qs = []
  · subst hq
    have hb := h.toList_eq
    have hs := h.splitLead_eq
    rw [ofPieces, List.append_nil] at hb
    rw [hb] at hs
    rcases splitLead_cases lead with ⟨r, rfl, hl⟩ | ⟨rfl, hl⟩ | ⟨r, rfl, hl⟩ | ⟨-, hl⟩
    · obtain rfl : r = [] := by simpa [ofPieces] using (Prod.mk.inj (hl.symm.trans hs)).2
      have hj : (join b n).toList = '/' :: n.toList := by
        simp [join, hn.not_absolute, hb, h.nonempty]
      refine ⟨n.toList, by rw [hj]; rfl, hdone _ ?_⟩
      rw [pieces_of_no_slash hn.noSlash]
      exact trimPieces_of_trimmed hname
    · have hj : (join b n).toList = '.' :: '/' :: n.toList := by
        simp [join, hn.not_absolute, hb, h.nonempty]
      refine ⟨'/' :: n.toList, by rw [hj]; rfl, ?_⟩
      have hp : trimPieces (pieces ('/' :: n.toList)) = [[], n.toList] := by
        have hslash : Trimmed [[], n.toList] := hname
        rw [pieces_slash, pieces_of_no_slash hn.noSlash, trimPieces_of_trimmed hslash]
      rw [hp]
      exact ⟨rfl, by simp⟩
    · cases hl.symm.trans hs
    · obtain rfl : lead = [] := by simpa using (Prod.mk.inj (hl.symm.trans hs)).1.symm
      exact absurd (String.toList_eq_nil_iff.mp hb) h.nonempty
  · have hj : (join b n).toList = b.toList ++ '/' :: n.toList := by
      simp [join, hn.not_absolute, h.nonempty, h.not_slashed hq]
    refine ⟨ofPieces qs ++ '/' :: n.toList, ?_, hdone _ ?_⟩
    · rw [hj, splitLead_append h.splitLead_eq (h.ofPieces_ne_nil hq)]
    · rw [pieces_append_slash, pieces_ofPieces h.no_slash hq, pieces_of_no_slash hn.noSlash]
      exact trimPieces_of_trimmed hname

theorem parent?_join (h : Base b lead qs) (hn : IsName n) : parent? (join b n) = some b := by
  obtain ⟨body, hs, hq, hne⟩ := h.splitLead_join hn
  simp only [parent?, hs]
  rw [hq, ← h.toList_eq, String.ofList_toList]

end Base

/-- What is joined to the directory of a source has that directory as its parent. -/
theorem parent?_join (s : String) {n : String} (hn : IsName n) :
    parent? (join (outputDirectory s) n) = some (outputDirectory s) := by
  obtain ⟨lead, qs, hb⟩ := outputDirectory_base s
  exact hb.parent?_join hn

theorem fileName?_join (b : String) {n : String} (hn : IsName n) :
    fileName? (join b n) = some n := by
  rw [fileName?_eq_some_iff, steps, route_join b hn, filter_append_name, List.getLast?_concat]

theorem toList_join {b n : String} (hb : b ≠ "") (hn : IsName n) : (join b n).toList =
    b.toList ++ if b.toList.getLast? = some '/' then n.toList else '/' :: n.toList := by
  rw [join, if_neg (by simp [hn.not_absolute, hb])]
  split <;> simp [String.toList_append]

/-- A name that is joined to a path leaves its lead alone. -/
theorem lead_join (b : String) {n : String} (hn : IsName n) :
    (splitLead (join b n).toList).1 = (splitLead b.toList).1 := by
  by_cases hb : b = ""
  · subst hb
    have hj : join "" n = n := by simp [join]
    rw [hj]
    rcases splitLead_cases n.toList with ⟨r, hp, -⟩ | ⟨hp, -⟩ | ⟨r, hp, -⟩ | ⟨-, hs⟩
    · exact absurd (by simp [hp]) hn.noSlash
    · exact absurd hp hn.notHere
    · exact absurd (by simp [hp]) hn.noSlash
    · rw [hs]
      rfl
  · rw [toList_join hb hn]
    rcases splitLead_cases b.toList with ⟨r, hp, hs⟩ | ⟨hp, hs⟩ | ⟨r, hp, hs⟩ | ⟨-, hs⟩
    · rw [hs, hp]
      rfl
    · rw [hs, hp]
      rfl
    · rw [splitLead_append hs (by simp)]
      rw [hs]
    · rw [splitLead_append hs fun h => hb (String.toList_eq_nil_iff.mp h)]
      rw [hs]

theorem steps_join (b : String) {n : String} (hn : IsName n) :
    steps (join b n) = steps b ++ [.name n] := by
  rw [steps, route_join b hn, filter_append_name]
  rfl

theorem parts_join (b : String) {n : String} (hn : IsName n) :
    parts (join b n) = parts b ++ [.name n] := by
  rw [parts_eq_steps, parts_eq_steps, lead_join b hn, steps_join b hn, List.append_assoc]

/-- Only the empty text has no parts. -/
theorem parts_ne_nil {p : String} (h : p ≠ "") : parts p ≠ [] := by
  rw [parts_split]
  rcases splitLead_cases p.toList with ⟨r, hp, hs⟩ | ⟨hp, hs⟩ | ⟨r, hp, hs⟩ | ⟨hh, hs⟩
  · simp [hs, leadParts]
  · simp [hs, leadParts]
  · simp [hs, leadParts]
  · cases hp : pieces p.toList with
    | nil => exact absurd hp (pieces_ne_nil _)
    | cons q qs =>
      have hempty : q ≠ [] := by
        rintro rfl
        exact (head?_of_pieces hp).elim (fun he => h (String.toList_eq_nil_iff.mp he)) hh
      have hdot : q ≠ ['.'] := by
        rintro rfl
        have hlead := splitLead_dot hp
        simp [hs] at hlead
      simp [innerSteps, hs, hp, stepsOf_cons (show isIdle q = false by simp [isIdle, hempty, hdot])]

theorem outputDirectory_ne_empty (s : String) : outputDirectory s ≠ "" := by
  obtain ⟨_, _, h⟩ := outputDirectory_base s
  exact h.nonempty

/-- The parts of a source are those of its directory and its name, but that the working directory
is written as a dot. -/
theorem parts_outputDirectory {s n : String} (h : fileName? s = some n) :
    parts s = parts (outputDirectory s) ++ [.name n] ∨
      parts s = [.name n] ∧ outputDirectory s = "." := by
  obtain ⟨q, hq, hp⟩ := parts_parent h
  by_cases he : q = ""
  · subst he
    exact .inr ⟨hp, by rw [outputDirectory, hq]; rfl⟩
  · have ho : outputDirectory s = q := by
      rw [outputDirectory, hq]
      split
      · next h => exact absurd (Option.some.inj h) he
      · next h => exact (Option.some.inj h).symm
      · next h => cases h
    exact .inl (ho ▸ hp)

theorem steps_outputDirectory {s n : String} (h : fileName? s = some n) :
    steps s = steps (outputDirectory s) ++ [.name n] := by
  rw [steps_eq_filter s, steps_eq_filter (outputDirectory s)]
  rcases parts_outputDirectory h with hp | ⟨hp, ho⟩
  · rw [hp, filter_append_name]
  · rw [hp, ho]
    rfl

theorem parts_outputDirectory_join (b : String) {n : String} (hn : IsName n) :
    parts (outputDirectory (join b n)) = if b = "" then [.here] else parts b := by
  have hne := parts_ne_nil (outputDirectory_ne_empty (join b n))
  rcases parts_outputDirectory (fileName?_join b hn) with h | ⟨h, ho⟩
  · rw [parts_join b hn, List.append_left_inj] at h
    split
    · next hb =>
      rw [← h, hb] at hne
      exact absurd rfl hne
    · exact h.symm
  · have hnil : parts b = [] := by simpa [parts_join b hn] using h
    have hb : b = "" := by
      by_contra hb
      exact parts_ne_nil hb hnil
    rw [if_pos hb, ho]
    rfl

/-- The temporary of a generated file has the same name with an ending. -/
theorem temporaryPath_join (s : String) {n : String} (hn : IsName n) :
    temporaryPath (join (outputDirectory s) n) = join (outputDirectory s) (n ++ ".tmp") := by
  simp [temporaryPath, withFileName, fileName?_join _ hn, parent?_join s hn]

end NavTree.Path
