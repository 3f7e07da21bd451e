import Mathlib.Data.Finset.Card
import Mathlib.Data.List.Nodup
import NavTree.Proofs.Files.Looks
import NavTree.Proofs.Files.Survey

/-! # Sources of a walk

A walk is given enough fuel: it finds all that is behind directories and links that do not lead back.
On a disk that lists every location once it finds no source twice.
-/
namespace NavTree

namespace Disk

variable {d : Disk} {names : List String} {root s path n : String} {loc inner : Location}
  {around : List (Location × String)} {e : Entry}

/-- Every location is listed once, and what is in directories has names. -/
structure Tidy (d : Disk) : Prop where
  once : (d.entries.map (·.1)).Nodup
  named : d.Named

theorem mem_members : (n, e) ∈ d.members loc ↔ (n :: loc, e) ∈ d.entries := by
  rw [members, List.mem_filterMap]
  constructor
  · rintro ⟨⟨l, e'⟩, hx, h⟩
    cases l with
    | nil => simp at h
    | cons m outer =>
      simp only [Option.ite_none_right_eq_some, Option.some.injEq, Prod.mk.injEq] at h
      obtain ⟨rfl, rfl, rfl⟩ := h
      exact hx
  · intro h
    exact ⟨_, h, by simp⟩

theorem isOuter_name (hn : Path.IsName n) (loc : Location) : isOuter (n :: loc) = false := by
  have hup : n ≠ ".." := by
    rintro rfl
    exact hn.notUp rfl
  have hroot : n ≠ "/" := by
    rintro rfl
    exact hn.noSlash (by decide)
  simp [isOuter, hup, hroot]

theorem Tidy.mem_members (h : d.Tidy) :
    (n, e) ∈ d.members loc ↔ Path.IsName n ∧ d.at? (n :: loc) = some e := by
  rw [Disk.mem_members]
  constructor
  · intro hx
    have hn : Path.IsName n := h.named _ hx n (by simp)
    obtain ⟨front, back, hs⟩ := List.append_of_mem hx
    have honce := h.once
    rw [hs, List.map_append, List.map_cons, List.nodup_append] at honce
    refine ⟨hn, ?_⟩
    rw [at?, isOuter_name hn, if_neg Bool.false_ne_true, List.lookup_eq_some_iff]
    refine ⟨front, back, hs, fun x hxf => ?_⟩
    have hne := honce.2.2 x.1 (List.mem_map_of_mem hxf) (n :: loc) List.mem_cons_self
    exact bne_iff_ne.mpr hne.symm
  · rintro ⟨hn, he⟩
    rw [at?, isOuter_name hn, if_neg Bool.false_ne_true] at he
    obtain ⟨front, back, hs, -⟩ := List.lookup_eq_some_iff.mp he
    rw [hs]
    exact List.mem_append_right _ List.mem_cons_self

theorem Tidy.members_apart (h : d.Tidy) (loc : Location) :
    (d.members loc).Pairwise fun x y => x.1 ≠ y.1 := by
  rw [members, List.pairwise_filterMap]
  refine (List.pairwise_map.mp h.once).imp ?_
  rintro ⟨_ | ⟨name, outer⟩, e⟩ ⟨_ | ⟨name', outer'⟩, e'⟩ hne m hm k hk he
  · cases hm
  · cases hm
  · cases hk
  · simp only [Option.ite_none_right_eq_some, Option.some.injEq] at hm hk
    obtain ⟨rfl, rfl⟩ := hm
    obtain ⟨rfl, rfl⟩ := hk
    exact hne (congrArg (· :: outer') he)

/-- The directories that something is in and that a walk has not been in. -/
def unmet (d : Disk) (met : List Location) : Finset Location :=
  (d.entries.map (·.1.tail)).toFinset \ met.toFinset

/-- A bound for how deep a walk gets from a directory. -/
def depthFrom (d : Disk) (loc : Location) (met : List Location) : Nat :=
  (d.unmet met).card * (d.deepest + 1) + (d.deepest - loc.length) + 1

theorem length_le_deepest {x : Location × Entry} (hx : x ∈ d.entries) :
    x.1.length ≤ d.deepest := by
  have hmem : x.1.length ∈ d.entries.map (·.1.length) := List.mem_map_of_mem hx
  exact List.le_max?_getD_of_mem hmem

theorem depthFrom_directory {met : List Location} (hm : (n, e) ∈ d.members loc) :
    d.depthFrom (n :: loc) ((n :: loc) :: met) < d.depthFrom loc met := by
  have hlen : (n :: loc).length ≤ d.deepest := length_le_deepest (mem_members.mp hm)
  have hsub : d.unmet ((n :: loc) :: met) ⊆ d.unmet met := by
    rw [unmet, unmet, List.toFinset_cons]
    exact Finset.sdiff_subset_sdiff (Finset.Subset.refl _) (Finset.subset_insert _ _)
  have hcard := Nat.mul_le_mul_right (d.deepest + 1) (Finset.card_le_card hsub)
  rw [List.length_cons] at hlen
  unfold depthFrom
  rw [List.length_cons]
  omega

theorem depthFrom_link {met : List Location} (hm : (n, e) ∈ d.members inner)
    (hfree : inner ∉ met) : d.depthFrom inner (inner :: met) < d.depthFrom loc met := by
  have hin : inner ∈ d.unmet met := by
    rw [unmet, Finset.mem_sdiff, List.mem_toFinset, List.mem_toFinset]
    exact ⟨List.mem_map.mpr ⟨_, mem_members.mp hm, rfl⟩, hfree⟩
  have herase : d.unmet (inner :: met) = (d.unmet met).erase inner := by
    rw [unmet, unmet, List.toFinset_cons, Finset.sdiff_insert]
  have hless : (d.unmet (inner :: met)).card + 1 ≤ (d.unmet met).card := by
    rw [herase]
    exact Finset.card_erase_lt_of_mem hin
  have hcard := Nat.mul_le_mul_right (d.deepest + 1) hless
  rw [Nat.add_mul] at hcard
  unfold depthFrom
  omega

theorem depthFrom_le (d : Disk) (loc : Location) : d.depthFrom loc [loc] ≤ d.surveyDepth := by
  have hcard : (d.unmet [loc]).card ≤ d.entries.length := by
    have htails := List.toFinset_card_le (d.entries.map (·.1.tail))
    rw [List.length_map] at htails
    exact (Finset.card_le_card Finset.sdiff_subset).trans htails
  have hmul := Nat.mul_le_mul_right (d.deepest + 1) hcard
  unfold depthFrom surveyDepth
  rw [Nat.add_mul]
  omega

theorem Finds.exists_member (h : d.Finds names loc path around s) :
    ∃ n e, (n, e) ∈ d.members loc := by
  cases h with
  | here hm => exact ⟨_, _, hm⟩
  | inside hm => exact ⟨_, _, hm⟩

/-- With enough fuel, all sources are found. -/
theorem Finds.mem_surveyBelow (h : d.Finds names loc path around s) {fuel : Nat}
    (hf : d.depthFrom loc (loc :: around.map (·.1)) ≤ fuel) :
    .source s ∈ d.surveyBelow names fuel loc path around := by
  induction h generalizing fuel with
  | @here loc path around n e hm hn hfile =>
    cases fuel with
    | zero => exact absurd hf (by simp [depthFrom])
    | succ fuel =>
      exact List.mem_flatMap.mpr ⟨_, hm, source_mem_visit.mpr (.inl ⟨rfl, hn, hfile⟩)⟩
  | @inside loc path around n e inner s hm ho h ih =>
    have hless : d.depthFrom inner (inner :: loc :: around.map (·.1)) <
        d.depthFrom loc (loc :: around.map (·.1)) := by
      cases ho with
      | directory hs => exact depthFrom_directory hm
      | @link target spot he hd hfree hs =>
        obtain ⟨m, e', hm'⟩ := h.exists_member
        apply depthFrom_link hm'
        intro hmet
        obtain ⟨x, hx, hloc⟩ := List.mem_map.mp (show _ ∈ ((loc, path) :: around).map (·.1) from hmet)
        have hne := List.lookup_eq_none_iff.mp hfree x hx
        simp [hloc] at hne
    cases fuel with
    | zero => exact absurd hf (by simp [depthFrom])
    | succ fuel =>
      have hin := ih (Nat.le_of_lt_succ (Nat.lt_of_lt_of_le hless hf))
      exact List.mem_flatMap.mpr ⟨_, hm, source_mem_visit.mpr (.inr ⟨inner, ho, hin⟩)⟩

/-- The sources of a walk are those in the directory that it starts in, or the start itself. -/
theorem source_mem_survey : .source s ∈ d.survey names root ↔ ∃ spot, d.find .visit root = .ok spot ∧
    (spot.entry = some .directory ∧ d.Finds names spot.location root [] s ∨
      spot.entry ≠ none ∧ spot.entry ≠ some .directory ∧ s = root ∧
        (Path.fileName? root).getD root ∈ names) := by
  have hroot : .source s ∈ (if names.contains ((Path.fileName? root).getD root) then
      [Finding.source root] else []) ↔ s = root ∧ (Path.fileName? root).getD root ∈ names := by
    by_cases hn : (Path.fileName? root).getD root ∈ names <;> simp [hn]
  cases hf : d.find .visit root with
  | error fault => simp [survey, hf]
  | ok spot =>
    obtain ⟨loc, _ | (_ | content | target), named, slashed⟩ := spot
    · simp [survey, hf]
    · have hbelow : .source s ∈ d.surveyBelow names d.surveyDepth loc root [] ↔
          d.Finds names loc root [] s :=
        ⟨finds_of_mem_surveyBelow, fun h => h.mem_surveyBelow (d.depthFrom_le loc)⟩
      simpa [survey, hf] using hbelow
    · simpa [survey, hf] using hroot
    · simpa [survey, hf] using hroot

/-- A source is a name in a directory that names lead to. -/
theorem Finds.exists_below (hd : d.Named) (h : d.Finds names loc path around s) :
    ∃ dirs m, (∀ k ∈ dirs, Path.IsName k) ∧ Path.IsName m ∧
      s = Path.join (Path.below path dirs) m := by
  induction h with
  | @here loc path around n e hm hn hf => exact ⟨[], n, by simp, hd.isName hm, rfl⟩
  | @inside loc path around n e inner s hm ho h ih =>
    obtain ⟨dirs, m, hdirs, hn, hs⟩ := ih
    exact ⟨n :: dirs, m, List.forall_mem_cons.mpr ⟨hd.isName hm, hdirs⟩, hn, hs⟩

theorem join_below (path : String) (dirs : List String) (m : String) :
    Path.join (Path.below path dirs) m = Path.below path (dirs ++ [m]) := by
  rw [Path.below, Path.below, List.foldl_append]
  rfl

theorem forall_isName_concat {dirs : List String} {m : String} (hdirs : ∀ k ∈ dirs, Path.IsName k)
    (hm : Path.IsName m) : ∀ k ∈ dirs ++ [m], Path.IsName k := by
  intro k hk
  rcases List.mem_append.mp hk with hk | hk
  · exact hdirs k hk
  · exact List.mem_singleton.mp hk ▸ hm

theorem exists_below_of_survey (hd : d.Named) (h : .source s ∈ d.survey names root) :
    ∃ ns, (∀ k ∈ ns, Path.IsName k) ∧ s = Path.below root ns := by
  obtain ⟨spot, -, ⟨-, h⟩ | ⟨-, -, rfl, -⟩⟩ := source_mem_survey.mp h
  · obtain ⟨dirs, m, hdirs, hm, rfl⟩ := h.exists_below hd
    exact ⟨dirs ++ [m], forall_isName_concat hdirs hm, join_below root dirs m⟩
  · exact ⟨[], by simp, rfl⟩

theorem below_inj {ns ms : List String} (hns : ∀ m ∈ ns, Path.IsName m)
    (hms : ∀ m ∈ ms, Path.IsName m)
    (h : Path.parts (Path.below path ns) = Path.parts (Path.below path ms)) : ns = ms := by
  rw [Path.parts_below path hns, Path.parts_below path hms, List.append_right_inj] at h
  exact List.map_injective_iff.mpr (fun _ _ => PathPart.name.inj) h

/-- Sources of one walk are told apart by the parts of their paths. -/
theorem eq_of_parts_of_survey {t : String} (hd : d.Named) (hs : .source s ∈ d.survey names root)
    (ht : .source t ∈ d.survey names root) (h : Path.parts s = Path.parts t) : s = t := by
  obtain ⟨ns, hns, rfl⟩ := exists_below_of_survey hd hs
  obtain ⟨ms, hms, rfl⟩ := exists_below_of_survey hd ht
  rw [below_inj hns hms h]

theorem below_of_mem_visit (hd : d.Named) {fuel : Nat}
    (h : .source s ∈ d.visit names (d.surveyBelow names fuel) loc path around (n, e)) :
    ∃ ns, (∀ m ∈ ns, Path.IsName m) ∧ s = Path.below path (n :: ns) := by
  rcases source_mem_visit.mp h with ⟨rfl, -⟩ | ⟨inner, -, h⟩
  · exact ⟨[], by simp, rfl⟩
  · obtain ⟨dirs, m, hdirs, hm, rfl⟩ := (finds_of_mem_surveyBelow h).exists_below hd
    exact ⟨dirs ++ [m], forall_isName_concat hdirs hm, join_below _ dirs m⟩

theorem mem_filterMap_source {found : List Finding} :
    s ∈ found.filterMap Finding.source? ↔ .source s ∈ found := by
  rw [← mem_sources, Finding.sources, List.mem_mergeSort]

theorem sources_of_visit_nodup
    {inside : Location → String → List (Location × String) → List Finding}
    (h : ∀ loc path around, ((inside loc path around).filterMap Finding.source?).Nodup)
    (member : String × Entry) :
    ((d.visit names inside loc path around member).filterMap Finding.source?).Nodup := by
  have hfile : ∀ p : String, ((if names.contains p then [Finding.source (Path.join path p)]
      else []).filterMap Finding.source?).Nodup := by
    intro p
    split <;> simp [Finding.source?]
  unfold visit
  dsimp only
  split
  · exact hfile _
  · split
    · exact List.nodup_nil
    · exact h _ _ _
  · split
    · exact List.nodup_nil
    · exact List.nodup_nil
    · split
      · exact List.nodup_nil
      · split
        · exact List.nodup_nil
        · exact h _ _ _
    · exact hfile _

theorem Tidy.sources_below_nodup (h : d.Tidy) (fuel : Nat) (loc : Location) (path : String)
    (around : List (Location × String)) :
    ((d.surveyBelow names fuel loc path around).filterMap Finding.source?).Nodup := by
  induction fuel generalizing loc path around with
  | zero => exact List.nodup_nil
  | succ fuel ih =>
    rw [surveyBelow, List.filterMap_flatMap, List.nodup_flatMap]
    refine ⟨fun member _ => sources_of_visit_nodup ih member, ?_⟩
    refine (h.members_apart loc).imp_of_mem fun {x y} hx hy hne => ?_
    intro s hs hs'
    rw [mem_filterMap_source] at hs hs'
    obtain ⟨ns, hns, rfl⟩ := below_of_mem_visit h.named hs
    obtain ⟨ms, hms, he⟩ := below_of_mem_visit h.named hs'
    have hnames := below_inj (List.forall_mem_cons.mpr ⟨h.named.isName hx, hns⟩)
      (List.forall_mem_cons.mpr ⟨h.named.isName hy, hms⟩) (congrArg Path.parts he)
    exact hne (List.cons.inj hnames).1

/-- No source is found twice. -/
theorem Tidy.sources_nodup (h : d.Tidy) (names : List String) (root : String) :
    ((d.survey names root).filterMap Finding.source?).Nodup := by
  unfold survey
  split
  · exact List.nodup_nil
  · exact List.nodup_nil
  · exact h.sources_below_nodup _ _ _ _
  · split <;> simp [Finding.source?]

end Disk

end NavTree
