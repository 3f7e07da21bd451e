import NavTree.Files.Discovery
import NavTree.Proofs.Files.Beside

/-! # What a walk finds

The path of a source that is found in a directory leads from the root through the names of
directories and links to a name that is looked for.
-/
namespace NavTree

/-- What is in directories has names. -/
def Disk.Named (d : Disk) : Prop := ∀ x ∈ d.entries, ∀ n ∈ x.1.head?, Path.IsName n

namespace Path

/-- A path that leads through directories from a root. -/
def below (root : String) (dirs : List String) : String := dirs.foldl join root

theorem parts_below (root : String) {dirs : List String} (h : ∀ n ∈ dirs, IsName n) :
    parts (below root dirs) = parts root ++ dirs.map .name := by
  induction dirs generalizing root with
  | nil => simp [below]
  | cons n dirs ih =>
    have hn := ih (join root n) fun m hm => h m (List.mem_cons_of_mem _ hm)
    rw [below] at hn
    rw [below, List.foldl_cons, hn, parts_join root (h n List.mem_cons_self), List.append_assoc]
    rfl

end Path

namespace Disk

variable {d : Disk} {names : List String} {root s : String}

theorem Named.isName (hd : d.Named) {loc : Location} {n : String} {e : Entry}
    (h : (n, e) ∈ d.members loc) : Path.IsName n := by
  obtain ⟨⟨l, e'⟩, hx, h⟩ := List.mem_filterMap.mp h
  cases l with
  | nil => simp at h
  | cons m outer =>
    simp only [Option.ite_none_right_eq_some, Option.some.injEq, Prod.mk.injEq] at h
    exact hd _ hx n (by simp [h.2.1])

/-- A name stands for a file, or for a link that leads to one. -/
inductive OffersFile (d : Disk) (loc : Location) (n : String) : Entry → Prop
  | file {content} : OffersFile d loc n (.file content)
  | link {target spot} (he : d.enter loc n = .ok spot) (hn : spot.entry ≠ none)
    (hd : spot.entry ≠ some .directory) : OffersFile d loc n (.link target)

/-- A walk goes on into the directory behind a name, unless a link leads back. -/
inductive Opens (d : Disk) (around : List (Location × String)) (loc : Location) (n : String) :
    Entry → Location → Prop
  | directory (hs : isSourceless n = false) : Opens d around loc n .directory (n :: loc)
  | link {target spot} (he : d.enter loc n = .ok spot) (hd : spot.entry = some .directory)
    (hfree : around.lookup spot.location = none) (hs : isSourceless n = false) :
    Opens d around loc n (.link target) spot.location

/-- The sources of a walk through a directory. -/
inductive Finds (d : Disk) (names : List String) :
    Location → String → List (Location × String) → String → Prop
  | here {loc path around n e} (hm : (n, e) ∈ d.members loc) (hn : n ∈ names)
    (hf : d.OffersFile loc n e) : Finds d names loc path around (Path.join path n)
  | inside {loc path around n e inner s} (hm : (n, e) ∈ d.members loc)
    (ho : d.Opens ((loc, path) :: around) loc n e inner)
    (h : Finds d names inner (Path.join path n) ((loc, path) :: around) s) :
    Finds d names loc path around s

variable {loc : Location} {path n : String} {around : List (Location × String)} {e : Entry}

/-- A source that a walk finds at a name is the name itself, or it is inside. -/
theorem source_mem_visit {inside : Location → String → List (Location × String) → List Finding} :
    .source s ∈ d.visit names inside loc path around (n, e) ↔
      s = Path.join path n ∧ n ∈ names ∧ d.OffersFile loc n e ∨
      ∃ inner, d.Opens ((loc, path) :: around) loc n e inner ∧
        .source s ∈ inside inner (Path.join path n) ((loc, path) :: around) := by
  have hfile : .source s ∈ (if names.contains n then [Finding.source (Path.join path n)] else []) ↔
      s = Path.join path n ∧ n ∈ names := by
    by_cases hn : n ∈ names <;> simp [hn]
  constructor
  · intro h
    cases e with
    | file content =>
      obtain ⟨hs, hn⟩ := hfile.mp h
      exact .inl ⟨hs, hn, .file⟩
    | directory =>
      simp only [visit] at h
      split at h
      · simp at h
      · next hs => exact .inr ⟨_, .directory (by simpa using hs), h⟩
    | link target =>
      simp only [visit] at h
      split at h
      · simp at h
      · simp at h
      · next inner named slashed he =>
        split at h
        · simp at h
        · next hfree =>
          split at h
          · simp at h
          · next hs => exact .inr ⟨inner, .link he rfl hfree (by simpa using hs), h⟩
      · next spot hnone hdir he =>
        obtain ⟨hs, hn⟩ := hfile.mp h
        refine .inl ⟨hs, hn, .link he (fun hne => ?_) fun hde => ?_⟩
        · exact hnone spot.location spot.named spot.slashed (by rw [← hne])
        · exact hdir spot.location spot.named spot.slashed (by rw [← hde])
  · rintro (⟨hs, hn, hf⟩ | ⟨inner, ho, h⟩)
    · have hin := hfile.mpr ⟨hs, hn⟩
      cases hf with
      | file => exact hin
      | @link target spot he hne hd =>
        obtain ⟨location, _ | (_ | content | target'), named, slashed⟩ := spot
        · exact absurd rfl hne
        · exact absurd rfl hd
        · simp only [visit, he]
          exact hin
        · simp only [visit, he]
          exact hin
    · cases ho with
      | directory hs => simpa [visit, hs] using h
      | @link target spot he hd hfree hs =>
        obtain ⟨location, entry, named, slashed⟩ := spot
        obtain rfl : entry = some .directory := hd
        simpa [visit, he, hfree, hs] using h

theorem finds_of_mem_surveyBelow {fuel : Nat}
    (h : .source s ∈ d.surveyBelow names fuel loc path around) :
    d.Finds names loc path around s := by
  induction fuel generalizing loc path around with
  | zero => simp [surveyBelow] at h
  | succ fuel ih =>
    obtain ⟨⟨n, e⟩, hm, h⟩ := List.mem_flatMap.mp h
    rcases source_mem_visit.mp h with ⟨rfl, hn, hf⟩ | ⟨inner, ho, h⟩
    · exact .here hm hn hf
    · exact .inside hm ho (ih h)

/-- A source of a walk that starts at a path. -/
def IsBelow (names : List String) (path s : String) : Prop :=
  ∃ dirs n, (∀ m ∈ dirs, Path.IsName m) ∧ n ∈ names ∧ s = Path.join (Path.below path dirs) n

theorem Finds.isBelow (hd : d.Named) (h : d.Finds names loc path around s) :
    IsBelow names path s := by
  induction h with
  | @here loc path around n e hm hn hf => exact ⟨[], n, by simp, hn, rfl⟩
  | @inside loc path around n e inner s hm ho h ih =>
    obtain ⟨dirs, m, hdirs, hn, hs⟩ := ih
    exact ⟨n :: dirs, m, List.forall_mem_cons.mpr ⟨hd.isName hm, hdirs⟩, hn, hs⟩

/-- A source that is not the root is below it. -/
theorem isBelow_of_survey (hd : d.Named) (h : .source s ∈ d.survey names root) :
    d.survey names root = [.source root] ∨ root ≠ "" ∧ IsBelow names root s := by
  cases hf : d.find .visit root with
  | error fault => simp [survey, hf] at h
  | ok spot =>
    have hroot : root ≠ "" := by
      rintro rfl
      simp [find, hasZeroByte] at hf
    obtain ⟨loc, entry, named, slashed⟩ := spot
    rw [survey, hf] at h ⊢
    rcases entry with _ | (_ | content | target)
    · simp at h
    · exact .inr ⟨hroot, (finds_of_mem_surveyBelow h).isBelow hd⟩
    all_goals
      simp only at h ⊢
      split at h
      · next hc => exact .inl (if_pos hc)
      · simp at h

end Disk

theorem mem_sources {found : List Finding} {s : String} :
    s ∈ Finding.sources found ↔ .source s ∈ found := by
  rw [Finding.sources, List.mem_mergeSort, List.mem_filterMap]
  constructor
  · rintro ⟨_ | _ | _, hx, hs⟩
    · cases hs
      exact hx
    · cases hs
    · cases hs
  · exact fun h => ⟨_, h, rfl⟩

end NavTree
