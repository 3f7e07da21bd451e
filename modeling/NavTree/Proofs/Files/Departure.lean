import NavTree.Proofs.Files.Place

/-! # Departures

A path that cannot be read may be readable once directories are made: a link can lead through a
missing directory and out of it again. Where no way leaves a place that is missing, a file that is
read afterwards was read before.
-/
namespace NavTree.Disk

/-- Every entry stands in a directory. -/
def IsTree (d : Disk) : Prop :=
  ∀ {name : String} {loc : Location}, d.at? (name :: loc) ≠ none → d.at? loc = some .directory

/-- The places that steps from a directory leave for somewhere that is not inside of them. As on a
way, what is no link is taken for a directory, and a link is left to `jump`. -/
def leave (d : Disk) (jump : Location → List PathPart → List Location) :
    Location → List PathPart → List Location
  | _, [] => []
  | loc, .root :: rest => loc :: d.leave jump ["/"] rest
  | loc, .here :: rest => d.leave jump loc rest
  | loc, .up :: rest => loc :: d.leave jump (outward loc) rest
  | loc, .name s :: rest =>
    match d.at? (s :: loc) with
    | some (.link target) => jump loc (Path.steps target ++ rest)
    | _ => d.leave jump (s :: loc) rest

def departures (d : Disk) : Nat → Location → List PathPart → List Location
  | 0 => fun _ _ => []
  | budget + 1 => d.leave (d.departures budget)

/-- The places that the course of a path leaves for somewhere that is not inside of them. -/
def left (d : Disk) (p : String) : List Location :=
  d.departures (linkBudget + 1) [] (Path.steps p)

variable {d old : Disk} {b : Nat} {loc : Location} {parts : List PathPart} {slashed : Bool}
  {spot : Spot} {content content' : ByteArray} {p n : String}

theorem IsTree.none_of_missing (h : IsTree d) (hn : d.at? loc = none) (name : String) :
    d.at? (name :: loc) = none := by
  by_contra he
  rw [h he] at hn
  cases hn

theorem at?_outward (h : IsTree d) (hd : d.at? loc = some .directory) :
    d.at? (outward loc) = some .directory := by
  unfold outward
  split
  · exact hd
  · split
    · next ho =>
      rw [at?, if_pos]
      simpa [isOuter] using ho
    · cases loc with
      | nil => exact hd
      | cons name loc =>
        have hn : d.at? (name :: loc) ≠ none := by simp [hd]
        exact h hn

theorem isTree_of_entries (h : ∀ x ∈ d.entries, d.at? x.1.tail = some .directory) : IsTree d := by
  intro name loc he
  by_cases ho : isOuter (name :: loc) = true
  · have hloc : isOuter loc = true := by
      rw [isOuter, List.all_cons, Bool.and_eq_true] at ho
      exact ho.2
    rw [at?, if_pos hloc]
  · rw [at?, if_neg ho] at he
    obtain ⟨e, hlookup⟩ := Option.ne_none_iff_exists'.mp he
    obtain ⟨front, tail, hs, -⟩ := List.lookup_eq_some_iff.mp hlookup
    exact h (name :: loc, e) (by simp [hs])

theorem way_name (rest : List PathPart) (h : ∀ target, d.at? (n :: loc) ≠ some (.link target)) :
    d.way (b + 1) loc (.name n :: rest) = d.way (b + 1) (n :: loc) rest ∧
      d.departures (b + 1) loc (.name n :: rest) = d.departures (b + 1) (n :: loc) rest := by
  rw [way, follow, departures, leave]
  constructor
  · split
    · next target he => exact absurd he (h target)
    · rfl
  · split
    · next target he => exact absurd he (h target)
    · rfl

theorem way_name_link {target : String} (rest : List PathPart)
    (h : d.at? (n :: loc) = some (.link target)) :
    d.way (b + 1) loc (.name n :: rest) =
        ⟨(d.way b loc (Path.steps target ++ rest)).finish,
          (n :: loc) :: (d.way b loc (Path.steps target ++ rest)).links⟩ ∧
      d.departures (b + 1) loc (.name n :: rest) =
        d.departures b loc (Path.steps target ++ rest) := by
  rw [way, follow, departures, leave, h]
  exact ⟨rfl, rfl⟩

/-- Steps that led to a file: on their way links stay links, and no place that is missing is left. -/
structure Retraces (old d : Disk) (b : Nat) (loc : Location) (parts : List PathPart)
    (content : ByteArray) : Prop where
  links : ∀ l ∈ (old.way b loc parts).links, ∀ target,
    old.at? l = some (.link target) → d.at? l = some (.link target)
  finish : old.at? (old.way b loc parts).finish = some (.file content)
  left : ∀ l ∈ old.departures b loc parts, old.at? l ≠ none

namespace Retraces

theorem root (h : Retraces old d (b + 1) loc (.root :: parts) content) :
    old.at? loc ≠ none ∧ Retraces old d (b + 1) ["/"] parts content :=
  ⟨h.left loc List.mem_cons_self,
    h.links, h.finish, fun l hl => h.left l (List.mem_cons_of_mem _ hl)⟩

theorem up (h : Retraces old d (b + 1) loc (.up :: parts) content) :
    old.at? loc ≠ none ∧ Retraces old d (b + 1) (outward loc) parts content :=
  ⟨h.left loc List.mem_cons_self,
    h.links, h.finish, fun l hl => h.left l (List.mem_cons_of_mem _ hl)⟩

theorem name (h : Retraces old d (b + 1) loc (.name n :: parts) content)
    (hn : ∀ target, old.at? (n :: loc) ≠ some (.link target)) :
    Retraces old d (b + 1) (n :: loc) parts content := by
  obtain ⟨hway, hdep⟩ := way_name (b := b) parts hn
  exact ⟨hway ▸ h.links, hway ▸ h.finish, hdep ▸ h.left⟩

theorem link {target : String} (h : Retraces old d (b + 1) loc (.name n :: parts) content)
    (hl : old.at? (n :: loc) = some (.link target)) :
    d.at? (n :: loc) = some (.link target) ∧
      Retraces old d b loc (Path.steps target ++ parts) content := by
  obtain ⟨hlinks, hfinish, hleft⟩ := h
  obtain ⟨hway, hdep⟩ := way_name_link (b := b) parts hl
  rw [hway] at hlinks hfinish
  rw [hdep] at hleft
  obtain ⟨hlink, hlinks⟩ := List.forall_mem_cons.mp hlinks
  exact ⟨hlink target hl, hlinks, hfinish, hleft⟩

end Retraces

/-- From a place that was missing one does not get to a file that was there without leaving. -/
theorem not_file_of_missing (htree : old.IsTree) (ho : Over old d)
    (h : d.resolve .visit (b + 1) loc ⟨parts, slashed⟩ = .ok spot)
    (hs : spot.entry = some (.file content)) (hloc : old.at? loc = none)
    (hr : Retraces old d (b + 1) loc (parts.filter (· ≠ .here)) content') : False := by
  induction parts generalizing loc with
  | nil =>
    cases h
    cases hs
  | cons part rest ih =>
    cases part with
    | root => exact hr.root.1 hloc
    | here => exact ih h hloc hr
    | up => exact hr.up.1 hloc
    | name s =>
      have hin := htree.none_of_missing hloc s
      have hnl : ∀ target, old.at? (s :: loc) ≠ some (.link target) := by simp [hin]
      rw [List.filter_cons_of_pos (by simp)] at hr
      have hr := hr.name hnl
      by_cases hrest : rest = []
      · subst hrest
        have hfile : old.at? (s :: loc) = some (.file content') := hr.finish
        rw [hin] at hfile
        cases hfile
      · rw [resolve_name hrest] at h
        split at h
        · cases h
        cases he : d.at? (s :: loc) with
        | none => simp [he] at h
        | some e =>
          simp only [he] at h
          cases e with
          | directory => exact ih h hin hr
          | file c => cases h
          | link target => exact hnl target (ho.link he)

theorem endAt_before (ho : Over old d)
    (hlink : ∀ {target}, old.at? (n :: loc) = some (.link target) →
      d.at? (n :: loc) = some (.link target))
    (hfile : (∀ target, old.at? (n :: loc) ≠ some (.link target)) →
      old.at? (n :: loc) = some (.file content))
    (hjump : ∀ {target slashed'}, d.at? (n :: loc) = some (.link target) →
      d.resolve .visit b loc ⟨(Path.route target).parts, slashed'⟩ = .ok spot →
      old.resolve .visit b loc ⟨(Path.route target).parts, slashed'⟩ = .ok spot)
    (h : d.endAt .visit slashed (d.resolve .visit b) loc n = .ok spot)
    (hs : spot.entry = some (.file content)) :
    old.endAt .visit slashed (old.resolve .visit b) loc n = .ok spot := by
  by_cases hd : ∃ target, d.at? (n :: loc) = some (.link target)
  · obtain ⟨target, he⟩ := hd
    rw [endAt_link he] at h
    rw [endAt_link (ho.link he)]
    exact hjump he h
  · have hnd : ∀ target, d.at? (n :: loc) ≠ some (.link target) := fun target he => hd ⟨target, he⟩
    have hnl : ∀ target, old.at? (n :: loc) ≠ some (.link target) :=
      fun target he => hnd target (hlink he)
    obtain ⟨rfl, hat⟩ := endAt_file hnd h hs
    rw [endAt_of_not_link hnd, hat] at h
    rw [endAt_of_not_link hnl, hfile hnl, h]

/-- A lookup that comes to a file where the way ended before found it before as well. -/
theorem resolve_before (htree : old.IsTree) (ho : Over old d)
    (h : d.resolve .visit (b + 1) loc ⟨parts, slashed⟩ = .ok spot)
    (hs : spot.entry = some (.file content)) (hloc : old.at? loc = some .directory)
    (hr : Retraces old d (b + 1) loc (parts.filter (· ≠ .here)) content) :
    old.resolve .visit (b + 1) loc ⟨parts, slashed⟩ = .ok spot := by
  -- Links are followed with a smaller budget; before that, the steps get fewer.
  induction b using Nat.strong_induction_on generalizing loc parts slashed with
  | _ b ihb =>
    induction parts generalizing loc with
    | nil => exact h
    | cons part rest ih =>
      cases part with
      | root => exact ih h rfl hr.root.2
      | here => exact ih h hloc hr
      | up => exact ih h (at?_outward htree hloc) hr.up.2
      | name s =>
        rw [List.filter_cons_of_pos (by simp)] at hr
        have hjump : ∀ {target slashed'}, d.at? (s :: loc) = some (.link target) →
            d.resolve .visit b loc ⟨(Path.route target).parts ++ rest, slashed'⟩ = .ok spot →
            old.resolve .visit b loc ⟨(Path.route target).parts ++ rest, slashed'⟩ = .ok spot := by
          intro target slashed' hl ht
          have hbehind := (hr.link (ho.link hl)).2
          rw [Path.steps, ← List.filter_append] at hbehind
          cases b with
          | zero => cases ht
          | succ b => exact ihb b (Nat.lt_succ_self b) ht hloc hbehind
        by_cases hrest : rest = []
        · subst hrest
          simp only [List.append_nil] at hjump
          rw [resolve_last] at h ⊢
          split at h
          · cases h
          next hshort =>
          rw [if_neg hshort]
          exact endAt_before ho (fun hl => (hr.link hl).1) (fun hnl => (hr.name hnl).finish) hjump h
            hs
        · rw [resolve_name hrest] at h ⊢
          split at h
          · cases h
          next hshort =>
          rw [if_neg hshort]
          cases he : d.at? (s :: loc) with
          | none => simp [he] at h
          | some e =>
            simp only [he] at h
            cases e with
            | file c => cases h
            | link target =>
              rw [ho.link he]
              exact hjump he h
            | directory =>
              have hinside := hr.name fun target hl => by simp [(hr.link hl).1] at he
              rcases ho.directory he with hold | hmissing
              · rw [hold]
                exact ih h hold hinside
              · exact (not_file_of_missing htree ho h hs hmissing hinside).elim

/-- A file that is read where the way of the path ended before was read before as well. -/
theorem read_before (htree : old.IsTree) (ho : Over old d) (h : d.read p = .ok content)
    (hk : ∀ l ∈ (old.course p).links, ∀ target,
      old.at? l = some (.link target) → d.at? l = some (.link target))
    (hfin : old.at? (old.course p).finish = some (.file content))
    (hleft : ∀ l ∈ old.left p, old.at? l ≠ none) : old.read p = .ok content := by
  obtain ⟨spot, hf, hs⟩ := read_eq_ok.mp h
  obtain ⟨hfit, hr⟩ := find_eq_ok.mp hf
  have hr := resolve_before htree ho hr hs rfl ⟨hk, hfin, hleft⟩
  exact read_eq_ok.mpr ⟨spot, find_eq_ok.mpr ⟨hfit, hr⟩, hs⟩

end NavTree.Disk
