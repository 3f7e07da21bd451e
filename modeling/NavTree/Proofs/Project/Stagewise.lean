import Mathlib.Data.List.Nodup
import Mathlib.Logic.Function.Basic
import NavTree.Proofs.Project.Reaches

/-! # Installations file by file

How far an installation has come is told file by file. What is known of the disk for each state of
the files is carried through the loops of staging and committing, if every file operation carries it
along as it takes one file to its next state.
-/
namespace NavTree

namespace Rendered

/-- The place of the file before anything was installed. -/
def place (old : Disk) (f : Rendered) : Location := old.place f.path

/-- The place where its text waits. -/
def waitingPlace (old : Disk) (f : Rendered) : Location := old.place (temporaryPath f.path)

end Rendered

/-- How far a file has come. What waited of an aborted file is discarded, as far as it can be. -/
inductive Status where
  | untouched | skipped | waiting | installed | aborted
deriving DecidableEq

namespace Status

def staged? (f : Rendered) : Status → Option Staged
  | waiting => some ⟨temporaryPath f.path, f.path⟩
  | _ => none

/-- Nothing is left to be done for the file. -/
def IsDone (st : Status) : Prop := st = skipped ∨ st = installed

/-- All that is to be done for the file is to commit it, if anything. -/
def IsStaged (st : Status) : Prop := st = skipped ∨ st = waiting

/-- The file is not installed, and nothing waits to be. -/
def IsIdle (st : Status) : Prop := st ≠ waiting ∧ st ≠ installed

end Status

variable {files done rest : List Rendered} {f : Rendered} {s s' : Rendered → Status} {st : Status}

/-- What is staged of a file. -/
def entry (s : Rendered → Status) (f : Rendered) : String × Option Staged :=
  (f.path, (s f).staged? f)

/-- What is reported of a file in the end. -/
def outcome (s : Rendered → Status) (f : Rendered) : String × WriteOutcome :=
  (f.path, if s f = .skipped then .unchanged else .written)

theorem entry_eq_none : (entry s f).2 = none ↔ s f ≠ .waiting := by
  rw [entry]
  cases s f <;> simp [Status.staged?]

theorem entry_eq_some {w : Staged} :
    (entry s f).2 = some w ↔ s f = .waiting ∧ w = ⟨temporaryPath f.path, f.path⟩ := by
  rw [entry]
  cases s f <;> simp [Status.staged?, eq_comm]

theorem update_of_mem {l : List Rendered} (hf : f ∉ l) : ∀ g ∈ l, Function.update s f st g = s g :=
  fun _ hg => Function.update_of_ne (ne_of_mem_of_not_mem hg hf) st s

theorem map_entry_update {l : List Rendered} (hf : f ∉ l) :
    l.map (entry (Function.update s f st)) = l.map (entry s) :=
  List.map_congr_left fun g hg => by rw [entry, entry, update_of_mem hf g hg]

theorem forall_concat_update {P : Status → Prop} {l : List Rendered} (hf : f ∉ l)
    (h : ∀ g ∈ l, P (s g)) (hst : P st) : ∀ g ∈ l ++ [f], P (Function.update s f st g) := by
  intro g hg
  rcases List.mem_append.mp hg with hg | hg
  · rw [update_of_mem hf g hg]
    exact h g hg
  · rw [List.mem_singleton.mp hg, Function.update_self]
    exact hst

/-- Where some files come before a file and some behind it, all are different. -/
theorem nodup_split (h : files.Nodup) (hfiles : files = done ++ f :: rest) :
    f ∈ files ∧ f ∉ done ∧ f ∉ rest ∧ done.Nodup ∧ rest.Nodup ∧ ∀ g ∈ done, g ∉ rest := by
  rw [hfiles] at h
  obtain ⟨hnd, hnr, hdisj⟩ := List.nodup_append.mp h
  obtain ⟨hfr, hnr⟩ := List.nodup_cons.mp hnr
  refine ⟨by simp [hfiles], fun hm => hdisj f hm f List.mem_cons_self rfl, hfr, hnd, hnr, ?_⟩
  intro g hg hm
  exact hdisj g hg g (List.mem_cons_of_mem _ hm) rfl

/-- The states of the files once what waits of some of them is discarded. -/
def discarded (l : List Rendered) (s : Rendered → Status) (f : Rendered) : Status :=
  if f ∈ l ∧ s f = .waiting then .aborted else s f

theorem discarded_of_notMem {l : List Rendered} (h : f ∉ l) : discarded l s f = s f :=
  if_neg fun hm => h hm.1

theorem discarded_isIdle {l : List Rendered} (h : f ∈ l) (hs : s f ≠ .installed) :
    (discarded l s f).IsIdle := by
  unfold discarded Status.IsIdle
  grind

theorem discarded_concat_of_ne {l : List Rendered} (h : s f ≠ .waiting) :
    discarded (l ++ [f]) s = discarded l s := by
  funext g
  simp only [discarded, List.mem_append, List.mem_singleton]
  grind

theorem update_discarded {l : List Rendered} (h : s f = .waiting) :
    Function.update (discarded l s) f .aborted = discarded (l ++ [f]) s := by
  funext g
  simp only [discarded, Function.update_apply, List.mem_append, List.mem_singleton]
  grind

namespace Job

/-- What is known of the states of different files and of the disk is known after each operation on
one of them. Files are staged before any is installed. -/
structure Stagewise (station : Station) (files : List Rendered)
    (inv : (Rendered → Status) → Disk → Prop) : Prop where
  nodup : files.Nodup
  stage : ∀ {s d f}, f ∈ files → s f = .untouched → (∀ g ∈ files, s g ≠ .installed) → inv s d →
    (stage f.path f.content).Reaches station d
      (fun staged new => ∃ st : Status, st.IsStaged ∧ staged = st.staged? f ∧
        inv (Function.update s f st) new)
      fun _ new => inv (Function.update s f .aborted) new
  install : ∀ {s d new f}, f ∈ files → s f = .waiting → inv s d →
    d.rename (temporaryPath f.path) f.path = .ok new → inv (Function.update s f .installed) new
  discard : ∀ {s d f}, f ∈ files → s f = .waiting → inv s d →
    inv (Function.update s f .aborted) (attempted d (d.remove (temporaryPath f.path))).2

/-- The file behind a number of files that are done cannot be moved to its place. -/
def StuckBehind (files : List Rendered) (inv : (Rendered → Status) → Disk → Prop) (k : Nat)
    (fault : ProjectFault) : Prop :=
  ∃ f cause s d, files[k]? = some f ∧ inv s d ∧ (∀ g ∈ files.take k, (s g).IsDone) ∧
    (∀ g ∈ files.drop k, s g ≠ .installed) ∧
    d.rename (temporaryPath f.path) f.path = .error cause ∧ fault = .file f.path cause

namespace Stagewise

variable {station : Station} {d new : Disk} {inv : (Rendered → Status) → Disk → Prop}
  (h : Stagewise station files inv)
include h

/-- Discarding what is staged of some files aborts those that wait. -/
theorem discardAll {l : List Rendered} (hinv : inv s d) (hl : ∀ f ∈ l, f ∈ files) (hn : l.Nodup) :
    inv (discarded l s) ((discardAll (l.map fun f => (entry s f).2)).ends station d).2 := by
  refine discardAll_rule (fun done _ d => inv (discarded done s) d) ?_ ?_ ?_
  · intro done f rest d _ hf hinv
    rw [discarded_concat_of_ne (entry_eq_none.mp hf)]
    exact hinv
  · intro done f w rest d hsplit hf hinv
    obtain ⟨hs, rfl⟩ := entry_eq_some.mp hf
    obtain ⟨hm, hdone, -⟩ := nodup_split hn hsplit
    rw [← update_discarded hs]
    exact h.discard (hl f hm) ((discarded_of_notMem hdone).trans hs) hinv
  · have hnone : discarded [] s = s := funext fun f => discarded_of_notMem List.not_mem_nil
    rw [hnone]
    exact hinv

/-- When a file cannot be staged, those before it are aborted. -/
theorem abortStaging (hfiles : files = done ++ f :: rest) (hdone : ∀ g ∈ done, (s g).IsStaged)
    (hrest : ∀ g ∈ rest, s g = .untouched) (hinv : inv (Function.update s f .aborted) new) :
    ∃ s', (∀ g ∈ files, (s' g).IsIdle) ∧
      inv s' ((Job.discardAll (done.map fun g => (entry s g).2)).ends station new).2 := by
  obtain ⟨-, hfd, hfr, hnd, -, -⟩ := nodup_split h.nodup hfiles
  have hentries : (done.map fun g => (entry s g).2) =
      done.map fun g => (entry (Function.update s f .aborted) g).2 :=
    List.map_congr_left fun g hg => by rw [entry, entry, update_of_mem hfd g hg]
  rw [hentries]
  refine ⟨_, fun g hg => ?_, h.discardAll hinv
    (fun g hg => hfiles ▸ List.mem_append_left _ hg) hnd⟩
  rw [hfiles, List.mem_append, List.mem_cons] at hg
  rcases hg with hg | rfl | hg
  · refine discarded_isIdle hg ?_
    rw [update_of_mem hfd g hg]
    rcases hdone g hg with hs | hs <;> simp [hs]
  · rw [discarded_of_notMem hfd, Function.update_self]
    exact ⟨by simp, by simp⟩
  · by_cases hgd : g ∈ done
    · refine discarded_isIdle hgd ?_
      simp [update_of_mem hfr g hg, hrest g hg]
    · rw [discarded_of_notMem hgd, update_of_mem hfr g hg, hrest g hg]
      exact ⟨by simp, by simp⟩

/-- All files are staged, or nothing is left waiting. -/
theorem stageAll (hinv : inv (fun _ => .untouched) d) :
    (stageAll [] files).Reaches station d
      (fun staged new => ∃ s, staged = files.map (entry s) ∧ (∀ f ∈ files, (s f).IsStaged) ∧
        inv s new)
      fun _ new => ∃ s, (∀ f ∈ files, (s f).IsIdle) ∧ inv s new := by
  refine (stageAll_rule (fun done rest staged d => ∃ s, staged = done.map (entry s) ∧
    inv s d ∧ (∀ f ∈ done, (s f).IsStaged) ∧ ∀ f ∈ rest, s f = .untouched) ?_ ?_).mono ?_
    fun _ _ => id
  · rintro done f rest _ d hfiles ⟨s, rfl, hinv, hdone, hrest⟩
    obtain ⟨hf, hfd, hfr, -, -, -⟩ := nodup_split h.nodup hfiles
    obtain ⟨hs, hrest⟩ := List.forall_mem_cons.mp hrest
    have hnone : ∀ g ∈ files, s g ≠ .installed := by
      rw [hfiles]
      refine List.forall_mem_append.mpr ⟨fun g hg => ?_, List.forall_mem_cons.mpr ⟨by simp [hs],
        fun g hg => by simp [hrest g hg]⟩⟩
      rcases hdone g hg with hs | hs <;> simp [hs]
    refine (h.stage hf hs hnone hinv).mono ?_ ?_
    · rintro _ new ⟨st, hst, rfl, hinv'⟩
      refine ⟨Function.update s f st, ?_, hinv', forall_concat_update hfd hdone hst, ?_⟩
      · rw [List.map_append, map_entry_update hfd, List.map_singleton, entry, Function.update_self]
      · exact fun g hg => (update_of_mem hfr g hg).trans (hrest g hg)
    · intro fault new hinv'
      rw [List.map_map]
      exact h.abortStaging hfiles hdone hrest hinv'
  · exact ⟨fun _ => .untouched, rfl, hinv, by simp, by simp⟩
  · rintro _ new ⟨s, rfl, hinv', hdone, -⟩
    exact ⟨s, rfl, hdone, hinv'⟩

/-- When a file cannot be committed, it and those behind it are aborted. -/
theorem abort {staged : Rendered → Status} (hfiles : files = done ++ f :: rest)
    (hdone : ∀ g ∈ done, (s g).IsDone) (hrest : ∀ g ∈ rest, s g = staged g)
    (hstaged : ∀ g ∈ files, (staged g).IsStaged) (hinv : inv (Function.update s f .aborted) new) :
    ∃ s', (∀ g ∈ done, (s' g).IsDone) ∧ (∀ g ∈ f :: rest, (s' g).IsIdle) ∧
      inv s' ((Job.discardAll (rest.map fun g => (entry staged g).2)).ends station new).2 := by
  obtain ⟨_, hfd, hfr, _, hnr, hdisj⟩ := nodup_split h.nodup hfiles
  have hentries : (rest.map fun g => (entry staged g).2) =
      rest.map fun g => (entry (Function.update s f .aborted) g).2 := by
    refine List.map_congr_left fun g hg => ?_
    rw [entry, entry, update_of_mem hfr g hg, hrest g hg]
  rw [hentries]
  refine ⟨_, fun g hg => ?_, List.forall_mem_cons.mpr ⟨?_, fun g hg => discarded_isIdle hg ?_⟩,
    h.discardAll hinv (fun g hg => hfiles ▸ List.mem_append_right _ (List.mem_cons_of_mem _ hg)) hnr⟩
  · rw [discarded_of_notMem (hdisj g hg), update_of_mem hfd g hg]
    exact hdone g hg
  · rw [discarded_of_notMem hfr, Function.update_self]
    exact ⟨by simp, by simp⟩
  · rw [update_of_mem hfr g hg, hrest g hg]
    rcases hstaged g (by simp [hfiles, hg]) with hs | hs <;> simp [hs]

/-- All files are done, or those before one that cannot be moved to its place. -/
theorem commitAll {staged : Rendered → Status} (hstaged : ∀ f ∈ files, (staged f).IsStaged)
    (hinv : inv staged d) : (commitAll (files.map (entry staged))).Reaches station d
      (fun outcomes new => ∃ s, outcomes = files.map (outcome s) ∧ (∀ f ∈ files, (s f).IsDone) ∧
        inv s new)
      fun fault new => ∃ k s, StuckBehind files inv k fault ∧ k ≤ files.length ∧
        (∀ f ∈ files.take k, (s f).IsDone) ∧ (∀ f ∈ files.drop k, (s f).IsIdle) ∧ inv s new := by
  refine (commitAll_rule (fun done rest d => ∃ s, inv s d ∧ (∀ f ∈ done, (s f).IsDone) ∧
    (∀ f ∈ rest, s f = staged f) ∧ ∀ f, s f = .skipped ↔ staged f = .skipped) ?_ ?_ ?_).mono ?_
    fun _ _ => id
  · rintro done f rest d hfiles hnone ⟨s, hinv, hdone, hrest, hskip⟩
    obtain ⟨-, hrest⟩ := List.forall_mem_cons.mp hrest
    have hf : s f = .skipped :=
      (hskip f).mpr ((hstaged f (by simp [hfiles])).resolve_right (entry_eq_none.mp hnone))
    exact ⟨s, hinv, List.forall_mem_append.mpr ⟨hdone, by simp [hf, Status.IsDone]⟩, hrest, hskip⟩
  · rintro done f w rest d hfiles hsome ⟨s, hinv, hdone, hrest, hskip⟩
    obtain ⟨hwaits, rfl⟩ := entry_eq_some.mp hsome
    obtain ⟨hf, hfd, hfr, _, _, _⟩ := nodup_split h.nodup hfiles
    obtain ⟨hs, hrest⟩ := List.forall_mem_cons.mp hrest
    rw [hwaits] at hs
    refine commit_rule (fun {new} hr => ?_) fun {cause} hr => ?_
    · refine ⟨_, h.install hf hs hinv hr, forall_concat_update hfd hdone (.inr rfl),
        fun g hg => (update_of_mem hfr g hg).trans (hrest g hg), fun g => ?_⟩
      by_cases hg : g = f
      · simp [hg, hwaits]
      · rw [Function.update_of_ne hg, hskip]
    · obtain ⟨s', hdone', hidle, hinv'⟩ := h.abort hfiles hdone hrest hstaged (h.discard hf hs hinv)
      have hwait : ∀ g ∈ f :: rest, s g ≠ .installed := by
        refine List.forall_mem_cons.mpr ⟨by simp [hs], fun g hg => ?_⟩
        rw [hrest g hg]
        rcases hstaged g (by simp [hfiles, hg]) with hs | hs <;> simp [hs]
      have htake : files.take done.length = done := by rw [hfiles, List.take_left]
      have hdrop : files.drop done.length = f :: rest := by rw [hfiles, List.drop_left]
      rw [← htake] at hdone hdone'
      rw [← hdrop] at hwait hidle
      exact ⟨done.length, s', ⟨f, cause, s, d, by simp [hfiles], hinv, hdone, hwait, hr, rfl⟩,
        by simp [hfiles], hdone', hidle, hinv'⟩
  · exact ⟨staged, hinv, by simp, fun _ _ => rfl, fun _ => Iff.rfl⟩
  · rintro _ new ⟨rfl, s, hinv', hdone, -, hskip⟩
    refine ⟨s, List.map_congr_left fun f hf => ?_, hdone, hinv'⟩
    rcases hstaged f hf with hs | hs <;> simp [reported, outcome, hskip, entry, hs, Status.staged?]

/-- All files are done, or those before one that cannot be moved to its place, and none before one
that cannot be staged. -/
theorem persist (hinv : inv (fun _ => .untouched) d) : (persist files).Reaches station d
    (fun outcomes new => ∃ s, outcomes = files.map (outcome s) ∧ (∀ f ∈ files, (s f).IsDone) ∧
      inv s new)
    fun fault new => ∃ k s, (k = 0 ∨ StuckBehind files inv k fault ∧
        ∃ staged d', ends station (Job.stageAll [] files) d = (.ok staged, d')) ∧
      k ≤ files.length ∧ (∀ f ∈ files.take k, (s f).IsDone) ∧
      (∀ f ∈ files.drop k, (s f).IsIdle) ∧ inv s new := by
  constructor
  · intro outcomes new he
    obtain ⟨staged, d', hstage, hcommit⟩ := ends_bind_ok he
    obtain ⟨s, rfl, hs, hinv'⟩ := (h.stageAll hinv).ok hstage
    exact (h.commitAll hs hinv').ok hcommit
  · intro fault new he
    rcases ends_bind_error he with hstage | ⟨staged, d', hstage, hcommit⟩
    · obtain ⟨s, hs, hinv'⟩ := (h.stageAll hinv).failed hstage
      exact ⟨0, s, .inl rfl, Nat.zero_le _, by simp, by simpa using hs, hinv'⟩
    · obtain ⟨s, rfl, hs, hinv'⟩ := (h.stageAll hinv).ok hstage
      obtain ⟨k, s', hstuck, hk⟩ := (h.commitAll hs hinv').failed hcommit
      exact ⟨k, s', .inr ⟨hstuck, _, _, hstage⟩, hk⟩

end Stagewise

end Job

end NavTree
