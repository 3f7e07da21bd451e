import NavTree.Project.Run
import NavTree.Proofs.Project.Ends

/-! # Ends of scaffoldings

Scaffolding for a source fails if the question which files to make fails or a chosen file cannot be
made. A cancelled question makes nothing and is no failure. Sources are scaffolded for one after
another, each on the disk that the one before it leaves, whether or not that one failed.
-/
namespace NavTree

variable {station : Station}

namespace Job

/-- The templates whose files are missing. -/
def offered (d : Disk) (templates : List FileTemplate) : List FileTemplate :=
  templates.filter fun t => !d.isPresent t.path

/-- The files that numbers stand for, without those numbers that stand for none. -/
def chosen (offered : List FileTemplate) (picks : List Nat) : List FileTemplate :=
  picks.filterMap (offered[·]?)

theorem mem_of_mem_chosen {offered : List FileTemplate} {picks : List Nat} {t : FileTemplate}
    (h : t ∈ chosen offered picks) : t ∈ offered := by
  obtain ⟨i, -, hi⟩ := List.mem_filterMap.mp h
  exact List.mem_of_getElem? hi

/-- How the question about the templates is answered. -/
def picked (station : Station) (templates : List FileTemplate) : Except PromptFault (List Nat) :=
  station.answer "Select files to create" (templates.map (·.title))

theorem ends_missing (templates : List FileTemplate) (d : Disk) :
    (missing templates).ends station d = (offered d templates, d) := by
  induction templates with
  | nil => rfl
  | cons t rest ih =>
    rw [missing, Task.ends_bind, Task.ends_perform, Station.reply]
    dsimp only
    rw [Task.ends_bind, ih, Task.ends_pure]
    cases h : d.isPresent t.path <;> simp [offered, h]

theorem ends_scaffold (templates : List FileTemplate) (d : Disk) :
    ends station (scaffold templates) d =
      if (offered d templates).isEmpty then (.ok [], d)
      else match picked station (offered d templates) with
        | .ok picks => ends station (create (offered d templates) picks) d
        | .error .cancelled => (.ok [], d)
        | .error (.failed reason) => (.error (.toolFailed "prompt" reason), d) := by
  rw [scaffold, ends_bind, ends_lift, ends_missing]
  dsimp only
  by_cases hnone : (offered d templates).isEmpty = true
  · rw [if_pos hnone, if_pos hnone, ends_pure]
  · rw [if_neg hnone, if_neg hnone, ends_bind, ends_lift, Task.ends_perform, Station.reply]
    dsimp only
    rw [picked]
    generalize station.answer "Select files to create" ((offered d templates).map (·.title)) = reply
    rcases reply with (_ | reason) | picks
    · rfl
    · rfl
    · rfl

/-- Why scaffolding with some templates fails on a disk. -/
inductive ScaffoldFails (station : Station) (templates : List FileTemplate) (d : Disk) :
    ProjectFault → Prop
  | question {reason : String} (h : offered d templates ≠ [])
    (hp : picked station (offered d templates) = .error (.failed reason)) :
    ScaffoldFails station templates d (.toolFailed "prompt" reason)
  | file {picks : List Nat} {fault : ProjectFault} (h : offered d templates ≠ [])
    (hp : picked station (offered d templates) = .ok picks)
    (hc : (ends station (create (offered d templates) picks) d).1 = .error fault) :
    ScaffoldFails station templates d fault

theorem scaffold_fails_iff {templates : List FileTemplate} {d : Disk} {fault : ProjectFault} :
    (ends station (scaffold templates) d).1 = .error fault ↔
      ScaffoldFails station templates d fault := by
  rw [ends_scaffold]
  constructor
  · intro h
    by_cases hnone : (offered d templates).isEmpty = true
    · rw [if_pos hnone] at h
      cases h
    · have hsome : offered d templates ≠ [] := fun he => hnone (List.isEmpty_iff.mpr he)
      rw [if_neg hnone] at h
      cases hp : picked station (offered d templates) with
      | ok picks =>
        rw [hp] at h
        exact .file hsome hp h
      | error cause =>
        rw [hp] at h
        cases cause with
        | cancelled => cases h
        | failed reason =>
          cases h
          exact .question hsome hp
  · intro h
    cases h with
    | question h hp => rw [if_neg (by simpa using h), hp]
    | file h hp hc =>
      rw [if_neg (by simpa using h), hp]
      exact hc

end Job

/-- The reports with the disks that scaffolding for them starts on. -/
def scaffoldStarts (station : Station) : List FileReport → Disk → List (FileReport × Disk)
  | [], _ => []
  | report :: rest, d =>
    (report, d) :: scaffoldStarts station rest (Job.ends station (Job.scaffold report.templates) d).2

/-- The files made for a report. -/
def scaffoldMade (station : Station) (a : FileReport × Disk) : List String :=
  (Job.ends station (Job.scaffold a.1.templates) a.2).1.toOption.getD []

/-- The failure of the scaffolding for a report. -/
def scaffoldFailure? (station : Station) (a : FileReport × Disk) : Option (String × ProjectFault) :=
  match (Job.ends station (Job.scaffold a.1.templates) a.2).1 with
  | .ok _ => none
  | .error fault => some (a.1.source, fault)

theorem scaffoldFailure?_eq_none {a : FileReport × Disk} : scaffoldFailure? station a = none ↔
    ∀ fault, ¬ Job.ScaffoldFails station a.1.templates a.2 fault := by
  simp only [← Job.scaffold_fails_iff, scaffoldFailure?]
  cases (Job.ends station (Job.scaffold a.1.templates) a.2).1 with
  | ok made => simp
  | error fault => simp

/-- Each report gives the files that were made for it, or its failure. -/
theorem ends_scaffoldReports (reports : List FileReport) (d : Disk) :
    ((scaffoldReports reports).ends station d).1 =
      ⟨(scaffoldStarts station reports d).flatMap (scaffoldMade station),
        (scaffoldStarts station reports d).filterMap (scaffoldFailure? station)⟩ := by
  induction reports generalizing d with
  | nil => rfl
  | cons report rest ih =>
    have hjob : (Job.scaffold report.templates).run.ends station d =
        Job.ends station (Job.scaffold report.templates) d := rfl
    rw [scaffoldReports, Task.ends_bind, hjob, scaffoldStarts, List.flatMap_cons,
      List.filterMap_cons, scaffoldFailure?, scaffoldMade]
    dsimp only
    rcases Job.ends station (Job.scaffold report.templates) d with ⟨fault | made, d'⟩
    · have hnote : (Task.note .error .pipeline
          (report.source ++ ": scaffolding failed: " ++ fault.message)).ends station d' =
          ((), d') := rfl
      dsimp only
      rw [Task.ends_bind, hnote]
      dsimp only
      rw [Task.ends_bind, Task.ends_pure, ih]
      rfl
    · dsimp only
      rw [Task.ends_bind, Task.ends_pure, ih]
      rfl

end NavTree
