import NavTree.Proofs.Project.Scaffolded
import NavTree.Proofs.Task.Conversation

/-! # Turns of scaffolding

Scaffolding for several sources is a list of turns, one for each source, whatever the answers are. A
turn asks at most one question, and takes the disk that the turn before it leaves.
-/
namespace NavTree

variable {α β : Type} {kit : Equipment} {d : Disk}

namespace Task

variable {t : Task α} {f : α → Task β}

/-- All that a task comes to it comes to with one answer to all of its questions. -/
def Single (t : Task α) : Prop :=
  ∀ {kit d out}, t.Comes kit d out → ∃ answer, out = t.run ⟨kit, fun _ _ => answer⟩ d

theorem Silent.single (h : t.Silent) : t.Single :=
  fun hc => ⟨.error .cancelled, h.comes hc _⟩

theorem Silent.bind_single (h : t.Silent) (hf : ∀ a, (f a).Single) : (t >>= f).Single := by
  intro kit d out hc
  obtain ⟨first, rest, hfirst, hrest, rfl⟩ := hc.bind
  obtain ⟨answer, he⟩ := hf _ hrest
  obtain rfl := h.comes hfirst fun _ _ => answer
  rw [he]
  exact ⟨answer, (run_bind ⟨kit, fun _ _ => answer⟩ t f d).symm⟩

theorem single_choose (message : String) (items : List String)
    {f : Except PromptFault (List Nat) → Task β} (hf : ∀ reply, (f reply).Silent) :
    (perform (.choose message items) >>= f).Single := by
  intro kit d out hc
  cases hc with
  | step answer hc =>
    refine ⟨answer message items, ?_⟩
    rw [(hf _).comes hc fun _ _ => answer message items]
    rfl

end Task

namespace Job

theorem run_lift_bind (t : Task α) (f : α → Job β) :
    ExceptT.run (liftM t >>= f) = t >>= fun a => (f a).run := by
  show (t >>= fun a => pure (Except.ok a)) >>= ExceptT.bindCont f = _
  rw [bind_assoc]
  rfl

/-- What is done once the question is answered. -/
def answered (offered : List FileTemplate) : Except PromptFault (List Nat) → Job (List String)
  | .ok picks => create offered picks
  | .error .cancelled => do
    Task.note .info .scaffold "Scaffolding cancelled, no files created"
    return []
  | .error (.failed reason) => throw (.toolFailed "prompt" reason)

theorem run_scaffold (templates : List FileTemplate) : (scaffold templates).run =
    missing templates >>= fun offered =>
      if offered.isEmpty then pure (.ok []) else
        Task.perform (.choose "Select files to create" (offered.map (·.title))) >>= fun reply =>
          (answered offered reply).run := by
  rw [scaffold, run_lift_bind]
  refine congrArg _ (funext fun offered => ?_)
  by_cases hnone : offered.isEmpty = true
  · rw [if_pos hnone, if_pos hnone]
    rfl
  · rw [if_neg hnone, if_neg hnone, run_lift_bind]
    refine congrArg _ (funext fun reply => ?_)
    rcases reply with (_ | reason) | picks
    · rfl
    · rfl
    · rfl

theorem silent_missing (templates : List FileTemplate) : (missing templates).Silent := by
  induction templates with
  | nil => exact Task.silent_pure []
  | cons t rest ih =>
    exact (Task.silent_perform rfl).bind fun _ => ih.bind fun _ => Task.silent_pure _

theorem silent_formatIfReadable (path source : String) : (formatIfReadable path source).Silent := by
  rw [formatIfReadable]
  cases dialectOf? path with
  | none => exact Task.silent_pure source
  | some dialect => exact (Task.silent_perform rfl).bind fun _ => Task.silent_pure _

theorem silent_create (offered : List FileTemplate) (picks : List Nat) :
    (create offered picks).Silent := by
  induction picks with
  | nil => exact silent_pure []
  | cons i rest ih =>
    rw [create]
    cases offered[i]? with
    | none => exact ih
    | some t =>
      refine (silent_lift (silent_formatIfReadable _ _)).bind fun text => ?_
      exact (silent_writeText _ _).bind fun _ => ih.bind fun _ => silent_pure _

theorem silent_answered (offered : List FileTemplate) (reply : Except PromptFault (List Nat)) :
    (answered offered reply).Silent := by
  rcases reply with (_ | reason) | picks
  · exact (silent_lift (Task.silent_perform rfl)).bind fun _ => silent_pure _
  · exact silent_throw _
  · exact silent_create offered picks

theorem single_scaffold (templates : List FileTemplate) : (scaffold templates).run.Single := by
  rw [run_scaffold]
  refine (silent_missing templates).bind_single fun offered => ?_
  split
  · exact (Task.silent_pure _).single
  · exact Task.single_choose _ _ fun reply => silent_answered offered reply

end Job

/-- A report with the answer to its question, if there is one, and the disk that it is asked on. -/
structure Turn where
  report : FileReport
  answer : Except PromptFault (List Nat)
  before : Disk

namespace Turn

variable (kit : Equipment) (turn : Turn)

def station : Station := ⟨kit, fun _ _ => turn.answer⟩

/-- The templates whose files are missing. -/
def offered : List FileTemplate := Job.offered turn.before turn.report.templates

/-- The files that are asked for. -/
def chosen : List FileTemplate :=
  match turn.answer with
  | .ok picks => Job.chosen turn.offered picks
  | .error _ => []

/-- The titles of all that is missing are shown, in order, unless nothing is. -/
def questions : List (String × List String) :=
  if turn.offered.isEmpty then []
  else [("Select files to create", turn.offered.map (·.title))]

def ends : Except ProjectFault (List String) × Disk :=
  Job.ends (turn.station kit) (Job.scaffold turn.report.templates) turn.before

def created : List String := (turn.ends kit).1.toOption.getD []

def failure? : Option (String × ProjectFault) :=
  match (turn.ends kit).1 with
  | .ok _ => none
  | .error fault => some (turn.report.source, fault)

end Turn

/-- Turns one after another, each on the disk that the one before it leaves. -/
def Takes (kit : Equipment) : Disk → List Turn → Disk → Prop
  | d, [], new => new = d
  | d, turn :: rest, new => turn.before = d ∧ Takes kit (turn.ends kit).2 rest new

namespace Turn

theorem ends_eq (kit : Equipment) (turn : Turn) : turn.ends kit =
    if turn.offered = [] then (.ok [], turn.before)
    else match turn.answer with
      | .ok picks => Job.ends (turn.station kit) (Job.create turn.offered picks) turn.before
      | .error .cancelled => (.ok [], turn.before)
      | .error (.failed reason) => (.error (.toolFailed "prompt" reason), turn.before) := by
  rw [ends, Job.ends_scaffold]
  exact ite_congr (propext List.isEmpty_iff) (fun _ => rfl) fun _ => rfl

theorem questions_scaffold (kit : Equipment) (turn : Turn) : Task.questions (turn.station kit)
    (Job.scaffold turn.report.templates).run turn.before = turn.questions := by
  rw [Job.run_scaffold, Task.questions_bind, (Job.silent_missing _).questions, List.nil_append,
    Job.ends_missing, questions, offered]
  by_cases hnone : (Job.offered turn.before turn.report.templates).isEmpty = true
  · rw [if_pos hnone, if_pos hnone]
    rfl
  · rw [if_neg hnone, if_neg hnone, Task.questions_bind, (Job.silent_answered _ _).questions]
    rfl

end Turn

namespace Task.Comes

variable {reports : List FileReport} {out : Outcome ScaffoldSummary}

/-- The first report has its turn, and the others come behind it, whether or not it fails. -/
theorem turn {report : FileReport} (h : (scaffoldReports (report :: reports)).Comes kit d out) :
    ∃ (turn : Turn) (behind : Outcome ScaffoldSummary), turn.report = report ∧ turn.before = d ∧
      (scaffoldReports reports).Comes kit (turn.ends kit).2 behind ∧
      out.disk = behind.disk ∧
      out.value.created = turn.created kit ++ behind.value.created ∧
      out.value.failed = (turn.failure? kit).toList ++ behind.value.failed ∧
      out.signs.filterMap Sign.question? =
        turn.questions ++ behind.signs.filterMap Sign.question? := by
  obtain ⟨first, others, hfirst, hothers, rfl⟩ := h.bind
  obtain ⟨answer, rfl⟩ := Job.single_scaffold report.templates hfirst
  let turn : Turn := ⟨report, answer, d⟩
  have hquestions := turn.questions_scaffold kit
  rw [Task.questions] at hquestions
  cases hvalue : ((Job.scaffold report.templates).run.run ⟨kit, fun _ _ => answer⟩ d).value with
  | ok made =>
    have hends : (turn.ends kit).1 = .ok made := hvalue
    rw [hvalue] at hothers
    obtain ⟨behind, hbehind, rfl⟩ := hothers.map
    refine ⟨turn, behind, rfl, rfl, hbehind, rfl, ?_, ?_, ?_⟩
    · rw [Turn.created, hends]
      rfl
    · rw [Turn.failure?, hends]
      rfl
    · rw [List.filterMap_append, ← hquestions]
      rfl
  | error fault =>
    have hends : (turn.ends kit).1 = .error fault := hvalue
    rw [hvalue] at hothers
    obtain ⟨noted, rest, hnoted, hrest, rfl⟩ := hothers.bind
    obtain rfl := (Task.silent_perform rfl).comes hnoted fun _ _ => answer
    obtain ⟨behind, hbehind, rfl⟩ := hrest.map
    refine ⟨turn, behind, rfl, rfl, hbehind, rfl, ?_, ?_, ?_⟩
    · rw [Turn.created, hends]
      rfl
    · rw [Turn.failure?, hends]
      rfl
    · rw [List.filterMap_append, List.filterMap_append, ← hquestions]
      rfl

/-- Whatever is answered, each report has its turn. -/
theorem turns (h : (scaffoldReports reports).Comes kit d out) : ∃ turns : List Turn,
    turns.map (·.report) = reports ∧ Takes kit d turns out.disk ∧
    out.value.created = turns.flatMap (·.created kit) ∧
    out.value.failed = turns.filterMap (·.failure? kit) ∧
    out.signs.filterMap Sign.question? = turns.flatMap (·.questions) := by
  induction reports generalizing d out with
  | nil =>
    cases h
    exact ⟨[], rfl, rfl, rfl, rfl, rfl⟩
  | cons report rest ih =>
    obtain ⟨turn, behind, rfl, rfl, hbehind, hdisk, hmade, hlost, hquestions⟩ := h.turn
    obtain ⟨turns, rfl, htakes, hcreated, hfailed, hasked⟩ := ih hbehind
    refine ⟨turn :: turns, rfl, ⟨rfl, hdisk ▸ htakes⟩, ?_, ?_, ?_⟩
    · rw [hmade, hcreated, List.flatMap_cons]
    · rw [hlost, hfailed, List.filterMap_cons]
      cases turn.failure? kit <;> rfl
    · rw [hquestions, hasked, List.flatMap_cons]

end Task.Comes

end NavTree
