import NavTree.Proofs.Project.Ends

/-! # Conversations

Whoever answers the questions of a task may answer each of them in any way, and the same one
differently each time. What asks nothing comes to the same in all conversations.
-/
namespace NavTree

variable {α β : Type} {kit : Equipment} {d : Disk} {op : Operation}

namespace Operation

def asks : Operation → Bool
  | choose _ _ => true
  | _ => false

theorem reply_of_not_asks (h : op.asks = false) (kit : Equipment) (d : Disk)
    (answer answer' : String → List String → Except PromptFault (List Nat)) :
    Station.reply ⟨kit, answer⟩ d op = Station.reply ⟨kit, answer'⟩ d op := by
  cases op with
  | choose message items => cases h
  | _ => rfl

theorem questions_of_not_asks (h : op.asks = false) : op.signs.filterMap Sign.question? = [] := by
  cases op with
  | choose message items => cases h
  | _ => rfl

end Operation

namespace Task

variable {t : Task α} {f : α → Task β} {out : Outcome α}

/-- An outcome that a task comes to with some equipment and any answer to each question. -/
inductive Comes (kit : Equipment) : Task α → Disk → Outcome α → Prop
  | done (a : α) (d : Disk) : Comes kit (done a) d ⟨a, d, []⟩
  | step {op : Operation} {next : op.Reply → Task α} {d : Disk} {out : Outcome α}
    (answer : String → List String → Except PromptFault (List Nat))
    (h : Comes kit (next (Station.reply ⟨kit, answer⟩ d op).1)
      (Station.reply ⟨kit, answer⟩ d op).2 out) :
    Comes kit (step op next) d { out with signs := op.signs ++ out.signs }

/-- In particular all questions may be answered by the same rule. -/
theorem comes_run (station : Station) (t : Task α) (d : Disk) :
    t.Comes station.equipment d (t.run station d) := by
  induction t generalizing d with
  | done a => exact .done a d
  | step op next ih => exact .step station.answer (ih _ _)

theorem Comes.bind {out : Outcome β} (h : (t >>= f).Comes kit d out) :
    ∃ first rest, t.Comes kit d first ∧ (f first.value).Comes kit first.disk rest ∧
      out = { rest with signs := first.signs ++ rest.signs } := by
  induction t generalizing d out with
  | done a => exact ⟨⟨a, d, []⟩, out, .done a d, h, rfl⟩
  | step op next ih =>
    cases h with
    | step answer h =>
      obtain ⟨first, rest, hfirst, hrest, rfl⟩ := ih _ h
      exact ⟨_, rest, .step answer hfirst, hrest, by rw [List.append_assoc]⟩

theorem Comes.map {g : α → β} {out : Outcome β} (h : (t >>= fun a => pure (g a)).Comes kit d out) :
    ∃ first, t.Comes kit d first ∧ out = ⟨g first.value, first.disk, first.signs⟩ := by
  obtain ⟨first, rest, hfirst, hrest, rfl⟩ := h.bind
  cases hrest
  exact ⟨first, hfirst, by rw [List.append_nil]⟩

/-- A task that asks nothing. -/
def Silent (t : Task α) : Prop :=
  t.Always (fun op => op.asks = false) (fun _ _ => True) fun _ => True

theorem silent_pure (a : α) : (pure a : Task α).Silent := trivial

theorem silent_perform (h : op.asks = false) : (perform op).Silent := ⟨h, fun _ _ => trivial⟩

theorem Silent.bind (h : t.Silent) (hf : ∀ a, (f a).Silent) : (t >>= f).Silent :=
  Always.bind h fun a _ => hf a

theorem Silent.comes (hs : t.Silent) (h : t.Comes kit d out)
    (answer : String → List String → Except PromptFault (List Nat)) :
    out = t.run ⟨kit, answer⟩ d := by
  induction h with
  | done a d => rfl
  | @step op next d out answer' _ ih =>
    have hreply := op.reply_of_not_asks hs.1 kit d answer' answer
    rw [run, ← hreply, ih (hs.2 _ trivial)]

theorem silent_writeFile (path : String) (content : ByteArray) :
    (writeFile path content).Silent := by
  refine (silent_perform rfl).bind fun reply => ?_
  cases reply with
  | ok place => exact silent_perform rfl
  | error fault => exact silent_pure _

/-- The questions of a task, with what may be chosen. -/
def questions (station : Station) (t : Task α) (d : Disk) : List (String × List String) :=
  (t.run station d).signs.filterMap Sign.question?

theorem questions_bind (station : Station) (t : Task α) (f : α → Task β) :
    (t >>= f).questions station d = t.questions station d ++
      (f (t.ends station d).1).questions station (t.ends station d).2 := by
  have hb : t >>= f = bind t f := rfl
  rw [hb, questions, run_bind]
  exact List.filterMap_append

theorem Silent.questions (hs : t.Silent) (station : Station) (d : Disk) :
    t.questions station d = [] := by
  induction t generalizing d with
  | done a => rfl
  | step op next ih =>
    have hrest : (next (station.reply d op).1).questions station (station.reply d op).2 = [] :=
      ih _ (hs.2 _ trivial) _
    rw [Task.questions, run, List.filterMap_append, Operation.questions_of_not_asks hs.1]
    exact hrest

end Task

namespace Job

/-- A job that asks nothing. -/
def Silent (job : Job α) : Prop := Task.Silent job.run

theorem silent_pure (a : α) : (pure a : Job α).Silent := Task.silent_pure _

theorem silent_throw (fault : ProjectFault) : (throw fault : Job α).Silent :=
  Task.silent_pure _

theorem silent_lift {t : Task α} (h : t.Silent) : (liftM t : Job α).Silent :=
  h.bind fun _ => Task.silent_pure _

theorem Silent.bind {job : Job α} {f : α → Job β} (h : job.Silent) (hf : ∀ a, (f a).Silent) :
    (job >>= f).Silent := by
  refine Task.Silent.bind h fun result => ?_
  cases result with
  | ok a => exact hf a
  | error fault => exact silent_throw fault

theorem silent_discard (w : Staged) : (discard w).Silent :=
  (Task.silent_perform rfl).bind fun _ => Task.silent_pure _

theorem silent_makeDirectories (path : String) : (makeDirectories path).Silent := by
  refine (silent_lift (Task.silent_perform rfl)).bind fun reply => ?_
  cases reply with
  | ok a => exact silent_pure a
  | error fault => exact silent_throw _

/-- Whether or not the directory around a file is asked for first. -/
theorem silent_parent {next : Unit → Job α} (path : String) (h : (next ()).Silent) :
    Silent (if (Path.parent? path).getD "" ≠ "" then
      makeDirectories ((Path.parent? path).getD "") >>= next else next ()) := by
  split
  · exact (silent_makeDirectories _).bind fun _ => h
  · exact h

theorem silent_stage (path content : String) : (stage path content).Silent := by
  refine (silent_lift (Task.silent_perform rfl)).bind fun reply => ?_
  split
  · exact silent_pure none
  · refine silent_parent path ?_
    refine (silent_lift (Task.silent_writeFile _ _)).bind fun reply => ?_
    cases reply with
    | ok _ => exact silent_pure _
    | error fault => exact (silent_lift (silent_discard _)).bind fun _ => silent_throw _

theorem silent_commit (w : Staged) : (commit w).Silent := by
  refine (silent_lift (Task.silent_perform rfl)).bind fun reply => ?_
  cases reply with
  | ok _ => exact silent_pure ()
  | error fault => exact (silent_lift (silent_discard w)).bind fun _ => silent_throw _

theorem silent_writeText (path content : String) : (writeText path content).Silent := by
  refine (silent_stage path content).bind fun staged => ?_
  cases staged with
  | none => exact silent_pure _
  | some w => exact (silent_commit w).bind fun _ => silent_pure _

end Job

end NavTree
