import Mathlib.Data.List.Forall2

/-! # Computations that fail together

Two inputs that differ in form only need not fail with the same fault, but they fail together, and
otherwise come to related results.
-/
namespace NavTree

variable {ε α β : Type}

/-- Both computations fail, or both succeed and their results are related. -/
inductive Concur (R : α → β → Prop) : Except ε α → Except ε β → Prop
  | ok {a b} (h : R a b) : Concur R (.ok a) (.ok b)
  | error (e e' : ε) : Concur R (.error e) (.error e')

namespace Concur

variable {γ δ : Type} {R : α → β → Prop} {S : γ → δ → Prop}

theorem refl {R : α → α → Prop} (h : ∀ a, R a a) (job : Except ε α) : Concur R job job := by
  cases job with
  | ok a => exact .ok (h a)
  | error e => exact .error e e

theorem same (job : Except ε α) : Concur Eq job job := refl (fun _ => rfl) job

theorem mono {R' : α → β → Prop} {job : Except ε α} {job' : Except ε β} (h : Concur R job job')
    (hR : ∀ a b, R a b → R' a b) : Concur R' job job' := by
  cases h with
  | ok h => exact .ok (hR _ _ h)
  | error e e' => exact .error e e'

theorem bind {job : Except ε α} {job' : Except ε β} {next : α → Except ε γ}
    {next' : β → Except ε δ} (h : Concur R job job')
    (hn : ∀ a b, R a b → Concur S (next a) (next' b)) :
    Concur S (job >>= next) (job' >>= next') := by
  cases h with
  | ok h => exact hn _ _ h
  | error e e' => exact .error e e'

theorem next {job job' : Except ε α} {next : α → Except ε γ} {next' : α → Except ε δ}
    (h : Concur Eq job job') (hn : ∀ a, Concur S (next a) (next' a)) :
    Concur S (job >>= next) (job' >>= next') :=
  h.bind fun a _ he => he ▸ hn a

theorem mapError {job : Except ε α} {job' : Except ε β} {ε' : Type} (f : ε → ε')
    (h : Concur R job job') : Concur R (job.mapError f) (job'.mapError f) := by
  cases h with
  | ok h => exact .ok h
  | error e e' => exact .error (f e) (f e')

theorem eq_ok_iff {job job' : Except ε α} (h : Concur Eq job job') {a : α} :
    job = .ok a ↔ job' = .ok a := by
  cases h with
  | ok h => rw [h]
  | error e e' => exact iff_of_false nofun nofun

theorem trans {first job : Except ε α} {job' : Except ε β} (h : Concur Eq first job)
    (h' : Concur R job job') : Concur R first job' := by
  cases h with
  | ok h => exact h ▸ h'
  | error e e' =>
    cases h' with
    | error _ e'' => exact .error e e''

/-- A list is read one item after the other, and one of the items is changed. -/
theorem changed {R : β → β → Prop} (one : α → Except ε β) {all : List α → Except ε (List β)}
    (hcons : ∀ a rest, all (a :: rest) = one a >>= fun b => all rest >>= fun bs => .ok (b :: bs))
    (hR : ∀ b, R b b) {a a' : α} (h : Concur R (one a) (one a')) (before after : List α) :
    Concur (List.Forall₂ R) (all (before ++ a :: after)) (all (before ++ a' :: after)) := by
  have hsame : ∀ bs : List β, List.Forall₂ R bs bs :=
    fun bs => List.forall₂_same.mpr fun b _ => hR b
  induction before with
  | nil =>
    rw [List.nil_append, List.nil_append, hcons, hcons]
    exact h.bind fun _ _ hb => (refl hsame _).bind fun _ _ hbs => .ok (.cons hb hbs)
  | cons first before ih =>
    rw [List.cons_append, List.cons_append, hcons, hcons]
    exact (refl hR _).bind fun _ _ hb => ih.bind fun _ _ hbs => .ok (.cons hb hbs)

end Concur

end NavTree
