/-! # Results

How a computation that may fail comes to a value.
-/
namespace NavTree

variable {ε α β : Type}

@[simp] theorem throw_eq_error (e : ε) : (throw e : Except ε α) = .error e := rfl

@[simp] theorem pure_eq_ok {a b : α} : (pure a : Except ε α) = .ok b ↔ a = b :=
  ⟨Except.ok.inj, congrArg Except.ok⟩

theorem bind_eq_ok {job : Except ε α} {next : α → Except ε β} {b : β} :
    job >>= next = .ok b ↔ ∃ a, job = .ok a ∧ next a = .ok b := by
  constructor
  · intro h
    cases job with
    | error e => cases h
    | ok a => exact ⟨a, rfl, h⟩
  · rintro ⟨a, rfl, h⟩
    exact h

theorem mapError_eq_ok {ε' : Type} {f : ε → ε'} {job : Except ε α} {a : α} :
    job.mapError f = .ok a ↔ job = .ok a := by
  cases job with
  | error e => exact iff_of_false nofun nofun
  | ok b =>
    show Except.ok b = Except.ok a ↔ _
    rw [Except.ok.injEq, Except.ok.injEq]

theorem exists_bind_ok {job : Except ε α} {next : α → Except ε β} :
    (∃ b, job >>= next = .ok b) ↔ ∃ a, job = .ok a ∧ ∃ b, next a = .ok b := by
  simp only [bind_eq_ok]
  constructor
  · rintro ⟨b, a, ha, hb⟩
    exact ⟨a, ha, b, hb⟩
  · rintro ⟨a, ha, b, hb⟩
    exact ⟨b, a, ha, hb⟩

theorem exists_map_ok {f : α → β} {job : Except ε α} :
    (∃ b, f <$> job = .ok b) ↔ ∃ a, job = .ok a := by
  cases job <;> simp [Functor.map, Except.map]

theorem exists_mapError_ok {ε' : Type} {f : ε → ε'} {job : Except ε α} :
    (∃ a, job.mapError f = .ok a) ↔ ∃ a, job = .ok a := by
  simp only [mapError_eq_ok]

end NavTree
