/-! # Results that may be errors

A step after another gives a result exactly if both do, and a mapped result was one before.
-/

namespace ClusterObjects

variable {ε α β : Type} {result : Except ε α}

theorem bind_eq_ok_iff {next : α → Except ε β} {b : β} :
    result.bind next = .ok b ↔ ∃ a, result = .ok a ∧ next a = .ok b := by
  cases result with
  | error e => exact ⟨nofun, nofun⟩
  | ok a => simp [Except.bind]

theorem bind_eq_ok {next : α → Except ε β} {b : β} (h : result >>= next = .ok b) :
    ∃ a, result = .ok a ∧ next a = .ok b :=
  bind_eq_ok_iff.mp h

theorem eq_of_map_ok {f : α → β} {b : β} (h : result.map f = .ok b) :
    ∃ a, result = .ok a ∧ f a = b := by
  cases result with
  | error e => contradiction
  | ok a => exact ⟨a, rfl, Except.ok.inj h⟩

theorem eq_ok_of_toOption {a : α} (h : result.toOption = some a) : result = .ok a := by
  cases result with
  | error e => contradiction
  | ok b => exact congrArg Except.ok (Option.some.inj h)

theorem not_exists_error_eq_ok {e : ε} : ¬ ∃ a : α, Except.error e = .ok a := by
  rintro ⟨_, h⟩
  contradiction

end ClusterObjects
