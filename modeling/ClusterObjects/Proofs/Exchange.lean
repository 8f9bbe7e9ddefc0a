import ClusterObjects.Store.Interface

/-! # Running what acts on a state and may fail

The requests to a façade, the operations of a store and the exchanges with a cluster act on a
state and keep what they did to it when they fail.
-/

namespace ClusterObjects

variable {σ ε α β : Type}

theorem bind_apply (request : ExceptT ε (StateM σ) α) (next : α → ExceptT ε (StateM σ) β)
    (state : σ) :
    (request >>= next) state = match request state with
      | (.ok result, state) => next result state
      | (.error e, state) => (.error e, state) := by
  change (ExceptT.bind request next) state = _
  unfold ExceptT.bind ExceptT.mk
  change (ExceptT.bindCont next (request state).1) (request state).2 = _
  rcases request state with ⟨_ | _, _⟩ <;> rfl

/-- A step after another gives a result only if both do. -/
theorem eq_ok_of_bind_apply {request : ExceptT ε (StateM σ) α}
    {next : α → ExceptT ε (StateM σ) β} {state after : σ} {b : β}
    (h : (request >>= next) state = (.ok b, after)) :
    ∃ a middle, request state = (.ok a, middle) ∧ next a middle = (.ok b, after) := by
  rw [bind_apply] at h
  cases hrequest : request state with
  | mk result middle =>
    rw [hrequest] at h
    cases result with
    | error e =>
      have hresult := (Prod.mk.inj h).1
      contradiction
    | ok a => exact ⟨a, middle, rfl, h⟩

theorem map_apply (f : α → β) (request : ExceptT ε (StateM σ) α) (state : σ) :
    (f <$> request) state = ((request state).1.map f, (request state).2) := by
  change (request >>= fun result => pure (f result)) state = _
  rw [bind_apply]
  rcases request state with ⟨_ | _, _⟩ <;> rfl

end ClusterObjects
