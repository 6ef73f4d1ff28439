namespace Amalgam

/-!
# Sequences of steps

How two steps in a row end.  A failure of the first step is the failure of both, and
then the state is what the first step left behind.
-/

/-! ## Steps that change a state -/

section Stateful

variable {ε σ α β : Type}

/-- The state in which a program ends, whether it fails or not. -/
def endState : EStateM.Result ε σ α → σ
  | .ok _ s => s
  | .error _ s => s

theorem bind_of_ok {x : EStateM ε σ α} {f : α → EStateM ε σ β} {s s' : σ} {a : α}
    (h : x s = .ok a s') : (x >>= f) s = f a s' := by
  show EStateM.bind x f s = _
  rw [EStateM.bind, h]

theorem bind_of_error {x : EStateM ε σ α} {f : α → EStateM ε σ β} {s s' : σ} {fault : ε}
    (h : x s = .error fault s') : (x >>= f) s = .error fault s' := by
  show EStateM.bind x f s = _
  rw [EStateM.bind, h]

theorem bind_eq_ok_iff {x : EStateM ε σ α} {f : α → EStateM ε σ β} {s s'' : σ} {b : β} :
    (x >>= f) s = .ok b s'' ↔ ∃ a s', x s = .ok a s' ∧ f a s' = .ok b s'' := by
  show EStateM.bind x f s = _ ↔ _
  rw [EStateM.bind]
  cases hx : x s with
  | error e s' => simp
  | ok a s' =>
      constructor
      · intro h
        exact ⟨a, s', rfl, h⟩
      · rintro ⟨_, _, heq, h⟩
        cases heq
        exact h

theorem bind_eq_error_iff {x : EStateM ε σ α} {f : α → EStateM ε σ β} {s s'' : σ}
    {fault : ε} :
    (x >>= f) s = .error fault s'' ↔
      x s = .error fault s'' ∨ ∃ a s', x s = .ok a s' ∧ f a s' = .error fault s'' := by
  cases hx : x s with
  | error e s' =>
      rw [bind_of_error hx]
      simp
  | ok a s' =>
      rw [bind_of_ok hx]
      constructor
      · intro h
        exact Or.inr ⟨a, s', rfl, h⟩
      · rintro (h | ⟨_, _, heq, h⟩)
        · cases h
        · cases heq
          exact h

end Stateful

/-! ## Steps that only compute -/

section Pure

variable {ε α β : Type}

theorem except_bind_eq_ok_iff {x : Except ε α} {f : α → Except ε β} {b : β} :
    (x >>= f) = .ok b ↔ ∃ a, x = .ok a ∧ f a = .ok b := by
  cases x with
  | error fault => exact iff_of_false nofun (by rintro ⟨_, h, -⟩; cases h)
  | ok a =>
      constructor
      · exact fun h => ⟨a, rfl, h⟩
      · rintro ⟨_, h, hb⟩
        cases h
        exact hb

theorem except_bind_of_ok {x : Except ε α} {f : α → Except ε β} {a : α}
    (h : x = .ok a) : (x >>= f) = f a := by
  rw [h]
  rfl

theorem except_bind_of_error {x : Except ε α} {f : α → Except ε β} {fault : ε}
    (h : x = .error fault) : (x >>= f) = .error fault := by
  rw [h]
  rfl

end Pure

end Amalgam
