/-
  MockSchema.Proofs.Runs — two steps that may fail, one after the other.

  The second runs on what the first returned, and a failure of the first is the failure of both. Where the
  steps keep a state, the second goes on from the state in which the first ended; a failed step has
  a state too.
-/

namespace MockSchema

section
variable {ε α β : Type} {x : Except ε α} {f : α → Except ε β}

theorem ok_bind (a : α) (f : α → Except ε β) : ((.ok a : Except ε α) >>= f) = f a := rfl

theorem bind_ok {b : β} (h : (x >>= f) = .ok b) : ∃ a, x = .ok a ∧ f a = .ok b := by
  cases x with
  | error e => cases h
  | ok a => exact ⟨a, rfl, h⟩

theorem bind_error {e : ε} (h : (x >>= f) = .error e) : x = .error e ∨ ∃ a, x = .ok a ∧ f a = .error e := by
  cases x with
  | error e' => cases h; exact Or.inl rfl
  | ok a => exact Or.inr ⟨a, rfl, h⟩

end

section
variable {σ ε α β : Type} {p : ExceptT ε (StateM σ) α} {f : α → ExceptT ε (StateM σ) β} {s t : σ}

theorem run_bind (p : ExceptT ε (StateM σ) α) (f : α → ExceptT ε (StateM σ) β) (s : σ) :
    (p >>= f) s = match p s with
      | (.ok a, s') => f a s'
      | (.error e, s') => (.error e, s') := by
  show (match p s with | (r, s') => ExceptT.bindCont f r s') = _
  rcases p s with ⟨r, s'⟩
  cases r <;> rfl

theorem run_bind_ok {b : β} (h : (p >>= f) s = (.ok b, t)) : ∃ a s', p s = (.ok a, s') ∧ f a s' = (.ok b, t) := by
  rw [run_bind] at h
  rcases hp : p s with ⟨r, s'⟩
  rw [hp] at h
  cases r with
  | error e => cases h
  | ok a => exact ⟨a, s', rfl, h⟩

end

end MockSchema
