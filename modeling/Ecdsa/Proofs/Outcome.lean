/-!
# Steps that can fail

A step that rests on another gives a result exactly if both do; a failure of the first step is the
failure of both.
-/

namespace Ecdsa

variable {ε α β : Type}

theorem ok_map (f : α → β) (a : α) : (.ok a : Except ε α).map f = .ok (f a) := rfl

theorem ok_bind (a : α) (f : α → Except ε β) : .ok a >>= f = f a := rfl

theorem error_bind (e : ε) (f : α → Except ε β) : .error e >>= f = .error e := rfl

/-- Two steps succeed exactly if the second does on the result of the first. -/
theorem bind_eq_ok_iff {x : Except ε α} {f : α → Except ε β} {b : β} :
    x >>= f = .ok b ↔ ∃ a, x = .ok a ∧ f a = .ok b := by
  cases x with
  | error e => simp [bind, Except.bind]
  | ok a => simp [bind, Except.bind]

/-- Two steps fail exactly if the first does, or the second does on the result of the first. -/
theorem bind_eq_error_iff {x : Except ε α} {f : α → Except ε β} {e : ε} :
    x >>= f = .error e ↔ x = .error e ∨ ∃ a, x = .ok a ∧ f a = .error e := by
  cases x with
  | error e' => simp [bind, Except.bind]
  | ok a => simp [bind, Except.bind]

theorem map_eq_ok_iff {x : Except ε α} {f : α → β} {b : β} :
    f <$> x = .ok b ↔ ∃ a, x = .ok a ∧ f a = b := by
  cases x with
  | error e => simp [Functor.map, Except.map]
  | ok a => simp [Functor.map, Except.map]

end Ecdsa
