import StackVerdict.Fault

/-!
# Results that may fail

When a result that is put together from others is one that did not fail, and when it is one that
did.
-/

namespace StackVerdict

variable {ε ε' α β : Type}

theorem ok_bind (a : α) (k : α → Except ε β) : (.ok a >>= k) = k a := rfl

theorem error_bind (e : ε) (k : α → Except ε β) : (.error e >>= k) = .error e := rfl

theorem bind_eq_ok_iff {x : Except ε α} {k : α → Except ε β} {b : β} :
    x >>= k = .ok b ↔ ∃ a, x = .ok a ∧ k a = .ok b := by
  cases x <;> simp [bind, Except.bind]

theorem bind_eq_error_iff {x : Except ε α} {k : α → Except ε β} {e : ε} :
    x >>= k = .error e ↔ x = .error e ∨ ∃ a, x = .ok a ∧ k a = .error e := by
  cases x <;> simp [bind, Except.bind]

theorem map_eq_ok_iff {x : Except ε α} {g : α → β} {b : β} :
    x.map g = .ok b ↔ ∃ a, x = .ok a ∧ g a = b := by
  cases x <;> simp [Except.map]

theorem mapError_eq_ok_iff {x : Except ε α} {g : ε → ε'} {a : α} :
    x.mapError g = .ok a ↔ x = .ok a := by
  cases x with
  | error e => constructor <;> intro h <;> cases h
  | ok b => constructor <;> intro h <;> cases h <;> rfl

theorem liftInput_eq_ok_iff {x : Except InputError α} {a : α} : liftInput x = .ok a ↔ x = .ok a :=
  mapError_eq_ok_iff

theorem liftMisuse_eq_ok_iff {x : Except Misuse α} {a : α} : liftMisuse x = .ok a ↔ x = .ok a :=
  mapError_eq_ok_iff

end StackVerdict
