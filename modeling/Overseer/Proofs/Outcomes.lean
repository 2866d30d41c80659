/-!
Computations that may fail. One that goes on after another fails where either does, and gives what
the second makes of the result of the first.
-/
namespace Except

variable {ε α β : Type} {x : Except ε α} {b : β} {e : ε}

theorem bind_eq_ok_iff {f : α → Except ε β} : x >>= f = .ok b ↔ ∃ a, x = .ok a ∧ f a = .ok b := by
  cases x <;> simp [bind, Except.bind]

theorem bind_eq_error_iff {f : α → Except ε β} :
    x >>= f = .error e ↔ x = .error e ∨ ∃ a, x = .ok a ∧ f a = .error e := by
  cases x <;> simp [bind, Except.bind]

theorem map_eq_ok_iff {f : α → β} : x.map f = .ok b ↔ ∃ a, x = .ok a ∧ f a = b := by
  cases x <;> simp [Except.map]

theorem map_eq_error_iff {f : α → β} : x.map f = .error e ↔ x = .error e := by
  cases x <;> simp [Except.map]

theorem bind_ne_error {f : α → Except ε β} (first : x ≠ .error e) (later : ∀ a, f a ≠ .error e) :
    x >>= f ≠ .error e := by
  intro failed
  obtain last | ⟨a, _, last⟩ := bind_eq_error_iff.mp failed
  · exact first last
  · exact later a last

end Except
