/-!
# Computations that have succeeded or failed

Readers and compilers return in `Except`, and their proofs start from the fact that one returned a
result or an error. A result means that each of its steps returned one, and an error comes from the
first step that returned none. These lemmas hand over the steps.
-/

namespace LexerGen

variable {ε α β : Type} {x : Except ε α} {f : α → Except ε β} {g : α → β} {b : β}
  {e : ε}

/-- **Two steps that succeeded** one after the other. -/
theorem bind_eq_ok : (x >>= f) = .ok b ↔ ∃ a, x = .ok a ∧ f a = .ok b := by
  cases x with
  | error e =>
    refine ⟨?_, ?_⟩
    · intro h
      cases h
    · rintro ⟨a, h, -⟩
      cases h
  | ok a =>
    refine ⟨?_, ?_⟩
    · exact fun h => ⟨a, rfl, h⟩
    · rintro ⟨a', h, hf⟩
      cases h
      exact hf

/-- **Two steps one of which failed.** -/
theorem bind_eq_error : (x >>= f) = .error e ↔ x = .error e ∨ ∃ a, x = .ok a ∧ f a = .error e := by
  cases x with
  | error e' =>
    refine ⟨?_, ?_⟩
    · intro h
      cases h
      exact .inl rfl
    · rintro (h | ⟨a, h, -⟩)
      · cases h
        rfl
      · cases h
  | ok a =>
    refine ⟨?_, ?_⟩
    · exact fun h => .inr ⟨a, rfl, h⟩
    · rintro (h | ⟨a', h, hf⟩)
      · cases h
      · cases h
        exact hf

/-- A step that succeeded and whose result was changed. -/
theorem map_eq_ok : x.map g = .ok b ↔ ∃ a, x = .ok a ∧ g a = b := by
  cases x with
  | error e =>
    refine ⟨?_, ?_⟩
    · intro h
      cases h
    · rintro ⟨a, h, -⟩
      cases h
  | ok a =>
    refine ⟨?_, ?_⟩
    · exact fun h => ⟨a, rfl, Except.ok.inj h⟩
    · rintro ⟨a', h, rfl⟩
      cases h
      rfl

/-- A step that failed, and so without a result to change. -/
theorem map_eq_error : x.map g = .error e ↔ x = .error e := by
  cases x with
  | error e' =>
    refine ⟨?_, ?_⟩
    · intro h
      cases h
      rfl
    · intro h
      cases h
      rfl
  | ok a =>
    refine ⟨?_, ?_⟩
    · intro h
      cases h
    · intro h
      cases h

end LexerGen
