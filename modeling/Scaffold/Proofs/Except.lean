/-!
# Steps that can fail

A computation with steps that can fail comes to a value exactly if each of its steps does, and to an
error exactly if one of them does. These lemmas take such a computation apart, step by step, when it
is known what it has come to.
-/

namespace Scaffold

variable {ε α β : Type} {x : Except ε α} {b : β} {e : ε}

/-- Two steps go well if the first does and the second does with its result. -/
theorem bind_eq_ok_iff {f : α → Except ε β} : x >>= f = .ok b ↔ ∃ a, x = .ok a ∧ f a = .ok b := by
  cases x with
  | error e =>
    constructor
    · intro h
      cases h
    · rintro ⟨a, h, -⟩
      cases h
  | ok a =>
    constructor
    · intro h
      exact ⟨a, rfl, h⟩
    · rintro ⟨a', h, heq⟩
      rw [Except.ok.inj h]
      exact heq

/-- A changed result comes from a result. -/
theorem map_eq_ok_iff {f : α → β} : x.map f = .ok b ↔ ∃ a, x = .ok a ∧ f a = b := by
  cases x with
  | error e =>
    constructor
    · intro h
      cases h
    · rintro ⟨a, h, -⟩
      cases h
  | ok a =>
    constructor
    · intro h
      exact ⟨a, rfl, Except.ok.inj h⟩
    · rintro ⟨a', h, rfl⟩
      rw [Except.ok.inj h]
      rfl

/-- Two steps fail if the first fails or the second fails after it. -/
theorem bind_eq_error_iff {f : α → Except ε β} :
    x >>= f = .error e ↔ x = .error e ∨ ∃ a, x = .ok a ∧ f a = .error e := by
  cases x with
  | error first =>
    constructor
    · intro h
      exact Or.inl (congrArg Except.error (Except.error.inj h))
    · rintro (h | ⟨a, h, -⟩)
      · rw [Except.error.inj h]
        rfl
      · cases h
  | ok a =>
    constructor
    · intro h
      exact Or.inr ⟨a, rfl, h⟩
    · rintro (h | ⟨a', h, heq⟩)
      · cases h
      · rw [Except.ok.inj h]
        exact heq

/-- Changing a result changes no error. -/
theorem map_eq_error_iff {f : α → β} : x.map f = .error e ↔ x = .error e := by
  cases x <;> simp [Except.map]

/-- What a computation comes to: the value that is accepted, or the error that is due. -/
structure DescribedBy (x : Except ε α) (accepts : α → Prop) (refuses : ε → Prop) : Prop where
  /-- It comes to a value that is accepted. -/
  accepted : ∀ a, accepts a → x = .ok a
  /-- It comes to an error that is due. -/
  refused : ∀ e, refuses e → x = .error e
  /-- Some value is accepted, or some error is due. -/
  total : (∃ a, accepts a) ∨ ∃ e, refuses e

namespace DescribedBy

variable {accepts : α → Prop} {refuses : ε → Prop}

/-- What is described by conditions goes well exactly under the first. -/
theorem eq_ok_iff (h : DescribedBy x accepts refuses) {a : α} : x = .ok a ↔ accepts a := by
  constructor
  · intro hx
    rcases h.total with ⟨a', ha'⟩ | ⟨e, he⟩
    · obtain rfl : a' = a := Except.ok.inj ((h.accepted a' ha').symm.trans hx)
      exact ha'
    · rw [h.refused e he] at hx
      cases hx
  · exact h.accepted a

/-- What is described by conditions fails exactly under the second. -/
theorem eq_error_iff (h : DescribedBy x accepts refuses) {e : ε} : x = .error e ↔ refuses e := by
  constructor
  · intro hx
    rcases h.total with ⟨a, ha⟩ | ⟨e', he'⟩
    · rw [h.accepted a ha] at hx
      cases hx
    · obtain rfl : e' = e := Except.error.inj ((h.refused e' he').symm.trans hx)
      exact he'
  · exact h.refused e

end DescribedBy

end Scaffold
