import Scaffold.Error

/-!
# Operations on a state

The operations of a storage may fail and may change a state, and the state is there after a failure
too. `perform` is what such an operation comes to, together with the state after it; it follows the
operation step by step (`perform_bind_ok`, `perform_bind_error`). Where only the value matters, and
neither the states nor the errors, `Yields` says what can be said of it.
-/

namespace Scaffold

variable {σ α β : Type} {before after : σ}

/-- After an action that has run, the next one goes on with its result and its state. -/
theorem run_bind {action : StateM σ α} {next : α → StateM σ β} {a : α}
    (h : action.run before = (a, after)) :
    (action >>= next).run before = (next a).run after := by
  rw [StateT.run_bind, h]
  rfl

/-- What an operation comes to on a state, and the state after it. -/
def perform (action : ExceptT Error (StateM σ) α) (before : σ) : Except Error α × σ :=
  action.run.run before

/-- A value alone leaves the state as it is. -/
theorem perform_pure (a : α) (before : σ) :
    perform (pure a : ExceptT Error (StateM σ) α) before = (.ok a, before) := rfl

section bind

variable {action : ExceptT Error (StateM σ) α}

/-- After an action that went well, the next one goes on with its result and its state. -/
theorem perform_bind_ok {next : α → ExceptT Error (StateM σ) β} {a : α}
    (h : perform action before = (.ok a, after)) :
    perform (action >>= next) before = perform (next a) after := by
  unfold perform at h ⊢
  rw [ExceptT.run_bind, StateT.run_bind]
  simp only [h]
  rfl

/-- An error ends the actions, in the state that it left. -/
theorem perform_bind_error {next : α → ExceptT Error (StateM σ) β} {e : Error}
    (h : perform action before = (.error e, after)) :
    perform (action >>= next) before = (.error e, after) := by
  unfold perform at h ⊢
  rw [ExceptT.run_bind, StateT.run_bind]
  simp only [h]
  rfl

/-- What an operation comes to can be looked at without ending the operation around it. -/
theorem perform_lift_run {result : Except Error α} (h : perform action before = (result, after)) :
    perform (ExceptT.lift action.run : ExceptT Error (StateM σ) (Except Error α)) before =
      (.ok result, after) := by
  unfold perform at h ⊢
  rw [ExceptT.run_lift, StateT.run_map]
  simp only [h]
  rfl

end bind

/-! ## Values -/

/-- Every value that the operation comes to satisfies `p`, in whatever state it starts. -/
def Yields (action : ExceptT Error (StateM σ) α) (p : α → Prop) : Prop :=
  ∀ before a after, perform action before = (.ok a, after) → p a

namespace Yields

variable {action : ExceptT Error (StateM σ) α} {p : α → Prop} {q : β → Prop}

/-- Something holds of every result. -/
theorem trivial (action : ExceptT Error (StateM σ) α) : Yields action fun _ => True :=
  fun _ _ _ _ => True.intro

/-- What follows from what an action yields is yielded as well. -/
theorem imp {q : α → Prop} (h : Yields action p) (himp : ∀ a, p a → q a) : Yields action q :=
  fun before a after hperform => himp a (h before a after hperform)

/-- A result without effects yields its value. -/
theorem result {result : Except Error α} (h : ∀ a, result = .ok a → p a) :
    Yields (ExceptT.mk (Pure.pure result) : ExceptT Error (StateM σ) α) p := by
  intro before a after hperform
  exact h a (congrArg Prod.fst hperform)

/-- A value alone yields what holds of it. -/
theorem pure {a : α} (h : p a) : Yields (Pure.pure a : ExceptT Error (StateM σ) α) p :=
  result fun _ hb => Except.ok.inj hb ▸ h

/-- Two actions in a row yield what the second yields for every result of the first. -/
theorem bind {next : α → ExceptT Error (StateM σ) β} (h : Yields action p)
    (hnext : ∀ a, p a → Yields (next a) q) : Yields (action >>= next) q := by
  intro before b after hperform
  rcases hfirst : perform action before with ⟨found, middle⟩
  cases found with
  | error e =>
    rw [perform_bind_error hfirst] at hperform
    cases hperform
  | ok a =>
    rw [perform_bind_ok hfirst] at hperform
    exact hnext a (h before a middle hfirst) middle b after hperform

/-- What an operation comes to can be looked at, and a value that it comes to is one that it yields.
-/
theorem lift_run (h : Yields action p) :
    Yields (ExceptT.lift action.run : ExceptT Error (StateM σ) (Except Error α))
      fun outcome => ∀ a, outcome = .ok a → p a := by
  intro before outcome after hperform a ha
  rcases haction : perform action before with ⟨found, middle⟩
  rw [perform_lift_run haction] at hperform
  cases hperform
  rw [ha] at haction
  exact h before a after haction

end Yields

end Scaffold
