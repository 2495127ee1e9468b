import Mathlib.Logic.Basic

/-!
A `while` loop over any state. `Exits` is what the loop means and `run` is the
loop with its tests counted, which can be evaluated. An invariant and a measure
that each round lowers show that a loop is left; an invariant under which the
test holds shows that it never is.
-/

namespace RProxy.WhileLoop

universe u
variable {State : Type u} {test : State → Bool} {body : State → State}

/-- The loop that is entered in the first state is left in the last. -/
inductive Exits (test : State → Bool) (body : State → State) : State → State → Prop
  | done {state : State} (stop : test state = false) : Exits test body state state
  | again {state last : State} (enter : test state = true)
      (rest : Exits test body (body state) last) : Exits test body state last

/-- The loop with at most `fuel` evaluations of its test. -/
def run (test : State → Bool) (body : State → State) : Nat → State → Option State
  | 0, _ => none
  | fuel + 1, state => if test state then run test body fuel (body state) else some state

theorem exits_of_run {fuel : Nat} {first last : State}
    (ran : run test body fuel first = some last) : Exits test body first last := by
  induction fuel generalizing first with
  | zero => exact absurd ran (by simp [run])
  | succ fuel ih =>
      rw [run] at ran
      split at ran
      · rename_i enter
        exact Exits.again enter (ih ran)
      · rename_i stop
        cases ran
        exact Exits.done (by simpa using stop)

theorem run_of_exits {first last : State} (exits : Exits test body first last) :
    ∃ fuel, run test body fuel first = some last := by
  induction exits with
  | done stop => exact ⟨1, by simp [run, stop]⟩
  | again enter rest ih =>
      rcases ih with ⟨fuel, ran⟩
      exact ⟨fuel + 1, by simpa [run, enter] using ran⟩

section Rules

variable (invariant : State → Prop)
variable (kept : ∀ state, invariant state → test state = true → invariant (body state))
include kept

/-- What a round keeps holds behind the loop, and the test does not. -/
theorem exits_keeps {first last : State} (exits : Exits test body first last)
    (holds : invariant first) : invariant last ∧ test last = false := by
  induction exits with
  | done stop => exact ⟨holds, stop⟩
  | again enter rest ih => exact ih (kept _ holds enter)

theorem exits_of_measure (measure : State → Nat)
    (lowered : ∀ state, invariant state → test state = true →
      measure (body state) < measure state) (first : State) (holds : invariant first) :
    ∃ last, Exits test body first last := by
  induction counted : measure first using Nat.strongRecOn generalizing first with
  | ind size ih =>
      cases tested : test first with
      | false => exact ⟨first, Exits.done tested⟩
      | true =>
          have less : measure (body first) < size := counted ▸ lowered first holds tested
          rcases ih _ less (body first) (kept first holds tested) rfl with ⟨last, rest⟩
          exact ⟨last, Exits.again tested rest⟩

/-- A loop whose test holds under its invariant is never left. -/
theorem never_exits (enters : ∀ state, invariant state → test state = true)
    {first last : State} (holds : invariant first) : ¬ Exits test body first last := by
  intro exits
  rcases exits_keeps invariant kept exits holds with ⟨still, stop⟩
  exact absurd (enters last still) (by simp [stop])

end Rules

end RProxy.WhileLoop
