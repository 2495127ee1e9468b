import RProxy.Buffer

/-!
Calls that use something up for good. `spent` measures a state; a call that
returns has added at least its cost to it, and one that throws has given nothing
back.
-/

namespace RProxy.Budget

variable {Fault State Value Other : Type} (spent : State → Nat)

/-- How a call may end that began at the level `before`. -/
def Paid (cost before : Nat) : EStateM.Result Fault State Value → Prop
  | .ok _ after => before + cost ≤ spent after
  | .error _ after => before ≤ spent after

def Spends (cost : Nat) (call : EStateM Fault State Value) : Prop :=
  ∀ state, Paid spent cost (spent state) (call state)

variable {spent} {cost more before middle : Nat}

theorem Paid.weaken {result : EStateM.Result Fault State Value} (paid : Paid spent more middle result)
    (le : before ≤ middle) (enough : before + cost ≤ middle + more) :
    Paid spent cost before result := by
  cases result with
  | ok value after => exact Nat.le_trans enough paid
  | error fault after => exact Nat.le_trans le paid

theorem spends_pure (value : Value) :
    Spends spent 0 (pure value : EStateM Fault State Value) := fun _ => Nat.le_refl _

/-- A call that never returns meets any cost. -/
theorem spends_throw (fault : Fault) :
    Spends spent cost (throw fault : EStateM Fault State Value) := fun _ => Nat.le_refl _

theorem Spends.weaken {call : EStateM Fault State Value} (spends : Spends spent more call)
    (le : cost ≤ more) : Spends spent cost call := fun state =>
  (spends state).weaken (Nat.le_refl _) (Nat.add_le_add_left le _)

theorem Spends.bind {first : EStateM Fault State Other}
    {next : Other → EStateM Fault State Value} (spends : Spends spent cost first)
    (followed : ∀ value, Spends spent more (next value)) :
    Spends spent (cost + more) (first >>= next) := by
  intro state
  have paid := spends state
  cases called : first state with
  | ok value after =>
      rw [called, Paid] at paid
      rw [bind_of_ok called]
      exact (followed value after).weaken (by omega) (by omega)
  | error fault after =>
      rw [called] at paid
      rw [bind_of_error called]
      exact paid

/-- What is written first may pay for the rest. -/
theorem Spends.after_set {call : EStateM Fault State Value} (spends : Spends spent more call)
    {stored : State} (le : before ≤ spent stored) (enough : before + cost ≤ spent stored + more)
    (state : State) : Paid spent cost before ((set stored >>= fun _ => call) state) := by
  rw [set_bind]
  exact (spends stored).weaken le enough

theorem Spends.after_modify {call : EStateM Fault State Value} (spends : Spends spent cost call)
    {change : State → State} (level : ∀ state, spent (change state) = spent state) :
    Spends spent cost (modify change >>= fun _ => call) := by
  intro state
  rw [modify_bind, ← level state]
  exact spends (change state)

theorem spends_get_bind {next : State → EStateM Fault State Value}
    (followed : ∀ state, Paid spent cost (spent state) (next state state)) :
    Spends spent cost (get >>= next) := fun state => by
  rw [get_bind]
  exact followed state

end RProxy.Budget
