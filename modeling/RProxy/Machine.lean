import Mathlib

/-!
Labelled machines whose `step` refuses an action by returning `none`. All the
nondeterminism of an environment is carried by the actions, so a run is a list
of actions and stays executable. `Meets` records what a run's steps satisfy in
the states they start from.
-/

namespace RProxy

universe u v

structure Machine (State : Type u) (Action : Type v) where
  step : State → Action → Option State

namespace Machine

variable {State : Type u} {Action : Type v} (machine : Machine State Action)

def run : State → List Action → Option State
  | state, [] => some state
  | state, action :: rest => (machine.step state action).bind fun next => run next rest

/-- `allowed` holds at every step that the run takes. -/
def Meets (allowed : State → Action → Prop) : State → List Action → Prop
  | _, [] => True
  | state, action :: rest => allowed state action ∧
      match machine.step state action with
      | some next => Meets allowed next rest
      | none => True

/-- `holds` in every state that the run goes through, the first one included. -/
def Always (holds : State → Prop) : State → List Action → Prop
  | state, [] => holds state
  | state, action :: rest => holds state ∧
      match machine.step state action with
      | some next => Always holds next rest
      | none => True

/-- What a run records, where `events` is what a step records. -/
def log {Event : Type*} (events : State → Action → List Event) : State → List Action → List Event
  | _, [] => []
  | state, action :: rest =>
      match machine.step state action with
      | some next => events state action ++ log events next rest
      | none => []

/-- `later` is where some run from `state` ends that records `trace`. -/
def Reaches {Event : Type*} (events : State → Action → List Event) (state : State)
    (trace : List Event) (later : State) : Prop :=
  ∃ actions, machine.run state actions = some later ∧ machine.log events state actions = trace

instance decidableMeets (allowed : State → Action → Prop)
    [decided : ∀ state action, Decidable (allowed state action)] :
    ∀ state actions, Decidable (machine.Meets allowed state actions)
  | _, [] => isTrue trivial
  | state, action :: rest =>
      match stepped : machine.step state action with
      | some next =>
          have := decidableMeets allowed next rest
          decidable_of_iff (allowed state action ∧ machine.Meets allowed next rest)
            (by simp only [Meets, stepped])
      | none => decidable_of_iff (allowed state action) (by simp only [Meets, stepped, and_true])

@[simp] theorem run_nil (state : State) : machine.run state [] = some state := rfl

theorem run_cons (state : State) (action : Action) (rest : List Action) :
    machine.run state (action :: rest) =
      (machine.step state action).bind fun next => machine.run next rest := rfl

theorem run_append (state : State) (first second : List Action) :
    machine.run state (first ++ second) =
      (machine.run state first).bind fun reached => machine.run reached second := by
  induction first generalizing state with
  | nil => rfl
  | cons action rest ih =>
      rw [List.cons_append, run_cons, run_cons, Option.bind_assoc]
      congr 1
      funext next
      exact ih next

/-- A concrete run is evaluated once, to the properties that are needed of it. -/
theorem run_reaches (test : State → Bool) (state : State) (actions : List Action)
    (evaluated : (machine.run state actions).any test = true) :
    ∃ final, machine.run state actions = some final ∧ test final = true := by
  cases ran : machine.run state actions with
  | none => simp [ran] at evaluated
  | some final => exact ⟨final, rfl, by simpa [ran] using evaluated⟩

theorem log_cons {Event : Type*} {events : State → Action → List Event} {state next : State}
    {action : Action} {rest : List Action} (stepped : machine.step state action = some next) :
    machine.log events state (action :: rest) =
      events state action ++ machine.log events next rest := by
  simp only [log, stepped]

theorem log_append {Event : Type*} (events : State → Action → List Event) {state reached : State}
    {first : List Action} (second : List Action) (ran : machine.run state first = some reached) :
    machine.log events state (first ++ second) =
      machine.log events state first ++ machine.log events reached second := by
  induction first generalizing state with
  | nil =>
      cases ran
      rfl
  | cons action rest ih =>
      rw [run_cons] at ran
      obtain ⟨next, stepped, later⟩ := Option.bind_eq_some_iff.mp ran
      rw [List.cons_append, machine.log_cons stepped, machine.log_cons stepped, ih later,
        List.append_assoc]

theorem meets_cons {allowed : State → Action → Prop} {state next : State} {action : Action}
    {rest : List Action} (stepped : machine.step state action = some next) :
    machine.Meets allowed state (action :: rest) ↔
      allowed state action ∧ machine.Meets allowed next rest := by
  simp only [Meets, stepped]

/-- A step may use that the run meets `allowed`, and the invariant of the
state it starts from. -/
theorem run_invariant {allowed : State → Action → Prop} (invariant : State → Prop)
    (preserved : ∀ state action next, invariant state → allowed state action →
      machine.step state action = some next → invariant next)
    {state final : State} {actions : List Action} (initial : invariant state)
    (meets : machine.Meets allowed state actions)
    (ran : machine.run state actions = some final) : invariant final := by
  induction actions generalizing state with
  | nil => cases ran; exact initial
  | cons action rest ih =>
      rw [run_cons] at ran
      obtain ⟨next, stepped, later⟩ := Option.bind_eq_some_iff.mp ran
      obtain ⟨allowedHere, meetsLater⟩ := (machine.meets_cons stepped).mp meets
      exact ih (preserved state action next initial allowedHere stepped) meetsLater later

theorem always_cons {holds : State → Prop} {state next : State} {action : Action}
    {rest : List Action} (stepped : machine.step state action = some next) :
    machine.Always holds state (action :: rest) ↔
      holds state ∧ machine.Always holds next rest := by
  simp only [Always, stepped]

theorem always_final {holds : State → Prop} {state final : State} {actions : List Action}
    (always : machine.Always holds state actions)
    (ran : machine.run state actions = some final) : holds final := by
  induction actions generalizing state with
  | nil => cases ran; exact always
  | cons action rest ih =>
      rw [run_cons] at ran
      obtain ⟨next, stepped, later⟩ := Option.bind_eq_some_iff.mp ran
      exact ih ((machine.always_cons stepped).mp always).2 later

/-- An invariant of the allowed steps holds throughout a run of such steps. -/
theorem always_of_invariant {allowed : State → Action → Prop} {invariant holds : State → Prop}
    (preserved : ∀ state action next, invariant state → allowed state action →
      machine.step state action = some next → invariant next)
    (enough : ∀ state, invariant state → holds state)
    {state : State} {actions : List Action} (initial : invariant state)
    (meets : machine.Meets allowed state actions) : machine.Always holds state actions := by
  induction actions generalizing state with
  | nil => exact enough state initial
  | cons action rest ih =>
      refine ⟨enough state initial, ?_⟩
      cases stepped : machine.step state action with
      | none => trivial
      | some next =>
          obtain ⟨allowedHere, meetsLater⟩ := (machine.meets_cons stepped).mp meets
          exact ih (preserved state action next initial allowedHere stepped) meetsLater

theorem always_head {holds : State → Prop} {state : State} {actions : List Action}
    (always : machine.Always holds state actions) : holds state := by
  cases actions with
  | nil => exact always
  | cons action rest => exact always.1

/-- What the invariant says of each allowed step holds of every step of such a run. -/
theorem meets_of_invariant {allowed target : State → Action → Prop} {invariant : State → Prop}
    (preserved : ∀ state action next, invariant state → allowed state action →
      machine.step state action = some next → invariant next)
    (enough : ∀ state action, invariant state → allowed state action → target state action)
    {state : State} {actions : List Action} (initial : invariant state)
    (meets : machine.Meets allowed state actions) : machine.Meets target state actions := by
  induction actions generalizing state with
  | nil => trivial
  | cons action rest ih =>
      refine ⟨enough state action initial meets.1, ?_⟩
      cases stepped : machine.step state action with
      | none => trivial
      | some next =>
          obtain ⟨here, later⟩ := (machine.meets_cons stepped).mp meets
          exact ih (preserved state action next initial here stepped) later

theorem meets_of_forall {allowed : State → Action → Prop}
    (always : ∀ state action, allowed state action) (state : State) (actions : List Action) :
    machine.Meets allowed state actions := by
  induction actions generalizing state with
  | nil => trivial
  | cons action rest ih =>
      refine ⟨always state action, ?_⟩
      cases machine.step state action with
      | none => trivial
      | some next => exact ih next

/-- Where two conditions are one under the invariant, and steps that meet it keep
the invariant, the runs that meet the one meet the other. -/
theorem meets_iff {first second : State → Action → Prop} {invariant : State → Prop}
    (same : ∀ state action, invariant state → (first state action ↔ second state action))
    (preserved : ∀ state action next, invariant state → second state action →
      machine.step state action = some next → invariant next)
    {state : State} (initial : invariant state) (actions : List Action) :
    machine.Meets first state actions ↔ machine.Meets second state actions := by
  constructor
  · intro meets
    refine machine.meets_of_invariant ?_ (fun state action holds => (same state action holds).mp)
      initial meets
    intro state action next holds here stepped
    exact preserved state action next holds ((same state action holds).mp here) stepped
  · intro meets
    exact machine.meets_of_invariant preserved
      (fun state action holds => (same state action holds).mpr) initial meets

/-- Where the invariant is kept by the allowed steps and implies what is asked of
each state and each step, and a step that is not allowed breaks that, a run is
right throughout exactly when all its steps are allowed. -/
theorem always_and_meets_iff {allowed target : State → Action → Prop}
    {invariant holds : State → Prop}
    (preserved : ∀ state action next, invariant state → allowed state action →
      machine.step state action = some next → invariant next)
    (enough : ∀ state, invariant state → holds state)
    (hits : ∀ state action, invariant state → allowed state action → target state action)
    (needed : ∀ state action next, invariant state → machine.step state action = some next →
      holds next → target state action → allowed state action)
    (refused : ∀ state action, invariant state → machine.step state action = none →
      allowed state action)
    {state : State} (initial : invariant state) (actions : List Action) :
    machine.Always holds state actions ∧ machine.Meets target state actions ↔
      machine.Meets allowed state actions := by
  constructor
  · rintro ⟨always, meets⟩
    induction actions generalizing state with
    | nil => trivial
    | cons action rest ih =>
        cases stepped : machine.step state action with
        | none => exact ⟨refused state action initial stepped, by simp only [stepped]⟩
        | some next =>
            have later := ((machine.always_cons stepped).mp always).2
            obtain ⟨targetHere, targetLater⟩ := (machine.meets_cons stepped).mp meets
            have here := needed state action next initial stepped (machine.always_head later)
              targetHere
            have kept := preserved state action next initial here stepped
            exact (machine.meets_cons stepped).mpr ⟨here, ih kept later targetLater⟩
  · intro meets
    exact ⟨machine.always_of_invariant preserved enough initial meets,
      machine.meets_of_invariant preserved hits initial meets⟩

/-- The form where nothing is asked of the steps. -/
theorem always_iff_meets {allowed : State → Action → Prop} {invariant holds : State → Prop}
    (preserved : ∀ state action next, invariant state → allowed state action →
      machine.step state action = some next → invariant next)
    (enough : ∀ state, invariant state → holds state)
    (needed : ∀ state action next, invariant state → machine.step state action = some next →
      holds next → allowed state action)
    (refused : ∀ state action, invariant state → machine.step state action = none →
      allowed state action)
    {state : State} (initial : invariant state) (actions : List Action) :
    machine.Always holds state actions ↔ machine.Meets allowed state actions := by
  have any : machine.Meets (fun _ _ => True) state actions :=
    machine.meets_of_forall (fun _ _ => trivial) state actions
  rw [← machine.always_and_meets_iff preserved enough (fun _ _ _ _ => trivial)
    (fun state action next holds stepped after _ => needed state action next holds stepped after)
    refused initial actions]
  exact ⟨fun always => ⟨always, any⟩, And.left⟩

/-- The unconditional form: every run keeps what every step keeps. -/
theorem run_preserves (invariant : State → Prop)
    (preserved : ∀ state action next, invariant state →
      machine.step state action = some next → invariant next)
    {state final : State} {actions : List Action} (initial : invariant state)
    (ran : machine.run state actions = some final) : invariant final :=
  have meets : machine.Meets (fun _ _ => True) state actions :=
    machine.meets_of_forall (fun _ _ => trivial) state actions
  machine.run_invariant invariant
    (fun state action next holds _ stepped => preserved state action next holds stepped)
    initial meets ran

/-- The unconditional form of `always_of_invariant`. -/
theorem always_preserves {invariant holds : State → Prop}
    (preserved : ∀ state action next, invariant state →
      machine.step state action = some next → invariant next)
    (enough : ∀ state, invariant state → holds state)
    {state : State} (initial : invariant state) (actions : List Action) :
    machine.Always holds state actions :=
  have meets : machine.Meets (fun _ _ => True) state actions :=
    machine.meets_of_forall (fun _ _ => trivial) state actions
  machine.always_of_invariant
    (fun state action next holds _ stepped => preserved state action next holds stepped)
    enough initial meets

/-- What a step keeps exactly when it is allowed, and no later step brings back,
holds at the end of a run exactly when it held at first and all steps were allowed. -/
theorem final_iff_meets {allowed : State → Action → Prop} {invariant holds : State → Prop}
    (preserved : ∀ state action next, invariant state →
      machine.step state action = some next → invariant next)
    (exact : ∀ state action next, invariant state → machine.step state action = some next →
      (holds next ↔ holds state ∧ allowed state action))
    {state final : State} {actions : List Action} (initial : invariant state)
    (ran : machine.run state actions = some final) :
    holds final ↔ holds state ∧ machine.Meets allowed state actions := by
  induction actions generalizing state with
  | nil =>
      cases ran
      simp [Meets]
  | cons action rest ih =>
      rw [run_cons] at ran
      obtain ⟨next, stepped, later⟩ := Option.bind_eq_some_iff.mp ran
      rw [ih (preserved state action next initial stepped) later,
        exact state action next initial stepped, machine.meets_cons stepped, and_assoc]

theorem meets_and {first second : State → Action → Prop} {state : State} {actions : List Action}
    (left : machine.Meets first state actions) (right : machine.Meets second state actions) :
    machine.Meets (fun state action => first state action ∧ second state action) state actions := by
  induction actions generalizing state with
  | nil => trivial
  | cons action rest ih =>
      refine ⟨⟨left.1, right.1⟩, ?_⟩
      have leftLater := left.2
      have rightLater := right.2
      cases stepped : machine.step state action with
      | none => trivial
      | some next =>
          simp only [stepped] at leftLater rightLater
          exact ih leftLater rightLater

/-- As long as `during` lasts, the steps of one party lower a rank that those of the
others do not raise, so that it has no more of them than the rank it starts with. -/
theorem run_bounded {invariant during : State → Prop} (rank : State → Nat) (own : Action → Bool)
    (preserved : ∀ state action next, invariant state →
      machine.step state action = some next → invariant next)
    (lowers : ∀ state action next, invariant state → during state → during next →
      machine.step state action = some next →
        rank next + (if own action then 1 else 0) ≤ rank state)
    {state final : State} {actions : List Action} (initial : invariant state)
    (always : machine.Always during state actions)
    (ran : machine.run state actions = some final) :
    rank final + actions.countP own ≤ rank state := by
  induction actions generalizing state with
  | nil =>
      cases ran
      exact Nat.le_refl _
  | cons action rest ih =>
      rw [run_cons] at ran
      obtain ⟨next, stepped, later⟩ := Option.bind_eq_some_iff.mp ran
      obtain ⟨here, afterwards⟩ := (machine.always_cons stepped).mp always
      have lower := lowers state action next initial here (machine.always_head afterwards) stepped
      have others := ih (preserved state action next initial stepped) afterwards later
      rw [List.countP_cons]
      omega

section Simulation

variable {Event : Type*} {events : State → Action → List Event} {machine : Machine State Action}

theorem Reaches.refl (state : State) : machine.Reaches events state [] state :=
  ⟨[], rfl, rfl⟩

theorem Reaches.trans {state middle later : State} {first second : List Event}
    (left : machine.Reaches events state first middle)
    (right : machine.Reaches events middle second later) :
    machine.Reaches events state (first ++ second) later := by
  obtain ⟨before, ran, recorded⟩ := left
  obtain ⟨after, goesOn, recordedLater⟩ := right
  refine ⟨before ++ after, ?_, ?_⟩
  · rw [run_append, ran]
    exact goesOn
  · rw [machine.log_append events after ran, recorded, recordedLater]

/-- Where each step of a machine is a run of a finer one, each of its runs is. -/
theorem run_simulated {Whole Call : Type*} (whole : Machine Whole Call)
    {related : Whole → List Event → State → Prop}
    (simulates : ∀ before call after state trace, related before trace state →
      whole.step before call = some after →
        ∃ later more, machine.Reaches events state more later ∧ related after (trace ++ more) later)
    {before after : Whole} {calls : List Call} {state : State} {trace : List Event}
    (initial : related before trace state) (ran : whole.run before calls = some after) :
    ∃ later more, machine.Reaches events state more later ∧
      related after (trace ++ more) later := by
  induction calls generalizing before state trace with
  | nil =>
      cases ran
      exact ⟨state, [], .refl state, by simpa using initial⟩
  | cons call rest ih =>
      rw [run_cons] at ran
      obtain ⟨next, stepped, goesOn⟩ := Option.bind_eq_some_iff.mp ran
      obtain ⟨middle, first, reached, matched⟩ :=
        simulates before call next state trace initial stepped
      obtain ⟨later, second, reachedLater, matchedLater⟩ := ih matched goesOn
      refine ⟨later, first ++ second, reached.trans reachedLater, ?_⟩
      rw [← List.append_assoc]
      exact matchedLater

end Simulation

end Machine
end RProxy
