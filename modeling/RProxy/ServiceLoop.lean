import RProxy.Machine

/-!
Threads that run `while (!stop) { item = take(); .. }`, where `take` blocks as
long as there is nothing to take: what a request to stop does to them.
-/

namespace RProxy

/-- `take` blocks where it is `none`. `advance` is one step of the loop body; it
ends the body where it leaves no item. -/
structure Service (Source Item Event : Type) where
  arrive : Source → Event → Option Source
  take : Nat → Source → Option (Item × Source)
  advance : Nat → Source → Item → Source × Option Item

namespace Service

inductive Phase (Item : Type) where
  | testing
  | waiting
  | working (item : Item)
  | returned
  deriving DecidableEq

structure Threads (Source Item : Type) where
  source : Source
  stop : Bool
  phases : List (Phase Item)

inductive Action (Event : Type) where
  | arrive (event : Event)
  | stop
  | test (thread : Nat)
  | take (thread : Nat)
  | advance (thread : Nat)
  deriving DecidableEq

section Steps

variable {Source Item Event : Type} (service : Service Source Item Event)

/-- `n` threads before their first test of the flag. -/
def start (source : Source) (n : Nat) : Threads Source Item :=
  ⟨source, false, List.replicate n .testing⟩

def threads : Machine (Threads Source Item) (Action Event) where
  step state action :=
    match action with
    | .arrive event => (service.arrive state.source event).map fun source =>
        { state with source := source }
    | .stop => some { state with stop := true }
    | .test thread =>
        match state.phases[thread]? with
        | some .testing => some { state with
            phases := state.phases.set thread (if state.stop then .returned else .waiting) }
        | _ => none
    | .take thread =>
        match state.phases[thread]? with
        | some .waiting => (service.take thread state.source).map fun (item, source) =>
            { state with source := source, phases := state.phases.set thread (.working item) }
        | _ => none
    | .advance thread =>
        match state.phases[thread]? with
        | some (.working item) =>
            let (source, later) := service.advance thread state.source item
            some { state with
              source := source
              phases := state.phases.set thread (later.elim .testing .working) }
        | _ => none

/-- Everything that a step can do. -/
inductive Step (state : Threads Source Item) : Action Event → Threads Source Item → Prop where
  | arrived {event : Event} {source : Source}
      (arrives : service.arrive state.source event = some source) :
      Step state (.arrive event) { state with source := source }
  | stopped : Step state .stop { state with stop := true }
  | tested {thread : Nat} (here : state.phases[thread]? = some .testing) :
      Step state (.test thread) { state with
        phases := state.phases.set thread (if state.stop then .returned else .waiting) }
  | took {thread : Nat} {item : Item} {source : Source}
      (here : state.phases[thread]? = some .waiting)
      (taken : service.take thread state.source = some (item, source)) :
      Step state (.take thread)
        { state with source := source, phases := state.phases.set thread (.working item) }
  | advanced {thread : Nat} {item : Item} (here : state.phases[thread]? = some (.working item)) :
      Step state (.advance thread) { state with
        source := (service.advance thread state.source item).1
        phases := state.phases.set thread
          ((service.advance thread state.source item).2.elim .testing .working) }

theorem step_cases {state next : Threads Source Item} {action : Action Event}
    (stepped : service.threads.step state action = some next) :
    Step service state action next := by
  cases action with
  | arrive event =>
      obtain ⟨source, arrives, rfl⟩ := Option.map_eq_some_iff.mp stepped
      exact .arrived arrives
  | stop =>
      cases stepped
      exact .stopped
  | test thread =>
      simp only [threads] at stepped
      split at stepped
      · next here =>
          cases stepped
          exact .tested here
      · cases stepped
  | take thread =>
      simp only [threads] at stepped
      split at stepped
      · next here =>
          obtain ⟨⟨item, source⟩, taken, rfl⟩ := Option.map_eq_some_iff.mp stepped
          exact .took here taken
      · cases stepped
  | advance thread =>
      simp only [threads] at stepped
      split at stepped
      · next item here =>
          cases stepped
          exact .advanced here
      · cases stepped

/-- What the threads weigh together. -/
def weigh (weight : Phase Item → Nat) (phases : List (Phase Item)) : Nat :=
  (phases.map weight).sum

theorem weigh_set (weight : Phase Item → Nat) {phases : List (Phase Item)} {thread : Nat}
    {phase : Phase Item} (here : phases[thread]? = some phase) (next : Phase Item) :
    weigh weight (phases.set thread next) + weight phase = weigh weight phases + weight next := by
  induction phases generalizing thread with
  | nil => cases here
  | cons first rest ih =>
      cases thread with
      | zero =>
          cases here
          simp only [weigh, List.set_cons_zero, List.map_cons, List.sum_cons]
          omega
      | succ thread =>
          have later := ih here
          simp only [weigh, List.set_cons_succ, List.map_cons, List.sum_cons] at later ⊢
          omega

/-- What is counted in the source and what the threads still have to add to it.
A thread that tests the flag adds nothing any more, once it is set. -/
structure Conserves (count : Source → Nat) (weight : Phase Item → Nat) : Prop where
  testing : weight .testing = 0
  returned : weight .returned = 0
  arrive : ∀ source event next, service.arrive source event = some next → count next = count source
  take : ∀ thread source item next, service.take thread source = some (item, next) →
    count next + weight (.working item) = count source + weight .waiting
  advance : ∀ thread source item, count (service.advance thread source item).1 +
    weight ((service.advance thread source item).2.elim .testing .working) =
      count source + weight (.working item)

variable {service}

theorem step_conserves {count : Source → Nat} {weight : Phase Item → Nat}
    (conserves : service.Conserves count weight) (total : Nat)
    (state : Threads Source Item) (action : Action Event) (next : Threads Source Item)
    (holds : state.stop = true ∧ count state.source + weigh weight state.phases = total)
    (stepped : service.threads.step state action = some next) :
    next.stop = true ∧ count next.source + weigh weight next.phases = total := by
  rcases holds with ⟨stop, sum⟩
  cases service.step_cases stepped with
  | @arrived event source arrives =>
      refine ⟨stop, ?_⟩
      show count source + weigh weight state.phases = total
      rw [conserves.arrive _ event source arrives, sum]
  | stopped => exact ⟨rfl, sum⟩
  | tested here =>
      refine ⟨stop, ?_⟩
      have moved := weigh_set weight here .returned
      rw [conserves.testing, conserves.returned] at moved
      simp only [stop, ↓reduceIte]
      omega
  | @took thread item source here taken =>
      refine ⟨stop, ?_⟩
      have moved := weigh_set weight here (.working item)
      have counted := conserves.take thread _ item source taken
      simp only
      omega
  | @advanced thread item here =>
      refine ⟨stop, ?_⟩
      have moved := weigh_set weight here
        ((service.advance thread state.source item).2.elim .testing .working)
      have counted := conserves.advance thread state.source item
      simp only
      omega

/-- After a request to stop, a run adds to the count what its threads lose. -/
theorem run_conserves {count : Source → Nat} {weight : Phase Item → Nat}
    (conserves : service.Conserves count weight) {state final : Threads Source Item}
    {actions : List (Action Event)} (stop : state.stop = true)
    (ran : service.threads.run state actions = some final) :
    count final.source + weigh weight final.phases =
      count state.source + weigh weight state.phases :=
  (service.threads.run_preserves
    (fun reached => reached.stop = true ∧ count reached.source + weigh weight reached.phases =
      count state.source + weigh weight state.phases)
    (step_conserves conserves _) ⟨stop, rfl⟩ ran).2

/-- No thread returns as long as nobody requests it. -/
theorem step_unreturned (state : Threads Source Item) (action : Action Event)
    (next : Threads Source Item)
    (holds : state.stop = false ∧ .returned ∉ state.phases) (allowed : action ≠ .stop)
    (stepped : service.threads.step state action = some next) :
    next.stop = false ∧ .returned ∉ next.phases := by
  rcases holds with ⟨unstopped, absent⟩
  have kept : ∀ (thread : Nat) (phase : Phase Item), phase ≠ .returned →
      .returned ∉ state.phases.set thread phase := by
    intro thread phase other member
    rcases List.mem_or_eq_of_mem_set member with old | new
    · exact absent old
    · exact other new.symm
  cases service.step_cases stepped with
  | arrived => exact ⟨unstopped, absent⟩
  | stopped => exact absurd rfl allowed
  | tested => exact ⟨unstopped, kept _ _ (by simp [unstopped])⟩
  | took => exact ⟨unstopped, kept _ _ (by simp)⟩
  | @advanced thread item =>
      refine ⟨unstopped, kept _ _ ?_⟩
      cases (service.advance thread state.source item).2 <;> simp

theorem run_unreturned {state final : Threads Source Item} {actions : List (Action Event)}
    (unstopped : state.stop = false) (absent : .returned ∉ state.phases)
    (unrequested : .stop ∉ actions) (ran : service.threads.run state actions = some final) :
    .returned ∉ final.phases := by
  induction actions generalizing state with
  | nil =>
      cases ran
      exact absent
  | cons action rest ih =>
      rw [Machine.run_cons] at ran
      obtain ⟨next, stepped, later⟩ := Option.bind_eq_some_iff.mp ran
      have other : action ≠ .stop := fun same => unrequested (by simp [same])
      have kept := step_unreturned state action next ⟨unstopped, absent⟩ other stepped
      exact ih kept.1 kept.2 (fun member => unrequested (List.mem_cons_of_mem _ member)) later

theorem step_length (length : Nat) (state : Threads Source Item) (action : Action Event)
    (next : Threads Source Item) (holds : state.phases.length = length)
    (stepped : service.threads.step state action = some next) : next.phases.length = length := by
  cases service.step_cases stepped with
  | arrived => exact holds
  | stopped => exact holds
  | tested => simpa using holds
  | took => simpa using holds
  | advanced => simpa using holds

/-- Where all threads have returned there was a first request to stop, and from
there on the count grew by what the threads weighed then. -/
theorem returned_cases {count : Source → Nat} {weight : Phase Item → Nat}
    (conserves : service.Conserves count weight) {source : Source} {n : Nat} (several : 0 < n)
    {actions : List (Action Event)} {final : Threads Source Item}
    (ran : service.threads.run (start source n) actions = some final)
    (returned : ∀ phase ∈ final.phases, phase = .returned) :
    ∃ before after reached, actions = before ++ .stop :: after ∧ .stop ∉ before ∧
      service.threads.run (start source n) before = some reached ∧
      count final.source = count reached.source + weigh weight reached.phases := by
  have length : final.phases.length = n :=
    service.threads.run_preserves _ (step_length n) (List.length_replicate) ran
  obtain ⟨phase, member⟩ := List.exists_mem_of_length_pos (length ▸ several)
  have requested : .stop ∈ actions := by
    by_contra unrequested
    apply run_unreturned rfl _ unrequested ran
    · rw [← returned phase member]
      exact member
    · simp [start]
  obtain ⟨before, after, rfl, first⟩ := List.eq_append_cons_of_mem requested
  rw [Machine.run_append] at ran
  obtain ⟨reached, ranBefore, ranAfter⟩ := Option.bind_eq_some_iff.mp ran
  refine ⟨before, after, reached, rfl, first, ranBefore, ?_⟩
  rw [Machine.run_cons] at ranAfter
  have gone : weigh weight final.phases = 0 := by
    rw [weigh, List.sum_eq_zero]
    intro each among
    obtain ⟨last, there, rfl⟩ := List.mem_map.mp among
    rw [returned last there, conserves.returned]
  have kept := run_conserves conserves rfl ranAfter
  rw [gone] at kept
  exact kept

/-- No thread can take a step of its own. -/
def Resting (service : Service Source Item Event) (state : Threads Source Item) : Prop :=
  ∀ thread, service.threads.step state (.test thread) = none ∧
    service.threads.step state (.take thread) = none ∧
    service.threads.step state (.advance thread) = none

/-- A thread that rests after a request to stop has returned, or it is blocked. -/
theorem resting_phase {state : Threads Source Item} (resting : service.Resting state)
    {thread : Nat} {phase : Phase Item} (here : state.phases[thread]? = some phase) :
    phase = .returned ∨ (phase = .waiting ∧ service.take thread state.source = none) := by
  obtain ⟨test, take, advance⟩ := resting thread
  cases phase with
  | testing => simp [threads, here] at test
  | waiting =>
      right
      simpa [threads, here] using take
  | working item => simp [threads, here] at advance
  | returned => exact Or.inl rfl

end Steps
end Service
end RProxy
