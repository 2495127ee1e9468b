import RProxy.SocketMaps

/-!
`mx_` never deadlocks: whoever has it can go on, and gives it back after a few steps of
its own, whatever the others do. What comes before and after the section under the lock
may take as long as it likes; `read` and `send` of `forward` are there, and they block.
-/

namespace RProxy.Handlers

variable {n m : Nat}

/-- The steps that are left until `mx_` is given back, and none outside of its section. -/
def ForwardPc.left : ForwardPc → Nat
  | .findAgain _ => 7
  | .connect _ => 6
  | .register _ _ => 5
  | .insert _ _ => 4
  | .insertReversed _ _ => 3
  | .registerAgain _ _ => 2
  | .unlock _ => 1
  | _ => 0

def Loop.left (loop : Loop) : Nat :=
  match loop.pc, loop.resps with
  | .find, _ :: _ => 3
  | .eraseReversed, _ :: _ => 2
  | .erase, _ :: _ => 1
  | _, _ => 0

def Threads.left (state : Threads n m) : Fin n ⊕ Fin m → Nat
  | .inl loop => (state.loops loop).left
  | .inr thread => (state.forwards thread).left

/-- The steps of one thread. -/
def Action.isOf (who : Fin n ⊕ Fin m) : Action n m → Bool
  | .wait loop _ => who = .inl loop
  | .handle loop => who = .inl loop
  | .forward thread _ => who = .inr thread
  | .connect thread _ => who = .inr thread
  | .advance thread => who = .inr thread
  | _ => false

/-- A thread that needs `mx_` for its next step. -/
def Threads.waits (state : Threads n m) : Fin n ⊕ Fin m → Prop
  | .inl loop => (state.loops loop).pc = .lock ∧ (state.loops loop).resps ≠ []
  | .inr thread => ∃ incoming, state.forwards thread = .lock incoming

/-- The process runs, and `who` has `mx_`. -/
def Holds (who : Fin n ⊕ Fin m) (state : Threads n m) : Prop :=
  state.mx = some who ∧ state.fault = none

/-- Who has `mx_` is in its section. -/
def Held (state : Threads n m) : Prop := ∀ who, state.mx = some who → 0 < state.left who

section Steps

variable {state next : Threads n m}

/-- What a step of `who` does: nothing to the others, and to the lock that `who` keeps it
for one step less, takes it or gives it back. -/
structure Moves (state next : Threads n m) (who : Fin n ⊕ Fin m) : Prop where
  others : ∀ other, other ≠ who → next.left other = state.left other
  lock : (next.mx = state.mx ∧
      (0 < state.left who → 0 < next.left who ∧ next.left who < state.left who)) ∨
    (state.mx = none ∧ next.mx = some who ∧ 0 < next.left who) ∨ next.mx = none

theorem moves_loop {loop : Fin n} {before moved : Loop} (here : state.loops loop = before)
    (loops : next.loops = Function.update state.loops loop moved)
    (forwards : next.forwards = state.forwards)
    (lock : (next.mx = state.mx ∧ (0 < before.left → 0 < moved.left ∧ moved.left < before.left)) ∨
      (state.mx = none ∧ next.mx = some (.inl loop) ∧ 0 < moved.left) ∨ next.mx = none) :
    Moves state next (.inl loop) := by
  have after : next.left (.inl loop) = moved.left := by
    simp only [Threads.left, loops, Function.update_self]
  have left : state.left (.inl loop) = before.left := by simp only [Threads.left, here]
  refine ⟨?_, by rw [after, left]; exact lock⟩
  rintro (other | thread) different
  · have distinct : other ≠ loop := fun same => different (congrArg Sum.inl same)
    simp only [Threads.left, loops, Function.update_of_ne distinct]
  · simp only [Threads.left, forwards]

theorem moves_forward {thread : Fin m} {before pc : ForwardPc}
    (here : state.forwards thread = before) (loops : next.loops = state.loops)
    (forwards : next.forwards = Function.update state.forwards thread pc)
    (lock : (next.mx = state.mx ∧ (0 < before.left → 0 < pc.left ∧ pc.left < before.left)) ∨
      (state.mx = none ∧ next.mx = some (.inr thread) ∧ 0 < pc.left) ∨ next.mx = none) :
    Moves state next (.inr thread) := by
  have after : next.left (.inr thread) = pc.left := by
    simp only [Threads.left, forwards, Function.update_self]
  have left : state.left (.inr thread) = before.left := by simp only [Threads.left, here]
  refine ⟨?_, by rw [after, left]; exact lock⟩
  rintro (loop | other) different
  · simp only [Threads.left, loops]
  · have distinct : other ≠ thread := fun same => different (congrArg Sum.inr same)
    simp only [Threads.left, forwards, Function.update_of_ne distinct]

/-- A step outside of the section. -/
theorem outside {before after : Nat} {same : Prop} (none_left : before = 0) (kept : same) :
    same ∧ (0 < before → 0 < after ∧ after < before) :=
  ⟨kept, fun inside => absurd inside (by omega)⟩

theorem handle_moves {loop : Fin n} (stepped : state.handle loop = some next) :
    next = state.throws ∨ Moves state next (.inl loop) := by
  cases here : state.loops loop with
  | mk pc resps =>
      simp only [Threads.handle, here] at stepped
      cases resps with
      | nil => cases stepped
      | cons resp rest =>
          cases pc with
          | print =>
              simp only at stepped
              split at stepped
              · cases stepped
                exact Or.inl rfl
              · right
                split at stepped
                · cases stepped
                  exact moves_loop here rfl rfl (Or.inl (outside rfl rfl))
                · split at stepped <;> cases stepped <;>
                    exact moves_loop here rfl rfl (Or.inl (outside rfl rfl))
          | relay =>
              simp only at stepped
              split at stepped <;> cases stepped
              · exact Or.inl rfl
              · exact Or.inr (moves_loop here rfl rfl (Or.inl (outside rfl rfl)))
          | close =>
              cases stepped
              exact Or.inr (moves_loop here rfl rfl (Or.inl (outside rfl rfl)))
          | lock =>
              simp only at stepped
              split at stepped
              · cases stepped
              · next free =>
                  cases stepped
                  exact Or.inr (moves_loop here rfl rfl
                    (Or.inr (Or.inl ⟨free, rfl, by simp [Loop.left]⟩)))
          | find =>
              simp only at stepped
              split at stepped <;> cases stepped
              · exact Or.inr (moves_loop here rfl rfl
                  (Or.inl ⟨rfl, fun _ => by simp [Loop.left]⟩))
              · exact Or.inr (moves_loop here rfl rfl (Or.inr (Or.inr rfl)))
          | eraseReversed =>
              simp only at stepped
              split at stepped <;> cases stepped
              · exact Or.inl rfl
              · exact Or.inr (moves_loop here rfl rfl
                  (Or.inl ⟨rfl, fun _ => by simp [Loop.left]⟩))
          | erase =>
              cases stepped
              exact Or.inr (moves_loop here rfl rfl (Or.inr (Or.inr rfl)))

theorem connect_moves {thread : Fin m} {result : Option Fd}
    (stepped : state.connect thread result = some next) : Moves state next (.inr thread) := by
  simp only [Threads.connect] at stepped
  split at stepped
  · next here =>
      cases stepped
      exact moves_forward here rfl rfl (Or.inr (Or.inr rfl))
  · next here =>
      split at stepped <;> cases stepped
      exact moves_forward here rfl rfl (Or.inl ⟨rfl, fun _ => by simp [ForwardPc.left]⟩)
  · cases stepped

theorem advance_moves {thread : Fin m} (stepped : state.advance thread = some next) :
    next = state.throws ∨ Moves state next (.inr thread) := by
  cases here : state.forwards thread with
  | idle => simp [Threads.advance, here] at stepped
  | connect incoming => simp [Threads.advance, here] at stepped
  | find incoming =>
      simp only [Threads.advance, here, Option.some.injEq] at stepped
      subst stepped
      exact Or.inr (moves_forward here rfl rfl (Or.inl (outside rfl rfl)))
  | lock incoming =>
      simp only [Threads.advance, here] at stepped
      split at stepped
      · cases stepped
      · next free =>
          cases stepped
          exact Or.inr (moves_forward here rfl rfl
            (Or.inr (Or.inl ⟨free, rfl, by simp [ForwardPc.left]⟩)))
  | findAgain incoming =>
      simp only [Threads.advance, here, Option.some.injEq] at stepped
      subst stepped
      right
      refine moves_forward here rfl rfl (Or.inl ⟨rfl, fun _ => ?_⟩)
      split <;> simp [ForwardPc.left]
  | unlock incoming =>
      simp only [Threads.advance, here] at stepped
      cases stepped
      exact Or.inr (moves_forward here rfl rfl (Or.inr (Or.inr rfl)))
  | lookup incoming =>
      simp only [Threads.advance, here] at stepped
      split at stepped <;> cases stepped
      · exact Or.inr (moves_forward here rfl rfl (Or.inl (outside rfl rfl)))
      · exact Or.inl rfl
  | _ =>
      simp only [Threads.advance, here] at stepped
      cases stepped
      exact Or.inr (moves_forward here rfl rfl
        (Or.inl ⟨rfl, fun _ => by simp [ForwardPc.left]⟩))

/-- A handler begins outside of its section. -/
theorem wait_moves {loop : Fin n} {resps : List Resp} (waited : state.wait loop resps = some next) :
    Moves state next (.inl loop) := by
  simp only [Threads.wait] at waited
  split at waited <;> cases waited
  next ready =>
    have before : (state.loops loop).left = 0 := by simp [Loop.left, ready.1]
    exact moves_loop rfl rfl rfl (Or.inl (outside before rfl))

theorem begin_moves {thread : Fin m} {incoming : Fd}
    (begun : state.forward thread incoming = some next) : Moves state next (.inr thread) := by
  simp only [Threads.forward] at begun
  split at begun <;> cases begun
  next idle => exact moves_forward idle rfl rfl (Or.inl (outside rfl rfl))

/-- A step is one of a thread, or it throws, or it is one of the clients. -/
theorem step_moves (action : Action n m) (stepped : handlers.step state action = some next) :
    (∃ who, action.isOf who = true ∧ Moves state next who) ∨ next = state.throws ∨
      ((∀ who, action.isOf who = false) ∧ next.mx = state.mx ∧ next.left = state.left) := by
  simp only [handlers] at stepped
  split at stepped
  · cases stepped
  · cases action with
    | accept fd =>
        simp only [Threads.accept] at stepped
        split at stepped <;> cases stepped
        exact Or.inr (Or.inr ⟨fun _ => rfl, rfl, funext fun who => by cases who <;> rfl⟩)
    | leave fd =>
        simp only [Threads.leave] at stepped
        split at stepped
        · cases stepped
        · split at stepped <;> cases stepped
          exact Or.inr (Or.inr ⟨fun _ => rfl, rfl, funext fun who => by cases who <;> rfl⟩)
    | wait loop resps => exact Or.inl ⟨.inl loop, by simp [Action.isOf], wait_moves stepped⟩
    | handle loop =>
        rcases handle_moves stepped with thrown | moves
        · exact Or.inr (Or.inl thrown)
        · exact Or.inl ⟨.inl loop, by simp [Action.isOf], moves⟩
    | forward thread incoming =>
        exact Or.inl ⟨.inr thread, by simp [Action.isOf], begin_moves stepped⟩
    | connect thread result =>
        exact Or.inl ⟨.inr thread, by simp [Action.isOf], connect_moves stepped⟩
    | advance thread =>
        rcases advance_moves stepped with thrown | moves
        · exact Or.inr (Or.inl thrown)
        · exact Or.inl ⟨.inr thread, by simp [Action.isOf], moves⟩

theorem isOf_unique {who other : Fin n ⊕ Fin m} {action : Action n m}
    (mine : action.isOf who = true) (others : action.isOf other = true) : who = other := by
  cases action <;> simp_all [Action.isOf]

theorem step_held (state : Threads n m) (action : Action n m) (next : Threads n m)
    (held : Held state) (stepped : handlers.step state action = some next) : Held next := by
  intro holder has
  rcases step_moves action stepped with ⟨who, _, moves⟩ | thrown | ⟨_, same, left⟩
  · rcases moves.lock with ⟨same, lower⟩ | ⟨_, taken, entered⟩ | freed
    · have before := held holder (same ▸ has)
      by_cases here : holder = who
      · exact here ▸ (lower (here ▸ before)).1
      · rw [moves.others holder here]
        exact before
    · rw [taken] at has
      cases has
      exact entered
    · rw [freed] at has
      cases has
  · subst thrown
    exact held holder has
  · rw [left]
    exact held holder (same ▸ has)

/-- While `who` has `mx_`, its own steps are used up, and the others use none of them. -/
theorem step_lowers (who : Fin n ⊕ Fin m) (state : Threads n m) (action : Action n m)
    (next : Threads n m) (held : Held state) (holds : Holds who state) (still : Holds who next)
    (stepped : handlers.step state action = some next) :
    next.left who + (if action.isOf who then 1 else 0) ≤ state.left who := by
  rcases step_moves action stepped with ⟨mover, mine, moves⟩ | thrown | ⟨nobody, _, left⟩
  · by_cases here : mover = who
    · subst here
      rw [if_pos mine]
      rcases moves.lock with ⟨_, lower⟩ | ⟨free, _⟩ | freed
      · exact (lower (held mover holds.1)).2
      · rw [holds.1] at free
        cases free
      · rw [still.1] at freed
        cases freed
    · have other : ¬ action.isOf who = true := fun also => here (isOf_unique mine also)
      rw [if_neg other, moves.others who (Ne.symm here)]
      exact Nat.le_refl _
  · rw [thrown] at still
    cases still.2
  · rw [nobody who, left]
    exact Nat.le_refl _

theorem start_held [NeZero n] : Held (Threads.start : Threads n m) := by
  intro who taken
  cases taken

/-- Nobody keeps a thread from its steps under `mx_`; `connectTo` returns or throws. -/
theorem holder_goes_on {who : Fin n ⊕ Fin m} (held : Held state) (holds : Holds who state) :
    ∃ action, action.isOf who = true ∧ (handlers.step state action).isSome = true := by
  have inside := held who holds.1
  cases who with
  | inl loop =>
      refine ⟨.handle loop, by simp [Action.isOf], ?_⟩
      simp only [handlers, holds.2, Option.isSome_none, Bool.false_eq_true, ↓reduceIte,
        Threads.handle]
      cases here : state.loops loop with
      | mk pc resps =>
          simp only [Threads.left, here] at inside
          cases resps with
          | nil => cases pc <;> cases inside
          | cons resp rest =>
              cases pc with
              | find => simp only; split <;> rfl
              | eraseReversed => simp only; split <;> rfl
              | erase => rfl
              | _ => cases inside
  | inr thread =>
      simp only [Threads.left] at inside
      by_cases connects : ∃ incoming, state.forwards thread = .connect incoming
      · obtain ⟨incoming, here⟩ := connects
        refine ⟨.connect thread none, by simp [Action.isOf], ?_⟩
        simp [handlers, holds.2, Threads.connect, here]
      · refine ⟨.advance thread, by simp [Action.isOf], ?_⟩
        simp only [handlers, holds.2, Option.isSome_none, Bool.false_eq_true, ↓reduceIte,
          Threads.advance]
        cases here : state.forwards thread with
        | connect incoming => exact absurd ⟨incoming, here⟩ connects
        | _ => first | rfl | (rw [here] at inside; cases inside)

/-- A free lock can be taken. -/
theorem waiting_goes_on {who : Fin n ⊕ Fin m} (waits : state.waits who)
    (free : state.mx = none) (running : state.fault = none) :
    ∃ action next, action.isOf who = true ∧ handlers.step state action = some next ∧
      next.mx = some who := by
  cases who with
  | inl loop =>
      obtain ⟨pc, busy⟩ := waits
      obtain ⟨resp, rest, resps⟩ := List.exists_cons_of_ne_nil busy
      have here : state.loops loop = ⟨.lock, resp :: rest⟩ := by rw [← pc, ← resps]
      refine ⟨.handle loop, { state.goLoop loop .find (resp :: rest) with mx := some (.inl loop) },
        by simp [Action.isOf], ?_, rfl⟩
      simp only [handlers, running, Option.isSome_none, Bool.false_eq_true, ↓reduceIte,
        Threads.handle, here, free]
  | inr thread =>
      obtain ⟨incoming, here⟩ := waits
      refine ⟨.advance thread,
        { state.goForward thread (.findAgain incoming) with mx := some (.inr thread) },
        by simp [Action.isOf], ?_, rfl⟩
      simp only [handlers, running, Option.isSome_none, Bool.false_eq_true, ↓reduceIte,
        Threads.advance, here, free]

end Steps

/-- Who has `mx_` can take its next step, and takes at most six of them before it gives
the lock back, wherever in between the others take theirs; a lock that is free can be
taken by each thread that waits for it. -/
structure Frees (state : Threads n m) : Prop where
  goesOn : ∀ who, Holds who state →
    ∃ action, action.isOf who = true ∧ (handlers.step state action).isSome = true
  bounded : ∀ who more final, handlers.Always (Holds who) state more →
    handlers.run state more = some final → more.countP (Action.isOf who) ≤ 6
  taken : ∀ who, state.waits who → state.mx = none → state.fault = none →
    ∃ action next, action.isOf who = true ∧ handlers.step state action = some next ∧
      next.mx = some who

theorem Threads.left_le (state : Threads n m) (who : Fin n ⊕ Fin m) : state.left who ≤ 7 := by
  cases who with
  | inl loop =>
      simp only [Threads.left, Loop.left]
      split <;> omega
  | inr thread =>
      simp only [Threads.left, ForwardPc.left]
      split <;> omega

/-- In every state of every run, with any number of loops and forwarding threads, `mx_` is
not kept for good, also by the `continue` and the exception of `connectTo` under the
guard. A thread that stays in `forward` is outside of the section. -/
theorem mx_never_deadlocks [NeZero n] (actions : List (Action n m)) :
    handlers.Always Frees Threads.start actions := by
  apply handlers.always_preserves step_held _ start_held
  intro state held
  refine ⟨fun who holds => holder_goes_on held holds, ?_, fun who => waiting_goes_on⟩
  intro who more final always ran
  have used := handlers.run_bounded (fun reached => reached.left who) (Action.isOf who) step_held
    (step_lowers who) held always ran
  have still : 0 < final.left who :=
    handlers.run_preserves Held step_held held ran who (handlers.always_final always ran).1
  have most := state.left_le who
  omega

/-- The loop waits for `mx_` while `connectTo` runs under it. -/
def waitingLoop : List (Action 1 1) :=
  establish 6 7 ++ hangUp 7 ++ [.forward (Fin.last 0) 5] ++
    List.replicate 3 (.advance (Fin.last 0))

theorem waiting_loop_frees :
    (handlers.run Threads.start waitingLoop).map
        (fun state => (state.mx, state.left (.inr (Fin.last 0)))) =
      some (some (.inr (Fin.last 0)), 6) ∧
      handlers.Always Frees Threads.start waitingLoop :=
  ⟨by decide +kernel, mx_never_deadlocks waitingLoop⟩

end RProxy.Handlers
