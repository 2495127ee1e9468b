import RProxy.Handlers
import RProxy.Mutex

/-!
`sock_map_` and `reversed_map_` as the two halves of one relation: the
invariant that `mx_` guards, in every interleaving of the handlers.
-/

namespace RProxy.Handlers

variable {n m : Nat}

/-- What a thread in its section under `mx_` knows of the maps; an insertion or
a removal that is half done is stated of the maps as it will leave them. -/
def ForwardPc.claim (sockMap reversedMap : UnorderedMap Fd Fd) : ForwardPc → Option Prop
  | .findAgain _ => some (sockMap.Inverse reversedMap)
  | .connect incoming => some (sockMap.Inverse reversedMap ∧ incoming ∉ reversedMap)
  | .register incoming sock =>
      some (sockMap.Inverse reversedMap ∧ incoming ∉ reversedMap ∧ sock ∉ sockMap)
  | .insert incoming sock =>
      some (sockMap.Inverse reversedMap ∧ incoming ∉ reversedMap ∧ sock ∉ sockMap)
  | .insertReversed incoming sock =>
      some (sockMap.Inverse (reversedMap.emplace incoming sock) ∧ incoming ∉ reversedMap)
  | .registerAgain incoming sock =>
      some (sockMap.Inverse reversedMap ∧ reversedMap.lookup incoming = some sock)
  | .unlock incoming => some (sockMap.Inverse reversedMap ∧ incoming ∈ reversedMap)
  | _ => none

def Loop.claim (sockMap reversedMap : UnorderedMap Fd Fd) (loop : Loop) : Option Prop :=
  match loop.pc, loop.resps with
  | .find, _ :: _ => some (sockMap.Inverse reversedMap)
  | .eraseReversed, resp :: _ => some (sockMap.Inverse reversedMap ∧ resp.fd ∈ sockMap)
  | .erase, resp :: _ => some (UnorderedMap.Inverse (AList.erase resp.fd sockMap) reversedMap)
  | _, _ => none

def Threads.claim (state : Threads n m) : Fin n ⊕ Fin m → Option Prop
  | .inl loop => (state.loops loop).claim state.sockMap state.reversedMap
  | .inr thread => (state.forwards thread).claim state.sockMap state.reversedMap

/-- The lock invariant of `mx_`: free, it guards two inverse maps. -/
def Locked (state : Threads n m) : Prop :=
  Guarded state.mx (state.sockMap.Inverse state.reversedMap) state.claim

/-- `connect()` returns no number that `sock_map_` still holds. -/
def Unmapped (state : Threads n m) : Action n m → Prop
  | .connect _ (some sock) => sock ∉ state.sockMap
  | _ => True

instance (state : Threads n m) (action : Action n m) : Decidable (Unmapped state action) := by
  unfold Unmapped
  split <;> infer_instance

theorem forward_claim_inside (pc : ForwardPc) (first second third fourth : UnorderedMap Fd Fd) :
    (pc.claim first second).isSome = (pc.claim third fourth).isSome := by
  cases pc <;> rfl

theorem loop_claim_inside (loop : Loop) (first second third fourth : UnorderedMap Fd Fd) :
    (loop.claim first second).isSome = (loop.claim third fourth).isSome := by
  obtain ⟨pc, resps⟩ := loop
  cases pc <;> cases resps <;> rfl

/-- A thread that moves leaves the others where they are. -/
theorem others_forward {state next : Threads n m} {thread : Fin m} {pc : ForwardPc}
    (loops : next.loops = state.loops)
    (forwards : next.forwards = Function.update state.forwards thread pc)
    (other : Fin n ⊕ Fin m) (different : other ≠ .inr thread) :
    (next.claim other).isSome → (state.claim other).isSome := by
  cases other with
  | inl loop =>
      simp only [Threads.claim, loops]
      rw [loop_claim_inside _ _ _ state.sockMap state.reversedMap]
      exact id
  | inr otherThread =>
      have distinct : otherThread ≠ thread := fun same => different (congrArg Sum.inr same)
      simp only [Threads.claim, forwards, Function.update_of_ne distinct]
      rw [forward_claim_inside _ _ _ state.sockMap state.reversedMap]
      exact id

theorem others_loop {state next : Threads n m} {loop : Fin n} {moved : Loop}
    (forwards : next.forwards = state.forwards)
    (loops : next.loops = Function.update state.loops loop moved)
    (other : Fin n ⊕ Fin m) (different : other ≠ .inl loop) :
    (next.claim other).isSome → (state.claim other).isSome := by
  cases other with
  | inl otherLoop =>
      have distinct : otherLoop ≠ loop := fun same => different (congrArg Sum.inl same)
      simp only [Threads.claim, loops, Function.update_of_ne distinct]
      rw [loop_claim_inside _ _ _ state.sockMap state.reversedMap]
      exact id
  | inr thread =>
      simp only [Threads.claim, forwards]
      rw [forward_claim_inside _ _ _ state.sockMap state.reversedMap]
      exact id

theorem claim_loop {state next : Threads n m} {loop : Fin n} {moved : Loop}
    (loops : next.loops = Function.update state.loops loop moved) :
    next.claim (.inl loop) = moved.claim next.sockMap next.reversedMap := by
  simp [Threads.claim, loops]

theorem claim_forward {state next : Threads n m} {thread : Fin m} {pc : ForwardPc}
    (forwards : next.forwards = Function.update state.forwards thread pc) :
    next.claim (.inr thread) = pc.claim next.sockMap next.reversedMap := by
  simp [Threads.claim, forwards]

section Rules

variable {state next : Threads n m} {known learned : Prop}

section Loop

variable {loop : Fin n} {moved : Loop} (holds : Locked state)
  (inside : (state.loops loop).claim state.sockMap state.reversedMap = some known)
  (forwards : next.forwards = state.forwards)
  (loops : next.loops = Function.update state.loops loop moved)

include holds forwards loops

theorem loop_enters (free : state.mx = none) (taken : next.mx = some (.inl loop))
    (entered : moved.claim next.sockMap next.reversedMap = some known)
    (learn : state.sockMap.Inverse state.reversedMap → known) : Locked next := by
  simp only [Locked] at holds ⊢
  rw [free] at holds
  rw [taken]
  exact holds.enter ((claim_loop loops).trans entered) (others_loop forwards loops) learn

include inside

omit forwards loops in
theorem loop_knows : state.mx = some (.inl loop) ∧ known :=
  have here : state.claim (.inl loop) = some known := inside
  Guarded.knows holds here

theorem loop_stays (same : next.mx = state.mx)
    (stayed : moved.claim next.sockMap next.reversedMap = some learned)
    (learn : known → learned) : Locked next := by
  obtain ⟨mine, knows⟩ := loop_knows holds inside
  simp only [Locked] at holds ⊢
  rw [mine] at holds
  rw [same, mine]
  exact holds.stay ((claim_loop loops).trans stayed) (others_loop forwards loops) (learn knows)

theorem loop_leaves (free : next.mx = none)
    (left : moved.claim next.sockMap next.reversedMap = none)
    (learn : known → next.sockMap.Inverse next.reversedMap) : Locked next := by
  obtain ⟨mine, knows⟩ := loop_knows holds inside
  simp only [Locked] at holds ⊢
  rw [mine] at holds
  rw [free]
  exact holds.leave ((claim_loop loops).trans left) (others_loop forwards loops) (learn knows)

end Loop

section Forward

variable {thread : Fin m} {pc moved : ForwardPc} (holds : Locked state)
  (here : state.forwards thread = pc)
  (inside : pc.claim state.sockMap state.reversedMap = some known)
  (loops : next.loops = state.loops)
  (forwards : next.forwards = Function.update state.forwards thread moved)

include holds loops forwards

theorem forward_enters (free : state.mx = none) (taken : next.mx = some (.inr thread))
    (entered : moved.claim next.sockMap next.reversedMap = some known)
    (learn : state.sockMap.Inverse state.reversedMap → known) : Locked next := by
  simp only [Locked] at holds ⊢
  rw [free] at holds
  rw [taken]
  exact holds.enter ((claim_forward forwards).trans entered) (others_forward loops forwards) learn

include here inside

omit loops forwards in
theorem forward_knows : state.mx = some (.inr thread) ∧ known := by
  have claim : state.claim (.inr thread) = some known := by
    simp only [Threads.claim, here, inside]
  exact Guarded.knows holds claim

theorem forward_stays (same : next.mx = state.mx)
    (stayed : moved.claim next.sockMap next.reversedMap = some learned)
    (learn : known → learned) : Locked next := by
  obtain ⟨mine, knows⟩ := forward_knows holds here inside
  simp only [Locked] at holds ⊢
  rw [mine] at holds
  rw [same, mine]
  exact holds.stay ((claim_forward forwards).trans stayed) (others_forward loops forwards)
    (learn knows)

theorem forward_leaves (free : next.mx = none)
    (left : moved.claim next.sockMap next.reversedMap = none)
    (learn : known → next.sockMap.Inverse next.reversedMap) : Locked next := by
  obtain ⟨mine, knows⟩ := forward_knows holds here inside
  simp only [Locked] at holds ⊢
  rw [mine] at holds
  rw [free]
  exact holds.leave ((claim_forward forwards).trans left) (others_forward loops forwards)
    (learn knows)

end Forward
end Rules

theorem aside_loop {state : Threads n m} {loop : Fin n} (holds : Locked state)
    (outside : state.claim (.inl loop) = none) (pc : WaitPc) (resps : List Resp)
    (moved : Loop.claim state.sockMap state.reversedMap ⟨pc, resps⟩ = none) :
    Locked (state.goLoop loop pc resps) := by
  apply Guarded.aside holds outside
  · exact (claim_loop rfl).trans moved
  · intro other different
    cases other with
    | inl watcher =>
        have distinct : watcher ≠ loop := fun same => different (congrArg Sum.inl same)
        simp [Threads.claim, Threads.goLoop, distinct]
    | inr thread => rfl

theorem aside_forward {state : Threads n m} {thread : Fin m} (holds : Locked state)
    {left : ForwardPc} (here : state.forwards thread = left)
    (outside : left.claim state.sockMap state.reversedMap = none) (pc : ForwardPc)
    (moved : pc.claim state.sockMap state.reversedMap = none) :
    Locked (state.goForward thread pc) := by
  have claim : state.claim (.inr thread) = none := by
    simp only [Threads.claim, here, outside]
  apply Guarded.aside holds claim
  · exact (claim_forward rfl).trans moved
  · intro other different
    cases other with
    | inl watcher => rfl
    | inr other =>
        have distinct : other ≠ thread := fun same => different (congrArg Sum.inr same)
        simp [Threads.claim, Threads.goForward, distinct]

theorem handle_locked {state next : Threads n m} {loop : Fin n} (holds : Locked state)
    (stepped : state.handle loop = some next) : Locked next := by
  cases here : state.loops loop with
  | mk pc resps =>
    have claim := congrArg (Loop.claim state.sockMap state.reversedMap) here
    simp only [Threads.handle, here] at stepped
    cases resps with
    | nil => cases stepped
    | cons resp rest =>
        cases pc with
        | print =>
            simp only at stepped
            split at stepped
            · cases stepped
              exact holds
            · split at stepped
              · cases stepped
                exact aside_loop holds claim .relay _ rfl
              · split at stepped <;> cases stepped
                · exact aside_loop holds claim .close _ rfl
                · exact aside_loop holds claim .print _ rfl
        | relay =>
            simp only at stepped
            split at stepped <;> cases stepped
            · exact holds
            · exact aside_loop holds claim .print _ rfl
        | close =>
            cases stepped
            exact aside_loop holds claim .lock _ rfl
        | lock =>
            simp only at stepped
            split at stepped
            · cases stepped
            · next free =>
                cases stepped
                exact loop_enters holds rfl rfl free rfl rfl id
        | find =>
            simp only at stepped
            split at stepped <;> cases stepped
            -- under the lock the test tells what the next step finds
            · next found =>
                exact loop_stays holds claim rfl rfl rfl rfl (fun inverse => ⟨inverse, found⟩)
            · exact loop_leaves holds claim rfl rfl rfl rfl id
        | eraseReversed =>
            simp only at stepped
            split at stepped
            · cases stepped
              exact holds
            · next incoming found =>
                cases stepped
                exact loop_stays holds claim rfl rfl rfl rfl
                  (fun knows => knows.1.erase found)
        | erase =>
            cases stepped
            exact loop_leaves holds claim rfl rfl rfl rfl id

theorem connect_locked {state next : Threads n m} {thread : Fin m} {result : Option Fd}
    (holds : Locked state) (unmapped : Unmapped state (.connect thread result))
    (stepped : state.connect thread result = some next) : Locked next := by
  simp only [Threads.connect] at stepped
  split at stepped
  · next incoming here =>
      cases stepped
      exact forward_leaves holds here rfl rfl rfl rfl rfl And.left
  · next incoming sock here =>
      split at stepped
      · cases stepped
      · cases stepped
        -- the new number is in neither map, and stays so up to the insertions
        refine forward_stays holds here rfl rfl rfl rfl rfl ?_
        rintro ⟨inverse, fresh⟩
        exact ⟨inverse, fresh, unmapped⟩
  · cases stepped

theorem advance_locked {state next : Threads n m} {thread : Fin m} (holds : Locked state)
    (stepped : state.advance thread = some next) : Locked next := by
  cases here : state.forwards thread with
  | idle => simp [Threads.advance, here] at stepped
  | connect incoming => simp [Threads.advance, here] at stepped
  | find incoming =>
      simp only [Threads.advance, here, Option.some.injEq] at stepped
      subst stepped
      apply aside_forward holds here rfl
      split <;> rfl
  | lock incoming =>
      simp only [Threads.advance, here] at stepped
      split at stepped
      · cases stepped
      · next free =>
          cases stepped
          exact forward_enters holds rfl rfl free rfl rfl id
  | findAgain incoming =>
      simp only [Threads.advance, here] at stepped
      cases stepped
      by_cases found : incoming ∈ state.reversedMap
      · simp only [found, ↓reduceIte]
        refine forward_stays holds here rfl rfl rfl rfl rfl ?_
        exact fun inverse => ⟨inverse, found⟩
      · simp only [found, ↓reduceIte]
        refine forward_stays holds here rfl rfl rfl rfl rfl ?_
        exact fun inverse => ⟨inverse, found⟩
  | register incoming sock =>
      simp only [Threads.advance, here] at stepped
      cases stepped
      exact forward_stays holds here rfl rfl rfl rfl rfl id
  | insert incoming sock =>
      simp only [Threads.advance, here] at stepped
      cases stepped
      refine forward_stays holds here rfl rfl rfl rfl rfl ?_
      rintro ⟨inverse, newClient, newBackend⟩
      exact ⟨inverse.emplace newBackend newClient, newClient⟩
  | insertReversed incoming sock =>
      simp only [Threads.advance, here] at stepped
      cases stepped
      refine forward_stays holds here rfl rfl rfl rfl rfl ?_
      rintro ⟨inverse, newClient⟩
      refine ⟨inverse, ?_⟩
      simp [UnorderedMap.lookup_emplace, AList.lookup_eq_none.mpr newClient]
  | registerAgain incoming sock =>
      simp only [Threads.advance, here] at stepped
      cases stepped
      refine forward_stays holds here rfl rfl rfl rfl rfl ?_
      rintro ⟨inverse, found⟩
      exact ⟨inverse, UnorderedMap.mem_of_lookup found⟩
  | unlock incoming =>
      simp only [Threads.advance, here] at stepped
      cases stepped
      exact forward_leaves holds here rfl rfl rfl rfl rfl And.left
  | lookup incoming =>
      simp only [Threads.advance, here] at stepped
      split at stepped <;> cases stepped
      · exact aside_forward holds here rfl .idle rfl
      · exact holds

theorem step_locked (state : Threads n m) (action : Action n m) (next : Threads n m)
    (holds : Locked state) (unmapped : Unmapped state action)
    (stepped : handlers.step state action = some next) : Locked next := by
  simp only [handlers] at stepped
  split at stepped
  · cases stepped
  · cases action with
    | accept fd =>
        simp only [Threads.accept] at stepped
        split at stepped
        · cases stepped
        · cases stepped
          exact holds
    | leave fd =>
        simp only [Threads.leave] at stepped
        split at stepped
        · cases stepped
        · split at stepped
          · cases stepped
            exact holds
          · cases stepped
    | wait loop resps =>
        simp only [Threads.wait] at stepped
        split at stepped
        · next ready =>
            cases stepped
            have outside : state.claim (.inl loop) = none := by
              simp [Threads.claim, Loop.claim, ready.1]
            exact aside_loop holds outside .print resps rfl
        · cases stepped
    | handle loop => exact handle_locked holds stepped
    | forward thread incoming =>
        simp only [Threads.forward] at stepped
        split at stepped
        · next here =>
            cases stepped
            exact aside_forward holds here rfl (.find incoming) rfl
        · cases stepped
    | connect thread result => exact connect_locked holds unmapped stepped
    | advance thread => exact advance_locked holds stepped

theorem start_locked [NeZero n] : Locked (Threads.start : Threads n m) := by
  constructor
  · intro _
    exact UnorderedMap.inverse_empty
  · intro who wrong
    cases wrong
  · intro who inside
    cases who <;> cases inside

/-- Nobody is in a section under `mx_`, and no cleanup is pending. -/
def Settled (state : Threads n m) : Prop :=
  state.mx = none ∧ ∀ loop, (state.loops loop).closed = none

instance (state : Threads n m) : Decidable (Settled state) := by
  unfold Settled
  infer_instance

theorem socket_maps_inverse [NeZero n] (actions : List (Action n m)) (final : Threads n m)
    (meets : handlers.Meets Unmapped Threads.start actions)
    (ran : handlers.run Threads.start actions = some final) (settled : Settled final) :
    final.sockMap.Inverse final.reversedMap :=
  (handlers.run_invariant Locked step_locked start_locked meets ran).free settled.1

/-- The only thread takes client `incoming` from the context to `forward`. -/
def establish (incoming sock : Fd) : List (Action 1 1) :=
  [.forward (Fin.last 0) incoming] ++ List.replicate 3 (.advance (Fin.last 0)) ++
    [.connect (Fin.last 0) (some sock)] ++ List.replicate 6 (.advance (Fin.last 0))

/-- The only loop gets the hang-up of `sock` and closes it. -/
def hangUp (sock : Fd) : List (Action 1 1) :=
  [.wait (Fin.last 0) [⟨sock, Demultiplex.epollHup⟩], .handle (Fin.last 0), .handle (Fin.last 0)]

def cleanUp : List (Action 1 1) := List.replicate 4 (.handle (Fin.last 0))

theorem reused_after_cleanup_inverse :
    ∃ final, handlers.run Threads.start (establish 5 7 ++ hangUp 7 ++ cleanUp ++ establish 6 7) =
        some final ∧ final.sockMap.lookup 7 = some 6 ∧
      final.sockMap.Inverse final.reversedMap := by
  obtain ⟨final, ran, reached⟩ := handlers.run_reaches
    (fun state => decide (Settled state) && state.sockMap.lookup 7 == some 6) Threads.start
    (establish 5 7 ++ hangUp 7 ++ cleanUp ++ establish 6 7) (by decide)
  simp only [Bool.and_eq_true, decide_eq_true_eq, beq_iff_eq] at reached
  exact ⟨final, ran, reached.2, socket_maps_inverse _ final (by decide) ran reached.1⟩

/-- Descriptor 7 is handed out again before its cleanup, which then removes the
entry of the new backend from `sock_map_` and that of client 5 from the other. -/
theorem reused_before_cleanup_not_inverse :
    ¬ ∀ (actions : List (Action 1 1)) (final : Threads 1 1),
      handlers.run Threads.start actions = some final → Settled final →
        final.sockMap.Inverse final.reversedMap := by
  intro claim
  obtain ⟨final, ran, reached⟩ := handlers.run_reaches
    (fun state => decide (Settled state) && state.sockMap.lookup 7 == none &&
      state.reversedMap.lookup 6 == some 7) Threads.start
    (establish 5 7 ++ hangUp 7 ++ establish 6 7 ++ cleanUp) (by decide)
  simp only [Bool.and_eq_true, decide_eq_true_eq, beq_iff_eq] at reached
  obtain ⟨⟨settled, absent⟩, present⟩ := reached
  have inverse := (claim _ final ran settled 7 6).mpr present
  rw [absent] at inverse
  cases inverse

end RProxy.Handlers
