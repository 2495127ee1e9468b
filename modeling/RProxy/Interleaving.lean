import RProxy.Session
import RProxy.SocketMaps

/-!
Sessions in every interleaving of the threads. What happens for whom is read off
the accesses to the maps: `sock_map_` says who has which backend, also while a
thread under `mx_` has changed one of the maps and not yet the other.
-/

namespace RProxy.Handlers

open Session

variable {n m : Nat}

/-- A client is given a backend where it enters `sock_map_`, and has it until the
cleanup takes the entry out; every `at()` says who is served: the backend of a
client before it is forwarded, the client of a backend where that is printed,
relayed to and taken out of `reversed_map_`. -/
def events (state : Threads n m) : Action n m → List (Event Fd Fd)
  | .handle loop =>
      match (state.loops loop).pc, (state.loops loop).resps with
      | .print, resp :: _ | .relay, resp :: _ | .eraseReversed, resp :: _ =>
          (state.sockMap.lookup resp.fd).toList.map (.returned resp.fd)
      | .erase, resp :: _ => [.closed resp.fd]
      | _, _ => []
  | .advance thread =>
      match state.forwards thread with
      | .insert incoming sock => [.given incoming sock]
      | .lookup incoming => (state.reversedMap.lookup incoming).toList.map (.forwarded incoming)
      | _ => []
  | _ => []

/-- `sock_map_` is the assignment. -/
def Tracks (assigned : Assignment Fd Fd) (state : Threads n m) : Prop :=
  ∀ fd incoming, state.sockMap.lookup fd = some incoming ↔ assigned incoming = some fd

/-- What a step records is permitted, and the assignment follows it. -/
def Follows (assigned : Assignment Fd Fd) (state : Threads n m) (action : Action n m)
    (next : Threads n m) : Prop :=
  assigned.PermitsAll (events state action) ∧
    Tracks (assigned.replay (events state action)) next

variable {assigned : Assignment Fd Fd} {state next : Threads n m}

theorem follows_silent {action : Action n m} (tracks : Tracks assigned state)
    (silent : events state action = []) (same : next.sockMap = state.sockMap) :
    Follows assigned state action next := by
  rw [Follows, silent]
  refine ⟨trivial, ?_⟩
  intro fd incoming
  rw [same]
  exact tracks fd incoming

section Backed

variable {sockMap reversedMap : UnorderedMap Fd Fd} {known : Prop} {incoming sock : Fd}
  (found : reversedMap.lookup incoming = some sock)
include found

/-- An insertion has the entry in `sock_map_` first. -/
theorem ForwardPc.claim_backed {pc : ForwardPc}
    (claimed : pc.claim sockMap reversedMap = some known) (knows : known) :
    sockMap.lookup sock = some incoming := by
  cases pc with
  | findAgain _ => cases claimed; exact (knows sock incoming).mpr found
  | connect _ => cases claimed; exact (knows.1 sock incoming).mpr found
  | register _ _ => cases claimed; exact (knows.1 sock incoming).mpr found
  | insert _ _ => cases claimed; exact (knows.1 sock incoming).mpr found
  | insertReversed client backend =>
      cases claimed
      apply (knows.1 sock incoming).mpr
      rw [UnorderedMap.lookup_emplace_fresh (AList.lookup_eq_none.mpr knows.2)]
      split
      · next same =>
          rw [same, AList.lookup_eq_none.mpr knows.2] at found
          cases found
      · exact found
  | registerAgain _ _ => cases claimed; exact (knows.1 sock incoming).mpr found
  | unlock _ => cases claimed; exact (knows.1 sock incoming).mpr found
  | _ => cases claimed

/-- A cleanup takes it out of `reversed_map_` first. -/
theorem Loop.claim_backed {loop : Loop} (claimed : loop.claim sockMap reversedMap = some known)
    (knows : known) : sockMap.lookup sock = some incoming := by
  obtain ⟨pc, resps⟩ := loop
  cases resps with
  | nil => cases pc <;> cases claimed
  | cons resp rest =>
      cases pc with
      | find => cases claimed; exact (knows sock incoming).mpr found
      | eraseReversed => cases claimed; exact (knows.1 sock incoming).mpr found
      | erase =>
          cases claimed
          exact UnorderedMap.lookup_of_erase ((knows sock incoming).mpr found)
      | _ => cases claimed

end Backed

/-- Whoever has the lock, an entry of `reversed_map_` is in `sock_map_`. -/
theorem reversed_backed (holds : Locked state) {incoming sock : Fd}
    (found : state.reversedMap.lookup incoming = some sock) :
    state.sockMap.lookup sock = some incoming := by
  cases held : state.mx with
  | none => exact (holds.free held sock incoming).mpr found
  | some who =>
      obtain ⟨known, claimed, knows⟩ := holds.held who held
      cases who with
      | inl loop => exact Loop.claim_backed found claimed knows
      | inr thread => exact ForwardPc.claim_backed found claimed knows

theorem inserted_follows (tracks : Tracks assigned state) (holds : Locked state)
    {thread : Fin m} {incoming sock : Fd} (here : state.forwards thread = .insert incoming sock)
    (inserted : next.sockMap = state.sockMap.emplace sock incoming) :
    Follows assigned state (.advance thread) next := by
  have claimed : state.claim (.inr thread) = some (state.sockMap.Inverse state.reversedMap ∧
      incoming ∉ state.reversedMap ∧ sock ∉ state.sockMap) := by
    simp only [Threads.claim, here, ForwardPc.claim]
  obtain ⟨inverse, newClient, newBackend⟩ := (holds.knows claimed).2
  have fresh := AList.lookup_eq_none.mpr newBackend
  have recorded : events state (.advance thread) = [.given incoming sock] := by
    simp only [events, here]
  have unassigned : assigned incoming = none := by
    cases had : assigned incoming with
    | none => rfl
    | some other =>
        have listed := (inverse other incoming).mp ((tracks other incoming).mpr had)
        exact absurd (UnorderedMap.mem_of_lookup listed) newClient
  have untaken : ∀ other, assigned other ≠ some sock := by
    intro other taken
    rw [← tracks, fresh] at taken
    cases taken
  rw [Follows, recorded]
  refine ⟨⟨⟨unassigned, untaken⟩, trivial⟩, ?_⟩
  intro fd other
  rw [inserted, UnorderedMap.lookup_emplace_fresh fresh]
  change _ ↔ Function.update assigned incoming (some sock) other = some fd
  rw [Function.update_apply]
  by_cases isBackend : fd = sock
  · by_cases isClient : other = incoming
    · simp [isBackend, isClient]
    · simp [isBackend, isClient, Ne.symm isClient, untaken]
  · by_cases isClient : other = incoming
    · simp [isBackend, isClient, Ne.symm isBackend, tracks fd incoming, unassigned]
    · simp [isBackend, isClient, tracks fd other]

theorem erased_follows (tracks : Tracks assigned state) {loop : Fin n} {resp : Resp}
    {rest : List Resp} (here : state.loops loop = ⟨.erase, resp :: rest⟩)
    (erased : next.sockMap = AList.erase resp.fd state.sockMap) :
    Follows assigned state (.handle loop) next := by
  have recorded : events state (.handle loop) = [.closed resp.fd] := by
    simp only [events, here]
  rw [Follows, recorded]
  refine ⟨⟨trivial, trivial⟩, ?_⟩
  intro fd other
  rw [erased, UnorderedMap.lookup_erase_if]
  change _ ↔ (if assigned other = some resp.fd then none else assigned other) = some fd
  by_cases same : fd = resp.fd
  · subst same
    simp
  · by_cases taken : assigned other = some resp.fd
    · have absent : ¬ assigned other = some fd := by
        rw [taken]
        exact fun wrong => same (Option.some.inj wrong).symm
      simp [same, tracks fd other, taken, Ne.symm same]
    · simp [same, tracks fd other, taken]

/-- Every `at()` reads the assignment. -/
theorem looked_up_follows (tracks : Tracks assigned state) (holds : Locked state)
    {thread : Fin m} {incoming : Fd} (here : state.forwards thread = .lookup incoming)
    (same : next.sockMap = state.sockMap) : Follows assigned state (.advance thread) next := by
  cases found : state.reversedMap.lookup incoming with
  | none => exact follows_silent tracks (by simp [events, here, found]) same
  | some sock =>
      have recorded : events state (.advance thread) = [.forwarded incoming sock] := by
        simp [events, here, found]
      rw [Follows, recorded]
      refine ⟨⟨(tracks sock incoming).mp (reversed_backed holds found), trivial⟩, ?_⟩
      intro fd other
      rw [same]
      exact tracks fd other

theorem looked_back_follows (tracks : Tracks assigned state) {loop : Fin n} {fd : Fd}
    (recorded : events state (.handle loop) =
      (state.sockMap.lookup fd).toList.map (.returned fd))
    (same : next.sockMap = state.sockMap) : Follows assigned state (.handle loop) next := by
  cases found : state.sockMap.lookup fd with
  | none => exact follows_silent tracks (by simp [recorded, found]) same
  | some incoming =>
      simp only [found, Option.toList_some, List.map_singleton] at recorded
      rw [Follows, recorded]
      refine ⟨⟨(tracks fd incoming).mp found, trivial⟩, ?_⟩
      intro other client
      rw [same]
      exact tracks other client

theorem handle_follows (tracks : Tracks assigned state) {loop : Fin n}
    (stepped : state.handle loop = some next) : Follows assigned state (.handle loop) next := by
  cases here : state.loops loop with
  | mk pc resps =>
      simp only [Threads.handle, here] at stepped
      cases resps with
      | nil => cases stepped
      | cons resp rest =>
          cases pc with
          | relay =>
              simp only at stepped
              have recorded : events state (.handle loop) =
                (state.sockMap.lookup resp.fd).toList.map (.returned resp.fd) := by
                  simp only [events, here]
              split at stepped <;> cases stepped <;>
                exact looked_back_follows tracks recorded rfl
          | erase =>
              cases stepped
              exact erased_follows tracks here rfl
          | print =>
              simp only at stepped
              have recorded : events state (.handle loop) =
                (state.sockMap.lookup resp.fd).toList.map (.returned resp.fd) := by
                  simp only [events, here]
              split at stepped
              · cases stepped
                exact looked_back_follows tracks recorded rfl
              · split at stepped
                · cases stepped
                  exact looked_back_follows tracks recorded rfl
                · split at stepped <;> cases stepped <;>
                    exact looked_back_follows tracks recorded rfl
          | close =>
              cases stepped
              exact follows_silent tracks (by simp only [events, here]) rfl
          | lock =>
              simp only at stepped
              split at stepped
              · cases stepped
              · cases stepped
                exact follows_silent tracks (by simp only [events, here]) rfl
          | find =>
              simp only at stepped
              have silent : events state (.handle loop) = [] := by simp only [events, here]
              split at stepped <;> cases stepped <;> exact follows_silent tracks silent rfl
          | eraseReversed =>
              simp only at stepped
              have recorded : events state (.handle loop) =
                (state.sockMap.lookup resp.fd).toList.map (.returned resp.fd) := by
                  simp only [events, here]
              split at stepped <;> cases stepped <;>
                exact looked_back_follows tracks recorded rfl

theorem advance_follows (tracks : Tracks assigned state) (holds : Locked state) {thread : Fin m}
    (stepped : state.advance thread = some next) :
    Follows assigned state (.advance thread) next := by
  cases here : state.forwards thread with
  | insert incoming sock =>
      simp only [Threads.advance, here] at stepped
      cases stepped
      exact inserted_follows tracks holds here rfl
  | lookup incoming =>
      simp only [Threads.advance, here] at stepped
      split at stepped <;> cases stepped <;> exact looked_up_follows tracks holds here rfl
  | idle => simp [Threads.advance, here] at stepped
  | connect incoming => simp [Threads.advance, here] at stepped
  | lock incoming =>
      simp only [Threads.advance, here] at stepped
      split at stepped
      · cases stepped
      · cases stepped
        exact follows_silent tracks (by simp only [events, here]) rfl
  | _ =>
      simp only [Threads.advance, here] at stepped
      cases stepped
      exact follows_silent tracks (by simp only [events, here]) rfl

theorem step_follows {action : Action n m} (tracks : Tracks assigned state) (holds : Locked state)
    (stepped : handlers.step state action = some next) : Follows assigned state action next := by
  simp only [handlers] at stepped
  split at stepped
  · cases stepped
  · cases action with
    | handle loop => exact handle_follows tracks stepped
    | advance thread => exact advance_follows tracks holds stepped
    | accept fd =>
        simp only [Threads.accept] at stepped
        split at stepped
        · cases stepped
        · cases stepped
          exact follows_silent tracks rfl rfl
    | leave fd =>
        simp only [Threads.leave] at stepped
        split at stepped
        · cases stepped
        · split at stepped
          · cases stepped
            exact follows_silent tracks rfl rfl
          · cases stepped
    | wait loop resps =>
        simp only [Threads.wait] at stepped
        split at stepped
        · cases stepped
          exact follows_silent tracks rfl rfl
        · cases stepped
    | forward thread incoming =>
        simp only [Threads.forward] at stepped
        split at stepped
        · cases stepped
          exact follows_silent tracks rfl rfl
        · cases stepped
    | connect thread result =>
        simp only [Threads.connect] at stepped
        split at stepped
        · cases stepped
          exact follows_silent tracks rfl rfl
        · split at stepped
          · cases stepped
          · cases stepped
            exact follows_silent tracks rfl rfl
        · cases stepped

/-- What a run records is permitted from the assignment it starts with. -/
theorem run_follows (actions : List (Action n m)) (tracks : Tracks assigned state)
    (holds : Locked state) (unmapped : handlers.Meets Unmapped state actions) :
    assigned.PermitsAll (handlers.log events state actions) := by
  induction actions generalizing state assigned with
  | nil => trivial
  | cons action rest ih =>
      cases stepped : handlers.step state action with
      | none =>
          simp only [Machine.log, stepped]
          trivial
      | some next =>
          obtain ⟨here, later⟩ := (handlers.meets_cons stepped).mp unmapped
          obtain ⟨permitted, follows⟩ := step_follows tracks holds stepped
          rw [handlers.log_cons stepped, Assignment.permits_all_append]
          exact ⟨permitted, ih follows (step_locked state action next holds here stepped) later⟩

/-- With any number of loops and of forwarding threads, at every access: once a client
has a backend, what it sends goes there and what that backend answers comes back to
it, until the cleanup of the backend, if `connect` returns no number that
`sock_map_` still holds. -/
theorem interleavings_sticky [NeZero n] (actions : List (Action n m))
    (unmapped : handlers.Meets Unmapped Threads.start actions) :
    Sticky (handlers.log events Threads.start actions) := by
  apply Assignment.sticky_of_permitted
  apply run_follows actions _ start_locked unmapped
  intro fd incoming
  simp [Threads.start, Assignment.empty]

/-- Two threads come with client 5 at once, and both miss it before the lock. -/
def bothConnecting : List (Action 1 2) :=
  let first : Fin 2 := ⟨0, Nat.two_pos⟩
  let second : Fin 2 := Fin.last 1
  [Action.forward first 5, Action.forward second 5, Action.advance first, Action.advance second,
    Action.advance first, Action.advance first, Action.connect first (some 7)] ++
    List.replicate 5 (Action.advance first) ++ List.replicate 4 (Action.advance second) ++
    [Action.advance first]

theorem one_backend_sticky :
    handlers.log events (Threads.start : Threads 1 2) bothConnecting =
      [.given 5 7, .forwarded 5 7, .forwarded 5 7] ∧
    Sticky (handlers.log events (Threads.start : Threads 1 2) bothConnecting) :=
  ⟨by decide +kernel, interleavings_sticky bothConnecting (by decide +kernel)⟩

end RProxy.Handlers
