import RProxy.Demultiplex
import RProxy.Machine
import RProxy.Session
import RProxy.UnorderedMap

/-!
`ProxyServer::updateForForward` and `updateForWait` as whole handlers, executed
one at a time over the two maps and the open descriptors, with the history of
what they do for whom. Which call moves the bytes, `forward` or `zeroCopy`,
makes no difference here, nor do the registrations with the loops.
-/

namespace RProxy.Affinity

open Session

/-- Who opened a descriptor; the handlers close those of `establishWith` only. -/
inductive Owner where
  | backend
  | other
  deriving DecidableEq

/-- What the handler is told for a pair of its context: by `connectTo`, which
throws where it is `none`, and by `isLismited`. -/
structure Answers where
  connect : Fd → InetAddr → Option Fd
  limited : Fd → Bool

structure ProxyServer where
  sockMap : UnorderedMap Fd Fd
  reversedMap : UnorderedMap Fd Fd
  fds : Fd → Option Owner
  history : List (Event Fd Fd)
  fault : Option Fault

def ProxyServer.start : ProxyServer where
  sockMap := ∅
  reversedMap := ∅
  fds _ := none
  history := []
  fault := none

inductive Action where
  | openFd (fd : Fd)
  | closeFd (fd : Fd)
  | forward (sockToBackend : UnorderedMap Fd InetAddr) (answers : Answers)
  | wait (resps : List Resp)

namespace ProxyServer

variable (state : ProxyServer)

/-- `accept`, or anything else in the process that opens a descriptor. -/
def openFd (fd : Fd) : Option ProxyServer :=
  match state.fds fd with
  | some _ => none
  | none => some { state with fds := Function.update state.fds fd (some .other) }

def closeFd (fd : Fd) : Option ProxyServer :=
  match state.fds fd with
  | some .other => some { state with fds := Function.update state.fds fd none }
  | _ => none

/-- `establishWith` and the insertions under `mx_`. -/
def establish (incoming sock : Fd) : ProxyServer :=
  { state with
    fds := Function.update state.fds sock (some .backend)
    sockMap := state.sockMap.emplace sock incoming
    reversedMap := state.reversedMap.emplace incoming sock
    history := state.history ++ [.given incoming sock] }

/-- The rest of the pass, from `reversed_map_.at` on. -/
def relay (incoming : Fd) (limited : Bool) : ProxyServer :=
  match state.reversedMap.lookup incoming with
  | none => { state with fault := some .outOfRange }
  | some sock =>
      if limited then state
      else { state with history := state.history ++ [.forwarded incoming sock] }

def updateForForward (answers : Answers) :
    ProxyServer → List (Sigma fun _ : Fd => InetAddr) → Option ProxyServer
  | state, [] => some state
  | state, ⟨incoming, addr⟩ :: rest =>
      if state.fault.isSome then some state
      else if incoming ∈ state.reversedMap then
        updateForForward answers (state.relay incoming (answers.limited incoming)) rest
      else
        match answers.connect incoming addr with
        -- the exception leaves the function, with the pairs that are left
        | none => some state
        | some sock =>
            match state.fds sock with
            | some _ => none
            | none => updateForForward answers
                ((state.establish incoming sock).relay incoming (answers.limited incoming)) rest

/-- The section of `updateForWait` under `mx_`. -/
def cleanup (fd : Fd) : ProxyServer :=
  match state.sockMap.lookup fd with
  | none => state
  | some incoming => { state with
      reversedMap := state.reversedMap.erase incoming
      sockMap := state.sockMap.erase fd }

/-- The event of `fd`, whose client `sock_map_.at` has found. -/
def respond (resp : Resp) (incoming : Fd) : ProxyServer :=
  let state := if resp.isReadable && !resp.isClosable then
      { state with history := state.history ++ [.returned resp.fd incoming] }
    else state
  if resp.isClosable then
    cleanup { state with
      fds := Function.update state.fds resp.fd none
      history := state.history ++ [.closed resp.fd] } resp.fd
  else state

def updateForWait : ProxyServer → List Resp → Option ProxyServer
  | state, [] => some state
  | state, resp :: rest =>
      if state.fault.isSome then some state
      -- epoll has events for open backends only
      else if state.fds resp.fd ≠ some .backend then none
      else
        match state.sockMap.lookup resp.fd with
        | none => some { state with fault := some .outOfRange }
        | some incoming => updateForWait (state.respond resp incoming) rest

end ProxyServer

/-- An exception that leaves a loop ends the process. -/
def handlers : Machine ProxyServer Action where
  step state action :=
    if state.fault.isSome then none
    else
      match action with
      | .openFd fd => state.openFd fd
      | .closeFd fd => state.closeFd fd
      | .forward sockToBackend answers => state.updateForForward answers sockToBackend.entries
      | .wait resps => state.updateForWait resps

/-- The maps are the assignment that the history leaves behind, as the history
acts on it all along, and `sock_map_` has the open backends. -/
structure Assigned (state : ProxyServer) : Prop where
  permitted : Assignment.empty.PermitsAll state.history
  current : ∀ incoming, state.reversedMap.lookup incoming =
    (Assignment.empty.replay state.history) incoming
  inverse : state.sockMap.Inverse state.reversedMap
  backends : ∀ fd, fd ∈ state.sockMap ↔ state.fds fd = some .backend
  fault : state.fault = none

variable {state next : ProxyServer}

theorem start_assigned : Assigned .start := by
  constructor
  · trivial
  · intro incoming
    rfl
  · exact UnorderedMap.inverse_empty
  · intro fd
    simp [ProxyServer.start]
  · rfl

/-- The history of a state grows by an event that its assignment permits. -/
theorem Assigned.recorded (assigned : Assigned state) (event : Event Fd Fd)
    (permits : (Assignment.empty.replay state.history).Permits event) :
    Assignment.empty.PermitsAll (state.history ++ [event]) ∧
      Assignment.empty.replay (state.history ++ [event]) =
        (Assignment.empty.replay state.history).after event := by
  constructor
  · rw [Assignment.permits_all_append]
    exact ⟨assigned.permitted, permits, trivial⟩
  · rw [Assignment.replay_append]
    rfl

theorem open_fd_assigned (assigned : Assigned state) {fd : Fd}
    (opened : state.openFd fd = some next) : Assigned next := by
  simp only [ProxyServer.openFd] at opened
  split at opened
  · cases opened
  · next free =>
      cases opened
      constructor
      · exact assigned.permitted
      · exact assigned.current
      · exact assigned.inverse
      · intro other
        simp only [assigned.backends, Function.update_apply]
        by_cases same : other = fd <;> simp [same, free]
      · exact assigned.fault

theorem close_fd_assigned (assigned : Assigned state) {fd : Fd}
    (closed : state.closeFd fd = some next) : Assigned next := by
  simp only [ProxyServer.closeFd] at closed
  split at closed
  · next owned =>
      cases closed
      constructor
      · exact assigned.permitted
      · exact assigned.current
      · exact assigned.inverse
      · intro other
        simp only [assigned.backends, Function.update_apply]
        by_cases same : other = fd <;> simp [same, owned]
      · exact assigned.fault
  · cases closed

theorem establish_assigned (assigned : Assigned state) {incoming sock : Fd}
    (absent : incoming ∉ state.reversedMap) (free : state.fds sock = none) :
    Assigned (state.establish incoming sock) := by
  have unassigned := AList.lookup_eq_none.mpr absent
  -- the number is not open, so `sock_map_` cannot still have it
  have fresh : sock ∉ state.sockMap := by
    rw [assigned.backends, free]
    simp
  have permits : (Assignment.empty.replay state.history).Permits (.given incoming sock) := by
    constructor
    · rw [← assigned.current]
      exact unassigned
    · intro other has
      rw [← assigned.current, ← assigned.inverse] at has
      exact fresh (UnorderedMap.mem_of_lookup has)
  obtain ⟨permitted, replayed⟩ := assigned.recorded _ permits
  constructor
  · exact permitted
  · intro other
    show (state.reversedMap.emplace incoming sock).lookup other = _
    rw [ProxyServer.establish, replayed, UnorderedMap.lookup_emplace_fresh unassigned,
      assigned.current]
    simp only [Assignment.after, Function.update_apply]
  · exact assigned.inverse.emplace fresh absent
  · intro other
    simp only [ProxyServer.establish, UnorderedMap.mem_emplace, assigned.backends,
      Function.update_apply]
    by_cases same : other = sock <;> simp [same]
  · exact assigned.fault

/-- An event that leaves the assignment as it is changes nothing but the history. -/
theorem logged_assigned (assigned : Assigned state) (event : Event Fd Fd)
    (permits : (Assignment.empty.replay state.history).Permits event)
    (steady : ∀ before : Assignment Fd Fd, before.after event = before) :
    Assigned { state with history := state.history ++ [event] } := by
  obtain ⟨permitted, replayed⟩ := assigned.recorded event permits
  constructor
  · exact permitted
  · intro other
    rw [replayed, steady]
    exact assigned.current other
  · exact assigned.inverse
  · exact assigned.backends
  · exact assigned.fault

theorem relay_assigned (assigned : Assigned state) {incoming : Fd} (limited : Bool)
    (present : incoming ∈ state.reversedMap) : Assigned (state.relay incoming limited) := by
  obtain ⟨sock, found⟩ := UnorderedMap.lookup_of_mem present
  simp only [ProxyServer.relay, found]
  split
  · exact assigned
  · have permits : (Assignment.empty.replay state.history).Permits (.forwarded incoming sock) := by
      rw [Assignment.Permits, ← assigned.current]
      exact found
    exact logged_assigned assigned _ permits fun _ => rfl

theorem establish_present (state : ProxyServer) (incoming sock : Fd) :
    incoming ∈ (state.establish incoming sock).reversedMap :=
  (UnorderedMap.mem_emplace _ _ _ _).mpr (Or.inl rfl)

theorem update_for_forward_assigned (answers : Answers)
    (pairs : List (Sigma fun _ : Fd => InetAddr)) (assigned : Assigned state)
    (returned : state.updateForForward answers pairs = some next) : Assigned next := by
  induction pairs generalizing state with
  | nil =>
      cases returned
      exact assigned
  | cons pair rest ih =>
      obtain ⟨incoming, addr⟩ := pair
      simp only [ProxyServer.updateForForward, assigned.fault, Option.isSome_none,
        Bool.false_eq_true, ↓reduceIte] at returned
      split at returned
      · next present => exact ih (relay_assigned assigned _ present) returned
      · next absent =>
          split at returned
          · cases returned
            exact assigned
          · next sock connected =>
              split at returned
              · cases returned
              · next free =>
                  have established := establish_assigned assigned absent free
                  exact ih (relay_assigned established _ (establish_present state incoming sock))
                    returned

theorem returned_assigned (assigned : Assigned state) {fd incoming : Fd}
    (found : state.sockMap.lookup fd = some incoming) :
    Assigned { state with history := state.history ++ [.returned fd incoming] } := by
  have permits : (Assignment.empty.replay state.history).Permits (.returned fd incoming) := by
    rw [Assignment.Permits, ← assigned.current]
    exact (assigned.inverse fd incoming).mp found
  exact logged_assigned assigned _ permits fun _ => rfl

/-- The erasure is by the looked-up client, which is the one that has `fd`. -/
theorem closed_assigned (assigned : Assigned state) {fd incoming : Fd}
    (found : state.sockMap.lookup fd = some incoming) :
    Assigned { state with
      fds := Function.update state.fds fd none
      sockMap := state.sockMap.erase fd
      reversedMap := state.reversedMap.erase incoming
      history := state.history ++ [.closed fd] } := by
  obtain ⟨permitted, replayed⟩ := assigned.recorded (.closed fd) trivial
  constructor
  · exact permitted
  · intro other
    rw [replayed, UnorderedMap.lookup_erase_if]
    simp only [Assignment.after, ← assigned.current]
    by_cases same : other = incoming
    · subst same
      have has := (assigned.inverse fd other).mp found
      rw [if_pos rfl, if_pos has]
    · have different : state.reversedMap.lookup other ≠ some fd := by
        intro has
        have owner := (assigned.inverse fd other).mpr has
        exact same (Option.some.inj (owner.symm.trans found))
      rw [if_neg same, if_neg different]
  · exact assigned.inverse.erase found
  · intro other
    simp only [AList.mem_erase, assigned.backends, Function.update_apply]
    by_cases same : other = fd <;> simp [same]
  · exact assigned.fault

theorem respond_assigned (assigned : Assigned state) {resp : Resp} {incoming : Fd}
    (found : state.sockMap.lookup resp.fd = some incoming) :
    Assigned (state.respond resp incoming) := by
  cases closes : resp.isClosable with
  | true =>
      simp only [ProxyServer.respond, ProxyServer.cleanup, closes, found, Bool.not_true,
        Bool.and_false, Bool.false_eq_true, ↓reduceIte]
      exact closed_assigned assigned found
  | false =>
      simp only [ProxyServer.respond, closes, Bool.not_false, Bool.and_true, Bool.false_eq_true,
        ↓reduceIte]
      split
      · exact returned_assigned assigned found
      · exact assigned

theorem update_for_wait_assigned (resps : List Resp) (assigned : Assigned state)
    (returned : state.updateForWait resps = some next) : Assigned next := by
  induction resps generalizing state with
  | nil =>
      cases returned
      exact assigned
  | cons resp rest ih =>
      simp only [ProxyServer.updateForWait, assigned.fault, Option.isSome_none,
        Bool.false_eq_true, ↓reduceIte] at returned
      split at returned
      · cases returned
      · next opened =>
          have present : resp.fd ∈ state.sockMap := by
            rw [assigned.backends]
            exact Decidable.not_not.mp opened
          obtain ⟨incoming, found⟩ := UnorderedMap.lookup_of_mem present
          rw [found] at returned
          exact ih (respond_assigned assigned found) returned

theorem step_assigned (state : ProxyServer) (action : Action) (next : ProxyServer)
    (assigned : Assigned state) (stepped : handlers.step state action = some next) :
    Assigned next := by
  simp only [handlers, assigned.fault, Option.isSome_none, Bool.false_eq_true, ↓reduceIte]
    at stepped
  cases action with
  | openFd => exact open_fd_assigned assigned stepped
  | closeFd => exact close_fd_assigned assigned stepped
  | forward sockToBackend answers =>
      exact update_for_forward_assigned answers sockToBackend.entries assigned stepped
  | wait resps => exact update_for_wait_assigned resps assigned stepped

/-- Once a client has a backend, it keeps it until the backend closes. -/
theorem sessions_sticky (actions : List Action) :
    handlers.Always (fun state => Sticky state.history ∧ state.fault = none) .start actions := by
  apply handlers.always_preserves step_assigned _ start_assigned
  intro state assigned
  exact ⟨Assignment.sticky_of_permitted assigned.permitted, assigned.fault⟩

/-- Another choice of the balancer changes nothing. -/
example : (handlers.run .start
    [.forward ⟨[⟨5, ⟨['a'], 1⟩⟩], by simp⟩ ⟨fun _ _ => some 7, fun _ => false⟩,
      .forward ⟨[⟨5, ⟨['b'], 2⟩⟩], by simp⟩ ⟨fun _ _ => some 8, fun _ => false⟩,
      .wait [⟨7, Demultiplex.epollIn⟩]]).map ProxyServer.history =
    some [.given 5 7, .forwarded 5 7, .forwarded 5 7, .returned 7 5] := by
  decide +kernel

end RProxy.Affinity
