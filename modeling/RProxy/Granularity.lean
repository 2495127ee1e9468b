import RProxy.Affinity
import RProxy.Interleaving

/-!
The handlers of `ProxyServer` as a whole and step by step: what whole handlers do,
one after the other, the small steps of the threads can do, with nothing of another
thread in between.
-/

namespace RProxy.Handlers

open Affinity Session

variable {n m : Nat}

/-- `updateForForward` with a pair up to `connectTo`, where `mx_` is taken. -/
def connectPass (thread : Fin m) (incoming : Fd) (result : Option Fd) : List (Action n m) :=
  [.forward thread incoming, .advance thread, .advance thread, .advance thread,
    .connect thread result]

def establishPass (thread : Fin m) (incoming sock : Fd) : List (Action n m) :=
  connectPass thread incoming (some sock) ++ List.replicate 6 (.advance thread)

def foundPass (thread : Fin m) (incoming : Fd) : List (Action n m) :=
  [.forward thread incoming, .advance thread, .advance thread]

/-- `updateForWait` with one event. -/
def waitPass (loop : Fin n) (resp : Resp) (handles : Nat) : List (Action n m) :=
  .wait loop [resp] :: List.replicate handles (.handle loop)

/-- What an insertion leaves: the backend is registered by `establishWith` and again. -/
def Threads.established (state : Threads n m) (incoming sock : Fd) : Threads n m :=
  let fds := state.fds.allocate sock
  { state with
    fds
    group := (state.group.registerFd fds sock).registerFd fds sock
    sockMap := state.sockMap.emplace sock incoming
    reversedMap := state.reversedMap.emplace incoming sock }

/-- What a cleanup leaves. -/
def Threads.removed (state : Threads n m) (fd incoming : Fd) : Threads n m :=
  { state with
    fds := state.fds.close fd
    group := state.group.close fd
    sockMap := state.sockMap.erase fd
    reversedMap := state.reversedMap.erase incoming }

section Forward

variable {state : Threads n m} {thread : Fin m} {incoming sock : Fd}
  (idle : state.forwards thread = .idle) (free : state.mx = none) (fault : state.fault = none)
include idle fault

theorem found_pass (found : state.reversedMap.lookup incoming = some sock) :
    handlers.run state (foundPass thread incoming) = some state ∧
      handlers.log events state (foundPass thread incoming) = [.forwarded incoming sock] := by
  have present := UnorderedMap.mem_of_lookup found
  have same : Function.update state.forwards thread .idle = state.forwards :=
    Function.update_eq_self_iff.mpr idle.symm
  obtain ⟨sockMap, reversedMap, group, fds, clients, loops, forwards, mx, fault⟩ := state
  simp only at idle fault found present same
  subst fault
  simp [foundPass, Machine.run, Machine.log, handlers, Threads.forward, Threads.advance,
    Threads.goForward, events, idle, present, found, same]

include free

theorem refused_pass (absent : incoming ∉ state.reversedMap) :
    handlers.run state (connectPass thread incoming none) = some state ∧
      handlers.log events state (connectPass thread incoming none) = [] := by
  have same : Function.update state.forwards thread .idle = state.forwards :=
    Function.update_eq_self_iff.mpr idle.symm
  obtain ⟨sockMap, reversedMap, group, fds, clients, loops, forwards, mx, fault⟩ := state
  simp only at idle free fault absent same
  subst fault free
  simp [connectPass, Machine.run, Machine.log, handlers, Threads.forward, Threads.advance,
    Threads.connect, Threads.goForward, events, idle, absent, same]

theorem connected_pass (absent : incoming ∉ state.reversedMap)
    (unused : state.fds.owner sock = none) :
    handlers.run state (connectPass thread incoming (some sock)) =
        some { state.goForward thread (.register incoming sock) with
          fds := state.fds.allocate sock
          mx := some (.inr thread) } ∧
      handlers.log events state (connectPass thread incoming (some sock)) = [] := by
  obtain ⟨sockMap, reversedMap, group, fds, clients, loops, forwards, mx, fault⟩ := state
  simp only at idle free fault absent unused
  subst fault free
  simp [connectPass, Machine.run, Machine.log, handlers, Threads.forward, Threads.advance,
    Threads.connect, Threads.goForward, events, idle, absent, unused]

omit idle free in
theorem inserted_pass (registering : state.forwards thread = .register incoming sock)
    (absent : incoming ∉ state.reversedMap) :
    handlers.run state (List.replicate 6 (.advance thread)) =
        some { state.goForward thread .idle with
          group := (state.group.registerFd state.fds sock).registerFd state.fds sock
          sockMap := state.sockMap.emplace sock incoming
          reversedMap := state.reversedMap.emplace incoming sock
          mx := none } ∧
      handlers.log events state (List.replicate 6 (.advance thread)) =
        [.given incoming sock, .forwarded incoming sock] := by
  have entered : incoming ∈ state.reversedMap.emplace incoming sock :=
    (UnorderedMap.mem_emplace _ _ _ _).mpr (Or.inl rfl)
  have found : (state.reversedMap.emplace incoming sock).lookup incoming = some sock := by
    rw [UnorderedMap.lookup_emplace_fresh (AList.lookup_eq_none.mpr absent), if_pos rfl]
  simp [Machine.run, Machine.log, handlers, Threads.advance, Threads.goForward, events,
    registering, fault, entered, found, List.replicate]

theorem establish_pass (absent : incoming ∉ state.reversedMap)
    (unused : state.fds.owner sock = none) :
    handlers.run state (establishPass thread incoming sock) =
        some (state.established incoming sock) ∧
      handlers.log events state (establishPass thread incoming sock) =
        [.given incoming sock, .forwarded incoming sock] := by
  have same : Function.update state.forwards thread .idle = state.forwards :=
    Function.update_eq_self_iff.mpr idle.symm
  obtain ⟨connected, silent⟩ := connected_pass idle free fault absent unused
  let registered : Threads n m := { state.goForward thread (.register incoming sock) with
    fds := state.fds.allocate sock
    mx := some (.inr thread) }
  have running : registered.fault = none := fault
  have registering : registered.forwards thread = .register incoming sock :=
    Function.update_self _ _ _
  obtain ⟨inserted, recorded⟩ := inserted_pass running registering absent
  constructor
  · rw [establishPass, Machine.run_append, connected]
    refine inserted.trans ?_
    simp [registered, Threads.goForward, Threads.established, same, free]
  · rw [establishPass, Machine.log_append _ _ _ connected, silent]
    exact recorded

end Forward

section Wait

variable {state : Threads n m} {loop : Fin n} {resp : Resp} {incoming : Fd}
  (idle : state.loops loop = ⟨.print, []⟩) (fault : state.fault = none)
  (watched : resp.fd ∈ state.group.dmpes loop)
  (found : state.sockMap.lookup resp.fd = some incoming)
include idle fault watched found

theorem skipped_pass (silent : resp.isReadable = false) (stays : resp.isClosable = false) :
    handlers.run state (waitPass loop resp 1) = some state ∧
      handlers.log events state (waitPass loop resp 1) = [.returned resp.fd incoming] := by
  have present := UnorderedMap.mem_of_lookup found
  have same : Function.update state.loops loop ⟨.print, []⟩ = state.loops :=
    Function.update_eq_self_iff.mpr idle.symm
  obtain ⟨sockMap, reversedMap, group, fds, clients, loops, forwards, mx, fault⟩ := state
  simp only at idle fault watched found present same
  subst fault
  simp [waitPass, Machine.run, Machine.log, handlers, Threads.wait, Threads.handle,
    Threads.goLoop, events, idle, watched, found, present, silent, stays, same, List.replicate]

theorem returned_pass (speaks : resp.isReadable = true) (stays : resp.isClosable = false) :
    handlers.run state (waitPass loop resp 2) = some state ∧
      handlers.log events state (waitPass loop resp 2) =
        List.replicate 2 (.returned resp.fd incoming) := by
  have present := UnorderedMap.mem_of_lookup found
  have same : Function.update state.loops loop ⟨.print, []⟩ = state.loops :=
    Function.update_eq_self_iff.mpr idle.symm
  obtain ⟨sockMap, reversedMap, group, fds, clients, loops, forwards, mx, fault⟩ := state
  simp only at idle fault watched found present same
  subst fault
  simp [waitPass, Machine.run, Machine.log, handlers, Threads.wait, Threads.handle,
    Threads.goLoop, events, idle, watched, found, present, speaks, stays, same, List.replicate]

theorem removed_pass (free : state.mx = none) (closes : resp.isClosable = true) :
    handlers.run state (waitPass loop resp 6) = some (state.removed resp.fd incoming) ∧
      handlers.log events state (waitPass loop resp 6) =
        List.replicate 2 (.returned resp.fd incoming) ++ [.closed resp.fd] := by
  have present := UnorderedMap.mem_of_lookup found
  have same : Function.update state.loops loop ⟨.print, []⟩ = state.loops :=
    Function.update_eq_self_iff.mpr idle.symm
  obtain ⟨sockMap, reversedMap, group, fds, clients, loops, forwards, mx, fault⟩ := state
  simp only at idle free fault watched found present same
  subst fault free
  simp [waitPass, Machine.run, Machine.log, handlers, Threads.wait, Threads.handle,
    Threads.goLoop, Threads.removed, events, idle, watched, found, present, closes, same,
    List.replicate]

end Wait

/-- A connection of the clients, or one to a backend. -/
def ownerOf (clients : List Nat) (conn : Nat) : Owner :=
  if conn ∈ clients then .other else .backend

/-- The states between two handlers, where all threads are at rest. What is recorded
step by step has the lookups for limited clients, for the print and for the cleanup
as well. -/
structure Matches (whole : ProxyServer) (trace : List (Event Fd Fd)) (state : Threads n m) :
    Prop where
  assigned : Assigned whole
  sockMap : state.sockMap = whole.sockMap
  reversedMap : state.reversedMap = whole.reversedMap
  owners : ∀ fd, whole.fds fd = (state.fds.owner fd).map (ownerOf state.clients)
  numbered : ∀ conn ∈ state.clients, conn < state.fds.next
  watched : ∀ fd, whole.fds fd = some .backend → ∃ loop, fd ∈ state.group.dmpes loop
  history : whole.history.Sublist trace
  loops : ∀ loop, state.loops loop = ⟨.print, []⟩
  forwards : ∀ thread, state.forwards thread = .idle
  mx : state.mx = none
  fault : state.fault = none

/-- The steps take a match of `whole` to one of `after`. -/
def Simulated (trace : List (Event Fd Fd)) (state : Threads n m) (after : ProxyServer) : Prop :=
  ∃ later more, handlers.Reaches events state more later ∧ Matches after (trace ++ more) later

section Simulation

variable {whole : ProxyServer} {trace : List (Event Fd Fd)} {state : Threads n m}

theorem start_matches [NeZero n] : Matches .start [] (Threads.start : Threads n m) := by
  constructor
  · exact start_assigned
  · rfl
  · rfl
  · intro fd
    rfl
  · intro conn member
    cases member
  · intro fd backend
    cases backend
  · exact List.Sublist.refl _
  · intro loop
    rfl
  · intro thread
    rfl
  · rfl
  · rfl

theorem Matches.logged (matched : Matches whole trace state) {after : ProxyServer}
    {longer : List (Event Fd Fd)} (assigned : Assigned after)
    (same : after = { whole with history := after.history })
    (grown : after.history.Sublist longer) : Matches after longer state := by
  rw [same] at assigned ⊢
  exact { matched with assigned, history := grown }

theorem Matches.stays (matched : Matches whole trace state) (actions : List (Action n m))
    (ran : handlers.run state actions = some state ∧ handlers.log events state actions = []) :
    Simulated trace state whole := by
  refine ⟨state, [], ⟨actions, ran⟩, ?_⟩
  rw [List.append_nil]
  exact matched

theorem Simulated.bind {middle after : ProxyServer} (first : Simulated trace state middle)
    (second : ∀ (later : Threads n m) (more : List (Event Fd Fd)),
      Matches middle more later → Simulated more later after) :
    Simulated trace state after := by
  obtain ⟨later, more, reached, matched⟩ := first
  obtain ⟨last, rest, reachedLast, matchedLast⟩ := second later (trace ++ more) matched
  refine ⟨last, more ++ rest, reached.trans reachedLast, ?_⟩
  rw [← List.append_assoc]
  exact matchedLast

theorem accepted_matches (matched : Matches whole trace state) {fd : Fd}
    (assigned : Assigned { whole with fds := Function.update whole.fds fd (some .other) }) :
    Matches { whole with fds := Function.update whole.fds fd (some .other) } trace
      { state with
        fds := state.fds.allocate fd
        clients := state.fds.next :: state.clients } := by
  refine { matched with assigned, owners := ?_, numbered := ?_, watched := ?_ }
  · intro other
    simp only [Function.update_apply, FdTable.allocate_owner]
    by_cases same : other = fd
    · simp [same, ownerOf]
    · simp only [same, ↓reduceIte, matched.owners]
      apply Option.map_congr
      intro conn owned
      have older := state.fds.numbered other conn owned
      simp [ownerOf, Nat.ne_of_lt older]
  · intro conn member
    rcases List.mem_cons.mp member with newest | older
    · rw [newest]
      exact Nat.lt_succ_self _
    · exact Nat.lt_succ_of_lt (matched.numbered conn older)
  · intro other backend
    simp only [Function.update_apply] at backend
    split at backend
    · cases backend
    · exact matched.watched other backend

theorem open_fd_simulated (matched : Matches whole trace state) {fd : Fd} {after : ProxyServer}
    (opened : whole.openFd fd = some after) : Simulated trace state after := by
  have assigned := open_fd_assigned matched.assigned opened
  simp only [ProxyServer.openFd] at opened
  split at opened
  · cases opened
  · next closed =>
      cases opened
      have unused : state.fds.owner fd = none := by
        rw [matched.owners, Option.map_eq_none_iff] at closed
        exact closed
      refine ⟨_, [], ⟨[.accept fd], ?_, ?_⟩, by
        rw [List.append_nil]
        exact accepted_matches matched assigned⟩
      · simp [Machine.run, handlers, matched.fault, Threads.accept, unused]
      · simp [Machine.log, handlers, matched.fault, Threads.accept, unused, events]

/-- The fields of a match that a `close` of `fd` is about. -/
theorem Matches.close (matched : Matches whole trace state) (fd : Fd) :
    (∀ other, Function.update whole.fds fd none other =
      ((state.fds.close fd).owner other).map (ownerOf state.clients)) ∧
    ∀ other, Function.update whole.fds fd none other = some .backend →
      ∃ loop, other ∈ (state.group.close fd).dmpes loop := by
  constructor
  · intro other
    simp only [Function.update_apply, FdTable.close_owner]
    by_cases same : other = fd
    · simp [same]
    · simp only [same, ↓reduceIte, matched.owners]
  · intro other backend
    simp only [Function.update_apply] at backend
    split at backend
    · cases backend
    · next different =>
        obtain ⟨loop, member⟩ := matched.watched other backend
        exact ⟨loop, (LoopThreadGroup.mem_close _ _ _ _).mpr ⟨different, member⟩⟩

theorem close_fd_simulated (matched : Matches whole trace state) {fd : Fd} {after : ProxyServer}
    (closed : whole.closeFd fd = some after) : Simulated trace state after := by
  have assigned := close_fd_assigned matched.assigned closed
  simp only [ProxyServer.closeFd] at closed
  split at closed
  · next owned =>
      cases closed
      rw [matched.owners, Option.map_eq_some_iff] at owned
      obtain ⟨conn, opened, other⟩ := owned
      have client : conn ∈ state.clients := by
        by_contra backend
        simp [ownerOf, backend] at other
      obtain ⟨owners, watched⟩ := matched.close fd
      refine ⟨{ state with fds := state.fds.close fd, group := state.group.close fd }, [],
        ⟨[.leave fd], ?_, ?_⟩, ?_⟩
      · simp [Machine.run, handlers, matched.fault, Threads.leave, opened, client]
      · simp [Machine.log, handlers, matched.fault, Threads.leave, opened, client, events]
      · rw [List.append_nil]
        exact { matched with assigned, owners, watched }
  · cases closed

/-- A limited client is looked up, and nothing is sent. -/
theorem relay_matches (matched : Matches whole trace state) {incoming sock : Fd} (limited : Bool)
    (found : whole.reversedMap.lookup incoming = some sock) :
    Matches (whole.relay incoming limited) (trace ++ [.forwarded incoming sock]) state := by
  have assigned := relay_assigned matched.assigned limited (UnorderedMap.mem_of_lookup found)
  refine matched.logged assigned ?_ ?_
  · simp only [ProxyServer.relay, found]
    split <;> rfl
  · simp only [ProxyServer.relay, found]
    split
    · exact matched.history.trans (List.sublist_append_left _ _)
    · exact matched.history.append (List.Sublist.refl _)

theorem relay_simulated (matched : Matches whole trace state) (thread : Fin m) {incoming : Fd}
    (limited : Bool) (present : incoming ∈ whole.reversedMap) :
    Simulated trace state (whole.relay incoming limited) := by
  obtain ⟨sock, found⟩ := UnorderedMap.lookup_of_mem present
  have ran := found_pass (matched.forwards thread) matched.fault
    (by rw [matched.reversedMap]; exact found)
  exact ⟨state, _, ⟨_, ran⟩, relay_matches matched limited found⟩

theorem establish_matches (matched : Matches whole trace state) {incoming sock : Fd}
    (absent : incoming ∉ whole.reversedMap) (free : whole.fds sock = none) :
    Matches (whole.establish incoming sock) (trace ++ [.given incoming sock])
      (state.established incoming sock) := by
  refine { matched with
    assigned := establish_assigned matched.assigned absent free
    sockMap := ?_
    reversedMap := ?_
    owners := ?_
    numbered := ?_
    watched := ?_
    history := ?_ }
  · exact congrArg (fun map => UnorderedMap.emplace map sock incoming) matched.sockMap
  · exact congrArg (fun map => UnorderedMap.emplace map incoming sock) matched.reversedMap
  · intro other
    simp only [ProxyServer.establish, Threads.established, Function.update_apply,
      FdTable.allocate_owner]
    by_cases same : other = sock
    · -- the connection is newer than every client
      have fresh : state.fds.next ∉ state.clients :=
        fun member => Nat.lt_irrefl _ (matched.numbered _ member)
      simp [same, ownerOf, fresh]
    · simp only [same, ↓reduceIte, matched.owners]
  · intro conn member
    exact Nat.lt_succ_of_lt (matched.numbered conn member)
  · intro other backend
    simp only [ProxyServer.establish, Function.update_apply] at backend
    simp only [Threads.established, LoopThreadGroup.mem_register]
    split at backend
    · next same =>
        refine ⟨state.group.iter, Or.inr (Or.inl ⟨rfl, same, ?_⟩)⟩
        rw [FdTable.allocate_owner, if_pos rfl, Option.isSome_some]
    · obtain ⟨loop, member⟩ := matched.watched other backend
      exact ⟨loop, Or.inr (Or.inr member)⟩
  · exact matched.history.append (List.Sublist.refl _)

theorem establish_simulated (matched : Matches whole trace state) (thread : Fin m)
    {incoming sock : Fd} (limited : Bool) (absent : incoming ∉ whole.reversedMap)
    (free : whole.fds sock = none) :
    Simulated trace state ((whole.establish incoming sock).relay incoming limited) := by
  have unused : state.fds.owner sock = none := by
    rw [matched.owners, Option.map_eq_none_iff] at free
    exact free
  have ran := establish_pass (matched.forwards thread) matched.mx matched.fault
    (by rw [matched.reversedMap]; exact absent) unused
  have found : (whole.establish incoming sock).reversedMap.lookup incoming = some sock := by
    rw [ProxyServer.establish, UnorderedMap.lookup_emplace_fresh (AList.lookup_eq_none.mpr absent),
      if_pos rfl]
  have relayed := relay_matches (establish_matches matched absent free) limited found
  rw [List.append_assoc] at relayed
  exact ⟨_, _, ⟨_, ran⟩, relayed⟩

theorem update_for_forward_simulated (thread : Fin m) (answers : Answers)
    (pairs : List (Sigma fun _ : Fd => InetAddr)) {after : ProxyServer}
    (matched : Matches whole trace state)
    (returned : whole.updateForForward answers pairs = some after) :
    Simulated trace state after := by
  induction pairs generalizing whole trace state with
  | nil =>
      cases returned
      exact matched.stays [] ⟨rfl, rfl⟩
  | cons pair rest ih =>
      obtain ⟨incoming, addr⟩ := pair
      simp only [ProxyServer.updateForForward, matched.assigned.fault, Option.isSome_none,
        Bool.false_eq_true, ↓reduceIte] at returned
      split at returned
      · next present =>
          exact (relay_simulated matched thread _ present).bind fun _ _ later => ih later returned
      · next absent =>
          split at returned
          · cases returned
            exact matched.stays _ (refused_pass (matched.forwards thread) matched.mx matched.fault
              (by rw [matched.reversedMap]; exact absent))
          · split at returned
            · cases returned
            · next free =>
                exact (establish_simulated matched thread _ absent free).bind
                  fun _ _ later => ih later returned

theorem removed_matches (matched : Matches whole trace state) {fd incoming : Fd}
    {more : List (Event Fd Fd)} (found : whole.sockMap.lookup fd = some incoming)
    (recorded : [.closed fd].Sublist more) :
    Matches { whole with
        fds := Function.update whole.fds fd none
        sockMap := whole.sockMap.erase fd
        reversedMap := whole.reversedMap.erase incoming
        history := whole.history ++ [.closed fd] }
      (trace ++ more) (state.removed fd incoming) := by
  obtain ⟨owners, watched⟩ := matched.close fd
  exact { matched with
    assigned := closed_assigned matched.assigned found
    sockMap := congrArg (AList.erase fd) matched.sockMap
    reversedMap := congrArg (AList.erase incoming) matched.reversedMap
    owners
    watched
    history := matched.history.append recorded }

theorem respond_simulated (matched : Matches whole trace state) {resp : Resp} {incoming : Fd}
    (backend : whole.fds resp.fd = some .backend)
    (found : whole.sockMap.lookup resp.fd = some incoming) :
    Simulated trace state (whole.respond resp incoming) := by
  obtain ⟨loop, watched⟩ := matched.watched resp.fd backend
  have idle := matched.loops loop
  have mapped : state.sockMap.lookup resp.fd = some incoming := by
    rw [matched.sockMap]
    exact found
  have assigned := respond_assigned matched.assigned found
  cases closes : resp.isClosable with
  | true =>
      have ran := removed_pass (m := m) idle matched.fault watched mapped matched.mx closes
      have removed := removed_matches matched found
        (List.sublist_append_right (List.replicate 2 (.returned resp.fd incoming)) _)
      simp only [ProxyServer.respond, ProxyServer.cleanup, closes, found, Bool.not_true,
        Bool.and_false, Bool.false_eq_true, ↓reduceIte]
      exact ⟨_, _, ⟨_, ran⟩, removed⟩
  | false =>
      simp only [ProxyServer.respond, closes, Bool.not_false, Bool.and_true, Bool.false_eq_true,
        ↓reduceIte] at assigned ⊢
      cases speaks : resp.isReadable with
      | true =>
          have ran := returned_pass idle matched.fault watched mapped speaks closes
          simp only [speaks, ↓reduceIte] at assigned
          exact ⟨_, _, ⟨_, ran⟩,
            matched.logged assigned rfl
              (matched.history.append (List.sublist_append_right [_] [_]))⟩
      | false =>
          -- only the print has looked the client up
          have ran := skipped_pass idle matched.fault watched mapped speaks closes
          simp only [speaks, Bool.false_eq_true, ↓reduceIte] at assigned
          exact ⟨_, _, ⟨_, ran⟩, matched.logged assigned rfl
            (matched.history.trans (List.sublist_append_left _ _))⟩

theorem update_for_wait_simulated (resps : List Resp) {after : ProxyServer}
    (matched : Matches whole trace state) (returned : whole.updateForWait resps = some after) :
    Simulated trace state after := by
  induction resps generalizing whole trace state with
  | nil =>
      cases returned
      exact matched.stays [] ⟨rfl, rfl⟩
  | cons resp rest ih =>
      simp only [ProxyServer.updateForWait, matched.assigned.fault, Option.isSome_none,
        Bool.false_eq_true, ↓reduceIte] at returned
      split at returned
      · cases returned
      · next opened =>
          have backend := Decidable.not_not.mp opened
          have present : resp.fd ∈ whole.sockMap := by
            rw [matched.assigned.backends]
            exact backend
          obtain ⟨incoming, found⟩ := UnorderedMap.lookup_of_mem present
          rw [found] at returned
          exact (respond_simulated matched backend found).bind fun _ _ later => ih later returned

theorem step_simulated (thread : Fin m) (action : Affinity.Action) {after : ProxyServer}
    (matched : Matches whole trace state)
    (stepped : Affinity.handlers.step whole action = some after) :
    Simulated trace state after := by
  simp only [Affinity.handlers, matched.assigned.fault, Option.isSome_none, Bool.false_eq_true,
    ↓reduceIte] at stepped
  cases action with
  | openFd => exact open_fd_simulated matched stepped
  | closeFd => exact close_fd_simulated matched stepped
  | forward sockToBackend answers =>
      exact update_for_forward_simulated thread answers sockToBackend.entries matched stepped
  | wait resps => exact update_for_wait_simulated resps matched stepped

end Simulation

/-- Handlers that run as a whole, one after the other, are an order in which the threads
can take their steps: with the same maps, the same open descriptors and all threads at
rest at its end, and with what the handlers do for whom in what the steps record. -/
theorem whole_handlers_simulated [NeZero n] (thread : Fin m) (calls : List Affinity.Action)
    {whole : ProxyServer} (ran : Affinity.handlers.run .start calls = some whole) :
    ∃ (actions : List (Action n m)) (final : Threads n m),
      handlers.run .start actions = some final ∧
      Matches whole (handlers.log events .start actions) final := by
  obtain ⟨final, trace, ⟨actions, ranSteps, recorded⟩, matched⟩ :=
    Machine.run_simulated Affinity.handlers
      (fun _ action _ _ _ matched stepped => step_simulated thread action matched stepped)
      (start_matches : Matches .start [] (Threads.start : Threads n m)) ran
  exact ⟨actions, final, ranSteps, by rw [recorded]; exact matched⟩

/-- Client 5 is served by 7, then limited, and its backend answers and hangs up. -/
def servedAndClosed : List Affinity.Action :=
  let pairs : UnorderedMap Fd InetAddr := AList.singleton 5 ⟨['a'], 1⟩
  [.openFd 5, .forward pairs ⟨fun _ _ => some 7, fun _ => false⟩,
    .forward pairs ⟨fun _ _ => some 8, fun _ => true⟩, .wait [⟨7, Demultiplex.epollIn⟩],
    .wait [⟨7, Demultiplex.epollHup⟩], .closeFd 5]

theorem served_and_closed_simulated :
    ∃ whole, Affinity.handlers.run .start servedAndClosed = some whole ∧
      whole.history = [.given 5 7, .forwarded 5 7, .returned 7 5, .closed 7] ∧
      ∃ (actions : List (Action 1 1)) (final : Threads 1 1),
        handlers.run .start actions = some final ∧
        Matches whole (handlers.log events .start actions) final := by
  obtain ⟨whole, ran, served⟩ := Affinity.handlers.run_reaches
    (fun state => decide (state.history =
      [.given 5 7, .forwarded 5 7, .returned 7 5, .closed 7]))
    .start servedAndClosed (by decide +kernel)
  exact ⟨whole, ran, of_decide_eq_true served, whole_handlers_simulated (Fin.last 0) _ ran⟩

end RProxy.Handlers
