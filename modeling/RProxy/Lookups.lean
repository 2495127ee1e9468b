import RProxy.SocketMaps

/-!
When `sock_map_.at` and `reversed_map_.at` find their keys: the orders of
registration, insertion, lookup and cleanup that the handlers rely on and that
nothing in them enforces.
-/

namespace RProxy.Handlers

variable {n m : Nat}

/-- The events with lookups still to come. -/
def Loop.pending (loop : Loop) : List Resp :=
  match loop.pc with
  | .print => loop.resps
  | .relay => loop.resps
  | _ => loop.resps.tail

/-- The descriptor that is looked up for the second time. -/
def Loop.printed (loop : Loop) : Option Fd :=
  match loop.pc with
  | .relay => (loop.resps.head?).map Resp.fd
  | _ => none

/-- The descriptor that is to be closed or cleaned up. -/
def Loop.doomed (loop : Loop) : Option Fd :=
  match loop.pc with
  | .print => none
  | .relay => none
  | _ => (loop.resps.head?).map Resp.fd

/-- The backend that is registered and not in `sock_map_` yet. -/
def ForwardPc.inserting : ForwardPc → Option Fd
  | .insert _ sock => some sock
  | _ => none

def ForwardPc.connected : ForwardPc → Option Fd
  | .register _ sock => some sock
  | .insert _ sock => some sock
  | _ => none

/-- The first lookup of a backend comes after its insertion; a cleanup comes
after the lookups of the other loops for the same event, and not between the
test and the lookup of `updateForForward`. -/
def HandleOrdered (state : Threads n m) (loop : Fin n) : WaitPc → List Resp → Prop
  | .print, resp :: _ => ∀ thread, (state.forwards thread).inserting ≠ some resp.fd
  | .eraseReversed, resp :: _ => ∀ incoming ∈ state.sockMap.lookup resp.fd, ∀ thread,
      state.forwards thread ≠ .lookup incoming
  | .erase, resp :: _ => ∀ other, other ≠ loop → ∀ late ∈ (state.loops other).pending,
      late.fd ≠ resp.fd
  | _, _ => True

/-- The second registration is not of a number that was closed since the
connection was made and is open again. -/
def AdvanceOrdered (state : Threads n m) : ForwardPc → Prop
  | .registerAgain _ sock =>
      (state.fds.owner sock).isSome → ∀ loop, (state.loops loop).closed ≠ some sock
  | _ => True

/-- Besides, `connect()` returns no number that a loop is still to close or to
clean up. -/
def Ordered (state : Threads n m) : Action n m → Prop
  | .handle loop => HandleOrdered state loop (state.loops loop).pc (state.loops loop).resps
  | .connect _ (some sock) =>
      sock ∉ state.sockMap ∧ ∀ loop, (state.loops loop).doomed ≠ some sock
  | .advance thread => AdvanceOrdered state (state.forwards thread)
  | _ => True

instance (state : Threads n m) (loop : Fin n) (pc : WaitPc) (resps : List Resp) :
    Decidable (HandleOrdered state loop pc resps) := by
  cases pc <;> cases resps <;> (unfold HandleOrdered; infer_instance)

instance (state : Threads n m) (pc : ForwardPc) : Decidable (AdvanceOrdered state pc) := by
  cases pc <;> (unfold AdvanceOrdered; infer_instance)

instance (state : Threads n m) : ∀ action, Decidable (Ordered state action)
  | .accept _ => isTrue trivial
  | .leave _ => isTrue trivial
  | .wait _ _ => isTrue trivial
  | .handle loop => inferInstanceAs
      (Decidable (HandleOrdered state loop (state.loops loop).pc (state.loops loop).resps))
  | .forward _ _ => isTrue trivial
  | .connect _ none => isTrue trivial
  | .connect _ (some sock) => inferInstanceAs
      (Decidable (sock ∉ state.sockMap ∧ ∀ loop, (state.loops loop).doomed ≠ some sock))
  | .advance thread => inferInstanceAs (Decidable (AdvanceOrdered state (state.forwards thread)))

/-- In `sock_map_`, or about to be. -/
def Known (state : Threads n m) (fd : Fd) : Prop :=
  fd ∈ state.sockMap ∨ ∃ thread, (state.forwards thread).inserting = some fd

/-- No event of `fd` can be reported. -/
def Unwatched (state : Threads n m) (fd : Fd) : Prop := ∀ loop, fd ∉ state.group.dmpes loop

/-- No thread is about to insert `fd`. -/
def Unclaimed (state : Threads n m) (fd : Fd) : Prop :=
  ∀ thread, (state.forwards thread).connected ≠ some fd

structure LoopReady (known held unclaimed unwatched : Fd → Prop) (loop : Loop) : Prop where
  pending : ∀ resp ∈ loop.pending, known resp.fd
  printed : ∀ fd ∈ loop.printed, held fd
  doomed : ∀ fd ∈ loop.doomed, unclaimed fd
  closed : ∀ fd ∈ loop.closed, unwatched fd
  separate : (loop.resps.map Resp.fd).Nodup

structure Ready (state : Threads n m) : Prop where
  locked : Locked state
  watched : ∀ loop fd, fd ∈ state.group.dmpes loop → Known state fd
  loops : ∀ loop, LoopReady (Known state) (· ∈ state.sockMap) (Unclaimed state) (Unwatched state)
    (state.loops loop)
  lookups : ∀ thread incoming, state.forwards thread = .lookup incoming →
    incoming ∈ state.reversedMap
  fault : state.fault = none

section LoopReady

variable {known held unclaimed unwatched : Fd → Prop}

theorem LoopReady.mono {known' held' unclaimed' unwatched' : Fd → Prop} {loop : Loop}
    (ready : LoopReady known held unclaimed unwatched loop)
    (knows : ∀ resp ∈ loop.pending, known resp.fd → known' resp.fd)
    (holds : ∀ fd ∈ loop.printed, held fd → held' fd)
    (claims : ∀ fd ∈ loop.doomed, unclaimed fd → unclaimed' fd)
    (watches : ∀ fd ∈ loop.closed, unwatched fd → unwatched' fd) :
    LoopReady known' held' unclaimed' unwatched' loop where
  pending resp member := knows resp member (ready.pending resp member)
  printed fd member := holds fd member (ready.printed fd member)
  doomed fd member := claims fd member (ready.doomed fd member)
  closed fd member := watches fd member (ready.closed fd member)
  separate := ready.separate

/-- The next event of the batch. -/
theorem LoopReady.next {pc : WaitPc} {resp : Resp} {rest : List Resp}
    (ready : LoopReady known held unclaimed unwatched ⟨pc, resp :: rest⟩) :
    LoopReady known held unclaimed unwatched ⟨.print, rest⟩ where
  pending late member := by
    apply ready.pending late
    cases pc <;> first | exact member | exact List.mem_cons_of_mem _ member
  printed fd member := by cases member
  doomed fd member := by cases member
  closed fd member := by cases member
  separate := (List.nodup_cons.mp ready.separate).2

end LoopReady

section Moves

variable {state next : Threads n m} (holds : Ready state) (locked : Locked next)
  (fault : next.fault = state.fault)

include holds locked fault

/-- A loop moves, and neither `sock_map_` nor the epoll sets change. -/
theorem loop_moves {loop : Fin n} {moved : Loop} (sockMap : next.sockMap = state.sockMap)
    (group : next.group = state.group) (forwards : next.forwards = state.forwards)
    (loops : next.loops = Function.update state.loops loop moved)
    (lookups : ∀ thread incoming, state.forwards thread = .lookup incoming →
      incoming ∈ next.reversedMap)
    (ready : LoopReady (Known state) (· ∈ state.sockMap) (Unclaimed state) (Unwatched state)
      moved) : Ready next := by
  have known : Known next = Known state := by
    funext fd
    simp only [Known, sockMap, forwards]
  have unclaimed : Unclaimed next = Unclaimed state := by
    funext fd
    simp only [Unclaimed, forwards]
  have unwatched : Unwatched next = Unwatched state := by
    funext fd
    simp only [Unwatched, group]
  constructor
  · exact locked
  · rw [group, known]
    exact holds.watched
  · intro other
    rw [known, unclaimed, unwatched, loops, sockMap, Function.update_apply]
    split
    · exact ready
    · exact holds.loops other
  · rw [forwards]
    exact lookups
  · rw [fault]
    exact holds.fault

variable {thread : Fin m} {moved : ForwardPc} (loops : next.loops = state.loops)
  (forwards : next.forwards = Function.update state.forwards thread moved)

include loops forwards

/-- A thread moves. What it was about to insert it has inserted or still
inserts, and what it registers or connects to is not a number that is being
cleaned up. -/
theorem forward_changes (held : ∀ fd ∈ state.sockMap, fd ∈ next.sockMap)
    (kept : ∀ incoming ∈ state.reversedMap, incoming ∈ next.reversedMap)
    (inserted : ∀ sock, (state.forwards thread).inserting = some sock → Known next sock)
    (watched : ∀ loop fd, fd ∈ next.group.dmpes loop →
      fd ∈ state.group.dmpes loop ∨ (Known next fd ∧ ∀ other, (state.loops other).closed ≠ some fd))
    (connected : ∀ sock, moved.connected = some sock → ∀ other,
      (state.loops other).doomed ≠ some sock)
    (lookups : ∀ incoming, moved = .lookup incoming → incoming ∈ next.reversedMap) :
    Ready next := by
  have known : ∀ fd, Known state fd → Known next fd := by
    rintro fd (present | ⟨other, arriving⟩)
    · exact Or.inl (held fd present)
    · by_cases same : other = thread
      · rw [same] at arriving
        exact inserted fd arriving
      · refine Or.inr ⟨other, ?_⟩
        rw [forwards, Function.update_of_ne same]
        exact arriving
  constructor
  · exact locked
  · intro loop fd member
    rcases watched loop fd member with old | ⟨new, _⟩
    · exact known fd (holds.watched loop fd old)
    · exact new
  · intro loop
    rw [loops]
    refine (holds.loops loop).mono (fun resp _ => known resp.fd) (fun fd _ => held fd) ?_ ?_
    · intro fd doomed unclaimed other
      rw [forwards, Function.update_apply]
      split
      · exact fun connects => connected fd connects loop doomed
      · exact unclaimed other
    · intro fd closed unwatched watcher member
      rcases watched watcher fd member with old | ⟨_, apart⟩
      · exact unwatched watcher old
      · exact apart loop closed
  · intro other incoming
    rw [forwards, Function.update_apply]
    split
    · exact lookups incoming
    · exact fun looking => kept incoming (holds.lookups other incoming looking)
  · rw [fault]
    exact holds.fault

/-- A thread moves without a registration; the maps have grown at most. -/
theorem maps_grow (held : ∀ fd ∈ state.sockMap, fd ∈ next.sockMap)
    (kept : ∀ incoming ∈ state.reversedMap, incoming ∈ next.reversedMap)
    (inserted : ∀ sock, (state.forwards thread).inserting = some sock → Known next sock)
    (group : next.group = state.group) (after : moved.connected = none)
    (lookups : ∀ incoming, moved = .lookup incoming → incoming ∈ next.reversedMap) :
    Ready next := by
  apply forward_changes holds locked fault loops forwards held kept inserted
  · rw [group]
    exact fun _ _ => Or.inl
  · intro sock connects
    rw [after] at connects
    cases connects
  · exact lookups

/-- A thread moves before its registrations or after its insertions. -/
theorem forward_moves (sockMap : next.sockMap = state.sockMap)
    (reversedMap : next.reversedMap = state.reversedMap) (group : next.group = state.group)
    (before : (state.forwards thread).inserting = none) (after : moved.connected = none)
    (lookups : ∀ incoming, moved = .lookup incoming → incoming ∈ state.reversedMap) :
    Ready next := by
  apply maps_grow holds locked fault loops forwards _ _ _ group after
  · rw [reversedMap]
    exact lookups
  · rw [sockMap]
    exact fun _ => id
  · rw [reversedMap]
    exact fun _ => id
  · intro sock inserting
    rw [before] at inserting
    cases inserting

end Moves

theorem unwatched_close (state : Threads n m) (gone fd : Fd) (unwatched : Unwatched state fd) :
    ∀ loop, fd ∉ (state.group.close gone).dmpes loop := by
  intro loop watched
  exact unwatched loop ((LoopThreadGroup.mem_close _ _ _ _).mp watched).2

theorem closed_doomed {loop : Loop} {fd : Fd} (closed : loop.closed = some fd) :
    loop.doomed = some fd := by
  obtain ⟨pc, resps⟩ := loop
  cases pc <;> first | exact closed | cases closed

theorem printed_pending {loop : Loop} {fd : Fd} (printed : fd ∈ loop.printed) :
    ∃ resp ∈ loop.pending, resp.fd = fd := by
  obtain ⟨pc, resps⟩ := loop
  cases resps with
  | nil => cases pc <;> cases printed
  | cons resp rest =>
      cases pc <;> cases printed
      exact ⟨resp, List.mem_cons_self, rfl⟩

/-- A backend that is not inserted yet is not in `sock_map_` under another client. -/
theorem connected_absent {state : Threads n m} (locked : Locked state) {thread : Fin m} {sock : Fd}
    (connected : (state.forwards thread).connected = some sock) : sock ∉ state.sockMap := by
  cases here : state.forwards thread with
  | register incoming other =>
      rw [here] at connected
      cases connected
      exact (forward_knows locked here rfl).2.2.2
  | insert incoming other =>
      rw [here] at connected
      cases connected
      exact (forward_knows locked here rfl).2.2.2
  | _ => rw [here] at connected; cases connected

/-- The close takes the descriptor out of every epoll set. -/
theorem close_ready {state next : Threads n m} {loop : Fin n} {resp : Resp} {rest : List Resp}
    (holds : Ready state) (here : state.loops loop = ⟨.close, resp :: rest⟩)
    (stepped : state.handle loop = some next) : Ready next := by
  have locked := handle_locked holds.locked stepped
  have ready := holds.loops loop
  rw [here] at ready
  simp only [Threads.handle, here] at stepped
  cases stepped
  constructor
  · exact locked
  · intro other fd watched
    exact holds.watched other fd ((LoopThreadGroup.mem_close _ _ _ _).mp watched).2
  · intro other
    simp only [Threads.goLoop, Function.update_apply]
    split
    · refine ⟨ready.pending, ready.printed, ready.doomed, ?_, ready.separate⟩
      intro fd member watcher watched
      cases member
      exact ((LoopThreadGroup.mem_close _ _ _ _).mp watched).1 rfl
    · exact (holds.loops other).mono (fun _ _ => id) (fun _ _ => id) (fun _ _ => id)
        (fun fd _ => unwatched_close state resp.fd fd)
  · exact holds.lookups
  · exact holds.fault

/-- The last step of a cleanup takes its descriptor out of `sock_map_`, which no
event that is still to be handled needs. -/
theorem erase_ready {state next : Threads n m} {loop : Fin n} {resp : Resp} {rest : List Resp}
    (holds : Ready state) (here : state.loops loop = ⟨.erase, resp :: rest⟩)
    (ordered : ∀ other, other ≠ loop → ∀ late ∈ (state.loops other).pending, late.fd ≠ resp.fd)
    (stepped : state.handle loop = some next) : Ready next := by
  have locked := handle_locked holds.locked stepped
  have ready := holds.loops loop
  rw [here] at ready
  simp only [Threads.handle, here] at stepped
  cases stepped
  have unwatched := ready.closed resp.fd rfl
  have known : ∀ fd, fd ≠ resp.fd → Known state fd → fd ∈ state.sockMap.erase resp.fd ∨
      ∃ thread, (state.forwards thread).inserting = some fd := by
    rintro fd different (present | arriving)
    · exact Or.inl (AList.mem_erase.mpr ⟨different, present⟩)
    · exact Or.inr arriving
  constructor
  · exact locked
  · intro watcher fd watched
    have different : fd ≠ resp.fd := fun same => unwatched watcher (by rwa [← same])
    exact known fd different (holds.watched watcher fd watched)
  · intro other
    simp only [Threads.goLoop, Function.update_apply]
    split
    · have separate := List.nodup_cons.mp ready.separate
      refine ready.next.mono ?_ (fun fd member => by cases member) (fun _ _ => id)
        (fun _ _ => id)
      intro late member
      apply known
      intro same
      exact separate.1 (List.mem_map.mpr ⟨late, member, same⟩)
    · next different =>
        refine (holds.loops other).mono ?_ ?_ (fun _ _ => id) (fun _ _ => id)
        · intro late member
          exact known late.fd (ordered other different late member)
        · intro fd member held
          obtain ⟨late, pending, same⟩ := printed_pending member
          have apart := ordered other different late pending
          exact AList.mem_erase.mpr ⟨by rwa [same] at apart, held⟩
  · exact holds.lookups
  · exact holds.fault

theorem handle_ready {state next : Threads n m} {loop : Fin n} (holds : Ready state)
    (ordered : Ordered state (.handle loop)) (stepped : state.handle loop = some next) :
    Ready next := by
  have locked := handle_locked holds.locked stepped
  have ready := holds.loops loop
  simp only [Ordered] at ordered
  cases here : state.loops loop with
  | mk pc resps =>
    rw [here] at ordered ready
    have handled := stepped
    simp only [Threads.handle, here] at stepped
    cases resps with
    | nil => cases stepped
    | cons resp rest =>
        cases pc with
        | print =>
            -- a backend that is watched is in the map, or about to be and then excluded
            have present : resp.fd ∈ state.sockMap := by
              rcases ready.pending resp List.mem_cons_self with present | ⟨thread, arriving⟩
              · exact present
              · exact absurd arriving (ordered thread)
            simp only [present, not_true_eq_false, ↓reduceIte] at stepped
            split at stepped
            · cases stepped
              refine loop_moves holds locked rfl rfl rfl rfl rfl holds.lookups
                ⟨ready.pending, ?_, ready.doomed, ready.closed, ready.separate⟩
              intro fd member
              cases member
              exact present
            · split at stepped <;> cases stepped
              · refine loop_moves holds locked rfl rfl rfl rfl rfl holds.lookups
                  ⟨ready.next.pending, ready.printed, ?_, ready.closed, ready.separate⟩
                intro fd member thread connected
                cases member
                exact connected_absent holds.locked connected present
              · exact loop_moves holds locked rfl rfl rfl rfl rfl holds.lookups ready.next
        | relay =>
            -- no other loop has cleaned it up between the two lookups
            have present : resp.fd ∈ state.sockMap := ready.printed resp.fd rfl
            simp only [present, not_true_eq_false, ↓reduceIte] at stepped
            cases stepped
            exact loop_moves holds locked rfl rfl rfl rfl rfl holds.lookups ready.next
        | close =>
            exact close_ready holds here handled
        | lock =>
            simp only at stepped
            split at stepped
            · cases stepped
            · cases stepped
              exact loop_moves holds locked rfl rfl rfl rfl rfl holds.lookups
                ⟨ready.pending, ready.printed, ready.doomed, ready.closed, ready.separate⟩
        | find =>
            simp only at stepped
            split at stepped <;> cases stepped
            · exact loop_moves holds locked rfl rfl rfl rfl rfl holds.lookups
                ⟨ready.pending, ready.printed, ready.doomed, ready.closed, ready.separate⟩
            · exact loop_moves holds locked rfl rfl rfl rfl rfl holds.lookups ready.next
        | eraseReversed =>
            have claim := congrArg (Loop.claim state.sockMap state.reversedMap) here
            have present : resp.fd ∈ state.sockMap := (loop_knows holds.locked claim).2.2
            obtain ⟨incoming, found⟩ := UnorderedMap.lookup_of_mem present
            simp only [found] at stepped
            cases stepped
            refine loop_moves holds locked rfl rfl rfl rfl rfl ?_
              ⟨ready.pending, ready.printed, ready.doomed, ready.closed, ready.separate⟩
            intro thread other looking
            -- no thread is between the test and the lookup of this client
            have different : other ≠ incoming := by
              intro same
              exact ordered incoming found thread (by rw [looking, same])
            exact AList.mem_erase.mpr ⟨different, holds.lookups thread other looking⟩
        | erase => exact erase_ready holds here ordered handled

theorem ordered_unmapped {state : Threads n m} {action : Action n m}
    (ordered : Ordered state action) : Unmapped state action := by
  cases action with
  | connect thread result =>
      cases result with
      | none => trivial
      | some sock => exact ordered.1
  | _ => trivial

theorem connect_ready {state next : Threads n m} {thread : Fin m} {result : Option Fd}
    (holds : Ready state) (ordered : Ordered state (.connect thread result))
    (stepped : state.connect thread result = some next) : Ready next := by
  have locked := connect_locked holds.locked (ordered_unmapped ordered) stepped
  simp only [Threads.connect] at stepped
  split at stepped
  · next incoming here =>
      cases stepped
      exact forward_moves holds locked rfl rfl rfl rfl rfl rfl (by rw [here]; rfl) rfl
        (fun other moved => by cases moved)
  · next incoming sock here =>
      split at stepped
      · cases stepped
      · cases stepped
        apply forward_changes holds locked rfl rfl rfl
        · exact fun _ => id
        · exact fun _ => id
        · intro other inserting
          rw [here] at inserting
          cases inserting
        · exact fun _ _ => Or.inl
        · intro other connects
          cases connects
          exact ordered.2
        · intro other moved
          cases moved
  · cases stepped

/-- A registration of a backend that `sock_map_` knows or is about to, and that
no loop has closed. -/
theorem register_ready {state next : Threads n m} {thread : Fin m} {moved : ForwardPc} {sock : Fd}
    (holds : Ready state) (locked : Locked next)
    (registered : next = { state.goForward thread moved with
      group := state.group.registerFd state.fds sock })
    (before : (state.forwards thread).inserting = none) (known : Known next sock)
    (apart : (state.fds.owner sock).isSome → ∀ loop, (state.loops loop).closed ≠ some sock)
    (connected : ∀ other, moved.connected = some other → ∀ loop,
      (state.loops loop).doomed ≠ some other)
    (lookups : ∀ incoming, moved ≠ .lookup incoming) : Ready next := by
  subst registered
  apply forward_changes holds locked rfl rfl rfl
  · exact fun _ => id
  · exact fun _ => id
  · intro other inserting
    rw [before] at inserting
    cases inserting
  · intro loop fd member
    rcases (LoopThreadGroup.mem_register _ _ _ _ _).mp member with ⟨_, rfl, opened⟩ | old
    · exact Or.inr ⟨known, apart opened⟩
    · exact Or.inl old
  · exact connected
  · intro other moved
    exact absurd moved (lookups other)

theorem advance_ready {state next : Threads n m} {thread : Fin m} (holds : Ready state)
    (ordered : Ordered state (.advance thread)) (stepped : state.advance thread = some next) :
    Ready next := by
  have locked := advance_locked holds.locked stepped
  simp only [Ordered] at ordered
  cases here : state.forwards thread with
  | idle => simp [Threads.advance, here] at stepped
  | connect incoming => simp [Threads.advance, here] at stepped
  | find incoming =>
      simp only [Threads.advance, here, Option.some.injEq] at stepped
      subst stepped
      refine forward_moves holds locked rfl rfl rfl rfl rfl rfl (by rw [here]; rfl) ?_ ?_
      · split <;> rfl
      · intro other moved
        split at moved <;> cases moved
        assumption
  | lock incoming =>
      simp only [Threads.advance, here] at stepped
      split at stepped
      · cases stepped
      · cases stepped
        exact forward_moves holds locked rfl rfl rfl rfl rfl rfl (by rw [here]; rfl) rfl
          (fun other moved => by cases moved)
  | findAgain incoming =>
      simp only [Threads.advance, here, Option.some.injEq] at stepped
      subst stepped
      refine forward_moves holds locked rfl rfl rfl rfl rfl rfl (by rw [here]; rfl) ?_ ?_
      · split <;> rfl
      · intro other moved
        split at moved <;> cases moved
  | register incoming sock =>
      simp only [Threads.advance, here, Option.some.injEq] at stepped
      subst stepped
      -- the connection is new, so no loop is about to close its number
      have apart : ∀ loop, (state.loops loop).doomed ≠ some sock := by
        intro loop doomed
        exact (holds.loops loop).doomed sock doomed thread (by rw [here]; rfl)
      apply register_ready holds locked rfl
      · rw [here]
        rfl
      · exact Or.inr ⟨thread, by simp [Threads.goForward, ForwardPc.inserting]⟩
      · exact fun _ loop closed => apart loop (closed_doomed closed)
      · intro other connects
        cases connects
        exact apart
      · intro other moved
        cases moved
  | insert incoming sock =>
      simp only [Threads.advance, here, Option.some.injEq] at stepped
      subst stepped
      refine maps_grow holds locked rfl rfl rfl ?_ (fun _ => id) ?_ rfl rfl
        (fun other moved => by cases moved)
      · exact fun fd present => (UnorderedMap.mem_emplace _ _ _ _).mpr (Or.inr present)
      · intro other inserting
        rw [here] at inserting
        cases inserting
        exact Or.inl ((UnorderedMap.mem_emplace _ _ _ _).mpr (Or.inl rfl))
  | insertReversed incoming sock =>
      simp only [Threads.advance, here, Option.some.injEq] at stepped
      subst stepped
      refine maps_grow holds locked rfl rfl rfl (fun _ => id) ?_ ?_ rfl rfl
        (fun other moved => by cases moved)
      · exact fun fd present => (UnorderedMap.mem_emplace _ _ _ _).mpr (Or.inr present)
      · intro other inserting
        rw [here] at inserting
        cases inserting
  | registerAgain incoming sock =>
      simp only [Threads.advance, here, Option.some.injEq] at stepped
      subst stepped
      obtain ⟨inverse, found⟩ := (forward_knows holds.locked here rfl).2
      have present := UnorderedMap.mem_of_lookup ((inverse sock incoming).mpr found)
      rw [here] at ordered
      apply register_ready holds locked rfl
      · rw [here]
        rfl
      · exact Or.inl present
      · exact ordered
      · intro other connects
        cases connects
      · intro other moved
        cases moved
  | unlock incoming =>
      simp only [Threads.advance, here, Option.some.injEq] at stepped
      subst stepped
      have present := (forward_knows holds.locked here rfl).2.2
      exact forward_moves holds locked rfl rfl rfl rfl rfl rfl (by rw [here]; rfl) rfl
        (fun other moved => by cases moved; exact present)
  | lookup incoming =>
      have present := holds.lookups thread incoming here
      simp only [Threads.advance, here, present, ↓reduceIte, Option.some.injEq] at stepped
      subst stepped
      exact forward_moves holds locked rfl rfl rfl rfl rfl rfl (by rw [here]; rfl) rfl
        (fun other moved => by cases moved)

theorem leave_ready {state next : Threads n m} {fd : Fd} (holds : Ready state)
    (stepped : state.leave fd = some next) : Ready next := by
  simp only [Threads.leave] at stepped
  split at stepped
  · cases stepped
  · split at stepped
    · cases stepped
      constructor
      · exact holds.locked
      · intro loop other watched
        exact holds.watched loop other ((LoopThreadGroup.mem_close _ _ _ _).mp watched).2
      · intro loop
        exact (holds.loops loop).mono (fun _ _ => id) (fun _ _ => id) (fun _ _ => id)
          (fun other _ => unwatched_close state fd other)
      · exact holds.lookups
      · exact holds.fault
    · cases stepped

theorem step_ready (state : Threads n m) (action : Action n m) (next : Threads n m)
    (holds : Ready state) (ordered : Ordered state action)
    (stepped : handlers.step state action = some next) : Ready next := by
  have locked := step_locked state action next holds.locked (ordered_unmapped ordered) stepped
  simp only [handlers, holds.fault, Option.isSome_none, Bool.false_eq_true, ↓reduceIte] at stepped
  cases action with
  | accept fd =>
      simp only [Threads.accept] at stepped
      split at stepped
      · cases stepped
      · cases stepped
        exact ⟨locked, holds.watched, holds.loops, holds.lookups, holds.fault⟩
  | leave fd => exact leave_ready holds stepped
  | wait loop resps =>
      simp only [Threads.wait] at stepped
      split at stepped
      · next fetched =>
          cases stepped
          refine loop_moves holds locked rfl rfl rfl rfl rfl holds.lookups ?_
          refine ⟨?_, ?_, ?_, ?_, fetched.2.1⟩
          · intro resp member
            exact holds.watched loop resp.fd (fetched.2.2 resp member)
          · intro fd member
            cases member
          · intro fd member
            cases member
          · intro fd member
            cases member
      · cases stepped
  | handle loop => exact handle_ready holds ordered stepped
  | forward thread incoming =>
      simp only [Threads.forward] at stepped
      split at stepped
      · next here =>
          cases stepped
          exact forward_moves holds locked rfl rfl rfl rfl rfl rfl (by rw [here]; rfl) rfl
            (fun other moved => by cases moved)
      · cases stepped
  | connect thread result => exact connect_ready holds ordered stepped
  | advance thread => exact advance_ready holds ordered stepped

theorem start_ready [NeZero n] : Ready (Threads.start : Threads n m) := by
  constructor
  · exact start_locked
  · intro loop fd watched
    exact absurd watched (LoopThreadGroup.init_empty loop fd)
  · intro loop
    refine ⟨?_, ?_, ?_, ?_, List.nodup_nil⟩
    · intro resp member
      cases member
    · intro fd member
      cases member
    · intro fd member
      cases member
    · intro fd member
      cases member
  · intro thread incoming looking
    cases looking
  · rfl

/-- In such a run every `at` finds its key, so that nothing is thrown. -/
theorem lookups_find [NeZero n] (actions : List (Action n m)) (final : Threads n m)
    (meets : handlers.Meets Ordered Threads.start actions)
    (ran : handlers.run Threads.start actions = some final) : final.fault = none :=
  (handlers.run_invariant Ready step_ready start_ready meets ran).fault

/-- A client is served, and its backend hangs up after that. -/
theorem served_lookups_find :
    ∃ final, handlers.run Threads.start (establish 5 7 ++ hangUp 7 ++ cleanUp) = some final ∧
      final.sockMap.lookup 7 = none ∧ final.fault = none := by
  obtain ⟨final, ran, reached⟩ := handlers.run_reaches
    (fun state => state.sockMap.lookup 7 == none) Threads.start
    (establish 5 7 ++ hangUp 7 ++ cleanUp) (by decide)
  exact ⟨final, ran, by simpa using reached, lookups_find _ final (by decide) ran⟩

/-- The backend hangs up when it is registered and not yet inserted. -/
theorem event_before_insertion_throws :
    ¬ ∀ (actions : List (Action 1 1)) (final : Threads 1 1),
      handlers.run Threads.start actions = some final → final.fault = none := by
  intro claim
  obtain ⟨final, ran, reached⟩ := handlers.run_reaches
    (fun state => state.fault == some .outOfRange) Threads.start
    ((establish 5 7).take 6 ++ (hangUp 7).take 2) (by decide)
  have quiet := claim _ final ran
  simp [quiet] at reached

end RProxy.Handlers
