import RProxy.Demultiplex
import RProxy.Group
import RProxy.Machine

/-!
Which demultiplexers watch a backend. `updateForForward` asks for a
registration in `establishWith` and again after the insertion into the maps,
and the round robin of `LoopThreadGroup` serves each request at another loop.
-/

namespace RProxy.Registration

/-- `cleaning` is a loop between `close(resp.fd)` and its section under `mx_`. -/
structure Reactors (n : Nat) where
  sockMap : UnorderedMap Fd Fd
  reversedMap : UnorderedMap Fd Fd
  group : LoopThreadGroup n
  fds : FdTable
  batches : Fin n → List (Resp × Nat)
  cleaning : Fin n → Option Fd
  handled : List (Nat × Fin n)
  closed : List Nat
  fault : Option Fault

variable {n : Nat}

def Reactors.start [NeZero n] : Reactors n where
  sockMap := ∅
  reversedMap := ∅
  group := .init n
  fds := .empty
  batches _ := []
  cleaning _ := none
  handled := []
  closed := []
  fault := none

/-- `forward` is one pass of the loop over a context; its `connect` is `none`
where `connectTo` throws, which also ends the loop over that context. -/
inductive Action (n : Nat) where
  | forward (incoming : Fd) (connect : Option Fd)
  | fetch (loop : Fin n) (resps : List Resp)
  | handle (loop : Fin n)
  | cleanup (loop : Fin n)
  deriving DecidableEq

namespace Reactors

variable (state : Reactors n)

/-- The section of `updateForForward` under `mx_`, `establishWith` included. -/
def forward (incoming : Fd) (connect : Option Fd) : Option (Reactors n) :=
  if incoming ∈ state.reversedMap then some state
  else
    match connect with
    | none => some state
    | some sock =>
        match state.fds.owner sock with
        | some _ => none
        | none =>
            let fds := state.fds.allocate sock
            some { state with
              fds := fds
              sockMap := state.sockMap.emplace sock incoming
              reversedMap := state.reversedMap.emplace incoming sock
              group := (state.group.registerFd fds sock).registerFd fds sock }

/-- `epoll_wait` reports a descriptor at most once. -/
def fetch (loop : Fin n) (resps : List Resp) : Option (Reactors n) :=
  if state.batches loop = [] ∧ state.cleaning loop = none ∧ (resps.map Resp.fd).Nodup ∧
      ∀ resp ∈ resps, resp.fd ∈ state.group.dmpes loop then
    some { state with
      batches := Function.update state.batches loop
        (resps.filterMap fun resp => (state.fds.owner resp.fd).map (Prod.mk resp)) }
  else none

/-- One pass of the loop of `updateForWait`, down to the lock. -/
def handle (loop : Fin n) : Option (Reactors n) :=
  match state.batches loop, state.cleaning loop with
  | (resp, conn) :: rest, none =>
      let batches := Function.update state.batches loop rest
      let handled := state.handled ++ [(conn, loop)]
      if resp.fd ∉ state.sockMap then some { state with fault := some .outOfRange }
      else if resp.isClosable then
        some { state with
          batches := batches
          handled := handled
          closed := state.closed ++ [conn]
          fds := state.fds.close resp.fd
          group := state.group.close resp.fd
          cleaning := Function.update state.cleaning loop (some resp.fd) }
      else some { state with batches := batches, handled := handled }
  | _, _ => none

def cleanup (loop : Fin n) : Option (Reactors n) :=
  match state.cleaning loop with
  | none => none
  | some fd =>
      let cleaning := Function.update state.cleaning loop none
      match state.sockMap.lookup fd with
      | none => some { state with cleaning := cleaning }
      | some incoming => some { state with
          cleaning := cleaning
          reversedMap := state.reversedMap.erase incoming
          sockMap := state.sockMap.erase fd }

end Reactors

/-- An exception that leaves a loop's thread ends the process. -/
def reactors : Machine (Reactors n) (Action n) where
  step state action :=
    if state.fault.isSome then none
    else
      match action with
      | .forward incoming connect => state.forward incoming connect
      | .fetch loop resps => state.fetch loop resps
      | .handle loop => state.handle loop
      | .cleanup loop => state.cleanup loop

/-- Every open backend is watched by exactly one loop, the events of a
connection were handled by one loop, and none was closed twice. -/
structure OneLoop (state : Reactors n) : Prop where
  watched : ∀ fd, (state.fds.owner fd).isSome → ∃! loop, fd ∈ state.group.dmpes loop
  handled : ∀ conn first second, (conn, first) ∈ state.handled → (conn, second) ∈ state.handled →
    first = second
  closed : state.closed.Nodup

/-- With one loop the two registrations fall on the same set, and what the loop
has fetched it closes itself. -/
structure Invariant (state : Reactors n) : Prop where
  watched : ∀ fd loop, fd ∈ state.group.dmpes loop ↔ (state.fds.owner fd).isSome
  fetched : ∀ loop, ∀ entry ∈ state.batches loop, state.fds.owner entry.1.fd = some entry.2
  separate : ∀ loop, ((state.batches loop).map fun entry => entry.1.fd).Nodup
  closed : state.closed.Nodup
  retired : ∀ conn ∈ state.closed, state.fds.Retired conn

/-- Nothing is connected yet. -/
structure Idle (state : Reactors n) : Prop where
  unmapped : state.reversedMap = ∅
  unowned : ∀ fd, state.fds.owner fd = none
  unwatched : ∀ fd loop, fd ∉ state.group.dmpes loop
  unfetched : ∀ loop, state.batches loop = []
  uncleaned : ∀ loop, state.cleaning loop = none
  handled : state.handled = []
  closed : state.closed = []

/-- The two requests for a new connection are served by the loop at the cursor
and by the one after it. -/
theorem allocate_register_twice (group : LoopThreadGroup n) (fds : FdTable) (sock fd : Fd)
    (loop : Fin n) :
    fd ∈ ((group.registerFd (fds.allocate sock) sock).registerFd (fds.allocate sock) sock).dmpes
        loop ↔
      (fd = sock ∧ (loop = group.iter ∨ loop = LoopThreadGroup.advance group.iter)) ∨
        fd ∈ group.dmpes loop := by
  have opened : ((fds.allocate sock).owner sock).isSome := by simp [FdTable.allocate_owner]
  simp only [LoopThreadGroup.mem_register, opened, and_true]
  constructor
  · rintro (⟨here, same⟩ | ⟨here, same⟩ | old)
    · exact Or.inl ⟨same, Or.inr here⟩
    · exact Or.inl ⟨same, Or.inl here⟩
    · exact Or.inr old
  · rintro (⟨same, here | here⟩ | old)
    · exact Or.inr (Or.inl ⟨here, same⟩)
    · exact Or.inl ⟨here, same⟩
    · exact Or.inr (Or.inr old)

theorem forward_keeps [Subsingleton (Fin n)] {state next : Reactors n} {incoming : Fd}
    {connect : Option Fd} (holds : Invariant state)
    (stepped : state.forward incoming connect = some next) : Invariant next := by
  simp only [Reactors.forward] at stepped
  split at stepped
  · cases stepped
    exact holds
  · cases connect with
    | none =>
        cases stepped
        exact holds
    | some sock =>
        cases free : state.fds.owner sock with
        | some conn => simp [free] at stepped
        | none =>
            simp only [free, Option.some.injEq] at stepped
            subst stepped
            constructor
            · intro fd loop
              -- there is one loop, so both registrations fall on its set
              have only : loop = state.group.iter := Subsingleton.elim _ _
              rw [allocate_register_twice, holds.watched, FdTable.allocate_owner]
              by_cases same : fd = sock <;> simp [same, ← only]
            · intro loop entry member
              have owned := holds.fetched loop entry member
              have different : entry.1.fd ≠ sock := by
                intro same
                rw [same, free] at owned
                cases owned
              simpa only [FdTable.allocate_owner, different, ↓reduceIte] using owned
            · exact holds.separate
            · exact holds.closed
            · intro conn member
              exact FdTable.retired_allocate (holds.retired conn member) sock

/-- What is fetched keeps the order and the distinctness of the reported descriptors. -/
theorem fetched_nodup (fds : FdTable) (resps : List Resp) (separate : (resps.map Resp.fd).Nodup) :
    ((resps.filterMap fun resp => (fds.owner resp.fd).map (Prod.mk resp)).map
      fun entry => entry.1.fd).Nodup := by
  apply List.Nodup.sublist _ separate
  clear separate
  induction resps with
  | nil => exact List.Sublist.refl _
  | cons resp rest ih =>
      cases owned : fds.owner resp.fd with
      | none => simpa [owned] using ih.cons resp.fd
      | some conn => simpa [owned] using ih

theorem fetch_keeps {state next : Reactors n} {loop : Fin n} {resps : List Resp}
    (holds : Invariant state) (stepped : state.fetch loop resps = some next) : Invariant next := by
  simp only [Reactors.fetch] at stepped
  split at stepped
  · next ready =>
      cases stepped
      refine ⟨holds.watched, ?_, ?_, holds.closed, holds.retired⟩
      · intro watcher entry member
        by_cases here : watcher = loop
        · subst here
          simp only [Function.update_self, List.mem_filterMap, Option.map_eq_some_iff] at member
          rcases member with ⟨resp, _, conn, owned, rfl⟩
          exact owned
        · simp only [Function.update_of_ne here] at member
          exact holds.fetched watcher entry member
      · intro watcher
        by_cases here : watcher = loop
        · subst here
          simp only [Function.update_self]
          exact fetched_nodup state.fds resps ready.2.2.1
        · simp only [Function.update_of_ne here]
          exact holds.separate watcher
  · cases stepped

theorem handle_keeps [Subsingleton (Fin n)] {state next : Reactors n} {loop : Fin n}
    (holds : Invariant state) (stepped : state.handle loop = some next) : Invariant next := by
  simp only [Reactors.handle] at stepped
  split at stepped
  · next resp conn rest fetched idle =>
      have owned : state.fds.owner resp.fd = some conn :=
        holds.fetched loop (resp, conn) (by rw [fetched]; exact List.mem_cons_self)
      have separate := holds.separate loop
      rw [fetched, List.map_cons, List.nodup_cons] at separate
      have later : ∀ entry ∈ rest, state.fds.owner entry.1.fd = some entry.2 := by
        intro entry member
        exact holds.fetched loop entry (by rw [fetched]; exact List.mem_cons_of_mem _ member)
      -- the only loop there is
      have batch : ∀ watcher, Function.update state.batches loop rest watcher = rest := by
        intro watcher
        rw [Subsingleton.elim watcher loop, Function.update_self]
      split at stepped
      · cases stepped
        exact ⟨holds.watched, holds.fetched, holds.separate, holds.closed, holds.retired⟩
      · split at stepped
        · cases stepped
          constructor
          · intro fd watcher
            rw [LoopThreadGroup.mem_close, holds.watched, FdTable.close_owner]
            by_cases same : fd = resp.fd <;> simp [same]
          · intro watcher entry member
            simp only [batch] at member
            have different : entry.1.fd ≠ resp.fd := by
              intro same
              exact separate.1 (List.mem_map.mpr ⟨entry, member, same⟩)
            simpa only [FdTable.close_owner, different, ↓reduceIte] using later entry member
          · intro watcher
            simp only [batch]
            exact separate.2
          · apply List.nodup_append.mpr
            -- what was closed before has no descriptor, but this connection has
            refine ⟨holds.closed, List.nodup_singleton _, ?_⟩
            intro other member another single same
            obtain rfl := List.mem_singleton.mp single
            exact (holds.retired other member).2 resp.fd (by rw [owned, same])
          · intro other member
            rcases List.mem_append.mp member with old | new
            · exact FdTable.retired_close (holds.retired other old) resp.fd
            · obtain rfl := List.mem_singleton.mp new
              exact FdTable.close_retires owned
        · cases stepped
          refine ⟨holds.watched, ?_, ?_, holds.closed, holds.retired⟩
          · intro watcher entry member
            simp only [batch] at member
            exact later entry member
          · intro watcher
            simp only [batch]
            exact separate.2
  · cases stepped

theorem cleanup_keeps {state next : Reactors n} {loop : Fin n} (holds : Invariant state)
    (stepped : state.cleanup loop = some next) : Invariant next := by
  simp only [Reactors.cleanup] at stepped
  split at stepped
  · cases stepped
  · split at stepped <;> cases stepped <;>
      exact ⟨holds.watched, holds.fetched, holds.separate, holds.closed, holds.retired⟩

theorem step_keeps [Subsingleton (Fin n)] (state : Reactors n) (action : Action n)
    (next : Reactors n) (holds : Invariant state)
    (stepped : reactors.step state action = some next) : Invariant next := by
  simp only [reactors] at stepped
  split at stepped
  · cases stepped
  · cases action with
    | forward incoming connect => exact forward_keeps holds stepped
    | fetch loop resps => exact fetch_keeps holds stepped
    | handle loop => exact handle_keeps holds stepped
    | cleanup loop => exact cleanup_keeps holds stepped

theorem one_loop_of_invariant [NeZero n] [Subsingleton (Fin n)] (state : Reactors n)
    (holds : Invariant state) : OneLoop state where
  watched fd opened :=
    ⟨state.group.iter, (holds.watched fd _).mpr opened, fun _ _ => Subsingleton.elim _ _⟩
  handled _ _ _ _ _ := Subsingleton.elim _ _
  closed := holds.closed

theorem idle_one_loop {state : Reactors n} (idle : Idle state) : OneLoop state where
  watched fd opened := by simp [idle.unowned] at opened
  handled conn first second member := by simp [idle.handled] at member
  closed := by rw [idle.closed]; exact List.nodup_nil

/-- Without a connection a step leaves everything idle. -/
theorem idle_step {state next : Reactors n} {action : Action n} (idle : Idle state)
    (unconnected : ∀ incoming sock, action ≠ .forward incoming (some sock))
    (stepped : reactors.step state action = some next) : Idle next := by
  simp only [reactors] at stepped
  split at stepped
  · cases stepped
  · cases action with
    | forward incoming connect =>
        cases connect with
        | some sock => exact absurd rfl (unconnected incoming sock)
        | none =>
            simp only [Reactors.forward, ite_self, Option.some.injEq] at stepped
            subst stepped
            exact idle
    | fetch loop resps =>
        simp only [Reactors.fetch] at stepped
        split at stepped
        · cases stepped
          refine ⟨idle.unmapped, idle.unowned, idle.unwatched, ?_, idle.uncleaned, idle.handled,
            idle.closed⟩
          intro watcher
          by_cases here : watcher = loop
          · subst here
            simp [idle.unowned]
          · simp only [Function.update_of_ne here]
            exact idle.unfetched watcher
        · cases stepped
    | handle loop => simp [Reactors.handle, idle.unfetched] at stepped
    | cleanup loop => simp [Reactors.cleanup, idle.uncleaned] at stepped

/-- The first connection is registered with two loops if there are two. -/
theorem connect_two_loops {state next : Reactors n} {incoming sock : Fd} (several : n ≠ 1)
    (idle : Idle state)
    (stepped : reactors.step state (.forward incoming (some sock)) = some next) :
    ¬ OneLoop next := by
  intro holds
  simp only [reactors] at stepped
  split at stepped
  · cases stepped
  · simp only [Reactors.forward, idle.unmapped, AList.notMem_empty, ↓reduceIte,
      idle.unowned, Option.some.injEq] at stepped
    subst stepped
    have once := holds.watched sock (by simp [FdTable.allocate_owner])
    apply LoopThreadGroup.advance_ne state.group.iter several
    apply once.unique
    · apply (allocate_register_twice _ _ _ _ _).mpr
      exact Or.inl ⟨rfl, Or.inr rfl⟩
    · apply (allocate_register_twice _ _ _ _ _).mpr
      exact Or.inl ⟨rfl, Or.inl rfl⟩

theorem idle_always_iff (several : n ≠ 1) (actions : List (Action n)) (state final : Reactors n)
    (idle : Idle state) (ran : reactors.run state actions = some final) :
    reactors.Always OneLoop state actions ↔
      ∀ incoming sock, .forward incoming (some sock) ∉ actions := by
  induction actions generalizing state with
  | nil => simpa [Machine.Always] using idle_one_loop idle
  | cons action rest ih =>
      rw [Machine.run_cons] at ran
      obtain ⟨next, stepped, later⟩ := Option.bind_eq_some_iff.mp ran
      rw [Machine.always_cons _ stepped]
      by_cases connects : ∃ incoming sock, action = .forward incoming (some sock)
      · rcases connects with ⟨incoming, sock, rfl⟩
        constructor
        · rintro ⟨_, always⟩
          have here : OneLoop next := by
            cases rest with
            | nil => exact always
            | cons _ _ => exact always.1
          exact absurd here (connect_two_loops several idle stepped)
        · intro never
          exact absurd List.mem_cons_self (never incoming sock)
      · have unconnected : ∀ incoming sock, action ≠ .forward incoming (some sock) := by
          intro incoming sock same
          exact connects ⟨incoming, sock, same⟩
        rw [ih next (idle_step idle unconnected stepped) later]
        constructor
        · rintro ⟨_, never⟩ incoming sock member
          rcases List.mem_cons.mp member with here | inRest
          · exact unconnected incoming sock here.symm
          · exact never incoming sock inRest
        · intro never
          exact ⟨idle_one_loop idle, fun incoming sock member =>
            never incoming sock (List.mem_cons_of_mem _ member)⟩

theorem start_invariant [NeZero n] : Invariant (Reactors.start : Reactors n) := by
  constructor <;> simp [Reactors.start]

theorem start_idle [NeZero n] : Idle (Reactors.start : Reactors n) := by
  constructor <;> simp [Reactors.start]

/-- The backend of client 5 gets descriptor 7 and hangs up. -/
def closedOnce : List (Action 1) :=
  [.forward 5 (some 7), .fetch (Fin.last 0) [⟨7, Demultiplex.epollHup⟩],
    .handle (Fin.last 0), .cleanup (Fin.last 0)]

/-- With two threads both loops fetch the event of descriptor 7 and close it. -/
def closedTwice : List (Action 2) :=
  [.forward 5 (some 7), .fetch 0 [⟨7, Demultiplex.epollHup⟩], .fetch 1 [⟨7, Demultiplex.epollHup⟩],
    .handle 0, .handle 1]

end RProxy.Registration
