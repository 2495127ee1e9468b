import RProxy.Demultiplex
import RProxy.LoadBalancer
import RProxy.LockedQueue
import RProxy.ServiceLoop

/-!
What stops the threads of the proxy: `LoadBalancer::loadbalance`, the workers of
`WorkerGroup`, and the loops that `~TcpServer` and `ProxyServer::pooling` join.
-/

namespace RProxy.Shutdown

open Service

/-- A thread that is in the loop body, or blocked at its beginning. -/
def inside {Item : Type} : Phase Item → Nat
  | .testing => 0
  | .waiting => 1
  | .working _ => 1
  | .returned => 0

/-- `joinAll` comes to its end. -/
def Joined {Item : Type} (phases : List (Phase Item)) : Prop := ∀ phase ∈ phases, phase = .returned

instance {Item : Type} [DecidableEq Item] (phases : List (Phase Item)) :
    Decidable (Joined phases) := by
  unfold Joined
  infer_instance

/-- Between the emptiness test and the section under the lock, or after it. The
popped batch is in `sockes_`, which all threads of the loader share. -/
inductive Batch where
  | seen
  | popped
  deriving DecidableEq

structure Balancing where
  loader : LoadBalancer
  emitted : List (UnorderedMap Fd InetAddr)
  fault : Option Fault

inductive LoaderEvent where
  | push (sockes : List Fd)
  | addBackend (addr : InetAddr) (checkPort : UInt16)
  | removeBackend (addr : InetAddr)

/-- `LoadBalancer::loadbalance`; the inner loop waits for `sock_queue_`, and does
not look at `stop_`. A thread that meets undefined behaviour stays where it is, and
the subscribers' `update` is taken to return. -/
def loadbalance : Service Balancing Batch LoaderEvent where
  arrive source event :=
    match event with
    | .push sockes => some { source with loader := source.loader.updateForLoadbalance sockes }
    | .addBackend addr checkPort =>
        some { source with loader := source.loader.addBackend addr checkPort }
    | .removeBackend addr => some { source with loader := source.loader.removeBackend addr }
  take _ source := if source.loader.sockQueue.isEmpty then none else some (.seen, source)
  advance _ source item :=
    match item with
    | .seen =>
        match source.loader.popFront with
        | none => ({ source with fault := some .undefined }, some .seen)
        | some (_, loader) => ({ source with loader := loader }, some .popped)
    | .popped =>
        match source.loader.balancing source.loader.sockes with
        | none => ({ source with fault := some .undefined }, some .popped)
        | some sockMap => ({ source with emitted := source.emitted ++ [sockMap] }, none)

theorem loadbalance_conserves :
    loadbalance.Conserves (fun source => source.emitted.length) inside := by
  constructor
  · rfl
  · rfl
  · intro source event next arrives
    cases event <;>
    · cases arrives
      rfl
  · intro thread source item next taken
    simp only [loadbalance] at taken
    split at taken
    · cases taken
    · cases taken
      rfl
  · intro thread source item
    cases item with
    | seen =>
        simp only [loadbalance]
        split <;> rfl
    | popped =>
        simp only [loadbalance]
        split
        · rfl
        · simp [inside]

/-- After `stop()` each thread that is in the loop emits one more context, no more
and no less, before it returns; one that spins in the inner loop goes on as long
as the queue is empty. -/
theorem loadbalance_stops {state final : Threads Balancing Batch}
    {actions : List (Service.Action LoaderEvent)} (stop : state.stop = true)
    (ran : loadbalance.threads.run state actions = some final) :
    final.source.emitted.length + weigh inside final.phases =
        state.source.emitted.length + weigh inside state.phases ∧
      (loadbalance.Resting final → ∀ phase ∈ final.phases,
        phase = .returned ∨ (phase = .waiting ∧ final.source.loader.sockQueue = [])) := by
  refine ⟨run_conserves loadbalance_conserves stop ran, ?_⟩
  intro resting phase member
  obtain ⟨thread, here⟩ := List.mem_iff_getElem?.mp member
  rcases resting_phase resting here with returned | ⟨waiting, blocked⟩
  · exact Or.inl returned
  · right
    refine ⟨waiting, ?_⟩
    simpa [loadbalance] using blocked

/-- One backend, and a thread in the inner loop when `stop()` is called. -/
def spinning : Threads Balancing Batch :=
  ⟨⟨⟨(∅ : UnorderedMap (List Char) InetAddr).emplace ['b'] ⟨['b'], 80⟩, ∅, [], [], []⟩, [], none⟩,
    true, [.waiting]⟩

theorem spinning_stops : ∃ final,
    loadbalance.threads.run spinning [Service.Action.arrive (.push [4]), Service.Action.take 0,
      Service.Action.advance 0, Service.Action.advance 0, Service.Action.test 0] = some final ∧
    final.phases = [.returned] ∧
    final.source.emitted.length + weigh inside final.phases =
        spinning.source.emitted.length + weigh inside spinning.phases ∧
      (loadbalance.Resting final → ∀ phase ∈ final.phases,
        phase = .returned ∨ (phase = .waiting ∧ final.source.loader.sockQueue = [])) := by
  obtain ⟨final, ran, returned⟩ := loadbalance.threads.run_reaches
    (fun final => decide (final.phases = [.returned])) spinning
    [Service.Action.arrive (.push [4]), Service.Action.take 0, Service.Action.advance 0,
      Service.Action.advance 0, Service.Action.test 0] (by decide +kernel)
  exact ⟨final, ran, of_decide_eq_true returned, loadbalance_stops rfl ran⟩

section Workers

variable {Task : Type}

/-- A worker between the steps of `pop`, or in the call of what it returned. -/
inductive Job (Task : Type) where
  | removing (call : LockedQueue.Call Task Nat)
  | copying (call : LockedQueue.Call Task Nat)
  | running (task : Task)
  deriving DecidableEq

structure Tasks (Task : Type) where
  queue : LockedQueue.Queue Task Nat
  ran : List Task

/-- `while (!stop_) task_queue_.pop()();` where `destroyed` is what a worker copies
through a reference to a task that `queue_.pop()` has destroyed. A worker whose
`queue_.pop()` finds nothing stays where it is. -/
def workerGroup (destroyed : LockedQueue.Call Task Nat → Task) :
    Service (Tasks Task) (Job Task) Task where
  arrive source task := some { source with queue := source.queue.push task }
  take thread source :=
    match source.queue.queue with
    | [] => none
    | ret :: _ => (source.queue.pop thread).map fun queue =>
        (.removing ⟨thread, ret⟩, { source with queue := queue })
  advance _ source item :=
    match item with
    | .removing call =>
        let queue := source.queue.remove call
        ({ source with queue := queue },
          some (if queue.fault.isSome then .removing call else .copying call))
    | .copying call =>
        let task := destroyed call
        ({ source with queue := source.queue.copy call task }, some (.running task))
    | .running task => ({ source with ran := source.ran ++ [task] }, none)

/-- `n` workers of a group that was just constructed. -/
def workers (garbage : UInt64) (n : Nat) : Threads (Tasks Task) (Job Task) :=
  Service.start ⟨LockedQueue.start garbage, []⟩ n

variable {destroyed : LockedQueue.Call Task Nat → Task}

theorem worker_group_conserves :
    (workerGroup destroyed).Conserves (fun source => source.ran.length) inside := by
  constructor
  · rfl
  · rfl
  · intro source event next arrives
    cases arrives
    rfl
  · intro thread source item next taken
    simp only [workerGroup] at taken
    split at taken
    · cases taken
    · obtain ⟨queue, _, same⟩ := Option.map_eq_some_iff.mp taken
      cases same
      rfl
  · intro thread source item
    cases item with
    | removing call =>
        simp only [workerGroup]
        split <;> rfl
    | copying call => rfl
    | running task => simp [workerGroup, inside]

/-- One worker, which is in `pop` when `stop()` is called and gets one task. -/
def stopsInPop : List (Service.Action Nat) :=
  [Service.Action.test 0, Service.Action.stop, Service.Action.arrive 3, Service.Action.take 0,
    Service.Action.advance 0, Service.Action.advance 0, Service.Action.advance 0,
    Service.Action.test 0]

end Workers

section Loops

/-- What `epoll_wait` has for each loop, and what was published. -/
structure Events where
  pending : Nat → List (List Resp)
  notified : List (Nat × List Resp)

/-- `LoopThreadGroup::run`. Where `epoll_wait` returns no event, nobody is told. -/
def loopThreadGroup : Service Events (List Resp) (Nat × List Resp) where
  arrive source event := some { source with
    pending := Function.update source.pending event.1 (source.pending event.1 ++ [event.2]) }
  take thread source :=
    match source.pending thread with
    | [] => none
    | resps :: rest =>
        some (resps, { source with pending := Function.update source.pending thread rest })
  advance thread source resps :=
    if resps.isEmpty then (source, none)
    else ({ source with notified := source.notified ++ [(thread, resps)] }, none)

/-- Where the thread stands that joins the loops, and what it has joined. -/
inductive Owner where
  | outside
  | joining (next : Nat)
  | finished
  deriving DecidableEq

/-- What is done with the owner's own `stop_` before `joinAll`, and what follows. -/
structure Program where
  enter : Bool → Bool × Owner
  after : Owner

/-- `EventLoop::stop`, as `~TcpServer` calls it before `server_.close()`. -/
def eventLoopStop : Program := ⟨fun _ => (true, .joining 0), .finished⟩

/-- `ProxyServer::pooling`, which tests `stop_` before each `joinAll`. -/
def pooling : Program := ⟨fun stop => (stop, if stop then .finished else .joining 0), .outside⟩

structure Process where
  group : Threads Events (List Resp)
  stop : Bool
  owner : Owner

/-- `stop` sets the flag of the owner, `loop .stop` would set that of the group. -/
inductive Action where
  | loop (action : Service.Action (Nat × List Resp))
  | stop
  | enter
  | join
  | leave
  deriving DecidableEq

/-- The group after `init(n)`. -/
def init (n : Nat) : Process := ⟨Service.start ⟨fun _ => [], []⟩ n, false, .outside⟩

def process (program : Program) : Machine Process Action where
  step state action :=
    match action with
    | .loop action => (loopThreadGroup.threads.step state.group action).map fun group =>
        { state with group := group }
    | .stop => some { state with stop := true }
    | .enter =>
        if state.owner = .outside then
          let (stop, owner) := program.enter state.stop
          some { state with stop := stop, owner := owner }
        else none
    | .join =>
        match state.owner with
        | .joining next =>
            if state.group.phases[next]? = some .returned then
              some { state with owner := .joining (next + 1) }
            else none
        | _ => none
    | .leave =>
        if state.owner = .joining state.group.phases.length then
          some { state with owner := program.after }
        else none

/-- No loop has returned, so whoever joins is still at the first one. -/
structure Unjoined (n : Nat) (state : Process) : Prop where
  unstopped : state.group.stop = false
  running : .returned ∉ state.group.phases
  length : state.group.phases.length = n
  first : ∀ next, state.owner = .joining next → next = 0

theorem step_unjoined {program : Program} (programs : program = eventLoopStop ∨ program = pooling)
    {n : Nat} (several : 0 < n) {state next : Process} {action : Action}
    (holds : Unjoined n state) (unrequested : action ≠ .loop .stop)
    (stepped : (process program).step state action = some next) :
    Unjoined n next ∧ action ≠ .join ∧ action ≠ .leave := by
  cases action with
  | loop action =>
      obtain ⟨group, moved, rfl⟩ := Option.map_eq_some_iff.mp stepped
      have other : action ≠ .stop := fun same => unrequested (by rw [same])
      have kept := step_unreturned state.group action group ⟨holds.unstopped, holds.running⟩ other
        moved
      refine ⟨⟨kept.1, kept.2, ?_, holds.first⟩, by simp, by simp⟩
      exact step_length n state.group action group holds.length moved
  | stop =>
      cases stepped
      exact ⟨⟨holds.unstopped, holds.running, holds.length, holds.first⟩, by simp, by simp⟩
  | enter =>
      simp only [process] at stepped
      split at stepped
      · cases stepped
        refine ⟨⟨holds.unstopped, holds.running, holds.length, ?_⟩, by simp, by simp⟩
        intro next joining
        rcases programs with rfl | rfl
        · cases joining
          rfl
        · simp only [pooling] at joining
          split at joining <;> cases joining
          rfl
      · cases stepped
  | join =>
      simp only [process] at stepped
      split at stepped
      · next index _ =>
          split at stepped
          · next returned => exact absurd (List.mem_of_getElem? returned) holds.running
          · cases stepped
      · cases stepped
  | leave =>
      simp only [process] at stepped
      split at stepped
      · next all =>
          -- the group is not empty, so not all of it has been joined
          have none_left := holds.first _ all
          rw [holds.length] at none_left
          omega
      · cases stepped

/-- In every run in which `LoopThreadGroup::stop` is not called, and the code has
no call of it, `joinAll` does not get past its first thread: `~TcpServer` never
closes its socket, and `pooling` does not come back to its test of `stop_`. -/
theorem loops_never_joined {program : Program}
    (programs : program = eventLoopStop ∨ program = pooling) {n : Nat} (several : 0 < n)
    {actions : List Action} {final : Process}
    (ran : (process program).run (init n) actions = some final)
    (unrequested : .loop .stop ∉ actions) :
    .join ∉ actions ∧ .leave ∉ actions ∧ .returned ∉ final.group.phases := by
  have start : Unjoined n (init n) := by
    constructor
    · rfl
    · simp [init, Service.start]
    · simp [init, Service.start]
    · intro next joining
      cases joining
  generalize init n = state at ran start
  induction actions generalizing state with
  | nil =>
      cases ran
      exact ⟨List.not_mem_nil, List.not_mem_nil, start.running⟩
  | cons action rest ih =>
      rw [Machine.run_cons] at ran
      obtain ⟨next, stepped, later⟩ := Option.bind_eq_some_iff.mp ran
      have other : action ≠ .loop .stop := fun same => unrequested (by simp [same])
      obtain ⟨kept, join, leave⟩ := step_unjoined programs several start other stepped
      obtain ⟨joins, leaves, running⟩ :=
        ih (fun member => unrequested (List.mem_cons_of_mem _ member)) next later kept
      refine ⟨?_, ?_, running⟩
      · simp [joins, join.symm]
      · simp [leaves, leave.symm]

/-- `~TcpServer` while its loop handles an event and waits for the next. -/
def destroyed : List Action :=
  [Action.loop (.test 0), Action.enter, Action.loop (.arrive (0, [⟨5, Demultiplex.epollIn⟩])),
    Action.loop (.take 0), Action.loop (.advance 0), Action.loop (.test 0)]

theorem destroyed_never_joined : ∃ final,
    (process eventLoopStop).run (init 1) destroyed = some final ∧ final.owner = .joining 0 ∧
      .join ∉ destroyed ∧ .leave ∉ destroyed ∧ .returned ∉ final.group.phases := by
  obtain ⟨final, ran, joining⟩ := (process eventLoopStop).run_reaches
    (fun final => decide (final.owner = .joining 0)) (init 1) destroyed (by decide +kernel)
  exact ⟨final, ran, of_decide_eq_true joining,
    loops_never_joined (Or.inl rfl) Nat.one_pos ran (by decide +kernel)⟩

end Loops
end RProxy.Shutdown
