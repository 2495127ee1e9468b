import RProxy.LoadBalancer
import RProxy.Machine
import RProxy.TcpServer

/-!
From DMPWAIT batches to forward contexts: `TcpServer::updateForWait` of any
number of sub-reactors, the BALANCE notification, the shared queue and the one
thread in `loadbalance()`. A handler is one step; the emptiness test, the
section under the lock and the emission of `loadbalance()` are one step each.
-/

namespace RProxy.Dispatch

/-- The objects that subscribe to one another. -/
inductive Party where
  | tcpServer | loadBalancer | proxyServer
  deriving DecidableEq

/-- Where the thread in `loadbalance()` stands. -/
inductive Phase where
  | testing
  | popping
  | balancing (batch : List Fd)

def Phase.inHand : Phase → List (List Fd)
  | .balancing batch => [batch]
  | _ => []

/-- `handled`, `pushed` and `emitted` are history: what each DMPWAIT batch was
to dispatch, the BALANCE batches queued, and the contexts handed to FORWARD. -/
structure Pipeline where
  center : PubSubCenter Party Party
  serverID : UInt16
  loaderID : UInt16
  server : TcpServer
  loader : LoadBalancer
  phase : Phase
  fault : Option Fault
  handled : List (List Fd)
  pushed : List (List Fd)
  emitted : List (UnorderedMap Fd InetAddr)

/-- The batches that one BALANCE context makes its subscribers queue. The first
`updateForLoadbalance` moves the sockets out of the context. -/
def publish : List Party → List Fd → List (List Fd)
  | [], _ => []
  | .loadBalancer :: rest, sockes => sockes :: publish rest []
  | .tcpServer :: rest, sockes => publish rest sockes
  | .proxyServer :: rest, sockes => publish rest sockes

/-- Each event of a batch with the server as it is when the event is reached. -/
def reached (wrote : Fd → Option Nat) : TcpServer → List Resp → List (TcpServer × Resp)
  | _, [] => []
  | server, resp :: rest => (server, resp) ::
      match server.handleResp wrote resp with
      | .ok (next, _) => reached wrote next rest
      | .error _ => []

/-- In event order, the descriptors that are in `conn_map_` when reached and
whose event is READABLE and not CLOSABLE. -/
def dispatchable (wrote : Fd → Option Nat) (server : TcpServer) (resps : List Resp) : List Fd :=
  ((reached wrote server resps).filter fun entry =>
    decide (entry.2.fd ∈ entry.1.connMap) && entry.2.isReadable && !entry.2.isClosable).map
      fun entry => entry.2.fd

inductive Action where
  | register (fd : Fd) (peer : InetAddr)
  | wait (resps : List Resp) (wrote : Fd → Option Nat)
  | addBackend (addr : InetAddr) (checkPort : UInt16)
  | removeBackend (addr : InetAddr)
  | test
  | pop
  | emit

def register (state : Pipeline) (fd : Fd) (peer : InetAddr) : Option Pipeline :=
  if fd ∈ state.server.connMap then none
  else
    let registered := state.server.updateForRegister state.center
      ⟨fd, Demultiplex.defaultEvents⟩ peer
    some { state with server := registered.1, center := registered.2 }

def wait (state : Pipeline) (resps : List Resp) (wrote : Fd → Option Nat) : Pipeline :=
  match TcpServer.updateForWait wrote state.server resps with
  | .error fault => { state with fault := some fault }
  | .ok (server, sockes) =>
      let told := state.center.notifySubscriber state.serverID .balance
      let batches := publish told.1 sockes
      { state with
        server := server
        center := told.2
        loader := batches.foldl LoadBalancer.updateForLoadbalance state.loader
        handled := state.handled ++ [dispatchable wrote state.server resps]
        pushed := state.pushed ++ batches }

def test (state : Pipeline) : Option Pipeline :=
  match state.phase with
  | .testing =>
      some { state with phase := if state.loader.sockQueue.isEmpty then .testing else .popping }
  | _ => none

def pop (state : Pipeline) : Option Pipeline :=
  match state.phase with
  | .popping =>
      match state.loader.popFront with
      -- `front()` of an empty queue
      | none => some { state with fault := some .undefined }
      | some (batch, loader) => some { state with loader := loader, phase := .balancing batch }
  | _ => none

def emit (state : Pipeline) : Option Pipeline :=
  match state.phase with
  | .balancing batch =>
      match state.loader.balancing batch with
      -- `iter` is at the end of an empty table
      | none => some { state with fault := some .undefined }
      | some sockMap => some { state with
          center := (state.center.notifySubscriber state.loaderID .forward).2
          phase := .testing
          emitted := state.emitted ++ [sockMap] }
  | _ => none

/-- The backend table may change, but the last backend stays. -/
def pipeline : Machine Pipeline Action where
  step state
    | .register fd peer => register state fd peer
    | .wait resps wrote => some (wait state resps wrote)
    | .addBackend addr checkPort =>
        some { state with loader := state.loader.addBackend addr checkPort }
    | .removeBackend addr =>
        let loader := state.loader.removeBackend addr
        if loader.backend.entries.isEmpty then none else some { state with loader := loader }
    | .test => test state
    | .pop => pop state
    | .emit => emit state

/-- The assumptions: the load balancer is subscribed to BALANCE events, there is
a backend, and nothing has been dispatched yet. -/
structure Start (state : Pipeline) : Prop where
  subscribed : .loadBalancer ∈ (state.center.notifySubscriber state.serverID .balance).1
  backend : state.loader.backend.entries ≠ []
  quiet : state.server.Quiet
  queue : state.loader.sockQueue = []
  phase : state.phase = .testing
  fault : state.fault = none
  handled : state.handled = []
  pushed : state.pushed = []
  emitted : state.emitted = []

def SameKeys (sockMap : UnorderedMap Fd InetAddr) (batch : List Fd) : Prop :=
  ∀ fd, fd ∈ sockMap ↔ fd ∈ batch

structure Invariant (state : Pipeline) : Prop where
  subscribed : .loadBalancer ∈ (state.center.notifySubscriber state.serverID .balance).1
  backend : state.loader.backend.entries ≠ []
  quiet : state.server.Quiet
  fault : state.fault = none
  handled : state.pushed = state.handled
  seen : ∀ _ : state.phase = .popping, state.loader.sockQueue ≠ []
  queued : ∃ done, state.pushed = done ++ (state.phase.inHand ++ state.loader.sockQueue) ∧
    List.Forall₂ SameKeys state.emitted done

theorem publish_absent (parties : List Party) (sockes : List Fd)
    (absent : .loadBalancer ∉ parties) : publish parties sockes = [] := by
  induction parties with
  | nil => rfl
  | cons party rest ih =>
      simp only [List.mem_cons, not_or] at absent
      cases party with
      | loadBalancer => exact absurd rfl absent.1
      | tcpServer => exact ih absent.2
      | proxyServer => exact ih absent.2

/-- A set of subscribers with the load balancer in it queues one batch. -/
theorem publish_once (parties : List Party) (sockes : List Fd) (unique : parties.Nodup)
    (member : .loadBalancer ∈ parties) : publish parties sockes = [sockes] := by
  induction parties with
  | nil => cases member
  | cons party rest ih =>
      obtain ⟨fresh, tail⟩ := List.nodup_cons.mp unique
      cases party with
      | loadBalancer => simp [publish, publish_absent rest [] fresh]
      | tcpServer => exact ih tail (by simpa using member)
      | proxyServer => exact ih tail (by simpa using member)

theorem notified_nodup (center : PubSubCenter Party Party) (pubID : UInt16) (type : PubType) :
    (center.notifySubscriber pubID type).1.Nodup := by
  unfold PubSubCenter.notifySubscriber
  split
  · exact AList.keys_nodup _
  · exact List.nodup_nil

/-- The handler's batch is the specification of its DMPWAIT batch. -/
theorem sockes_dispatchable (wrote : Fd → Option Nat) (server next : TcpServer)
    (resps : List Resp) (sockes : List Fd) (quiet : server.Quiet)
    (returned : TcpServer.updateForWait wrote server resps = .ok (next, sockes)) :
    sockes = dispatchable wrote server resps := by
  induction resps generalizing server sockes with
  | nil => cases returned; rfl
  | cons resp rest ih =>
      obtain ⟨middle, picked, first, handled⟩ :=
        TcpServer.handle_resp_calm server quiet.calm wrote resp
      have middleQuiet : middle.Quiet := TcpServer.handled_keeps quiet handled
      obtain ⟨final, more, later, _, _⟩ :=
        TcpServer.update_for_wait_quiet wrote middle middleQuiet rest
      simp only [TcpServer.updateForWait, first, later, Except.ok.injEq, Prod.mk.injEq] at returned
      obtain ⟨rfl, rfl⟩ := returned
      rw [ih middle more middleQuiet later, handled.picked]
      simp only [dispatchable, reached, first, List.filter_cons, Resp.passes, Bool.and_eq_true,
        decide_eq_true_eq, ← and_assoc]
      split <;> simp

theorem register_keeps {state next : Pipeline} {fd : Fd} {peer : InetAddr}
    (holds : Invariant state) (stepped : register state fd peer = some next) : Invariant next := by
  simp only [register] at stepped
  split at stepped
  · cases stepped
  · next fresh =>
      cases stepped
      refine ⟨?_, holds.backend, ?_, holds.fault, holds.handled, holds.seen, holds.queued⟩
      · simp only [TcpServer.updateForRegister, fresh, ↓reduceIte, PubSubCenter.notify_account]
        exact holds.subscribed
      intro other conn found
      simp only [TcpServer.updateForRegister, fresh, ↓reduceIte] at found
      rw [UnorderedMap.lookup_emplace_fresh (AList.lookup_eq_none.mpr fresh)] at found
      split at found
      · next same =>
          cases found
          subst same
          exact ⟨rfl, rfl, ArrayBuffer.new_readable _⟩
      · exact holds.quiet other conn found

theorem wait_keeps {state : Pipeline} (resps : List Resp) (wrote : Fd → Option Nat)
    (holds : Invariant state) : Invariant (wait state resps wrote) := by
  obtain ⟨server, sockes, returned, quiet, _⟩ :=
    TcpServer.update_for_wait_quiet wrote state.server holds.quiet resps
  have batch := sockes_dispatchable wrote state.server server resps sockes holds.quiet returned
  have once := publish_once _ sockes (notified_nodup state.center state.serverID .balance)
    holds.subscribed
  simp only [wait, returned, once, List.foldl_cons, List.foldl_nil]
  refine ⟨?_, holds.backend, quiet, holds.fault, ?_, ?_, ?_⟩
  · show _ ∈ ((state.center.notifySubscriber state.serverID .balance).2.notifySubscriber
      state.serverID .balance).1
    rw [PubSubCenter.notify_keeps]
    exact holds.subscribed
  · show state.pushed ++ [sockes] = state.handled ++ [dispatchable wrote state.server resps]
    rw [holds.handled, batch]
  · intro _
    simp [LoadBalancer.updateForLoadbalance]
  · obtain ⟨done, pushed, same⟩ := holds.queued
    refine ⟨done, ?_, same⟩
    simp only [LoadBalancer.updateForLoadbalance, pushed, List.append_assoc]

theorem test_keeps {state next : Pipeline} (holds : Invariant state)
    (stepped : test state = some next) : Invariant next := by
  simp only [test] at stepped
  split at stepped
  · next phase =>
      cases stepped
      have hand : state.phase.inHand = [] := by rw [phase]; rfl
      refine ⟨holds.subscribed, holds.backend, holds.quiet, holds.fault, holds.handled, ?_, ?_⟩
      · intro popping empty
        have queue : state.loader.sockQueue = [] := empty
        simp [queue] at popping
      · obtain ⟨done, pushed, same⟩ := holds.queued
        refine ⟨done, ?_, same⟩
        rw [hand] at pushed
        rw [pushed]
        split <;> rfl
  · cases stepped

theorem pop_keeps {state next : Pipeline} (holds : Invariant state)
    (stepped : pop state = some next) : Invariant next := by
  simp only [pop] at stepped
  split at stepped
  · next phase =>
      obtain ⟨done, pushed, same⟩ := holds.queued
      -- only this thread pops, so a queue that was not empty still is not
      cases queue : state.loader.sockQueue with
      | nil => exact absurd queue (holds.seen phase)
      | cons batch rest =>
          simp only [LoadBalancer.popFront, queue] at stepped
          cases stepped
          refine ⟨holds.subscribed, holds.backend, holds.quiet, holds.fault, holds.handled,
            (fun wrong => by cases wrong), done, ?_, same⟩
          simpa [phase, queue, Phase.inHand] using pushed
  · cases stepped

theorem emit_keeps {state next : Pipeline} (holds : Invariant state)
    (stepped : emit state = some next) : Invariant next := by
  simp only [emit] at stepped
  split at stepped
  · next batch phase =>
      obtain ⟨sockMap, assigned, keys⟩ := state.loader.balancing_keys holds.backend batch
      rw [assigned] at stepped
      cases stepped
      obtain ⟨done, pushed, same⟩ := holds.queued
      refine ⟨?_, holds.backend, holds.quiet, holds.fault, holds.handled,
        (fun wrong => by cases wrong), done ++ [batch], ?_, ?_⟩
      · show _ ∈ ((state.center.notifySubscriber state.loaderID .forward).2.notifySubscriber
          state.serverID .balance).1
        rw [PubSubCenter.notify_keeps]
        exact holds.subscribed
      · simpa [phase, Phase.inHand] using pushed
      -- the batch in hand becomes the last one that is done
      · exact List.rel_append same (.cons keys .nil)
  · cases stepped

theorem add_backend_nonempty (loader : LoadBalancer) (addr : InetAddr) (checkPort : UInt16)
    (nonempty : loader.backend.entries ≠ []) :
    (loader.addBackend addr checkPort).backend.entries ≠ [] := by
  simp only [LoadBalancer.addBackend, UnorderedMap.emplace]
  split
  · exact nonempty
  · simp

theorem step_keeps (state : Pipeline) (action : Action) (next : Pipeline)
    (holds : Invariant state) (stepped : pipeline.step state action = some next) :
    Invariant next := by
  cases action with
  | register fd peer => exact register_keeps holds stepped
  | wait resps wrote =>
      cases stepped
      exact wait_keeps resps wrote holds
  | addBackend addr checkPort =>
      cases stepped
      exact ⟨holds.subscribed, add_backend_nonempty _ addr checkPort holds.backend, holds.quiet,
        holds.fault, holds.handled, holds.seen, holds.queued⟩
  | removeBackend addr =>
      simp only [pipeline] at stepped
      split at stepped
      · cases stepped
      · next nonempty =>
          cases stepped
          exact ⟨holds.subscribed, by simpa using nonempty, holds.quiet, holds.fault,
            holds.handled, holds.seen, holds.queued⟩
  | test => exact test_keeps holds stepped
  | pop => exact pop_keeps holds stepped
  | emit => exact emit_keeps holds stepped

theorem start_invariant {state : Pipeline} (start : Start state) : Invariant state where
  subscribed := start.subscribed
  backend := start.backend
  quiet := start.quiet
  fault := start.fault
  handled := by rw [start.pushed, start.handled]
  seen popping := by rw [start.phase] at popping; cases popping
  queued := ⟨[], by simp [start.pushed, start.phase, start.queue, Phase.inHand],
    by rw [start.emitted]; exact .nil⟩

/-- Exactly once and in order, after any interleaving: the BALANCE batches are
those of the DMPWAIT batches, the contexts emitted have the keys of the first
of them, and the others are in hand or queued. -/
structure Dispatched (state : Pipeline) : Prop where
  fault : state.fault = none
  batches : state.pushed = state.handled
  emitted : List.Forall₂ SameKeys state.emitted (state.pushed.take state.emitted.length)
  pending : state.pushed.drop state.emitted.length =
    state.phase.inHand ++ state.loader.sockQueue

theorem every_batch_dispatched_once (start final : Pipeline) (actions : List Action)
    (ready : Start start) (ran : pipeline.run start actions = some final) : Dispatched final := by
  have holds := pipeline.run_preserves Invariant step_keeps (start_invariant ready) ran
  obtain ⟨done, pushed, same⟩ := holds.queued
  have count : final.emitted.length = done.length := same.length_eq
  refine ⟨holds.fault, holds.handled, ?_, ?_⟩
  · rw [pushed, count, List.take_left]
    exact same
  · rw [pushed, count, List.drop_left]

/-- One backend, an empty table, and the load balancer subscribed to server 3. -/
def oneBackend : Pipeline where
  center := ⟨AList.singleton 3 .tcpServer,
    AList.singleton 3 (AList.singleton .balance (AList.singleton .loadBalancer ())), ∅⟩
  serverID := 3
  loaderID := 0
  server := ⟨∅, 0, []⟩
  loader := ⟨AList.singleton ['a'] ⟨['a'], 80⟩, ∅, [], [], []⟩
  phase := .testing
  fault := none
  handled := []
  pushed := []
  emitted := []

/-- A readable client, and a batch of its CLOSABLE event while the first batch
is still queued. -/
def readThenClosed : List Action :=
  [.register 5 ⟨['c'], 1⟩, .wait [⟨5, Demultiplex.readable⟩] fun _ => none, .test,
    .wait [⟨5, Demultiplex.readable ||| Demultiplex.epollRdHup⟩] fun _ => none, .pop, .emit]

theorem read_then_closed_dispatched_once :
    ∃ final, pipeline.run oneBackend readThenClosed = some final ∧ Dispatched final ∧
      final.pushed = [[5], []] ∧ final.emitted.map AList.keys = [[5]] := by
  refine ⟨_, rfl, every_batch_dispatched_once oneBackend _ readThenClosed ?_ rfl,
    by decide, by decide⟩
  exact ⟨by decide, by decide, (fun fd conn found => by cases found), rfl, rfl, rfl, rfl, rfl, rfl⟩

end RProxy.Dispatch
