import RProxy.Flush
import RProxy.Pending

/-!
Hangups in the batches of `TcpServer::updateForWait`, over tables with any
pending output. The chain of conditions asks for WRITABLE before it asks for
CLOSABLE.
-/

namespace RProxy.Hangup

structure State (Publisher Subscriber : Type) where
  server : TcpServer
  center : PubSubCenter Publisher Subscriber

inductive Action where
  | register (fd : Fd) (peer : InetAddr)
  | send (fd : Fd) (data : Region) (wrote : Option Nat) (granted : Bool)
  | wait (resps : List Resp) (wrote : Fd → Option Nat)

variable {Publisher Subscriber : Type}

def start (center : PubSubCenter Publisher Subscriber) : State Publisher Subscriber :=
  ⟨⟨∅, 0, []⟩, center⟩

/-- The table after a `send`; a null pointer ends the process. -/
def sent (server : TcpServer) (fd : Fd) : Endpoint.Ended → Option TcpServer
  | .ok none next => some (server.store fd next.conn)
  | .ok (some ctx) next => ((server.store fd next.conn).updateForModify ctx).toOption
  | .error fault next => if fault = .undefined then none else some (server.store fd next.conn)

def serving : Machine (State Publisher Subscriber) Action where
  step state action :=
    match action with
    | .register fd peer =>
        let registered := state.server.updateForRegister state.center
          ⟨fd, Demultiplex.defaultEvents⟩ peer
        some ⟨registered.1, registered.2⟩
    | .send fd data wrote granted =>
        match state.server.connMap.lookup fd with
        | none => none
        | some conn =>
            (sent state.server fd (Endpoint.send ⟨conn, []⟩ data wrote granted)).map fun server =>
              { state with server := server }
    | .wait resps wrote =>
        (TcpServer.updateForWait wrote state.server resps).toOption.map fun waited =>
          { state with server := waited.1 }

/-- The clients with a CLOSABLE event are gone, and those without one are not. -/
structure RemovesClosed (server : TcpServer) (resps : List Resp) (next : TcpServer) : Prop where
  gone : ∀ resp ∈ resps, resp.isClosable = true → resp.fd ∉ next.connMap
  kept : ∀ fd ∈ server.connMap, (∀ resp ∈ resps, resp.fd = fd → resp.isClosable = false) →
    fd ∈ next.connMap

/-- A client with a CLOSABLE event has one that is not WRITABLE. -/
def Seen (server : TcpServer) (resps : List Resp) : Prop :=
  ∀ resp ∈ resps, resp.fd ∈ server.connMap → resp.isClosable = true →
    ∃ other ∈ resps, other.fd = resp.fd ∧ other.isClosable = true ∧ other.isWritable = false

theorem sent_muted {server next : TcpServer} (muted : server.AllMuted) {fd : Fd}
    {conn : TcpConnection} (found : server.connMap.lookup fd = some conn) {ended : Endpoint.Ended}
    (sends : Muted.Sends fd conn ended) (after : sent server fd ended = some next) :
    next.AllMuted := by
  cases ended with
  | ok modify endpoint =>
      cases modify with
      | none =>
          cases after
          exact TcpServer.store_muted muted sends
      | some ctx =>
          obtain ⟨rfl, attached, context⟩ := sends
          obtain ⟨server', modified, allMuted⟩ :=
            TcpServer.modify_muted muted found attached context
          rw [sent, modified] at after
          cases after
          exact allMuted
  | error fault endpoint =>
      rw [sent] at after
      split at after
      · cases after
      · cases after
        have same : endpoint.conn = conn := sends
        rw [same]
        exact TcpServer.store_muted muted (muted fd conn found)

theorem step_muted (state : State Publisher Subscriber) (action : Action)
    (next : State Publisher Subscriber) (muted : state.server.AllMuted)
    (stepped : serving.step state action = some next) : next.server.AllMuted := by
  cases action with
  | register fd peer =>
      cases stepped
      exact TcpServer.register_muted muted state.center fd peer
  | send fd data wrote granted =>
      cases found : state.server.connMap.lookup fd with
      | none =>
          simp only [serving, found] at stepped
          cases stepped
      | some conn =>
          simp only [serving, found] at stepped
          obtain ⟨server, after, rfl⟩ := Option.map_eq_some_iff.mp stepped
          exact sent_muted muted found ((muted fd conn found).send data wrote granted) after
  | wait resps wrote =>
      obtain ⟨server, sockes, returned, swept⟩ :=
        TcpServer.update_for_wait_calm wrote state.server muted.calm resps
      simp only [serving, returned] at stepped
      cases stepped
      exact TcpServer.swept_keeps muted swept

theorem start_muted (center : PubSubCenter Publisher Subscriber) : (start center).server.AllMuted := by
  intro fd conn found
  cases found

theorem seen_iff_removed (server : TcpServer) (resps : List Resp) :
    Seen server resps ↔ ∀ resp ∈ resps, resp.fd ∈ server.connMap → resp.isClosable = true →
      TcpServer.Removed resps resp.fd := by
  simp only [Seen, TcpServer.Removed, Resp.removes, Bool.and_eq_true, Bool.not_eq_true']

/-- The table after a batch has lost exactly the clients with a hangup, where no
hangup is hidden behind WRITABLE. -/
theorem swept_removes_iff {server next : TcpServer} {resps : List Resp} {sockes : List Fd}
    (swept : TcpServer.Swept server resps next sockes) :
    RemovesClosed server resps next ↔ Seen server resps := by
  have mem : ∀ fd, fd ∈ next.connMap ↔ fd ∈ server.connMap ∧ ¬ TcpServer.Removed resps fd := by
    intro fd
    rw [← AList.lookup_isSome, swept.lookup, ← AList.lookup_isSome]
    by_cases removed : TcpServer.Removed resps fd <;> simp [removed]
  rw [seen_iff_removed]
  constructor
  · intro removes resp listed present closes
    by_contra stays
    exact removes.gone resp listed closes ((mem resp.fd).mpr ⟨present, stays⟩)
  · intro seen
    constructor
    · intro resp listed closes member
      obtain ⟨present, stays⟩ := (mem resp.fd).mp member
      exact stays (seen resp listed present closes)
    · intro fd present silent
      rw [mem]
      refine ⟨present, ?_⟩
      rintro ⟨resp, listed, names, removes⟩
      rw [Resp.removes, Bool.and_eq_true, silent resp listed names] at removes
      cases removes.1

/-- In every reachable table, a batch removes the clients that have hung up
exactly where each has an event with CLOSABLE and without WRITABLE. -/
theorem closed_removed_iff (center : PubSubCenter Publisher Subscriber) (actions : List Action)
    (state : State Publisher Subscriber)
    (ran : serving.run (start center) actions = some state) (resps : List Resp)
    (wrote : Fd → Option Nat) :
    (∃ next sockes, TcpServer.updateForWait wrote state.server resps = .ok (next, sockes) ∧
        RemovesClosed state.server resps next) ↔ Seen state.server resps := by
  have muted := serving.run_preserves (fun state => state.server.AllMuted) step_muted
    (start_muted center) ran
  obtain ⟨server, sockes, returned, swept⟩ :=
    TcpServer.update_for_wait_calm wrote state.server muted.calm resps
  rw [← swept_removes_iff swept, returned]
  constructor
  · rintro ⟨next, others, same, removes⟩
    cases same
    exact removes
  · intro removes
    exact ⟨server, sockes, rfl, removes⟩

def noCenter : PubSubCenter Unit Unit := ⟨∅, ∅, ∅⟩

def hungUp : Resp := ⟨5, Demultiplex.epollHup ||| Demultiplex.epollIn⟩

/-- Without pending output, EPOLLHUP closes the connection. -/
theorem readable_hangup_removed : ∃ state next sockes,
    serving.run (start noCenter) [.register 5 ⟨[], 1⟩, .register 6 ⟨[], 2⟩] = some state ∧
      TcpServer.updateForWait (fun _ => none) state.server [hungUp] = .ok (next, sockes) ∧
        RemovesClosed state.server [hungUp] next := by
  obtain ⟨state, ran, -⟩ := serving.run_reaches (fun _ => true) (start noCenter)
    [.register 5 ⟨[], 1⟩, .register 6 ⟨[], 2⟩] rfl
  have seen : Seen state.server [hungUp] := by
    intro resp listed _ _
    rw [List.mem_singleton] at listed
    subst listed
    exact ⟨hungUp, List.mem_singleton_self hungUp, rfl, by decide, by decide⟩
  obtain ⟨next, sockes, returned, removes⟩ :=
    (closed_removed_iff noCenter _ state ran [hungUp] fun _ => none).mpr seen
  exact ⟨state, next, sockes, ran, returned, removes⟩

theorem modify_kept {server next : TcpServer} {ctx : DmpModifyContext}
    (modified : server.updateForModify ctx = .ok next) (fd : Fd) :
    fd ∈ next.connMap ↔ fd ∈ server.connMap := by
  unfold TcpServer.updateForModify at modified
  split at modified
  · cases modified
    exact Iff.rfl
  · split at modified
    · cases modified
    · split at modified
      · cases modified
        exact Iff.rfl
      · cases modified
        exact UnorderedMap.mem_modify _ _ _ _

theorem send_step (state : State Publisher Subscriber) {fd : Fd} {conn : TcpConnection}
    {data : Region} {wrote : Option Nat} {granted : Bool} {server : TcpServer}
    (found : state.server.connMap.lookup fd = some conn)
    (after : sent state.server fd (Endpoint.send ⟨conn, []⟩ data wrote granted) = some server) :
    serving.step state (.send fd data wrote granted) = some { state with server := server } := by
  simp only [serving, found, after, Option.map_some]

/-- A client that has registered stays in the table while it asks for WRITABLE. -/
theorem pending_reached (data : Region) (more : 0 < data.1.length) :
    ∃ state, serving.run (start noCenter) [.register 5 ⟨[], 1⟩, .send 5 data none true] =
      some state ∧ 5 ∈ state.server.connMap := by
  let conn : TcpConnection := .new ⟨false, 5⟩ (.dmpRegister ⟨5, Demultiplex.defaultEvents⟩) ⟨[], 1⟩
  let server : TcpServer := ⟨UnorderedMap.emplace ∅ 5 conn, 1, []⟩
  have muted : server.AllMuted :=
    TcpServer.register_muted (start_muted noCenter) noCenter 5 ⟨[], 1⟩
  have found : server.connMap.lookup 5 = some conn := rfl
  have fresh : Flush.Fresh 5 conn := ⟨rfl, rfl, rfl, rfl⟩
  obtain ⟨after, asked, -, -, -⟩ := Flush.send_pending fresh data none true more (Or.inl rfl)
  have sends := (muted 5 conn found).send data none true
  rw [asked] at sends
  obtain ⟨-, attached, context⟩ := sends
  obtain ⟨next, modified, -⟩ := TcpServer.modify_muted muted found attached context
  let center := noCenter.account (InetAddr.toString ⟨[], 1⟩) 0
  refine ⟨⟨next, center⟩, ?_, ?_⟩
  · have registered : serving.step (start noCenter) (.register 5 ⟨[], 1⟩) =
        some ⟨server, center⟩ := rfl
    have stored : sent server 5 (Endpoint.send ⟨conn, []⟩ data none true) = some next := by
      rw [asked, sent, modified]
      rfl
    have step := send_step ⟨server, center⟩ found stored
    rw [Machine.run_cons, registered, Option.bind_some, Machine.run_cons, step, Option.bind_some,
      Machine.run_nil]
  · rw [modify_kept modified]
    exact (UnorderedMap.mem_modify _ _ _ _).mpr (UnorderedMap.mem_of_lookup found)

/-- The peer resets a connection that waits for WRITABLE: its entry stays. -/
theorem writable_hangup_kept : ¬ ∀ actions (state : State Unit Unit),
    serving.run (start noCenter) actions = some state → ∀ resps wrote,
      ∃ next sockes, TcpServer.updateForWait wrote state.server resps = .ok (next, sockes) ∧
        RemovesClosed state.server resps next := by
  intro claim
  let reset : Resp := ⟨5, Demultiplex.epollHup ||| Demultiplex.epollOut⟩
  obtain ⟨state, ran, present⟩ := pending_reached ⟨[1], by decide⟩ (by decide)
  have muted := serving.run_preserves (fun state => state.server.AllMuted) step_muted
    (start_muted noCenter) ran
  obtain ⟨next, sockes, returned, removes⟩ := claim _ state ran [reset] fun _ => none
  obtain ⟨server, _, other, swept⟩ :=
    TcpServer.update_for_wait_calm (fun _ => none) state.server muted.calm [reset]
  rw [returned] at other
  cases other
  obtain ⟨resp, listed, -, -, silent⟩ := (swept_removes_iff swept).mp removes reset
    (List.mem_singleton_self reset) present (by decide)
  rw [List.mem_singleton] at listed
  rw [listed] at silent
  exact absurd silent (by decide)

end RProxy.Hangup
