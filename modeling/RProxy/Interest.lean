import RProxy.Flush

/-!
The mask that `epoll` watches each client with. `enableWrite` adds WRITABLE to
the events of the context that `send` has just made, which has none, and
`demultiplexModify` installs that mask as a whole.
-/

namespace RProxy.Flush

variable {Publisher Subscriber : Type}

/-- Each connected client is watched for data and for the end of its stream. -/
def Listening (state : State Publisher Subscriber) : Prop :=
  ∀ fd conn, state.server.connMap.lookup fd = some conn → conn.state = .connected →
    ∃ events, state.interest.lookup fd = some events ∧
      Demultiplex.has events Demultiplex.readable = true ∧
      Demultiplex.has events Demultiplex.epollRdHup = true

/-- A mask in force is kept, or WRITABLE is added to it. -/
def AddsOnly (state : State Publisher Subscriber) (action : Action) : Prop :=
  ∀ next, flushing.step state action = some next → ∀ fd events,
    state.interest.lookup fd = some events →
      next.interest.lookup fd = some events ∨
        next.interest.lookup fd = some (events ||| Demultiplex.writable)

/-- The clients of the table are watched with the mask they were registered with. -/
structure Watched (state : State Publisher Subscriber) : Prop where
  idle : Idle state
  events : ∀ fd, state.interest.lookup fd =
    if fd ∈ state.server.connMap then some Demultiplex.defaultEvents else none

theorem mem_store (state : State Publisher Subscriber) (fd other : Fd) (conn : TcpConnection) :
    other ∈ (state.store fd conn).server.connMap ↔ other ∈ state.server.connMap :=
  UnorderedMap.mem_modify _ _ _ _

theorem start_watched (center : PubSubCenter Publisher Subscriber) : Watched (start center) := by
  constructor
  · exact start_idle center
  · intro fd
    simp [start]

theorem register_watched {state : State Publisher Subscriber} (watched : Watched state) {fd : Fd}
    (peer : InetAddr) (absent : fd ∉ state.server.connMap) :
    Watched (state.demultiplexRegister fd peer) := by
  have fresh : state.interest.lookup fd = none := by rw [watched.events, if_neg absent]
  constructor
  · exact register_idle state watched.idle fd peer absent
  · intro other
    simp only [State.demultiplexRegister, TcpServer.updateForRegister, if_neg absent,
      UnorderedMap.mem_emplace, UnorderedMap.lookup_emplace_fresh fresh, watched.events]
    by_cases same : other = fd <;> simp [same]

theorem store_watched {state : State Publisher Subscriber} (watched : Watched state) {fd : Fd}
    {conn : TcpConnection} (found : state.server.connMap.lookup fd = some conn) :
    Watched (state.store fd conn) := by
  constructor
  · exact store_same_idle state watched.idle fd conn found
  · intro other
    simp only [mem_store]
    exact watched.events other

theorem step_watched (state : State Publisher Subscriber) (action : Action)
    (next : State Publisher Subscriber) (watched : Watched state) (taken : Taken state action)
    (stepped : flushing.step state action = some next) : Watched next := by
  cases action with
  | register fd peer =>
      obtain ⟨absent, rfl⟩ := register_cases watched.idle stepped
      exact register_watched watched peer absent
  | send fd data wrote granted =>
      obtain ⟨stored, found, ⟨_, rfl⟩ | ⟨notTaken, _⟩⟩ := send_cases watched.idle stepped
      · exact store_watched watched found
      · exact absurd taken notTaken

theorem watched_listening (state : State Publisher Subscriber) (watched : Watched state) :
    Listening state := by
  intro fd conn found _
  have present := UnorderedMap.mem_of_lookup found
  refine ⟨Demultiplex.defaultEvents, ?_, Demultiplex.default_has_readable,
    Demultiplex.default_has_rd_hup⟩
  rw [watched.events, if_pos present]

/-- A client that stays in the table keeps its mask. -/
theorem watched_adds_only (state : State Publisher Subscriber) (action : Action)
    (watched : Watched state) (taken : Taken state action) : AddsOnly state action := by
  intro next stepped fd events inForce
  have after := step_watched state action next watched taken stepped
  rw [watched.events] at inForce
  split at inForce
  · next present =>
      cases inForce
      left
      rw [after.events, if_pos]
      cases action with
      | register added peer =>
          obtain ⟨absent, rfl⟩ := register_cases watched.idle stepped
          simp only [State.demultiplexRegister, TcpServer.updateForRegister, if_neg absent,
            UnorderedMap.mem_emplace]
          exact Or.inr present
      | send sender data wrote granted =>
          obtain ⟨stored, found, ⟨_, rfl⟩ | ⟨notTaken, _⟩⟩ := send_cases watched.idle stepped
          · exact (mem_store state sender fd stored).mpr present
          · exact absurd taken notTaken
  · cases inForce

/-- With WRITABLE alone in force, no data and no hangup is reported any more. -/
theorem asked_deaf {state : State Publisher Subscriber} {fd : Fd} {conn stored : TcpConnection}
    (found : state.server.connMap.lookup fd = some stored) (connected : conn.state = .connected)
    (registered : conn.context = .dmpRegister ⟨fd, Demultiplex.defaultEvents⟩) :
    ¬ Listening ((state.store fd conn).demultiplexModify ⟨fd, Demultiplex.writable⟩) := by
  intro listening
  obtain ⟨modified, inForce⟩ := asked_lookup found registered
  obtain ⟨events, installed, readable, -⟩ := listening fd _ modified connected
  rw [inForce, Option.map_eq_some_iff] at installed
  obtain ⟨_, _, rfl⟩ := installed
  rw [Demultiplex.writable_not_readable] at readable
  cases readable

theorem taken_of_listening (state : State Publisher Subscriber) (action : Action)
    (next : State Publisher Subscriber) (watched : Watched state)
    (stepped : flushing.step state action = some next) (listening : Listening next) :
    Taken state action := by
  cases action with
  | register fd peer => trivial
  | send fd data wrote granted =>
      obtain ⟨stored, found, ⟨taken, _⟩ | ⟨_, conn, _, connected, registered, rfl⟩⟩ :=
        send_cases watched.idle stepped
      · exact taken
      · exact absurd listening (asked_deaf found connected registered)

/-- The clients stay watched exactly as long as no `send` has to ask for WRITABLE. -/
theorem listening_iff (center : PubSubCenter Publisher Subscriber) (actions : List Action) :
    flushing.Always Listening (start center) actions ∧
        flushing.Meets AddsOnly (start center) actions ↔
      flushing.Meets Taken (start center) actions :=
  flushing.always_and_meets_iff step_watched watched_listening watched_adds_only
    (fun state action next watched stepped listening _ =>
      taken_of_listening state action next watched stepped listening)
    (fun state action watched => taken_of_refused state action watched.idle)
    (start_watched center) actions

/-- After a partial write the client is watched for WRITABLE only. -/
theorem partial_write_deaf : ¬ ∀ (center : PubSubCenter Unit Unit) actions,
    flushing.Always Listening (start center) actions := by
  intro claim
  let center : PubSubCenter Unit Unit := ⟨∅, ∅, ∅⟩
  let data : Region := ⟨[1, 2], by decide⟩
  have watched : Watched (joined center) :=
    register_watched (start_watched center) _ (by simp [start])
  have needed := fun next => taken_of_listening (joined center) (.send 5 data (some 1) true) next
    watched
  exact left_not_always center (by decide) needed (claim _ _)

end RProxy.Flush
