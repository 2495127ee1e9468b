import RProxy.Outgoing

/-!
Pending output and the event mask. `send` asks for WRITABLE with a context of
its own, `TcpServer::updateForModify` copies the events of that context into the
connection, and `sendInLoop` then looks there for READABLE.
-/

namespace RProxy.Flush

/-- A fault is a null pointer, which ends the process. -/
structure State (Publisher Subscriber : Type) where
  server : TcpServer
  center : PubSubCenter Publisher Subscriber
  interest : UnorderedMap Fd Mask
  fault : Option Fault

inductive Action where
  | register (fd : Fd) (peer : InetAddr)
  | send (fd : Fd) (data : Region) (wrote : Option Nat) (granted : Bool)

variable {Publisher Subscriber : Type}

def start (center : PubSubCenter Publisher Subscriber) : State Publisher Subscriber :=
  ⟨⟨∅, 0, []⟩, center, ∅, none⟩

namespace State

variable (state : State Publisher Subscriber)

/-- `demultiplexRegister`: the notification, and then `epoll_ctl`. -/
def demultiplexRegister (fd : Fd) (peer : InetAddr) : State Publisher Subscriber :=
  let registered := state.server.updateForRegister state.center
    ⟨fd, Demultiplex.defaultEvents⟩ peer
  { state with
    server := registered.1
    center := registered.2
    interest := state.interest.emplace fd Demultiplex.defaultEvents }

def demultiplexModify (ctx : DmpModifyContext) : State Publisher Subscriber :=
  match state.server.updateForModify ctx with
  | .error fault => { state with fault := some fault }
  | .ok server =>
      { state with
        server := server
        interest := state.interest.modify ctx.fd fun _ => ctx.events }

def store (fd : Fd) (conn : TcpConnection) : State Publisher Subscriber :=
  { state with
    server := { state.server with connMap := state.server.connMap.modify fd fun _ => conn } }

def sent (fd : Fd) : Endpoint.Ended → State Publisher Subscriber
  | .ok none next => state.store fd next.conn
  | .ok (some ctx) next => (state.store fd next.conn).demultiplexModify ctx
  | .error fault next =>
      { state.store fd next.conn with fault := if fault = .undefined then some fault else none }

end State

/-- A descriptor is registered once, and only a connection of the table sends. -/
def flushing : Machine (State Publisher Subscriber) Action where
  step state action :=
    if state.fault.isSome then none
    else
      match action with
      | .register fd peer =>
          if fd ∈ state.server.connMap then none else some (state.demultiplexRegister fd peer)
      | .send fd data wrote granted =>
          match state.server.connMap.lookup fd with
          | none => none
          | some conn => some (state.sent fd (Endpoint.send ⟨conn, []⟩ data wrote granted))

/-- The writes that the loop body of `updateForWait` makes for an event. -/
def writesFor (conn : TcpConnection) (resp : Resp) (wrote : Option Nat) : List WriteCall :=
  if resp.isReadable && !resp.isClosable then []
  else if resp.isWritable then
    match Endpoint.sendInLoop ⟨conn, []⟩ wrote with
    | .ok _ next | .error _ next => next.writes
  else []

/-- Pending bytes are waited for, and a WRITABLE event writes all of them. -/
def Flushable (state : State Publisher Subscriber) : Prop :=
  ∀ fd conn, state.server.connMap.lookup fd = some conn → conn.state = .connected →
    conn.sendBuffer.readableBytes ≠ 0 →
      (∃ events ∈ state.interest.lookup fd, Demultiplex.has events Demultiplex.writable = true) ∧
      ∀ wrote, writesFor conn ⟨fd, Demultiplex.writable⟩ wrote = [⟨conn.sendBuffer.content, wrote⟩]

/-- The direct write of `send` takes all of the data, or leaves more than the
buffer holds where there is no memory to enlarge it. -/
def Taken (state : State Publisher Subscriber) : Action → Prop
  | .register _ _ => True
  | .send fd data wrote granted => fd ∈ state.server.connMap →
      data.1.length ≤ wrote.getD 0 ∨
        (granted = false ∧ ArrayBuffer.packetSize < data.1.length - wrote.getD 0)

/-- A connection with nothing pending and the mask it was registered with. -/
structure Fresh (fd : Fd) (conn : TcpConnection) : Prop where
  sendBuffer : conn.sendBuffer = .new ArrayBuffer.packetSize
  context : conn.context = .dmpRegister ⟨fd, Demultiplex.defaultEvents⟩
  socket : conn.channel.socket = fd
  connected : conn.state = .connected

structure Idle (state : State Publisher Subscriber) : Prop where
  fresh : ∀ fd conn, state.server.connMap.lookup fd = some conn → Fresh fd conn
  running : state.fault = none

/-- The writes are those of the handler in the table's own model. -/
theorem handle_writable (server : TcpServer) (wrote : Fd → Option Nat) (fd : Fd)
    (conn : TcpConnection) (found : server.connMap.lookup fd = some conn) (count : Option Nat)
    (cut : wrote fd = count.map fun n => min n conn.sendBuffer.content.length) :
    server.handleResp wrote ⟨fd, Demultiplex.writable⟩ =
      match Endpoint.sendInLoop ⟨conn, []⟩ count with
      | .error fault _ => .error fault
      | .ok modify next =>
          let server := { server with connMap := server.connMap.modify fd fun _ => next.conn }
          match modify with
          | none => .ok (server, [])
          | some ctx =>
              match server.updateForModify ctx with
              | .error fault => .error fault
              | .ok server => .ok (server, []) := by
  have agrees := Endpoint.send_in_loop_agrees ⟨conn, []⟩ count
  have readable : Resp.isReadable ⟨fd, Demultiplex.writable⟩ = false :=
    Demultiplex.writable_not_readable
  have writable : Resp.isWritable ⟨fd, Demultiplex.writable⟩ = true :=
    Demultiplex.writable_has_writable
  simp only [TcpServer.handleResp, found, readable, writable, cut, ← agrees, Bool.false_and,
    Bool.false_eq_true, ↓reduceIte]
  cases Endpoint.sendInLoop ⟨conn, []⟩ count with
  | error fault next => rfl
  | ok modify next => rfl

section Sends

variable {fd : Fd} {conn : TcpConnection}

theorem fresh_open (fresh : Fresh fd conn) : Endpoint.Open conn := by
  exact ⟨fresh.sendBuffer ▸ ArrayBuffer.packet_valid, ⟨_, fresh.context⟩, fresh.connected⟩

/-- On a fresh connection `send` writes at once and stores the rest. -/
theorem send_fresh (fresh : Fresh fd conn) (data : Region) (wrote : Option Nat) (granted : Bool) :
    ∃ count : Int, 0 ≤ count ∧
      (data.1.length : Int) - count = (data.1.length - wrote.getD 0 : Nat) ∧
      Endpoint.send ⟨conn, []⟩ data wrote granted =
        Endpoint.store ⟨conn, [⟨data.1, wrote⟩]⟩ data count false granted := by
  have connected : conn.state ≠ .disconnect := by simp [fresh.connected]
  have drained : conn.sendBuffer.readableBytes = 0 := by
    rw [fresh.sendBuffer, ArrayBuffer.new_readable]
  simp only [Endpoint.send, if_neg connected, fresh.context, Context.toRegister,
    Demultiplex.default_not_writable, Bool.false_eq_true, drained, ↓reduceIte]
  refine ⟨_, ?_, ?_, rfl⟩
  · split
    · next written => exact written
    · exact Int.le_refl 0
  · cases wrote with
    | none => simp [WriteCall.answer]
    | some count =>
        have answer : (WriteCall.mk data.1 (some count)).answer =
            (min count data.1.length : Nat) := rfl
        rw [if_pos (by rw [answer]; omega), answer, Option.getD_some]
        omega

/-- What is taken leaves the connection as it was. -/
theorem send_taken (fresh : Fresh fd conn) (data : Region) (wrote : Option Nat) (granted : Bool)
    (taken : data.1.length ≤ wrote.getD 0 ∨
      (granted = false ∧ ArrayBuffer.packetSize < data.1.length - wrote.getD 0)) :
    ∃ next : Endpoint, next.conn = conn ∧
      (Endpoint.send ⟨conn, []⟩ data wrote granted = .ok none next ∨
        Endpoint.send ⟨conn, []⟩ data wrote granted = .error .badAlloc next) := by
  obtain ⟨count, nonneg, remain, sent⟩ := send_fresh fresh data wrote granted
  refine ⟨⟨conn, [⟨data.1, wrote⟩]⟩, rfl, ?_⟩
  rw [sent, Endpoint.store]
  rcases taken with all | ⟨noMemory, larger⟩
  · exact Or.inl (if_neg (by omega))
  · subst noMemory
    have large : ArrayBuffer.packetSize < (data.1.drop count.toNat).length := by
      rw [List.length_drop]
      omega
    have small : (data.1.drop count.toNat).length < 2 ^ 63 := by
      have bound := data.2
      rw [List.length_drop]
      omega
    have refused := ArrayBuffer.Call.append_new_refused large small
    rw [← fresh.sendBuffer] at refused
    rw [if_pos (by omega), refused]
    exact Or.inr rfl

/-- What is not taken becomes pending, and `send` asks for WRITABLE. -/
theorem send_pending (fresh : Fresh fd conn) (data : Region) (wrote : Option Nat) (granted : Bool)
    (more : wrote.getD 0 < data.1.length)
    (memory : granted = true ∨ data.1.length - wrote.getD 0 ≤ ArrayBuffer.packetSize) :
    ∃ next : Endpoint,
      Endpoint.send ⟨conn, []⟩ data wrote granted =
        .ok (some ⟨fd, Demultiplex.writable⟩) next ∧
      next.conn.sendBuffer.readableBytes ≠ 0 ∧ next.conn.state = .connected ∧
      next.conn.context = .dmpRegister ⟨fd, Demultiplex.defaultEvents⟩ := by
  obtain ⟨count, nonneg, remain, sent⟩ := send_fresh fresh data wrote granted
  have opened := fresh_open fresh
  have bound := data.2
  have length : (data.1.drop count.toNat).length = data.1.length - wrote.getD 0 := by
    rw [List.length_drop]
    omega
  have atStart : conn.sendBuffer.writerIndex = 0 := by rw [fresh.sendBuffer]; rfl
  have size : conn.sendBuffer.buffer.length = ArrayBuffer.packetSize := by
    rw [fresh.sendBuffer]
    exact List.length_replicate
  rw [sent, Endpoint.store, if_pos (by omega)]
  have noWrap : conn.sendBuffer.writerIndex + (data.1.drop count.toNat).length < 2 ^ 64 := by
    rw [atStart]
    omega
  have rest : data.1.drop count.toNat ≠ [] := List.ne_nil_of_length_pos (by omega)
  rcases ArrayBuffer.Call.append_spec opened.valid noWrap granted (Or.inr rest) with
    ⟨fault, refuses, -⟩ | ⟨buf, returned, valid, appended⟩
  · obtain ⟨short, cause⟩ := refuses.cause
    rw [opened.valid.writable, atStart, size] at short
    rw [atStart, ArrayBuffer.maxSize] at cause
    rcases cause with noMemory | tooLarge
    · rcases memory with given | enough
      · rw [noMemory] at given
        cases given
      · omega
    · omega
  · rw [returned]
    refine ⟨Endpoint.withBuffer ⟨conn, [⟨data.1, wrote⟩]⟩ buf, ?_, ?_, fresh.connected,
      fresh.context⟩
    · have asked : conn.channel.enableWrite 0#32 = ⟨fd, Demultiplex.writable⟩ := by
        rw [Channel.enableWrite, fresh.socket]
        rfl
      simp [asked]
    · rw [Endpoint.withBuffer, ← valid.content_length, appended, List.length_append, length]
      omega

end Sends

theorem start_idle (center : PubSubCenter Publisher Subscriber) : Idle (start center) :=
  ⟨fun fd conn found => by simp [start] at found, rfl⟩

theorem flushable_of_idle (state : State Publisher Subscriber) (idle : Idle state) :
    Flushable state := by
  intro fd conn found _ pending
  have drained := (idle.fresh fd conn found).sendBuffer
  rw [drained, ArrayBuffer.new_readable] at pending
  exact absurd rfl pending

theorem register_idle (state : State Publisher Subscriber) (idle : Idle state) (fd : Fd)
    (peer : InetAddr) (absent : fd ∉ state.server.connMap) :
    Idle (state.demultiplexRegister fd peer) := by
  refine ⟨fun other conn found => ?_, idle.running⟩
  simp only [State.demultiplexRegister, TcpServer.updateForRegister, if_neg absent,
    UnorderedMap.lookup_emplace_fresh (AList.lookup_eq_none.mpr absent)] at found
  by_cases here : other = fd
  · rw [if_pos here] at found
    cases found
    exact ⟨rfl, by rw [here]; rfl, here.symm, rfl⟩
  · rw [if_neg here] at found
    exact idle.fresh other conn found

theorem store_same_idle (state : State Publisher Subscriber) (idle : Idle state) (fd : Fd)
    (conn : TcpConnection) (found : state.server.connMap.lookup fd = some conn) :
    Idle (state.store fd conn) := by
  refine ⟨fun other stored there => ?_, idle.running⟩
  simp only [State.store, UnorderedMap.lookup_modify] at there
  by_cases here : other = fd
  · rw [if_pos here, found, Option.map_some] at there
    cases there
    exact here ▸ idle.fresh fd conn found
  · rw [if_neg here] at there
    exact idle.fresh other stored there

/-- What a `send` does to an idle table: nothing, or it asks for WRITABLE with the
mask of a new context. -/
theorem send_cases {state next : State Publisher Subscriber} (idle : Idle state) {fd : Fd}
    {data : Region} {wrote : Option Nat} {granted : Bool}
    (stepped : flushing.step state (.send fd data wrote granted) = some next) :
    ∃ stored, state.server.connMap.lookup fd = some stored ∧
      ((Taken state (.send fd data wrote granted) ∧ next = state.store fd stored) ∨
        (¬ Taken state (.send fd data wrote granted) ∧ ∃ conn : TcpConnection,
          conn.sendBuffer.readableBytes ≠ 0 ∧ conn.state = .connected ∧
          conn.context = .dmpRegister ⟨fd, Demultiplex.defaultEvents⟩ ∧
          next = (state.store fd conn).demultiplexModify ⟨fd, Demultiplex.writable⟩)) := by
  have running : state.fault.isSome ≠ true := by simp [idle.running]
  cases found : state.server.connMap.lookup fd with
  | none =>
      simp only [flushing, if_neg running, found] at stepped
      cases stepped
  | some stored =>
      simp only [flushing, if_neg running, found] at stepped
      cases stepped
      have fresh := idle.fresh fd stored found
      have present := UnorderedMap.mem_of_lookup found
      refine ⟨stored, rfl, ?_⟩
      by_cases taken : data.1.length ≤ wrote.getD 0 ∨
          (granted = false ∧ ArrayBuffer.packetSize < data.1.length - wrote.getD 0)
      · obtain ⟨after, same, sent⟩ := send_taken fresh data wrote granted taken
        refine Or.inl ⟨fun _ => taken, ?_⟩
        rcases sent with returned | threw
        · rw [returned, State.sent, same]
        · rw [threw, State.sent, same]
          simp [State.store, idle.running]
      · rw [not_or, Nat.not_le, not_and] at taken
        have memory : granted = true ∨
            data.1.length - wrote.getD 0 ≤ ArrayBuffer.packetSize := by
          cases granted with
          | false => exact Or.inr (Nat.le_of_not_lt (taken.2 rfl))
          | true => exact Or.inl rfl
        obtain ⟨after, returned, pending, connected, registered⟩ :=
          send_pending fresh data wrote granted taken.1 memory
        refine Or.inr ⟨?_, after.conn, pending, connected, registered, ?_⟩
        · intro allowed
          rcases allowed present with all | ⟨noMemory, larger⟩
          · exact absurd all (Nat.not_le.mpr taken.1)
          · exact taken.2 noMemory larger
        · rw [returned, State.sent]

theorem register_cases {state next : State Publisher Subscriber} (idle : Idle state) {fd : Fd}
    {peer : InetAddr} (stepped : flushing.step state (.register fd peer) = some next) :
    fd ∉ state.server.connMap ∧ next = state.demultiplexRegister fd peer := by
  have running : state.fault.isSome ≠ true := by simp [idle.running]
  by_cases present : fd ∈ state.server.connMap
  · simp only [flushing, if_neg running, if_pos present] at stepped
    cases stepped
  · simp only [flushing, if_neg running, if_neg present] at stepped
    cases stepped
    exact ⟨present, rfl⟩

theorem step_idle (state : State Publisher Subscriber) (action : Action)
    (next : State Publisher Subscriber) (idle : Idle state) (taken : Taken state action)
    (stepped : flushing.step state action = some next) : Idle next := by
  cases action with
  | register fd peer =>
      obtain ⟨absent, rfl⟩ := register_cases idle stepped
      exact register_idle state idle fd peer absent
  | send fd data wrote granted =>
      obtain ⟨stored, found, ⟨_, rfl⟩ | ⟨notTaken, _⟩⟩ := send_cases idle stepped
      · exact store_same_idle state idle fd stored found
      · exact absurd taken notTaken

/-- After the request for WRITABLE that mask alone is in the context and in force. -/
theorem asked_lookup {state : State Publisher Subscriber} {fd : Fd} {conn stored : TcpConnection}
    (found : state.server.connMap.lookup fd = some stored)
    (registered : conn.context = .dmpRegister ⟨fd, Demultiplex.defaultEvents⟩) :
    ((state.store fd conn).demultiplexModify
        ⟨fd, Demultiplex.writable⟩).server.connMap.lookup fd =
          some { conn with context := .dmpRegister ⟨fd, Demultiplex.writable⟩ } ∧
      ((state.store fd conn).demultiplexModify ⟨fd, Demultiplex.writable⟩).interest.lookup fd =
        (state.interest.lookup fd).map fun _ => Demultiplex.writable := by
  have there : (state.store fd conn).server.connMap.lookup fd = some conn := by
    simp [State.store, UnorderedMap.lookup_modify, found]
  simp only [State.demultiplexModify, TcpServer.updateForModify, there, registered,
    Context.toRegister, ne_eq, not_true_eq_false, ↓reduceIte, UnorderedMap.lookup_modify,
    Option.map_some]
  exact ⟨trivial, rfl⟩

/-- Pending bytes are stuck: the mask that `sendInLoop` looks at is WRITABLE only. -/
theorem pending_not_flushable (state : State Publisher Subscriber) (fd : Fd)
    (conn stored : TcpConnection) (found : state.server.connMap.lookup fd = some stored)
    (pending : conn.sendBuffer.readableBytes ≠ 0) (connected : conn.state = .connected)
    (registered : conn.context = .dmpRegister ⟨fd, Demultiplex.defaultEvents⟩) :
    ¬ Flushable ((state.store fd conn).demultiplexModify ⟨fd, Demultiplex.writable⟩) := by
  intro flushable
  have modified := (asked_lookup found registered).1
  have writes := (flushable fd _ modified connected pending).2 none
  have readable : Resp.isReadable ⟨fd, Demultiplex.writable⟩ = false :=
    Demultiplex.writable_not_readable
  simp only [writesFor, readable, Bool.false_and, Bool.false_eq_true, ↓reduceIte,
    Endpoint.sendInLoop, if_neg pending, Context.toRegister,
    Demultiplex.writable_not_readable] at writes
  split at writes <;> cases writes

theorem taken_of_flushable (state : State Publisher Subscriber) (action : Action)
    (next : State Publisher Subscriber) (idle : Idle state)
    (stepped : flushing.step state action = some next) (flushable : Flushable next) :
    Taken state action := by
  cases action with
  | register fd peer => trivial
  | send fd data wrote granted =>
      obtain ⟨stored, found, ⟨taken, _⟩ | ⟨_, conn, pending, connected, registered, rfl⟩⟩ :=
        send_cases idle stepped
      · exact taken
      · exact absurd flushable
          (pending_not_flushable state fd conn stored found pending connected registered)

theorem taken_of_refused (state : State Publisher Subscriber) (action : Action)
    (idle : Idle state) (refused : flushing.step state action = none) : Taken state action := by
  cases action with
  | register fd peer => trivial
  | send fd data wrote granted =>
      intro present
      obtain ⟨conn, found⟩ := UnorderedMap.lookup_of_mem present
      simp [flushing, idle.running, found] at refused

/-- Pending output can be flushed in every state exactly as long as there is none:
each direct write takes its data. -/
theorem flushable_iff (center : PubSubCenter Publisher Subscriber) (actions : List Action) :
    flushing.Always Flushable (start center) actions ↔
      flushing.Meets Taken (start center) actions :=
  flushing.always_iff_meets step_idle flushable_of_idle taken_of_flushable taken_of_refused
    (start_idle center) actions

def oneByte : Region := ⟨[42], by decide⟩

/-- A table with one client. -/
def joined (center : PubSubCenter Publisher Subscriber) : State Publisher Subscriber :=
  (start center).demultiplexRegister 5 ⟨[], 4711⟩

theorem joined_idle (center : PubSubCenter Publisher Subscriber) : Idle (joined center) :=
  register_idle _ (start_idle center) 5 _ (by simp [start])

/-- The client is sent more than its socket takes. What then holds throughout does
not need that the data are taken. -/
theorem left_not_always (center : PubSubCenter Publisher Subscriber) {data : Region}
    {wrote : Option Nat} (more : wrote.getD 0 < data.1.length)
    {holds : State Publisher Subscriber → Prop}
    (needed : ∀ next, flushing.step (joined center) (.send 5 data wrote true) = some next →
      holds next → Taken (joined center) (.send 5 data wrote true)) :
    ¬ flushing.Always holds (start center) [.register 5 ⟨[], 4711⟩, .send 5 data wrote true] := by
  intro always
  have registered : flushing.step (start center) (.register 5 ⟨[], 4711⟩) =
      some (joined center) := rfl
  have later := ((flushing.always_cons registered).mp always).2
  have taken : Taken (joined center) (.send 5 data wrote true) := by
    cases stepped : flushing.step (joined center) (.send 5 data wrote true) with
    | none => exact taken_of_refused _ _ (joined_idle center) stepped
    | some next =>
        exact needed next stepped (flushing.always_head ((flushing.always_cons stepped).mp later).2)
  have present : 5 ∈ (joined center).server.connMap :=
    (UnorderedMap.mem_emplace _ _ _ _).mpr (Or.inl rfl)
  rcases taken present with all | ⟨noMemory, _⟩
  · exact absurd more (Nat.not_lt.mpr all)
  · cases noMemory

/-- A socket whose buffer is full: the byte that `send` keeps is never written. -/
theorem full_socket_not_flushable : ¬ ∀ (center : PubSubCenter Unit Unit) actions,
    flushing.Always Flushable (start center) actions := by
  intro claim
  let center : PubSubCenter Unit Unit := ⟨∅, ∅, ∅⟩
  have needed := fun next => taken_of_flushable (joined center) (.send 5 oneByte none true) next
    (joined_idle center)
  exact left_not_always center (by decide) needed (claim _ _)

end RProxy.Flush
