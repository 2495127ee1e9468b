import RProxy.Machine
import RProxy.TcpServer

/-!
The bytes on their way out of a `TcpConnection`: `send` writes them or puts them
into `send_buffer_`, and `sendInLoop` writes what is pending. The results of
`write` and of the allocations are inputs.
-/

namespace RProxy

/-- The context of `enableWrite`, from the one it is handed. -/
def Channel.enableWrite (channel : Channel) (events : Mask) : DmpModifyContext :=
  ⟨channel.socket, events ||| Demultiplex.writable⟩

/-- The bytes behind a pointer; no object is larger than `PTRDIFF_MAX`. -/
abbrev Region := { data : List Byte // data.length < 2 ^ 63 }

/-- A `write` on the socket with its result, `none` for -1. -/
structure WriteCall where
  bytes : List Byte
  wrote : Option Nat

namespace WriteCall

/-- A socket takes no more than it is given. -/
def answer (call : WriteCall) : Int :=
  match call.wrote with
  | none => -1
  | some count => (min count call.bytes.length : Nat)

def taken (call : WriteCall) : List Byte := call.bytes.take call.answer.toNat

end WriteCall

/-- A connection and the writes on its socket so far. -/
structure Endpoint where
  conn : TcpConnection
  writes : List WriteCall

namespace Endpoint

variable (endpoint : Endpoint)

/-- The bytes that the socket has accepted. -/
def accepted : List Byte := endpoint.writes.flatMap WriteCall.taken

def wrote (call : WriteCall) : Endpoint := { endpoint with writes := endpoint.writes ++ [call] }

def withBuffer (buf : ArrayBuffer) : Endpoint :=
  { endpoint with conn := { endpoint.conn with sendBuffer := buf } }

/-- What a function of the connection ends with: the context of a call of
`demultiplexModify`, if it makes one, or an exception. -/
abbrev Ended := EStateM.Result Fault Endpoint (Option DmpModifyContext)

/-- The end of `send`, after `wrote` bytes; a new context has no events. -/
def store (data : Region) (wrote : Int) (watched granted : Bool) : Ended :=
  if 0 < (data.1.length : Int) - wrote then
    match ArrayBuffer.Call.append (some (data.1.drop wrote.toNat)) granted endpoint.conn.sendBuffer with
    | .error fault buf => .error fault (endpoint.withBuffer buf)
    | .ok _ buf =>
        .ok (if watched then none else some (endpoint.conn.channel.enableWrite 0#32))
          (endpoint.withBuffer buf)
  else .ok none endpoint

/-- The direct `write` of `send`; -1 counts as nothing written. -/
def sendNow (data : Region) (call : WriteCall) (granted : Bool) : Ended :=
  (endpoint.wrote call).store data (if 0 ≤ call.answer then call.answer else 0) false granted

def send (data : Region) (wrote : Option Nat) (granted : Bool) : Ended :=
  if endpoint.conn.state = .disconnect then .ok none endpoint
  else
    match endpoint.conn.context.toRegister with
    | none => .error .undefined endpoint
    | some ctx =>
        if Demultiplex.has ctx.events Demultiplex.writable then
          endpoint.store data 0 true granted
        else if endpoint.conn.sendBuffer.readableBytes = 0 then
          endpoint.sendNow data ⟨data.1, wrote⟩ granted
        else endpoint.store data 0 false granted

/-- `sendInLoop` after its `write`. -/
def flush (ctx : DmpRegisterContext) (answer : Int) : Ended :=
  if 0 < answer then
    match endpoint.conn.sendBuffer.retrieve answer.toNat with
    | .error fault => .error fault endpoint
    | .ok buf =>
        if buf.readableBytes = 0 then
          match endpoint.conn.channel.disableWrite (.dmpRegister ctx) with
          | .error fault => .error fault (endpoint.withBuffer buf)
          | .ok modify => .ok (some modify) (endpoint.withBuffer buf)
        else .ok none (endpoint.withBuffer buf)
  else .ok none endpoint

/-- `TcpConnection::sendInLoop` with the write it makes and the connection it
leaves behind when it ends in a fault. -/
def sendInLoop (wrote : Option Nat) : Ended :=
  if endpoint.conn.sendBuffer.readableBytes = 0 then .ok none endpoint
  else
    match endpoint.conn.context.toRegister with
    | none => .error .undefined endpoint
    | some ctx =>
        if Demultiplex.has ctx.events Demultiplex.readable then
          (endpoint.wrote ⟨endpoint.conn.sendBuffer.content, wrote⟩).flush ctx
            (WriteCall.answer ⟨endpoint.conn.sendBuffer.content, wrote⟩)
        else .ok none endpoint

/-- The connection it leaves behind, without its socket. -/
def forget : Ended → Except Fault (TcpConnection × Option DmpModifyContext)
  | .ok modify next => .ok (next.conn, modify)
  | .error fault _ => .error fault

theorem flush_nothing (ctx : DmpRegisterContext) {answer : Int} (nothing : answer ≤ 0) :
    endpoint.flush ctx answer = .ok none endpoint := if_neg (by omega)

theorem wrote_conn (call : WriteCall) : (endpoint.wrote call).conn = endpoint.conn := rfl

/-- With the result cut to what is pending, the connection is the one that
`TcpConnection.sendInLoop` returns. -/
theorem send_in_loop_agrees (wrote : Option Nat) :
    forget (endpoint.sendInLoop wrote) = endpoint.conn.sendInLoop
      (wrote.map fun count => min count endpoint.conn.sendBuffer.content.length) := by
  by_cases empty : endpoint.conn.sendBuffer.readableBytes = 0
  · simp [sendInLoop, TcpConnection.sendInLoop, empty, forget]
  · cases registered : endpoint.conn.context.toRegister with
    | none => simp [sendInLoop, TcpConnection.sendInLoop, empty, registered, forget]
    | some ctx =>
        by_cases reads : Demultiplex.has ctx.events Demultiplex.readable = true
        · simp only [sendInLoop, TcpConnection.sendInLoop, empty, registered, reads, ↓reduceIte]
          cases wrote with
          | none => exact congrArg forget (flush_nothing _ _ (by simp [WriteCall.answer]))
          | some count =>
              have answer : (WriteCall.mk endpoint.conn.sendBuffer.content (some count)).answer =
                  (min count endpoint.conn.sendBuffer.content.length : Nat) := rfl
              rw [Option.map_some, answer]
              cases min count endpoint.conn.sendBuffer.content.length with
              | zero => exact congrArg forget (flush_nothing _ _ (by simp))
              | succ n =>
                  rw [flush, if_pos (by omega), Int.toNat_natCast, wrote_conn]
                  cases retrieved : endpoint.conn.sendBuffer.retrieve (n + 1) with
                  | error fault => simp [forget, retrieved]
                  | ok buf =>
                      by_cases drained : buf.readableBytes = 0
                      · simp only [retrieved, drained, ↓reduceIte]
                        cases endpoint.conn.channel.disableWrite (.dmpRegister ctx) <;>
                          simp [forget, withBuffer, wrote_conn]
                      · simp [retrieved, drained, forget, withBuffer, wrote_conn]
        · simp [sendInLoop, TcpConnection.sendInLoop, empty, registered, reads, forget]

/-- The bytes accepted and then the bytes still pending. -/
def stream : List Byte := endpoint.accepted ++ endpoint.conn.sendBuffer.content

/-- A connection as `updateForRegister` makes it and every call leaves it. -/
structure Open (conn : TcpConnection) : Prop where
  valid : conn.sendBuffer.Valid
  registered : ∃ ctx, conn.context = .dmpRegister ctx
  connected : conn.state = .connected

variable {endpoint}

theorem stream_with_buffer (buf : ArrayBuffer) :
    (endpoint.withBuffer buf).stream = endpoint.accepted ++ buf.content := rfl

theorem accepted_wrote (call : WriteCall) :
    (endpoint.wrote call).accepted = endpoint.accepted ++ call.taken := by
  simp [accepted, Endpoint.wrote]

theorem open_with_buffer (opened : Open endpoint.conn) {buf : ArrayBuffer} (valid : buf.Valid) :
    Open (endpoint.withBuffer buf).conn := ⟨valid, opened.registered, opened.connected⟩

/-- What is left of the data goes behind what is pending if there is room for it, and
otherwise `append` throws. -/
theorem store_spec (opened : Open endpoint.conn) (data : Region) (wrote : Int)
    (nonneg : 0 ≤ wrote) (watched granted : Bool) :
    match endpoint.store data wrote watched granted with
    | .ok _ next =>
        endpoint.conn.sendBuffer.Room (data.1.length - wrote.toNat) granted ∧
          Open next.conn ∧ next.writes = endpoint.writes ∧
          next.conn.sendBuffer.content =
            endpoint.conn.sendBuffer.content ++ data.1.drop wrote.toNat
    | .error _ next =>
        ¬ endpoint.conn.sendBuffer.Room (data.1.length - wrote.toNat) granted ∧
          next = endpoint := by
  have inside := opened.valid.inside
  have bounded := opened.valid.bounded
  rw [ArrayBuffer.maxSize] at bounded
  have small := data.2
  rw [store]
  by_cases more : 0 < (data.1.length : Int) - wrote
  · have left : (data.1.drop wrote.toNat).length = data.1.length - wrote.toNat := List.length_drop
    have noWrap : endpoint.conn.sendBuffer.writerIndex + (data.1.drop wrote.toNat).length <
        2 ^ 64 := by omega
    have rest : data.1.drop wrote.toNat ≠ [] := List.ne_nil_of_length_pos (by omega)
    rw [if_pos more]
    rcases ArrayBuffer.Call.append_spec opened.valid noWrap granted (Or.inr rest) with
      ⟨fault, refuses, threw⟩ | ⟨next, returned, nextValid, appended⟩
    · rw [threw]
      exact ⟨left ▸ refuses.no_room, rfl⟩
    · have room : endpoint.conn.sendBuffer.Room (data.1.length - wrote.toNat) granted := by
        by_contra full
        obtain ⟨fault, threw⟩ := ArrayBuffer.Call.append_full opened.valid noWrap (left ▸ full)
        rw [returned] at threw
        cases threw
      rw [returned]
      exact ⟨room, open_with_buffer opened nextValid, rfl, appended⟩
  · rw [if_neg more]
    refine ⟨Or.inl (by omega), opened, rfl, ?_⟩
    rw [List.drop_eq_nil_of_le (by omega), List.append_nil]

theorem accepted_of_writes {next : Endpoint} (same : next.writes = endpoint.writes) :
    next.accepted = endpoint.accepted := by rw [accepted, same, accepted]

/-- The WRITABLE bit of the connection's context. -/
def watched (endpoint : Endpoint) : Bool :=
  endpoint.conn.context.toRegister.any fun ctx =>
    Demultiplex.has ctx.events Demultiplex.writable

/-- How many bytes `send` puts into `send_buffer_`: all of them, or what a direct
`write` leaves. -/
def unsent (endpoint : Endpoint) (data : Region) (wrote : Option Nat) : Nat :=
  if endpoint.watched = false ∧ endpoint.conn.sendBuffer.readableBytes = 0 then
    data.1.length - wrote.getD 0
  else data.1.length

/-- `send_buffer_` takes what `send` puts into it. -/
def Stores (endpoint : Endpoint) (data : Region) (wrote : Option Nat) (granted : Bool) : Prop :=
  endpoint.conn.sendBuffer.Room (endpoint.unsent data wrote) granted

instance (endpoint : Endpoint) (data : Region) (wrote : Option Nat) (granted : Bool) :
    Decidable (endpoint.Stores data wrote granted) :=
  inferInstanceAs (Decidable (ArrayBuffer.Room _ _ _))

/-- With room for what is left, a call of `send` returns and adds its data to the stream.
Without, it throws and adds less. -/
def Sent (endpoint : Endpoint) (data : List Byte) (room : Prop) : Ended → Prop
  | .ok _ next => room ∧ Open next.conn ∧ next.stream = endpoint.stream ++ data
  | .error _ next => ¬ room ∧ Open next.conn ∧
      ∃ taken, taken.length < data.length ∧ next.stream = endpoint.stream ++ taken

theorem store_sent (opened : Open endpoint.conn) (data : Region) (watched granted : Bool) :
    Sent endpoint data.1 (endpoint.conn.sendBuffer.Room data.1.length granted)
      (endpoint.store data 0 watched granted) := by
  have spec := store_spec opened data 0 (Int.le_refl 0) watched granted
  rw [Int.toNat_zero, Nat.sub_zero] at spec
  cases stored : endpoint.store data 0 watched granted with
  | error fault next =>
      rw [stored] at spec
      obtain ⟨full, rfl⟩ := spec
      refine ⟨full, opened, [], ?_, (List.append_nil _).symm⟩
      exact Nat.pos_of_ne_zero fun nothing => full (Or.inl (by omega))
  | ok modify next =>
      rw [stored] at spec
      obtain ⟨room, nextOpen, writes, content⟩ := spec
      refine ⟨room, nextOpen, ?_⟩
      rw [stream, stream, content, accepted_of_writes writes, List.drop_zero, List.append_assoc]

/-- What the socket does not take goes into the empty buffer. -/
theorem send_now_sent (opened : Open endpoint.conn)
    (empty : endpoint.conn.sendBuffer.content = []) (data : Region) (wrote : Option Nat)
    (granted : Bool) :
    Sent endpoint data.1 (endpoint.conn.sendBuffer.Room (data.1.length - wrote.getD 0) granted)
      (endpoint.sendNow data ⟨data.1, wrote⟩ granted) := by
  obtain ⟨count, counted, nonneg, left, taken⟩ : ∃ count : Int,
      (if 0 ≤ (WriteCall.mk data.1 wrote).answer then (WriteCall.mk data.1 wrote).answer else 0) =
          count ∧
        0 ≤ count ∧ data.1.length - count.toNat = data.1.length - wrote.getD 0 ∧
        (WriteCall.mk data.1 wrote).taken = data.1.take count.toNat := by
    cases wrote with
    | none => exact ⟨0, rfl, Int.le_refl 0, rfl, rfl⟩
    | some count =>
        refine ⟨(min count data.1.length : Nat), if_pos (Int.natCast_nonneg _),
          Int.natCast_nonneg _, ?_, rfl⟩
        rw [Int.toNat_natCast, Option.getD_some]
        omega
  have wroteOpen : Open (endpoint.wrote ⟨data.1, wrote⟩).conn := opened
  have spec := store_spec wroteOpen data count nonneg false granted
  rw [left] at spec
  rw [sendNow, counted]
  cases stored : (endpoint.wrote ⟨data.1, wrote⟩).store data count false granted with
  | error fault next =>
      rw [stored] at spec
      obtain ⟨full, rfl⟩ := spec
      refine ⟨full, wroteOpen, data.1.take count.toNat, ?_, ?_⟩
      · rw [List.length_take]
        have more : 0 < data.1.length - wrote.getD 0 :=
          Nat.pos_of_ne_zero fun nothing => full (Or.inl (by omega))
        omega
      · rw [stream, accepted_wrote, taken, wrote_conn, stream, empty, List.append_nil,
          List.append_nil]
  | ok modify next =>
      rw [stored] at spec
      obtain ⟨room, nextOpen, writes, content⟩ := spec
      refine ⟨room, nextOpen, ?_⟩
      rw [stream, content, accepted_of_writes writes, accepted_wrote, taken, wrote_conn, empty,
        List.nil_append, List.append_assoc, List.take_append_drop, stream, empty, List.append_nil]

theorem send_sent (opened : Open endpoint.conn) (data : Region) (wrote : Option Nat)
    (granted : Bool) :
    Sent endpoint data.1 (endpoint.Stores data wrote granted)
      (endpoint.send data wrote granted) := by
  obtain ⟨ctx, registered⟩ := opened.registered
  have connected : endpoint.conn.state ≠ .disconnect := by simp [opened.connected]
  have mask : endpoint.watched = Demultiplex.has ctx.events Demultiplex.writable := by
    simp only [watched, registered, Context.toRegister, Option.any_some]
  simp only [send, if_neg connected, registered, Context.toRegister, Stores, unsent, mask]
  by_cases isWatched : Demultiplex.has ctx.events Demultiplex.writable = true
  · rw [if_pos isWatched, if_neg (by simp [isWatched])]
    exact store_sent opened data true granted
  · rw [if_neg isWatched]
    by_cases drained : endpoint.conn.sendBuffer.readableBytes = 0
    · have empty : endpoint.conn.sendBuffer.content = [] := by
        rw [← List.length_eq_zero_iff, opened.valid.content_length, drained]
      rw [if_pos drained, if_pos ⟨Bool.eq_false_iff.mpr isWatched, drained⟩]
      exact send_now_sent opened empty data wrote granted
    · rw [if_neg drained, if_neg (fun both => drained both.2)]
      exact store_sent opened data false granted

/-- `sendInLoop` moves bytes from the buffer to the socket. -/
def Flushed (endpoint : Endpoint) : Ended → Prop
  | .ok _ next | .error _ next => Open next.conn ∧ next.stream = endpoint.stream

theorem flush_flushed (opened : Open endpoint.conn) (ctx : DmpRegisterContext) (call : WriteCall)
    (pending : call.bytes = endpoint.conn.sendBuffer.content) :
    Flushed endpoint ((endpoint.wrote call).flush ctx call.answer) := by
  have wroteOpen : Open (endpoint.wrote call).conn := opened
  by_cases written : 0 < call.answer
  · have fits : call.answer.toNat ≤ (endpoint.wrote call).conn.sendBuffer.content.length := by
      rw [wrote_conn, ← pending]
      cases answered : call.wrote with
      | none => simp [WriteCall.answer, answered]
      | some count => simp [WriteCall.answer, answered]
    obtain ⟨buf, retrieved, valid, rest⟩ := ArrayBuffer.retrieve_drops wroteOpen.valid fits
    have kept : ((endpoint.wrote call).withBuffer buf).stream = endpoint.stream := by
      rw [stream_with_buffer, accepted_wrote, WriteCall.taken, rest, wrote_conn, pending,
        List.append_assoc, List.take_append_drop, stream]
    have nextOpen := open_with_buffer wroteOpen valid
    rw [flush, if_pos written, retrieved]
    dsimp only
    by_cases drained : buf.readableBytes = 0
    · rw [if_pos drained]
      exact ⟨nextOpen, kept⟩
    · rw [if_neg drained]
      exact ⟨nextOpen, kept⟩
  · rw [flush_nothing _ _ (by omega)]
    refine ⟨wroteOpen, ?_⟩
    rw [stream, accepted_wrote, WriteCall.taken, Int.toNat_of_nonpos (by omega), List.take_zero,
      List.append_nil, wrote_conn, stream]

theorem send_in_loop_flushed (opened : Open endpoint.conn) (wrote : Option Nat) :
    Flushed endpoint (endpoint.sendInLoop wrote) := by
  obtain ⟨ctx, registered⟩ := opened.registered
  simp only [sendInLoop, registered, Context.toRegister]
  by_cases drained : endpoint.conn.sendBuffer.readableBytes = 0
  · rw [if_pos drained]
    exact ⟨opened, rfl⟩
  · rw [if_neg drained]
    by_cases reads : Demultiplex.has ctx.events Demultiplex.readable = true
    · rw [if_pos reads]
      exact flush_flushed opened ctx _ rfl
    · rw [if_neg reads]
      exact ⟨opened, rfl⟩

/-- A change of the event mask. -/
def withEvents (endpoint : Endpoint) (events : Mask) : Endpoint :=
  match endpoint.conn.context with
  | .dmpRegister ctx =>
      { endpoint with conn := { endpoint.conn with context := .dmpRegister { ctx with events } } }
  | .dmpModify _ => endpoint

theorem with_events_flushed (opened : Open endpoint.conn) (events : Mask) :
    Open (endpoint.withEvents events).conn ∧
      (endpoint.withEvents events).stream = endpoint.stream := by
  obtain ⟨ctx, registered⟩ := opened.registered
  simp only [withEvents, registered]
  exact ⟨⟨opened.valid, ⟨_, rfl⟩, opened.connected⟩, rfl⟩

end Endpoint

namespace Outgoing

/-- `passed` is all the data handed to `send`; a null pointer ends the run. -/
structure State where
  endpoint : Endpoint
  passed : List Byte
  crashed : Bool

inductive Action where
  | send (data : Region) (wrote : Option Nat) (granted : Bool)
  | sendInLoop (wrote : Option Nat)
  | events (mask : Mask)

/-- A connection that `updateForRegister` has just made. -/
def start (ctx : DmpRegisterContext) (peer : InetAddr) : State :=
  ⟨⟨TcpConnection.new ⟨false, ctx.fd⟩ (.dmpRegister ctx) peer, []⟩, [], false⟩

namespace State

def sent (state : State) (data : List Byte) : Endpoint.Ended → State
  | .ok _ next => ⟨next, state.passed ++ data, false⟩
  | .error fault next => ⟨next, state.passed ++ data, decide (fault = .undefined)⟩

def flushed (state : State) : Endpoint.Ended → State
  | .ok _ next => ⟨next, state.passed, false⟩
  | .error fault next => ⟨next, state.passed, decide (fault = .undefined)⟩

end State

def outgoing : Machine State Action where
  step state action :=
    if state.crashed then none
    else
      match action with
      | .send data wrote granted =>
          some (state.sent data.1 (state.endpoint.send data wrote granted))
      | .sendInLoop wrote => some (state.flushed (state.endpoint.sendInLoop wrote))
      | .events mask => some { state with endpoint := state.endpoint.withEvents mask }

/-- The bytes the socket has accepted and then the pending ones are the data. -/
def Conserved (state : State) : Prop :=
  state.endpoint.accepted ++ state.endpoint.conn.sendBuffer.content = state.passed

/-- In a call of `send` there is room for what the socket does not take, so that `append`
does not throw; after the end of the process there is no call. -/
def Stored (state : State) : Action → Prop
  | .send data wrote granted =>
      state.crashed = true ∨ state.endpoint.Stores data wrote granted
  | _ => True

structure Invariant (state : State) : Prop where
  opened : Endpoint.Open state.endpoint.conn
  conserved : state.endpoint.stream = state.passed

theorem sent_invariant {state : State} (invariant : Invariant state) {data : List Byte}
    {room : Prop} {ended : Endpoint.Ended} (stored : room)
    (sent : Endpoint.Sent state.endpoint data room ended) : Invariant (state.sent data ended) := by
  cases ended with
  | ok modify next => exact ⟨sent.2.1, by rw [State.sent, sent.2.2, invariant.conserved]⟩
  | error fault next => exact absurd stored sent.1

/-- Where `send` throws, bytes that it was handed are neither written nor pending. -/
theorem sent_conserved {state : State} (invariant : Invariant state) {data : List Byte}
    {room : Prop} {ended : Endpoint.Ended}
    (sent : Endpoint.Sent state.endpoint data room ended)
    (conserved : Conserved (state.sent data ended)) : room := by
  cases ended with
  | ok modify next => exact sent.1
  | error fault next =>
      obtain ⟨-, -, taken, fewer, added⟩ := sent
      have same : next.stream = state.passed ++ data := conserved
      rw [added, invariant.conserved] at same
      rw [List.append_cancel_left same] at fewer
      exact absurd fewer (Nat.lt_irrefl _)

theorem flushed_invariant {state : State} (invariant : Invariant state)
    {ended : Endpoint.Ended} (flushed : Endpoint.Flushed state.endpoint ended) :
    Invariant (state.flushed ended) := by
  cases ended with
  | ok modify next => exact ⟨flushed.1, by rw [State.flushed, flushed.2, invariant.conserved]⟩
  | error fault next => exact ⟨flushed.1, by rw [State.flushed, flushed.2, invariant.conserved]⟩

theorem step_invariant (state : State) (action : Action) (next : State)
    (invariant : Invariant state) (stored : Stored state action)
    (stepped : outgoing.step state action = some next) : Invariant next := by
  simp only [outgoing] at stepped
  split at stepped
  · cases stepped
  · next running =>
      cases action with
      | send data wrote granted =>
          cases stepped
          exact sent_invariant invariant (stored.resolve_left running)
            (Endpoint.send_sent invariant.opened data wrote granted)
      | sendInLoop wrote =>
          cases stepped
          exact flushed_invariant invariant
            (Endpoint.send_in_loop_flushed invariant.opened wrote)
      | events mask =>
          cases stepped
          obtain ⟨opened, same⟩ := Endpoint.with_events_flushed invariant.opened mask
          exact ⟨opened, same.trans invariant.conserved⟩

theorem stored_of_conserved (state : State) (action : Action) (next : State)
    (invariant : Invariant state) (stepped : outgoing.step state action = some next)
    (conserved : Conserved next) : Stored state action := by
  simp only [outgoing] at stepped
  split at stepped
  · cases stepped
  · cases action with
    | send data wrote granted =>
        cases stepped
        exact Or.inr (sent_conserved invariant
          (Endpoint.send_sent invariant.opened data wrote granted) conserved)
    | _ => trivial

theorem stored_of_ended (state : State) (action : Action)
    (ended : outgoing.step state action = none) : Stored state action := by
  cases action with
  | send data wrote granted =>
      left
      by_contra running
      simp [outgoing, running] at ended
  | _ => trivial

theorem start_invariant (ctx : DmpRegisterContext) (peer : InetAddr) :
    Invariant (start ctx peer) :=
  ⟨⟨ArrayBuffer.packet_valid, ⟨ctx, rfl⟩, rfl⟩, ArrayBuffer.new_content ArrayBuffer.packetSize⟩

/-- Whatever the socket makes of each write, no byte handed to `send` is lost,
repeated or overtaken, exactly in the runs in which no `append` throws. -/
theorem outgoing_conserved_iff (ctx : DmpRegisterContext) (peer : InetAddr)
    (actions : List Action) :
    outgoing.Always Conserved (start ctx peer) actions ↔
      outgoing.Meets Stored (start ctx peer) actions :=
  outgoing.always_iff_meets step_invariant (fun _ invariant => invariant.conserved)
    stored_of_conserved (fun state action _ => stored_of_ended state action)
    (start_invariant ctx peer) actions

/-- More data than the vector is large, of which the socket takes one byte: `append` gets
no memory for the others, which are neither sent nor pending. -/
theorem rest_not_stored : ¬ ∀ (ctx : DmpRegisterContext) (peer : InetAddr)
    (actions : List Action), outgoing.Always Conserved (start ctx peer) actions := by
  intro claim
  let ctx : DmpRegisterContext := ⟨5, Demultiplex.defaultEvents⟩
  let fresh := start ctx ⟨[], 0⟩
  let data : Region := ⟨List.replicate 40962 0, by rw [List.length_replicate]; decide⟩
  have length : data.1.length = 40962 := List.length_replicate
  have invariant : Invariant fresh := start_invariant ctx ⟨[], 0⟩
  obtain ⟨next, stepped⟩ : ∃ next, outgoing.step fresh (.send data (some 1) false) = some next :=
    ⟨_, rfl⟩
  have always := ((outgoing.always_cons stepped).mp
    (claim ctx ⟨[], 0⟩ [.send data (some 1) false])).2
  have stored := (stored_of_conserved fresh _ next invariant stepped
    (outgoing.always_head always)).resolve_left Bool.false_ne_true
  have left : fresh.endpoint.unsent data (some 1) = 40961 := by
    have drained : fresh.endpoint.conn.sendBuffer.readableBytes = 0 :=
      ArrayBuffer.new_readable ArrayBuffer.packetSize
    rw [Endpoint.unsent, if_pos ⟨by decide, drained⟩, length]
    rfl
  have writable : fresh.endpoint.conn.sendBuffer.writableBytes = 40960 :=
    ArrayBuffer.new_writable (by decide)
  rw [Endpoint.Stores, left] at stored
  rcases stored with fits | ⟨memory, _⟩
  · rw [writable] at fits
    exact absurd fits (by decide)
  · cases memory

end Outgoing
end RProxy
