import RProxy.FifoBuffer
import RProxy.TcpServer

/-!
`TcpConnection::read` into `recv_buffer_`. The length comes from the writable
end of the buffer, the destination is `peek()`, the start of what is unread.
-/

namespace RProxy

namespace TcpConnection

/-- `leave` hands a DMPDELETE to the demultiplexer; the entry of the table goes
with it. -/
def disconnect (conn : TcpConnection) : TcpConnection :=
  { conn with state := .disconnect, channel := { conn.channel with leave := true } }

/-- `received` is what the socket delivers into `writableBytes()` bytes, `none`
where its `read` returns -1. -/
def read (conn : TcpConnection) (received : Option (List Byte)) : Except Fault TcpConnection :=
  if conn.state = .disconnect then .ok conn
  else
    match conn.context.toRegister with
    | none => .error .undefined
    | some ctx =>
        if Demultiplex.has ctx.events Demultiplex.readable then
          match received with
          | none => .ok conn.disconnect
          | some bytes =>
              let chunk := bytes.take conn.recvBuffer.writableBytes
              -- `peek()`, not `beginWrite()`
              match (conn.recvBuffer.copyTo conn.recvBuffer.readerIndex chunk).hasWritten
                  chunk.length with
              | .error fault => .error fault
              | .ok recvBuffer => .ok { conn with recvBuffer := recvBuffer }
        else .ok conn

end TcpConnection

namespace Receive

open ArrayBuffer FifoBuffer

inductive Action where
  | read (received : Option (List Byte))
  | retrieve (call : BufferCall) (granted : Bool)
  | modify (events : Mask)

def isRetrieval : BufferCall → Bool
  | .retrieve _ | .retrieveUntil _ | .retrieveAll => true
  | .retrieveAsString _ | .retrieveAllAsString | .retrieveInt _ => true
  | .append _ | .ensureWritableBytes _ | .write _ => false

/-- The calls on one connection; `modify` is the mask that `updateForModify`
stores in its context. -/
def receiving : Machine TcpConnection Action where
  step conn action :=
    match action with
    | .read received =>
        match conn.read received with
        | .error _ => none
        | .ok next => some next
    | .retrieve call granted =>
        if isRetrieval call then
          some { conn with recvBuffer := stateOf (call.perform granted conn.recvBuffer) }
        else none
    | .modify events =>
        match conn.context.toRegister with
        | none => none
        | some ctx => some { conn with context := .dmpRegister { ctx with events := events } }

/-- The bytes of the vector behind the readable part. -/
def stale (buf : ArrayBuffer) : List Byte := buf.buffer.drop buf.writerIndex

/-- The chunk repeats what it overwrites, and what is behind the readable part
repeats the end of the chunk. -/
def Coincides (buf : ArrayBuffer) (chunk : List Byte) : Prop :=
  chunk <+: buf.content ++ chunk ∧
    ((stale buf).take chunk.length).drop (chunk.length - buf.content.length) =
      chunk.drop (chunk.length - buf.content.length)

instance (buf : ArrayBuffer) (chunk : List Byte) : Decidable (Coincides buf chunk) :=
  inferInstanceAs (Decidable (_ ∧ _))

/-- A chunk laid over the start of `content ++ rest` leaves `content ++ chunk`
in front exactly where the bytes repeat. -/
theorem overlay_eq_append_iff (content rest chunk : List Byte) :
    chunk ++ ((content ++ rest).drop chunk.length).take content.length = content ++ chunk ↔
      chunk <+: content ++ chunk ∧
        (rest.take chunk.length).drop (chunk.length - content.length) =
          chunk.drop (chunk.length - content.length) := by
  have overlaid : ((content ++ rest).drop chunk.length).take content.length =
      content.drop chunk.length ++
        (rest.take chunk.length).drop (chunk.length - content.length) := by
    have kept : (content.drop chunk.length).length ≤ content.length := by
      rw [List.length_drop]
      omega
    have count : content.length - (content.length - chunk.length) =
        chunk.length - (chunk.length - content.length) := by omega
    rw [List.drop_append, List.take_append, List.take_of_length_le kept, List.length_drop,
      List.drop_take, count]
  have wanted : (content ++ chunk).drop chunk.length =
      content.drop chunk.length ++ chunk.drop (chunk.length - content.length) := List.drop_append
  rw [overlaid, List.prefix_iff_eq_take]
  constructor
  · intro same
    have front := congrArg (List.take chunk.length) same
    have back := congrArg (List.drop chunk.length) same
    rw [List.take_left] at front
    rw [List.drop_left, wanted] at back
    exact ⟨front, List.append_cancel_left back⟩
  · rintro ⟨front, back⟩
    rw [back, ← wanted]
    nth_rewrite 1 [front]
    exact List.take_append_drop chunk.length (content ++ chunk)

section Buffers

variable {buf : ArrayBuffer}

theorem buffer_split (valid : buf.Valid) :
    buf.buffer = buf.buffer.take buf.readerIndex ++ (buf.content ++ stale buf) := by
  have whole : buf.buffer.drop buf.readerIndex = buf.content ++ stale buf := by
    have length : (buf.buffer.take buf.writerIndex).length = buf.writerIndex := by
      rw [List.length_take]
      exact Nat.min_eq_left valid.inside
    nth_rewrite 1 [← List.take_append_drop buf.writerIndex buf.buffer]
    rw [List.drop_append_of_le_length (by rw [length]; exact valid.ordered)]
    rfl
  rw [← whole, List.take_append_drop]

/-- Bytes received at `peek()` lie over the start of what is unread. -/
theorem received_content (valid : buf.Valid) {chunk : List Byte}
    (room : chunk.length ≤ buf.writableBytes) :
    ∃ next, (buf.copyTo buf.readerIndex chunk).hasWritten chunk.length = .ok next ∧ next.Valid ∧
      next.content =
        chunk ++ ((buf.content ++ stale buf).drop chunk.length).take buf.content.length := by
  obtain ⟨next, written, nextValid, same⟩ := copy_has_written valid valid.ordered room
  refine ⟨next, written, nextValid, ?_⟩
  have front : (buf.buffer.take buf.readerIndex).length = buf.readerIndex := by
    rw [List.length_take]
    exact Nat.min_eq_left (Nat.le_trans valid.ordered valid.inside)
  have behind : buf.buffer.drop (buf.readerIndex + chunk.length) =
      (buf.content ++ stale buf).drop chunk.length := by
    rw [← List.drop_drop]
    nth_rewrite 1 [buffer_split valid]
    rw [List.drop_left' front]
  have copied : (buf.copyTo buf.readerIndex chunk).buffer =
      buf.buffer.take buf.readerIndex ++
        (chunk ++ (buf.content ++ stale buf).drop chunk.length) := by
    rw [copyTo, behind, List.append_assoc]
  have reach : buf.writerIndex + chunk.length =
      buf.readerIndex + (chunk.length + buf.content.length) := by
    have ordered := valid.ordered
    rw [valid.content_length, valid.readable]
    omega
  rw [same, copied, reach, List.drop_take, List.drop_left' front, Nat.add_sub_cancel_left,
    List.take_length_add_append]

end Buffers

theorem retrieval_valid {buf : ArrayBuffer} (valid : buf.Valid) {call : BufferCall}
    (retrieves : isRetrieval call = true) (granted : Bool) :
    (stateOf (call.perform granted buf)).Valid :=
  have noWrap : call.NoWrap buf := by cases call <;> trivial
  perform_valid valid noWrap granted

/-- A connected connection that is watched for READABLE receives at `peek()`. -/
theorem read_receives {conn : TcpConnection} {ctx : DmpRegisterContext}
    (connected : conn.state = .connected) (registered : conn.context.toRegister = some ctx)
    (readable : Demultiplex.has ctx.events Demultiplex.readable = true) {bytes chunk : List Byte}
    (room : bytes.take conn.recvBuffer.writableBytes = chunk) {recvBuffer : ArrayBuffer}
    (written : (conn.recvBuffer.copyTo conn.recvBuffer.readerIndex chunk).hasWritten
      chunk.length = .ok recvBuffer) :
    conn.read (some bytes) = .ok { conn with recvBuffer := recvBuffer } := by
  simp only [TcpConnection.read, connected, reduceCtorEq, ↓reduceIte, registered, readable, room,
    written]

/-- What it then has in its buffer. -/
theorem read_chunk {conn : TcpConnection} {ctx : DmpRegisterContext}
    (valid : conn.recvBuffer.Valid) (connected : conn.state = .connected)
    (registered : conn.context.toRegister = some ctx)
    (readable : Demultiplex.has ctx.events Demultiplex.readable = true) (bytes : List Byte) :
    ∃ recvBuffer, conn.read (some bytes) = .ok { conn with recvBuffer := recvBuffer } ∧
      recvBuffer.Valid ∧ recvBuffer.content =
        bytes.take conn.recvBuffer.writableBytes ++
          ((conn.recvBuffer.content ++ stale conn.recvBuffer).drop
            (bytes.take conn.recvBuffer.writableBytes).length).take conn.recvBuffer.content.length := by
  obtain ⟨recvBuffer, written, nextValid, content⟩ :=
    received_content valid (List.length_take_le conn.recvBuffer.writableBytes bytes)
  exact ⟨recvBuffer, read_receives connected registered readable rfl written, nextValid, content⟩

theorem read_valid {conn next : TcpConnection} {received : Option (List Byte)}
    (valid : conn.recvBuffer.Valid) (returned : conn.read received = .ok next) :
    next.recvBuffer.Valid := by
  simp only [TcpConnection.read] at returned
  split at returned
  · cases returned
    exact valid
  · split at returned
    · cases returned
    · split at returned
      · split at returned
        · cases returned
          exact valid
        · next bytes =>
            obtain ⟨recvBuffer, written, nextValid, -⟩ :=
              received_content valid (List.length_take_le conn.recvBuffer.writableBytes bytes)
            rw [written] at returned
            cases returned
            exact nextValid
      · cases returned
        exact valid

theorem step_valid (conn : TcpConnection) (action : Action) (next : TcpConnection)
    (valid : conn.recvBuffer.Valid) (stepped : receiving.step conn action = some next) :
    next.recvBuffer.Valid := by
  cases action with
  | read received =>
      simp only [receiving] at stepped
      split at stepped
      · cases stepped
      · next after returned =>
          cases stepped
          exact read_valid valid returned
  | retrieve call granted =>
      simp only [receiving] at stepped
      split at stepped
      · next retrieves =>
          cases stepped
          exact retrieval_valid valid retrieves granted
      · cases stepped
  | modify events =>
      simp only [receiving] at stepped
      split at stepped
      · cases stepped
      · cases stepped
        exact valid

/-- A chunk is appended exactly where nothing is unread, or nothing is received,
or the bytes repeat. -/
theorem read_appends_iff (channel : Channel) (registered : DmpRegisterContext) (peer : InetAddr)
    (actions : List Action) (conn : TcpConnection)
    (ran : receiving.run (.new channel (.dmpRegister registered) peer) actions = some conn)
    (connected : conn.state = .connected) (ctx : DmpRegisterContext)
    (context : conn.context.toRegister = some ctx)
    (readable : Demultiplex.has ctx.events Demultiplex.readable = true) (chunk : List Byte)
    (fits : chunk.length ≤ conn.recvBuffer.writableBytes) :
    (∃ next, conn.read (some chunk) = .ok next ∧
      next.recvBuffer.content = conn.recvBuffer.content ++ chunk) ↔
      conn.recvBuffer.content = [] ∨ chunk = [] ∨ Coincides conn.recvBuffer chunk := by
  have valid : conn.recvBuffer.Valid :=
    receiving.run_preserves (fun conn => conn.recvBuffer.Valid) step_valid packet_valid ran
  obtain ⟨recvBuffer, read, -, content⟩ := read_chunk valid connected context readable chunk
  rw [List.take_of_length_le fits] at content
  have returned : (∃ next, conn.read (some chunk) = .ok next ∧
      next.recvBuffer.content = conn.recvBuffer.content ++ chunk) ↔
      recvBuffer.content = conn.recvBuffer.content ++ chunk := by
    rw [read]
    constructor
    · rintro ⟨next, same, appended⟩
      cases same
      exact appended
    · intro appended
      exact ⟨_, rfl, appended⟩
  rw [returned, content, overlay_eq_append_iff]
  constructor
  · intro coincides
    exact Or.inr (Or.inr coincides)
  · rintro (empty | rfl | coincides)
    · simp [empty]
    · simp
    · exact coincides

def client : TcpConnection := .new ⟨false, 5⟩ (.dmpRegister ⟨5, Demultiplex.defaultEvents⟩) ⟨[], 1⟩

/-- The buffer of a connection that has received its first bytes. -/
def filled (bytes : List Byte) : ArrayBuffer :=
  ⟨0, bytes.length, bytes ++ List.replicate (packetSize - bytes.length) 0⟩

theorem filled_content (bytes : List Byte) : (filled bytes).content = bytes := by
  simp [filled, content]

theorem filled_length {bytes : List Byte} (few : bytes.length ≤ packetSize) :
    (filled bytes).buffer.length = packetSize := by
  simp only [filled, List.length_append, List.length_replicate]
  omega

/-- Bytes that fit are received into a new buffer. -/
theorem new_receives {bytes : List Byte} (few : bytes.length ≤ packetSize) :
    ((new packetSize).copyTo (new packetSize).readerIndex bytes).hasWritten bytes.length =
      .ok (filled bytes) := by
  have copied : (new packetSize).copyTo (new packetSize).readerIndex bytes =
      { filled bytes with writerIndex := 0 } := by
    simp [copyTo, new, prepend, filled]
  have writable : ({ filled bytes with writerIndex := 0 } : ArrayBuffer).writableBytes =
      packetSize := by
    simp only [writableBytes, filled_length few]
    rfl
  have small : (0 + bytes.length) % 2 ^ 64 = bytes.length := by
    rw [packetSize] at few
    omega
  rw [copied, hasWritten, writable, if_neg (Nat.not_lt.mpr few), small]
  rfl

theorem client_reads {bytes : List Byte} (few : bytes.length ≤ packetSize) :
    client.read (some bytes) = .ok { client with recvBuffer := filled bytes } := by
  refine read_receives rfl rfl Demultiplex.default_has_readable ?_ (new_receives few)
  have room : client.recvBuffer.writableBytes = packetSize := new_writable (by decide)
  rw [room, List.take_of_length_le few]

theorem read_step {conn next : TcpConnection} {received : Option (List Byte)}
    (returned : conn.read received = .ok next) :
    receiving.step conn (.read received) = some next := by
  simp only [receiving, returned]

theorem retrieve_all_step (conn : TcpConnection) (granted : Bool) :
    receiving.step conn (.retrieve .retrieveAll granted) =
      some { conn with recvBuffer := conn.recvBuffer.retrieveAll } := rfl

/-- Once everything has been retrieved, the next chunk is appended. -/
theorem retrieved_appends : ∃ conn next,
    receiving.run client [.read (some [1, 2]), .retrieve .retrieveAll true] = some conn ∧
      conn.read (some [3]) = .ok next ∧ next.recvBuffer.content = [3] := by
  let buf : ArrayBuffer := (filled [1, 2]).retrieveAll
  let conn : TcpConnection := { client with recvBuffer := buf }
  have ran : receiving.run client [.read (some [1, 2]), .retrieve .retrieveAll true] =
      some conn := by
    rw [Machine.run_cons, read_step (client_reads (by decide)), Option.bind_some,
      Machine.run_cons, retrieve_all_step, Option.bind_some, Machine.run_nil]
  have empty : buf.content = [] := retrieve_all_content _
  have room : [(3 : Byte)].length ≤ buf.writableBytes := by
    have size : buf.buffer.length = packetSize := filled_length (by decide)
    rw [writableBytes, size]
    decide
  obtain ⟨next, read, appended⟩ := (read_appends_iff ⟨false, 5⟩
    ⟨5, Demultiplex.defaultEvents⟩ ⟨[], 1⟩ _ conn ran rfl _ rfl
    Demultiplex.default_has_readable [3] room).mpr (Or.inl empty)
  refine ⟨conn, next, ran, read, appended.trans ?_⟩
  rw [show conn.recvBuffer.content = [] from empty]
  rfl

/-- The second byte lies where the first one was. -/
theorem unread_byte_overwritten : ¬ ∀ actions conn ctx chunk,
    receiving.run client actions = some conn → conn.state = .connected →
      conn.context.toRegister = some ctx →
      Demultiplex.has ctx.events Demultiplex.readable = true →
      chunk.length ≤ conn.recvBuffer.writableBytes →
      ∃ next, conn.read (some chunk) = .ok next ∧
        next.recvBuffer.content = conn.recvBuffer.content ++ chunk := by
  intro claim
  let conn : TcpConnection := { client with recvBuffer := filled [1] }
  have ran : receiving.run client [.read (some [1])] = some conn := by
    rw [Machine.run_cons, read_step (client_reads (by decide)), Option.bind_some, Machine.run_nil]
  have unread : conn.recvBuffer.content = [1] := filled_content [1]
  have room : [(2 : Byte)].length ≤ conn.recvBuffer.writableBytes := by
    have size : conn.recvBuffer.buffer.length = packetSize := filled_length (by decide)
    rw [writableBytes, size]
    decide
  obtain ⟨next, read, appended⟩ :=
    claim _ conn _ [2] ran rfl rfl Demultiplex.default_has_readable room
  have valid : conn.recvBuffer.Valid :=
    receiving.run_preserves (fun conn => conn.recvBuffer.Valid) step_valid packet_valid ran
  obtain ⟨recvBuffer, received, -, content⟩ :=
    read_chunk valid rfl rfl Demultiplex.default_has_readable [2]
  rw [received] at read
  cases read
  rw [List.take_of_length_le room, unread] at content
  -- the content starts with the 2
  rw [unread, content] at appended
  cases appended

end Receive
end RProxy
