import RProxy.Demultiplex
import RProxy.FdTable
import RProxy.Forward

/-!
The sockets of the proxy: who is behind an open descriptor, the receive queues,
and whether epoll has an event queued. `ProxyServer::forward` runs against it.
-/

namespace RProxy

/-- A backend comes with the client connection that owned the descriptor it was
opened for. -/
inductive Role where
  | client
  | backend (openedFor : Option Nat)
  deriving DecidableEq

def Role.isClient : Role → Bool
  | .client => true
  | .backend _ => false

/-- What comes in on a connection: all that the peer has sent, what was read of
it and handed to `send`, and what is still in the receive queue. `batched`
counts what had arrived when the connection was last put into a batch. -/
structure Stream where
  arrived : List Byte
  offered : List Byte
  queue : List Byte
  batched : Nat
  ended : Bool
  ready : Bool
  deriving DecidableEq

def Stream.new : Stream := ⟨[], [], [], 0, false, false⟩

structure Kernel where
  fds : FdTable
  role : Nat → Role
  peer : Nat → InetAddr
  stream : Nat → Stream

/-- Bytes that `send` accepted for `dest`. They were read from `source`, or are memory
of the proxy where the `read` before them failed. -/
structure Transfer where
  source : Option Nat
  dest : Nat
  bytes : List Byte
  deriving DecidableEq

/-- What the system calls of one `forward` do, and the memory its packet is made of. -/
structure Io where
  packet : Packet
  readFails : Bool
  sends : List (Option Nat)

/-- A `read` that works, into a fresh packet. -/
def Io.fresh (sends : List (Option Nat)) : Io := ⟨⟨fun _ => 0, 0, fun _ => 0⟩, false, sends⟩

namespace Kernel

variable (kernel : Kernel)

def empty : Kernel where
  fds := .empty
  role _ := .client
  peer _ := ⟨[], 0⟩
  stream _ := .new

/-- `fd` is handed out for a new connection. -/
def attach (fd : Fd) (role : Role) (peer : InetAddr) : Kernel where
  fds := kernel.fds.allocate fd
  role := Function.update kernel.role kernel.fds.next role
  peer := Function.update kernel.peer kernel.fds.next peer
  stream := Function.update kernel.stream kernel.fds.next .new

def close (fds : List Fd) : Kernel := { kernel with fds := kernel.fds.closeAll fds }

def modify (fd : Fd) (change : Stream → Stream) : Kernel :=
  match kernel.fds.owner fd with
  | none => kernel
  | some conn => { kernel with
      stream := Function.update kernel.stream conn (change (kernel.stream conn)) }

/-- Arriving bytes queue an event. -/
def arrive (fd : Fd) (bytes : List Byte) : Kernel :=
  kernel.modify fd fun stream => { stream with
    arrived := stream.arrived ++ bytes
    queue := stream.queue ++ bytes
    ready := true }

/-- The peer closes, which queues an event too. -/
def finish (fd : Fd) : Kernel :=
  kernel.modify fd fun stream => { stream with ended := true, ready := true }

/-- An event that epoll may report for a connection of that side. With several
loops an event is reported once to each that watches the descriptor. -/
def reports (client : Bool) (resp : Resp) : Bool :=
  match kernel.fds.owner resp.fd with
  | none => false
  | some conn => (kernel.role conn).isClient == client &&
      ((kernel.stream conn).queue.isEmpty || resp.isReadable)

/-- `epoll_wait` takes the events of `fds` out of its queue. -/
def report (fds : List Fd) : Kernel :=
  { kernel with
    stream := fun conn =>
      if fds.any fun fd => kernel.fds.owner fd == some conn then
        { kernel.stream conn with ready := false }
      else kernel.stream conn }

def batch (sockes : List Fd) : Kernel :=
  { kernel with
    stream := fun conn =>
      if sockes.any fun fd => kernel.fds.owner fd == some conn then
        { kernel.stream conn with batched := (kernel.stream conn).arrived.length }
      else kernel.stream conn }

/-- The result of `read(fd, .., MAX_PACKET_SIZE)`. -/
def read (fd : Fd) (fails : Bool) : ReadResult :=
  match kernel.fds.owner fd with
  | none => .error
  | some conn =>
      if fails then .error
      -- an empty queue is the end of file once the peer has closed; before, `read` waits on
      -- the sockets of the proxy, which here comes back as EAGAIN and takes nothing
      else if (kernel.stream conn).queue = [] ∧ (kernel.stream conn).ended = false then .again
      else .data ((kernel.stream conn).queue.take Packet.maxPacketSize) (List.length_take_le _ _)

def consume (fd : Fd) (taken : List Byte) : Kernel :=
  kernel.modify fd fun stream => { stream with
    offered := stream.offered ++ taken
    queue := stream.queue.drop taken.length }

/-- `send` on a descriptor that is not open fails at once. -/
def sends (io : Io) (outFd : Fd) : List (Option Nat) :=
  if (kernel.fds.owner outFd).isSome then io.sends else [none]

def forwarded (io : Io) (inFd outFd : Fd) : Forwarded :=
  RProxy.forward io.packet (kernel.read inFd io.readFails) (kernel.sends io outFd)

/-- The connection that a `read` takes its bytes from, unless it fails. -/
def source (inFd : Fd) (fails : Bool) : Option Nat :=
  match kernel.read inFd fails with
  | .data _ _ => kernel.fds.owner inFd
  | _ => none

/-- All that `send` accepts, whether it was read or not. -/
def transfer (io : Io) (inFd outFd : Fd) : List Transfer :=
  match kernel.fds.owner outFd with
  | none => []
  | some dest =>
      [⟨kernel.source inFd io.readFails, dest, (kernel.forwarded io inFd outFd).accepted⟩]

/-- A call of `forward` from its `read` to its last `send`. -/
def forward (io : Io) (inFd outFd : Fd) : Option (Kernel × List Transfer × Forwarded) :=
  let result := kernel.forwarded io inFd outFd
  if result.sending.finished then
    some (kernel.consume inFd result.taken, kernel.transfer io inFd outFd, result)
  else none

/-- `inet_ntoa` of what `getpeername` filled in; on a descriptor that is not
open it fills in nothing. -/
def getPeerAddr (fd : Fd) (garbage : InetAddr) : InetAddr :=
  match kernel.fds.owner fd with
  | none => garbage
  | some conn => kernel.peer conn

@[simp] theorem modify_fds (fd : Fd) (change : Stream → Stream) :
    (kernel.modify fd change).fds = kernel.fds := by
  unfold modify
  split <;> rfl

@[simp] theorem modify_role (fd : Fd) (change : Stream → Stream) :
    (kernel.modify fd change).role = kernel.role := by
  unfold modify
  split <;> rfl

@[simp] theorem modify_peer (fd : Fd) (change : Stream → Stream) :
    (kernel.modify fd change).peer = kernel.peer := by
  unfold modify
  split <;> rfl

theorem modify_stream (fd : Fd) (change : Stream → Stream) (conn : Nat) :
    (kernel.modify fd change).stream conn =
      if kernel.fds.owner fd = some conn then change (kernel.stream conn)
      else kernel.stream conn := by
  unfold modify
  split
  · next closed => simp [closed]
  · next owner owned =>
      simp only [owned, Option.some.injEq, Function.update_apply, eq_comm]
      split
      · next same => rw [same]
      · rfl

/-- Whether an open descriptor belongs to a client. -/
def side (fd : Fd) : Option Bool :=
  (kernel.fds.owner fd).map fun conn => (kernel.role conn).isClient

theorem attach_side (fd other : Fd) (role : Role) (peer : InetAddr) :
    (kernel.attach fd role peer).side other =
      if other = fd then some role.isClient else kernel.side other := by
  simp only [side, attach, FdTable.allocate_owner]
  by_cases same : other = fd
  · simp [same]
  · simp only [same, ↓reduceIte]
    cases owned : kernel.fds.owner other with
    | none => rfl
    | some conn =>
        have old : conn ≠ kernel.fds.next := Nat.ne_of_lt (kernel.fds.numbered other conn owned)
        simp [old]

theorem close_side (fds : List Fd) (fd : Fd) :
    (kernel.close fds).side fd = if fd ∈ fds then none else kernel.side fd := by
  simp only [side, close, FdTable.close_all_owner]
  split <;> rfl

@[simp] theorem modify_side (fd other : Fd) (change : Stream → Stream) :
    (kernel.modify fd change).side other = kernel.side other := by
  simp [side]

@[simp] theorem report_side (fds : List Fd) (fd : Fd) :
    (kernel.report fds).side fd = kernel.side fd := rfl

@[simp] theorem batch_side (fds : List Fd) (fd : Fd) :
    (kernel.batch fds).side fd = kernel.side fd := rfl

theorem reports_side {client : Bool} {resp : Resp} (reported : kernel.reports client resp = true) :
    kernel.side resp.fd = some client := by
  simp only [reports] at reported
  unfold side
  cases owned : kernel.fds.owner resp.fd with
  | none => simp [owned] at reported
  | some conn =>
      simp only [owned, Bool.and_eq_true, beq_iff_eq] at reported
      simp [reported.1]

/-- An event without READABLE finds the receive queue empty. -/
theorem reports_queue {client : Bool} {resp : Resp} {conn : Nat}
    (reported : kernel.reports client resp = true) (owned : kernel.fds.owner resp.fd = some conn)
    (unread : resp.isReadable = false) : (kernel.stream conn).queue = [] := by
  simp only [reports] at reported
  simp only [owned, unread, Bool.or_false, Bool.and_eq_true, List.isEmpty_iff] at reported
  exact reported.2

/-- One packet of the receive queue, unless `read` fails. -/
theorem taken_of_open (io : Io) (inFd outFd : Fd) (conn : Nat)
    (owned : kernel.fds.owner inFd = some conn) :
    (kernel.forwarded io inFd outFd).taken =
      if io.readFails then [] else (kernel.stream conn).queue.take Packet.maxPacketSize := by
  unfold forwarded read
  simp only [owned]
  cases io.readFails with
  | true => rfl
  | false =>
      simp only [Bool.false_eq_true, ↓reduceIte]
      split
      · next empty => simp [RProxy.forward, empty.1]
      · rfl

theorem taken_take (io : Io) (inFd outFd : Fd) (conn : Nat)
    (owned : kernel.fds.owner inFd = some conn) :
    (kernel.stream conn).queue.take (kernel.forwarded io inFd outFd).taken.length =
      (kernel.forwarded io inFd outFd).taken := by
  rw [taken_of_open kernel io inFd outFd conn owned]
  split
  · rfl
  · simp

theorem source_owner {inFd : Fd} {fails : Bool} {conn : Nat}
    (read : kernel.source inFd fails = some conn) : kernel.fds.owner inFd = some conn := by
  unfold source at read
  split at read
  · exact read
  · cases read

/-- Where nothing was read, `send` accepts nothing exactly when it was not called or
refused the memory of the proxy. -/
theorem unread_accepted {io : Io} {inFd : Fd} (outFd : Fd)
    (unread : kernel.source inFd io.readFails = none) :
    (kernel.forwarded io inFd outFd).accepted = [] ↔
      (kernel.read inFd io.readFails = .error → refused (kernel.sends io outFd) = true) := by
  cases got : kernel.read inFd io.readFails with
  | data bytes fits =>
      -- what was read was read from somebody
      have owned : kernel.fds.owner inFd = none := by simpa [source, got] using unread
      simp [read, owned] at got
  | again => simp [forwarded, got]
  | error => simp [forwarded, got, forward_error_accepted]

theorem mem_transfer {io : Io} {inFd outFd : Fd} {transfer : Transfer}
    (member : transfer ∈ kernel.transfer io inFd outFd) :
    kernel.fds.owner outFd = some transfer.dest ∧
      transfer.source = kernel.source inFd io.readFails ∧
      transfer.bytes = (kernel.forwarded io inFd outFd).accepted := by
  unfold Kernel.transfer at member
  split at member
  · cases member
  · next dest destOwned =>
      obtain rfl := List.mem_singleton.mp member
      exact ⟨destOwned, rfl, rfl⟩

theorem forward_some {io : Io} {inFd outFd : Fd} {next : Kernel} {transfers : List Transfer}
    {result : Forwarded} (returned : kernel.forward io inFd outFd = some (next, transfers, result)) :
    result = kernel.forwarded io inFd outFd ∧ next = kernel.consume inFd result.taken ∧
      transfers = kernel.transfer io inFd outFd := by
  simp only [forward] at returned
  split at returned
  · cases returned
    exact ⟨rfl, rfl, rfl⟩
  · cases returned

end Kernel
end RProxy
