import RProxy.Kernel
import RProxy.LoadBalancer
import RProxy.Machine
import RProxy.TcpServer

/-!
The whole proxy: the event loop of the clients, `TcpServer`, the queue and the
contexts of the load balancer, and `ProxyServer`, over one kernel. A batch of
`TcpServer::updateForWait`, an event of `ProxyServer::updateForWait` and a pair
of `updateForForward` are one step each.
-/

namespace RProxy.Proxy

/-- A connection that was closed for an event, with its stream at that moment. -/
structure Closing where
  conn : Nat
  events : Mask
  stream : Stream
  deriving DecidableEq

structure System where
  kernel : Kernel
  server : TcpServer
  loader : LoadBalancer
  context : List (Sigma fun _ : Fd => InetAddr)
  sockMap : UnorderedMap Fd Fd
  reversedMap : UnorderedMap Fd Fd
  center : PubSubCenter Unit Unit
  transfers : List Transfer
  closings : List Closing
  fault : Option Fault

def System.start : System where
  kernel := .empty
  server := ⟨∅, 0, []⟩
  loader := ⟨∅, ∅, [], [], []⟩
  context := []
  sockMap := ∅
  reversedMap := ∅
  center := ⟨∅, ∅, ∅⟩
  transfers := []
  closings := []
  fault := none

inductive Action where
  | accept (fd : Fd) (peer : InetAddr)
  | arrive (fd : Fd) (bytes : List Byte)
  | finish (fd : Fd)
  | serverWait (resps : List Resp) (wrote : Fd → Option Nat)
  | loadbalance (sockToBackend : UnorderedMap Fd InetAddr)
  | forwardNext (connect : Option Fd) (garbage : InetAddr) (io : Io)
  | proxyWait (resp : Resp) (io : Io)

/-- A context of `balancing` assigns a backend to each socket of the batch; to
which one does not matter here. -/
def Assigns (sockToBackend : UnorderedMap Fd InetAddr) (batch : List Fd) : Prop :=
  (∀ fd ∈ batch, fd ∈ sockToBackend) ∧ ∀ fd ∈ sockToBackend.keys, fd ∈ batch

instance (sockToBackend : UnorderedMap Fd InetAddr) (batch : List Fd) :
    Decidable (Assigns sockToBackend batch) := by
  unfold Assigns
  infer_instance

/-- With a backend in the table, `balancing` makes such a context. -/
theorem balancing_assigns (loader : LoadBalancer) (nonempty : loader.backend.entries ≠ [])
    (batch : List Fd) :
    ∃ sockToBackend, loader.balancing batch = some sockToBackend ∧
      Assigns sockToBackend batch := by
  obtain ⟨sockToBackend, assigned, keys⟩ := loader.balancing_keys nonempty batch
  refine ⟨sockToBackend, assigned, ?_, ?_⟩
  · intro fd member
    exact (keys fd).mpr member
  · intro fd member
    exact (keys fd).mp member

namespace System

variable (state : System)

/-- `accept` and the DMPREGISTER notification. -/
def accept (fd : Fd) (peer : InetAddr) : Option System :=
  match state.kernel.fds.owner fd with
  | some _ => none
  | none =>
      -- an old connection under this number would be closed with the new one
      let (server, center) := { state.server with closed := [] }.updateForRegister state.center
        ⟨fd, Demultiplex.defaultEvents⟩ peer
      some { state with
        kernel := (state.kernel.attach fd .client peer).close server.closed
        server := server
        center := center }

def arrive (fd : Fd) (bytes : List Byte) : Option System :=
  match state.kernel.fds.owner fd with
  | none => none
  | some conn =>
      if (state.kernel.stream conn).ended then none
      else some { state with kernel := state.kernel.arrive fd bytes }

def finish (fd : Fd) : Option System :=
  match state.kernel.fds.owner fd with
  | none => none
  | some _ => some { state with kernel := state.kernel.finish fd }

def closing (resp : Resp) : List Closing :=
  match state.kernel.fds.owner resp.fd with
  | none => []
  | some conn => [⟨conn, resp.events, state.kernel.stream conn⟩]

/-- `epoll_wait` of a sub-reactor and the handler, down to the BALANCE batch. -/
def serverWait (resps : List Resp) (wrote : Fd → Option Nat) : Option System :=
  if (resps.map Resp.fd).Nodup ∧ ∀ resp ∈ resps, state.kernel.reports true resp = true then
    match TcpServer.updateForWait wrote { state.server with closed := [] } resps with
    | .error fault => some { state with fault := some fault }
    | .ok (server, sockes) => some { state with
        kernel := ((state.kernel.report (resps.map Resp.fd)).batch sockes).close server.closed
        server := server
        -- every batch of events queues one batch, an empty one too
        loader := state.loader.updateForLoadbalance sockes
        closings := state.closings ++
          (resps.filter fun resp => decide (resp.fd ∈ server.closed)).flatMap state.closing }
  else none

/-- The next context, once `updateForForward` is through with the last one. -/
def loadbalance (sockToBackend : UnorderedMap Fd InetAddr) : Option System :=
  match state.context, state.loader.popFront with
  | [], some (batch, loader) =>
      if Assigns sockToBackend batch then
        some { state with loader := loader, context := sockToBackend.entries }
      else none
  | _, _ => none

/-- `establishWith` and the two insertions. -/
def establish (sock incoming : Fd) (addr : InetAddr) : System :=
  { state with
    kernel := state.kernel.attach sock (.backend (state.kernel.fds.owner incoming)) addr
    sockMap := state.sockMap.emplace sock incoming
    reversedMap := state.reversedMap.emplace incoming sock }

/-- The rest of a pass of `updateForForward`, from the lookup on. -/
def relay (incoming : Fd) (garbage : InetAddr) (io : Io) : Option System :=
  match state.reversedMap.lookup incoming with
  | none => some { state with fault := some .outOfRange }
  | some sock =>
      let addr := (state.kernel.getPeerAddr incoming garbage).toString
      if state.center.isLismited addr then some state
      else
        match state.kernel.forward io incoming sock with
        | none => none
        | some (kernel, transfers, result) => some { state with
            kernel := kernel
            transfers := state.transfers ++ transfers
            center :=
              if 0 < result.returned then
                state.center.account addr (UInt64.ofNat result.returned.toNat)
              else state.center }

/-- One pass of `updateForForward`. Where `connectTo` throws, `connect` is
`none` and the rest of the context is given up. -/
def forwardNext (connect : Option Fd) (garbage : InetAddr) (io : Io) : Option System :=
  match state.context with
  | [] => none
  | ⟨incoming, addr⟩ :: rest =>
      let state := { state with context := rest }
      if incoming ∈ state.reversedMap then state.relay incoming garbage io
      else
        match connect with
        -- the exception leaves `updateForForward`, and its loop over the context
        | none => some { state with context := [] }
        | some sock =>
            match state.kernel.fds.owner sock with
            | some _ => none
            | none => (state.establish sock incoming addr).relay incoming garbage io

/-- One event of `ProxyServer::updateForWait`. -/
def proxyWait (resp : Resp) (io : Io) : Option System :=
  if state.kernel.reports false resp then
    let reported := { state with kernel := state.kernel.report [resp.fd] }
    match state.sockMap.lookup resp.fd with
    | none => some { state with fault := some .outOfRange }
    | some incoming =>
        -- data that comes together with the end of the stream is not read
        if resp.isReadable && !resp.isClosable then
          match reported.kernel.forward io resp.fd incoming with
          | none => none
          | some (kernel, transfers, _) => some { reported with
              kernel := kernel
              transfers := state.transfers ++ transfers }
        else if resp.isClosable then
          some { reported with
            kernel := reported.kernel.close [resp.fd]
            reversedMap := state.reversedMap.erase incoming
            sockMap := state.sockMap.erase resp.fd
            closings := state.closings ++ state.closing resp }
        else some reported
  else none

end System

/-- An exception that leaves the thread of a loop ends the process. -/
def proxy : Machine System Action where
  step state action :=
    if state.fault.isSome then none
    else
      match action with
      | .accept fd peer => state.accept fd peer
      | .arrive fd bytes => state.arrive fd bytes
      | .finish fd => state.finish fd
      | .serverWait resps wrote => state.serverWait resps wrote
      | .loadbalance sockToBackend => state.loadbalance sockToBackend
      | .forwardNext connect garbage io => state.forwardNext connect garbage io
      | .proxyWait resp io => state.proxyWait resp io

/-- Client 5 sends `bytes`, and a backend is connected for it on descriptor 7. -/
def request (bytes : List Byte) (sends : List (Option Nat)) : List Action :=
  [.accept 5 ⟨['a'], 1⟩, .arrive 5 bytes, .serverWait [⟨5, Demultiplex.epollIn⟩] fun _ => none,
    .loadbalance ((∅ : UnorderedMap Fd InetAddr).emplace 5 ⟨['b'], 80⟩),
    .forwardNext (some 7) ⟨['a'], 1⟩ (.fresh sends)]

end RProxy.Proxy
