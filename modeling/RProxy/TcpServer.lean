import RProxy.Buffer
import RProxy.Demultiplex
import RProxy.PubSub

/-!
`reactor::TcpServer` with the connections, channels and buffers of its table.
The handlers run to their end here, with the nested notifications a channel
sends; `closed` lists the descriptors that `~TcpConnection` hands to `close`.
-/

namespace RProxy

structure Channel where
  leave : Bool
  socket : Fd

namespace Channel

/-- The context that `disableWrite` hands to `demultiplexModify`; the cast of
any other context is null and is written through. -/
def disableWrite (channel : Channel) (ctx : Context) : Except Fault DmpModifyContext :=
  match ctx.toModify with
  | none => .error .undefined
  | some _ => .ok ⟨channel.socket, Demultiplex.defaultEvents⟩

end Channel

inductive TcpState where
  | connected | disconnect
  deriving DecidableEq

structure TcpConnection where
  sockfd : Fd
  channel : Channel
  recvBuffer : ArrayBuffer
  sendBuffer : ArrayBuffer
  addr : InetAddr
  state : TcpState
  context : Context

namespace TcpConnection

def new (channel : Channel) (ctx : Context) (peer : InetAddr) : TcpConnection where
  sockfd := channel.socket
  channel := channel
  recvBuffer := ArrayBuffer.new ArrayBuffer.packetSize
  sendBuffer := ArrayBuffer.new ArrayBuffer.packetSize
  addr := peer
  state := .connected
  context := ctx

/-- `wrote` is the result of the `write` of the pending bytes. The second
component is the context of a `disableWrite` that went through. -/
def sendInLoop (conn : TcpConnection) (wrote : Option Nat) :
    Except Fault (TcpConnection × Option DmpModifyContext) :=
  if conn.sendBuffer.readableBytes = 0 then .ok (conn, none)
  else
    match conn.context.toRegister with
    | none => .error .undefined
    | some ctx =>
        -- the code tests READABLE of the interest set before it writes
        if Demultiplex.has ctx.events Demultiplex.readable then
          match wrote with
          | none => .ok (conn, none)
          | some 0 => .ok (conn, none)
          | some (n + 1) =>
              match conn.sendBuffer.retrieve (n + 1) with
              | .error fault => .error fault
              | .ok sendBuffer =>
                  let conn := { conn with sendBuffer := sendBuffer }
                  if sendBuffer.readableBytes = 0 then
                    match conn.channel.disableWrite (.dmpRegister ctx) with
                    | .error fault => .error fault
                    | .ok modify => .ok (conn, some modify)
                  else .ok (conn, none)
        else .ok (conn, none)

end TcpConnection

structure TcpServer where
  connMap : UnorderedMap Fd TcpConnection
  totalConn : Int
  closed : List Fd

namespace TcpServer

/-- Erasing the entry runs `~TcpConnection`. A channel that has not left yet
sends DMPDELETE from its destructor, which no longer finds the entry. -/
def removeConnection (server : TcpServer) (sockfd : Fd) : TcpServer :=
  match server.connMap.lookup sockfd with
  | none => server
  | some conn =>
      { connMap := server.connMap.erase sockfd
        totalConn := server.totalConn - 1
        closed := server.closed ++ [conn.sockfd] }

/-- `emplace` keeps an entry that is already there. The new connection is then
destroyed, and its channel leaves as the handler returns. -/
def updateForRegister {Publisher Subscriber : Type} (server : TcpServer)
    (center : PubSubCenter Publisher Subscriber) (ctx : DmpRegisterContext) (peer : InetAddr) :
    TcpServer × PubSubCenter Publisher Subscriber :=
  let conn := TcpConnection.new ⟨false, ctx.fd⟩ (.dmpRegister ctx) peer
  let center := center.account peer.toString 0
  if ctx.fd ∈ server.connMap then
    ({ server with closed := server.closed ++ [ctx.fd] }.removeConnection ctx.fd, center)
  else
    ({ server with
        connMap := server.connMap.emplace ctx.fd conn
        totalConn := server.totalConn + 1 }, center)

def updateForModify (server : TcpServer) (ctx : DmpModifyContext) : Except Fault TcpServer :=
  match server.connMap.lookup ctx.fd with
  | none => .ok server
  | some conn =>
      match conn.context.toRegister with
      | none => .error .undefined
      | some connCtx =>
          if ctx.fd ≠ connCtx.fd then .ok server
          else .ok { server with
            connMap := server.connMap.modify ctx.fd fun conn =>
              { conn with context := .dmpRegister { connCtx with events := ctx.events } } }

def updateForDelete (server : TcpServer) (fd : Fd) : TcpServer := server.removeConnection fd

/-- `tcp_conn->disconnect()`: the channel leaves, which comes back as
DMPDELETE; the `epoll_ctl` after it names a descriptor that is closed. -/
def disconnect (server : TcpServer) (fd : Fd) : TcpServer :=
  match server.connMap.lookup fd with
  | none => server
  | some conn =>
      { server with
        connMap := server.connMap.modify fd fun conn =>
          { conn with
            state := .disconnect
            channel := { conn.channel with leave := true } } }.updateForDelete conn.channel.socket

/-- The body of the loop of `updateForWait`, with what it appends to `sockes`. -/
def handleResp (server : TcpServer) (wrote : Fd → Option Nat) (resp : Resp) :
    Except Fault (TcpServer × List Fd) :=
  match server.connMap.lookup resp.fd with
  | none => .ok (server, [])
  | some conn =>
      if resp.isReadable && !resp.isClosable then .ok (server, [resp.fd])
      else if resp.isWritable then
        match conn.sendInLoop (wrote resp.fd) with
        | .error fault => .error fault
        | .ok (conn, modify) =>
            let server := { server with connMap := server.connMap.modify resp.fd fun _ => conn }
            match modify with
            | none => .ok (server, [])
            | some ctx =>
                match server.updateForModify ctx with
                | .error fault => .error fault
                | .ok server => .ok (server, [])
      -- the second removal finds nothing any more
      else if resp.isClosable then .ok ((server.disconnect resp.fd).removeConnection resp.fd, [])
      else .ok (server, [])

/-- The batch is what the handler hands to `notify(BALANCE, ..)`. -/
def updateForWait (wrote : Fd → Option Nat) :
    TcpServer → List Resp → Except Fault (TcpServer × List Fd)
  | server, [] => .ok (server, [])
  | server, resp :: rest =>
      match server.handleResp wrote resp with
      | .error fault => .error fault
      | .ok (server, picked) =>
          match updateForWait wrote server rest with
          | .error fault => .error fault
          | .ok (server, more) => .ok (server, picked ++ more)

/-! No code calls `TcpConnection::send`, so send buffers stay empty; each entry
names its own key. Under this invariant a handler cannot fail. -/

structure Settled (fd : Fd) (conn : TcpConnection) : Prop where
  sockfd : conn.sockfd = fd
  socket : conn.channel.socket = fd
  drained : conn.sendBuffer.readableBytes = 0

def Quiet (server : TcpServer) : Prop :=
  ∀ fd conn, server.connMap.lookup fd = some conn → Settled fd conn

/-- What the handler relies on: an entry names its key, and `sendInLoop` does
nothing. -/
structure Still (fd : Fd) (conn : TcpConnection) : Prop where
  sockfd : conn.sockfd = fd
  socket : conn.channel.socket = fd
  inert : ∀ wrote, conn.sendInLoop wrote = .ok (conn, none)

def Calm (server : TcpServer) : Prop :=
  ∀ fd conn, server.connMap.lookup fd = some conn → Still fd conn

end TcpServer

/-- The event makes `updateForWait` drop a connection. -/
def Resp.removes (resp : Resp) : Bool := resp.isClosable && !resp.isWritable

/-- The event makes `updateForWait` pass a connection on. -/
def Resp.passes (resp : Resp) : Bool := resp.isReadable && !resp.isClosable

namespace TcpServer

/-- A connection that is just entered has nothing to send. -/
theorem register_quiet {Publisher Subscriber : Type} {server : TcpServer} (quiet : server.Quiet)
    (center : PubSubCenter Publisher Subscriber) (ctx : DmpRegisterContext) (peer : InetAddr)
    (absent : ctx.fd ∉ server.connMap) : (server.updateForRegister center ctx peer).1.Quiet := by
  intro other conn found
  simp only [updateForRegister, absent, ↓reduceIte] at found
  rw [UnorderedMap.lookup_emplace_fresh (AList.lookup_eq_none.mpr absent)] at found
  split at found
  · next same =>
      cases found
      subst same
      exact ⟨rfl, rfl, ArrayBuffer.new_readable _⟩
  · exact quiet other conn found

theorem remove_lookup (server : TcpServer) (sockfd fd : Fd) :
    (server.removeConnection sockfd).connMap.lookup fd =
      if fd = sockfd then none else server.connMap.lookup fd := by
  unfold removeConnection
  cases found : server.connMap.lookup sockfd with
  | none =>
      by_cases same : fd = sockfd
      · subst same; simp [found]
      · simp [same]
  | some conn => simp [UnorderedMap.lookup_erase_if]

theorem remove_absent (server : TcpServer) (sockfd : Fd)
    (absent : server.connMap.lookup sockfd = none) : server.removeConnection sockfd = server := by
  simp [removeConnection, absent]

theorem remove_closed (server : TcpServer) (sockfd : Fd) (conn : TcpConnection)
    (found : server.connMap.lookup sockfd = some conn) :
    (server.removeConnection sockfd).closed = server.closed ++ [conn.sockfd] := by
  simp [removeConnection, found]

theorem disconnect_lookup (server : TcpServer) {fd : Fd} (other : Fd) {conn : TcpConnection}
    (found : server.connMap.lookup fd = some conn) (socket : conn.channel.socket = fd) :
    (server.disconnect fd).connMap.lookup other =
      if other = fd then none else server.connMap.lookup other := by
  simp only [disconnect, found, updateForDelete, socket, remove_lookup,
    UnorderedMap.lookup_modify]
  by_cases same : other = fd <;> simp [same]

/-- The chain behind a CLOSABLE event: one removal, one `close`. -/
theorem disconnect_remove (server : TcpServer) {fd : Fd} {conn : TcpConnection}
    (found : server.connMap.lookup fd = some conn) (sockfd : conn.sockfd = fd)
    (socket : conn.channel.socket = fd) :
    (∀ other, ((server.disconnect fd).removeConnection fd).connMap.lookup other =
      if other = fd then none else server.connMap.lookup other) ∧
    ((server.disconnect fd).removeConnection fd).closed = server.closed ++ [fd] := by
  have left : ∀ other, (server.disconnect fd).connMap.lookup other =
      if other = fd then none else server.connMap.lookup other :=
    fun other => server.disconnect_lookup other found socket
  have gone : (server.disconnect fd).connMap.lookup fd = none := by simp [left]
  rw [remove_absent _ fd gone]
  refine ⟨left, ?_⟩
  simp only [disconnect, found, updateForDelete, socket]
  rw [remove_closed _ fd _ (by rw [UnorderedMap.lookup_modify, if_pos rfl, found]; rfl)]
  simp [sockfd]

theorem send_in_loop_drained (conn : TcpConnection) (wrote : Option Nat)
    (drained : conn.sendBuffer.readableBytes = 0) : conn.sendInLoop wrote = .ok (conn, none) := by
  simp [TcpConnection.sendInLoop, drained]

theorem Settled.still {fd : Fd} {conn : TcpConnection} (settled : Settled fd conn) :
    Still fd conn :=
  ⟨settled.sockfd, settled.socket, fun wrote => send_in_loop_drained conn wrote settled.drained⟩

theorem Quiet.calm {server : TcpServer} (quiet : server.Quiet) : server.Calm :=
  fun fd conn found => (quiet fd conn found).still

theorem passes_not_removes (resp : Resp) (passes : resp.passes = true) : resp.removes = false := by
  simp only [Resp.passes, Bool.and_eq_true, Bool.not_eq_true'] at passes
  simp [Resp.removes, passes.2]

/-- What one event does to a calm server. -/
structure Handled (server : TcpServer) (resp : Resp) (next : TcpServer) (picked : List Fd) :
    Prop where
  picked : picked = if resp.fd ∈ server.connMap ∧ resp.passes = true then [resp.fd] else []
  lookup : ∀ fd, next.connMap.lookup fd =
    if fd = resp.fd ∧ resp.removes = true then none else server.connMap.lookup fd
  closed : next.closed = server.closed ++
    if resp.fd ∈ server.connMap ∧ resp.removes = true then [resp.fd] else []

/-- An event adds no entry and changes none. -/
theorem handled_keeps {holds : Fd → TcpConnection → Prop} {server next : TcpServer} {resp : Resp}
    {picked : List Fd}
    (all : ∀ fd conn, server.connMap.lookup fd = some conn → holds fd conn)
    (handled : Handled server resp next picked) :
    ∀ fd conn, next.connMap.lookup fd = some conn → holds fd conn := by
  intro fd conn found
  rw [handled.lookup] at found
  split at found
  · cases found
  · exact all fd conn found

theorem handle_absent (server : TcpServer) (wrote : Fd → Option Nat) (resp : Resp)
    (found : server.connMap.lookup resp.fd = none) :
    server.handleResp wrote resp = .ok (server, []) ∧ Handled server resp server [] := by
  have absent : resp.fd ∉ server.connMap := AList.lookup_eq_none.mp found
  refine ⟨by simp [handleResp, found], by simp [absent], ?_, by simp [absent]⟩
  intro fd
  by_cases same : fd = resp.fd
  · subst same; simp [found]
  · simp [same]

theorem handle_passes (server : TcpServer) (wrote : Fd → Option Nat) (resp : Resp)
    (present : resp.fd ∈ server.connMap) (passes : resp.passes = true) :
    server.handleResp wrote resp = .ok (server, [resp.fd]) ∧
      Handled server resp server [resp.fd] := by
  obtain ⟨conn, found⟩ := UnorderedMap.lookup_of_mem present
  have keeps := passes_not_removes resp passes
  refine ⟨?_, by simp [present, passes], by simp [keeps], by simp [keeps]⟩
  rw [Resp.passes] at passes
  simp [handleResp, found, passes]

theorem handle_writes (server : TcpServer) (wrote : Fd → Option Nat) (resp : Resp)
    {conn : TcpConnection} (found : server.connMap.lookup resp.fd = some conn)
    (inert : conn.sendInLoop (wrote resp.fd) = .ok (conn, none))
    (stays : resp.passes = false) (writes : resp.isWritable = true) :
    ∃ next, server.handleResp wrote resp = .ok (next, []) ∧ Handled server resp next [] := by
  have keeps : resp.removes = false := by simp [Resp.removes, writes]
  refine ⟨{ server with connMap := server.connMap.modify resp.fd fun _ => conn }, ?_,
    by simp [stays], ?_, by simp [keeps]⟩
  · rw [Resp.passes] at stays
    simp [handleResp, found, stays, writes, inert]
  · intro fd
    by_cases same : fd = resp.fd
    · subst same; simp [UnorderedMap.lookup_modify, keeps, found]
    · simp [UnorderedMap.lookup_modify, same]

theorem handle_closes (server : TcpServer) (wrote : Fd → Option Nat) (resp : Resp)
    {conn : TcpConnection} (found : server.connMap.lookup resp.fd = some conn)
    (still : Still resp.fd conn)
    (stays : resp.passes = false) (removes : resp.removes = true) :
    ∃ next, server.handleResp wrote resp = .ok (next, []) ∧ Handled server resp next [] := by
  have present : resp.fd ∈ server.connMap := UnorderedMap.mem_of_lookup found
  have chain := disconnect_remove server found still.sockfd still.socket
  refine ⟨(server.disconnect resp.fd).removeConnection resp.fd, ?_, by simp [stays],
    by simpa [removes] using chain.1, by simpa [present, removes] using chain.2⟩
  simp only [Resp.removes, Bool.and_eq_true, Bool.not_eq_true'] at removes
  simp [handleResp, found, removes.1, removes.2]

theorem handle_idle (server : TcpServer) (wrote : Fd → Option Nat) (resp : Resp)
    (conn : TcpConnection) (found : server.connMap.lookup resp.fd = some conn)
    (stays : resp.passes = false) (still : resp.isWritable = false)
    (keeps : resp.removes = false) :
    server.handleResp wrote resp = .ok (server, []) ∧ Handled server resp server [] := by
  have staysOpen : resp.isClosable = false := by simpa [Resp.removes, still] using keeps
  have idle : resp.isReadable = false := by simpa [Resp.passes, staysOpen] using stays
  refine ⟨by simp [handleResp, found, idle, still, staysOpen], by simp [stays],
    by simp [keeps], by simp [keeps]⟩

theorem handle_resp_calm (server : TcpServer) (calm : server.Calm) (wrote : Fd → Option Nat)
    (resp : Resp) :
    ∃ next picked, server.handleResp wrote resp = .ok (next, picked) ∧
      Handled server resp next picked := by
  cases found : server.connMap.lookup resp.fd with
  | none => exact ⟨server, [], handle_absent server wrote resp found⟩
  | some conn =>
      have still := calm resp.fd conn found
      cases passes : resp.passes with
      | true =>
          have present := UnorderedMap.mem_of_lookup found
          exact ⟨server, [resp.fd], handle_passes server wrote resp present passes⟩
      | false =>
          cases writes : resp.isWritable with
          | true =>
              obtain ⟨next, handled⟩ :=
                handle_writes server wrote resp found (still.inert _) passes writes
              exact ⟨next, [], handled⟩
          | false =>
              cases removes : resp.removes with
              | true =>
                  obtain ⟨next, handled⟩ :=
                    handle_closes server wrote resp found still passes removes
                  exact ⟨next, [], handled⟩
              | false =>
                  exact ⟨server, [],
                    handle_idle server wrote resp conn found passes writes removes⟩

/-- Some event of the batch removes the connection on `fd`. -/
def Removed (resps : List Resp) (fd : Fd) : Prop :=
  ∃ resp ∈ resps, resp.fd = fd ∧ resp.removes = true

instance (resps : List Resp) (fd : Fd) : Decidable (Removed resps fd) := by
  unfold Removed
  infer_instance

/-- What one batch does to a calm server. -/
structure Swept (server : TcpServer) (resps : List Resp) (next : TcpServer) (sockes : List Fd) :
    Prop where
  lookup : ∀ fd, next.connMap.lookup fd =
    if Removed resps fd then none else server.connMap.lookup fd
  closed : ∀ fd, fd ∈ next.closed ↔
    fd ∈ server.closed ∨ (fd ∈ server.connMap ∧ Removed resps fd)
  sound : ∀ fd ∈ sockes, fd ∈ server.connMap ∧ ∃ resp ∈ resps, resp.fd = fd ∧ resp.passes = true
  complete : ∀ resp ∈ resps, resp.passes = true → resp.fd ∈ next.connMap → resp.fd ∈ sockes

theorem removed_cons (resp : Resp) (rest : List Resp) (fd : Fd) :
    Removed (resp :: rest) fd ↔ (fd = resp.fd ∧ resp.removes = true) ∨ Removed rest fd := by
  simp only [Removed, List.exists_mem_cons_iff, @eq_comm _ fd]

theorem mem_of_handled {server next : TcpServer} {resp : Resp} {picked : List Fd}
    (handled : Handled server resp next picked) (fd : Fd) :
    fd ∈ next.connMap ↔ fd ∈ server.connMap ∧ ¬ (fd = resp.fd ∧ resp.removes = true) := by
  rw [← AList.lookup_isSome, handled.lookup, ← AList.lookup_isSome]
  split
  · next gone => simp [gone]
  · next kept => simp [kept]

/-- On a calm server the batch handler returns. -/
theorem update_for_wait_calm (wrote : Fd → Option Nat) (server : TcpServer)
    (calm : server.Calm) (resps : List Resp) :
    ∃ next sockes, updateForWait wrote server resps = .ok (next, sockes) ∧
      Swept server resps next sockes := by
  induction resps generalizing server with
  | nil =>
      refine ⟨server, [], rfl, ?_, ?_, ?_, ?_⟩ <;> simp [Removed]
  | cons resp rest ih =>
      obtain ⟨middle, picked, first, handled⟩ := handle_resp_calm server calm wrote resp
      obtain ⟨next, more, later, swept⟩ := ih middle (handled_keeps calm handled)
      refine ⟨next, picked ++ more, by simp [updateForWait, first, later], ?_, ?_, ?_, ?_⟩
      · intro fd
        rw [swept.lookup, handled.lookup]
        simp only [removed_cons]
        by_cases here : fd = resp.fd ∧ resp.removes = true <;> simp [here]
      · intro fd
        rw [swept.closed, handled.closed, mem_of_handled handled, removed_cons]
        by_cases here : resp.fd ∈ server.connMap ∧ resp.removes = true
        · simp only [here, and_self, ↓reduceIte, List.mem_append, List.mem_singleton, and_true]
          by_cases same : fd = resp.fd
          · subst same; simp [here.1]
          · simp [same]
        · simp only [here, ↓reduceIte, List.append_nil]
          by_cases same : fd = resp.fd
          · subst same
            by_cases present : resp.fd ∈ server.connMap
            · simp [present, show resp.removes ≠ true from fun removes => here ⟨present, removes⟩]
            · simp [present]
          · simp [same]
      · intro fd member
        rcases List.mem_append.mp member with now | later
        · rw [handled.picked] at now
          split at now
          · next both =>
              rw [List.mem_singleton] at now
              subst now
              exact ⟨both.1, resp, List.mem_cons_self, rfl, both.2⟩
          · cases now
        · obtain ⟨present, source, listed, names, passes⟩ := swept.sound fd later
          exact ⟨((mem_of_handled handled fd).mp present).1, source,
            List.mem_cons_of_mem resp listed, names, passes⟩
      · intro source listed passes present
        rcases List.mem_cons.mp listed with same | later
        · subst source
          have there : resp.fd ∈ server.connMap := by
            rw [← AList.lookup_isSome, swept.lookup, handled.lookup] at present
            rw [← AList.lookup_isSome]
            split at present
            · cases present
            · split at present
              · cases present
              · exact present
          apply List.mem_append_left
          simp [handled.picked, there, passes]
        · exact List.mem_append_right picked (swept.complete source later passes present)

theorem swept_keeps {holds : Fd → TcpConnection → Prop} {server next : TcpServer}
    {resps : List Resp} {sockes : List Fd}
    (all : ∀ fd conn, server.connMap.lookup fd = some conn → holds fd conn)
    (swept : Swept server resps next sockes) :
    ∀ fd conn, next.connMap.lookup fd = some conn → holds fd conn := by
  intro fd conn found
  rw [swept.lookup] at found
  split at found
  · cases found
  · exact all fd conn found

/-- A quiet server stays quiet. -/
theorem update_for_wait_quiet (wrote : Fd → Option Nat) (server : TcpServer)
    (quiet : server.Quiet) (resps : List Resp) :
    ∃ next sockes, updateForWait wrote server resps = .ok (next, sockes) ∧
      next.Quiet ∧ Swept server resps next sockes := by
  obtain ⟨next, sockes, returned, swept⟩ := update_for_wait_calm wrote server quiet.calm resps
  exact ⟨next, sockes, returned, swept_keeps quiet swept, swept⟩

end TcpServer
end RProxy
