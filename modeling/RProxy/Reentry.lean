import RProxy.Machine
import RProxy.TcpServer

/-!
`TcpServer` with its re-entrance: `Channel::leave` notifies the server out of
`disconnect` and out of a destructor, while `mx_` may be held. Connections are
named in the order of their creation; `left` and `destroyed` list the calls of
`Channel::leave` and of `~TcpConnection`.
-/

namespace RProxy.Reentry

structure Server extends TcpServer where
  mx : Bool
  names : Fd → Nat
  created : Nat
  left : List Nat
  destroyed : List Nat

def Server.start : Server where
  connMap := ∅
  totalConn := 0
  closed := []
  mx := false
  names _ := 0
  created := 0
  left := []
  destroyed := []

inductive Action where
  | register (fd : Fd) (peer : InetAddr)
  | modify (ctx : DmpModifyContext)
  | wait (resps : List Resp) (wrote : Fd → Option Nat)

/-- What a DMPDELETE notification for a descriptor runs. -/
abbrev Notified := Server → Fd → Except Fault Server

namespace Server

variable (server : Server)

/-- `mx_` is not recursive. -/
def lock : Except Fault Server :=
  if server.mx then .error .deadlock else .ok { server with mx := true }

def unlock : Server := { server with mx := false }

/-- `Channel::leave`. `demultiplexRemove` notifies first; the `epoll_ctl` after
that changes nothing here. -/
def leave (notified : Notified) (name : Nat) (socket : Fd) : Except Fault Server :=
  notified { server with left := server.left ++ [name] } socket

/-- `~Channel` -/
def destroyChannel (notified : Notified) (name : Nat) (channel : Channel) : Except Fault Server :=
  if channel.leave then .ok server else server.leave notified name channel.socket

/-- `~TcpConnection`, and then the channel it was the last owner of. -/
def destroyConnection (notified : Notified) (name : Nat) (conn : TcpConnection) :
    Except Fault Server :=
  destroyChannel { server with
    closed := server.closed ++ [conn.sockfd]
    destroyed := server.destroyed ++ [name] } notified name conn.channel

/-- `depth` bounds how deep the notifications nest. -/
def removeConnection : Nat → Notified
  | 0, _, _ => .error .undefined
  | depth + 1, server, sockfd =>
      match server.connMap.lookup sockfd with
      | none => .ok server
      | some conn => do
          let locked ← lock { server with totalConn := server.totalConn - 1 }
          -- the node leaves the table before it is destroyed
          let erased ← destroyConnection { locked with connMap := locked.connMap.erase sockfd }
            (removeConnection depth) (locked.names sockfd) conn
          return erased.unlock

/-- Each nested removal has an entry less to find. -/
def updateForDelete (fd : Fd) : Except Fault Server :=
  removeConnection (server.connMap.entries.length + 1) server fd

/-- `tcp_conn->disconnect()` -/
def disconnect (fd : Fd) : Except Fault Server :=
  match server.connMap.lookup fd with
  | none => .ok server
  | some conn =>
      leave { server with
        connMap := server.connMap.modify fd fun conn =>
          { conn with
            state := .disconnect
            channel := { conn.channel with leave := true } } }
        updateForDelete (server.names fd) conn.channel.socket

def updateForRegister (ctx : DmpRegisterContext) (peer : InetAddr) : Except Fault Server := do
  let conn := TcpConnection.new ⟨false, ctx.fd⟩ (.dmpRegister ctx) peer
  let name := server.created
  let locked ← lock { server with created := name + 1 }
  if ctx.fd ∈ locked.connMap then
    -- the connection goes with the node that was not linked, and its channel,
    -- which the handler still has, after the guard has unlocked
    let refused := unlock { locked with
      closed := locked.closed ++ [ctx.fd]
      destroyed := locked.destroyed ++ [name] }
    destroyChannel refused updateForDelete name conn.channel
  else
    return unlock { locked with
      connMap := locked.connMap.emplace ctx.fd conn
      totalConn := locked.totalConn + 1
      names := Function.update locked.names ctx.fd name }

def updateForModify (ctx : DmpModifyContext) : Except Fault Server := do
  let table ← server.toTcpServer.updateForModify ctx
  return { server with toTcpServer := table }

/-- The body of the loop of `updateForWait`, with what it appends to `sockes`. -/
def handleResp (wrote : Fd → Option Nat) (resp : Resp) : Except Fault (Server × List Fd) := do
  -- the guard of the lookup goes before the connection is used
  let locked ← server.lock
  let server := locked.unlock
  match server.connMap.lookup resp.fd with
  | none => return (server, [])
  | some conn =>
      if resp.isReadable && !resp.isClosable then return (server, [resp.fd])
      else if resp.isWritable then
        let (conn, modify) ← conn.sendInLoop (wrote resp.fd)
        let server := { server with connMap := server.connMap.modify resp.fd fun _ => conn }
        match modify with
        | none => return (server, [])
        | some ctx =>
            let server ← server.updateForModify ctx
            return (server, [])
      else if resp.isClosable then
        let server ← server.disconnect resp.fd
        let server ← server.updateForDelete resp.fd
        return (server, [])
      else return (server, [])

def updateForWait (wrote : Fd → Option Nat) :
    Server → List Resp → Except Fault (Server × List Fd)
  | server, [] => return (server, [])
  | server, resp :: rest => do
      let (server, picked) ← server.handleResp wrote resp
      let (server, more) ← updateForWait wrote server rest
      return (server, picked ++ more)

/-- One call from outside, run to its end. -/
def call : Action → Except Fault Server
  | .register fd peer => server.updateForRegister ⟨fd, Demultiplex.defaultEvents⟩ peer
  | .modify ctx => server.updateForModify ctx
  | .wait resps wrote => do
      let (server, _) ← server.updateForWait wrote resps
      return server

def run : Server → List Action → Except Fault Server
  | server, [] => .ok server
  | server, action :: rest => do
      let server ← server.call action
      run server rest

end Server

/-- What the table is for: the descriptors that were registered and whose
connection has not been torn down by an event since. -/
def table : Machine (Finset Fd) Action where
  step live action :=
    match action with
    | .register fd _ => if fd ∈ live then none else some (insert fd live)
    | .modify _ => some live
    | .wait resps _ => some (live.filter fun fd => ¬ TcpServer.Removed resps fd)

/-- The table of the server has these descriptors. Every connection ever created
is either destroyed, once, or in the table, and has left if it is destroyed. -/
structure Coherent (live : Finset Fd) (server : Server) : Prop where
  keys : ∀ fd, fd ∈ server.connMap ↔ fd ∈ live
  quiet : server.toTcpServer.Quiet
  contexts : ∀ fd conn, server.connMap.lookup fd = some conn →
    ∃ ctx, conn.context = .dmpRegister ctx ∧ ctx.fd = fd
  total : server.totalConn = server.connMap.entries.length
  once : (server.destroyed ++ server.connMap.keys.map server.names).Perm
    (List.range server.created)
  left : server.left = server.destroyed
  free : server.mx = false

variable {server : Server} {live : Finset Fd}

namespace Server

theorem remove_absent (depth : Nat) {fd : Fd} (absent : server.connMap.lookup fd = none) :
    removeConnection (depth + 1) server fd = .ok server := by
  simp only [removeConnection, absent]

/-- A connection whose channel has left goes without another notification, and
`mx_` was free. -/
theorem remove_left (depth : Nat) {fd : Fd} {conn : TcpConnection}
    (found : server.connMap.lookup fd = some conn) (gone : conn.channel.leave = true)
    (free : server.mx = false) :
    removeConnection (depth + 1) server fd = .ok { server with
      toTcpServer := server.toTcpServer.removeConnection fd
      destroyed := server.destroyed ++ [server.names fd] } := by
  have removed : server.toTcpServer.removeConnection fd =
      { connMap := server.connMap.erase fd
        totalConn := server.totalConn - 1
        closed := server.closed ++ [conn.sockfd] } := by
    simp only [TcpServer.removeConnection, found]
  rw [removed]
  simp only [removeConnection, found, lock, free, Bool.false_eq_true, ↓reduceIte, bind,
    Except.bind, destroyConnection, destroyChannel, gone, unlock]
  rfl

/-- The server once the connection on `fd` has disconnected. -/
def dropped (server : Server) (fd : Fd) : Server :=
  { server with
    toTcpServer := server.toTcpServer.disconnect fd
    left := server.left ++ [server.names fd]
    destroyed := server.destroyed ++ [server.names fd] }

end Server

theorem leaving_lookup {fd : Fd} {conn : TcpConnection}
    (found : server.connMap.lookup fd = some conn) (change : TcpConnection → TcpConnection) :
    (server.connMap.modify fd change).lookup fd = some (change conn) := by
  rw [UnorderedMap.lookup_modify, if_pos rfl, found, Option.map_some]

theorem disconnect_dropped (coherent : Coherent live server) {fd : Fd} {conn : TcpConnection}
    (found : server.connMap.lookup fd = some conn) :
    server.disconnect fd = .ok (server.dropped fd) := by
  have socket := (coherent.quiet fd conn found).socket
  simp only [Server.disconnect, found, Server.leave, Server.updateForDelete, socket]
  refine (Server.remove_left _ (leaving_lookup found _) rfl ?_).trans ?_
  · exact coherent.free
  · simp only [Server.dropped, TcpServer.disconnect, found, TcpServer.updateForDelete, socket]

theorem remove_keys {table : TcpServer} {fd : Fd} (present : fd ∈ table.connMap) :
    (table.removeConnection fd).connMap.keys = table.connMap.keys.erase fd ∧
      (table.removeConnection fd).totalConn = table.totalConn - 1 := by
  obtain ⟨conn, found⟩ := UnorderedMap.lookup_of_mem present
  simp [TcpServer.removeConnection, found]

theorem dropped_keys {fd : Fd} {conn : TcpConnection} (quiet : server.toTcpServer.Quiet)
    (found : server.connMap.lookup fd = some conn) :
    (server.dropped fd).connMap.keys = server.connMap.keys.erase fd ∧
      (server.dropped fd).totalConn = server.totalConn - 1 := by
  simp only [Server.dropped, TcpServer.disconnect, found, TcpServer.updateForDelete,
    (quiet fd conn found).socket]
  refine ⟨(remove_keys ?_).1.trans ?_, (remove_keys ?_).2⟩
  · exact UnorderedMap.mem_of_lookup (leaving_lookup found _)
  · rw [UnorderedMap.keys_modify]
  · exact UnorderedMap.mem_of_lookup (leaving_lookup found _)

/-- A connection that is dropped moves from the table to the destroyed ones. -/
theorem dropped_coherent (coherent : Coherent live server) {fd : Fd} {conn : TcpConnection}
    (found : server.connMap.lookup fd = some conn) :
    Coherent (live.erase fd) (server.dropped fd) := by
  have lookup : ∀ other, (server.dropped fd).connMap.lookup other =
      if other = fd then none else server.connMap.lookup other :=
    fun other =>
      server.toTcpServer.disconnect_lookup other found (coherent.quiet fd conn found).socket
  obtain ⟨keys, total⟩ := dropped_keys coherent.quiet found
  have listed : fd ∈ server.connMap.keys := UnorderedMap.mem_of_lookup found
  constructor
  · intro other
    rw [← AList.lookup_isSome, lookup, Finset.mem_erase, ← coherent.keys, ← AList.lookup_isSome]
    by_cases same : other = fd <;> simp [same]
  · intro other kept present
    rw [lookup] at present
    split at present
    · cases present
    · exact coherent.quiet other kept present
  · intro other kept present
    rw [lookup] at present
    split at present
    · cases present
    · exact coherent.contexts other kept present
  · have counted := List.length_erase_add_one listed
    rw [total, coherent.total, ← UnorderedMap.length_keys, ← UnorderedMap.length_keys, keys]
    omega
  · show (server.destroyed ++ [server.names fd] ++ (server.dropped fd).connMap.keys.map
      server.names).Perm (List.range server.created)
    rw [keys, List.append_assoc]
    have moved := ((List.perm_cons_erase listed).map server.names).append_left server.destroyed
    exact moved.symm.trans coherent.once
  · show server.left ++ [_] = server.destroyed ++ [_]
    rw [coherent.left]
  · exact coherent.free

/-- Only the values of the table change, to others that suit their keys. -/
theorem Coherent.valued {next : TcpServer} (coherent : Coherent live server)
    (quiet : next.Quiet) (contexts : ∀ fd conn, next.connMap.lookup fd = some conn →
      ∃ ctx, conn.context = .dmpRegister ctx ∧ ctx.fd = fd)
    (keys : next.connMap.keys = server.connMap.keys) (total : next.totalConn = server.totalConn) :
    Coherent live { server with toTcpServer := next } := by
  constructor
  · intro fd
    show fd ∈ next.connMap.keys ↔ _
    rw [keys]
    exact coherent.keys fd
  · exact quiet
  · exact contexts
  · show next.totalConn = next.connMap.entries.length
    rw [total, coherent.total, ← UnorderedMap.length_keys, ← UnorderedMap.length_keys, keys]
  · show (server.destroyed ++ next.connMap.keys.map server.names).Perm _
    rw [keys]
    exact coherent.once
  · exact coherent.left
  · exact coherent.free

theorem Coherent.modified (coherent : Coherent live server) {fd : Fd} {conn : TcpConnection}
    (found : server.connMap.lookup fd = some conn) (change : TcpConnection → TcpConnection)
    (settled : TcpServer.Settled fd (change conn))
    (context : ∃ ctx, (change conn).context = .dmpRegister ctx ∧ ctx.fd = fd) :
    Coherent live { server with connMap := server.connMap.modify fd change } := by
  show Coherent live { server with
    toTcpServer := { server.toTcpServer with connMap := server.connMap.modify fd change } }
  apply coherent.valued
  · intro other kept present
    simp only [UnorderedMap.lookup_modify] at present
    split at present
    · next same =>
        subst same
        rw [found] at present
        cases present
        exact settled
    · exact coherent.quiet other kept present
  · intro other kept present
    simp only [UnorderedMap.lookup_modify] at present
    split at present
    · next same =>
        subst same
        rw [found] at present
        cases present
        exact context
    · exact coherent.contexts other kept present
  · exact UnorderedMap.keys_modify _ _ _
  · rfl

/-- The guard of the lookup comes and goes. -/
theorem lock_unlock (free : server.mx = false) :
    ∃ locked, server.lock = .ok locked ∧ locked.unlock = server := by
  refine ⟨{ server with mx := true }, ?_, ?_⟩
  · rw [Server.lock, free]
    rfl
  · rw [Server.unlock, ← free]

/-- The re-entrant handler does to the table what the handler of `TcpServer`
does, and finds `mx_` free wherever it locks. -/
theorem handle_resp_coherent (coherent : Coherent live server) (wrote : Fd → Option Nat)
    (resp : Resp) :
    ∃ next picked, server.handleResp wrote resp = .ok (next, picked) ∧
      server.toTcpServer.handleResp wrote resp = .ok (next.toTcpServer, picked) ∧
      Coherent (if resp.removes then live.erase resp.fd else live) next := by
  obtain ⟨locked, locks, unlocks⟩ := lock_unlock coherent.free
  simp only [Server.handleResp, TcpServer.handleResp, locks, unlocks, bind, Except.bind, pure,
    Except.pure]
  cases found : server.connMap.lookup resp.fd with
  | none =>
      have absent : resp.fd ∉ live := by
        rw [← coherent.keys]
        exact AList.lookup_eq_none.mp found
      refine ⟨server, [], rfl, rfl, ?_⟩
      rw [Finset.erase_eq_of_notMem absent, ite_self]
      exact coherent
  | some conn =>
      simp only
      split
      · next passes =>
          rw [TcpServer.passes_not_removes resp passes]
          exact ⟨server, [resp.fd], rfl, rfl, coherent⟩
      · split
        · next writes =>
            have stays : resp.removes = false := by simp [Resp.removes, writes]
            have drained := TcpServer.send_in_loop_drained conn (wrote resp.fd)
              (coherent.quiet resp.fd conn found).drained
            rw [drained, stays]
            exact ⟨_, [], rfl, rfl, coherent.modified found (fun _ => conn)
              (coherent.quiet resp.fd conn found) (coherent.contexts resp.fd conn found)⟩
        · next still =>
            split
            · next closes =>
                have removes : resp.removes = true := by simp [Resp.removes, closes, still]
                have gone : (server.toTcpServer.disconnect resp.fd).connMap.lookup resp.fd = none := by
                  have socket := (coherent.quiet resp.fd conn found).socket
                  rw [TcpServer.disconnect_lookup _ _ found socket, if_pos rfl]
                rw [disconnect_dropped coherent found, removes]
                refine ⟨server.dropped resp.fd, [], ?_, ?_, dropped_coherent coherent found⟩
                · simp only [Server.updateForDelete]
                  rw [Server.remove_absent _ gone]
                · rw [TcpServer.remove_absent _ _ gone]
                  rfl
            · next opened =>
                have stays : resp.removes = false := by simp [Resp.removes, opened]
                rw [stays]
                exact ⟨server, [], rfl, rfl, coherent⟩

theorem update_for_wait_coherent (wrote : Fd → Option Nat) (resps : List Resp)
    (coherent : Coherent live server) :
    ∃ next sockes, server.updateForWait wrote resps = .ok (next, sockes) ∧
      TcpServer.updateForWait wrote server.toTcpServer resps = .ok (next.toTcpServer, sockes) ∧
      Coherent (live.filter fun fd => ¬ TcpServer.Removed resps fd) next := by
  induction resps generalizing server live with
  | nil =>
      refine ⟨server, [], rfl, rfl, ?_⟩
      simpa [TcpServer.Removed] using coherent
  | cons resp rest ih =>
      obtain ⟨middle, picked, first, plain, kept⟩ := handle_resp_coherent coherent wrote resp
      obtain ⟨next, more, later, plainLater, left⟩ := ih kept
      refine ⟨next, picked ++ more, ?_, ?_, ?_⟩
      · simp only [Server.updateForWait, first, later, bind, Except.bind, pure, Except.pure]
      · simp only [TcpServer.updateForWait, plain, plainLater]
      · have same : (live.filter fun fd => ¬ TcpServer.Removed (resp :: rest) fd) =
            (if resp.removes then live.erase resp.fd else live).filter
              fun fd => ¬ TcpServer.Removed rest fd := by
          ext fd
          simp only [Finset.mem_filter, TcpServer.removed_cons, not_or, not_and]
          cases resp.removes <;> simp [Finset.mem_erase, and_assoc, and_left_comm]
        rw [same]
        exact left

/-- The server once the connection of a fresh `fd` is in the table. -/
def Server.enrolled (server : Server) (fd : Fd) (conn : TcpConnection) : Server :=
  { server with
    connMap := server.connMap.emplace fd conn
    totalConn := server.totalConn + 1
    names := Function.update server.names fd server.created
    created := server.created + 1 }

theorem register_enrolled (coherent : Coherent live server) {fd : Fd} (fresh : fd ∉ live)
    (events : Mask) (peer : InetAddr) :
    server.updateForRegister ⟨fd, events⟩ peer =
      .ok (server.enrolled fd (.new ⟨false, fd⟩ (.dmpRegister ⟨fd, events⟩) peer)) := by
  have absent : fd ∉ server.connMap := by
    rw [coherent.keys]
    exact fresh
  simp only [Server.updateForRegister, Server.lock, coherent.free, Bool.false_eq_true, ↓reduceIte,
    bind, Except.bind, absent, pure, Except.pure, Server.unlock, Server.enrolled]

/-- A new name takes the place of nobody's. -/
theorem names_enrolled (coherent : Coherent live server) {fd : Fd} (absent : fd ∉ server.connMap) :
    (server.destroyed ++ (fd :: server.connMap.keys).map
      (Function.update server.names fd server.created)).Perm (List.range (server.created + 1)) := by
  have others : server.connMap.keys.map (Function.update server.names fd server.created) =
      server.connMap.keys.map server.names := by
    apply List.map_congr_left
    intro other listed
    apply Function.update_of_ne
    rintro rfl
    exact absent listed
  rw [List.map_cons, Function.update_self, others, List.range_succ]
  exact List.perm_middle.trans ((coherent.once.cons server.created).trans
    (List.perm_append_singleton _ _).symm)

theorem enrolled_coherent (coherent : Coherent live server) {fd : Fd} (fresh : fd ∉ live)
    {conn : TcpConnection} (settled : TcpServer.Settled fd conn)
    (context : ∃ ctx, conn.context = .dmpRegister ctx ∧ ctx.fd = fd) :
    Coherent (insert fd live) (server.enrolled fd conn) := by
  have absent : fd ∉ server.connMap := by
    rw [coherent.keys]
    exact fresh
  have lookup : ∀ other, (server.enrolled fd conn).connMap.lookup other =
      if other = fd then some conn else server.connMap.lookup other :=
    fun other => UnorderedMap.lookup_emplace_fresh (AList.lookup_eq_none.mpr absent) other conn
  have keys : (server.enrolled fd conn).connMap.keys = fd :: server.connMap.keys :=
    UnorderedMap.keys_emplace absent conn
  constructor
  · intro other
    rw [Server.enrolled, UnorderedMap.mem_emplace, Finset.mem_insert, coherent.keys]
  · intro other kept found
    rw [lookup] at found
    split at found
    · next same =>
        cases found
        exact same ▸ settled
    · exact coherent.quiet other kept found
  · intro other kept found
    rw [lookup] at found
    split at found
    · next same =>
        cases found
        exact same ▸ context
    · exact coherent.contexts other kept found
  · have counted := congrArg List.length keys
    rw [List.length_cons, UnorderedMap.length_keys, UnorderedMap.length_keys] at counted
    rw [counted, Nat.cast_add, ← coherent.total]
    rfl
  · show (server.destroyed ++ (server.enrolled fd conn).connMap.keys.map
      (Function.update server.names fd server.created)).Perm (List.range (server.created + 1))
    rw [keys]
    exact names_enrolled coherent absent
  · exact coherent.left
  · exact coherent.free

theorem register_coherent (coherent : Coherent live server) {fd : Fd} (fresh : fd ∉ live)
    (events : Mask) (peer : InetAddr) :
    ∃ next, server.updateForRegister ⟨fd, events⟩ peer = .ok next ∧
      Coherent (insert fd live) next := by
  have settled : TcpServer.Settled fd
      (TcpConnection.new ⟨false, fd⟩ (.dmpRegister ⟨fd, events⟩) peer) :=
    ⟨rfl, rfl, ArrayBuffer.new_readable _⟩
  exact ⟨_, register_enrolled coherent fresh events peer,
    enrolled_coherent coherent fresh settled ⟨⟨fd, events⟩, rfl, rfl⟩⟩

theorem modify_coherent (coherent : Coherent live server) (ctx : DmpModifyContext) :
    ∃ next, server.updateForModify ctx = .ok next ∧ Coherent live next := by
  cases found : server.connMap.lookup ctx.fd with
  | none =>
      refine ⟨server, ?_, coherent⟩
      simp only [Server.updateForModify, TcpServer.updateForModify, found, bind, Except.bind]
      rfl
  | some conn =>
      obtain ⟨connCtx, context, own⟩ := coherent.contexts ctx.fd conn found
      have register : conn.context.toRegister = some connCtx := by
        rw [context]
        rfl
      have settled := coherent.quiet ctx.fd conn found
      refine ⟨_, by
        simp only [Server.updateForModify, TcpServer.updateForModify, found, register, own, ne_eq,
          not_true_eq_false, ↓reduceIte, bind, Except.bind, pure, Except.pure]
        rfl, ?_⟩
      exact coherent.modified found _ ⟨settled.sockfd, settled.socket, settled.drained⟩
        ⟨_, rfl, rfl⟩

theorem start_coherent : Coherent ∅ .start := by
  constructor
  · simp [Server.start]
  · intro fd conn found
    cases found
  · intro fd conn found
    cases found
  · rfl
  · rfl
  · rfl
  · rfl

theorem call_coherent {next : Finset Fd} {action : Action} (coherent : Coherent live server)
    (stepped : table.step live action = some next) :
    ∃ returned, server.call action = .ok returned ∧ Coherent next returned := by
  cases action with
  | register fd peer =>
      simp only [table] at stepped
      split at stepped
      · cases stepped
      · next fresh =>
          cases stepped
          exact register_coherent coherent fresh _ peer
  | modify ctx =>
      cases stepped
      exact modify_coherent coherent ctx
  | wait resps wrote =>
      cases stepped
      obtain ⟨returned, sockes, waits, _, kept⟩ := update_for_wait_coherent wrote resps coherent
      refine ⟨returned, ?_, kept⟩
      simp only [Server.call, waits, bind, Except.bind, pure, Except.pure]

theorem run_coherent {final : Finset Fd} (actions : List Action) (coherent : Coherent live server)
    (allowed : table.run live actions = some final) :
    ∃ returned, server.run actions = .ok returned ∧ Coherent final returned := by
  induction actions generalizing server live with
  | nil =>
      cases allowed
      exact ⟨server, rfl, coherent⟩
  | cons action rest ih =>
      rw [Machine.run_cons] at allowed
      obtain ⟨next, stepped, later⟩ := Option.bind_eq_some_iff.mp allowed
      obtain ⟨middle, called, kept⟩ := call_coherent coherent stepped
      obtain ⟨returned, ran, left⟩ := ih kept later
      refine ⟨returned, ?_, left⟩
      simp only [Server.run, called, bind, Except.bind]
      exact ran

/-- Every run that registers only descriptors that are not in the table returns,
never relocks `mx_`, and leaves a coherent table. -/
theorem connection_table_coherent (actions : List Action) (live : Finset Fd)
    (allowed : table.run ∅ actions = some live) :
    ∃ server, Server.start.run actions = .ok server ∧ Coherent live server :=
  run_coherent actions start_coherent allowed

/-- A client comes, closes, and another one gets its number. -/
def replaced : List Action :=
  [.register 5 ⟨['a'], 1⟩, .wait [⟨5, Demultiplex.epollRdHup⟩] fun _ => none,
    .register 5 ⟨['b'], 2⟩]

theorem replaced_coherent :
    ∃ server, Server.start.run replaced = .ok server ∧ Coherent {5} server :=
  connection_table_coherent replaced {5} (by decide +kernel)

end RProxy.Reentry
