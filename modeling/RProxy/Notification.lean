import RProxy.DepthFirst
import RProxy.LoadBalancer
import RProxy.TcpServer

/-!
`PubSubCenter::notifySubscriber` over `TcpServer`s and `LoadBalancer`s, which all
get the same context object, and with the notifications that their handlers
make in turn: DMPDELETE where a channel leaves, BALANCE after a batch of events.
-/

namespace RProxy.Notification

inductive Party (Server Loader : Type) where
  | server (id : Server)
  | loader (id : Loader)
  deriving DecidableEq

/-- A `TcpServer` and the `dmp_ptr_` of the channels in its table. A pointer is
the id under which the `Demultiplex` publishes, a null one is `none`. -/
structure Member where
  tcp : TcpServer
  pubID : UInt16
  dmp : Fd → Option UInt16

structure World (Server Loader : Type) where
  members : Server → Member
  loaders : Loader → LoadBalancer
  center : PubSubCenter Unit (Party Server Loader)

/-- The object behind the `shared_ptr<Context>`. -/
inductive Shared where
  | accepted
  | dmpRegister (ctx : DmpRegisterContext) (dmp : Option UInt16)
  | dmpModify (ctx : DmpModifyContext)
  | dmpDelete (fd : Fd)
  | dmpWait (resps : List Resp)
  | forward (sockToBackend : UnorderedMap Fd InetAddr)
  | balance (sockes : List Fd)

/-- What the publishers hand to `notifySubscriber`. `epoll_wait` does not report
a descriptor twice. -/
inductive Publication where
  | accepted
  | dmpRegister (fd : Fd)
  | dmpModify (ctx : DmpModifyContext)
  | dmpDelete (fd : Fd)
  | dmpWait (resps : List Resp) (distinct : (resps.map Resp.fd).Nodup)
  | forward (sockToBackend : UnorderedMap Fd InetAddr)
  | balance (sockes : List Fd)

namespace Publication

def type : Publication → PubType
  | .accepted => .accepted
  | .dmpRegister _ => .dmpRegister
  | .dmpModify _ => .dmpModify
  | .dmpDelete _ => .dmpDelete
  | .dmpWait _ _ => .dmpWait
  | .forward _ => .forward
  | .balance _ => .balance

/-- `demultiplexRegister` puts a pointer to itself into its context. -/
def context (id : UInt16) : Publication → Shared
  | .accepted => .accepted
  | .dmpRegister fd => .dmpRegister ⟨fd, Demultiplex.defaultEvents⟩ (some id)
  | .dmpModify ctx => .dmpModify ctx
  | .dmpDelete fd => .dmpDelete fd
  | .dmpWait resps _ => .dmpWait resps
  | .forward sockToBackend => .forward sockToBackend
  | .balance sockes => .balance sockes

end Publication

/-- What `getpeername` and the `write` of pending bytes return. -/
structure Answers (Server : Type) where
  peer : Server → Fd → InetAddr
  wrote : Server → Fd → Option Nat

/-- The subscribers of each event, in the order in which a notification visits
them. -/
abbrev Visits (Server Loader : Type) := UInt16 → PubType → List (Party Server Loader)

section Handlers

variable {Server Loader : Type}

def serversOf (parties : List (Party Server Loader)) : List Server :=
  parties.filterMap fun party =>
    match party with
    | .server id => some id
    | .loader _ => none

theorem servers_of_append (parties rest : List (Party Server Loader)) :
    serversOf (parties ++ rest) = serversOf parties ++ serversOf rest :=
  List.filterMap_append

namespace World

variable (world : World Server Loader)

def lookup (id : Server) (fd : Fd) : Option TcpConnection :=
  (world.members id).tcp.connMap.lookup fd

def setTcp [DecidableEq Server] (id : Server) (tcp : TcpServer) : World Server Loader :=
  { world with
    members := Function.update world.members id { world.members id with tcp := tcp } }

/-- The entry goes, and its connection with it. -/
def remove [DecidableEq Server] (id : Server) (fd : Fd) : World Server Loader :=
  world.setTcp id ((world.members id).tcp.removeConnection fd)

/-- The servers with an entry for `fd`. -/
def holders [Fintype Server] (fd : Fd) : Finset Server :=
  Finset.univ.filter fun id => fd ∈ (world.members id).tcp.connMap

theorem mem_holders [Fintype Server] (fd : Fd) (id : Server) :
    id ∈ world.holders fd ↔ (world.lookup id fd).isSome = true := by
  rw [holders, Finset.mem_filter, lookup, AList.lookup_isSome]
  exact ⟨And.right, fun present => ⟨Finset.mem_univ id, present⟩⟩

theorem mem_holders_of [Fintype Server] {world : World Server Loader} {fd : Fd} {id : Server}
    {conn : TcpConnection} (found : world.lookup id fd = some conn) : id ∈ world.holders fd := by
  rw [mem_holders, found]
  rfl

variable [DecidableEq Server]

theorem members_set_tcp (id other : Server) (tcp : TcpServer) :
    (world.setTcp id tcp).members other =
      if other = id then { world.members id with tcp := tcp } else world.members other :=
  Function.update_apply _ _ _ _

theorem lookup_remove (id other : Server) (fd key : Fd) :
    (world.remove id fd).lookup other key =
      if other = id ∧ key = fd then none else world.lookup other key := by
  simp only [lookup, remove, members_set_tcp]
  by_cases same : other = id
  · subst same
    rw [if_pos rfl, TcpServer.remove_lookup]
    simp
  · rw [if_neg same, if_neg fun both => same both.1]

theorem holders_remove [Fintype Server] (id : Server) (fd : Fd) :
    (world.remove id fd).holders fd = (world.holders fd).erase id := by
  ext other
  rw [mem_holders, Finset.mem_erase, mem_holders, lookup_remove]
  by_cases same : other = id <;> simp [same]

end World

variable [DecidableEq Server]

/-- DMPDELETE for `fd` reaches the parties of the list, the innermost
notification first: `removeConnection` erases the entry before the channel's
destructor leaves, and that notifies again. -/
def deleteAll [Fintype Server] (visits : Visits Server Loader) (fd : Fd) :
    List (Party Server Loader) → World Server Loader → Except Fault (World Server Loader)
  | [], world => .ok world
  | .loader _ :: rest, world => deleteAll visits fd rest world
  | .server id :: rest, world =>
      match _ : world.lookup id fd with
      | none => deleteAll visits fd rest world
      | some conn =>
          if conn.channel.leave = true then deleteAll visits fd rest (world.remove id fd)
          else
            match (world.members id).dmp fd with
            | none => .error .undefined
            -- `socket_` of a channel is the key of its entry
            | some dmp =>
                deleteAll visits fd (visits dmp .dmpDelete ++ rest) (world.remove id fd)
termination_by pending world => ((world.holders fd).card, pending.length)
decreasing_by
  · exact Prod.Lex.right _ (Nat.lt_succ_self _)
  · exact Prod.Lex.right _ (Nat.lt_succ_self _)
  all_goals
    rw [World.holders_remove]
    refine Prod.Lex.left _ _ (Finset.card_erase_lt_of_mem ?_)
    rw [World.mem_holders, ‹world.lookup id fd = some _›]
    rfl

section Equations

variable [Fintype Server] (visits : Visits Server Loader) {fd : Fd} {id : Server}
  (rest : List (Party Server Loader)) {world : World Server Loader}

theorem delete_all_absent (absent : world.lookup id fd = none) :
    deleteAll visits fd (.server id :: rest) world = deleteAll visits fd rest world := by
  rw [deleteAll]
  split
  · rfl
  · next found =>
      rw [absent] at found
      cases found

theorem delete_all_found {conn : TcpConnection} (found : world.lookup id fd = some conn) :
    deleteAll visits fd (.server id :: rest) world =
      if conn.channel.leave = true then deleteAll visits fd rest (world.remove id fd)
      else
        match (world.members id).dmp fd with
        | none => .error .undefined
        | some dmp => deleteAll visits fd (visits dmp .dmpDelete ++ rest) (world.remove id fd) := by
  rw [deleteAll]
  split
  · next absent =>
      rw [absent] at found
      cases found
  · next other there =>
      rw [there] at found
      cases found
      rfl

end Equations

namespace World

variable (world : World Server Loader)

/-- The first half of `disconnect`, before the notification of `leave()`. -/
def leaving (id : Server) (fd : Fd) : World Server Loader :=
  let tcp := (world.members id).tcp
  world.setTcp id { tcp with
    connMap := tcp.connMap.modify fd fun conn =>
      { conn with state := .disconnect, channel := { conn.channel with leave := true } } }

/-- `updateForLoadbalance`, which takes the sockets out of the context. -/
def queue [DecidableEq Loader] (id : Loader) (sockes : List Fd) : World Server Loader :=
  { world with
    loaders := Function.update world.loaders id
      ((world.loaders id).updateForLoadbalance sockes) }

/-- A connection for a descriptor that is not in the table. -/
def enrol (id : Server) (ctx : DmpRegisterContext) (dmp : Option UInt16) (peer : InetAddr) :
    World Server Loader :=
  let member := world.members id
  let (tcp, center) := member.tcp.updateForRegister world.center ctx peer
  { world with
    members := Function.update world.members id
      { member with tcp := tcp, dmp := Function.update member.dmp ctx.fd dmp }
    center := center }

/-- A connection that `emplace` does not take closes its descriptor. -/
def refuse (id : Server) (ctx : DmpRegisterContext) (peer : InetAddr) : World Server Loader :=
  let tcp := (world.members id).tcp
  { world.setTcp id { tcp with closed := tcp.closed ++ [ctx.fd] } with
    center := world.center.account peer.toString 0 }

end World

/-- `channel`, the local, leaves last. A null pointer is called through there. -/
def updateForRegister [Fintype Server] (visits : Visits Server Loader) (id : Server)
    (ctx : DmpRegisterContext) (dmp : Option UInt16) (peer : InetAddr)
    (world : World Server Loader) : Except Fault (World Server Loader) :=
  if ctx.fd ∈ (world.members id).tcp.connMap then
    match dmp with
    | none => .error .undefined
    | some dmp => deleteAll visits ctx.fd (visits dmp .dmpDelete) (world.refuse id ctx peer)
  else .ok (world.enrol id ctx dmp peer)

/-- `disconnect()` and `removeConnection` -/
def disconnect [Fintype Server] (visits : Visits Server Loader) (id : Server) (fd : Fd)
    (world : World Server Loader) : Except Fault (World Server Loader) :=
  match (world.members id).dmp fd with
  | none => .error .undefined
  | some dmp =>
      match deleteAll visits fd (visits dmp .dmpDelete) (world.leaving id fd) with
      | .error fault => .error fault
      | .ok world => .ok (world.remove id fd)

/-- The body of the loop of `updateForWait`. An event that removes has no bits
that come first. -/
def handleResp [Fintype Server] (visits : Visits Server Loader) (wrote : Fd → Option Nat)
    (id : Server) (world : World Server Loader) (resp : Resp) :
    Except Fault (World Server Loader × List Fd) :=
  if resp.fd ∈ (world.members id).tcp.connMap ∧ resp.removes = true then
    match disconnect visits id resp.fd world with
    | .error fault => .error fault
    | .ok world => .ok (world, [])
  else
    match (world.members id).tcp.handleResp wrote resp with
    | .error fault => .error fault
    | .ok (tcp, picked) => .ok (world.setTcp id tcp, picked)

def handleAll [Fintype Server] (visits : Visits Server Loader) (wrote : Fd → Option Nat)
    (id : Server) : World Server Loader → List Resp → Except Fault (World Server Loader × List Fd)
  | world, [] => .ok (world, [])
  | world, resp :: rest =>
      match handleResp visits wrote id world resp with
      | .error fault => .error fault
      | .ok (world, picked) =>
          match handleAll visits wrote id world rest with
          | .error fault => .error fault
          | .ok (world, more) => .ok (world, picked ++ more)

/-- The BALANCE notification of one batch. A `TcpServer` passes it over. -/
def balanceAll [DecidableEq Loader] : List (Party Server Loader) → List Fd →
    World Server Loader → World Server Loader
  | [], _, world => world
  | .server _ :: rest, sockes, world => balanceAll rest sockes world
  | .loader id :: rest, sockes, world => balanceAll rest [] (world.queue id sockes)

def updateForWait [Fintype Server] [DecidableEq Loader] (visits : Visits Server Loader)
    (wrote : Fd → Option Nat) (id : Server) (resps : List Resp) (world : World Server Loader) :
    Except Fault (World Server Loader) :=
  match handleAll visits wrote id world resps with
  | .error fault => .error fault
  | .ok (next, sockes) =>
      .ok (balanceAll (visits (next.members id).pubID .balance) sockes next)

/-- `TcpServer::update`, and what it leaves of the context. -/
def updateServer [Fintype Server] [DecidableEq Loader] (visits : Visits Server Loader)
    (answers : Answers Server) (id : Server) (shared : Shared) (world : World Server Loader) :
    Except Fault (World Server Loader × Shared) :=
  match shared with
  | .dmpRegister ctx dmp =>
      -- `dmp_ctx->dmp_ptr_.reset()`
      (updateForRegister visits id ctx dmp (answers.peer id ctx.fd) world).map
        fun world => (world, .dmpRegister ctx none)
  | .dmpModify ctx =>
      ((world.members id).tcp.updateForModify ctx).map
        fun tcp => (world.setTcp id tcp, .dmpModify ctx)
  | .dmpDelete fd =>
      (deleteAll visits fd [.server id] world).map fun world => (world, .dmpDelete fd)
  | .dmpWait resps =>
      (updateForWait visits (answers.wrote id) id resps world).map
        fun world => (world, .dmpWait resps)
  | shared => .ok (world, shared)

/-- `LoadBalancer::update` -/
def updateLoader [DecidableEq Loader] (id : Loader) (shared : Shared)
    (world : World Server Loader) : World Server Loader × Shared :=
  match shared with
  | .balance sockes => (world.queue id sockes, .balance [])
  | shared => (world, shared)

/-- The loop of `notifySubscriber`, with one context for all. -/
def notifyAll [Fintype Server] [DecidableEq Loader] (visits : Visits Server Loader)
    (answers : Answers Server) : List (Party Server Loader) → Shared → World Server Loader →
      Except Fault (World Server Loader)
  | [], _, world => .ok world
  | .server id :: rest, shared, world =>
      match updateServer visits answers id shared world with
      | .error fault => .error fault
      | .ok (world, shared) => notifyAll visits answers rest shared world
  | .loader id :: rest, shared, world =>
      let (world, shared) := updateLoader id shared world
      notifyAll visits answers rest shared world

end Handlers
end RProxy.Notification
