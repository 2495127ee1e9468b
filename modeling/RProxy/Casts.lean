import RProxy.Pending

/-!
The `dynamic_pointer_cast`s between a connection, its channel, the demultiplexer
and the server, with the dynamic type of the context that reaches each of them.
-/

namespace RProxy.Casts

/-- Where a cast stands; `storedContext` is the one of `tcp_conn->context()`. -/
inductive Site where
  | send | sendInLoop | enableWrite | disableWrite | demultiplexModify | updateForModify
  | storedContext
  deriving DecidableEq

/-- A cast that was made, and whether its pointer is not null. -/
structure Cast where
  site : Site
  found : Bool
  deriving DecidableEq

structure State (Publisher Subscriber : Type) where
  server : TcpServer
  center : PubSubCenter Publisher Subscriber
  casts : List Cast

variable {Publisher Subscriber : Type}

def start (center : PubSubCenter Publisher Subscriber) : State Publisher Subscriber :=
  ⟨⟨∅, 0, []⟩, center, []⟩

def State.logged (state : State Publisher Subscriber) (site : Site) (found : Bool) :
    State Publisher Subscriber := { state with casts := state.casts ++ [⟨site, found⟩] }

abbrev Run (Publisher Subscriber : Type) := EStateM Fault (State Publisher Subscriber)

/-- The code writes through every pointer at once, a null one too. -/
def castTo {Target : Type} (target : Context → Option Target) (site : Site) (ctx : Context) :
    Run Publisher Subscriber Target := fun state =>
  match target ctx with
  | none => .error .undefined (state.logged site false)
  | some found => .ok found (state.logged site true)

/-- The assignment at the end is `TcpServer.updateForModify`. -/
def updateForModify (ctx : Context) : Run Publisher Subscriber Unit := do
  let dmp ← castTo Context.toModify .updateForModify ctx
  let state ← get
  match state.server.connMap.lookup dmp.fd with
  | none => pure ()
  | some conn =>
      let _ ← castTo Context.toRegister .storedContext conn.context
      match state.server.updateForModify dmp with
      | .error fault => throw fault
      | .ok server => modify fun state => { state with server := server }

/-- The callers ignore what `epoll_ctl` returns. -/
def demultiplexModify (ctx : Context) : Run Publisher Subscriber Unit := do
  let _ ← castTo Context.toModify .demultiplexModify ctx
  updateForModify ctx

def enableWrite (channel : Channel) (ctx : Context) : Run Publisher Subscriber Unit := do
  let dmp ← castTo Context.toModify .enableWrite ctx
  demultiplexModify (.dmpModify ⟨channel.socket, dmp.events ||| Demultiplex.writable⟩)

def disableWrite (channel : Channel) (ctx : Context) : Run Publisher Subscriber Unit := do
  let _ ← castTo Context.toModify .disableWrite ctx
  demultiplexModify (.dmpModify ⟨channel.socket, Demultiplex.defaultEvents⟩)

def store (fd : Fd) (conn : TcpConnection) : Run Publisher Subscriber Unit :=
  modify fun state => { state with server := state.server.store fd conn }

/-- After the cast, `send` is `Endpoint.send`, down to the call of `enableWrite`
with a `new DmpModifyContext`. -/
def send (fd : Fd) (conn : TcpConnection) (data : Region) (wrote : Option Nat) (granted : Bool) :
    Run Publisher Subscriber Unit := do
  if conn.state = .disconnect then pure ()
  else
    let _ ← castTo Context.toRegister .send conn.context
    match Endpoint.send ⟨conn, []⟩ data wrote granted with
    | .error fault next =>
        store fd next.conn
        throw fault
    | .ok none next => store fd next.conn
    | .ok (some _) next =>
        store fd next.conn
        enableWrite next.conn.channel (.dmpModify ⟨fd, 0#32⟩)

def sendInLoop (fd : Fd) (conn : TcpConnection) (wrote : Option Nat) :
    Run Publisher Subscriber Unit := do
  if conn.sendBuffer.readableBytes = 0 then pure ()
  else
    let ctx ← castTo Context.toRegister .sendInLoop conn.context
    if Demultiplex.has ctx.events Demultiplex.readable then
      let answer := WriteCall.answer ⟨conn.sendBuffer.content, wrote⟩
      if 0 < answer then
        match conn.sendBuffer.retrieve answer.toNat with
        | .error fault => throw fault
        | .ok buf =>
            store fd { conn with sendBuffer := buf }
            if buf.readableBytes = 0 then disableWrite conn.channel (.dmpRegister ctx)
            else pure ()
      else pure ()
    else pure ()

/-- The context is the one that the connection was registered with. -/
def shutdownWrite (conn : TcpConnection) : Run Publisher Subscriber Unit :=
  disableWrite conn.channel conn.context

inductive Action where
  | register (fd : Fd) (peer : InetAddr)
  | send (fd : Fd) (data : Region) (wrote : Option Nat) (granted : Bool)
  | sendInLoop (fd : Fd) (wrote : Option Nat)
  | shutdownWrite (fd : Fd)

/-- A call on the connection under `fd`, if there is one. -/
def State.calls (state : State Publisher Subscriber) (fd : Fd)
    (call : TcpConnection → Run Publisher Subscriber Unit) : Option (State Publisher Subscriber) :=
  (state.server.connMap.lookup fd).map fun conn => stateOf (call conn state)

/-- A write through a null pointer ends the process. -/
def casting : Machine (State Publisher Subscriber) Action where
  step state action :=
    if state.casts.any fun cast => !cast.found then none
    else
      match action with
      | .register fd peer =>
          let registered := state.server.updateForRegister state.center
            ⟨fd, Demultiplex.defaultEvents⟩ peer
          some { state with server := registered.1, center := registered.2 }
      | .send fd data wrote granted => state.calls fd fun conn => send fd conn data wrote granted
      | .sendInLoop fd wrote => state.calls fd fun conn => sendInLoop fd conn wrote
      | .shutdownWrite fd => state.calls fd shutdownWrite

def CastsFound (state : State Publisher Subscriber) : Prop :=
  ∀ cast ∈ state.casts, cast.found = true

/-- `shutdownWrite` is not called on a connection. -/
def Unshut (state : State Publisher Subscriber) : Action → Prop
  | .shutdownWrite fd => fd ∉ state.server.connMap
  | _ => True

structure Typed (state : State Publisher Subscriber) : Prop where
  muted : state.server.AllMuted
  found : CastsFound state

section Functions

variable {state : State Publisher Subscriber}

theorem cast_found {Target : Type} {target : Context → Option Target} {ctx : Context}
    {found : Target} (same : target ctx = some found) (site : Site) :
    castTo target site ctx state = .ok found (state.logged site true) := by
  rw [castTo, same]

theorem modify_found (dmp : DmpModifyContext) (site : Site) :
    castTo Context.toModify site (.dmpModify dmp) state = .ok dmp (state.logged site true) := rfl

theorem cast_null {Target : Type} {target : Context → Option Target} {ctx : Context}
    (null : target ctx = none) (site : Site) :
    castTo target site ctx state = .error .undefined (state.logged site false) := by
  rw [castTo, null]

theorem logged_found (found : CastsFound state) (site : Site) : CastsFound (state.logged site true) := by
  intro cast listed
  rcases List.mem_append.mp listed with earlier | here
  · exact found cast earlier
  · rw [List.mem_singleton] at here
    rw [here]

/-- With the entry of the table under its own descriptor, both casts of a
modification are found. -/
theorem demultiplex_modify_found {dmp : DmpModifyContext} {conn : TcpConnection}
    {ctx : DmpRegisterContext} {server : TcpServer} (found : CastsFound state)
    (listed : state.server.connMap.lookup dmp.fd = some conn)
    (registered : conn.context.toRegister = some ctx)
    (modified : state.server.updateForModify dmp = .ok server) :
    ∃ next, demultiplexModify (.dmpModify dmp) state = .ok () next ∧ next.server = server ∧
      CastsFound next := by
  have both : CastsFound ((state.logged .demultiplexModify true).logged .updateForModify true) :=
    logged_found (logged_found found _) _
  refine ⟨{ ((state.logged .demultiplexModify true).logged .updateForModify true).logged
    .storedContext true with server := server }, ?_, rfl, logged_found both .storedContext⟩
  rw [demultiplexModify, bind_of_ok (modify_found dmp _), updateForModify,
    bind_of_ok (modify_found dmp _), get_bind]
  simp only [State.logged, listed, modified]
  rw [bind_of_ok (cast_found registered _)]
  rfl

/-- `enableWrite` with a context that `send` has made. -/
theorem enable_write_typed (muted : state.server.AllMuted) (found : CastsFound state) {fd : Fd}
    {conn stored : TcpConnection} (listed : state.server.connMap.lookup fd = some stored)
    (attached : Attached fd conn)
    (context : conn.context = .dmpRegister ⟨fd, Demultiplex.defaultEvents⟩) :
    Typed (stateOf (enableWrite conn.channel (.dmpModify ⟨fd, 0#32⟩)
      { state with server := state.server.store fd conn })) := by
  obtain ⟨server, modified, allMuted⟩ := TcpServer.modify_muted muted listed attached context
  have there : (state.server.store fd conn).connMap.lookup fd = some conn := by
    rw [TcpServer.lookup_store, if_pos rfl, listed, Option.map_some]
  have registered : conn.context.toRegister = some ⟨fd, Demultiplex.defaultEvents⟩ := by
    rw [context]
    rfl
  have stored' : CastsFound ({ state with server := state.server.store fd conn } :
      State Publisher Subscriber) := found
  obtain ⟨next, returned, same, nextFound⟩ := demultiplex_modify_found
    (logged_found stored' .enableWrite) there registered modified
  have mask : (0#32 : Mask) ||| Demultiplex.writable = Demultiplex.writable := by decide
  rw [enableWrite, bind_of_ok (modify_found _ _), mask, attached.socket, returned]
  exact ⟨same ▸ allMuted, nextFound⟩

theorem store_typed (typed : Typed state) {fd : Fd} {conn : TcpConnection} (here : Muted fd conn) :
    Typed ({ state with server := state.server.store fd conn } : State Publisher Subscriber) :=
  ⟨TcpServer.store_muted typed.muted here, typed.found⟩

theorem send_typed (typed : Typed state) {fd : Fd} {conn : TcpConnection}
    (listed : state.server.connMap.lookup fd = some conn) (data : Region) (wrote : Option Nat)
    (granted : Bool) : Typed (stateOf (send fd conn data wrote granted state)) := by
  have muted := typed.muted fd conn listed
  have connected : conn.state ≠ .disconnect := by simp [muted.attached.connected]
  obtain ⟨events, registered⟩ := muted.casts.1
  have logged : Typed (state.logged .send true) := ⟨typed.muted, logged_found typed.found _⟩
  have sends := muted.send data wrote granted
  rw [send, if_neg connected, bind_of_ok (cast_found registered _)]
  cases ended : Endpoint.send ⟨conn, []⟩ data wrote granted with
  | error fault next =>
      rw [ended] at sends
      have same : next.conn = conn := sends
      have here : Muted fd next.conn := same ▸ muted
      exact store_typed logged here
  | ok modify next =>
      rw [ended] at sends
      cases modify with
      | none => exact store_typed logged sends
      | some ctx =>
          obtain ⟨-, attached, context⟩ := sends
          exact enable_write_typed logged.muted logged.found listed attached context

/-- The branch with `disableWrite` is never reached. -/
theorem send_in_loop_typed (typed : Typed state) {fd : Fd} {conn : TcpConnection}
    (listed : state.server.connMap.lookup fd = some conn) (wrote : Option Nat) :
    Typed (stateOf (sendInLoop fd conn wrote state)) := by
  have muted := typed.muted fd conn listed
  obtain ⟨events, registered⟩ := muted.casts.1
  rw [sendInLoop]
  by_cases drained : conn.sendBuffer.readableBytes = 0
  · rw [if_pos drained]
    exact typed
  · have unread := muted.silent drained registered
    rw [if_neg drained, bind_of_ok (cast_found registered _), if_neg (by simp [unread])]
    exact ⟨typed.muted, logged_found typed.found _⟩

/-- The cast of the register context is null. -/
theorem shutdown_write_null {fd : Fd} {conn : TcpConnection} (muted : Muted fd conn) :
    ¬ CastsFound (stateOf (shutdownWrite conn state)) := by
  intro found
  rw [shutdownWrite, disableWrite, bind_of_error (cast_null muted.casts.2 _)] at found
  have bad := found ⟨.disableWrite, false⟩ (by simp [stateOf, State.logged])
  cases bad

end Functions

theorem start_typed (center : PubSubCenter Publisher Subscriber) : Typed (start center) := by
  constructor
  · intro fd conn found
    cases found
  · intro cast listed
    cases listed

theorem running {state : State Publisher Subscriber} (typed : Typed state) :
    ¬ (state.casts.any fun cast => !cast.found) = true := by
  simpa [CastsFound] using typed.found

theorem calls_some {state next : State Publisher Subscriber} {fd : Fd}
    {call : TcpConnection → Run Publisher Subscriber Unit} (called : state.calls fd call = some next) :
    ∃ conn, state.server.connMap.lookup fd = some conn ∧ next = stateOf (call conn state) := by
  obtain ⟨conn, found, same⟩ := Option.map_eq_some_iff.mp called
  exact ⟨conn, found, same.symm⟩

theorem step_typed (state : State Publisher Subscriber) (action : Action)
    (next : State Publisher Subscriber) (typed : Typed state) (unshut : Unshut state action)
    (stepped : casting.step state action = some next) : Typed next := by
  simp only [casting, if_neg (running typed)] at stepped
  cases action with
  | register fd peer =>
      cases stepped
      exact ⟨TcpServer.register_muted typed.muted state.center fd peer, typed.found⟩
  | send fd data wrote granted =>
      obtain ⟨conn, found, rfl⟩ := calls_some stepped
      exact send_typed typed found data wrote granted
  | sendInLoop fd wrote =>
      obtain ⟨conn, found, rfl⟩ := calls_some stepped
      exact send_in_loop_typed typed found wrote
  | shutdownWrite fd =>
      obtain ⟨conn, found, _⟩ := calls_some stepped
      exact absurd (UnorderedMap.mem_of_lookup found) unshut

theorem unshut_of_found (state : State Publisher Subscriber) (action : Action)
    (next : State Publisher Subscriber) (typed : Typed state)
    (stepped : casting.step state action = some next) (found : CastsFound next) :
    Unshut state action := by
  simp only [casting, if_neg (running typed)] at stepped
  cases action with
  | register fd peer => trivial
  | send fd data wrote granted => trivial
  | sendInLoop fd wrote => trivial
  | shutdownWrite fd =>
      obtain ⟨conn, listed, rfl⟩ := calls_some stepped
      exact absurd found (shutdown_write_null (typed.muted fd conn listed))

theorem unshut_of_refused (state : State Publisher Subscriber) (action : Action)
    (typed : Typed state) (refused : casting.step state action = none) : Unshut state action := by
  simp only [casting, if_neg (running typed)] at refused
  cases action with
  | register fd peer => trivial
  | send fd data wrote granted => trivial
  | sendInLoop fd wrote => trivial
  | shutdownWrite fd => exact AList.lookup_eq_none.mp (Option.map_eq_none_iff.mp refused)

/-- Every cast is found in exactly the runs without a `shutdownWrite`. -/
theorem casts_found_iff (center : PubSubCenter Publisher Subscriber) (actions : List Action) :
    casting.Always CastsFound (start center) actions ↔
      casting.Meets Unshut (start center) actions :=
  casting.always_iff_meets step_typed (fun _ typed => typed.found) unshut_of_found
    unshut_of_refused (start_typed center) actions

theorem shutdown_write_not_found : ¬ ∀ (center : PubSubCenter Unit Unit) actions,
    casting.Always CastsFound (start center) actions := by
  intro claim
  let center : PubSubCenter Unit Unit := ⟨∅, ∅, ∅⟩
  obtain ⟨final, ran, null⟩ := casting.run_reaches
    (fun state => decide (⟨.disableWrite, false⟩ ∈ state.casts)) (start center)
    [.register 5 ⟨[], 1⟩, .shutdownWrite 5] (by decide +kernel)
  have found := casting.always_final (claim center _) ran _ (of_decide_eq_true null)
  cases found

end RProxy.Casts
