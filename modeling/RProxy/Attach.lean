import RProxy.Buffer
import RProxy.Forward
import RProxy.Outage
import RProxy.Traffic

/-!
`ProxyServer::updateForForward` of the MSG_ATTACH build from end to end: the
connection, the limit, the client's address in the packet, `forward` and the
accounting, with one packet for all the clients of a context.
-/

namespace RProxy.Attach

open Packet

/-- `sockaddr_in`, with the address in the order of its text. -/
structure Peer where
  octets : UInt8 × UInt8 × UInt8 × UInt8
  port : UInt16
  deriving DecidableEq

def decimal (octet : UInt8) : List Char := Nat.toDigits 10 octet.toNat

def inetNtoa : UInt8 × UInt8 × UInt8 × UInt8 → List Char
  | (a, b, c, d) => decimal a ++ ['.'] ++ decimal b ++ ['.'] ++ decimal c ++ ['.'] ++ decimal d

def getPeerAddr (peer : Peer) : InetAddr := ⟨inetNtoa peer.octets, peer.port⟩

def asBytes (text : List Char) : List Byte := text.map fun letter => letter.toNat.toUInt8

/-- `std::copy` of a text to the field that begins at `start`. It stops at the
end of the text, wherever the field ends. -/
def copy (packet : Packet) (start : Nat) (text : List Char) : Packet :=
  { packet with
    text := fun i =>
      if start ≤ i then ((asBytes text)[i - start]?).getD (packet.text i) else packet.text i }

/-- What the calls for a client return. `send` is called at least once. -/
structure Answers where
  connect : Fd → InetAddr → Option Fd
  getpeername : Fd → Peer
  read : Fd → ReadResult
  send : Fd → Option Nat × List (Option Nat)

def Answers.sends (answers : Answers) (incoming : Fd) : List (Option Nat) :=
  (answers.send incoming).1 :: (answers.send incoming).2

/-- A `send` and the packet at that moment. -/
structure Sent where
  incoming : Fd
  outFd : Fd
  packet : Packet
  call : SendCall

/-- A call of `forward`, for the address that is accounted. -/
structure Forwarding where
  addr : List Char
  returned : Int
  deriving DecidableEq

structure State where
  sockMap : UnorderedMap Fd Fd
  reversedMap : UnorderedMap Fd Fd
  watched : List Fd
  center : PubSubCenter Unit Unit
  packet : Packet
  sent : List Sent
  forwards : List Forwarding
  accounts : List Traffic.Account

/-- What a call of `updateForForward` finds, with nothing done before it. -/
def before (sockMap reversedMap : UnorderedMap Fd Fd) (center : PubSubCenter Unit Unit)
    (packet : Packet) : State where
  sockMap := sockMap
  reversedMap := reversedMap
  watched := []
  center := center
  packet := packet
  sent := []
  forwards := []
  accounts := []

/-- Why a call is not through: it threw, or it is still in its `send` loop. -/
inductive Halt where
  | threw (fault : Fault)
  | sending
  deriving DecidableEq

abbrev Handler := EStateM Halt State

/-- The two copies to `ip_` and `port_`. -/
def State.attach (state : State) (addr : InetAddr) : State :=
  { state with packet := copy (copy state.packet 0 addr.ip) maxIpSize addr.portText }

def State.account (state : State) (addr : List Char) (traffic : UInt64) : State :=
  { state with
    center := state.center.account addr traffic
    accounts := state.accounts ++ [⟨addr, traffic⟩] }

def State.forwarded (state : State) (incoming sock : Fd) (addr : List Char)
    (result : Forwarded) : State :=
  { state with
    packet := result.packet
    sent := state.sent ++ result.sending.calls.map fun call => ⟨incoming, sock, result.packet, call⟩
    forwards := state.forwards ++ [⟨addr, result.returned⟩] }

section Handlers

variable (answers : Answers)

def connectTo (incoming : Fd) (addr : InetAddr) : Handler Fd :=
  match answers.connect incoming addr with
  | none => throw (.threw .runtimeError)
  | some sock => pure sock

def registerFd (sock : Fd) : Handler Unit :=
  modify fun state => { state with watched := state.watched ++ [sock] }

def establishWith (incoming : Fd) (addr : InetAddr) : Handler Fd := do
  let sock ← connectTo answers incoming addr
  registerFd sock
  return sock

/-- `forward` with the packet as it is, for the client that is accounted as `addr`. -/
def forwardPacket (incoming sock : Fd) (addr : List Char) : Handler Int := do
  let state ← get
  let result := forward state.packet (answers.read incoming) (answers.sends incoming)
  set (state.forwarded incoming sock addr result)
  if result.sending.finished = true then return result.returned else throw .sending

/-- A pass from `reversed_map_.at` on. -/
def relay (incoming : Fd) : Handler Unit := do
  let state ← get
  match state.reversedMap.lookup incoming with
  | none => throw (.threw .outOfRange)
  | some sock =>
      let addr := getPeerAddr (answers.getpeername incoming)
      if state.center.isLismited addr.toString = true then pure ()
      else
        modify fun state => state.attach addr
        let total ← forwardPacket answers incoming sock addr.toString
        if 0 < total then
          modify fun state => state.account addr.toString (UInt64.ofNat total.toNat)
        else pure ()

def pass (incoming : Fd) (addr : InetAddr) : Handler Unit := do
  let state ← get
  if incoming ∈ state.reversedMap then relay answers incoming
  else
    let sock ← establishWith answers incoming addr
    -- `continue`, which no descriptor reaches
    if (sock : Int) < 0 then pure ()
    else
      modify fun state => { state with
        sockMap := state.sockMap.emplace sock incoming
        reversedMap := state.reversedMap.emplace incoming sock }
      registerFd sock
      relay answers incoming

def updateForForward : List (Sigma fun _ : Fd => InetAddr) → Handler Unit
  | [] => pure ()
  | pair :: rest => do
      pass answers pair.1 pair.2
      updateForForward rest

end Handlers

/-- The client has a backend connection, or its backend accepts one. -/
def Reachable (answers : Answers) (reversedMap : UnorderedMap Fd Fd)
    (pair : Sigma fun _ : Fd => InetAddr) : Prop :=
  pair.1 ∈ reversedMap ∨ (answers.connect pair.1 pair.2).isSome = true

instance (answers : Answers) (reversedMap : UnorderedMap Fd Fd)
    (pair : Sigma fun _ : Fd => InetAddr) : Decidable (Reachable answers reversedMap pair) :=
  inferInstanceAs (Decidable (_ ∨ _))

/-- The key under which a client is accounted. -/
def Answers.key (answers : Answers) (incoming : Fd) : List Char :=
  (getPeerAddr (answers.getpeername incoming)).toString

/-- `forward` for a client, with its texts in the packet. -/
def Answers.forward (answers : Answers) (state : State) (incoming : Fd) : Forwarded :=
  RProxy.forward (state.attach (getPeerAddr (answers.getpeername incoming))).packet
    (answers.read incoming) (answers.sends incoming)

section Passes

variable {answers : Answers} {state : State} {incoming : Fd} {addr : InetAddr}

/-- What is accounted after a call of `forward`. -/
def State.charged (state : State) (addr : List Char) (returned : Int) : State :=
  if 0 < returned then state.account addr (UInt64.ofNat returned.toNat) else state

theorem relay_limited {sock : Fd} (found : state.reversedMap.lookup incoming = some sock)
    (limited : state.center.isLismited (answers.key incoming) = true) :
    relay answers incoming state = .ok () state := by
  rw [Answers.key] at limited
  rw [relay, get_bind]
  simp only [found]
  rw [branch_apply, if_pos limited]
  rfl

theorem relay_forwards {sock : Fd} (found : state.reversedMap.lookup incoming = some sock)
    (unlimited : ¬ state.center.isLismited (answers.key incoming) = true) :
    let result := answers.forward state incoming
    let after := state.forwarded incoming sock (answers.key incoming) result
    relay answers incoming state =
      if result.sending.finished = true then
        .ok () (after.charged (answers.key incoming) result.returned)
      else .error .sending after := by
  intro result after
  have called : forwardPacket answers incoming sock (answers.key incoming)
      (state.attach (getPeerAddr (answers.getpeername incoming))) =
      if result.sending.finished = true then .ok result.returned after
      else .error .sending after := by
    rw [forwardPacket, get_bind]
    simp only [set_bind, branch_apply]
    rfl
  rw [Answers.key] at unlimited
  rw [relay, get_bind]
  simp only [found]
  rw [branch_apply, if_neg unlimited, modify_bind]
  by_cases finished : result.sending.finished = true
  · rw [if_pos finished] at called ⊢
    rw [← Answers.key, bind_of_ok called, State.charged, branch_apply]
    split
    · rfl
    · rfl
  · rw [if_neg finished] at called ⊢
    exact bind_of_error called _

theorem charged_keeps (state : State) (addr : List Char) (returned : Int) :
    (state.charged addr returned).sent = state.sent ∧
      (state.charged addr returned).reversedMap = state.reversedMap ∧
      (state.charged addr returned).forwards = state.forwards := by
  rw [State.charged]
  split
  · exact ⟨rfl, rfl, rfl⟩
  · exact ⟨rfl, rfl, rfl⟩

/-- What a pass has done when it comes to `reversed_map_.at`. -/
structure Joined (state : State) (incoming sock : Fd) (next : State) : Prop where
  found : next.reversedMap.lookup incoming = some sock
  others : ∀ other, other ≠ incoming →
    next.reversedMap.lookup other = state.reversedMap.lookup other
  center : next.center = state.center
  sent : next.sent = state.sent
  forwards : next.forwards = state.forwards
  accounts : next.accounts = state.accounts

/-- What `establishWith` and the section under `mx_` leave. -/
def State.connected (state : State) (incoming sock : Fd) : State :=
  { state with
    sockMap := state.sockMap.emplace sock incoming
    reversedMap := state.reversedMap.emplace incoming sock
    watched := state.watched ++ [sock] ++ [sock] }

theorem pass_refused (absent : incoming ∉ state.reversedMap)
    (refused : answers.connect incoming addr = none) :
    pass answers incoming addr state = .error (.threw .runtimeError) state := by
  have threw : connectTo answers incoming addr state = .error (.threw .runtimeError) state := by
    rw [connectTo, refused]
    rfl
  rw [pass, get_bind, if_neg absent]
  exact bind_of_error (bind_of_error threw _) _

theorem pass_known {sock : Fd} (found : state.reversedMap.lookup incoming = some sock) :
    pass answers incoming addr state = relay answers incoming state := by
  rw [pass, get_bind, if_pos (UnorderedMap.mem_of_lookup found)]

theorem pass_connects {sock : Fd} (absent : incoming ∉ state.reversedMap)
    (connected : answers.connect incoming addr = some sock) :
    pass answers incoming addr state = relay answers incoming (state.connected incoming sock) := by
  have answered : connectTo answers incoming addr state = .ok sock state := by
    rw [connectTo, connected]
    rfl
  have established : establishWith answers incoming addr state =
      .ok sock { state with watched := state.watched ++ [sock] } := bind_of_ok answered _
  rw [pass, get_bind, if_neg absent, bind_of_ok established, if_neg (by omega), modify_bind]
  rfl

theorem lookup_connected (absent : incoming ∉ state.reversedMap) (sock other : Fd) :
    (state.connected incoming sock).reversedMap.lookup other =
      if other = incoming then some sock else state.reversedMap.lookup other :=
  UnorderedMap.lookup_emplace_fresh (AList.lookup_eq_none.mpr absent) _ _

/-- Where `connectTo` throws, the pass ends with the state it began with. -/
theorem pass_cases (answers : Answers) (state : State) (incoming : Fd) (addr : InetAddr) :
    (¬ Reachable answers state.reversedMap ⟨incoming, addr⟩ ∧
      pass answers incoming addr state = .error (.threw .runtimeError) state) ∨
    (Reachable answers state.reversedMap ⟨incoming, addr⟩ ∧ ∃ sock middle,
      Joined state incoming sock middle ∧
      pass answers incoming addr state = relay answers incoming middle) := by
  by_cases present : incoming ∈ state.reversedMap
  · obtain ⟨sock, found⟩ := UnorderedMap.lookup_of_mem present
    exact Or.inr ⟨Or.inl present, sock, state, ⟨found, fun _ _ => rfl, rfl, rfl, rfl, rfl⟩,
      pass_known found⟩
  cases connected : answers.connect incoming addr with
  | none =>
      refine Or.inl ⟨?_, pass_refused present connected⟩
      simp [Reachable, present, connected]
  | some sock =>
      have lookup := lookup_connected present sock
      refine Or.inr ⟨Or.inr (by simp [connected]), sock, state.connected incoming sock,
        ⟨?_, ?_, rfl, rfl, rfl, rfl⟩, pass_connects present connected⟩
      · rw [lookup, if_pos rfl]
      · intro other different
        rw [lookup, if_neg different]

/-- What each pass does to the state, the whole loop does, wherever it ends. -/
theorem loop_carries {related : State → State → Prop} (refl : ∀ state, related state state)
    (trans : ∀ {first second third}, related first second → related second third →
      related first third)
    (passes : ∀ state incoming addr, related state (stateOf (pass answers incoming addr state)))
    (pairs : List (Sigma fun _ : Fd => InetAddr)) (state : State) :
    related state (stateOf (updateForForward answers pairs state)) := by
  induction pairs generalizing state with
  | nil => exact refl state
  | cons pair rest ih =>
      have first := passes state pair.1 pair.2
      rw [updateForForward]
      cases passed : pass answers pair.1 pair.2 state with
      | ok _ middle =>
          rw [passed] at first
          rw [bind_of_ok passed]
          exact trans first (ih middle)
      | error halt middle =>
          rw [passed] at first
          rw [bind_of_error passed]
          exact first

end Passes

section Connections

variable {answers : Answers} {outage : Outage.Answers} {state : State} {other : Outage.State}

/-- The connections are those of the handler that only counts attempts. -/
structure SameConnections (state : State) (other : Outage.State) : Prop where
  sockMap : state.sockMap = other.sockMap
  reversedMap : state.reversedMap = other.reversedMap
  watched : state.watched = other.watched

/-- Unless one is still in `forward`, both end in the same way. -/
def Follows : EStateM.Result Halt State Unit →
    EStateM.Result Outage.Halt Outage.State Unit → Prop
  | .error .sending _, _ => True
  | _, .error .blocked _ => True
  | .ok _ next, .ok _ other => SameConnections next other
  | .error (.threw fault) next, .error (.threw other) otherNext =>
      fault = other ∧ SameConnections next otherNext
  | _, _ => False

theorem follows_blocked (result : EStateM.Result Halt State Unit) (other : Outage.State) :
    Follows result (.error .blocked other) := by
  cases result with
  | ok _ next => trivial
  | error halt next => cases halt <;> trivial

theorem relay_follows (same : SameConnections state other) {incoming sock : Fd}
    (found : state.reversedMap.lookup incoming = some sock) :
    Follows (relay answers incoming state) (Outage.relay outage incoming other) := by
  rw [Outage.relay_found (same.reversedMap ▸ found)]
  split
  rotate_left
  · exact follows_blocked _ _
  by_cases limited : state.center.isLismited (answers.key incoming) = true
  · rw [relay_limited found limited]
    exact ⟨same.sockMap, same.reversedMap, same.watched⟩
  · rw [relay_forwards found limited]
    split
    · rw [State.charged]
      split
      · exact ⟨same.sockMap, same.reversedMap, same.watched⟩
      · exact ⟨same.sockMap, same.reversedMap, same.watched⟩
    · trivial

theorem pass_follows (connects : outage.connect = answers.connect)
    (same : SameConnections state other) (incoming : Fd) (addr : InetAddr) :
    Follows (pass answers incoming addr state) (Outage.pass outage incoming addr other) := by
  by_cases present : incoming ∈ state.reversedMap
  · obtain ⟨sock, found⟩ := UnorderedMap.lookup_of_mem present
    rw [pass_known found, Outage.pass_known (same.reversedMap ▸ present)]
    exact relay_follows same found
  have absent : incoming ∉ other.reversedMap := same.reversedMap ▸ present
  cases connected : answers.connect incoming addr with
  | none =>
      have unreachable : ¬ Outage.Reachable outage other.reversedMap incoming addr := by
        simp [Outage.Reachable, absent, connects, connected]
      rw [pass_refused present connected, Outage.pass_unreachable unreachable]
      exact ⟨rfl, same⟩
  | some sock =>
      have found : (state.connected incoming sock).reversedMap.lookup incoming = some sock := by
        rw [lookup_connected present, if_pos rfl]
      have sameJoined :
          SameConnections (state.connected incoming sock) (other.connected incoming sock) :=
        ⟨congrArg (·.emplace sock incoming) same.sockMap,
          congrArg (·.emplace incoming sock) same.reversedMap,
          congrArg (· ++ [sock] ++ [sock]) same.watched⟩
      rw [pass_connects present connected, Outage.pass_connects absent (connects ▸ connected)]
      exact relay_follows sameJoined found

/-- The handler with the packets makes the connections of the one without. -/
theorem loop_follows (connects : outage.connect = answers.connect)
    (same : SameConnections state other) (pairs : List (Sigma fun _ : Fd => InetAddr)) :
    Follows (updateForForward answers pairs state)
      (Outage.updateForForward outage pairs other) := by
  induction pairs generalizing state other with
  | nil => exact same
  | cons pair rest ih =>
      have first := pass_follows connects same pair.1 pair.2
      rw [updateForForward, Outage.updateForForward]
      cases passed : pass answers pair.1 pair.2 state with
      | ok _ next =>
          cases otherPassed : Outage.pass outage pair.1 pair.2 other with
          | ok _ otherNext =>
              rw [passed, otherPassed] at first
              rw [bind_of_ok passed, bind_of_ok otherPassed]
              exact ih first
          | error halt otherNext =>
              rw [passed, otherPassed] at first
              rw [bind_of_error otherPassed]
              cases halt with
              | blocked => exact follows_blocked _ _
              | threw fault => exact first.elim
      | error halt next =>
          rw [bind_of_error passed]
          cases halt with
          | sending => trivial
          | threw fault =>
              cases otherPassed : Outage.pass outage pair.1 pair.2 other with
              | ok _ otherNext =>
                  rw [passed, otherPassed] at first
                  exact first.elim
              | error otherHalt otherNext =>
                  rw [passed, otherPassed] at first
                  rw [bind_of_error otherPassed]
                  exact first

end Connections

end RProxy.Attach
