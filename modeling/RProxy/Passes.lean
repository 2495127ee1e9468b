import RProxy.Handlers
import RProxy.Isolation

/-!
The whole proxy one access or system call at a time: around the threads of
`handlers` the sub-reactors of `TcpServer`, the batches and the contexts, and within
them the `read` and each `send` of a call of `forward`. Any thread may take the next
step, so `close` and `accept` come between any two of a pass.
-/

namespace RProxy.Passes

open Handlers (Threads ForwardPc)
open Proxy (Assigns Related Isolated)

/-- Where a thread stands behind `reversed_map_.at` or, for an event, behind
`sock_map_.at`. `addr` is the client that a pass is counted for. -/
inductive CallPc where
  | limit (incoming sock : Fd)
  | read (inFd outFd : Fd) (addr : Option (List Char))
  | send (source : Option Nat) (outFd : Fd) (packet : Packet) (recved : Option Nat)
      (total : Nat) (addr : Option (List Char))

/-- `n` loops of `ProxyServer`, `m` threads in `loadbalance` and `k` sub-reactors of
`TcpServer` with the batch that each is collecting. The pair that a pass is for stays
at the head of its context. -/
structure Passing (n m k : Nat) where
  threads : Threads n m
  role : Nat → Role
  peer : Nat → InetAddr
  stream : Nat → Stream
  server : TcpServer
  sockes : Fin k → List Fd
  loader : LoadBalancer
  popped : Fin m → Bool
  contexts : Fin m → List (Sigma fun _ : Fd => InetAddr)
  center : PubSubCenter Unit Unit
  calls : Fin n ⊕ Fin m → Option CallPc
  transfers : List Transfer

variable {n m k : Nat}

def Passing.start [NeZero n] : Passing n m k where
  threads := .start
  role _ := .client
  peer _ := ⟨[], 0⟩
  stream _ := .new
  server := ⟨∅, 0, []⟩
  sockes _ := []
  loader := ⟨∅, ∅, [], [], []⟩
  popped _ := false
  contexts _ := []
  center := ⟨∅, ∅, ∅⟩
  calls _ := none
  transfers := []

inductive Action (n m k : Nat) where
  | accept (fd : Fd) (peer : InetAddr)
  | arrive (fd : Fd) (bytes : List Byte)
  | finish (fd : Fd)
  | respond (reactor : Fin k) (resp : Resp) (wrote : Fd → Option Nat)
  | notify (reactor : Fin k)
  | pop (thread : Fin m)
  | balance (thread : Fin m) (sockToBackend : UnorderedMap Fd InetAddr)
  | forward (thread : Fin m)
  | connect (thread : Fin m) (result : Option Fd)
  | advance (thread : Fin m)
  | limit (thread : Fin m) (garbage : InetAddr)
  | wait (loop : Fin n) (resps : List Resp)
  | handle (loop : Fin n)
  | read (who : Fin n ⊕ Fin m) (packet : Packet) (fails : Bool)
  | send (who : Fin n ⊕ Fin m) (result : Option Nat)

namespace Passing

variable (state : Passing n m k)

def kernel : Kernel := ⟨state.threads.fds, state.role, state.peer, state.stream⟩

/-- The descriptor that `threads` have been handed out is a new connection. -/
def attach (threads : Threads n m) (role : Role) (peer : InetAddr) : Passing n m k :=
  { state with
    threads := threads
    role := Function.update state.role state.threads.fds.next role
    peer := Function.update state.peer state.threads.fds.next peer
    stream := Function.update state.stream state.threads.fds.next .new }

/-- `TcpServer` closes descriptors. -/
def closeAll (fds : List Fd) : Passing n m k :=
  { state with
    threads := { state.threads with
      fds := state.threads.fds.closeAll fds
      group := fds.foldl LoopThreadGroup.close state.threads.group } }

/-- `accept` and the DMPREGISTER notification. -/
def accept (fd : Fd) (peer : InetAddr) : Option (Passing n m k) :=
  (state.threads.accept fd).map fun threads =>
    let (server, center) := { state.server with closed := [] }.updateForRegister state.center
      ⟨fd, Demultiplex.defaultEvents⟩ peer
    { state.attach threads .client peer with
      server := server
      center := center }.closeAll server.closed

def arrive (fd : Fd) (bytes : List Byte) : Option (Passing n m k) :=
  match state.threads.fds.owner fd with
  | none => none
  | some conn =>
      if (state.stream conn).ended then none
      else some { state with stream := (state.kernel.arrive fd bytes).stream }

def finish (fd : Fd) : Option (Passing n m k) :=
  match state.threads.fds.owner fd with
  | none => none
  | some _ => some { state with stream := (state.kernel.finish fd).stream }

/-- One event of `TcpServer::updateForWait`. -/
def respond (reactor : Fin k) (resp : Resp) (wrote : Fd → Option Nat) : Option (Passing n m k) :=
  match { state.server with closed := [] }.handleResp wrote resp with
  | .error fault => some { state with threads := { state.threads with fault := some fault } }
  | .ok (server, picked) => some
      ({ state with
        server := server
        sockes := Function.update state.sockes reactor
          (state.sockes reactor ++ picked) }.closeAll server.closed)

/-- `notify(pubsub::BALANCE, ..)` behind the last event. -/
def notify (reactor : Fin k) : Option (Passing n m k) :=
  some { state with
    loader := state.loader.updateForLoadbalance (state.sockes reactor)
    sockes := Function.update state.sockes reactor [] }

/-- The section of `loadbalance` under its lock. -/
def pop (thread : Fin m) : Option (Passing n m k) :=
  if state.contexts thread = [] ∧ state.popped thread = false then
    state.loader.popFront.map fun (_, loader) => { state with
      loader := loader
      popped := Function.update state.popped thread true }
  else none

/-- `balancing` of what `sockes_` holds by then, which is shared by all threads. -/
def balance (thread : Fin m) (sockToBackend : UnorderedMap Fd InetAddr) : Option (Passing n m k) :=
  if state.popped thread = true ∧ Assigns sockToBackend state.loader.sockes then
    some { state with
      popped := Function.update state.popped thread false
      contexts := Function.update state.contexts thread sockToBackend.entries }
  else none

/-- The next pair of the context. -/
def forward (thread : Fin m) : Option (Passing n m k) :=
  match state.contexts thread, state.calls (.inr thread) with
  | ⟨incoming, _⟩ :: _, none =>
      (state.threads.forward thread incoming).map fun threads => { state with threads := threads }
  | _, _ => none

/-- The backend of the pair that a pass is for. -/
def target (thread : Fin m) : InetAddr :=
  ((state.contexts thread).head?.map Sigma.snd).getD ⟨[], 0⟩

/-- Where `connectTo` throws, the exception leaves the loop over the context. -/
def connect (thread : Fin m) (result : Option Fd) : Option (Passing n m k) :=
  (state.threads.connect thread result).map fun threads =>
    match state.threads.forwards thread, result with
    | .connect incoming, some _ =>
        state.attach threads (.backend (state.threads.fds.owner incoming)) (state.target thread)
    | _, _ => { state with
        threads := threads
        contexts := Function.update state.contexts thread [] }

def goCall (who : Fin n ⊕ Fin m) (pc : Option CallPc) : Passing n m k :=
  { state with calls := Function.update state.calls who pc }

/-- The pair that a pass has looked up goes on to `isLismited` and `forward`. -/
def relays (thread : Fin m) : Option CallPc :=
  match state.threads.forwards thread with
  | .lookup incoming => (state.threads.reversedMap.lookup incoming).map (.limit incoming)
  | _ => none

def advance (thread : Fin m) : Option (Passing n m k) :=
  match state.calls (.inr thread) with
  | some _ => none
  | none => (state.threads.advance thread).map fun threads =>
      { state.goCall (.inr thread) (state.relays thread) with threads := threads }

/-- The client that an event is relayed to. -/
def returns (loop : Fin n) : Option CallPc :=
  match (state.threads.loops loop).pc, (state.threads.loops loop).resps with
  | .relay, resp :: _ =>
      (state.threads.sockMap.lookup resp.fd).map fun incoming => .read resp.fd incoming none
  | _, _ => none

def wait (loop : Fin n) (resps : List Resp) : Option (Passing n m k) :=
  match state.calls (.inl loop) with
  | some _ => none
  | none => (state.threads.wait loop resps).map fun threads => { state with threads := threads }

def handle (loop : Fin n) : Option (Passing n m k) :=
  match state.calls (.inl loop) with
  | some _ => none
  | none => (state.threads.handle loop).map fun threads =>
      { state.goCall (.inl loop) (state.returns loop) with threads := threads }

/-- A pass is through with its pair, an event with its call. -/
def back (who : Fin n ⊕ Fin m) (addr : Option (List Char)) (total : Nat) : Passing n m k :=
  { state.goCall who none with
    contexts :=
      match who with
      | .inl _ => state.contexts
      | .inr thread => Function.update state.contexts thread (state.contexts thread).tail
    center :=
      match addr with
      | none => state.center
      | some addr =>
          if 0 < total then state.center.account addr (UInt64.ofNat total) else state.center }

def limit (thread : Fin m) (garbage : InetAddr) : Option (Passing n m k) :=
  match state.calls (.inr thread) with
  | some (.limit incoming sock) =>
      let addr := (state.kernel.getPeerAddr incoming garbage).toString
      if state.center.isLismited addr then some (state.back (.inr thread) none 0)
      else some (state.goCall (.inr thread) (some (.read incoming sock (some addr))))
  | _ => none

/-- The sockets block, so `read` comes back with bytes, at the end of the stream, or
with an error. -/
def read (who : Fin n ⊕ Fin m) (packet : Packet) (fails : Bool) : Option (Passing n m k) :=
  match state.calls who with
  | some (.read inFd outFd addr) =>
      let packet := (RProxy.forward packet (state.kernel.read inFd fails) []).packet
      match state.kernel.read inFd fails with
      | .again => none
      | .data bytes _ => some { state.goCall who (some (.send (state.threads.fds.owner inFd) outFd
            packet (some bytes.length) 0 addr)) with
          stream := (state.kernel.consume inFd bytes).stream }
      -- what is sent now is the memory of the packet and the heap behind it
      | .error => some (state.goCall who (some (.send none outFd packet none 0 addr)))
  | _ => none

/-- One `send` of the loop in `forward`. -/
def send (who : Fin n ⊕ Fin m) (result : Option Nat) : Option (Passing n m k) :=
  match state.calls who with
  | some (.send source outFd packet recved total addr) =>
      match state.threads.fds.owner outFd, result with
      | some dest, some count =>
          let sent := min count (packet.length - total)
          let call : SendCall := ⟨total, packet.length - total, some sent⟩
          let sending : Passing n m k := { state with
            transfers := state.transfers ++ [⟨source, dest, call.bytes packet.segment⟩] }
          if recved = some (total + sent) then some (sending.back who addr (total + sent))
          else
            let later : CallPc := .send source outFd packet recved (total + sent) addr
            some (sending.goCall who (some later))
      | _, _ => some (state.back who addr total)
  | _ => none

end Passing

/-- An exception that leaves a thread ends the process. -/
def machine : Machine (Passing n m k) (Action n m k) where
  step state action :=
    if state.threads.fault.isSome then none
    else
      match action with
      | .accept fd peer => state.accept fd peer
      | .arrive fd bytes => state.arrive fd bytes
      | .finish fd => state.finish fd
      | .respond reactor resp wrote => state.respond reactor resp wrote
      | .notify reactor => state.notify reactor
      | .pop thread => state.pop thread
      | .balance thread sockToBackend => state.balance thread sockToBackend
      | .forward thread => state.forward thread
      | .connect thread result => state.connect thread result
      | .advance thread => state.advance thread
      | .limit thread garbage => state.limit thread garbage
      | .wait loop resps => state.wait loop resps
      | .handle loop => state.handle loop
      | .read who packet fails => state.read who packet fails
      | .send who result => state.send who result

theorem run_first {state next : Passing n m k} (running : state.threads.fault = none)
    {who : Fin n ⊕ Fin m} {result : Option Nat} (rest : List (Action n m k))
    (stepped : state.send who result = some next) :
    machine.run state (.send who result :: rest) = machine.run next rest := by
  rw [machine.run_cons]
  simp only [machine, running, Option.isSome_none, Bool.false_eq_true, ↓reduceIte, stepped,
    Option.bind_some]

/-- The `send` loop of a call, step by step. -/
theorem sends_in_steps (state : Passing n m k) (running : state.threads.fault = none)
    {who : Fin n ⊕ Fin m} {source : Option Nat} {outFd : Fd} {packet : Packet}
    {recved : Option Nat} {total dest : Nat} {addr : Option (List Char)}
    (here : state.calls who = some (.send source outFd packet recved total addr))
    (destOwned : state.threads.fds.owner outFd = some dest) (sends : List (Option Nat))
    (finished : (sendLoop packet.length recved total sends).finished = true) :
    ∃ (used : List (Option Nat)) (parts : List Transfer),
      machine.run state (used.map (Action.send who)) =
        some (({ state with transfers := state.transfers ++ parts } : Passing n m k).back who addr
          (sendLoop packet.length recved total sends).total) ∧
      parts.flatMap (·.bytes) =
        (sendLoop packet.length recved total sends).calls.flatMap (·.bytes packet.segment) ∧
      ∀ part ∈ parts, part.source = source ∧ part.dest = dest := by
  induction sends generalizing state total with
  | nil => cases finished
  | cons result rest ih =>
      cases result with
      | none =>
          have stepped : state.send who none = some (state.back who addr total) := by
            simp only [Passing.send, here, destOwned]
          refine ⟨[none], [], ?_, rfl, List.forall_mem_nil _⟩
          rw [List.map_singleton, run_first running _ stepped]
          simp [sendLoop]
      | some count =>
          let sent := min count (packet.length - total)
          let part : Transfer := ⟨source, dest,
            SendCall.bytes packet.segment ⟨total, packet.length - total, some sent⟩⟩
          let sending : Passing n m k := { state with transfers := state.transfers ++ [part] }
          by_cases done : recved = some (total + sent)
          · have stepped : state.send who (some count) =
                some (sending.back who addr (total + sent)) := by
              simp only [Passing.send, here, destOwned]
              rw [if_pos done]
            refine ⟨[some count], [part], ?_, ?_, ?_⟩
            · rw [List.map_singleton, run_first running _ stepped]
              simp [sendLoop, done, sent, sending]
            · simp [sendLoop, done, sent, part]
            · simp [part]
          · let later : CallPc := .send source outFd packet recved (total + sent) addr
            have stepped :
                state.send who (some count) = some (sending.goCall who (some later)) := by
              simp only [Passing.send, here, destOwned]
              rw [if_neg done]
            have goesOn : (sendLoop packet.length recved (total + sent) rest).finished = true := by
              simpa [sendLoop, done, sent] using finished
            obtain ⟨used, parts, ran, bytes, ends⟩ := ih (sending.goCall who (some later)) running
              (Function.update_self _ _ _) destOwned goesOn
            refine ⟨some count :: used, part :: parts, ?_, ?_, ?_⟩
            · rw [List.map_cons, run_first running _ stepped, ran]
              simp [sendLoop, done, sent, sending, Passing.back, Passing.goCall]
            · simp [sendLoop, done, sent, part, bytes]
            · simpa [part] using ends

theorem consume_nothing (kernel : Kernel) (fd : Fd) : kernel.consume fd [] = kernel := by
  unfold Kernel.consume Kernel.modify
  split
  · rfl
  · simp

/-- The step up to the first `send` takes what the whole call takes. -/
theorem read_in_steps (state : Passing n m k) {who : Fin n ⊕ Fin m} {io : Io} {inFd outFd : Fd}
    {addr : Option (List Char)} (here : state.calls who = some (.read inFd outFd addr))
    (returns : state.kernel.read inFd io.readFails ≠ .again) :
    ∃ recved, (state.kernel.forwarded io inFd outFd).sending =
        sendLoop (state.kernel.forwarded io inFd outFd).packet.length recved 0
          (state.kernel.sends io outFd) ∧
      state.read who io.packet io.readFails = some { state.goCall who
        (some (.send (state.kernel.source inFd io.readFails) outFd
          (state.kernel.forwarded io inFd outFd).packet recved 0 addr)) with
        stream := (state.kernel.consume inFd
          (state.kernel.forwarded io inFd outFd).taken).stream } := by
  simp only [Passing.read, here, Kernel.forwarded, Kernel.source]
  cases got : state.kernel.read inFd io.readFails with
  | again => exact absurd got returns
  | data bytes fits => exact ⟨some bytes.length, rfl, rfl⟩
  | error =>
      refine ⟨none, rfl, ?_⟩
      simp only [RProxy.forward, consume_nothing]
      rfl

/-- A call of `forward` that is one step of `proxy` is a run of the thread that is in
it here, with the same bytes for the same connections. -/
theorem forward_in_steps (state : Passing n m k) (running : state.threads.fault = none)
    {who : Fin n ⊕ Fin m} {io : Io} {inFd outFd : Fd} {addr : Option (List Char)}
    (here : state.calls who = some (.read inFd outFd addr))
    (returns : state.kernel.read inFd io.readFails ≠ .again) {kernel : Kernel}
    {transfers : List Transfer} {result : Forwarded}
    (forwarded : state.kernel.forward io inFd outFd = some (kernel, transfers, result)) :
    ∃ (sends : List (Option Nat)) (parts : List Transfer),
      machine.run state (.read who io.packet io.readFails :: sends.map (Action.send who)) =
        some (({ state with
          stream := kernel.stream
          transfers := state.transfers ++ parts } : Passing n m k).back who addr
            result.sending.total) ∧
      parts.flatMap (·.bytes) = transfers.flatMap (·.bytes) ∧
      ∀ part ∈ parts, ∃ whole ∈ transfers, part.source = whole.source ∧ part.dest = whole.dest := by
  have finished : (state.kernel.forwarded io inFd outFd).sending.finished = true := by
    simp only [Kernel.forward] at forwarded
    split at forwarded
    · next done => exact done
    · cases forwarded
  obtain ⟨rfl, rfl, rfl⟩ := Kernel.forward_some _ forwarded
  obtain ⟨recved, loop, read⟩ := read_in_steps state here returns
  let packet := (state.kernel.forwarded io inFd outFd).packet
  let source := state.kernel.source inFd io.readFails
  let reading : Passing n m k := { state.goCall who
    (some (.send source outFd packet recved 0 addr)) with
    stream := (state.kernel.consume inFd (state.kernel.forwarded io inFd outFd).taken).stream }
  have still : reading.threads.fault = none := running
  have sending : reading.calls who = some (.send source outFd packet recved 0 addr) :=
    Function.update_self _ _ _
  have first : ∀ rest, machine.run state (.read who io.packet io.readFails :: rest) =
      machine.run reading rest := by
    intro rest
    rw [machine.run_cons]
    simp only [machine, running, Option.isSome_none, Bool.false_eq_true, ↓reduceIte, read,
      Option.bind_some]
    rfl
  cases dest : state.threads.fds.owner outFd with
  | none =>
      -- a `send` on a descriptor that is not open fails at once
      have refused : state.kernel.sends io outFd = [none] := by
        simp [Kernel.sends, Passing.kernel, dest]
      have shut : reading.threads.fds.owner outFd = none := dest
      have stepped : reading.send who none = some (reading.back who addr 0) := by
        simp only [Passing.send, sending, shut]
      have none_sent : state.kernel.transfer io inFd outFd = [] := by
        simp [Kernel.transfer, Passing.kernel, dest]
      refine ⟨[none], [], ?_, by rw [none_sent], List.forall_mem_nil _⟩
      rw [first, List.map_singleton, run_first still _ stepped, loop, refused]
      simp [reading, Passing.back, Passing.goCall, sendLoop]
  | some conn =>
      have sends : state.kernel.sends io outFd = io.sends := by
        simp [Kernel.sends, Passing.kernel, dest]
      rw [loop, sends] at finished
      obtain ⟨used, parts, ran, bytes, ends⟩ :=
        sends_in_steps reading still sending dest io.sends finished
      have handed : state.kernel.transfer io inFd outFd =
          [⟨source, conn, (state.kernel.forwarded io inFd outFd).accepted⟩] := by
        simp only [Kernel.transfer, Passing.kernel, dest]
        rfl
      refine ⟨used, parts, ?_, ?_, ?_⟩
      · rw [first, ran, loop, sends]
        simp [reading, packet, Passing.back, Passing.goCall]
      · rw [bytes, handed, Forwarded.accepted, loop, sends]
        simp [packet]
      · rw [handed]
        intro part member
        exact ⟨_, List.mem_singleton_self _, ends part member⟩

end RProxy.Passes
