import RProxy.Demultiplex
import RProxy.Group
import RProxy.Machine

/-!
`ProxyServer::updateForWait` on `n` loop threads and `updateForForward` on `m`
threads, one access to the maps, to the epoll sets or to the lock at a time.
`sock_map_.at` and the first `reversed_map_` accesses are outside the lock, and
so is `close`. `forward` runs between the step that looks a pair or an event up and the
next one of its thread, which takes none in the meantime.
-/

namespace RProxy.Handlers

/-- Where `updateForForward` stands with a pair of its context. `register` is
the call in `establishWith`, `registerAgain` the one after the insertions. -/
inductive ForwardPc where
  | idle
  | find (incoming : Fd)
  | lock (incoming : Fd)
  | findAgain (incoming : Fd)
  | connect (incoming : Fd)
  | register (incoming sock : Fd)
  | insert (incoming sock : Fd)
  | insertReversed (incoming sock : Fd)
  | registerAgain (incoming sock : Fd)
  | unlock (incoming : Fd)
  | lookup (incoming : Fd)
  deriving DecidableEq

/-- Where `updateForWait` stands with the first of its events. `print` and
`relay` are the two lookups of the backend's client. -/
inductive WaitPc where
  | print | relay | close | lock | find | eraseReversed | erase
  deriving DecidableEq

structure Loop where
  pc : WaitPc
  resps : List Resp
  deriving DecidableEq

/-- The descriptor between its `close` and the end of its cleanup. -/
def Loop.closed (loop : Loop) : Option Fd :=
  match loop.pc with
  | .print => none
  | .relay => none
  | .close => none
  | _ => (loop.resps.head?).map Resp.fd

structure Threads (n m : Nat) where
  sockMap : UnorderedMap Fd Fd
  reversedMap : UnorderedMap Fd Fd
  group : LoopThreadGroup n
  fds : FdTable
  clients : List Nat
  loops : Fin n → Loop
  forwards : Fin m → ForwardPc
  mx : Option (Fin n ⊕ Fin m)
  fault : Option Fault

variable {n m : Nat}

def Threads.start [NeZero n] : Threads n m where
  sockMap := ∅
  reversedMap := ∅
  group := .init n
  fds := .empty
  clients := []
  loops _ := ⟨.print, []⟩
  forwards _ := .idle
  mx := none
  fault := none

inductive Action (n m : Nat) where
  | accept (fd : Fd)
  | leave (fd : Fd)
  | wait (loop : Fin n) (resps : List Resp)
  | handle (loop : Fin n)
  | forward (thread : Fin m) (incoming : Fd)
  | connect (thread : Fin m) (result : Option Fd)
  | advance (thread : Fin m)
  deriving DecidableEq

namespace Threads

variable (state : Threads n m)

/-- `accept` in the event loop of the clients. -/
def accept (fd : Fd) : Option (Threads n m) :=
  match state.fds.owner fd with
  | some _ => none
  | none => some { state with
      fds := state.fds.allocate fd
      clients := state.fds.next :: state.clients }

/-- `TcpServer` closes a client. -/
def leave (fd : Fd) : Option (Threads n m) :=
  match state.fds.owner fd with
  | none => none
  | some conn =>
      if conn ∈ state.clients then
        some { state with fds := state.fds.close fd, group := state.group.close fd }
      else none

/-- `epoll_wait` reports a descriptor at most once. -/
def wait (loop : Fin n) (resps : List Resp) : Option (Threads n m) :=
  if (state.loops loop).resps = [] ∧ (resps.map Resp.fd).Nodup ∧
      ∀ resp ∈ resps, resp.fd ∈ state.group.dmpes loop then
    some { state with loops := Function.update state.loops loop ⟨.print, resps⟩ }
  else none

def goLoop (loop : Fin n) (pc : WaitPc) (resps : List Resp) : Threads n m :=
  { state with loops := Function.update state.loops loop ⟨pc, resps⟩ }

def goForward (thread : Fin m) (pc : ForwardPc) : Threads n m :=
  { state with forwards := Function.update state.forwards thread pc }

def throws : Threads n m := { state with fault := some .outOfRange }

def handle (loop : Fin n) : Option (Threads n m) :=
  match (state.loops loop).resps with
  | [] => none
  | resp :: rest =>
      let resps := resp :: rest
      match (state.loops loop).pc with
      | .print =>
          if resp.fd ∉ state.sockMap then some state.throws
          else if resp.isReadable && !resp.isClosable then some (state.goLoop loop .relay resps)
          else if resp.isClosable then some (state.goLoop loop .close resps)
          else some (state.goLoop loop .print rest)
      | .relay =>
          if resp.fd ∉ state.sockMap then some state.throws
          else some (state.goLoop loop .print rest)
      | .close => some { state.goLoop loop .lock resps with
          fds := state.fds.close resp.fd
          group := state.group.close resp.fd }
      | .lock =>
          match state.mx with
          | some _ => none
          | none => some { state.goLoop loop .find resps with mx := some (.inl loop) }
      | .find =>
          if resp.fd ∈ state.sockMap then some (state.goLoop loop .eraseReversed resps)
          else some { state.goLoop loop .print rest with mx := none }
      | .eraseReversed =>
          match state.sockMap.lookup resp.fd with
          | none => some state.throws
          | some incoming => some { state.goLoop loop .erase resps with
              reversedMap := state.reversedMap.erase incoming }
      | .erase => some { state.goLoop loop .print rest with
          sockMap := state.sockMap.erase resp.fd
          mx := none }

/-- The next pair of a context. -/
def forward (thread : Fin m) (incoming : Fd) : Option (Threads n m) :=
  match state.forwards thread with
  | .idle => some (state.goForward thread (.find incoming))
  | _ => none

/-- `connectTo` in `establishWith`; where it throws, the guard unlocks. -/
def connect (thread : Fin m) (result : Option Fd) : Option (Threads n m) :=
  match state.forwards thread, result with
  | .connect _, none => some { state.goForward thread .idle with mx := none }
  | .connect incoming, some sock =>
      match state.fds.owner sock with
      | some _ => none
      | none => some { state.goForward thread (.register incoming sock) with
          fds := state.fds.allocate sock }
  | _, _ => none

def advance (thread : Fin m) : Option (Threads n m) :=
  match state.forwards thread with
  | .idle => none
  | .connect _ => none
  | .find incoming =>
      let found := incoming ∈ state.reversedMap
      some (state.goForward thread (if found then .lookup incoming else .lock incoming))
  | .lock incoming =>
      match state.mx with
      | some _ => none
      | none => some { state.goForward thread (.findAgain incoming) with mx := some (.inr thread) }
  | .findAgain incoming =>
      let found := incoming ∈ state.reversedMap
      some (state.goForward thread (if found then .unlock incoming else .connect incoming))
  | .register incoming sock => some { state.goForward thread (.insert incoming sock) with
      group := state.group.registerFd state.fds sock }
  | .insert incoming sock => some { state.goForward thread (.insertReversed incoming sock) with
      sockMap := state.sockMap.emplace sock incoming }
  | .insertReversed incoming sock => some { state.goForward thread (.registerAgain incoming sock) with
      reversedMap := state.reversedMap.emplace incoming sock }
  | .registerAgain incoming sock => some { state.goForward thread (.unlock incoming) with
      group := state.group.registerFd state.fds sock }
  | .unlock incoming => some { state.goForward thread (.lookup incoming) with mx := none }
  | .lookup incoming =>
      if incoming ∈ state.reversedMap then some (state.goForward thread .idle)
      else some state.throws

end Threads

/-- An exception that leaves a thread ends the process. -/
def handlers : Machine (Threads n m) (Action n m) where
  step state action :=
    if state.fault.isSome then none
    else
      match action with
      | .accept fd => state.accept fd
      | .leave fd => state.leave fd
      | .wait loop resps => state.wait loop resps
      | .handle loop => state.handle loop
      | .forward thread incoming => state.forward thread incoming
      | .connect thread result => state.connect thread result
      | .advance thread => state.advance thread

end RProxy.Handlers
