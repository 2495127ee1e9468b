import RProxy.PassNames

/-!
Session isolation one access at a time: bytes stay inside their session while the kernel
hands out no number that the maps, the passes, the events or the calls under way still
name, and nothing is accepted after a `read` that failed.
-/

namespace RProxy.Passes

open Handlers (Threads ForwardPc)
open Proxy (Assigns Related Isolated)

variable {n m k : Nat}

/-- The kernel hands out no number that is in use, for a client none that is reported
as a backend, and for a backend none that is named as a client. -/
def Unclaimed (state : Passing n m k) : Action n m k → Prop
  | .accept fd _ => Unused state fd ∧ ¬ Reported state fd
  | .connect _ (some sock) => Unused state sock ∧ ¬ Named state sock
  | _ => True

/-- After a `read` that failed `send` accepts nothing. -/
def Sound (state : Passing n m k) : Action n m k → Prop
  | .send who (some count) =>
      match state.calls who with
      | some (.send _ outFd _ none _ _) => count = 0 ∨ state.threads.fds.owner outFd = none
      | _ => True
  | _ => True

instance (state : Passing n m k) (action : Action n m k) : Decidable (Unclaimed state action) := by
  unfold Unclaimed
  split <;> infer_instance

instance (state : Passing n m k) (action : Action n m k) : Decidable (Sound state action) := by
  unfold Sound
  split
  · split <;> infer_instance
  · infer_instance

/-- Whoever has the first number is a backend, and was opened for whoever has the second. -/
def Paired (kernel : Kernel) (sock incoming : Fd) : Prop :=
  ∀ backend, kernel.fds.owner sock = some backend →
    ∃ openedFor, kernel.role backend = .backend openedFor ∧
      ∀ conn, kernel.fds.owner incoming = some conn → openedFor = some conn

/-- What a call has read may go to whoever has the number it sends to. -/
def Sends (kernel : Kernel) (source : Option Nat) (outFd : Fd) (recved : Option Nat) : Prop :=
  (∀ conn ∈ source, conn < kernel.fds.next ∧
    ∀ dest, kernel.fds.owner outFd = some dest → Related kernel.role conn dest) ∧
    (source = none → recved = none)

structure Sessions (state : Passing n m k) : Prop where
  quiet : state.server.Quiet
  clients : ∀ fd ∈ state.server.connMap, state.kernel.side fd = some true
  paired : ∀ sock incoming, Pairs state sock incoming → Paired state.kernel sock incoming
  named : ∀ fd, Named state fd → state.kernel.side fd ≠ some false
  watched : ∀ loop, ∀ fd ∈ state.threads.group.dmpes loop, state.kernel.side fd = some false
  reported : ∀ fd, Reported state fd → state.kernel.side fd ≠ some true
  sending : ∀ who source outFd packet recved total addr,
    state.calls who = some (.send source outFd packet recved total addr) →
      Sends state.kernel source outFd recved
  known : ∀ transfer ∈ state.transfers,
    (∀ source ∈ transfer.source, source < state.kernel.fds.next) ∧
      transfer.dest < state.kernel.fds.next
  isolated : ∀ transfer ∈ state.transfers, Isolated state.kernel.role transfer

section Kernel

variable {kernel next : Kernel}
  (owners : ∀ fd conn, next.fds.owner fd = some conn → kernel.fds.owner fd = some conn)
  (role : next.role = kernel.role)
include owners role

theorem side_of_less {fd : Fd} {side : Bool} (known : next.side fd = some side) :
    kernel.side fd = some side := by
  obtain ⟨conn, owned, same⟩ := Option.map_eq_some_iff.mp known
  rw [Kernel.side, owners fd conn owned, ← same, role]
  rfl

theorem paired_less {sock incoming : Fd} (paired : Paired kernel sock incoming) :
    Paired next sock incoming := by
  intro backend owned
  obtain ⟨openedFor, isBackend, same⟩ := paired backend (owners sock backend owned)
  exact ⟨openedFor, by rw [role, isBackend], fun conn there => same conn (owners _ _ there)⟩

theorem sends_less {source recved : Option Nat} {outFd : Fd}
    (numbers : next.fds.next = kernel.fds.next) (sends : Sends kernel source outFd recved) :
    Sends next source outFd recved := by
  refine ⟨?_, sends.2⟩
  intro conn read
  obtain ⟨old, related⟩ := sends.1 conn read
  rw [numbers, role]
  exact ⟨old, fun dest owned => related dest (owners outFd dest owned)⟩

end Kernel

section Attach

variable {kernel : Kernel} {fd : Fd} (role : Role) (peer : InetAddr)

/-- A new connection is none of an older pair. -/
theorem paired_attach {sock incoming : Fd} (otherSock : sock ≠ fd) (otherIncoming : incoming ≠ fd)
    (paired : Paired kernel sock incoming) : Paired (kernel.attach fd role peer) sock incoming := by
  intro backend owned
  simp only [Kernel.attach, FdTable.allocate_owner] at owned ⊢
  rw [if_neg otherSock] at owned
  obtain ⟨openedFor, isBackend, same⟩ := paired backend owned
  have known := kernel.fds.numbered sock backend owned
  refine ⟨openedFor, ?_, ?_⟩
  · rw [Function.update_of_ne (Nat.ne_of_lt known), isBackend]
  · intro conn there
    rw [if_neg otherIncoming] at there
    exact same conn there

theorem sends_attach {source recved : Option Nat} {outFd : Fd} (other : outFd ≠ fd)
    (sends : Sends kernel source outFd recved) :
    Sends (kernel.attach fd role peer) source outFd recved := by
  obtain ⟨read, unread⟩ := sends
  refine ⟨?_, unread⟩
  intro conn taken
  obtain ⟨old, related⟩ := read conn taken
  refine ⟨Nat.lt_succ_of_lt old, ?_⟩
  intro dest owned
  rw [Kernel.attach, FdTable.allocate_owner, if_neg other] at owned
  exact Proxy.related_attach role ⟨old, kernel.fds.numbered outFd dest owned⟩ (related dest owned)

end Attach

/-- A step that opens nothing, names no new pair and sends nothing. -/
structure Less (state next : Passing n m k) : Prop where
  owners : ∀ fd conn, next.kernel.fds.owner fd = some conn →
    state.kernel.fds.owner fd = some conn
  numbers : next.kernel.fds.next = state.kernel.fds.next
  role : next.kernel.role = state.kernel.role
  pairs : ∀ sock incoming, Pairs next sock incoming → Pairs state sock incoming
  named : ∀ fd, Named next fd → state.kernel.side fd ≠ some false
  reported : ∀ fd, Reported next fd → state.kernel.side fd ≠ some true
  sending : ∀ who source outFd packet recved total addr,
    next.calls who = some (.send source outFd packet recved total addr) →
      Sends state.kernel source outFd recved
  transfers : next.transfers = state.transfers

theorem sessions_less {state next : Passing n m k} (holds : Sessions state)
    (less : Less state next) (quiet : next.server.Quiet)
    (clients : ∀ fd ∈ next.server.connMap, next.kernel.side fd = some true)
    (watched : ∀ loop, ∀ fd ∈ next.threads.group.dmpes loop, next.kernel.side fd = some false) :
    Sessions next := by
  constructor
  · exact quiet
  · exact clients
  · intro sock incoming pairs
    exact paired_less less.owners less.role (holds.paired sock incoming (less.pairs _ _ pairs))
  · intro fd still backend
    exact less.named fd still (side_of_less less.owners less.role backend)
  · exact watched
  · intro fd still isClient
    exact less.reported fd still (side_of_less less.owners less.role isClient)
  · intro who source outFd packet recved total addr sending
    exact sends_less less.owners less.role less.numbers
      (less.sending who source outFd packet recved total addr sending)
  · rw [less.transfers, less.numbers]
    exact holds.known
  · rw [less.transfers, less.role]
    exact holds.isolated

/-- A step that opens and closes nothing at all. -/
theorem sessions_same {state next : Passing n m k} (holds : Sessions state)
    (less : Less state next) (fds : next.kernel.fds = state.kernel.fds)
    (server : next.server = state.server)
    (watched : ∀ loop, ∀ fd ∈ next.threads.group.dmpes loop, state.kernel.side fd = some false) :
    Sessions next := by
  have side : ∀ fd, next.kernel.side fd = state.kernel.side fd := by
    intro fd
    rw [Kernel.side, Kernel.side, fds, less.role]
  apply sessions_less holds less
  · rw [server]
    exact holds.quiet
  · intro fd present
    rw [server] at present
    rw [side]
    exact holds.clients fd present
  · intro loop fd listed
    rw [side]
    exact watched loop fd listed

/-- A number that is not in use is handed out for a new connection. -/
structure Opens (state next : Passing n m k) (fd : Fd) (role : Role) (peer : InetAddr) : Prop where
  kernel : next.kernel = state.kernel.attach fd role peer
  free : state.kernel.fds.owner fd = none
  unused : Unused state fd
  quiet : next.server.Quiet
  clients : ∀ other ∈ next.server.connMap, other ∈ state.server.connMap ∨
    other = fd ∧ role = .client
  pairs : ∀ sock incoming, Pairs next sock incoming → Pairs state sock incoming ∨
    sock = fd ∧ incoming ≠ fd ∧ role = .backend (state.kernel.fds.owner incoming)
  named : ∀ other, Named next other → Named state other
  asBackend : role.isClient = true ∨ ¬ Named state fd
  watched : next.threads.group = state.threads.group
  loops : next.threads.loops = state.threads.loops
  asClient : role.isClient = false ∨ ¬ Reported state fd
  calls : next.calls = state.calls
  transfers : next.transfers = state.transfers

theorem opens_sessions {state next : Passing n m k} {fd : Fd} {role : Role} {peer : InetAddr}
    (holds : Sessions state) (opens : Opens state next fd role peer) : Sessions next := by
  have side : ∀ other, next.kernel.side other =
      if other = fd then some role.isClient else state.kernel.side other := by
    intro other
    rw [opens.kernel, Kernel.attach_side]
  have shut : state.kernel.side fd = none := by
    rw [Kernel.side, opens.free]
    rfl
  constructor
  · exact opens.quiet
  · intro other present
    rw [side]
    rcases opens.clients other present with old | ⟨rfl, rfl⟩
    · have known := holds.clients other old
      split
      · next same =>
          rw [same, shut] at known
          cases known
      · exact known
    · rw [if_pos rfl]
      rfl
  · intro sock incoming pairs
    rw [opens.kernel]
    rcases opens.pairs sock incoming pairs with old | ⟨rfl, different, rfl⟩
    · -- an older pair has none of its numbers handed out
      obtain ⟨otherSock, otherIncoming⟩ := unused_pairs opens.unused old
      exact paired_attach role peer otherSock otherIncoming (holds.paired sock incoming old)
    · intro backend owned
      rw [Kernel.attach, FdTable.allocate_owner, if_pos rfl, Option.some.injEq] at owned
      subst owned
      refine ⟨_, Function.update_self _ _ _, ?_⟩
      intro conn there
      rw [Kernel.attach, FdTable.allocate_owner, if_neg different] at there
      exact there
  · intro other still backend
    rw [side] at backend
    split at backend
    · next same =>
        rcases opens.asBackend with isClient | unnamed
        · rw [isClient] at backend
          cases backend
        · exact unnamed (same ▸ opens.named other still)
    · exact holds.named other (opens.named other still) backend
  · intro loop other listed
    rw [opens.watched] at listed
    have known := holds.watched loop other listed
    rw [side, if_neg]
    · exact known
    · rintro rfl
      rw [shut] at known
      cases known
  · rintro other ⟨loop, resp, member, rfl⟩ isClient
    rw [opens.loops] at member
    rw [side] at isClient
    split at isClient
    · next same =>
        rcases opens.asClient with backend | unreported
        · rw [backend] at isClient
          cases isClient
        · exact unreported ⟨loop, resp, member, same⟩
    · exact holds.reported resp.fd ⟨loop, resp, member, rfl⟩ isClient
  · intro who source outFd packet recved total addr sending
    rw [opens.calls] at sending
    have unnamed := opens.unused.2.2.2 who _ sending
    have other : outFd ≠ fd := by simpa [CallPc.names, eq_comm] using unnamed
    rw [opens.kernel]
    exact sends_attach role peer other
      (holds.sending who source outFd packet recved total addr sending)
  · rw [opens.transfers, opens.kernel]
    exact fun transfer member => Proxy.known_attach (holds.known transfer member)
  · rw [opens.transfers, opens.kernel]
    exact fun transfer member =>
      Proxy.isolated_attach role (holds.known transfer member) (holds.isolated transfer member)

section Same

variable {state next : Passing n m k}

/-- A step that only moves names of clients. -/
theorem less_named (holds : Sessions state) (role : next.role = state.role)
    (threads : next.threads = state.threads) (calls : next.calls = state.calls)
    (transfers : next.transfers = state.transfers)
    (named : ∀ fd, Named next fd → Named state fd) : Less state next := by
  have fds : next.kernel.fds = state.kernel.fds := congrArg Threads.fds threads
  constructor
  · rw [fds]
    exact fun _ _ => id
  · rw [fds]
  · exact role
  · intro sock incoming pairs
    exact pairs_same pairs (by rw [threads]) (by rw [threads])
      (by rw [threads]; exact fun _ _ => id) (by rw [calls]; exact fun _ _ => id)
  · exact fun fd still => holds.named fd (named fd still)
  · intro fd still
    rw [Reported, threads] at still
    exact holds.reported fd still
  · rw [calls]
    exact holds.sending
  · exact transfers

theorem named_sessions (holds : Sessions state) (role : next.role = state.role)
    (threads : next.threads = state.threads) (server : next.server = state.server)
    (calls : next.calls = state.calls) (transfers : next.transfers = state.transfers)
    (named : ∀ fd, Named next fd → Named state fd) : Sessions next := by
  apply sessions_same holds (less_named holds role threads calls transfers named)
  · exact congrArg Threads.fds threads
  · exact server
  · rw [threads]
    exact holds.watched

end Same

section Steps

variable {state next : Passing n m k}

theorem accept_sessions {fd : Fd} {peer : InetAddr} (holds : Sessions state)
    (unused : Unused state fd) (unreported : ¬ Reported state fd)
    (stepped : state.accept fd peer = some next) : Sessions next := by
  obtain ⟨threads, taken, rest⟩ := Option.map_eq_some_iff.mp stepped
  simp only [Threads.accept] at taken
  split at taken
  · cases taken
  · next free =>
      cases taken
      have absent : fd ∉ state.server.connMap := by
        intro present
        have known := holds.clients fd present
        rw [Kernel.side, show state.kernel.fds.owner fd = none from free] at known
        cases known
      have before : ({ state.server with closed := [] } : TcpServer).Quiet := holds.quiet
      have quiet := TcpServer.register_quiet before state.center
        ⟨fd, Demultiplex.defaultEvents⟩ peer absent
      simp only [TcpServer.updateForRegister, absent, ↓reduceIte] at rest quiet
      subst rest
      apply opens_sessions holds
      constructor
      · rfl
      · exact free
      · exact unused
      · exact quiet
      · intro other present
        rcases (UnorderedMap.mem_emplace _ _ _ _).mp present with same | old
        · exact Or.inr ⟨same, rfl⟩
        · exact Or.inl old
      · intro sock incoming pairs
        exact Or.inl (pairs_same pairs rfl rfl (fun _ _ => id) fun _ _ => id)
      · intro other still
        exact named_fewer still rfl rfl rfl (fun _ _ => id) (fun _ _ => id) fun _ _ => id
      · exact Or.inl rfl
      · rfl
      · rfl
      · exact Or.inr unreported
      · rfl
      · rfl

theorem arrive_sessions {fd : Fd} {bytes : List Byte} (holds : Sessions state)
    (stepped : state.arrive fd bytes = some next) : Sessions next := by
  simp only [Passing.arrive] at stepped
  split at stepped
  · cases stepped
  · split at stepped
    · cases stepped
    · cases stepped
      exact named_sessions holds rfl rfl rfl rfl rfl fun fd still =>
        named_fewer still rfl rfl rfl (fun _ _ => id) (fun _ _ => id) fun _ _ => id

theorem finish_sessions {fd : Fd} (holds : Sessions state)
    (stepped : state.finish fd = some next) : Sessions next := by
  simp only [Passing.finish] at stepped
  split at stepped
  · cases stepped
  · cases stepped
    exact named_sessions holds rfl rfl rfl rfl rfl fun fd still =>
      named_fewer still rfl rfl rfl (fun _ _ => id) (fun _ _ => id) fun _ _ => id

theorem mem_close_all (group : LoopThreadGroup n) (fds : List Fd) (loop : Fin n) (fd : Fd) :
    fd ∈ (fds.foldl LoopThreadGroup.close group).dmpes loop ↔
      fd ∉ fds ∧ fd ∈ group.dmpes loop := by
  induction fds generalizing group with
  | nil => simp
  | cons closed rest ih =>
      rw [List.foldl_cons, ih, LoopThreadGroup.mem_close, List.mem_cons, not_or]
      tauto

theorem respond_sessions {reactor : Fin k} {resp : Resp} {wrote : Fd → Option Nat}
    (holds : Sessions state) (stepped : state.respond reactor resp wrote = some next) :
    Sessions next := by
  obtain ⟨server, picked, returned, handled⟩ := TcpServer.handle_resp_calm
    { state.server with closed := [] } (TcpServer.Quiet.calm holds.quiet) wrote resp
  simp only [Passing.respond, returned, Option.some.injEq] at stepped
  subst stepped
  have closed : ∀ fd, fd ∈ server.closed ↔
      fd = resp.fd ∧ resp.fd ∈ state.server.connMap ∧ resp.removes = true := by
    intro fd
    rw [handled.closed]
    split <;> simp_all
  have side : ∀ fd, fd ∉ server.closed → ∀ owned, state.kernel.side fd = some owned →
      (Option.map (fun conn => (state.role conn).isClient)
        ((state.threads.fds.closeAll server.closed).owner fd)) = some owned := by
    intro fd still owned known
    rw [FdTable.close_all_owner, if_neg still]
    exact known
  have less : Less state ({ state with
      server := server
      sockes := Function.update state.sockes reactor
        (state.sockes reactor ++ picked) }.closeAll server.closed) := by
    constructor
    · intro fd conn owned
      have open_after : (state.threads.fds.closeAll server.closed).owner fd = some conn := owned
      rw [FdTable.close_all_owner] at open_after
      split at open_after
      · cases open_after
      · exact open_after
    · exact FdTable.close_all_next _ _
    · rfl
    · intro sock incoming pairs
      exact pairs_same pairs rfl rfl (fun _ _ => id) fun _ _ => id
    · intro fd still
      cases still with
      | collected other member =>
          have listed : fd ∈ Function.update state.sockes reactor
            (state.sockes reactor ++ picked) other := member
          rw [Function.update_apply] at listed
          split at listed
          · rcases List.mem_append.mp listed with old | new
            · exact holds.named fd (.collected reactor old)
            · -- the handler only batches descriptors it found in `conn_map_`
              rw [handled.picked] at new
              split at new
              · next found =>
                  rw [List.mem_singleton.mp new, holds.clients resp.fd found.1]
                  exact nofun
              · cases new
          · exact holds.named fd (.collected other listed)
      | queued batch waits member => exact holds.named fd (.queued batch waits member)
      | popped thread taken member => exact holds.named fd (.popped thread taken member)
      | listed thread entry member same => exact holds.named fd (.listed thread entry member same)
      | passing thread pc => exact holds.named fd (.passing thread pc)
      | calling thread call => exact holds.named fd (.calling thread call)
    · exact holds.reported
    · exact holds.sending
    · rfl
  apply sessions_less holds less
  · have before : ({ state.server with closed := [] } : TcpServer).Quiet := holds.quiet
    exact TcpServer.handled_keeps before handled
  · intro fd present
    obtain ⟨before, kept⟩ := (TcpServer.mem_of_handled handled fd).mp present
    apply side fd _ true (holds.clients fd before)
    rw [closed]
    exact fun gone => kept ⟨gone.1, gone.2.2⟩
  · intro loop fd listed
    obtain ⟨still, before⟩ := (mem_close_all _ _ _ _).mp listed
    exact side fd still false (holds.watched loop fd before)

theorem notify_sessions {reactor : Fin k} (holds : Sessions state)
    (stepped : state.notify reactor = some next) : Sessions next := by
  cases stepped
  refine named_sessions holds rfl rfl rfl rfl rfl ?_
  intro fd still
  cases still with
  | collected other member =>
      simp only [Function.update_apply] at member
      split at member
      · cases member
      · exact .collected other member
  | queued batch waits member =>
      rcases List.mem_append.mp waits with old | new
      · exact .queued batch old member
      · exact .collected reactor (List.mem_singleton.mp new ▸ member)
  | popped thread taken member => exact .popped thread taken member
  | listed thread entry member same => exact .listed thread entry member same
  | passing thread pc => exact .passing thread pc
  | calling thread call => exact .calling thread call

theorem pop_sessions {thread : Fin m} (holds : Sessions state)
    (stepped : state.pop thread = some next) : Sessions next := by
  simp only [Passing.pop, LoadBalancer.popFront] at stepped
  split at stepped
  · cases queue : state.loader.sockQueue with
    | nil => simp [queue] at stepped
    | cons batch rest =>
        simp only [queue, Option.map_some, Option.some.injEq] at stepped
        subst stepped
        refine named_sessions holds rfl rfl rfl rfl rfl ?_
        intro fd still
        cases still with
        | collected reactor member => exact .collected reactor member
        | queued other waits member =>
            exact .queued other (by rw [queue]; exact List.mem_cons_of_mem _ waits) member
        | popped other taken member =>
            exact .queued batch (by rw [queue]; exact List.mem_cons_self) member
        | listed other entry member same => exact .listed other entry member same
        | passing other pc => exact .passing other pc
        | calling other call => exact .calling other call
  · cases stepped

theorem balance_sessions {thread : Fin m} {sockToBackend : UnorderedMap Fd InetAddr}
    (holds : Sessions state) (stepped : state.balance thread sockToBackend = some next) :
    Sessions next := by
  simp only [Passing.balance] at stepped
  split at stepped
  · next ready =>
      cases stepped
      refine named_sessions holds rfl rfl rfl rfl rfl ?_
      intro fd still
      cases still with
      | collected reactor member => exact .collected reactor member
      | queued batch waits member => exact .queued batch waits member
      | popped other taken member => exact .popped thread ready.1 member
      | listed other entry member same =>
          simp only [Function.update_apply] at member
          split at member
          · have key : entry.1 ∈ sockToBackend.keys := List.mem_map_of_mem member
            exact .popped thread ready.1 (same ▸ ready.2.2 entry.1 key)
          · exact .listed other entry member same
      | passing other pc => exact .passing other pc
      | calling other call => exact .calling other call
  · cases stepped

theorem forward_sessions {thread : Fin m} (holds : Sessions state)
    (stepped : state.forward thread = some next) : Sessions next := by
  simp only [Passing.forward] at stepped
  split at stepped
  · next incoming addr rest context idle =>
      obtain ⟨threads, began, rfl⟩ := Option.map_eq_some_iff.mp stepped
      simp only [Threads.forward] at began
      split at began
      · cases began
        refine sessions_same holds ?_ rfl rfl holds.watched
        constructor
        · exact fun _ _ => id
        · rfl
        · rfl
        · intro sock other pairs
          exact pairs_same pairs rfl rfl (went_on opened nofun) fun _ _ => id
        · intro fd still
          apply holds.named fd
          cases still with
          | collected reactor member => exact .collected reactor member
          | queued batch waits member => exact .queued batch waits member
          | popped other taken member => exact .popped other taken member
          | listed other entry member same => exact .listed other entry member same
          | passing other pc =>
              change client (Function.update state.threads.forwards thread _ other) = some fd at pc
              rw [Function.update_apply] at pc
              split at pc
              · exact .listed thread ⟨incoming, addr⟩ (by rw [context]; exact List.mem_cons_self)
                  (Option.some.inj pc)
              · exact .passing other pc
          | calling other call => exact .calling other call
        · exact holds.reported
        · exact holds.sending
        · rfl
      · cases began
  · cases stepped

/-- `connectTo` threw, and the pass is left with what remains of its context. -/
theorem threw_sessions (thread : Fin m) (holds : Sessions state) :
    Sessions { state with
      threads := { state.threads.goForward thread .idle with mx := none }
      contexts := Function.update state.contexts thread [] } := by
  refine sessions_same holds ?_ rfl rfl holds.watched
  constructor
  · exact fun _ _ => id
  · rfl
  · rfl
  · intro sock other pairs
    exact pairs_same pairs rfl rfl (went_on opened nofun) fun _ _ => id
  · intro fd still
    apply holds.named fd
    refine named_fewer still rfl rfl rfl ?_ (went_on client nofun) fun _ _ => id
    intro other entry member
    simp only [Function.update_apply] at member
    split at member
    · cases member
    · exact member
  · exact holds.reported
  · exact holds.sending
  · rfl

/-- The descriptor of the new backend is one that nothing names. -/
theorem connected_sessions {thread : Fin m} {incoming sock : Fd} (holds : Sessions state)
    (here : state.threads.forwards thread = .connect incoming)
    (free : state.threads.fds.owner sock = none) (unused : Unused state sock)
    (unnamed : ¬ Named state sock) :
    Sessions (state.attach { state.threads.goForward thread (.register incoming sock) with
      fds := state.threads.fds.allocate sock } (.backend (state.threads.fds.owner incoming))
      (state.target thread)) := by
  have pass : client (state.threads.forwards thread) = some incoming := by
    rw [here]
    rfl
  have different : incoming ≠ sock := by
    rintro rfl
    exact unnamed (.passing thread pass)
  apply opens_sessions holds
  constructor
  · rfl
  · exact free
  · exact unused
  · exact holds.quiet
  · exact fun _ => Or.inl
  · intro first second pairs
    cases pairs with
    | mapped found => exact Or.inl (.mapped found)
    | reversed found => exact Or.inl (.reversed found)
    | opened other pc =>
        change opened (Function.update state.threads.forwards thread _ other) = _ at pc
        rw [Function.update_apply] at pc
        split at pc
        · cases pc
          exact Or.inr ⟨rfl, different, rfl⟩
        · exact Or.inl (.opened other pc)
    | passing other call => exact Or.inl (.passing other call)
    | returning loop call => exact Or.inl (.returning loop call)
  · intro fd still
    exact named_fewer still rfl rfl rfl (fun _ _ => id)
      (went_on client (by rw [here]; exact fun _ => id)) fun _ _ => id
  · exact Or.inr unnamed
  · rfl
  · rfl
  · exact Or.inl rfl
  · rfl
  · rfl

theorem connect_sessions {thread : Fin m} {result : Option Fd} (holds : Sessions state)
    (unclaimed : ∀ sock ∈ result, Unused state sock ∧ ¬ Named state sock)
    (stepped : state.connect thread result = some next) : Sessions next := by
  obtain ⟨threads, connected, rest⟩ := Option.map_eq_some_iff.mp stepped
  simp only [Threads.connect] at connected
  split at connected
  · next incoming here =>
      cases connected
      simp only [here] at rest
      subst rest
      exact threw_sessions thread holds
  · next incoming sock here =>
      split at connected
      · cases connected
      · next free =>
          cases connected
          simp only [here] at rest
          subst rest
          obtain ⟨unused, unnamed⟩ := unclaimed sock rfl
          exact connected_sessions holds here free unused unnamed
  · cases connected

theorem sending_call (holds : Sessions state) {who : Fin n ⊕ Fin m} {pc : Option CallPc}
    (sends : ∀ source outFd packet recved total addr,
      pc = some (.send source outFd packet recved total addr) →
        Sends state.kernel source outFd recved) :
    ∀ other source outFd packet recved total addr,
      Function.update state.calls who pc other =
          some (.send source outFd packet recved total addr) →
        Sends state.kernel source outFd recved := by
  intro other source outFd packet recved total addr sending
  rw [Function.update_apply] at sending
  split at sending
  · exact sends source outFd packet recved total addr sending
  · exact holds.sending other source outFd packet recved total addr sending

theorem advance_sessions {thread : Fin m} (holds : Sessions state)
    (stepped : state.advance thread = some next) : Sessions next := by
  simp only [Passing.advance] at stepped
  split at stepped
  · cases stepped
  · obtain ⟨threads, advanced, rfl⟩ := Option.map_eq_some_iff.mp stepped
    have advances := advance_spec advanced
    refine sessions_same holds ?_ advances.fds rfl ?_
    · constructor
      · intro fd conn owned
        have after : threads.fds.owner fd = some conn := owned
        rw [advances.fds] at after
        exact after
      · exact congrArg FdTable.next advances.fds
      · rfl
      · intro sock incoming pairs
        cases pairs with
        | mapped found =>
            rcases advances.sockMap sock incoming found with old | pc
            · exact .mapped old
            · exact .opened thread pc
        | reversed found =>
            rcases advances.reversedMap incoming sock found with old | pc
            · exact .reversed old
            · exact .opened thread pc
        | opened other pc => exact .opened other (advances.opened other _ pc)
        | passing other call =>
            simp only [Passing.goCall, Function.update_apply] at call
            split at call
            · obtain ⟨pc, relays, pair⟩ := Option.bind_eq_some_iff.mp call
              obtain ⟨_, _, rfl, _, found⟩ := relays_cases relays
              cases pair
              exact .reversed found
            · exact .passing other call
        | returning loop call => exact .returning loop call
      · intro fd still
        apply holds.named fd
        cases still with
        | collected reactor member => exact .collected reactor member
        | queued batch waits member => exact .queued batch waits member
        | popped other taken member => exact .popped other taken member
        | listed other entry member same => exact .listed other entry member same
        | passing other pc => exact .passing other (advances.client other fd pc)
        | calling other call =>
            simp only [Passing.goCall, Function.update_apply] at call
            split at call
            · obtain ⟨pair, held, rfl⟩ := Option.map_eq_some_iff.mp call
              obtain ⟨pc, relays, same⟩ := Option.bind_eq_some_iff.mp held
              obtain ⟨_, _, rfl, passes, _⟩ := relays_cases relays
              cases same
              exact .passing thread passes
            · exact .calling other call
      · rintro fd ⟨loop, resp, member, same⟩
        have before : resp ∈ (threads.loops loop).resps := member
        rw [advances.loops] at before
        exact holds.reported fd ⟨loop, resp, before, same⟩
      · apply sending_call holds
        intro source outFd packet recved total addr sending
        obtain ⟨_, _, limits, _⟩ := relays_cases sending
        cases limits
      · rfl
    · intro loop fd listed
      rcases advances.watched loop fd listed with old | ⟨⟨incoming, pc⟩, isOpen⟩
      · exact holds.watched loop fd old
      · obtain ⟨backend, owned⟩ := Option.isSome_iff_exists.mp isOpen
        obtain ⟨openedFor, isBackend, _⟩ :=
          holds.paired fd incoming (.opened thread pc) backend owned
        rw [Kernel.side, show state.kernel.fds.owner fd = some backend from owned, Option.map_some,
          isBackend]
        rfl

/-- A call ends, or goes on with the numbers that it had. -/
theorem call_sessions (holds : Sessions state) {who : Fin n ⊕ Fin m} {pc : Option CallPc}
    (role : next.role = state.role) (threads : next.threads = state.threads)
    (server : next.server = state.server)
    (calls : next.calls = Function.update state.calls who pc)
    (transfers : next.transfers = state.transfers) (sockes : next.sockes = state.sockes)
    (loader : next.loader = state.loader) (popped : next.popped = state.popped)
    (contexts : ∀ thread, ∀ entry ∈ next.contexts thread, entry ∈ state.contexts thread)
    (keeps : ∀ pair, pc.bind CallPc.pair = some pair →
      (state.calls who).bind CallPc.pair = some pair)
    (sends : ∀ source outFd packet recved total addr,
      pc = some (.send source outFd packet recved total addr) →
        Sends state.kernel source outFd recved) : Sessions next := by
  have fds : next.kernel.fds = state.kernel.fds := congrArg Threads.fds threads
  refine sessions_same holds ?_ fds server (by rw [threads]; exact holds.watched)
  constructor
  · rw [fds]
    exact fun _ _ => id
  · rw [fds]
  · exact role
  · intro sock incoming pairs
    exact pairs_same pairs (by rw [threads]) (by rw [threads])
      (by rw [threads]; exact fun _ _ => id) (by rw [calls]; exact went_on_call keeps)
  · intro fd still
    apply holds.named fd
    apply named_fewer still sockes loader popped contexts
    · rw [threads]
      exact fun _ _ => id
    · rw [calls]
      exact fun thread => went_on_call keeps (.inr thread)
  · intro fd still
    rw [Reported, threads] at still
    exact holds.reported fd still
  · rw [calls]
    exact sending_call holds sends
  · exact transfers

/-- A call goes on to `send`, and needs the number it read from no more. -/
theorem goes_sending (holds : Sessions state) (who : Fin n ⊕ Fin m) {source : Option Nat}
    {outFd : Fd} (packet : Packet) {recved : Option Nat} (total : Nat)
    (addr : Option (List Char)) (stream : Nat → Stream)
    (sends : Sends state.kernel source outFd recved) :
    Sessions { state.goCall who (some (.send source outFd packet recved total addr)) with
      stream := stream } := by
  refine call_sessions holds rfl rfl rfl rfl rfl rfl rfl rfl (fun _ _ => id) ?_ ?_
  · intro pair held
    cases held
  · intro source outFd packet recved total addr sending
    cases sending
    exact sends

theorem back_sessions (holds : Sessions state) (who : Fin n ⊕ Fin m) (addr : Option (List Char))
    (total : Nat) : Sessions (state.back who addr total) :=
  call_sessions holds rfl rfl rfl rfl rfl rfl rfl rfl (back_contexts who addr total) nofun nofun

theorem limit_sessions {thread : Fin m} {garbage : InetAddr} (holds : Sessions state)
    (stepped : state.limit thread garbage = some next) : Sessions next := by
  simp only [Passing.limit] at stepped
  split at stepped
  · next incoming sock here =>
      split at stepped
      · cases stepped
        exact back_sessions holds _ _ _
      · cases stepped
        refine call_sessions holds rfl rfl rfl rfl rfl rfl rfl rfl (fun _ _ => id) ?_ nofun
        intro pair held
        rw [here]
        exact held
  · cases stepped

theorem wait_sessions {loop : Fin n} {resps : List Resp} (holds : Sessions state)
    (stepped : state.wait loop resps = some next) : Sessions next := by
  simp only [Passing.wait] at stepped
  split at stepped
  · cases stepped
  · obtain ⟨threads, waited, rfl⟩ := Option.map_eq_some_iff.mp stepped
    simp only [Threads.wait] at waited
    split at waited
    · next ready =>
        cases waited
        refine sessions_same holds ?_ rfl rfl holds.watched
        constructor
        · exact fun _ _ => id
        · rfl
        · rfl
        · intro sock incoming pairs
          exact pairs_same pairs rfl rfl (fun _ _ => id) fun _ _ => id
        · intro fd still
          apply holds.named fd
          exact named_fewer still rfl rfl rfl (fun _ _ => id) (fun _ _ => id) fun _ _ => id
        · rintro fd ⟨other, resp, member, rfl⟩
          simp only [Function.update_apply] at member
          split at member
          · -- epoll reports what it watches, which are open backends
            rw [holds.watched loop resp.fd (ready.2.2 resp member)]
            exact nofun
          · exact holds.reported resp.fd ⟨other, resp, member, rfl⟩
        · exact holds.sending
        · rfl
    · cases waited

theorem handle_sessions {loop : Fin n} (holds : Sessions state)
    (stepped : state.handle loop = some next) : Sessions next := by
  simp only [Passing.handle] at stepped
  split at stepped
  · cases stepped
  · obtain ⟨threads, handled, rfl⟩ := Option.map_eq_some_iff.mp stepped
    have handles := handle_spec handled
    have same_side : ∀ fd, threads.fds.owner fd = state.threads.fds.owner fd → ∀ side,
        state.kernel.side fd = some side →
          (threads.fds.owner fd).map (fun conn => (state.role conn).isClient) = some side := by
      intro fd same side known
      rw [same]
      exact known
    apply sessions_less holds
    · constructor
      · intro fd conn owned
        have after : threads.fds.owner fd = some conn := owned
        rcases handles.owners fd with same | ⟨closed, _⟩
        · rw [same] at after
          exact after
        · rw [closed] at after
          cases after
      · exact handles.numbers
      · rfl
      · intro sock incoming pairs
        cases pairs with
        | mapped found => exact .mapped (handles.sockMap sock incoming found)
        | reversed found => exact .reversed (handles.reversedMap incoming sock found)
        | opened thread pc =>
            rw [handles.forwards] at pc
            exact .opened thread pc
        | passing thread call => exact .passing thread call
        | returning other call =>
            simp only [Passing.goCall, Function.update_apply] at call
            split at call
            · obtain ⟨pc, returns, pair⟩ := Option.bind_eq_some_iff.mp call
              obtain ⟨_, _, rfl, found⟩ := returns_cases returns
              cases pair
              exact .mapped found
            · exact .returning other call
      · intro fd still
        apply holds.named fd
        refine named_fewer still rfl rfl rfl (fun _ _ => id) ?_ fun _ _ => id
        intro thread fd pc
        rw [← handles.forwards]
        exact pc
      · rintro fd ⟨other, resp, member, same⟩
        exact holds.reported fd ⟨other, resp, handles.resps other resp member, same⟩
      · apply sending_call holds
        intro source outFd packet recved total addr sending
        obtain ⟨_, _, reads, _⟩ := returns_cases sending
        cases reads
      · rfl
    · exact holds.quiet
    · intro fd present
      have known := holds.clients fd present
      rcases handles.owners fd with same | ⟨_, ⟨resp, member, rfl⟩, _⟩
      · exact same_side fd same true known
      · -- what a loop closes was reported as a backend
        exact absurd known (holds.reported resp.fd ⟨loop, resp, member, rfl⟩)
    · intro other fd listed
      have known := holds.watched other fd (handles.watched other fd listed)
      rcases handles.owners fd with same | ⟨_, _, unwatched⟩
      · exact same_side fd same false known
      · exact absurd listed (unwatched other)

/-- A call may send what it reads: its numbers are those of a client and of the backend
that was opened for it. -/
theorem may_send {who : Fin n ⊕ Fin m} {inFd outFd : Fd} {addr : Option (List Char)}
    (holds : Sessions state) (here : state.calls who = some (.read inFd outFd addr))
    {source dest : Nat} (sourceOwned : state.kernel.fds.owner inFd = some source)
    (destOwned : state.kernel.fds.owner outFd = some dest) :
    Related state.kernel.role source dest := by
  unfold Related
  have pair : (state.calls who).bind CallPc.pair = some (inFd, outFd) := by
    rw [here]
    rfl
  cases who with
  | inl loop =>
      obtain ⟨openedFor, isBackend, same⟩ :=
        holds.paired inFd outFd (.returning loop pair) source sourceOwned
      rw [isBackend]
      exact same dest destOwned
  | inr thread =>
      obtain ⟨openedFor, isBackend, same⟩ :=
        holds.paired outFd inFd (.passing thread pair) dest destOwned
      have notBackend := holds.named inFd (.calling thread (by rw [pair]; rfl))
      cases role : state.kernel.role source with
      | client =>
          simp only
          rw [isBackend, same source sourceOwned]
      | backend other => simp [Kernel.side, sourceOwned, role, Role.isClient] at notBackend

theorem read_sessions {who : Fin n ⊕ Fin m} {packet : Packet} {fails : Bool}
    (holds : Sessions state) (stepped : state.read who packet fails = some next) :
    Sessions next := by
  simp only [Passing.read] at stepped
  split at stepped
  · next inFd outFd addr here =>
      split at stepped
      · cases stepped
      · next bytes fits got =>
          cases stepped
          apply goes_sending holds
          constructor
          · intro conn owned
            exact ⟨state.kernel.fds.numbered inFd conn owned,
              fun dest destOwned => may_send holds here owned destOwned⟩
          · intro closed
            have shut : state.kernel.fds.owner inFd = none := closed
            simp [Kernel.read, shut] at got
      · cases stepped
        apply goes_sending holds who _ 0 addr state.stream
        constructor
        · intro conn taken
          cases taken
        · exact fun _ => rfl
  · cases stepped

/-- Bytes that are accepted stay inside the session that they were read in. -/
theorem accepted_sessions {who : Fin n ⊕ Fin m} {source : Option Nat} {outFd : Fd}
    {packet : Packet} {recved : Option Nat} {total dest : Nat} {addr : Option (List Char)}
    {bytes : List Byte} (holds : Sessions state)
    (here : state.calls who = some (.send source outFd packet recved total addr))
    (destOwned : state.threads.fds.owner outFd = some dest)
    (read : bytes ≠ [] → source ≠ none) :
    Sessions { state with transfers := state.transfers ++ [⟨source, dest, bytes⟩] } := by
  obtain ⟨sends, _⟩ := holds.sending who source outFd packet recved total addr here
  constructor
  · exact holds.quiet
  · exact holds.clients
  · intro sock incoming pairs
    exact holds.paired sock incoming (pairs_same pairs rfl rfl (fun _ _ => id) fun _ _ => id)
  · intro fd still
    apply holds.named fd
    exact named_fewer still rfl rfl rfl (fun _ _ => id) (fun _ _ => id) fun _ _ => id
  · exact holds.watched
  · exact holds.reported
  · exact holds.sending
  · intro transfer member
    rcases List.mem_append.mp member with old | new
    · exact holds.known transfer old
    · obtain rfl := List.mem_singleton.mp new
      exact ⟨fun conn taken => (sends conn taken).1, state.kernel.fds.numbered outFd dest destOwned⟩
  · intro transfer member
    rcases List.mem_append.mp member with old | new
    · exact holds.isolated transfer old
    · obtain rfl := List.mem_singleton.mp new
      intro unempty
      obtain ⟨conn, taken⟩ := Option.ne_none_iff_exists'.mp (read unempty)
      exact ⟨conn, taken, (sends conn taken).2 dest destOwned⟩

theorem send_sessions {who : Fin n ⊕ Fin m} {result : Option Nat} (holds : Sessions state)
    (sound : Sound state (.send who result)) (stepped : state.send who result = some next) :
    Sessions next := by
  simp only [Passing.send] at stepped
  split at stepped
  · next source outFd packet recved total addr here =>
      have sends := holds.sending who source outFd packet recved total addr here
      split at stepped
      · next dest count destOwned =>
          -- bytes of nobody would be accepted after a failed `read` only
          have read : SendCall.bytes packet.segment ⟨total, packet.length - total,
              some (min count (packet.length - total))⟩ ≠ [] → source ≠ none := by
            rintro unempty rfl
            rw [sends.2 rfl] at here
            simp only [Sound, here, destOwned, reduceCtorEq, or_false] at sound
            simp [SendCall.bytes, sound] at unempty
          have accepted := accepted_sessions holds here destOwned read
          split at stepped
          · cases stepped
            exact back_sessions accepted who addr _
          · cases stepped
            exact goes_sending accepted who packet _ addr state.stream sends
      · cases stepped
        exact back_sessions holds who addr total
  · cases stepped

end Steps

theorem step_sessions (state : Passing n m k) (action : Action n m k) (next : Passing n m k)
    (holds : Sessions state) (allowed : Unclaimed state action ∧ Sound state action)
    (stepped : machine.step state action = some next) : Sessions next := by
  obtain ⟨unclaimed, sound⟩ := allowed
  simp only [machine] at stepped
  split at stepped
  · cases stepped
  · cases action with
    | accept fd peer => exact accept_sessions holds unclaimed.1 unclaimed.2 stepped
    | arrive fd bytes => exact arrive_sessions holds stepped
    | finish fd => exact finish_sessions holds stepped
    | respond reactor resp wrote => exact respond_sessions holds stepped
    | notify reactor => exact notify_sessions holds stepped
    | pop thread => exact pop_sessions holds stepped
    | balance thread sockToBackend => exact balance_sessions holds stepped
    | forward thread => exact forward_sessions holds stepped
    | connect thread result =>
        refine connect_sessions holds ?_ stepped
        rintro sock ⟨⟩
        exact unclaimed
    | advance thread => exact advance_sessions holds stepped
    | limit thread garbage => exact limit_sessions holds stepped
    | wait loop resps => exact wait_sessions holds stepped
    | handle loop => exact handle_sessions holds stepped
    | read who packet fails => exact read_sessions holds stepped
    | send who result => exact send_sessions holds sound stepped

theorem start_sessions [NeZero n] : Sessions (Passing.start : Passing n m k) := by
  constructor
  · intro fd conn found
    cases found
  · intro fd present
    exact absurd present (AList.notMem_empty fd)
  · intro sock incoming pairs
    cases pairs with
    | mapped found => cases found
    | reversed found => cases found
    | opened thread pc => cases pc
    | passing thread call => cases call
    | returning loop call => cases call
  · intro fd _ backend
    cases backend
  · intro loop fd listed
    exact absurd listed (LoopThreadGroup.init_empty loop fd)
  · intro fd _ isClient
    cases isClient
  · intro who source outFd packet recved total addr sending
    cases sending
  · intro transfer member
    cases member
  · intro transfer member
    cases member

/-- In every run of the single steps in which no number is handed out that is still in
use, and no `send` is accepted after a `read` that failed, bytes stay inside the session
they came from. -/
theorem transfers_isolated [NeZero n] (actions : List (Action n m k)) (final : Passing n m k)
    (unclaimed : machine.Meets Unclaimed Passing.start actions)
    (sound : machine.Meets Sound Passing.start actions)
    (ran : machine.run Passing.start actions = some final) :
    ∀ transfer ∈ final.transfers, Isolated final.role transfer :=
  (machine.run_invariant Sessions step_sessions start_sessions (machine.meets_and unclaimed sound)
    ran).isolated

/-- A pass that connects a backend and gets one byte through to it. -/
def newPass (sock : Fd) : List (Action 1 1 1) :=
  let pass : Fin 1 := Fin.last 0
  [Action.forward pass] ++ List.replicate 3 (Action.advance pass) ++
    [Action.connect pass (some sock)] ++ List.replicate 6 (Action.advance pass) ++
    [Action.limit pass ⟨[], 0⟩, Action.read (.inr pass) (Io.fresh []).packet false,
      Action.send (.inr pass) (some 1)]

/-- An event of a backend that gets one byte through to its client. -/
def reply (sock : Fd) : List (Action 1 1 1) :=
  let loop : Fin 1 := Fin.last 0
  [Action.wait loop [⟨sock, Demultiplex.epollIn⟩], Action.handle loop, Action.handle loop,
    Action.read (.inl loop) (Io.fresh []).packet false, Action.send (.inl loop) (some 1)]

/-- Client 5 sends a byte, which backend 7 gets, and 7 answers with another. -/
def served : List (Action 1 1 1) :=
  let reactor : Fin 1 := Fin.last 0
  let loader : Fin 1 := Fin.last 0
  [Action.accept 5 ⟨['a'], 1⟩, Action.arrive 5 [1],
    Action.respond reactor ⟨5, Demultiplex.epollIn⟩ fun _ => none, Action.notify reactor,
    Action.pop loader,
    Action.balance loader ((∅ : UnorderedMap Fd InetAddr).emplace 5 ⟨['b'], 80⟩)] ++
  newPass 7 ++ [Action.arrive 7 [2]] ++ reply 7

theorem served_isolated : ∃ final, machine.run Passing.start served = some final ∧
    final.transfers = [⟨some 0, 1, [1]⟩, ⟨some 1, 0, [2]⟩] ∧
      ∀ transfer ∈ final.transfers, Isolated final.role transfer := by
  obtain ⟨final, ran, transfers⟩ := machine.run_reaches
    (fun final => decide (final.transfers = [⟨some 0, 1, [1]⟩, ⟨some 1, 0, [2]⟩]))
    Passing.start served (by decide +kernel)
  refine ⟨final, ran, of_decide_eq_true transfers, ?_⟩
  exact transfers_isolated served final (by decide +kernel) (by decide +kernel) ran

/-- The client closes, its number goes to another client, and the backend that
was opened for the first one answers again. -/
def replaced : List (Action 1 1 1) :=
  let reactor : Fin 1 := Fin.last 0
  served ++ [Action.finish 5,
    Action.respond reactor ⟨5, Demultiplex.epollRdHup⟩ fun _ => none,
    Action.accept 5 ⟨['c'], 2⟩, Action.arrive 7 [3]] ++ reply 7

theorem replaced_not_isolated : ¬ ∀ (actions : List (Action 1 1 1)) (final : Passing 1 1 1),
    machine.run Passing.start actions = some final →
      ∀ transfer ∈ final.transfers, Isolated final.role transfer := by
  intro isolated
  obtain ⟨final, ran, reached⟩ := machine.run_reaches
    (fun final => decide (⟨some 1, 2, [3]⟩ ∈ final.transfers ∧
      final.role 1 = .backend (some 0))) Passing.start replaced (by decide +kernel)
  obtain ⟨sent, role⟩ := of_decide_eq_true reached
  obtain ⟨source, read, related⟩ := isolated replaced final ran ⟨some 1, 2, [3]⟩ sent (by simp)
  cases read
  simp [Related, role] at related

end RProxy.Passes
