import RProxy.Wiring

/-!
Under edge-triggered events, whether unread bytes still have an event or a
batch to come that makes the proxy read them.
-/

namespace RProxy

namespace Kernel

variable (kernel : Kernel)

/-- A call of `forward` leaves no byte of the queue behind. -/
def Empties (io : Io) (fd : Fd) : Prop :=
  match kernel.fds.owner fd with
  | none => True
  | some conn => (kernel.stream conn).queue = [] ∨
      (io.readFails = false ∧ (kernel.stream conn).queue.length ≤ Packet.maxPacketSize)

instance (io : Io) (fd : Fd) : Decidable (kernel.Empties io fd) := by
  unfold Empties
  split <;> infer_instance

theorem consume_queue (io : Io) {inFd outFd : Fd} {conn : Nat}
    (owned : kernel.fds.owner inFd = some conn) :
    ((kernel.consume inFd (kernel.forwarded io inFd outFd).taken).stream conn).queue =
      (kernel.stream conn).queue.drop (kernel.forwarded io inFd outFd).taken.length := by
  rw [consume, modify_stream, if_pos owned]

theorem empties_queue {io : Io} {inFd outFd : Fd} {conn : Nat} (empties : kernel.Empties io inFd)
    (owned : kernel.fds.owner inFd = some conn) :
    ((kernel.consume inFd (kernel.forwarded io inFd outFd).taken).stream conn).queue = [] := by
  simp only [Empties, owned] at empties
  rw [consume_queue kernel io owned, taken_of_open kernel io inFd outFd conn owned]
  rcases empties with empty | ⟨works, fits⟩
  · rw [empty, List.drop_nil]
  · simp [works, fits]

/-- A call of `forward` queues no event and takes none away. -/
theorem consume_ready (io : Io) (inFd outFd : Fd) (conn : Nat) :
    ((kernel.consume inFd (kernel.forwarded io inFd outFd).taken).stream conn).ready =
      (kernel.stream conn).ready := by
  rw [consume, modify_stream]
  split <;> rfl

theorem consume_unread {io : Io} {inFd outFd : Fd} {conn : Nat}
    (unread : ((kernel.consume inFd (kernel.forwarded io inFd outFd).taken).stream conn).queue ≠ []) :
    (kernel.stream conn).queue ≠ [] := by
  intro empty
  apply unread
  rw [consume, modify_stream]
  split
  · simp [empty]
  · exact empty

theorem attach_empties {io : Io} {incoming : Fd} (empties : kernel.Empties io incoming) (sock : Fd)
    (role : Role) (peer : InetAddr) : (kernel.attach sock role peer).Empties io incoming := by
  simp only [Empties] at empties ⊢
  simp only [attach, FdTable.allocate_owner]
  by_cases same : incoming = sock
  · simp [same, Stream.new]
  · simp only [same, ↓reduceIte]
    cases owned : kernel.fds.owner incoming with
    | none => trivial
    | some conn =>
        have old := Nat.ne_of_lt (kernel.fds.numbered incoming conn owned)
        simpa [owned, old] using empties

theorem report_queue (fds : List Fd) (conn : Nat) :
    ((kernel.report fds).stream conn).queue = (kernel.stream conn).queue := by
  simp only [report]
  split <;> rfl

theorem report_empties {io : Io} {fd : Fd} (empties : kernel.Empties io fd) (fds : List Fd) :
    (kernel.report fds).Empties io fd := by
  simp only [Empties] at empties ⊢
  simp only [report_queue]
  exact empties

/-- An event that is reported is one of the descriptors that are named. -/
theorem report_stream {fds : List Fd} {fd : Fd} {conn : Nat}
    (owned : kernel.fds.owner fd = some conn) (unreported : fd ∉ fds) :
    (kernel.report fds).stream conn = kernel.stream conn := by
  have none : ¬ (fds.any fun other => kernel.fds.owner other == some conn) = true := by
    rw [List.any_eq_true]
    rintro ⟨other, member, hit⟩
    rw [kernel.fds.distinct other fd conn (by simpa using hit) owned] at member
    exact unreported member
  simp only [report, none, Bool.false_eq_true, ↓reduceIte]

end Kernel

namespace Proxy

/-- `epoll_wait` reports no bit that was not registered. -/
def Registered (_ : System) : Action → Prop
  | .serverWait resps _ => ∀ resp ∈ resps, resp.events &&& ~~~ Demultiplex.defaultEvents = 0#32
  | .proxyWait resp _ => resp.events &&& ~~~ Demultiplex.defaultEvents = 0#32
  | _ => True

instance (state : System) (action : Action) : Decidable (Registered state action) := by
  unfold Registered
  split <;> infer_instance

/-- The client a socket is of: its own, or the one of the backend. -/
def System.clientOf (state : System) (fd : Fd) : Fd := (state.sockMap.lookup fd).getD fd

def System.limited (state : System) (fd : Fd) : Bool :=
  match state.kernel.fds.owner fd with
  | none => false
  | some conn => state.center.isLismited (state.kernel.peer conn).toString

/-- An unread byte of an open socket in the tables has an event to come, or a
batch that names the socket, unless its client is limited. -/
def Drained (state : System) : Prop :=
  ∀ fd conn, state.kernel.fds.owner fd = some conn →
    (fd ∈ state.server.connMap ∨ fd ∈ state.sockMap) → state.limited (state.clientOf fd) = false →
      (state.kernel.stream conn).queue ≠ [] →
        (state.kernel.stream conn).ready = true ∨ state.Named fd

/-- The same for one descriptor, if it belongs to a client. -/
def System.Covered (state : System) (fd : Fd) : Prop :=
  match state.kernel.fds.owner fd with
  | none => True
  | some conn => (state.kernel.role conn).isClient = true → state.limited fd = false →
      (state.kernel.stream conn).queue ≠ [] →
        (state.kernel.stream conn).ready = true ∨ state.Named fd

instance (state : System) (fd : Fd) : Decidable (state.Covered fd) := by
  unfold System.Covered
  split <;> infer_instance

/-- What a step takes an event or a batch for, it reads to the end, or there is
another event or batch to come. A `connectTo` that throws gives up the rest of
the context, which then must not be needed. -/
def Drains (state : System) : Action → Prop
  | .forwardNext connect _ io =>
      match state.context with
      | [] => True
      | entry :: rest =>
          if entry.1 ∈ state.reversedMap ∨ connect.isSome = true then
            (state.popped rest).Covered entry.1 ∨ state.kernel.Empties io entry.1
          else ∀ other ∈ state.context, (state.popped []).Covered other.1
  | .proxyWait resp io => resp.isClosable = true ∨ state.kernel.Empties io resp.fd
  | _ => True

instance (state : System) (action : Action) : Decidable (Drains state action) := by
  unfold Drains
  split
  · split
    · infer_instance
    · infer_instance
  · infer_instance
  · infer_instance

/-- `skipped` are the clients whose batch is being worked on. -/
structure Watched (skipped : Fd → Prop) (state : System) : Prop where
  wired : Wired state
  accounted : ∀ fd conn, state.kernel.fds.owner fd = some conn →
    (state.kernel.role conn).isClient = true →
      (state.kernel.peer conn).toString ∈ state.center.traffic
  clients : ∀ fd, ¬ skipped fd → state.Covered fd
  backends : ∀ fd conn, state.kernel.fds.owner fd = some conn →
    (state.kernel.role conn).isClient = false → (state.kernel.stream conn).queue ≠ [] →
      (state.kernel.stream conn).ready = true

/-- What became of an open descriptor in a step. -/
inductive Steady (state next : System) (fd : Fd) (conn : Nat) : Prop where
  | opened (empty : (next.kernel.stream conn).queue = [])
      (accounted : (next.kernel.role conn).isClient = true →
        (next.kernel.peer conn).toString ∈ next.center.traffic)
  | stayed (owned : state.kernel.fds.owner fd = some conn)
      (role : next.kernel.role conn = state.kernel.role conn)
      (peer : next.kernel.peer conn = state.kernel.peer conn)
      (served : (next.kernel.stream conn).queue ≠ [] →
        (next.kernel.stream conn).ready = true ∨
          ((next.kernel.role conn).isClient = true ∧ next.Named fd) ∨
          ((state.kernel.stream conn).queue ≠ [] ∧
            ((state.kernel.stream conn).ready = true → (next.kernel.stream conn).ready = true)))

/-- An address that has been accounted for stays so, and stays limited. -/
def Accounts (center next : PubSubCenter Unit Unit) : Prop :=
  ∀ addr ∈ center.traffic, addr ∈ next.traffic ∧
    (center.isLismited addr = true → next.isLismited addr = true)

theorem covered_steady {state next : System} {fd : Fd} (covered : state.Covered fd)
    (accounted : ∀ conn, state.kernel.fds.owner fd = some conn →
      (state.kernel.role conn).isClient = true →
        (state.kernel.peer conn).toString ∈ state.center.traffic)
    (accounts : Accounts state.center next.center) (named : state.Named fd → next.Named fd)
    (steady : ∀ conn, next.kernel.fds.owner fd = some conn → Steady state next fd conn) :
    next.Covered fd := by
  unfold System.Covered
  split
  · trivial
  · next conn owned =>
      intro client unlimited unread
      cases steady conn owned with
      | opened empty _ => exact absurd empty unread
      | stayed ownedBefore role peer served =>
          rcases served unread with ready | ⟨_, named⟩ | ⟨unreadBefore, ready⟩
          · exact Or.inl ready
          · exact Or.inr named
          · rw [role] at client
            simp only [System.limited, owned, peer] at unlimited
            -- a limited client stays limited, so this one was not before either
            have unlimitedBefore : state.center.isLismited (state.kernel.peer conn).toString =
                false := by
              cases limited : state.center.isLismited (state.kernel.peer conn).toString with
              | false => rfl
              | true =>
                  have known := accounted conn ownedBefore client
                  rw [(accounts _ known).2 limited] at unlimited
                  cases unlimited
            simp only [System.Covered, ownedBefore, System.limited] at covered
            rcases covered client unlimitedBefore unreadBefore with still | pending
            · exact Or.inl (ready still)
            · exact Or.inr (named pending)

theorem watched_steady {skipped later : Fd → Prop} {state next : System}
    (holds : Watched skipped state) (wired : Wired next)
    (accounts : Accounts state.center next.center)
    (named : ∀ fd, ¬ later fd → ¬ skipped fd ∧ (state.Named fd → next.Named fd))
    (steady : ∀ fd conn, next.kernel.fds.owner fd = some conn → Steady state next fd conn) :
    Watched later next := by
  constructor
  · exact wired
  · intro fd conn owned client
    cases steady fd conn owned with
    | opened _ accounted => exact accounted client
    | stayed ownedBefore role peer _ =>
        rw [role] at client
        rw [peer]
        exact (accounts _ (holds.accounted fd conn ownedBefore client)).1
  · intro fd kept
    obtain ⟨before, names⟩ := named fd kept
    exact covered_steady (holds.clients fd before) (holds.accounted fd) accounts names (steady fd)
  · intro fd conn owned backend unread
    cases steady fd conn owned with
    | opened empty _ => exact absurd empty unread
    | stayed ownedBefore role _ served =>
        rcases served unread with ready | ⟨client, _⟩ | ⟨unreadBefore, ready⟩
        · exact ready
        · rw [client] at backend
          cases backend
        · rw [role] at backend
          exact ready (holds.backends fd conn ownedBefore backend unreadBefore)

/-- The clients that were skipped are covered after all. -/
theorem watched_all {skipped : Fd → Prop} {state : System} (holds : Watched skipped state)
    (covered : ∀ fd, skipped fd → state.Covered fd) : Watched (fun _ => False) state := by
  constructor
  · exact holds.wired
  · exact holds.accounted
  · intro fd _
    by_cases here : skipped fd
    · exact covered fd here
    · exact holds.clients fd here
  · exact holds.backends

theorem accounts_refl (center : PubSubCenter Unit Unit) : Accounts center center :=
  fun _ known => ⟨known, id⟩

/-- The traffic of an address grows only while it is not limited. -/
theorem accounts_account {center : PubSubCenter Unit Unit} {addr : List Char}
    (unlimited : center.isLismited addr = false) (traffic : UInt64) :
    Accounts center (center.account addr traffic) := by
  intro other known
  constructor
  · rw [PubSubCenter.mem_account]
    exact Or.inr known
  · intro limited
    have different : other ≠ addr := by
      intro same
      rw [same, unlimited] at limited
      cases limited
    rw [PubSubCenter.limited_account_other center different]
    exact limited

theorem accounts_zero (center : PubSubCenter Unit Unit) (addr : List Char) :
    Accounts center (center.account addr 0) := by
  intro other known
  constructor
  · rw [PubSubCenter.mem_account]
    exact Or.inr known
  · intro limited
    rw [PubSubCenter.limited_account_zero center known]
    exact limited

/-- Nothing happened to the connection. -/
theorem steady_same {state next : System} {fd : Fd} {conn : Nat}
    (owned : state.kernel.fds.owner fd = some conn)
    (role : next.kernel.role conn = state.kernel.role conn)
    (peer : next.kernel.peer conn = state.kernel.peer conn)
    (stream : next.kernel.stream conn = state.kernel.stream conn) : Steady state next fd conn := by
  apply Steady.stayed owned role peer
  rw [stream]
  intro unread
  exact Or.inr (Or.inr ⟨unread, id⟩)

theorem accepted_watched {state : System} (holds : Watched (fun _ => False) state) {fd : Fd}
    {peer : InetAddr} (free : state.kernel.fds.owner fd = none)
    (absent : fd ∉ state.server.connMap) :
    Watched (fun _ => False) (state.accepted fd peer) := by
  apply watched_steady holds (accepted_wired holds.wired free absent)
  · exact accounts_zero state.center peer.toString
  · exact fun _ _ => ⟨id, id⟩
  · intro other conn owned
    simp only [System.accepted, Kernel.attach, FdTable.allocate_owner] at owned
    split at owned
    · obtain rfl := Option.some.inj owned
      apply Steady.opened
      · simp [System.accepted, Kernel.attach, Stream.new]
      · intro _
        simp [System.accepted, Kernel.attach, PubSubCenter.mem_account]
    · have old := Nat.ne_of_lt (state.kernel.fds.numbered other conn owned)
      apply steady_same owned <;> simp [System.accepted, Kernel.attach, old]

theorem modified_watched {state : System} (holds : Watched (fun _ => False) state) (fd : Fd)
    {change : Stream → Stream} (queues : ∀ stream, (change stream).ready = true) :
    Watched (fun _ => False) { state with kernel := state.kernel.modify fd change } := by
  apply watched_steady holds (modified_wired holds.wired fd change)
  · exact accounts_refl state.center
  · exact fun _ _ => ⟨id, id⟩
  · intro other conn owned
    rw [Kernel.modify_fds] at owned
    by_cases here : state.kernel.fds.owner fd = some conn
    · apply Steady.stayed owned
      · rw [Kernel.modify_role]
      · rw [Kernel.modify_peer]
      · intro _
        left
        rw [Kernel.modify_stream, if_pos here]
        exact queues _
    · apply steady_same owned
      · rw [Kernel.modify_role]
      · rw [Kernel.modify_peer]
      · rw [Kernel.modify_stream, if_neg here]

/-- A call of `forward` takes bytes and leaves the events alone. -/
theorem forwarded_steady (state : System) (center : PubSubCenter Unit Unit) (io : Io)
    (inFd outFd fd : Fd) (conn : Nat)
    (owned : (state.forwarded center io inFd outFd).kernel.fds.owner fd = some conn) :
    Steady state (state.forwarded center io inFd outFd) fd conn := by
  rw [System.forwarded, Kernel.consume, Kernel.modify_fds] at owned
  apply Steady.stayed owned
  · exact congrFun (Kernel.modify_role _ _ _) conn
  · exact congrFun (Kernel.modify_peer _ _ _) conn
  · intro unread
    right
    right
    constructor
    · exact Kernel.consume_unread state.kernel unread
    · intro ready
      exact (Kernel.consume_ready state.kernel io inFd outFd conn).trans ready

theorem establish_steady (state : System) (sock incoming : Fd) (addr : InetAddr) (fd : Fd)
    (conn : Nat) (owned : (state.establish sock incoming addr).kernel.fds.owner fd = some conn) :
    Steady state (state.establish sock incoming addr) fd conn := by
  simp only [System.establish, Kernel.attach, FdTable.allocate_owner] at owned
  split at owned
  · obtain rfl := Option.some.inj owned
    apply Steady.opened
    · simp [System.establish, Kernel.attach, Stream.new]
    · simp [System.establish, Kernel.attach, Role.isClient]
  · have old := Nat.ne_of_lt (state.kernel.fds.numbered fd conn owned)
    apply steady_same owned <;> simp [System.establish, Kernel.attach, old]

theorem popped_watched {state : System} (holds : Watched (fun _ => False) state)
    {incoming : Fd} {addr : InetAddr} {rest : List (Sigma fun _ : Fd => InetAddr)}
    (context : state.context = ⟨incoming, addr⟩ :: rest) :
    Watched (fun fd => fd = incoming) (state.popped rest) := by
  apply watched_steady holds (popped_wired holds.wired rest)
  · exact accounts_refl state.center
  · intro fd other
    refine ⟨id, fun named => ?_⟩
    rcases named with ⟨entry, member, same⟩ | queued
    · rw [context] at member
      rcases List.mem_cons.mp member with first | later
      · subst first
        exact absurd same.symm other
      · exact Or.inl ⟨entry, later, same⟩
    · exact Or.inr queued
  · intro fd conn owned
    exact steady_same owned rfl rfl rfl

/-- `connectTo` throws, and nothing that the context still named is needed. -/
theorem given_up_watched {state : System} (holds : Watched (fun _ => False) state)
    (covered : ∀ entry ∈ state.context, (state.popped []).Covered entry.1) :
    Watched (fun _ => False) (state.popped []) := by
  have others : Watched (fun fd => ∃ entry ∈ state.context, entry.1 = fd) (state.popped []) := by
    apply watched_steady holds (popped_wired holds.wired [])
    · exact accounts_refl state.center
    · intro fd unnamed
      refine ⟨id, fun named => ?_⟩
      rcases named with inContext | queued
      · exact absurd inContext unnamed
      · exact Or.inr queued
    · intro fd conn owned
      exact steady_same owned rfl rfl rfl
  apply watched_all others
  rintro fd ⟨entry, member, rfl⟩
  exact covered entry member

/-- A pass leaves its client limited, drained, or covered by something else. -/
theorem relay_watched {state next : System} {incoming sock : Fd} {garbage : InetAddr} {io : Io}
    (holds : Watched (fun fd => fd = incoming) state)
    (found : state.reversedMap.lookup incoming = some sock)
    (drains : state.Covered incoming ∨ state.kernel.Empties io incoming)
    (relayed : state.relay incoming garbage io = some next) :
    Watched (fun _ => False) next := by
  -- a limited client is skipped and needs no event; another is read
  rcases relay_cases found relayed with ⟨limited, rfl⟩ | ⟨unlimited, rfl⟩
  · apply watched_all holds
    intro fd same
    subst same
    unfold System.Covered
    split
    · trivial
    · next conn owned =>
        intro _ unlimited
        simp only [System.limited, owned] at unlimited
        simp only [Kernel.getPeerAddr, owned, unlimited] at limited
        cases limited
  · have accounts : Accounts state.center (state.accounted io incoming sock
        (state.kernel.getPeerAddr incoming garbage).toString) := by
      simp only [System.accounted]
      split
      · exact accounts_account unlimited _
      · exact accounts_refl state.center
    have later := watched_steady holds (forwarded_wired holds.wired _ io incoming sock) accounts
      (fun _ kept => ⟨kept, id⟩) (forwarded_steady state _ io incoming sock)
    apply watched_all later
    intro fd same
    subst same
    rcases drains with covered | empties
    · exact covered_steady covered (holds.accounted fd) accounts id
        (forwarded_steady state _ io fd sock fd)
    · unfold System.Covered
      split
      · trivial
      · next conn owned =>
          intro _ _ unread
          rw [System.forwarded, Kernel.consume, Kernel.modify_fds] at owned
          exact absurd (Kernel.empties_queue state.kernel empties owned) unread

/-- An event of a client that has unread bytes and stays open goes into the batch. -/
theorem unread_passes {state : System} (wired : Wired state) {resps : List Resp}
    {server : TcpServer} {sockes : List Fd} {resp : Resp} {conn : Nat} (member : resp ∈ resps)
    (reported : state.kernel.reports true resp = true) (unwritable : resp.isWritable = false)
    (swept : TcpServer.Swept { state.server with closed := [] } resps server sockes)
    (owned : state.kernel.fds.owner resp.fd = some conn) (kept : resp.fd ∉ server.closed)
    (unread : (state.kernel.stream conn).queue ≠ []) : resp.passes = true := by
  have readable : resp.isReadable = true := by
    cases read : resp.isReadable with
    | true => rfl
    | false => exact absurd (state.kernel.reports_queue reported owned read) unread
  have stays : resp.isClosable = false := by
    cases closes : resp.isClosable with
    | false => rfl
    | true =>
        have removes : resp.removes = true := by simp [Resp.removes, closes, unwritable]
        have listed := (wired.clients resp.fd).mpr (state.kernel.reports_side reported)
        exact absurd ((swept.closed resp.fd).mpr (Or.inr ⟨listed, resp, member, rfl, removes⟩)) kept
  simp [Resp.passes, readable, stays]

theorem swept_steady {state : System} (wired : Wired state) {resps : List Resp}
    {server : TcpServer} {sockes : List Fd}
    (reported : ∀ resp ∈ resps, state.kernel.reports true resp = true)
    (unwritable : ∀ resp ∈ resps, resp.isWritable = false)
    (swept : TcpServer.Swept { state.server with closed := [] } resps server sockes)
    (wiredNext : Wired (state.swept resps server sockes)) (fd : Fd) (conn : Nat)
    (owned : (state.swept resps server sockes).kernel.fds.owner fd = some conn) :
    Steady state (state.swept resps server sockes) fd conn := by
  have ownedBefore : state.kernel.fds.owner fd = some conn ∧ fd ∉ server.closed := by
    simp only [System.swept, Kernel.close, FdTable.close_all_owner] at owned
    split at owned
    · cases owned
    · next kept => exact ⟨owned, kept⟩
  have queue : ((state.swept resps server sockes).kernel.stream conn).queue =
      (state.kernel.stream conn).queue := by
    simp only [System.swept, Kernel.close, Kernel.batch, Kernel.report]
    split <;> split <;> rfl
  apply Steady.stayed ownedBefore.1
  · rfl
  · rfl
  · rw [queue]
    intro unread
    right
    -- a reported event is used up, so the batch has to name its descriptor
    by_cases event : ∃ resp ∈ resps, resp.fd = fd
    · left
      obtain ⟨resp, member, rfl⟩ := event
      have client := state.kernel.reports_side (reported resp member)
      have passes := unread_passes wired member (reported resp member) (unwritable resp member)
        swept ownedBefore.1 ownedBefore.2 unread
      have present : resp.fd ∈ server.connMap := by
        apply (wiredNext.clients resp.fd).mpr
        rw [System.swept, Kernel.close_side, if_neg ownedBefore.2]
        exact client
      constructor
      · show (state.kernel.role conn).isClient = true
        simpa [Kernel.side, ownedBefore.1] using client
      · right
        exact ⟨sockes, List.mem_append_right _ (List.mem_singleton_self _),
          swept.complete resp member passes present⟩
    · right
      constructor
      · exact unread
      · intro ready
        have unreported : fd ∉ resps.map Resp.fd := by
          intro member
          obtain ⟨resp, listed, named⟩ := List.mem_map.mp member
          exact event ⟨resp, listed, named⟩
        have stream := state.kernel.report_stream ownedBefore.1 unreported
        simp only [System.swept, Kernel.close, Kernel.batch, stream]
        split <;> exact ready

theorem swept_watched {state : System} (holds : Watched (fun _ => False) state)
    {resps : List Resp} {server : TcpServer} {sockes : List Fd}
    (reported : ∀ resp ∈ resps, state.kernel.reports true resp = true)
    (unwritable : ∀ resp ∈ resps, resp.isWritable = false) (quiet : server.Quiet)
    (swept : TcpServer.Swept { state.server with closed := [] } resps server sockes) :
    Watched (fun _ => False) (state.swept resps server sockes) := by
  have wired := swept_wired holds.wired quiet swept
  apply watched_steady holds wired
  · exact accounts_refl state.center
  · intro fd _
    refine ⟨id, fun named => ?_⟩
    rcases named with inContext | ⟨batch, queued, member⟩
    · exact Or.inl inContext
    · exact Or.inr ⟨batch, List.mem_append_left _ queued, member⟩
  · exact swept_steady holds.wired reported unwritable swept wired

/-- A backend's event is answered by one call of `forward`, which reads all. -/
theorem returned_watched {state : System} (holds : Watched (fun _ => False) state) {resp : Resp}
    {io : Io} (incoming : Fd) (empties : state.kernel.Empties io resp.fd) :
    Watched (fun _ => False)
      ((state.reported resp.fd).forwarded state.center io resp.fd incoming) := by
  apply watched_steady holds
    (forwarded_wired (reported_wired holds.wired resp.fd) state.center io resp.fd incoming)
  · exact accounts_refl state.center
  · exact fun _ _ => ⟨id, id⟩
  · intro fd conn owned
    have ownedBefore : state.kernel.fds.owner fd = some conn := by
      rw [System.forwarded, Kernel.consume, Kernel.modify_fds] at owned
      exact owned
    apply Steady.stayed ownedBefore
    · exact congrFun (Kernel.modify_role _ _ _) conn
    · exact congrFun (Kernel.modify_peer _ _ _) conn
    · intro unread
      -- the event is used up here, so the call has to read all there is
      by_cases here : fd = resp.fd
      · subst here
        have later := state.kernel.report_empties empties [resp.fd]
        exact absurd (Kernel.empties_queue _ later ownedBefore) unread
      · right
        right
        have stream : (state.kernel.report [resp.fd]).stream conn = state.kernel.stream conn :=
          state.kernel.report_stream ownedBefore (by simpa using here)
        constructor
        · rw [← stream]
          exact Kernel.consume_unread _ unread
        · rw [← stream]
          intro ready
          exact (Kernel.consume_ready _ io resp.fd incoming conn).trans ready

theorem cleaned_watched {state : System} (holds : Watched (fun _ => False) state) {resp : Resp}
    {incoming : Fd} (found : state.sockMap.lookup resp.fd = some incoming) :
    Watched (fun _ => False) (state.cleaned resp incoming) := by
  apply watched_steady holds (cleaned_wired holds.wired found)
  · exact accounts_refl state.center
  · exact fun _ _ => ⟨id, id⟩
  · intro fd conn owned
    simp only [System.cleaned, Kernel.close, FdTable.close_all_owner] at owned
    split at owned
    · cases owned
    · next kept =>
        exact steady_same owned rfl rfl (state.kernel.report_stream owned kept)

/-- An event without READABLE and CLOSABLE finds nothing to read. -/
theorem reported_watched {state : System} (holds : Watched (fun _ => False) state) {resp : Resp}
    (reported : state.kernel.reports false resp = true) (unreadable : resp.isReadable = false) :
    Watched (fun _ => False) (state.reported resp.fd) := by
  apply watched_steady holds (reported_wired holds.wired resp.fd)
  · exact accounts_refl state.center
  · exact fun _ _ => ⟨id, id⟩
  · intro fd conn owned
    have ownedBefore : state.kernel.fds.owner fd = some conn := owned
    by_cases here : fd = resp.fd
    · subst here
      apply Steady.stayed ownedBefore
      · rfl
      · rfl
      · intro unread
        have empty := state.kernel.reports_queue reported ownedBefore unreadable
        rw [← state.kernel.report_queue [resp.fd]] at empty
        exact absurd empty unread
    · exact steady_same ownedBefore rfl rfl
        (state.kernel.report_stream ownedBefore (by simpa using here))

theorem not_writable {resp : Resp} (registered : resp.events &&& ~~~ Demultiplex.defaultEvents = 0#32) :
    resp.isWritable = false := by
  have outside : Demultiplex.writable = ~~~ Demultiplex.defaultEvents &&& Demultiplex.writable := by
    decide
  have none : resp.events &&& Demultiplex.writable = 0#32 := by
    rw [outside, ← BitVec.and_assoc, registered, BitVec.zero_and]
  simp [Resp.isWritable, Demultiplex.has, none]

theorem balanced_watched {state : System} (holds : Watched (fun _ => False) state)
    {sockToBackend : UnorderedMap Fd InetAddr} {batch : List Fd} {rest : List (List Fd)}
    (empty : state.context = []) (queue : state.loader.sockQueue = batch :: rest)
    (assigns : Assigns sockToBackend batch) {next : System} (wired : Wired next)
    (balanced : next = { state with
      loader := { state.loader with sockes := batch, sockQueue := rest }
      context := sockToBackend.entries }) : Watched (fun _ => False) next := by
  subst balanced
  apply watched_steady holds wired
  · exact accounts_refl state.center
  · intro fd _
    constructor
    · exact id
    · rintro (⟨entry, member, _⟩ | ⟨other, queued, member⟩)
      · rw [empty] at member
        cases member
      · rw [queue] at queued
        rcases List.mem_cons.mp queued with rfl | later
        · rcases List.mem_map.mp (assigns.1 fd member) with ⟨entry, listed, same⟩
          exact Or.inl ⟨entry, listed, same⟩
        · exact Or.inr ⟨other, later, member⟩
  · intro fd conn owned
    exact steady_same owned rfl rfl rfl

theorem established_watched {state next : System} (holds : Watched (fun _ => False) state)
    {incoming sock : Fd} {addr : InetAddr} {rest : List (Sigma fun _ : Fd => InetAddr)}
    {garbage : InetAddr} {io : Io} (context : state.context = ⟨incoming, addr⟩ :: rest)
    (absent : incoming ∉ state.reversedMap) (free : state.kernel.fds.owner sock = none)
    (drains : (state.popped rest).Covered incoming ∨ state.kernel.Empties io incoming)
    (relayed : ((state.popped rest).establish sock incoming addr).relay incoming garbage io =
      some next) : Watched (fun _ => False) next := by
  have popped := popped_watched holds context
  have steady := establish_steady (state.popped rest) sock incoming addr
  have established := watched_steady popped (establish_wired popped.wired addr free absent)
    (accounts_refl state.center) (fun _ kept => ⟨kept, id⟩) steady
  apply relay_watched established (establish_found (state.popped rest) addr absent) _ relayed
  rcases drains with covered | empties
  · left
    exact covered_steady covered (popped.accounted incoming) (accounts_refl state.center) id
      (steady incoming)
  · right
    exact (state.popped rest).kernel.attach_empties empties sock _ addr

theorem step_watched (state : System) (action : Action) (next : System)
    (holds : Watched (fun _ => False) state)
    (allowed : Registered state action ∧ Drains state action)
    (stepped : proxy.step state action = some next) : Watched (fun _ => False) next := by
  rcases allowed with ⟨registered, drains⟩
  have wired := step_wired state action next holds.wired stepped
  cases step_outcome holds.wired stepped with
  | accepted free absent => exact accepted_watched holds free absent
  | arrived => exact modified_watched holds _ fun _ => rfl
  | finished => exact modified_watched holds _ fun _ => rfl
  | swept _ reported quiet swept =>
      exact swept_watched holds reported (fun resp member => not_writable (registered resp member))
        quiet swept
  | balanced empty queue assigns => exact balanced_watched holds empty queue assigns wired rfl
  | relayed context found relayed =>
      have present := UnorderedMap.mem_of_lookup found
      simp only [Drains, context, present, true_or, ↓reduceIte] at drains
      exact relay_watched (popped_watched holds context) found drains relayed
  | established context absent free relayed =>
      simp only [Drains, context, absent, Option.isSome_some, or_true, ↓reduceIte] at drains
      exact established_watched holds context absent free drains relayed
  | givenUp context absent =>
      apply given_up_watched holds
      simp only [Drains, context, absent, Option.isSome_none, Bool.false_eq_true, or_self,
        ↓reduceIte] at drains
      rw [context]
      exact drains
  | returned _ _ _ stays =>
      rcases drains with closable | empties
      · rw [closable] at stays
        cases stays
      · exact returned_watched holds _ empties
  | cleaned _ found => exact cleaned_watched holds found
  | ignored reported unreadable => exact reported_watched holds reported unreadable

theorem start_watched : Watched (fun _ => False) System.start := by
  constructor
  · exact start_wired
  · intro fd conn owned
    cases owned
  · intro fd _
    trivial
  · intro fd conn owned
    cases owned

theorem drained_of_watched {state : System} (holds : Watched (fun _ => False) state) :
    Drained state := by
  intro fd conn owned _ unlimited unread
  -- a backend always has its event; a client may have a batch instead
  cases client : (state.kernel.role conn).isClient with
  | false => exact Or.inl (holds.backends fd conn owned client unread)
  | true =>
      have side : state.kernel.side fd = some true := by simp [Kernel.side, owned, client]
      have absent : fd ∉ state.sockMap := by
        rw [holds.wired.backends, side]
        simp
      have itself : state.clientOf fd = fd := by
        simp [System.clientOf, AList.lookup_eq_none.mpr absent]
      have covered := holds.clients fd id
      rw [itself] at unlimited
      simp only [System.Covered, owned] at covered
      exact covered client unlimited unread

/-- In every run in which what an event or a batch was taken for is read to the
end, no byte is left without something to come for it. -/
theorem run_drained (actions : List Action) (final : System)
    (registered : proxy.Meets Registered System.start actions)
    (drains : proxy.Meets Drains System.start actions)
    (ran : proxy.run System.start actions = some final) : Drained final :=
  drained_of_watched (proxy.run_invariant (Watched fun _ => False) step_watched start_watched
    (proxy.meets_and registered drains) ran)

/-- A request of one byte, and another byte that has its event to come. -/
theorem request_drained : ∃ final,
    proxy.run System.start (request [1] [some 1] ++ [.arrive 5 [2]]) = some final ∧
      (final.kernel.stream 0).queue = [2] ∧ Drained final := by
  obtain ⟨final, ran, queue⟩ := proxy.run_reaches
    (fun final => decide ((final.kernel.stream 0).queue = [2])) System.start
    (request [1] [some 1] ++ [.arrive 5 [2]]) (by decide +kernel)
  refine ⟨final, ran, of_decide_eq_true queue, ?_⟩
  exact run_drained _ final (by decide +kernel) (by decide +kernel) ran

set_option maxRecDepth 2000 in
theorem request_queue (first : Byte) (rest : List Byte) :
    (proxy.run System.start (request (first :: rest) [none])).map
      (fun final => (final.kernel.stream 0).queue) =
    some ((first :: rest).drop ((first :: rest).take Packet.maxPacketSize).length) := by
  with_unfolding_all rfl

/-- One byte more than a packet holds stays in the queue, with nothing to come. -/
theorem overlong_request_stranded : ¬ ∀ actions final,
    proxy.Meets Registered System.start actions →
      proxy.run System.start actions = some final → Drained final := by
  intro claim
  let actions := request (0 :: List.replicate Packet.maxPacketSize 0) [none]
  obtain ⟨final, ran, reached⟩ := proxy.run_reaches
    (fun final => decide (final.kernel.fds.owner 5 = some 0 ∧ 5 ∈ final.server.connMap ∧
      final.limited (final.clientOf 5) = false ∧ (final.kernel.stream 0).ready = false ∧
        ¬ final.Named 5)) System.start actions (by decide +kernel)
  obtain ⟨owned, listed, unlimited, unready, unnamed⟩ := of_decide_eq_true reached
  have queue := request_queue 0 (List.replicate Packet.maxPacketSize 0)
  rw [show proxy.run System.start (request _ _) = some final from ran, Option.map_some,
    Option.some.injEq] at queue
  have unread : (final.kernel.stream 0).queue ≠ [] := by
    apply List.ne_nil_of_length_pos
    rw [queue, List.length_drop, List.length_take, List.length_cons, List.length_replicate]
    omega
  rcases claim actions final (by decide +kernel) ran 5 0 owned (Or.inl listed) unlimited unread
    with ready | named
  · rw [unready] at ready
    cases ready
  · exact unnamed named

end Proxy
end RProxy
