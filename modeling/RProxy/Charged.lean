import RProxy.Counters
import RProxy.Delivered

/-!
What the traffic counters of the whole proxy count: the bytes that the clients
of an address got through to a backend.
-/

namespace RProxy.Proxy

open PubSubCenter

/-- The connection is a client's, and its peer has that text. -/
def System.names (state : System) (addr : List Char) (conn : Nat) : Bool :=
  (state.kernel.role conn).isClient && decide ((state.kernel.peer conn).toString = addr)

/-- The bytes of the clients of an address that their backends took. -/
def System.carried (state : System) (addr : List Char) : List Byte :=
  (state.transfers.filter fun transfer => transfer.source.any (state.names addr)).flatMap (·.bytes)

/-- A pass is for a client that is open and whose `read` works, or for one that
is closed, and then what `getPeerAddr` leaves in place names no client. -/
def Charging (state : System) : Action → Prop
  | .forwardNext connect garbage io => ∀ entry ∈ state.context.head?,
      (state.kernel.side entry.1 = some true ∧ io.readFails = false) ∨
        (state.kernel.fds.owner entry.1 = none ∧ connect ≠ some entry.1 ∧
          garbage.toString ∉ state.center.traffic)
  | _ => True

instance (state : System) : ∀ action, Decidable (Charging state action)
  | .accept _ _ => isTrue trivial
  | .arrive _ _ => isTrue trivial
  | .finish _ => isTrue trivial
  | .serverWait _ _ => isTrue trivial
  | .loadbalance _ => isTrue trivial
  | .forwardNext connect garbage io => inferInstanceAs (Decidable (∀ entry ∈ state.context.head?,
      (state.kernel.side entry.1 = some true ∧ io.readFails = false) ∨
        (state.kernel.fds.owner entry.1 = none ∧ connect ≠ some entry.1 ∧
          garbage.toString ∉ state.center.traffic)))
  | .proxyWait _ _ => isTrue trivial

structure Charged (state : System) : Prop where
  wired : Wired state
  sources : ∀ transfer ∈ state.transfers, ∀ source ∈ transfer.source,
    source < state.kernel.fds.next
  known : ∀ addr, addr ∈ state.center.traffic ↔
    ∃ conn < state.kernel.fds.next, state.names addr conn = true
  counted : ∀ addr traffic, state.center.traffic.lookup addr = some traffic →
    traffic.toNat = (state.carried addr).length
  limited : ∀ addr, (state.carried addr).length ≤ maxTraffic.toNat + Packet.maxPacketSize

namespace Call

variable (call : Call)

/-- A `read` that works takes from the connection, or there is nothing to take. -/
theorem reads_or_nothing {conn : Nat} (owned : call.kernel.fds.owner call.inFd = some conn)
    (works : call.io.readFails = false) :
    call.source = some conn ∨ call.transfers.flatMap (·.bytes) = [] := by
  cases reads : call.source with
  | some source =>
      rw [call.source_owner reads] at owned
      exact Or.inl owned
  | none =>
      right
      have sound : call.Sound := by
        intro failed
        simp only [Kernel.read, owned, works, Bool.false_eq_true, ↓reduceIte] at failed
        split at failed <;> cases failed
      simp only [transfers, Kernel.transfer]
      rw [(call.kernel.unread_accepted call.outFd reads).mpr sound]
      split <;> rfl

/-- `forward` returns how much of what it read the other side took. -/
theorem returned_length {conn : Nat} (owned : call.kernel.fds.owner call.inFd = some conn)
    (works : call.io.readFails = false) :
    (call.transfers.flatMap (·.bytes)).length = call.result.returned.toNat ∧
      call.result.returned.toNat ≤ Packet.maxPacketSize := by
  cases got : call.kernel.read call.inFd call.io.readFails with
  | error =>
      simp only [Kernel.read, owned, works, Bool.false_eq_true, ↓reduceIte] at got
      split at got <;> cases got
  | again =>
      have unread : call.source = none := by simp [source, Kernel.source, got]
      have nothing := (reads_or_nothing call owned works).resolve_left (by simp [unread])
      have returned : call.result.returned = -1 := by
        simp [Call.result, Kernel.forwarded, got, RProxy.forward]
      simp [nothing, returned]
  | data bytes fits =>
      have reads : call.source = some conn := by simp [source, Kernel.source, got, owned]
      have taken : call.result.taken = bytes := by
        rw [Call.result, Kernel.forwarded, got, forward_data_taken]
      have returned : call.result.returned.toNat = call.result.sending.total := by
        rw [Call.result, Kernel.forwarded, got]
        rfl
      have inside : call.result.sending.total ≤ bytes.length := by
        rw [Call.result, Kernel.forwarded, got]
        exact (send_loop_total_bounds bytes.length (some bytes.length) 0 _ (Nat.zero_le _)).2
      rw [returned]
      refine ⟨?_, Nat.le_trans inside fits⟩
      cases dest : call.kernel.fds.owner call.outFd with
      | none =>
          -- the first `send` fails at once, on a descriptor that is not open
          have refuses : call.result.sending.total = 0 := by
            rw [Call.result, Kernel.forwarded, got, Kernel.sends, dest]
            exact refused_total bytes.length (some bytes.length) 0 [none] rfl
          simp [transfers, Kernel.transfer, dest, refuses]
      | some other =>
          have whole : call.transfers.flatMap (·.bytes) = call.result.accepted := by
            rw [transfers, Kernel.transfer, dest]
            exact List.flatMap_singleton _ _
          rw [whole, accepted_taken call reads, List.length_take, taken, Nat.min_eq_left inside]

end Call

theorem carried_congr {state next : System} (transfers : next.transfers = state.transfers)
    (names : ∀ transfer ∈ state.transfers, ∀ source ∈ transfer.source, ∀ addr,
      next.names addr source = state.names addr source) (addr : List Char) :
    next.carried addr = state.carried addr := by
  simp only [System.carried, transfers]
  congr 1
  apply List.filter_congr
  intro transfer member
  cases reads : transfer.source with
  | none => rfl
  | some source => exact names transfer member source reads addr

theorem names_same {state next : System} (role : next.kernel.role = state.kernel.role)
    (peer : next.kernel.peer = state.kernel.peer) (addr : List Char) (conn : Nat) :
    next.names addr conn = state.names addr conn := by
  rw [System.names, System.names, role, peer]

/-- Nothing was carried for an address that is not known. -/
theorem carried_unknown {state : System} (holds : Charged state) {addr : List Char}
    (unknown : addr ∉ state.center.traffic) : state.carried addr = [] := by
  rw [System.carried, List.filter_eq_nil_iff.mpr, List.flatMap_nil]
  intro transfer member named
  obtain ⟨source, reads, named⟩ := (Option.any_eq_true _ _).mp named
  exact unknown ((holds.known addr).mpr ⟨_, holds.sources transfer member source reads, named⟩)

/-- A step that opens nothing and hands on nothing. -/
theorem charged_same {state next : System} (holds : Charged state) (wired : Wired next)
    (fds : next.kernel.fds.next = state.kernel.fds.next)
    (role : next.kernel.role = state.kernel.role) (peer : next.kernel.peer = state.kernel.peer)
    (center : next.center = state.center) (transfers : next.transfers = state.transfers) :
    Charged next := by
  have carried := carried_congr transfers fun _ _ source _ addr =>
    names_same role peer addr source
  constructor
  · exact wired
  · rw [transfers, fds]
    exact holds.sources
  · intro addr
    simp only [center, fds, names_same role peer]
    exact holds.known addr
  · intro addr traffic
    rw [center, carried]
    exact holds.counted addr traffic
  · intro addr
    rw [carried]
    exact holds.limited addr

theorem names_attach {state next : System} {fd : Fd} {role : Role} {peer : InetAddr}
    (kernel : next.kernel = state.kernel.attach fd role peer) (addr : List Char) (conn : Nat) :
    next.names addr conn =
      if conn = state.kernel.fds.next then role.isClient && decide (peer.toString = addr)
      else state.names addr conn := by
  simp only [System.names, kernel, Kernel.attach, Function.update_apply]
  split <;> rfl

theorem carried_attach {state next : System} (holds : Charged state) {fd : Fd} {role : Role}
    {peer : InetAddr} (kernel : next.kernel = state.kernel.attach fd role peer)
    (transfers : next.transfers = state.transfers) (addr : List Char) :
    next.carried addr = state.carried addr := by
  apply carried_congr transfers
  intro transfer member source reads addr
  rw [names_attach kernel, if_neg (Nat.ne_of_lt (holds.sources transfer member source reads))]

theorem accepted_charged {state : System} (holds : Charged state) {fd : Fd} {peer : InetAddr}
    (wired : Wired (state.accepted fd peer)) : Charged (state.accepted fd peer) := by
  have carried : ∀ text, (state.accepted fd peer).carried text = state.carried text :=
    carried_attach holds rfl rfl
  constructor
  · exact wired
  · intro transfer member source reads
    exact Nat.lt_succ_of_lt (holds.sources transfer member source reads)
  · intro addr
    show addr ∈ (state.center.account peer.toString 0).traffic ↔ _
    rw [mem_account, holds.known]
    constructor
    · rintro (rfl | ⟨conn, old, named⟩)
      · refine ⟨state.kernel.fds.next, Nat.lt_succ_self _, ?_⟩
        rw [names_attach rfl, if_pos rfl]
        simp [Role.isClient]
      · refine ⟨conn, Nat.lt_succ_of_lt old, ?_⟩
        rw [names_attach rfl, if_neg (Nat.ne_of_lt old)]
        exact named
    · rintro ⟨conn, opened, named⟩
      rw [names_attach rfl] at named
      split at named
      · left
        simpa [Role.isClient, eq_comm] using named
      · next other =>
          right
          exact ⟨conn, Nat.lt_of_le_of_ne (Nat.lt_succ_iff.mp opened) other, named⟩
  · intro addr traffic found
    rw [carried]
    have looked : (state.center.account peer.toString 0).traffic.lookup addr = some traffic := found
    rw [lookup_account] at looked
    split at looked
    · next same =>
        subst same
        cases before : state.center.traffic.lookup peer.toString with
        | some known =>
            rw [before] at looked
            cases looked
            simpa using holds.counted peer.toString known before
        | none =>
            rw [before] at looked
            cases looked
            rw [carried_unknown holds (AList.lookup_eq_none.mp before)]
            rfl
    · exact holds.counted addr traffic looked
  · intro addr
    rw [carried]
    exact holds.limited addr

theorem establish_charged {state : System} (holds : Charged state) {sock incoming : Fd}
    (addr : InetAddr) (wired : Wired (state.establish sock incoming addr)) :
    Charged (state.establish sock incoming addr) := by
  have carried : ∀ text, (state.establish sock incoming addr).carried text = state.carried text :=
    carried_attach holds rfl rfl
  constructor
  · exact wired
  · intro transfer member source reads
    exact Nat.lt_succ_of_lt (holds.sources transfer member source reads)
  · intro text
    rw [show (state.establish sock incoming addr).center = state.center from rfl, holds.known]
    constructor
    · rintro ⟨conn, old, named⟩
      refine ⟨conn, Nat.lt_succ_of_lt old, ?_⟩
      rw [names_attach rfl, if_neg (Nat.ne_of_lt old)]
      exact named
    · rintro ⟨conn, opened, named⟩
      rw [names_attach rfl] at named
      -- the new connection is a backend's, which no address is charged for
      split at named
      · simp [Role.isClient] at named
      · next other =>
          exact ⟨conn, Nat.lt_of_le_of_ne (Nat.lt_succ_iff.mp opened) other, named⟩
  · intro text traffic found
    rw [carried]
    exact holds.counted text traffic found
  · intro text
    rw [carried]
    exact holds.limited text

theorem forwarded_names (state : System) (center : PubSubCenter Unit Unit) (io : Io)
    (inFd outFd : Fd) (addr : List Char) (conn : Nat) :
    (state.forwarded center io inFd outFd).names addr conn = state.names addr conn := by
  apply names_same
  · simp [System.forwarded, Kernel.consume]
  · simp [System.forwarded, Kernel.consume]

/-- A call carries what it hands on, for the address of the client it reads. -/
theorem forwarded_carried (state : System) (center : PubSubCenter Unit Unit) (io : Io)
    (inFd outFd : Fd) (addr : List Char) :
    (state.forwarded center io inFd outFd).carried addr = state.carried addr ++
      if (Call.source ⟨state.kernel, io, inFd, outFd⟩).any (state.names addr) = true then
        (Call.transfers ⟨state.kernel, io, inFd, outFd⟩).flatMap (·.bytes)
      else [] := by
  have added : (state.forwarded center io inFd outFd).transfers =
      state.transfers ++ Call.transfers ⟨state.kernel, io, inFd, outFd⟩ := rfl
  have names : (state.forwarded center io inFd outFd).names addr = state.names addr :=
    funext (forwarded_names state center io inFd outFd addr)
  simp only [System.carried, names, added, List.filter_append, List.flatMap_append]
  congr 1
  split
  · next named =>
      rw [List.filter_eq_self.mpr]
      intro transfer member
      rw [Call.transfers_source _ member]
      exact named
  · next unnamed =>
      rw [List.filter_eq_nil_iff.mpr, List.flatMap_nil]
      intro transfer member
      rw [Call.transfers_source _ member]
      exact unnamed

theorem forwarded_sources {state : System} (holds : Charged state)
    (center : PubSubCenter Unit Unit) (io : Io) (inFd outFd : Fd) :
    ∀ transfer ∈ (state.forwarded center io inFd outFd).transfers, ∀ source ∈ transfer.source,
      source < (state.forwarded center io inFd outFd).kernel.fds.next := by
  have fds : (state.forwarded center io inFd outFd).kernel.fds = state.kernel.fds :=
    Kernel.modify_fds _ _ _
  rw [fds]
  intro transfer member
  rcases List.mem_append.mp member with old | new
  · exact holds.sources transfer old
  · exact (Call.transfers_known ⟨state.kernel, io, inFd, outFd⟩ new).1

/-- What a backend sends is carried for nobody. -/
theorem returned_charged {state : System} (holds : Charged state) {io : Io} {fd incoming : Fd}
    (backend : state.kernel.side fd = some false)
    (wired : Wired (state.forwarded state.center io fd incoming)) :
    Charged (state.forwarded state.center io fd incoming) := by
  obtain ⟨conn, owned, role⟩ := Option.map_eq_some_iff.mp backend
  have carried : ∀ addr, (state.forwarded state.center io fd incoming).carried addr =
      state.carried addr := by
    intro addr
    rw [forwarded_carried, if_neg, List.append_nil]
    intro named
    obtain ⟨source, reads, named⟩ := (Option.any_eq_true _ _).mp named
    obtain rfl : conn = source := Option.some.inj
      (owned.symm.trans (Call.source_owner ⟨state.kernel, io, fd, incoming⟩ reads))
    simp [System.names, role] at named
  have fds : (state.forwarded state.center io fd incoming).kernel.fds = state.kernel.fds :=
    Kernel.modify_fds _ _ _
  constructor
  · exact wired
  · exact forwarded_sources holds _ io fd incoming
  · intro addr
    simp only [forwarded_names, fds]
    exact holds.known addr
  · intro addr traffic found
    rw [carried]
    exact holds.counted addr traffic found
  · intro addr
    rw [carried]
    exact holds.limited addr

/-- The counter of a known address after a call of `forward`. -/
theorem lookup_accounted (state : System) (io : Io) (incoming sock : Fd) {text : List Char}
    {known : UInt64} (looked : state.center.traffic.lookup text = some known)
    (other : List Char) :
    (state.accounted io incoming sock text).traffic.lookup other =
      if other = text then
        some (known + UInt64.ofNat (state.kernel.forwarded io incoming sock).returned.toNat)
      else state.center.traffic.lookup other := by
  simp only [System.accounted]
  split
  · rw [lookup_account, looked, Option.getD_some]
  · next idle =>
      rw [Int.toNat_of_nonpos (by omega)]
      split
      · next same =>
          subst same
          rw [looked]
          simp
      · rfl

/-- The counter of the client grows by what the backend took of its bytes. -/
theorem forwarded_charged {state : System} (holds : Charged state) {io : Io}
    {incoming sock : Fd} {conn : Nat} (owned : state.kernel.fds.owner incoming = some conn)
    (client : (state.kernel.role conn).isClient = true) (works : io.readFails = false)
    (unlimited : state.center.isLismited (state.kernel.peer conn).toString = false)
    (wired : Wired (state.forwarded (state.accounted io incoming sock
      (state.kernel.peer conn).toString) io incoming sock)) :
    Charged (state.forwarded (state.accounted io incoming sock
      (state.kernel.peer conn).toString) io incoming sock) := by
  obtain ⟨known, looked, below⟩ := Attach.unlimited_known (ne_true_of_eq_false unlimited)
  have named : ∀ addr, state.names addr conn = true ↔ addr = (state.kernel.peer conn).toString := by
    intro addr
    simp [System.names, client, eq_comm]
  obtain ⟨length, fits⟩ := Call.returned_length ⟨state.kernel, io, incoming, sock⟩ owned works
  have before := holds.counted _ known looked
  have limit : known.toNat ≤ maxTraffic.toNat := UInt64.le_iff_toNat_le.mp below
  generalize text : (state.kernel.peer conn).toString = addr at *
  have accounted := lookup_accounted state io incoming sock looked
  have carried : ∀ other,
      (state.forwarded (state.accounted io incoming sock addr) io incoming sock).carried other =
        state.carried other ++ if state.names other conn = true then
          (Call.transfers ⟨state.kernel, io, incoming, sock⟩).flatMap (·.bytes) else [] := by
    intro other
    rw [forwarded_carried]
    rcases Call.reads_or_nothing ⟨state.kernel, io, incoming, sock⟩ owned works with reads | nothing
    · simp [reads]
    · simp [nothing]
  have fds : (state.forwarded (state.accounted io incoming sock addr) io incoming sock).kernel.fds =
      state.kernel.fds := Kernel.modify_fds _ _ _
  constructor
  · exact wired
  · exact forwarded_sources holds _ io incoming sock
  · intro other
    simp only [forwarded_names, fds]
    rw [← holds.known, System.forwarded, ← AList.lookup_isSome, accounted, ← AList.lookup_isSome]
    split
    · next same =>
        subst same
        rw [looked]
        rfl
    · rfl
  · intro other traffic found
    rw [System.forwarded, accounted] at found
    rw [carried]
    simp only [named]
    split at found
    · next same =>
        -- one packet more than the limit is far below a carry
        cases found
        rw [if_pos same, List.length_append, length, same, ← before, UInt64.toNat_add,
          UInt64.toNat_ofNat', show (state.kernel.forwarded io incoming sock) =
            Call.result ⟨state.kernel, io, incoming, sock⟩ from rfl]
        have top : maxTraffic.toNat = 2 ^ 63 - 1 := by decide +kernel
        rw [Packet.maxPacketSize] at fits
        omega
    · next other =>
        rw [if_neg other, List.append_nil]
        exact holds.counted _ traffic found
  · intro other
    rw [carried]
    simp only [named]
    split
    · next same =>
        rw [List.length_append, length, same, ← before]
        exact Nat.add_le_add limit fits
    · rw [List.append_nil]
      exact holds.limited other

theorem relay_charged {state next : System} (holds : Charged state) {incoming sock : Fd}
    {garbage : InetAddr} {io : Io} (found : state.reversedMap.lookup incoming = some sock)
    (charging : (state.kernel.side incoming = some true ∧ io.readFails = false) ∨
      (state.kernel.fds.owner incoming = none ∧ garbage.toString ∉ state.center.traffic))
    (relayed : state.relay incoming garbage io = some next) : Charged next := by
  have wired := relay_wired holds.wired found relayed
  rcases relay_cases found relayed with ⟨_, rfl⟩ | ⟨unlimited, rfl⟩
  · exact holds
  · rcases charging with ⟨side, works⟩ | ⟨closed, unknown⟩
    · obtain ⟨conn, owned, client⟩ := Option.map_eq_some_iff.mp side
      have peer : state.kernel.getPeerAddr incoming garbage = state.kernel.peer conn := by
        simp [Kernel.getPeerAddr, owned]
      rw [peer] at unlimited wired ⊢
      exact forwarded_charged holds owned client works unlimited wired
    · -- an address without a counter is limited
      obtain ⟨known, looked, _⟩ := Attach.unlimited_known (ne_true_of_eq_false unlimited)
      rw [Kernel.getPeerAddr, closed] at looked
      exact absurd (UnorderedMap.mem_of_lookup looked) unknown

theorem step_charged (state : System) (action : Action) (next : System) (holds : Charged state)
    (charging : Charging state action) (stepped : proxy.step state action = some next) :
    Charged next := by
  have wired := step_wired state action next holds.wired stepped
  cases step_outcome holds.wired stepped with
  | accepted => exact accepted_charged holds wired
  | arrived =>
      exact charged_same holds wired (by simp [Kernel.arrive]) (Kernel.modify_role _ _ _)
        (Kernel.modify_peer _ _ _) rfl rfl
  | finished =>
      exact charged_same holds wired (by simp [Kernel.finish]) (Kernel.modify_role _ _ _)
        (Kernel.modify_peer _ _ _) rfl rfl
  | swept =>
      exact charged_same holds wired
        (by simp [System.swept, Kernel.close, Kernel.batch, Kernel.report]) rfl rfl rfl rfl
  | balanced => exact charged_same holds wired rfl rfl rfl rfl rfl
  | @relayed incoming sock addr rest _ _ _ _ context found relayed =>
      have popped : Charged (state.popped rest) :=
        charged_same holds (popped_wired holds.wired rest) rfl rfl rfl rfl rfl
      apply relay_charged popped found _ relayed
      rcases charging ⟨incoming, addr⟩ (by simp [context]) with opened | ⟨closed, _, unknown⟩
      · exact Or.inl opened
      · exact Or.inr ⟨closed, unknown⟩
  | @established incoming sock addr rest _ _ _ context absent free relayed =>
      have popped : Charged (state.popped rest) :=
        charged_same holds (popped_wired holds.wired rest) rfl rfl rfl rfl rfl
      have established := establish_charged popped addr
        (establish_wired popped.wired addr free absent)
      apply relay_charged established (establish_found (state.popped rest) addr absent) _ relayed
      rcases charging ⟨incoming, addr⟩ (by simp [context]) with
        ⟨side, works⟩ | ⟨closed, other, unknown⟩
      · left
        refine ⟨?_, works⟩
        -- the number that is handed out was free, so it is not the client's
        have different : incoming ≠ sock := by
          rintro rfl
          simp [Kernel.side, free] at side
        rw [System.establish, Kernel.attach_side, if_neg different]
        exact side
      · right
        have different : incoming ≠ sock := fun same => other (by rw [same])
        refine ⟨?_, unknown⟩
        rw [System.establish, Kernel.attach, FdTable.allocate_owner, if_neg different]
        exact closed
  | givenUp => exact charged_same holds wired rfl rfl rfl rfl rfl
  | @returned resp _ _ reported =>
      have kept : Charged (state.reported resp.fd) :=
        charged_same holds (reported_wired holds.wired _) rfl rfl rfl rfl rfl
      exact returned_charged kept (state.kernel.reports_side reported) wired
  | cleaned =>
      exact charged_same holds wired (by simp [System.cleaned, Kernel.close, Kernel.report])
        rfl rfl rfl rfl
  | ignored => exact charged_same holds wired rfl rfl rfl rfl rfl

theorem start_charged : Charged System.start := by
  constructor
  · exact start_wired
  · intro transfer member
    cases member
  · intro addr
    simp [System.start, Kernel.empty, FdTable.empty]
  · intro addr traffic found
    cases found
  · intro addr
    exact Nat.zero_le _

/-- Over every run: an address has a counter exactly when a client of that address
was accepted, the counter is the number of bytes of such clients that backends
took, and no address gets more than one packet past the limit. -/
theorem charged_exactly (actions : List Action) (final : System)
    (charging : proxy.Meets Charging System.start actions)
    (ran : proxy.run System.start actions = some final) (addr : List Char) :
    (addr ∈ final.center.traffic ↔
        ∃ conn < final.kernel.fds.next, final.names addr conn = true) ∧
      (∀ traffic, final.center.traffic.lookup addr = some traffic →
        traffic.toNat = (final.carried addr).length) ∧
      (final.carried addr).length ≤ maxTraffic.toNat + Packet.maxPacketSize := by
  have holds := proxy.run_invariant Charged step_charged start_charged charging ran
  exact ⟨holds.known addr, holds.counted addr, holds.limited addr⟩

/-- Two of three bytes were taken, and two are counted. -/
theorem two_of_three_charged : ∃ final,
    proxy.run System.start (request [1, 2, 3] [some 2, none]) = some final ∧
      final.center.traffic.lookup (InetAddr.toString ⟨['a'], 1⟩) = some 2 ∧
      (InetAddr.toString ⟨['a'], 1⟩ ∈ final.center.traffic ↔
        ∃ conn < final.kernel.fds.next, final.names (InetAddr.toString ⟨['a'], 1⟩) conn = true) ∧
      (∀ traffic, final.center.traffic.lookup (InetAddr.toString ⟨['a'], 1⟩) = some traffic →
        traffic.toNat = (final.carried (InetAddr.toString ⟨['a'], 1⟩)).length) ∧
      (final.carried (InetAddr.toString ⟨['a'], 1⟩)).length ≤
        maxTraffic.toNat + Packet.maxPacketSize := by
  obtain ⟨final, ran, counted⟩ := proxy.run_reaches
    (fun final => decide (final.center.traffic.lookup (InetAddr.toString ⟨['a'], 1⟩) = some 2))
    System.start (request [1, 2, 3] [some 2, none]) (by decide +kernel)
  exact ⟨final, ran, of_decide_eq_true counted, charged_exactly _ final (by decide +kernel) ran _⟩

end RProxy.Proxy
