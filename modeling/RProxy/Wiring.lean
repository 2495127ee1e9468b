import RProxy.Proxy

/-!
What a step of the proxy can do, one lemma for each action, and how the tables
of `TcpServer` and `ProxyServer` agree with the kernel in every reachable state.
-/

namespace RProxy.Proxy

/-- `conn_map_` has the open clients and `sock_map_` the open backends. -/
structure Wired (state : System) : Prop where
  quiet : state.server.Quiet
  clients : ∀ fd, fd ∈ state.server.connMap ↔ state.kernel.side fd = some true
  backends : ∀ fd, fd ∈ state.sockMap ↔ state.kernel.side fd = some false
  inverse : state.sockMap.Inverse state.reversedMap
  fault : state.fault = none

/-- A descriptor that a queued batch or the current context names. -/
def System.Named (state : System) (fd : Fd) : Prop :=
  (∃ entry ∈ state.context, entry.1 = fd) ∨ ∃ batch ∈ state.loader.sockQueue, fd ∈ batch

instance (state : System) (fd : Fd) : Decidable (state.Named fd) := by
  unfold System.Named
  infer_instance

/-- The state after `accept` gives out a new descriptor. -/
def System.accepted (state : System) (fd : Fd) (peer : InetAddr) : System :=
  { state with
    kernel := state.kernel.attach fd .client peer
    server := (({ state.server with closed := [] } : TcpServer).updateForRegister state.center
      ⟨fd, Demultiplex.defaultEvents⟩ peer).1
    center := state.center.account peer.toString 0 }

/-- The state after a call of `forward`. -/
def System.forwarded (state : System) (center : PubSubCenter Unit Unit) (io : Io)
    (inFd outFd : Fd) : System :=
  { state with
    center := center
    kernel := state.kernel.consume inFd (state.kernel.forwarded io inFd outFd).taken
    transfers := state.transfers ++ state.kernel.transfer io inFd outFd }

/-- The traffic of a client after a call of `forward`. -/
def System.accounted (state : System) (io : Io) (inFd outFd : Fd) (addr : List Char) :
    PubSubCenter Unit Unit :=
  let returned := (state.kernel.forwarded io inFd outFd).returned
  if 0 < returned then state.center.account addr (UInt64.ofNat returned.toNat) else state.center

/-- The state after a batch of events of clients. -/
def System.swept (state : System) (resps : List Resp) (server : TcpServer) (sockes : List Fd) :
    System :=
  { state with
    kernel := ((state.kernel.report (resps.map Resp.fd)).batch sockes).close server.closed
    server := server
    loader := state.loader.updateForLoadbalance sockes
    closings := state.closings ++
      (resps.filter fun resp => decide (resp.fd ∈ server.closed)).flatMap state.closing }

def System.reported (state : System) (fd : Fd) : System :=
  { state with kernel := state.kernel.report [fd] }

/-- The state after the close and the cleanup of a backend. -/
def System.cleaned (state : System) (resp : Resp) (incoming : Fd) : System :=
  { state with
    kernel := (state.kernel.report [resp.fd]).close [resp.fd]
    reversedMap := state.reversedMap.erase incoming
    sockMap := state.sockMap.erase resp.fd
    closings := state.closings ++ state.closing resp }

theorem accept_cases {state next : System} {fd : Fd} {peer : InetAddr} (wired : Wired state)
    (stepped : state.accept fd peer = some next) :
    state.kernel.fds.owner fd = none ∧ fd ∉ state.server.connMap ∧
      next = state.accepted fd peer := by
  simp only [System.accept] at stepped
  split at stepped
  · cases stepped
  · next free =>
      -- the number was not open, so `conn_map_` has no entry for it to clash with
      have absent : fd ∉ state.server.connMap := by
        rw [wired.clients, Kernel.side, free]
        simp
      simp only [TcpServer.updateForRegister, absent, ↓reduceIte, Option.some.injEq] at stepped
      refine ⟨free, absent, ?_⟩
      rw [← stepped, System.accepted, TcpServer.updateForRegister, if_neg absent]
      rfl

/-- A lookup of the backend that is in the map, and at most one call of `forward`. -/
theorem relay_cases {state next : System} {incoming sock : Fd} {garbage : InetAddr} {io : Io}
    (found : state.reversedMap.lookup incoming = some sock)
    (relayed : state.relay incoming garbage io = some next) :
    (state.center.isLismited (state.kernel.getPeerAddr incoming garbage).toString = true ∧
        next = state) ∨
      (state.center.isLismited (state.kernel.getPeerAddr incoming garbage).toString = false ∧
        next = state.forwarded (state.accounted io incoming sock
          (state.kernel.getPeerAddr incoming garbage).toString) io incoming sock) := by
  simp only [System.relay] at relayed
  simp only [found] at relayed
  split at relayed
  · next limited => exact Or.inl ⟨limited, (Option.some.inj relayed).symm⟩
  · next unlimited =>
      split at relayed
      · cases relayed
      · next kernel transfers result returned =>
          obtain ⟨rfl, rfl, rfl⟩ := Kernel.forward_some _ returned
          exact Or.inr ⟨by simpa using unlimited, (Option.some.inj relayed).symm⟩

theorem server_wait_cases {state next : System} {resps : List Resp} {wrote : Fd → Option Nat}
    (wired : Wired state) (stepped : state.serverWait resps wrote = some next) :
    (resps.map Resp.fd).Nodup ∧ (∀ resp ∈ resps, state.kernel.reports true resp = true) ∧
      ∃ server sockes, server.Quiet ∧
        TcpServer.Swept { state.server with closed := [] } resps server sockes ∧
        next = state.swept resps server sockes := by
  simp only [System.serverWait] at stepped
  split at stepped
  · next contract =>
      obtain ⟨server, sockes, returned, quiet, swept⟩ := TcpServer.update_for_wait_quiet wrote
        { state.server with closed := [] } wired.quiet resps
      simp only [returned, Option.some.injEq] at stepped
      exact ⟨contract.1, contract.2, server, sockes, quiet, swept, stepped.symm⟩
  · cases stepped

theorem loadbalance_cases {state next : System} {sockToBackend : UnorderedMap Fd InetAddr}
    (stepped : state.loadbalance sockToBackend = some next) :
    state.context = [] ∧ ∃ batch rest, state.loader.sockQueue = batch :: rest ∧
      Assigns sockToBackend batch ∧
      next = { state with
        loader := { state.loader with sockes := batch, sockQueue := rest }
        context := sockToBackend.entries } := by
  unfold System.loadbalance LoadBalancer.popFront at stepped
  cases queue : state.loader.sockQueue with
  | nil => simp [queue] at stepped
  | cons batch rest =>
      simp only [queue] at stepped
      split at stepped
      · next empty popped =>
          cases popped
          split at stepped
          · next assigns =>
              exact ⟨empty, batch, rest, rfl, assigns, (Option.some.inj stepped).symm⟩
          · cases stepped
      · cases stepped

/-- The state in which a pass of `updateForForward` begins. -/
def System.popped (state : System) (rest : List (Sigma fun _ : Fd => InetAddr)) : System :=
  { state with context := rest }

theorem forward_next_cases {state next : System} {connect : Option Fd} {garbage : InetAddr}
    {io : Io} (stepped : state.forwardNext connect garbage io = some next) :
    ∃ incoming addr rest, state.context = ⟨incoming, addr⟩ :: rest ∧
      ((incoming ∈ state.reversedMap ∧
          (state.popped rest).relay incoming garbage io = some next) ∨
        (incoming ∉ state.reversedMap ∧ connect = none ∧ next = state.popped []) ∨
        ∃ sock, incoming ∉ state.reversedMap ∧ connect = some sock ∧
          state.kernel.fds.owner sock = none ∧
          ((state.popped rest).establish sock incoming addr).relay incoming garbage io =
            some next) := by
  simp only [System.forwardNext] at stepped
  split at stepped
  · cases stepped
  · next incoming addr rest context =>
      refine ⟨incoming, addr, rest, context, ?_⟩
      by_cases found : incoming ∈ state.reversedMap
      · simp only [found, ↓reduceIte] at stepped
        exact Or.inl ⟨found, stepped⟩
      · simp only [found, ↓reduceIte] at stepped
        cases connect with
        | none => exact Or.inr (Or.inl ⟨found, rfl, (Option.some.inj stepped).symm⟩)
        | some sock =>
            simp only at stepped
            split at stepped
            · cases stepped
            · next free => exact Or.inr (Or.inr ⟨sock, found, rfl, free, stepped⟩)

theorem proxy_wait_cases {state next : System} {resp : Resp} {io : Io} (wired : Wired state)
    (stepped : state.proxyWait resp io = some next) :
    state.kernel.reports false resp = true ∧
      ∃ incoming, state.sockMap.lookup resp.fd = some incoming ∧
        ((resp.isReadable = true ∧ resp.isClosable = false ∧
            next = (state.reported resp.fd).forwarded state.center io resp.fd incoming) ∨
          (resp.isClosable = true ∧ next = state.cleaned resp incoming) ∨
          (resp.isReadable = false ∧ resp.isClosable = false ∧
            next = state.reported resp.fd)) := by
  simp only [System.proxyWait] at stepped
  split at stepped
  · next contract =>
      -- the events of the loop are of open backends, so `at` finds them
      have present : resp.fd ∈ state.sockMap := by
        rw [wired.backends]
        exact state.kernel.reports_side contract
      obtain ⟨incoming, found⟩ := UnorderedMap.lookup_of_mem present
      refine ⟨contract, incoming, found, ?_⟩
      simp only [found] at stepped
      split at stepped
      · next passes =>
          simp only [Bool.and_eq_true, Bool.not_eq_true'] at passes
          split at stepped
          · cases stepped
          · next kernel transfers result returned =>
              obtain ⟨rfl, rfl, rfl⟩ := Kernel.forward_some _ returned
              exact Or.inl ⟨passes.1, passes.2, (Option.some.inj stepped).symm⟩
      · next stays =>
          cases closes : resp.isClosable with
          | true =>
              simp only [closes, ↓reduceIte, Option.some.injEq] at stepped
              exact Or.inr (Or.inl ⟨rfl, stepped.symm⟩)
          | false =>
              simp only [closes, Bool.false_eq_true, ↓reduceIte, Option.some.injEq] at stepped
              have unread : resp.isReadable = false := by simpa [closes] using stays
              exact Or.inr (Or.inr ⟨unread, rfl, stepped.symm⟩)
  · cases stepped

/-- A call of `forward` leaves the tables and the descriptors alone. -/
theorem forwarded_wired {state : System} (wired : Wired state) (center : PubSubCenter Unit Unit)
    (io : Io) (inFd outFd : Fd) : Wired (state.forwarded center io inFd outFd) := by
  constructor
  · exact wired.quiet
  · intro fd
    show fd ∈ state.server.connMap ↔ _
    rw [wired.clients]
    simp [System.forwarded, Kernel.consume]
  · intro fd
    show fd ∈ state.sockMap ↔ _
    rw [wired.backends]
    simp [System.forwarded, Kernel.consume]
  · exact wired.inverse
  · exact wired.fault

theorem establish_wired {state : System} (wired : Wired state) {sock incoming : Fd}
    (addr : InetAddr) (free : state.kernel.fds.owner sock = none)
    (absent : incoming ∉ state.reversedMap) : Wired (state.establish sock incoming addr) := by
  have side : state.kernel.side sock = none := by
    rw [Kernel.side, free]
    rfl
  -- both insertions are of new keys, so the maps stay inverse
  have fresh : sock ∉ state.sockMap := by
    rw [wired.backends, side]
    simp
  constructor
  · exact wired.quiet
  · intro fd
    show fd ∈ state.server.connMap ↔ _
    rw [wired.clients, System.establish, Kernel.attach_side]
    by_cases same : fd = sock <;> simp [same, side, Role.isClient]
  · intro fd
    simp only [System.establish, UnorderedMap.mem_emplace, wired.backends, Kernel.attach_side]
    by_cases same : fd = sock <;> simp [same, Role.isClient]
  · exact wired.inverse.emplace fresh absent
  · exact wired.fault

theorem relay_wired {state next : System} (wired : Wired state) {incoming sock : Fd}
    {garbage : InetAddr} {io : Io} (found : state.reversedMap.lookup incoming = some sock)
    (relayed : state.relay incoming garbage io = some next) : Wired next := by
  rcases relay_cases found relayed with ⟨_, rfl⟩ | ⟨_, rfl⟩
  · exact wired
  · exact forwarded_wired wired _ io incoming sock

theorem establish_found (state : System) {sock incoming : Fd} (addr : InetAddr)
    (absent : incoming ∉ state.reversedMap) :
    (state.establish sock incoming addr).reversedMap.lookup incoming = some sock := by
  simp [System.establish, UnorderedMap.lookup_emplace, AList.lookup_eq_none.mpr absent]

theorem popped_wired {state : System} (wired : Wired state)
    (rest : List (Sigma fun _ : Fd => InetAddr)) : Wired (state.popped rest) :=
  ⟨wired.quiet, wired.clients, wired.backends, wired.inverse, wired.fault⟩

theorem accepted_wired {state : System} (wired : Wired state) {fd : Fd} {peer : InetAddr}
    (free : state.kernel.fds.owner fd = none) (absent : fd ∉ state.server.connMap) :
    Wired (state.accepted fd peer) := by
  have side : state.kernel.side fd = none := by
    rw [Kernel.side, free]
    rfl
  have server : (state.accepted fd peer).server.connMap =
      state.server.connMap.emplace fd (TcpConnection.new ⟨false, fd⟩
        (.dmpRegister ⟨fd, Demultiplex.defaultEvents⟩) peer) := by
    simp [System.accepted, TcpServer.updateForRegister, absent]
  constructor
  · have before : ({ state.server with closed := [] } : TcpServer).Quiet := wired.quiet
    exact TcpServer.register_quiet before state.center _ peer absent
  · intro other
    rw [server, UnorderedMap.mem_emplace, wired.clients, System.accepted, Kernel.attach_side]
    by_cases same : other = fd <;> simp [same, Role.isClient]
  · intro other
    show other ∈ state.sockMap ↔ _
    rw [wired.backends, System.accepted, Kernel.attach_side]
    by_cases same : other = fd <;> simp [same, side, Role.isClient]
  · exact wired.inverse
  · exact wired.fault

theorem swept_wired {state : System} (wired : Wired state) {resps : List Resp}
    {server : TcpServer} {sockes : List Fd} (quiet : server.Quiet)
    (swept : TcpServer.Swept { state.server with closed := [] } resps server sockes) :
    Wired (state.swept resps server sockes) := by
  have closed : ∀ fd, fd ∈ server.closed ↔ fd ∈ state.server.connMap ∧
      TcpServer.Removed resps fd := by
    intro fd
    simpa using swept.closed fd
  have side : ∀ fd, (state.swept resps server sockes).kernel.side fd =
      if fd ∈ server.closed then none else state.kernel.side fd :=
    fun fd => Kernel.close_side _ server.closed fd
  constructor
  · exact quiet
  · intro fd
    show fd ∈ server.connMap ↔ _
    rw [side, ← AList.lookup_isSome, swept.lookup]
    -- the handler closes what it takes out of the table, and nothing else
    by_cases gone : fd ∈ server.closed
    · simp [gone, ((closed fd).mp gone).2]
    · rw [if_neg gone, ← wired.clients]
      by_cases removed : TcpServer.Removed resps fd
      · have absent : fd ∉ state.server.connMap := fun present =>
          gone ((closed fd).mpr ⟨present, removed⟩)
        simp [removed, absent]
      · rw [if_neg removed, AList.lookup_isSome]
  · intro fd
    show fd ∈ state.sockMap ↔ _
    rw [side, wired.backends]
    by_cases gone : fd ∈ server.closed
    · have client := (wired.clients fd).mp ((closed fd).mp gone).1
      simp [gone, client]
    · rw [if_neg gone]
  · exact wired.inverse
  · exact wired.fault

theorem cleaned_wired {state : System} (wired : Wired state) {resp : Resp} {incoming : Fd}
    (found : state.sockMap.lookup resp.fd = some incoming) :
    Wired (state.cleaned resp incoming) := by
  have backend := (wired.backends resp.fd).mp (UnorderedMap.mem_of_lookup found)
  have side : ∀ fd, (state.cleaned resp incoming).kernel.side fd =
      if fd = resp.fd then none else state.kernel.side fd := by
    intro fd
    simp [System.cleaned, Kernel.close_side]
  constructor
  · exact wired.quiet
  · intro fd
    show fd ∈ state.server.connMap ↔ _
    rw [side, wired.clients]
    by_cases same : fd = resp.fd <;> simp [same, backend]
  · intro fd
    rw [side]
    simp only [System.cleaned, AList.mem_erase, wired.backends]
    by_cases same : fd = resp.fd <;> simp [same]
  · exact wired.inverse.erase found
  · exact wired.fault

theorem reported_wired {state : System} (wired : Wired state) (fd : Fd) :
    Wired (state.reported fd) :=
  ⟨wired.quiet, wired.clients, wired.backends, wired.inverse, wired.fault⟩

theorem modified_wired {state : System} (wired : Wired state) (fd : Fd)
    (change : Stream → Stream) : Wired { state with kernel := state.kernel.modify fd change } := by
  constructor
  · exact wired.quiet
  · intro other
    rw [Kernel.modify_side]
    exact wired.clients other
  · intro other
    rw [Kernel.modify_side]
    exact wired.backends other
  · exact wired.inverse
  · exact wired.fault

/-- Everything that a step of the proxy can do. -/
inductive Outcome (state : System) : Action → System → Prop where
  | accepted {fd : Fd} {peer : InetAddr} (free : state.kernel.fds.owner fd = none)
      (absent : fd ∉ state.server.connMap) :
      Outcome state (.accept fd peer) (state.accepted fd peer)
  | arrived {fd : Fd} {bytes : List Byte} :
      Outcome state (.arrive fd bytes) { state with kernel := state.kernel.arrive fd bytes }
  | finished {fd : Fd} :
      Outcome state (.finish fd) { state with kernel := state.kernel.finish fd }
  | swept {resps : List Resp} {wrote : Fd → Option Nat} {server : TcpServer} {sockes : List Fd}
      (distinct : (resps.map Resp.fd).Nodup)
      (reported : ∀ resp ∈ resps, state.kernel.reports true resp = true) (quiet : server.Quiet)
      (swept : TcpServer.Swept { state.server with closed := [] } resps server sockes) :
      Outcome state (.serverWait resps wrote) (state.swept resps server sockes)
  | balanced {sockToBackend : UnorderedMap Fd InetAddr} {batch : List Fd} {rest : List (List Fd)}
      (empty : state.context = []) (queue : state.loader.sockQueue = batch :: rest)
      (assigns : Assigns sockToBackend batch) :
      Outcome state (.loadbalance sockToBackend) { state with
        loader := { state.loader with sockes := batch, sockQueue := rest }
        context := sockToBackend.entries }
  | relayed {incoming sock : Fd} {addr : InetAddr}
      {rest : List (Sigma fun _ : Fd => InetAddr)} {connect : Option Fd} {garbage : InetAddr}
      {io : Io} {next : System} (context : state.context = ⟨incoming, addr⟩ :: rest)
      (found : state.reversedMap.lookup incoming = some sock)
      (relayed : (state.popped rest).relay incoming garbage io = some next) :
      Outcome state (.forwardNext connect garbage io) next
  | established {incoming sock : Fd} {addr : InetAddr}
      {rest : List (Sigma fun _ : Fd => InetAddr)} {garbage : InetAddr} {io : Io} {next : System}
      (context : state.context = ⟨incoming, addr⟩ :: rest) (absent : incoming ∉ state.reversedMap)
      (free : state.kernel.fds.owner sock = none)
      (relayed : ((state.popped rest).establish sock incoming addr).relay incoming garbage io =
        some next) :
      Outcome state (.forwardNext (some sock) garbage io) next
  | givenUp {incoming : Fd} {addr : InetAddr} {rest : List (Sigma fun _ : Fd => InetAddr)}
      {garbage : InetAddr} {io : Io} (context : state.context = ⟨incoming, addr⟩ :: rest)
      (absent : incoming ∉ state.reversedMap) :
      Outcome state (.forwardNext none garbage io) (state.popped [])
  | returned {resp : Resp} {io : Io} {incoming : Fd}
      (reported : state.kernel.reports false resp = true)
      (found : state.sockMap.lookup resp.fd = some incoming) (readable : resp.isReadable = true)
      (stays : resp.isClosable = false) :
      Outcome state (.proxyWait resp io)
        ((state.reported resp.fd).forwarded state.center io resp.fd incoming)
  | cleaned {resp : Resp} {io : Io} {incoming : Fd}
      (reported : state.kernel.reports false resp = true)
      (found : state.sockMap.lookup resp.fd = some incoming) (closable : resp.isClosable = true) :
      Outcome state (.proxyWait resp io) (state.cleaned resp incoming)
  | ignored {resp : Resp} {io : Io} (reported : state.kernel.reports false resp = true)
      (unreadable : resp.isReadable = false) :
      Outcome state (.proxyWait resp io) (state.reported resp.fd)

theorem step_outcome {state next : System} {action : Action} (wired : Wired state)
    (stepped : proxy.step state action = some next) : Outcome state action next := by
  simp only [proxy, wired.fault, Option.isSome_none, Bool.false_eq_true, ↓reduceIte] at stepped
  cases action with
  | accept fd peer =>
      obtain ⟨free, absent, rfl⟩ := accept_cases wired stepped
      exact .accepted free absent
  | arrive fd bytes =>
      simp only [System.arrive] at stepped
      split at stepped
      · cases stepped
      · split at stepped
        · cases stepped
        · cases stepped
          exact .arrived
  | finish fd =>
      simp only [System.finish] at stepped
      split at stepped
      · cases stepped
      · cases stepped
        exact .finished
  | serverWait resps wrote =>
      obtain ⟨distinct, reported, server, sockes, quiet, swept, rfl⟩ :=
        server_wait_cases wired stepped
      exact .swept distinct reported quiet swept
  | loadbalance sockToBackend =>
      obtain ⟨empty, batch, rest, queue, assigns, rfl⟩ := loadbalance_cases stepped
      exact .balanced empty queue assigns
  | forwardNext connect garbage io =>
      obtain ⟨incoming, addr, rest, context, outcome⟩ := forward_next_cases stepped
      rcases outcome with ⟨present, relayed⟩ | ⟨absent, rfl, rfl⟩ | ⟨sock, absent, rfl, free, relayed⟩
      · obtain ⟨sock, found⟩ := UnorderedMap.lookup_of_mem present
        exact .relayed context found relayed
      · exact .givenUp context absent
      · exact .established context absent free relayed
  | proxyWait resp io =>
      obtain ⟨reported, incoming, found, outcome⟩ := proxy_wait_cases wired stepped
      rcases outcome with ⟨readable, stays, rfl⟩ | ⟨closable, rfl⟩ | ⟨unreadable, _, rfl⟩
      · exact .returned reported found readable stays
      · exact .cleaned reported found closable
      · exact .ignored reported unreadable

theorem step_wired (state : System) (action : Action) (next : System) (wired : Wired state)
    (stepped : proxy.step state action = some next) : Wired next := by
  cases step_outcome wired stepped with
  | accepted free absent => exact accepted_wired wired free absent
  | arrived => exact modified_wired wired _ _
  | finished => exact modified_wired wired _ _
  | swept _ _ quiet swept => exact swept_wired wired quiet swept
  | balanced =>
      exact ⟨wired.quiet, wired.clients, wired.backends, wired.inverse, wired.fault⟩
  | @relayed incoming sock addr rest _ _ _ _ _ found relayed =>
      exact relay_wired (popped_wired wired rest) found relayed
  | @established incoming sock addr rest _ _ _ _ absent free relayed =>
      have established := establish_wired (popped_wired wired rest) addr free absent
      exact relay_wired established (establish_found (state.popped rest) addr absent) relayed
  | givenUp => exact popped_wired wired []
  | returned => exact forwarded_wired (reported_wired wired _) _ _ _ _
  | cleaned _ found => exact cleaned_wired wired found
  | ignored => exact reported_wired wired _

theorem start_wired : Wired System.start := by
  constructor
  · intro fd conn found
    cases found
  · intro fd
    simp [System.start, Kernel.side, Kernel.empty]
  · intro fd
    simp [System.start, Kernel.side, Kernel.empty]
  · exact UnorderedMap.inverse_empty
  · rfl

end RProxy.Proxy
