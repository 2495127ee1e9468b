import RProxy.Delivered

/-!
What a client receives over a whole run. Its backends may close and be replaced,
and then the answers of each follow those of the one before.
-/

namespace RProxy.Proxy

section Turns

variable {Part : Type} (key : Part → Nat) (bytes : Part → List Byte)

/-- The parts of the least key are in front. -/
theorem least_first (parts : List Part) (turn : Nat)
    (sorted : parts.Pairwise fun first second => key first ≤ key second)
    (least : ∀ part ∈ parts, turn ≤ key part) :
    parts = (parts.filter fun part => key part = turn) ++
      parts.filter fun part => key part ≠ turn := by
  induction parts with
  | nil => rfl
  | cons part rest ih =>
      obtain ⟨before, sorted⟩ := List.pairwise_cons.mp sorted
      by_cases same : key part = turn
      · have later := ih sorted fun other member => least other (List.mem_cons_of_mem _ member)
        rw [List.filter_cons_of_pos (by simp [same]), List.filter_cons_of_neg (by simp [same]),
          List.cons_append, ← later]
      · -- what follows has no smaller key than this part
        have above : ∀ other ∈ part :: rest, key other ≠ turn := by
          have here := least part List.mem_cons_self
          intro other member
          rcases List.mem_cons.mp member with rfl | member
          · exact same
          · have le := before other member
            omega
        rw [List.filter_eq_nil_iff.mpr (by simpa using above), List.nil_append,
          List.filter_eq_self.mpr (by simpa using above)]

/-- Parts in the order of their keys are those of each key, one key after another. -/
theorem grouped_of_sorted (parts : List Part) (keys : List Nat) (ordered : keys.Pairwise (· < ·))
    (sorted : parts.Pairwise fun first second => key first ≤ key second)
    (known : ∀ part ∈ parts, key part ∈ keys) :
    parts.flatMap bytes =
      keys.flatMap fun turn => (parts.filter fun part => key part = turn).flatMap bytes := by
  induction keys generalizing parts with
  | nil =>
      have empty : parts = [] := List.eq_nil_iff_forall_not_mem.mpr fun part member =>
        List.not_mem_nil (known part member)
      rw [empty]
      rfl
  | cons turn later ih =>
      obtain ⟨before, ordered⟩ := List.pairwise_cons.mp ordered
      have least : ∀ part ∈ parts, turn ≤ key part := by
        intro part member
        rcases List.mem_cons.mp (known part member) with same | after
        · exact Nat.le_of_eq same.symm
        · exact Nat.le_of_lt (before _ after)
      have rest := ih (parts.filter fun part => key part ≠ turn) ordered (sorted.filter _)
        fun part member => by
          obtain ⟨listed, differs⟩ := List.mem_filter.mp member
          exact (List.mem_cons.mp (known part listed)).resolve_left (of_decide_eq_true differs)
      rw [List.flatMap_cons]
      conv_lhs => rw [least_first key parts turn sorted least, List.flatMap_append, rest]
      congr 1
      apply List.flatMap_congr
      intro other member
      have differs := before other member
      rw [List.filter_filter]
      congr 1
      apply List.filter_congr
      intro part _
      by_cases same : key part = other
      · simp [same]
        omega
      · simp [same]

end Turns

/-- A backend in `sock_map_` is the last that was opened for its client, which has
no other number than the one in the map. -/
def Current (state : System) : Prop :=
  ∀ sock incoming backend client, state.sockMap.lookup sock = some incoming →
    state.kernel.fds.owner sock = some backend →
      state.kernel.role backend = .backend (some client) →
        (∀ fd, state.kernel.fds.owner fd = some client → fd = incoming) ∧
          ∀ other, state.kernel.role other = .backend (some client) → other ≤ backend

/-- A client gets the bytes of its backends in the order in which these were opened. -/
def InTurn (role : Nat → Role) (first second : Transfer) : Prop :=
  first.bytes ≠ [] → second.bytes ≠ [] → first.dest = second.dest →
    role first.dest = .client →
      ∀ former ∈ first.source, ∀ latter ∈ second.source, former ≤ latter

structure Turns (state : System) : Prop where
  sessions : Sessions state
  opened : Opened state
  unborn : ∀ conn, state.kernel.fds.next ≤ conn → state.kernel.role conn = .client
  current : Current state
  inTurn : state.transfers.Pairwise (InTurn state.kernel.role)

/-- A step that opens nothing and hands on nothing. -/
theorem turns_shrink {state next : System} (holds : Turns state) (sessions : Sessions next)
    (opened : Opened next) (role : next.kernel.role = state.kernel.role)
    (numbers : next.kernel.fds.next = state.kernel.fds.next)
    (owners : ∀ fd conn, next.kernel.fds.owner fd = some conn →
      state.kernel.fds.owner fd = some conn)
    (sockMap : ∀ sock incoming, next.sockMap.lookup sock = some incoming →
      state.sockMap.lookup sock = some incoming)
    (transfers : next.transfers = state.transfers) : Turns next := by
  constructor
  · exact sessions
  · exact opened
  · rw [role, numbers]
    exact holds.unborn
  · intro sock incoming backend client found owned
    rw [role]
    intro backed
    obtain ⟨only, last⟩ := holds.current sock incoming backend client (sockMap _ _ found)
      (owners _ _ owned) backed
    exact ⟨fun fd owned => only fd (owners _ _ owned), last⟩
  · rw [transfers, role]
    exact holds.inTurn

/-- A new connection of anybody else does not change whose turn it is. -/
theorem current_attach {state : System} (holds : Turns state) {sock incoming : Fd}
    {backend client : Nat} (found : state.sockMap.lookup sock = some incoming)
    (owned : state.kernel.fds.owner sock = some backend)
    (backed : state.kernel.role backend = .backend (some client)) (fd : Fd) {role : Role}
    (another : role ≠ .backend (some client)) (peer : InetAddr) :
    (∀ other, (state.kernel.attach fd role peer).fds.owner other = some client →
      other = incoming) ∧
      ∀ other, (state.kernel.attach fd role peer).role other = .backend (some client) →
        other ≤ backend := by
  obtain ⟨only, last⟩ := holds.current sock incoming backend client found owned backed
  constructor
  · intro other opened
    rw [Kernel.attach, FdTable.allocate_owner] at opened
    split at opened
    · -- the client is older than the new connection
      have old := (holds.opened backend client backed).1
      rw [Option.some.injEq] at opened
      omega
    · exact only other opened
  · intro other opened
    simp only [Kernel.attach, Function.update_apply] at opened
    split at opened
    · exact absurd opened another
    · exact last other opened

theorem attach_in_turn {state : System} (holds : Turns state) (role : Role) :
    state.transfers.Pairwise
      (InTurn (Function.update state.kernel.role state.kernel.fds.next role)) := by
  refine holds.inTurn.imp_of_mem ?_
  intro first second member _ inTurn unempty more same client
  have known := (holds.sessions.known first member).2
  rw [Function.update_of_ne (Nat.ne_of_lt known)] at client
  exact inTurn unempty more same client

theorem attach_unborn {state : System} (holds : Turns state) (role : Role) (conn : Nat)
    (later : state.kernel.fds.next + 1 ≤ conn) :
    Function.update state.kernel.role state.kernel.fds.next role conn = .client := by
  rw [Function.update_of_ne (by omega)]
  exact holds.unborn conn (by omega)

theorem accepted_turns {state : System} (holds : Turns state) {fd : Fd} {peer : InetAddr}
    (free : state.kernel.fds.owner fd = none) (sessions : Sessions (state.accepted fd peer))
    (opened : Opened (state.accepted fd peer)) : Turns (state.accepted fd peer) := by
  constructor
  · exact sessions
  · exact opened
  · exact attach_unborn holds .client
  · intro sock incoming backend client found owned backed
    have named : sock ≠ fd := by
      rintro rfl
      have side := (holds.sessions.wired.backends sock).mp (UnorderedMap.mem_of_lookup found)
      rw [Kernel.side, free] at side
      cases side
    simp only [System.accepted, Kernel.attach, FdTable.allocate_owner, if_neg named] at owned backed
    have old := state.kernel.fds.numbered sock backend owned
    rw [Function.update_of_ne (Nat.ne_of_lt old)] at backed
    exact current_attach holds found owned backed fd Role.noConfusion peer
  · exact attach_in_turn holds .client

theorem establish_turns {state : System} (holds : Turns state) {sock incoming : Fd}
    (addr : InetAddr) (free : state.kernel.fds.owner sock = none)
    (absent : incoming ∉ state.reversedMap)
    (sessions : Sessions (state.establish sock incoming addr))
    (opened : Opened (state.establish sock incoming addr)) :
    Turns (state.establish sock incoming addr) := by
  have fresh : sock ∉ state.sockMap := by
    rw [holds.sessions.wired.backends, Kernel.side, free]
    simp
  constructor
  · exact sessions
  · exact opened
  · exact attach_unborn holds _
  · intro other named backend client found owned backed
    simp only [System.establish,
      UnorderedMap.lookup_emplace_fresh (AList.lookup_eq_none.mpr fresh)] at found
    split at found
    · next same =>
        obtain rfl := Option.some.inj found
        have newest : backend = state.kernel.fds.next := by
          simpa [System.establish, Kernel.attach, FdTable.allocate_owner, same, eq_comm] using owned
        subst newest
        have opener : state.kernel.fds.owner incoming = some client := by
          simpa [System.establish, Kernel.attach] using backed
        constructor
        · intro fd opened
          simp only [System.establish, Kernel.attach, FdTable.allocate_owner] at opened
          split at opened
          · have old := state.kernel.fds.numbered incoming client opener
            rw [Option.some.injEq] at opened
            omega
          · exact state.kernel.fds.distinct fd incoming client opened opener
        · intro later backed
          by_contra beyond
          have unborn := attach_unborn holds (.backend (state.kernel.fds.owner incoming)) later
            (by omega)
          cases unborn.symm.trans backed
    · next older =>
        simp only [System.establish, Kernel.attach, FdTable.allocate_owner, if_neg older] at owned
        simp only [System.establish, Kernel.attach] at backed
        have old := state.kernel.fds.numbered other backend owned
        rw [Function.update_of_ne (Nat.ne_of_lt old)] at backed
        refine current_attach holds found owned backed sock ?_ addr
        -- the client of the new backend has none in `reversed_map_`
        intro same
        have opener : state.kernel.fds.owner incoming = some client := Role.backend.inj same
        obtain ⟨still, _⟩ := holds.current other named backend client found owned backed
        have still := still incoming opener
        rw [still] at absent
        have inverse := (holds.sessions.wired.inverse other named).mp found
        exact absent (UnorderedMap.mem_of_lookup inverse)
  · exact attach_in_turn holds _

/-- A call of `forward` that hands bytes to a client does so for its last backend. -/
theorem forwarded_turns {state : System} (holds : Turns state) (center : PubSubCenter Unit Unit)
    (io : Io) {inFd outFd : Fd} (sessions : Sessions (state.forwarded center io inFd outFd))
    (turn : ∀ source dest, state.kernel.fds.owner inFd = some source →
      state.kernel.fds.owner outFd = some dest → state.kernel.role dest = .client →
        ∀ other, state.kernel.role other = .backend (some dest) → other ≤ source) :
    Turns (state.forwarded center io inFd outFd) := by
  have fds : (state.forwarded center io inFd outFd).kernel.fds = state.kernel.fds :=
    Kernel.modify_fds _ _ _
  have role : (state.forwarded center io inFd outFd).kernel.role = state.kernel.role :=
    Kernel.modify_role _ _ _
  constructor
  · exact sessions
  · exact same_opened holds.opened role (by rw [fds])
  · rw [role, fds]
    exact holds.unborn
  · rw [Current, role, fds]
    exact holds.current
  · rw [role]
    refine List.pairwise_append.mpr ⟨holds.inTurn, ?_, ?_⟩
    · simp only [Kernel.transfer]
      split
      · exact List.Pairwise.nil
      · exact List.pairwise_singleton _ _
    · intro first member second new unempty _ same client former firstRead latter secondRead
      obtain ⟨destOwned, reads, _⟩ := state.kernel.mem_transfer new
      have sourceOwned := state.kernel.source_owner (reads.symm.trans secondRead)
      -- the earlier bytes came from a backend of this client
      obtain ⟨source, read, related⟩ := holds.sessions.isolated first member unempty
      obtain rfl : source = former := Option.some.inj (read.symm.trans firstRead)
      have toClient : state.kernel.role second.dest = .client := same ▸ client
      unfold Related at related
      cases opener : state.kernel.role source with
      | client =>
          rw [opener, client] at related
          cases related
      | backend openedFor =>
          rw [opener] at related
          rw [related, same] at opener
          exact turn latter second.dest sourceOwned destOwned toClient source opener

theorem relay_turns {state next : System} (holds : Turns state) {incoming sock : Fd}
    {garbage : InetAddr} {io : Io} (found : state.reversedMap.lookup incoming = some sock)
    (relayed : state.relay incoming garbage io = some next) (sessions : Sessions next) :
    Turns next := by
  rcases relay_cases found relayed with ⟨_, rfl⟩ | ⟨_, rfl⟩
  · exact holds
  · apply forwarded_turns holds _ _ sessions
    -- what a client sends goes to a backend
    intro source dest _ destOwned client
    have listed := UnorderedMap.mem_of_lookup
      ((holds.sessions.wired.inverse sock incoming).mpr found)
    have side := (holds.sessions.wired.backends sock).mp listed
    simp [Kernel.side, destOwned, client, Role.isClient] at side

theorem popped_turns {state : System} (holds : Turns state)
    {rest : List (Sigma fun _ : Fd => InetAddr)} (shrinks : ∀ entry ∈ rest, entry ∈ state.context) :
    Turns (state.popped rest) :=
  turns_shrink holds (popped_sessions holds.sessions shrinks) holds.opened rfl rfl
    (fun _ _ owned => owned) (fun _ _ found => found) rfl

/-- A backend is connected for the client that the context names next. -/
theorem established_turns {state next : System} (holds : Turns state) {incoming sock : Fd}
    {addr : InetAddr} {rest : List (Sigma fun _ : Fd => InetAddr)} {garbage : InetAddr} {io : Io}
    (context : state.context = ⟨incoming, addr⟩ :: rest) (absent : incoming ∉ state.reversedMap)
    (free : state.kernel.fds.owner sock = none) (fresh : sock ∉ state.reversedMap)
    (unnamed : ¬ state.Named sock)
    (relayed : ((state.popped rest).establish sock incoming addr).relay incoming garbage io =
      some next) (sessions : Sessions next) : Turns next := by
  have popped : Turns (state.popped rest) :=
    popped_turns holds fun entry member => by simp [context, member]
  have different : incoming ≠ sock := by
    intro same
    exact unnamed (Or.inl ⟨⟨incoming, addr⟩, by simp [context], same⟩)
  have unnamedLater : ¬ (state.popped rest).Named sock := by
    rintro (⟨entry, member, same⟩ | queued)
    · exact unnamed (Or.inl ⟨entry, by rw [context]; exact List.mem_cons_of_mem _ member, same⟩)
    · exact unnamed (Or.inr queued)
  have paired := establish_sessions popped.sessions addr free absent different fresh unnamedLater
  have opened : Opened ((state.popped rest).establish sock incoming addr) := by
    apply attach_opened popped.opened rfl
    intro client backend
    have owned : state.kernel.fds.owner incoming = some client := Role.backend.inj backend
    have named := holds.sessions.named incoming
      (Or.inl ⟨⟨incoming, addr⟩, by simp [context], rfl⟩)
    refine ⟨state.kernel.fds.numbered incoming client owned, ?_⟩
    show state.kernel.role client = .client
    cases role : state.kernel.role client with
    | client => rfl
    | backend openedFor => simp [Kernel.side, owned, role, Role.isClient] at named
  have established := establish_turns popped addr free absent paired opened
  exact relay_turns established (establish_found (state.popped rest) addr absent) relayed sessions

theorem step_turns (state : System) (action : Action) (next : System) (holds : Turns state)
    (allowed : Unclaimed state action ∧ Sound state action)
    (stepped : proxy.step state action = some next) : Turns next := by
  obtain ⟨sessions, opened⟩ :=
    step_opened state action next ⟨holds.sessions, holds.opened⟩ allowed stepped
  have wired := holds.sessions.wired
  cases step_outcome wired stepped with
  | accepted free => exact accepted_turns holds free sessions opened
  | arrived =>
      exact turns_shrink holds sessions opened (Kernel.modify_role _ _ _)
        (by simp [Kernel.arrive]) (fun fd conn owned => by simpa [Kernel.arrive] using owned)
        (fun _ _ found => found) rfl
  | finished =>
      exact turns_shrink holds sessions opened (Kernel.modify_role _ _ _)
        (by simp [Kernel.finish]) (fun fd conn owned => by simpa [Kernel.finish] using owned)
        (fun _ _ found => found) rfl
  | swept =>
      apply turns_shrink holds sessions opened rfl
      · simp [System.swept, Kernel.close, Kernel.batch, Kernel.report]
      · intro fd conn owned
        rw [System.swept, Kernel.close, FdTable.close_all_owner] at owned
        split at owned
        · cases owned
        · exact owned
      · exact fun _ _ found => found
      · rfl
  | balanced =>
      exact turns_shrink holds sessions opened rfl rfl (fun _ _ owned => owned)
        (fun _ _ found => found) rfl
  | @relayed incoming sock addr rest _ _ _ _ context found relayed =>
      have popped : Turns (state.popped rest) :=
        popped_turns holds fun entry member => by simp [context, member]
      exact relay_turns popped found relayed sessions
  | @established incoming sock addr rest _ _ _ context absent free relayed =>
      rcases allowed.1 _ (by rw [context]; rfl) with present | ⟨fresh, unnamed⟩
      · exact absurd present absent
      · exact established_turns holds context absent free fresh unnamed relayed sessions
  | givenUp =>
      exact turns_shrink holds sessions opened rfl rfl (fun _ _ owned => owned)
        (fun _ _ found => found) rfl
  | @returned resp io incoming _ found _ _ =>
      have reported : Turns (state.reported resp.fd) :=
        turns_shrink holds
          (sessions_same holds.sessions (reported_wired wired resp.fd) rfl rfl rfl rfl
            fun _ still => still)
          holds.opened rfl rfl (fun _ _ owned => owned) (fun _ _ found => found) rfl
      apply forwarded_turns reported _ _ sessions
      intro source dest sourceOwned destOwned _
      have backed : state.kernel.role source = .backend (some dest) :=
        holds.sessions.paired resp.fd incoming found source dest sourceOwned destOwned
      exact (holds.current resp.fd incoming source dest found sourceOwned backed).2
  | cleaned =>
      apply turns_shrink holds sessions opened rfl
      · simp [System.cleaned, Kernel.close, Kernel.report]
      · intro fd conn owned
        rw [System.cleaned, Kernel.close, FdTable.close_all_owner] at owned
        split at owned
        · cases owned
        · exact owned
      · exact fun _ _ => UnorderedMap.lookup_of_erase
      · rfl
  | ignored =>
      exact turns_shrink holds sessions opened rfl rfl (fun _ _ owned => owned)
        (fun _ _ found => found) rfl

theorem start_turns : Turns System.start := by
  constructor
  · exact start_sessions
  · exact start_opened
  · intro conn _
    rfl
  · intro sock incoming backend client found
    cases found
  · exact List.Pairwise.nil

/-- The backends that were opened for a client, in this order. -/
def System.backends (state : System) (client : Nat) : List Nat :=
  (List.range state.kernel.fds.next).filter fun conn =>
    state.kernel.role conn = .backend (some client)

theorem chosen_eq {Part : Type} (parts : List Part) (bytes : Part → List Byte)
    {first second : Part → Bool}
    (same : ∀ part ∈ parts, bytes part ≠ [] → (first part = true ↔ second part = true)) :
    (parts.filter first).flatMap bytes = (parts.filter second).flatMap bytes := by
  apply List.Sublist.antisymm
  · exact chosen_sublist parts bytes fun part member chosen unempty =>
      (same part member unempty).mp chosen
  · exact chosen_sublist parts bytes fun part member chosen unempty =>
      (same part member unempty).mpr chosen

/-- Bytes for a client come from a backend that was opened for it. -/
theorem source_backend {state : System} (holds : Turns state) {client : Nat}
    (role : state.kernel.role client = .client) {transfer : Transfer}
    (member : transfer ∈ state.transfers) (unempty : transfer.bytes ≠ [])
    (toClient : transfer.dest = client) :
    ∃ backend ∈ state.backends client, transfer.source = some backend := by
  obtain ⟨source, read, related⟩ := holds.sessions.isolated transfer member unempty
  refine ⟨source, ?_, read⟩
  unfold Related at related
  cases opener : state.kernel.role source with
  | client =>
      rw [opener, toClient, role] at related
      cases related
  | backend openedFor =>
      rw [opener, toClient] at related
      rw [related] at opener
      have known := (holds.sessions.known transfer member).1 source read
      simp [System.backends, known, opener]

/-- In every run in which no number is handed out that is still claimed and no `send`
is accepted after a `read` that failed, a client gets the bytes of its backends one
backend after another, as they were opened, and of each of them in order what it has
sent. -/
theorem answered_in_order (actions : List Action) (final : System)
    (unclaimed : proxy.Meets Unclaimed System.start actions)
    (sound : proxy.Meets Sound System.start actions)
    (ran : proxy.run System.start actions = some final) {client : Nat}
    (role : final.kernel.role client = .client) :
    received final.transfers client =
        (final.backends client).flatMap (delivered final.transfers) ∧
      ∀ backend ∈ final.backends client,
        (delivered final.transfers backend).Sublist (final.kernel.stream backend).arrived := by
  have ordered := proxy.run_preserves InOrder step_in_order start_in_order ran
  have holds := proxy.run_invariant Turns step_turns start_turns (proxy.meets_and unclaimed sound)
    ran
  constructor
  · let sent := final.transfers.filter fun transfer =>
      decide (transfer.dest = client ∧ transfer.bytes ≠ [])
    have listed : ∀ transfer ∈ sent, transfer ∈ final.transfers ∧ transfer.dest = client ∧
        transfer.bytes ≠ [] := by
      intro transfer member
      simpa [sent] using member
    let sender := fun transfer : Transfer => transfer.source.getD 0
    have backed : ∀ transfer ∈ final.transfers, transfer.dest = client → transfer.bytes ≠ [] →
        sender transfer ∈ final.backends client ∧ transfer.source = some (sender transfer) := by
      intro transfer known toClient unempty
      obtain ⟨backend, opened, read⟩ := source_backend holds role known unempty toClient
      simp [sender, read, opened]
    have sorted : sent.Pairwise fun first second => sender first ≤ sender second := by
      refine (holds.inTurn.filter _).imp_of_mem ?_
      intro first second firstSent secondSent inTurn
      obtain ⟨known, toClient, unempty⟩ := listed first firstSent
      obtain ⟨listedToo, also, more⟩ := listed second secondSent
      exact inTurn unempty more (toClient.trans also.symm) (toClient ▸ role) _
        (backed first known toClient unempty).2 _ (backed second listedToo also more).2
    have grouped := grouped_of_sorted sender Transfer.bytes sent (final.backends client)
      (List.pairwise_lt_range.filter _) sorted fun transfer member => by
        obtain ⟨known, toClient, unempty⟩ := listed transfer member
        exact (backed transfer known toClient unempty).1
    have whole : received final.transfers client = sent.flatMap Transfer.bytes :=
      chosen_eq _ _ fun transfer _ unempty => by simp [unempty]
    rw [whole, grouped]
    apply List.flatMap_congr
    intro backend member
    have opened : final.kernel.role backend = .backend (some client) := by
      simpa [System.backends] using (List.mem_filter.mp member).2
    rw [List.filter_filter]
    apply chosen_eq
    intro transfer known unempty
    simp only [unempty, ne_eq, not_false_eq_true, and_true, Bool.and_eq_true, decide_eq_true_eq]
    constructor
    · rintro ⟨rfl, toClient⟩
      exact (backed transfer known toClient unempty).2
    · intro read
      -- what a backend sends goes to the client that it was opened for
      obtain ⟨source, alsoRead, related⟩ := holds.sessions.isolated transfer known unempty
      obtain rfl : source = backend := Option.some.inj (alsoRead.symm.trans read)
      rw [Related, opened] at related
      exact ⟨by simp [sender, read], (Option.some.inj related).symm⟩
  · intro backend _
    rw [ordered.tails.whole backend]
    exact (ordered.ordered backend).trans (List.sublist_append_left _ _)

/-- The first backend answers and closes, and the second one answers too. -/
def succeeded : List Action :=
  served ++ [.finish 7, .proxyWait ⟨7, Demultiplex.epollRdHup⟩ (.fresh []), .arrive 5 [3],
    .serverWait [⟨5, Demultiplex.epollIn⟩] fun _ => none,
    .loadbalance ((∅ : UnorderedMap Fd InetAddr).emplace 5 ⟨['b'], 80⟩),
    .forwardNext (some 7) ⟨['a'], 1⟩ (.fresh [some 1]),
    .arrive 7 [4], .proxyWait ⟨7, Demultiplex.epollIn⟩ (.fresh [some 1])]

theorem answered_by_both : ∃ final, proxy.run System.start succeeded = some final ∧
    received final.transfers 0 = [2, 4] ∧ final.backends 0 = [1, 2] ∧
      received final.transfers 0 = (final.backends 0).flatMap (delivered final.transfers) ∧
      ∀ backend ∈ final.backends 0,
        (delivered final.transfers backend).Sublist (final.kernel.stream backend).arrived := by
  obtain ⟨final, ran, reached⟩ := proxy.run_reaches
    (fun final => decide (final.kernel.role 0 = .client ∧ received final.transfers 0 = [2, 4] ∧
      final.backends 0 = [1, 2])) System.start succeeded (by decide +kernel)
  obtain ⟨role, got, both⟩ := of_decide_eq_true reached
  exact ⟨final, ran, got, both, answered_in_order succeeded final (by decide +kernel)
    (by decide +kernel) ran role⟩

end RProxy.Proxy
