import RProxy.Wiring

/-!
Sessions: whose bytes go where, over whole histories of descriptors that are
closed and handed out again. A pass of `updateForForward` and an event of
`updateForWait` are one step of `proxy`, so no `close` and no `accept` comes
between their lookups, their `read` and their last `send` here.
-/

namespace RProxy.Proxy

/-- A client's bytes go to a backend opened for it, and a backend's bytes to the
client it was opened for. -/
def Related (role : Nat → Role) (source dest : Nat) : Prop :=
  match role source with
  | .client => role dest = .backend (some source)
  | .backend openedFor => openedFor = some dest

/-- The bytes were read from a connection, and went where its bytes may go. -/
def Isolated (role : Nat → Role) (transfer : Transfer) : Prop :=
  transfer.bytes ≠ [] → ∃ source ∈ transfer.source, Related role source transfer.dest

/-- A call of `forward`, with the kernel that it runs against. -/
structure Call where
  kernel : Kernel
  io : Io
  inFd : Fd
  outFd : Fd

namespace Call

variable (call : Call)

def result : Forwarded := call.kernel.forwarded call.io call.inFd call.outFd

def transfers : List Transfer := call.kernel.transfer call.io call.inFd call.outFd

/-- The connection that the call reads, unless its `read` fails. -/
def source : Option Nat := call.kernel.source call.inFd call.io.readFails

/-- Where its `read` fails, `send` accepts nothing. -/
def Sound : Prop :=
  call.kernel.read call.inFd call.io.readFails = .error →
    refused (call.kernel.sends call.io call.outFd) = true

instance : Decidable call.Sound := by
  unfold Sound
  infer_instance

end Call

/-- The call that `relay` makes, unless the client is limited. -/
def System.relayCall (state : System) (incoming sock : Fd) (garbage : InetAddr) (io : Io) :
    Option Call :=
  if state.center.isLismited (state.kernel.getPeerAddr incoming garbage).toString then none
  else some ⟨state.kernel, io, incoming, sock⟩

/-- The call of `forward` that a step makes. -/
def System.call (state : System) : Action → Option Call
  | .forwardNext connect garbage io =>
      match state.context with
      | [] => none
      | ⟨incoming, addr⟩ :: rest =>
          match state.reversedMap.lookup incoming with
          | some sock => (state.popped rest).relayCall incoming sock garbage io
          | none => connect.bind fun sock =>
              ((state.popped rest).establish sock incoming addr).relayCall incoming sock garbage io
  | .proxyWait resp io =>
      (state.sockMap.lookup resp.fd).bind fun incoming =>
        if resp.isReadable && !resp.isClosable then
          some ⟨state.kernel.report [resp.fd], io, resp.fd, incoming⟩
        else none
  | _ => none

/-- The call of `forward` that the step makes, if it makes one, is sound. -/
def Sound (state : System) (action : Action) : Prop :=
  ∀ call ∈ state.call action, call.Sound

instance (state : System) (action : Action) : Decidable (Sound state action) := by
  unfold Sound
  infer_instance

/-- The kernel hands out no number that `reversed_map_` still has as a client;
and a new backend gets none that is still to be forwarded as a client. -/
def Unclaimed (state : System) : Action → Prop
  | .accept fd _ => fd ∉ state.reversedMap
  | .forwardNext (some sock) _ _ => ∀ entry ∈ state.context.head?,
      entry.1 ∈ state.reversedMap ∨ (sock ∉ state.reversedMap ∧ ¬ state.Named sock)
  | _ => True

instance (state : System) : ∀ action, Decidable (Unclaimed state action)
  | .accept fd _ => inferInstanceAs (Decidable (fd ∉ state.reversedMap))
  | .arrive _ _ => isTrue trivial
  | .finish _ => isTrue trivial
  | .serverWait _ _ => isTrue trivial
  | .loadbalance _ => isTrue trivial
  | .forwardNext none _ _ => isTrue trivial
  | .forwardNext (some sock) _ _ => inferInstanceAs (Decidable (∀ entry ∈ state.context.head?,
      entry.1 ∈ state.reversedMap ∨ (sock ∉ state.reversedMap ∧ ¬ state.Named sock)))
  | .proxyWait _ _ => isTrue trivial

/-- An entry of `sock_map_` belongs to the session it was made for. -/
structure Sessions (state : System) : Prop where
  wired : Wired state
  paired : ∀ sock incoming, state.sockMap.lookup sock = some incoming →
    ∀ backend client, state.kernel.fds.owner sock = some backend →
      state.kernel.fds.owner incoming = some client →
        state.kernel.role backend = .backend (some client)
  named : ∀ fd, state.Named fd → state.kernel.side fd ≠ some false
  known : ∀ transfer ∈ state.transfers,
    (∀ source ∈ transfer.source, source < state.kernel.fds.next) ∧
      transfer.dest < state.kernel.fds.next
  isolated : ∀ transfer ∈ state.transfers, Isolated state.kernel.role transfer

/-- A step that opens and closes nothing. -/
theorem sessions_same {state next : System} (holds : Sessions state) (wired : Wired next)
    (fds : next.kernel.fds = state.kernel.fds) (role : next.kernel.role = state.kernel.role)
    (sockMap : next.sockMap = state.sockMap) (transfers : next.transfers = state.transfers)
    (named : ∀ fd, next.Named fd → state.Named fd) : Sessions next := by
  constructor
  · exact wired
  · rw [sockMap, fds, role]
    exact holds.paired
  · intro fd still
    rw [Kernel.side, fds, role]
    exact holds.named fd (named fd still)
  · rw [transfers, fds]
    exact holds.known
  · rw [transfers, role]
    exact holds.isolated

/-- A new connection takes nothing away from the old ones. -/
theorem related_attach {kernel : Kernel} {source dest : Nat} (role : Role)
    (known : source < kernel.fds.next ∧ dest < kernel.fds.next)
    (related : Related kernel.role source dest) :
    Related (Function.update kernel.role kernel.fds.next role) source dest := by
  simp only [Related] at related ⊢
  rw [Function.update_of_ne (Nat.ne_of_lt known.1), Function.update_of_ne (Nat.ne_of_lt known.2)]
  exact related

theorem isolated_attach {kernel : Kernel} {transfer : Transfer} (role : Role)
    (known : (∀ source ∈ transfer.source, source < kernel.fds.next) ∧
      transfer.dest < kernel.fds.next)
    (isolated : Isolated kernel.role transfer) :
    Isolated (Function.update kernel.role kernel.fds.next role) transfer := by
  intro unempty
  obtain ⟨source, read, related⟩ := isolated unempty
  exact ⟨source, read, related_attach role ⟨known.1 source read, known.2⟩ related⟩

theorem known_attach {transfer : Transfer} {next : Nat}
    (known : (∀ source ∈ transfer.source, source < next) ∧ transfer.dest < next) :
    (∀ source ∈ transfer.source, source < next + 1) ∧ transfer.dest < next + 1 :=
  ⟨fun source read => Nat.lt_succ_of_lt (known.1 source read), Nat.lt_succ_of_lt known.2⟩

theorem Call.transfers_known (call : Call) {transfer : Transfer}
    (member : transfer ∈ call.transfers) :
    (∀ source ∈ transfer.source, source < call.kernel.fds.next) ∧
      transfer.dest < call.kernel.fds.next := by
  obtain ⟨destOwned, read, _⟩ := call.kernel.mem_transfer member
  refine ⟨?_, call.kernel.fds.numbered _ _ destOwned⟩
  intro source taken
  rw [read] at taken
  exact call.kernel.fds.numbered _ _ (call.kernel.source_owner taken)

/-- What a sound call hands on was read, from the connection behind its first number. -/
theorem Call.transfers_read (call : Call) (sound : call.Sound) {transfer : Transfer}
    (member : transfer ∈ call.transfers) (unempty : transfer.bytes ≠ []) :
    ∃ source ∈ transfer.source, call.kernel.fds.owner call.inFd = some source := by
  obtain ⟨_, read, accepted⟩ := call.kernel.mem_transfer member
  rw [accepted] at unempty
  cases from_whom : call.kernel.source call.inFd call.io.readFails with
  | none => exact absurd ((call.kernel.unread_accepted call.outFd from_whom).mpr sound) unempty
  | some source => exact ⟨source, read.trans from_whom, call.kernel.source_owner from_whom⟩

theorem forwarded_sessions {state : System} (holds : Sessions state)
    (center : PubSubCenter Unit Unit) (io : Io) {inFd outFd : Fd}
    (sound : Call.Sound ⟨state.kernel, io, inFd, outFd⟩)
    (related : ∀ source dest, state.kernel.fds.owner inFd = some source →
      state.kernel.fds.owner outFd = some dest → Related state.kernel.role source dest) :
    Sessions (state.forwarded center io inFd outFd) := by
  have fds : (state.forwarded center io inFd outFd).kernel.fds = state.kernel.fds :=
    Kernel.modify_fds _ _ _
  have role : (state.forwarded center io inFd outFd).kernel.role = state.kernel.role :=
    Kernel.modify_role _ _ _
  let call : Call := ⟨state.kernel, io, inFd, outFd⟩
  constructor
  · exact forwarded_wired holds.wired center io inFd outFd
  · rw [fds, role]
    exact holds.paired
  · intro fd still
    rw [Kernel.side, fds, role]
    exact holds.named fd still
  · rw [fds]
    intro transfer member
    rcases List.mem_append.mp member with old | new
    · exact holds.known transfer old
    · exact call.transfers_known new
  · rw [role]
    intro transfer member
    rcases List.mem_append.mp member with old | new
    · exact holds.isolated transfer old
    · intro unempty
      obtain ⟨source, read, sourceOwned⟩ := call.transfers_read sound new unempty
      obtain ⟨destOwned, _, _⟩ := call.kernel.mem_transfer new
      exact ⟨source, read, related source _ sourceOwned destOwned⟩

theorem accepted_sessions {state : System} (holds : Sessions state) {fd : Fd} {peer : InetAddr}
    (free : state.kernel.fds.owner fd = none) (absent : fd ∉ state.server.connMap)
    (unclaimed : fd ∉ state.reversedMap) : Sessions (state.accepted fd peer) := by
  constructor
  · exact accepted_wired holds.wired free absent
  · intro sock incoming found backend client backendOwned clientOwned
    have inverse := (holds.wired.inverse sock incoming).mp found
    -- no backend has the new number as its client, as `reversed_map_` would have it too
    have incomingNew : incoming ≠ fd := by
      intro same
      rw [same] at inverse
      exact unclaimed (UnorderedMap.mem_of_lookup inverse)
    have sockNew : sock ≠ fd := by
      intro same
      have opened := (holds.wired.backends sock).mp (UnorderedMap.mem_of_lookup found)
      rw [same, Kernel.side, free] at opened
      cases opened
    simp only [System.accepted, Kernel.attach, FdTable.allocate_owner, sockNew, incomingNew,
      ↓reduceIte] at backendOwned clientOwned ⊢
    have old := state.kernel.fds.numbered sock backend backendOwned
    rw [Function.update_of_ne (Nat.ne_of_lt old)]
    exact holds.paired sock incoming found backend client backendOwned clientOwned
  · intro other still
    rw [System.accepted, Kernel.attach_side]
    split
    · simp [Role.isClient]
    · exact holds.named other still
  · intro transfer member
    exact known_attach (holds.known transfer member)
  · intro transfer member
    exact isolated_attach .client (holds.known transfer member) (holds.isolated transfer member)

theorem establish_sessions {state : System} (holds : Sessions state) {sock incoming : Fd}
    (addr : InetAddr) (free : state.kernel.fds.owner sock = none)
    (absent : incoming ∉ state.reversedMap) (different : incoming ≠ sock)
    (unclaimed : sock ∉ state.reversedMap) (unnamed : ¬ state.Named sock) :
    Sessions (state.establish sock incoming addr) := by
  have closed : state.kernel.side sock = none := by
    rw [Kernel.side, free]
    rfl
  have fresh : sock ∉ state.sockMap := by
    rw [holds.wired.backends, closed]
    simp
  constructor
  · exact establish_wired holds.wired addr free absent
  · intro other client found backend conn backendOwned clientOwned
    simp only [System.establish,
      UnorderedMap.lookup_emplace_fresh (AList.lookup_eq_none.mpr fresh)] at found
    simp only [System.establish, Kernel.attach, FdTable.allocate_owner] at backendOwned clientOwned ⊢
    -- the new pair is made of the client that has the number now
    by_cases same : other = sock
    · simp only [same, ↓reduceIte, Option.some.injEq] at found backendOwned
      subst found
      subst backendOwned
      rw [if_neg different] at clientOwned
      rw [Function.update_self, clientOwned]
    · simp only [same, ↓reduceIte] at found backendOwned
      -- an older pair keeps its client, since the new number is none
      have notSock : client ≠ sock := by
        intro clash
        have inverse := (holds.wired.inverse other client).mp found
        rw [clash] at inverse
        exact unclaimed (UnorderedMap.mem_of_lookup inverse)
      rw [if_neg notSock] at clientOwned
      have old := state.kernel.fds.numbered other backend backendOwned
      rw [Function.update_of_ne (Nat.ne_of_lt old)]
      exact holds.paired other client found backend conn backendOwned clientOwned
  · intro fd still
    have notSock : fd ≠ sock := by
      intro same
      rw [same] at still
      exact unnamed still
    rw [System.establish, Kernel.attach_side, if_neg notSock]
    exact holds.named fd still
  · intro transfer member
    exact known_attach (holds.known transfer member)
  · intro transfer member
    exact isolated_attach _ (holds.known transfer member) (holds.isolated transfer member)

theorem relay_sessions {state next : System} (holds : Sessions state) {incoming sock : Fd}
    {garbage : InetAddr} {io : Io} (found : state.reversedMap.lookup incoming = some sock)
    (client : state.kernel.side incoming ≠ some false)
    (sound : ∀ call ∈ state.relayCall incoming sock garbage io, call.Sound)
    (relayed : state.relay incoming garbage io = some next) : Sessions next := by
  rcases relay_cases found relayed with ⟨_, rfl⟩ | ⟨unlimited, rfl⟩
  · exact holds
  · apply forwarded_sessions holds
    · exact sound _ (by simp [System.relayCall, unlimited])
    intro source dest sourceOwned destOwned
    -- `reversed_map_` was looked up, but what is known is about `sock_map_`
    have paired := holds.paired sock incoming ((holds.wired.inverse sock incoming).mpr found)
      dest source destOwned sourceOwned
    unfold Related
    cases role : state.kernel.role source with
    | client => exact paired
    | backend openedFor => simp [Kernel.side, sourceOwned, role, Role.isClient] at client

theorem closed_sessions {state next : System} (holds : Sessions state) (wired : Wired next)
    {fds : List Fd} (closed : next.kernel.fds = state.kernel.fds.closeAll fds)
    (role : next.kernel.role = state.kernel.role) (transfers : next.transfers = state.transfers)
    (shrinks : ∀ sock incoming, next.sockMap.lookup sock = some incoming →
      state.sockMap.lookup sock = some incoming)
    (named : ∀ fd, next.Named fd → next.kernel.side fd ≠ some false) : Sessions next := by
  constructor
  · exact wired
  · intro sock incoming found backend client backendOwned clientOwned
    rw [closed, FdTable.close_all_owner] at backendOwned clientOwned
    split at backendOwned
    · cases backendOwned
    · split at clientOwned
      -- what is open after the close was open before, and is the same connection
      · cases clientOwned
      · rw [role]
        exact holds.paired sock incoming (shrinks sock incoming found) backend client backendOwned
          clientOwned
  · exact named
  · rw [transfers, closed, FdTable.close_all_next]
    exact holds.known
  · rw [transfers, role]
    exact holds.isolated

theorem swept_sessions {state : System} (holds : Sessions state) {resps : List Resp}
    {server : TcpServer} {sockes : List Fd} (quiet : server.Quiet)
    (swept : TcpServer.Swept { state.server with closed := [] } resps server sockes) :
    Sessions (state.swept resps server sockes) := by
  have wired := swept_wired holds.wired quiet swept
  apply closed_sessions holds wired
  · rfl
  · rfl
  · rfl
  · intro sock incoming found
    exact found
  · intro fd still backend
    have opened : state.kernel.side fd = some false := by
      rw [System.swept, Kernel.close_side] at backend
      split at backend
      · cases backend
      · exact backend
    rcases still with inContext | ⟨batch, queued, member⟩
    · exact holds.named fd (Or.inl inContext) opened
    · rcases List.mem_append.mp queued with old | new
      · exact holds.named fd (Or.inr ⟨batch, old, member⟩) opened
      · obtain rfl := List.mem_singleton.mp new
        -- the handler only batches descriptors it found in `conn_map_`
        have client := (holds.wired.clients fd).mp (swept.sound fd member).1
        rw [client] at opened
        cases opened

theorem cleaned_sessions {state : System} (holds : Sessions state) {resp : Resp} {incoming : Fd}
    (found : state.sockMap.lookup resp.fd = some incoming) :
    Sessions (state.cleaned resp incoming) := by
  have wired := cleaned_wired holds.wired found
  apply closed_sessions holds wired
  · rfl
  · rfl
  · rfl
  · exact fun _ _ => UnorderedMap.lookup_of_erase
  · intro fd still opened
    rw [System.cleaned, Kernel.close_side] at opened
    split at opened
    · cases opened
    · exact holds.named fd still opened

/-- A backend's bytes go where `sock_map_` says. -/
theorem returned_sessions {state : System} (holds : Sessions state) {resp : Resp} {io : Io}
    {incoming : Fd} (found : state.sockMap.lookup resp.fd = some incoming)
    (sound : Call.Sound ⟨state.kernel.report [resp.fd], io, resp.fd, incoming⟩) :
    Sessions ((state.reported resp.fd).forwarded state.center io resp.fd incoming) := by
  have reported : Sessions (state.reported resp.fd) :=
    sessions_same holds (reported_wired holds.wired resp.fd) rfl rfl rfl rfl fun _ still => still
  apply forwarded_sessions reported _ io sound
  intro source dest sourceOwned destOwned
  have paired : state.kernel.role source = .backend (some dest) :=
    holds.paired resp.fd incoming found source dest sourceOwned destOwned
  show Related state.kernel.role source dest
  rw [Related, paired]

theorem popped_sessions {state : System} (holds : Sessions state)
    {rest : List (Sigma fun _ : Fd => InetAddr)} (shrinks : ∀ entry ∈ rest, entry ∈ state.context) :
    Sessions (state.popped rest) := by
  apply sessions_same holds (popped_wired holds.wired rest) rfl rfl rfl rfl
  rintro fd (⟨entry, member, same⟩ | queued)
  · exact Or.inl ⟨entry, shrinks entry member, same⟩
  · exact Or.inr queued

theorem balanced_sessions {state : System} (holds : Sessions state)
    {sockToBackend : UnorderedMap Fd InetAddr} {batch : List Fd} {rest : List (List Fd)}
    (queue : state.loader.sockQueue = batch :: rest) (assigns : Assigns sockToBackend batch)
    {next : System} (wired : Wired next)
    (balanced : next = { state with
      loader := { state.loader with sockes := batch, sockQueue := rest }
      context := sockToBackend.entries }) : Sessions next := by
  subst balanced
  apply sessions_same holds wired rfl rfl rfl rfl
  intro fd still
  right
  rcases still with ⟨entry, member, rfl⟩ | ⟨other, queued, member⟩
  · have key : entry.1 ∈ sockToBackend.keys := List.mem_map_of_mem member
    exact ⟨batch, by simp [queue], assigns.2 entry.1 key⟩
  · exact ⟨other, by simp [queue, show other ∈ rest from queued], member⟩

/-- A backend is connected for the client that the context names next. -/
theorem established_sessions {state next : System} (holds : Sessions state) {incoming sock : Fd}
    {addr : InetAddr} {rest : List (Sigma fun _ : Fd => InetAddr)} {garbage : InetAddr} {io : Io}
    (context : state.context = ⟨incoming, addr⟩ :: rest) (absent : incoming ∉ state.reversedMap)
    (free : state.kernel.fds.owner sock = none) (fresh : sock ∉ state.reversedMap)
    (unnamed : ¬ state.Named sock)
    (sound : ∀ call ∈ ((state.popped rest).establish sock incoming addr).relayCall incoming sock
      garbage io, call.Sound)
    (relayed : ((state.popped rest).establish sock incoming addr).relay incoming garbage io =
      some next) : Sessions next := by
  have popped : Sessions (state.popped rest) :=
    popped_sessions holds fun entry member => by simp [context, member]
  have different : incoming ≠ sock := by
    intro same
    apply unnamed
    exact Or.inl ⟨⟨incoming, addr⟩, by simp [context], same⟩
  have unnamedLater : ¬ (state.popped rest).Named sock := by
    intro still
    apply unnamed
    rcases still with ⟨entry, member, same⟩ | queued
    · left
      exact ⟨entry, by rw [context]; exact List.mem_cons_of_mem _ member, same⟩
    · exact Or.inr queued
  have established := establish_sessions popped addr free absent different fresh unnamedLater
  apply relay_sessions established (establish_found (state.popped rest) addr absent) _ sound relayed
  rw [System.establish, Kernel.attach_side, if_neg different]
  exact holds.named incoming (Or.inl ⟨⟨incoming, addr⟩, by simp [context], rfl⟩)

theorem step_sessions (state : System) (action : Action) (next : System) (holds : Sessions state)
    (allowed : Unclaimed state action ∧ Sound state action)
    (stepped : proxy.step state action = some next) : Sessions next := by
  obtain ⟨unclaimed, sound⟩ := allowed
  have wired := step_wired state action next holds.wired stepped
  cases step_outcome holds.wired stepped with
  | accepted free absent => exact accepted_sessions holds free absent unclaimed
  | arrived =>
      exact sessions_same holds wired (Kernel.modify_fds _ _ _) (Kernel.modify_role _ _ _)
        rfl rfl fun _ still => still
  | finished =>
      exact sessions_same holds wired (Kernel.modify_fds _ _ _) (Kernel.modify_role _ _ _)
        rfl rfl fun _ still => still
  | swept _ _ quiet swept => exact swept_sessions holds quiet swept
  | balanced _ queue assigns => exact balanced_sessions holds queue assigns wired rfl
  | @relayed incoming sock addr rest _ _ _ _ context found relayed =>
      have popped : Sessions (state.popped rest) :=
        popped_sessions holds fun entry member => by simp [context, member]
      have notBackend : state.kernel.side incoming ≠ some false :=
        holds.named incoming (Or.inl ⟨⟨incoming, addr⟩, by simp [context], rfl⟩)
      apply relay_sessions popped found notBackend _ relayed
      simpa only [Sound, System.call, context, found] using sound
  | established context absent free relayed =>
      rcases unclaimed _ (by rw [context]; rfl) with present | ⟨fresh, unnamed⟩
      · exact absurd present absent
      · apply established_sessions holds context absent free fresh unnamed _ relayed
        simpa only [Sound, System.call, context, AList.lookup_eq_none.mpr absent,
          Option.bind_some] using sound
  | givenUp =>
      apply popped_sessions holds
      intro entry member
      cases member
  | returned _ found readable stays =>
      apply returned_sessions holds found
      exact sound _ (by simp [System.call, found, readable, stays])
  | cleaned _ found => exact cleaned_sessions holds found
  | ignored => exact sessions_same holds wired rfl rfl rfl rfl fun _ still => still

theorem start_sessions : Sessions System.start := by
  constructor
  · exact start_wired
  · intro sock incoming found
    cases found
  · rintro fd (⟨_, member, _⟩ | ⟨_, member, _⟩)
    · cases member
    · cases member
  · intro transfer member
    cases member
  · intro transfer member
    cases member

/-- A byte goes either way. -/
def served : List Action :=
  request [1] [some 1] ++
    [.arrive 7 [2], .proxyWait ⟨7, Demultiplex.epollIn⟩ (.fresh [some 1])]

end RProxy.Proxy
