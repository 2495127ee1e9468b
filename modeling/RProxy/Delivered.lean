import RProxy.Drain
import RProxy.Isolation
import RProxy.Tail

/-!
What the proxy hands on of what a peer sent, over whole runs: in which order,
to whom, and when all of it. As in `proxy`, nothing comes between the lookups of a
pass and its last `send`.
-/

namespace RProxy.Proxy

/-- The bytes of a connection that `send` accepted for the other side, in order. -/
def delivered (transfers : List Transfer) (conn : Nat) : List Byte :=
  (transfers.filter fun transfer => transfer.source = some conn).flatMap (·.bytes)

/-- The bytes that `send` accepted for a connection, in order. -/
def received (transfers : List Transfer) (conn : Nat) : List Byte :=
  (transfers.filter fun transfer => transfer.dest = conn).flatMap (·.bytes)

namespace Call

variable (call : Call)

/-- What the call reads of a connection. -/
def read (conn : Nat) : List Byte :=
  if call.kernel.fds.owner call.inFd = some conn then call.result.taken else []

/-- All that the call reads, `send` accepts. -/
def Complete : Prop :=
  call.source.isSome → call.transfers.flatMap (·.bytes) = call.result.taken

instance : Decidable call.Complete := by
  unfold Complete
  infer_instance

end Call

/-- The call of `forward` that the step makes, if it makes one, is complete. -/
def Complete (state : System) (action : Action) : Prop :=
  ∀ call ∈ state.call action, call.Complete

instance (state : System) (action : Action) : Decidable (Complete state action) := by
  unfold Complete
  infer_instance

theorem delivered_append (first second : List Transfer) (conn : Nat) :
    delivered (first ++ second) conn = delivered first conn ++ delivered second conn := by
  simp [delivered]

namespace Call

variable (call : Call)

theorem source_owner {conn : Nat} (reads : call.source = some conn) :
    call.kernel.fds.owner call.inFd = some conn :=
  call.kernel.source_owner reads

theorem taken_of_unread (unread : call.source = none) : call.result.taken = [] := by
  simp only [source, Kernel.source] at unread
  simp only [result, Kernel.forwarded]
  cases got : call.kernel.read call.inFd call.io.readFails with
  | data bytes fits =>
      have closed : call.kernel.fds.owner call.inFd = none := by simpa [got] using unread
      simp [Kernel.read, closed] at got
  | again => rfl
  | error => rfl

theorem accepted_taken {conn : Nat} (reads : call.source = some conn) :
    call.result.accepted = call.result.taken.take call.result.sending.total := by
  simp only [source, Kernel.source] at reads
  simp only [result, Kernel.forwarded]
  cases got : call.kernel.read call.inFd call.io.readFails with
  | data bytes fits => rw [forward_data_taken, forward_data_accepted]
  | again => simp [got] at reads
  | error => simp [got] at reads

/-- A call hands on what it reads of one connection, if the other side is open. -/
theorem delivered_transfers (conn : Nat) : delivered call.transfers conn =
    if call.source = some conn ∧ (call.kernel.fds.owner call.outFd).isSome then
      call.result.accepted
    else [] := by
  simp only [transfers, Kernel.transfer, source, delivered, result]
  cases call.kernel.fds.owner call.outFd with
  | none => simp
  | some dest =>
      by_cases reads : call.kernel.source call.inFd call.io.readFails = some conn <;> simp [reads]

/-- What a call hands on is the front of what it reads, and of the same connection. -/
theorem transfers_prefix (conn : Nat) : delivered call.transfers conn <+: call.read conn := by
  rw [delivered_transfers]
  split
  · next reads =>
      rw [read, if_pos (call.source_owner reads.1), accepted_taken call reads.1]
      exact List.take_prefix _ _
  · exact List.nil_prefix

theorem transfers_source {transfer : Transfer} (member : transfer ∈ call.transfers) :
    transfer.source = call.source :=
  (call.kernel.mem_transfer member).2.1

/-- A call is sound when all that it hands on was read. -/
theorem sound_iff : call.Sound ↔
    ∀ transfer ∈ call.transfers, transfer.bytes ≠ [] → transfer.source.isSome := by
  constructor
  · intro sound transfer member unempty
    obtain ⟨source, reads, _⟩ := call.transfers_read sound member unempty
    simp [show transfer.source = some source from reads]
  · intro all failed
    have unread : call.kernel.source call.inFd call.io.readFails = none := by
      simp [Kernel.source, failed]
    cases dest : call.kernel.fds.owner call.outFd with
    | none =>
        simp only [Kernel.sends, dest, Option.isSome_none, Bool.false_eq_true, ↓reduceIte]
        rfl
    | some conn =>
        apply (call.kernel.unread_accepted call.outFd unread).mp _ failed
        by_contra unempty
        have handed : ⟨none, conn, (call.kernel.forwarded call.io call.inFd call.outFd).accepted⟩ ∈
            call.transfers := by
          rw [transfers, Kernel.transfer, dest, unread]
          exact List.mem_singleton_self _
        cases all _ handed unempty

/-- A call is complete when it hands on what it reads of every connection. -/
theorem complete_iff : call.Complete ↔ ∀ conn, delivered call.transfers conn = call.read conn := by
  cases reads : call.source with
  | none =>
      have nothing : ∀ conn, delivered call.transfers conn = call.read conn := by
        intro conn
        simp [delivered_transfers, reads, read, taken_of_unread call reads]
      simp [Complete, reads, nothing]
  | some source =>
      have owned := call.source_owner reads
      have whole : delivered call.transfers source = call.transfers.flatMap (·.bytes) := by
        rw [delivered, List.filter_eq_self.mpr]
        intro transfer member
        simp [transfers_source call member, reads]
      constructor
      · intro complete conn
        by_cases same : source = conn
        · subst same
          rw [whole, complete (by simp [reads]), read, if_pos owned]
        · -- a connection that is not read is not handed on either
          have unread : call.read conn = [] := by simp [read, owned, same]
          rw [unread]
          exact List.prefix_nil.mp (unread ▸ transfers_prefix call conn)
      · intro all _
        rw [← whole, all source, read, if_pos owned]

end Call

/-- What a step adds to the streams that were read and to the transfers. -/
structure Adds (state next : System) (call : Option Call) : Prop where
  opened : state.kernel.fds.next ≤ next.kernel.fds.next
  numbered : ∀ made ∈ call, made.kernel.fds.next = next.kernel.fds.next
  offered : ∀ conn, (next.kernel.stream conn).offered =
    (state.kernel.stream conn).offered ++ (call.map (·.read conn)).getD []
  transfers : next.transfers = state.transfers ++ (call.map Call.transfers).getD []

/-- No connection was read or handed on before it was opened. -/
def Unborn (state : System) : Prop :=
  ∀ conn, state.kernel.fds.next ≤ conn →
    (state.kernel.stream conn).offered = [] ∧ delivered state.transfers conn = []

theorem adds_nothing {state next : System} (opened : state.kernel.fds.next ≤ next.kernel.fds.next)
    (offered : ∀ conn, (next.kernel.stream conn).offered = (state.kernel.stream conn).offered)
    (transfers : next.transfers = state.transfers) : Adds state next none := by
  constructor
  · exact opened
  · intro made absent
    cases absent
  · intro conn
    simp [offered]
  · simp [transfers]

theorem forwarded_adds (state : System) (center : PubSubCenter Unit Unit) (io : Io)
    (inFd outFd : Fd) :
    Adds state (state.forwarded center io inFd outFd) (some ⟨state.kernel, io, inFd, outFd⟩) := by
  constructor
  · simp [System.forwarded, Kernel.consume]
  · intro made present
    obtain rfl := Option.some.inj present
    simp [System.forwarded, Kernel.consume]
  · intro conn
    rw [System.forwarded, Kernel.consume, Kernel.modify_stream]
    by_cases owned : state.kernel.fds.owner inFd = some conn <;>
      simp [owned, Call.read, Call.result]
  · rfl

theorem relay_adds {state next : System} {incoming sock : Fd} {garbage : InetAddr} {io : Io}
    (found : state.reversedMap.lookup incoming = some sock)
    (relayed : state.relay incoming garbage io = some next) :
    Adds state next (state.relayCall incoming sock garbage io) := by
  rcases relay_cases found relayed with ⟨limited, rfl⟩ | ⟨unlimited, rfl⟩
  · rw [System.relayCall, if_pos limited]
    exact adds_nothing (Nat.le_refl _) (fun _ => rfl) rfl
  · rw [System.relayCall, if_neg (by simp [unlimited])]
    exact forwarded_adds state _ io incoming sock

/-- A change before the step that neither reads nor hands on. -/
theorem Adds.after {state between next : System} {call : Option Call}
    (adds : Adds between next call) (opened : state.kernel.fds.next ≤ between.kernel.fds.next)
    (offered : ∀ conn, (between.kernel.stream conn).offered = (state.kernel.stream conn).offered)
    (transfers : between.transfers = state.transfers) : Adds state next call := by
  constructor
  · exact Nat.le_trans opened adds.opened
  · exact adds.numbered
  · intro conn
    rw [adds.offered, offered]
  · rw [adds.transfers, transfers]

theorem attach_offered {state : System} (unborn : Unborn state) (fd : Fd) (role : Role)
    (peer : InetAddr) (conn : Nat) : ((state.kernel.attach fd role peer).stream conn).offered =
      (state.kernel.stream conn).offered := by
  simp only [Kernel.attach, Function.update_apply]
  split
  · next same => rw [same, (unborn _ (Nat.le_refl _)).1, Stream.new]
  · rfl

theorem modify_offered (kernel : Kernel) (fd : Fd) {change : Stream → Stream}
    (keeps : ∀ stream, (change stream).offered = stream.offered) (conn : Nat) :
    ((kernel.modify fd change).stream conn).offered = (kernel.stream conn).offered := by
  rw [Kernel.modify_stream]
  split
  · exact keeps _
  · rfl

theorem report_offered (kernel : Kernel) (fds : List Fd) (conn : Nat) :
    ((kernel.report fds).stream conn).offered = (kernel.stream conn).offered := by
  simp only [Kernel.report]
  split <;> rfl

theorem batch_offered (kernel : Kernel) (fds : List Fd) (conn : Nat) :
    ((kernel.batch fds).stream conn).offered = (kernel.stream conn).offered := by
  simp only [Kernel.batch]
  split <;> rfl

theorem proxy_wait_adds {state next : System} {resp : Resp} {io : Io} (wired : Wired state)
    (stepped : state.proxyWait resp io = some next) :
    Adds state next (state.call (.proxyWait resp io)) := by
  obtain ⟨_, incoming, found, outcome⟩ := proxy_wait_cases wired stepped
  simp only [System.call, found, Option.bind_some]
  rcases outcome with ⟨readable, stays, rfl⟩ | ⟨closable, rfl⟩ | ⟨unreadable, _, rfl⟩
  · simp only [readable, stays, Bool.not_false, Bool.and_self, ↓reduceIte]
    have adds := forwarded_adds (state.reported resp.fd) state.center io resp.fd incoming
    exact adds.after (Nat.le_refl _) (report_offered _ _) rfl
  · simp only [closable, Bool.not_true, Bool.and_false, Bool.false_eq_true, ↓reduceIte]
    apply adds_nothing (by simp [System.cleaned, Kernel.close, Kernel.report])
    · exact report_offered _ _
    · rfl
  · simp only [unreadable, Bool.false_and, Bool.false_eq_true, ↓reduceIte]
    exact adds_nothing (Nat.le_refl _) (report_offered _ _) rfl

theorem step_adds {state next : System} {action : Action} (wired : Wired state)
    (unborn : Unborn state) (stepped : proxy.step state action = some next) :
    Adds state next (state.call action) := by
  have waited : ∀ resp io, action = .proxyWait resp io → Adds state next (state.call action) := by
    rintro resp io rfl
    simp only [proxy, wired.fault, Option.isSome_none, Bool.false_eq_true, ↓reduceIte] at stepped
    exact proxy_wait_adds wired stepped
  cases step_outcome wired stepped with
  | accepted =>
      exact adds_nothing (Nat.le_succ _) (attach_offered unborn _ _ _) rfl
  | arrived =>
      exact adds_nothing (by simp [Kernel.arrive]) (modify_offered _ _ fun _ => rfl) rfl
  | finished =>
      exact adds_nothing (by simp [Kernel.finish]) (modify_offered _ _ fun _ => rfl) rfl
  | swept =>
      apply adds_nothing (by simp [System.swept, Kernel.close, Kernel.batch, Kernel.report])
      · intro conn
        exact (batch_offered _ _ conn).trans (report_offered _ _ conn)
      · rfl
  | balanced => exact adds_nothing (Nat.le_refl _) (fun _ => rfl) rfl
  | @relayed incoming sock addr rest _ _ _ _ context found relayed =>
      simp only [System.call, context, found]
      have popped : (state.popped rest).reversedMap.lookup incoming = some sock := found
      exact (relay_adds popped relayed).after (Nat.le_refl _) (fun _ => rfl) rfl
  | @established incoming sock addr rest _ _ _ context absent free relayed =>
      simp only [System.call, context, AList.lookup_eq_none.mpr absent, Option.bind_some]
      have adds := relay_adds (establish_found (state.popped rest) addr absent) relayed
      exact adds.after (Nat.le_succ _) (attach_offered unborn _ _ _) rfl
  | givenUp context absent =>
      simp only [System.call, context, AList.lookup_eq_none.mpr absent, Option.bind_none]
      exact adds_nothing (Nat.le_refl _) (fun _ => rfl) rfl
  | returned => exact waited _ _ rfl
  | cleaned => exact waited _ _ rfl
  | ignored => exact waited _ _ rfl

/-- What was handed on of a connection is, in order, among what was read of it. -/
structure InOrder (state : System) : Prop where
  tails : Tails state
  unborn : Unborn state
  ordered : ∀ conn, (delivered state.transfers conn).Sublist (state.kernel.stream conn).offered

theorem Adds.delivered {state next : System} {call : Option Call} (adds : Adds state next call)
    (conn : Nat) : ∃ sent, sent <+: (call.map (·.read conn)).getD [] ∧
      delivered next.transfers conn = delivered state.transfers conn ++ sent := by
  rw [adds.transfers, delivered_append]
  cases call with
  | none => exact ⟨[], List.prefix_refl _, rfl⟩
  | some made => exact ⟨_, made.transfers_prefix conn, rfl⟩

theorem Adds.unborn {state next : System} {call : Option Call} (adds : Adds state next call)
    (unborn : Unborn state) : Unborn next := by
  intro conn later
  obtain ⟨offered, sent⟩ := unborn conn (Nat.le_trans adds.opened later)
  -- a call reads a connection that is open, so none with that number
  have unread : (call.map (·.read conn)).getD [] = [] := by
    cases call with
    | none => rfl
    | some made =>
        simp only [Option.map_some, Option.getD_some, Call.read]
        split
        · next owned =>
            have old := made.kernel.fds.numbered _ _ owned
            rw [adds.numbered made rfl] at old
            omega
        · rfl
  obtain ⟨more, front, after⟩ := adds.delivered conn
  rw [unread] at front
  constructor
  · rw [adds.offered, offered, unread]
    rfl
  · rw [after, sent, List.prefix_nil.mp front]
    rfl

theorem step_in_order (state : System) (action : Action) (next : System) (holds : InOrder state)
    (stepped : proxy.step state action = some next) : InOrder next := by
  have adds := step_adds holds.tails.wired holds.unborn stepped
  constructor
  · exact step_tails state action next holds.tails stepped
  · exact adds.unborn holds.unborn
  · intro conn
    obtain ⟨sent, front, after⟩ := adds.delivered conn
    rw [after, adds.offered]
    exact (holds.ordered conn).append front.sublist

theorem start_in_order : InOrder System.start :=
  ⟨start_tails, fun _ _ => ⟨rfl, rfl⟩, fun _ => List.Sublist.refl _⟩

/-- All that was accepted so far had been read exactly when that was so before the step
and its call is sound. -/
theorem step_reads_iff (state : System) (action : Action) (next : System)
    (holds : InOrder state) (stepped : proxy.step state action = some next) :
    (∀ transfer ∈ next.transfers, transfer.bytes ≠ [] → transfer.source.isSome) ↔
      (∀ transfer ∈ state.transfers, transfer.bytes ≠ [] → transfer.source.isSome) ∧
        Sound state action := by
  have adds := step_adds holds.tails.wired holds.unborn stepped
  have sound : Sound state action ↔
      ∀ transfer ∈ ((state.call action).map Call.transfers).getD [],
        transfer.bytes ≠ [] → transfer.source.isSome := by
    unfold Sound
    cases state.call action with
    | none => simp
    | some made => simp [made.sound_iff]
  rw [sound, adds.transfers]
  simp only [List.mem_append, or_imp, forall_and]

/-- Over every run: what `send` accepted of a connection is, in order, among what
was read of it, and what was read is the front of what its peer sent; and nothing
else was accepted exactly when no `send` was after a `read` that failed. -/
theorem delivered_in_order (actions : List Action) (final : System)
    (ran : proxy.run System.start actions = some final) :
    (∀ conn, (delivered final.transfers conn).Sublist (final.kernel.stream conn).offered ∧
      (final.kernel.stream conn).arrived =
        (final.kernel.stream conn).offered ++ (final.kernel.stream conn).queue) ∧
      ((∀ transfer ∈ final.transfers, transfer.bytes ≠ [] → transfer.source.isSome) ↔
        proxy.Meets Sound System.start actions) := by
  have holds := proxy.run_preserves InOrder step_in_order start_in_order ran
  constructor
  · intro conn
    exact ⟨holds.ordered conn, holds.tails.whole conn⟩
  · rw [proxy.final_iff_meets step_in_order step_reads_iff start_in_order ran]
    refine ⟨And.right, fun sound => ⟨?_, sound⟩⟩
    intro transfer member
    cases member

/-- Of three bytes that were read, the connection to the backend took two. -/
theorem two_of_three_in_order : ∃ final,
    proxy.run System.start (request [1, 2, 3] [some 2, none]) = some final ∧
      delivered final.transfers 0 = [1, 2] ∧
      (∀ conn, (delivered final.transfers conn).Sublist (final.kernel.stream conn).offered ∧
        (final.kernel.stream conn).arrived =
          (final.kernel.stream conn).offered ++ (final.kernel.stream conn).queue) ∧
      ((∀ transfer ∈ final.transfers, transfer.bytes ≠ [] → transfer.source.isSome) ↔
        proxy.Meets Sound System.start (request [1, 2, 3] [some 2, none])) := by
  obtain ⟨final, ran, sent⟩ := proxy.run_reaches
    (fun final => decide (delivered final.transfers 0 = [1, 2])) System.start
    (request [1, 2, 3] [some 2, none]) (by decide +kernel)
  exact ⟨final, ran, of_decide_eq_true sent, delivered_in_order _ final ran⟩

/-- A step hands on what was read so far exactly when nothing was lost before it
and its call is complete: a loss is never made up for. -/
theorem step_delivers_iff (state : System) (action : Action) (next : System)
    (holds : InOrder state) (stepped : proxy.step state action = some next) :
    (∀ conn, delivered next.transfers conn = (next.kernel.stream conn).offered) ↔
      (∀ conn, delivered state.transfers conn = (state.kernel.stream conn).offered) ∧
        Complete state action := by
  have adds := step_adds holds.tails.wired holds.unborn stepped
  have complete : Complete state action ↔
      ∀ conn, delivered (((state.call action).map Call.transfers).getD []) conn =
        ((state.call action).map (·.read conn)).getD [] := by
    unfold Complete
    cases state.call action with
    | none => simp [delivered]
    | some made => simp [made.complete_iff]
  rw [complete, ← forall_and]
  apply forall_congr'
  intro conn
  have before := (holds.ordered conn).length_le
  rw [adds.offered, adds.transfers, delivered_append]
  constructor
  · intro same
    have front : delivered (((state.call action).map Call.transfers).getD []) conn <+:
        ((state.call action).map (·.read conn)).getD [] := by
      cases state.call action with
      | none => exact List.prefix_refl _
      | some made => exact made.transfers_prefix conn
    have step := front.length_le
    have lengths := congrArg List.length same
    rw [List.length_append, List.length_append] at lengths
    -- neither part is longer, so neither is shorter
    exact List.append_inj same (by omega)
  · rintro ⟨same, sent⟩
    rw [same, sent]

/-- At the end of a run all that was read has been handed on exactly when every
call of `forward` that was made handed on all it read. -/
theorem delivered_all_iff (actions : List Action) (final : System)
    (ran : proxy.run System.start actions = some final) :
    (∀ conn, delivered final.transfers conn = (final.kernel.stream conn).offered) ↔
      proxy.Meets Complete System.start actions := by
  rw [proxy.final_iff_meets step_in_order step_delivers_iff start_in_order ran]
  have initial : ∀ conn, delivered System.start.transfers conn =
      (System.start.kernel.stream conn).offered := fun conn => rfl
  exact ⟨And.right, fun meets => ⟨initial, meets⟩⟩

/-- A byte each way, and both were handed on. -/
theorem served_delivered : ∃ final, proxy.run System.start served = some final ∧
    ∀ conn, delivered final.transfers conn = (final.kernel.stream conn).offered := by
  obtain ⟨final, ran, _⟩ := proxy.run_reaches (fun _ => true) System.start served
    (by decide +kernel)
  exact ⟨final, ran, (delivered_all_iff served final ran).mpr (by decide +kernel)⟩

/-- A backend was opened for a client. -/
def Opened (state : System) : Prop :=
  ∀ conn client, state.kernel.role conn = .backend (some client) →
    client < state.kernel.fds.next ∧ state.kernel.role client = .client

theorem attach_opened {state next : System} (holds : Opened state) {fd : Fd} {role : Role}
    {peer : InetAddr} (kernel : next.kernel = state.kernel.attach fd role peer)
    (fresh : ∀ client, role = .backend (some client) →
      client < state.kernel.fds.next ∧ state.kernel.role client = .client) : Opened next := by
  intro conn client opened
  have old : client < state.kernel.fds.next ∧ state.kernel.role client = .client := by
    simp only [kernel, Kernel.attach, Function.update_apply] at opened
    split at opened
    · exact fresh client opened
    · exact holds conn client opened
  simp only [kernel, Kernel.attach, FdTable.allocate_next]
  rw [Function.update_of_ne (Nat.ne_of_lt old.1)]
  exact ⟨Nat.lt_succ_of_lt old.1, old.2⟩

theorem same_opened {state next : System} (holds : Opened state)
    (role : next.kernel.role = state.kernel.role)
    (fds : next.kernel.fds.next = state.kernel.fds.next) : Opened next := by
  rw [Opened, role, fds]
  exact holds

theorem relay_opened {state next : System} (holds : Opened state) {incoming sock : Fd}
    {garbage : InetAddr} {io : Io} (found : state.reversedMap.lookup incoming = some sock)
    (relayed : state.relay incoming garbage io = some next) : Opened next := by
  rcases relay_cases found relayed with ⟨_, rfl⟩ | ⟨_, rfl⟩
  · exact holds
  · apply same_opened holds
    · simp [System.forwarded, Kernel.consume]
    · simp [System.forwarded, Kernel.consume]

/-- The context names no backend, so a backend is opened for a client or for nobody. -/
theorem step_opened (state : System) (action : Action) (next : System)
    (holds : Sessions state ∧ Opened state)
    (allowed : Unclaimed state action ∧ Sound state action)
    (stepped : proxy.step state action = some next) : Sessions next ∧ Opened next := by
  refine ⟨step_sessions state action next holds.1 allowed stepped, ?_⟩
  rcases holds with ⟨sessions, opened⟩
  cases step_outcome sessions.wired stepped with
  | accepted =>
      apply attach_opened opened rfl
      intro client backend
      cases backend
  | arrived => exact same_opened opened (by simp [Kernel.arrive]) (by simp [Kernel.arrive])
  | finished => exact same_opened opened (by simp [Kernel.finish]) (by simp [Kernel.finish])
  | swept =>
      exact same_opened opened rfl
        (by simp [System.swept, Kernel.close, Kernel.batch, Kernel.report])
  | balanced => exact opened
  | @relayed incoming sock addr rest _ _ _ _ _ found relayed =>
      have popped : (state.popped rest).reversedMap.lookup incoming = some sock := found
      have kept : Opened (state.popped rest) := opened
      exact relay_opened kept popped relayed
  | @established incoming sock addr rest _ _ _ context absent free relayed =>
      apply relay_opened _ (establish_found (state.popped rest) addr absent) relayed
      have kept : Opened (state.popped rest) := opened
      apply attach_opened kept rfl
      intro client backend
      have owned : state.kernel.fds.owner incoming = some client := by
        simpa [System.popped] using backend
      have named := sessions.named incoming (Or.inl ⟨⟨incoming, addr⟩, by simp [context], rfl⟩)
      refine ⟨state.kernel.fds.numbered incoming client owned, ?_⟩
      show state.kernel.role client = .client
      cases role : state.kernel.role client with
      | client => rfl
      | backend openedFor => simp [Kernel.side, owned, role, Role.isClient] at named
  | givenUp => exact opened
  | returned =>
      apply same_opened opened
      · simp [System.forwarded, System.reported, Kernel.report, Kernel.consume]
      · simp [System.forwarded, System.reported, Kernel.report, Kernel.consume]
  | cleaned =>
      exact same_opened opened rfl (by simp [System.cleaned, Kernel.close, Kernel.report])
  | ignored => exact opened

theorem start_opened : Opened System.start := by
  intro conn client opened
  cases opened

/-- Parts that the first choice takes and the second does not are empty. -/
theorem chosen_sublist {Part : Type} (parts : List Part) (bytes : Part → List Byte)
    {first second : Part → Bool}
    (implies : ∀ part ∈ parts, first part = true → bytes part ≠ [] → second part = true) :
    ((parts.filter first).flatMap bytes).Sublist ((parts.filter second).flatMap bytes) := by
  induction parts with
  | nil => exact List.Sublist.refl _
  | cons part rest ih =>
      have later := ih fun other member => implies other (List.mem_cons_of_mem _ member)
      have here := implies part List.mem_cons_self
      cases chosen : first part with
      | false =>
          rw [List.filter_cons_of_neg (by simp [chosen])]
          by_cases other : second part = true
          · rw [List.filter_cons_of_pos other, List.flatMap_cons]
            exact later.trans (List.sublist_append_right _ _)
          · rw [List.filter_cons_of_neg other]
            exact later
      | true =>
          rw [List.filter_cons_of_pos chosen, List.flatMap_cons]
          by_cases other : second part = true
          · rw [List.filter_cons_of_pos other, List.flatMap_cons]
            exact (List.Sublist.refl _).append later
          · have empty : bytes part = [] := by
              by_contra unempty
              exact other (here chosen unempty)
            rw [List.filter_cons_of_neg other, empty, List.nil_append]
            exact later

/-- Where no `send` is accepted after a `read` that failed, what a backend got on its
connection is, in order, among what the one client it was opened for has sent. -/
theorem received_in_order (actions : List Action) (final : System)
    (unclaimed : proxy.Meets Unclaimed System.start actions)
    (sound : proxy.Meets Sound System.start actions)
    (ran : proxy.run System.start actions = some final) {backend client : Nat}
    (opened : final.kernel.role backend = .backend (some client)) :
    (received final.transfers backend).Sublist (final.kernel.stream client).arrived := by
  have holds := proxy.run_preserves InOrder step_in_order start_in_order ran
  obtain ⟨sessions, clients⟩ := proxy.run_invariant (fun state => Sessions state ∧ Opened state)
    step_opened ⟨start_sessions, start_opened⟩ (proxy.meets_and unclaimed sound) ran
  have own : (received final.transfers backend).Sublist (delivered final.transfers client) := by
    apply chosen_sublist
    intro transfer member toBackend unempty
    have dest : transfer.dest = backend := of_decide_eq_true toBackend
    obtain ⟨source, reads, related⟩ := sessions.isolated transfer member unempty
    unfold Related at related
    split at related
    · rw [dest, opened] at related
      cases related
      exact decide_eq_true reads
    · next openedFor role =>
        -- a backend that sends to this one would have it as its client
        rw [related, dest] at role
        have itself := (clients source backend role).2
        rw [opened] at itself
        cases itself
  rw [holds.tails.whole client]
  exact (own.trans (holds.ordered client)).trans (List.sublist_append_left _ _)

theorem backend_received_in_order : ∃ final, proxy.run System.start served = some final ∧
    received final.transfers 1 = [1] ∧
      (received final.transfers 1).Sublist (final.kernel.stream 0).arrived := by
  obtain ⟨final, ran, reached⟩ := proxy.run_reaches
    (fun final => decide (final.kernel.role 1 = .backend (some 0) ∧
      received final.transfers 1 = [1])) System.start served (by decide +kernel)
  obtain ⟨role, got⟩ := of_decide_eq_true reached
  exact ⟨final, ran, got,
    received_in_order served final (by decide +kernel) (by decide +kernel) ran role⟩

/-- Nothing is under way: no event is queued, and nothing is to be forwarded. -/
structure AtRest (state : System) : Prop where
  events : ∀ fd conn, state.kernel.fds.owner fd = some conn →
    (state.kernel.stream conn).ready = false
  context : state.context = []
  batches : ∀ batch ∈ state.loader.sockQueue, batch = []

/-- In a run in which what is taken up is read to the end and all that is read is
handed on, once nothing is under way every open connection whose client is not
limited has had all its bytes handed on once, in order, and inside its session. -/
theorem all_delivered_at_rest (actions : List Action) (final : System)
    (unclaimed : proxy.Meets Unclaimed System.start actions)
    (registered : proxy.Meets Registered System.start actions)
    (drains : proxy.Meets Drains System.start actions)
    (complete : proxy.Meets Complete System.start actions)
    (sound : proxy.Meets Sound System.start actions)
    (ran : proxy.run System.start actions = some final) (rest : AtRest final) {fd : Fd}
    {conn : Nat} (owned : final.kernel.fds.owner fd = some conn)
    (unlimited : final.limited (final.clientOf fd) = false) :
    delivered final.transfers conn = (final.kernel.stream conn).arrived ∧
      ∀ transfer ∈ final.transfers, Isolated final.kernel.role transfer := by
  have holds := proxy.run_preserves InOrder step_in_order start_in_order ran
  have listed : fd ∈ final.server.connMap ∨ fd ∈ final.sockMap := by
    rw [holds.tails.wired.clients, holds.tails.wired.backends, Kernel.side, owned]
    cases (final.kernel.role conn).isClient <;> simp
  have unnamed : ¬ final.Named fd := by
    rintro (⟨entry, member, _⟩ | ⟨batch, queued, member⟩)
    · rw [rest.context] at member
      cases member
    · rw [rest.batches batch queued] at member
      cases member
  have read : (final.kernel.stream conn).queue = [] := by
    by_contra unread
    have idle := rest.events fd conn owned
    have watched := proxy.run_invariant (Watched fun _ => False) step_watched start_watched
      (proxy.meets_and registered drains) ran
    rcases drained_of_watched watched fd conn owned listed unlimited unread with ready | named
    · rw [ready] at idle
      cases idle
    · exact unnamed named
  have delivers := (proxy.final_iff_meets step_in_order step_delivers_iff start_in_order ran).mpr
    ⟨fun _ => rfl, complete⟩
  have sessions := proxy.run_invariant Sessions step_sessions start_sessions
    (proxy.meets_and unclaimed sound) ran
  refine ⟨?_, sessions.isolated⟩
  rw [delivers conn, holds.tails.whole conn, read, List.append_nil]

/-- The byte of the client and the byte of the backend were all there was. -/
theorem served_all_delivered : ∃ final, proxy.run System.start served = some final ∧
    delivered final.transfers 0 = (final.kernel.stream 0).arrived ∧
      ∀ transfer ∈ final.transfers, Isolated final.kernel.role transfer := by
  obtain ⟨final, ran, reached⟩ := proxy.run_reaches
    (fun final => decide (final.kernel.fds.next = 2 ∧ (final.kernel.stream 0).ready = false ∧
      (final.kernel.stream 1).ready = false ∧ final.context = [] ∧
      final.loader.sockQueue = [] ∧ final.kernel.fds.owner 5 = some 0 ∧
      final.limited (final.clientOf 5) = false)) System.start served (by decide +kernel)
  obtain ⟨two, first, second, context, batches, owned, unlimited⟩ := of_decide_eq_true reached
  have rest : AtRest final := by
    constructor
    · intro fd conn opened
      have bound := final.kernel.fds.numbered fd conn opened
      obtain rfl | rfl : conn = 0 ∨ conn = 1 := by omega
      · exact first
      · exact second
    · exact context
    · simp [batches]
  exact ⟨final, ran, all_delivered_at_rest served final (by decide +kernel) (by decide +kernel)
    (by decide +kernel) (by decide +kernel) (by decide +kernel) ran rest owned unlimited⟩

end RProxy.Proxy
