import RProxy.Wiring

/-!
What becomes of the bytes that a peer sent before its socket is closed for an
event with a CLOSABLE bit.
-/

namespace RProxy

/-- No byte is lost or read twice between the peer and `forward`. -/
def Stream.Whole (stream : Stream) : Prop := stream.arrived = stream.offered ++ stream.queue

namespace Kernel

def Whole (kernel : Kernel) : Prop := ∀ conn, (kernel.stream conn).Whole

/-- A connection without a descriptor never gets one again, and is not read. -/
def Retires (kernel next : Kernel) : Prop :=
  ∀ conn, kernel.fds.Retired conn →
    next.fds.Retired conn ∧ (next.stream conn).offered = (kernel.stream conn).offered

variable {kernel next last : Kernel}

theorem Retires.trans (first : Retires kernel next) (second : Retires next last) :
    Retires kernel last := by
  intro conn retired
  obtain ⟨between, offered⟩ := first conn retired
  obtain ⟨after, offeredLater⟩ := second conn between
  exact ⟨after, offeredLater.trans offered⟩

theorem attach_retires (kernel : Kernel) (fd : Fd) (role : Role) (peer : InetAddr) :
    Retires kernel (kernel.attach fd role peer) := by
  intro conn retired
  constructor
  · exact FdTable.retired_allocate retired fd
  · simp only [attach]
    rw [Function.update_of_ne (Nat.ne_of_lt retired.1)]

theorem close_retires (kernel : Kernel) (fds : List Fd) : Retires kernel (kernel.close fds) := by
  intro conn retired
  exact ⟨FdTable.retired_close_all retired fds, rfl⟩

theorem modify_retires (kernel : Kernel) (fd : Fd) (change : Stream → Stream) :
    Retires kernel (kernel.modify fd change) := by
  intro conn retired
  constructor
  · rw [modify_fds]
    exact retired
  · rw [modify_stream, if_neg (retired.2 fd)]

theorem report_retires (kernel : Kernel) (fds : List Fd) : Retires kernel (kernel.report fds) := by
  intro conn retired
  constructor
  · exact retired
  · simp only [report]
    split <;> rfl

theorem batch_retires (kernel : Kernel) (fds : List Fd) : Retires kernel (kernel.batch fds) := by
  intro conn retired
  constructor
  · exact retired
  · simp only [batch]
    split <;> rfl

theorem attach_whole (whole : kernel.Whole) (fd : Fd) (role : Role) (peer : InetAddr) :
    (kernel.attach fd role peer).Whole := by
  intro conn
  simp only [attach, Function.update_apply]
  split
  · rfl
  · exact whole conn

theorem modify_whole (whole : kernel.Whole) (fd : Fd) {change : Stream → Stream}
    (keeps : ∀ conn, kernel.fds.owner fd = some conn → (change (kernel.stream conn)).Whole) :
    (kernel.modify fd change).Whole := by
  intro conn
  rw [modify_stream]
  split
  · next owned => exact keeps conn owned
  · exact whole conn

theorem report_whole (whole : kernel.Whole) (fds : List Fd) : (kernel.report fds).Whole := by
  intro conn
  simp only [report]
  split <;> exact whole conn

theorem batch_whole (whole : kernel.Whole) (fds : List Fd) : (kernel.batch fds).Whole := by
  intro conn
  simp only [batch]
  split <;> exact whole conn

/-- A call of `forward` moves bytes from the receive queue to what was offered. -/
theorem consume_whole (whole : kernel.Whole) (io : Io) (inFd outFd : Fd) :
    (kernel.consume inFd (kernel.forwarded io inFd outFd).taken).Whole := by
  apply modify_whole whole
  intro conn owned
  -- what was taken is the front of the queue, which goes on behind it
  have split := List.take_append_drop (kernel.forwarded io inFd outFd).taken.length
    (kernel.stream conn).queue
  rw [taken_take kernel io inFd outFd conn owned] at split
  have before : (kernel.stream conn).arrived =
      (kernel.stream conn).offered ++ (kernel.stream conn).queue := whole conn
  simp only [Stream.Whole, List.append_assoc, split]
  exact before

end Kernel

namespace Proxy

/-- All that had arrived was read and offered to the other side, or the
connection was put into a batch since. -/
def NoLostTail (closing : Closing) : Prop :=
  closing.stream.arrived.length ≤ max closing.stream.offered.length closing.stream.batched

instance (closing : Closing) : Decidable (NoLostTail closing) := by
  unfold NoLostTail
  infer_instance

/-- What is known of a closed connection, then and ever after. -/
structure Recorded (state : System) (closing : Closing) : Prop where
  closable : Demultiplex.has closing.events Demultiplex.closable = true
  whole : closing.stream.Whole
  emptied : Demultiplex.has closing.events Demultiplex.readable = false →
    closing.stream.queue = []
  retired : state.kernel.fds.Retired closing.conn
  frozen : (state.kernel.stream closing.conn).offered = closing.stream.offered

structure Tails (state : System) : Prop where
  wired : Wired state
  whole : state.kernel.Whole
  recorded : ∀ closing ∈ state.closings, Recorded state closing

theorem tails_more {state next : System} (holds : Tails state) (wired : Wired next)
    (retires : Kernel.Retires state.kernel next.kernel) (whole : next.kernel.Whole)
    (more : List Closing) (closings : next.closings = state.closings ++ more)
    (recorded : ∀ closing ∈ more, Recorded next closing) : Tails next := by
  constructor
  · exact wired
  · exact whole
  · intro closing member
    rw [closings] at member
    rcases List.mem_append.mp member with old | new
    · have before := holds.recorded closing old
      obtain ⟨retired, offered⟩ := retires closing.conn before.retired
      exact ⟨before.closable, before.whole, before.emptied, retired, offered.trans before.frozen⟩
    · exact recorded closing new

theorem tails_same {state next : System} (holds : Tails state) (wired : Wired next)
    (retires : Kernel.Retires state.kernel next.kernel) (whole : next.kernel.Whole)
    (closings : next.closings = state.closings) : Tails next := by
  apply tails_more holds wired retires whole []
  · rw [closings, List.append_nil]
  · intro closing member
    cases member

/-- The record made of an event that its handler closes the descriptor for. -/
theorem closing_recorded {state next : System} (whole : state.kernel.Whole) {client : Bool}
    {resp : Resp} {closing : Closing} (recorded : closing ∈ state.closing resp)
    (reported : state.kernel.reports client resp = true) (closable : resp.isClosable = true)
    {fds : List Fd} (member : resp.fd ∈ fds)
    (closed : next.kernel.fds = state.kernel.fds.closeAll fds)
    (kept : ∀ conn, (next.kernel.stream conn).offered = (state.kernel.stream conn).offered) :
    Recorded next closing := by
  simp only [System.closing] at recorded
  split at recorded
  · cases recorded
  · next conn owned =>
      obtain rfl := List.mem_singleton.mp recorded
      constructor
      · exact closable
      · exact whole conn
      · intro unread
        exact state.kernel.reports_queue reported owned unread
      · rw [closed]
        exact FdTable.close_all_retires owned member
      · exact kept conn

theorem forwarded_tails {state : System} (holds : Tails state) (center : PubSubCenter Unit Unit)
    (io : Io) (inFd outFd : Fd) : Tails (state.forwarded center io inFd outFd) :=
  tails_same holds (forwarded_wired holds.wired center io inFd outFd)
    (Kernel.modify_retires _ _ _) (Kernel.consume_whole holds.whole io inFd outFd) rfl

theorem reported_tails {state : System} (holds : Tails state) (fd : Fd) :
    Tails (state.reported fd) :=
  tails_same holds (reported_wired holds.wired fd) (Kernel.report_retires _ _)
    (Kernel.report_whole holds.whole _) rfl

theorem popped_tails {state : System} (holds : Tails state)
    (rest : List (Sigma fun _ : Fd => InetAddr)) : Tails (state.popped rest) :=
  ⟨popped_wired holds.wired rest, holds.whole, fun closing member =>
    have before := holds.recorded closing member
    ⟨before.closable, before.whole, before.emptied, before.retired, before.frozen⟩⟩

theorem relay_tails {state next : System} (holds : Tails state) {incoming sock : Fd}
    {garbage : InetAddr} {io : Io} (found : state.reversedMap.lookup incoming = some sock)
    (relayed : state.relay incoming garbage io = some next) : Tails next := by
  rcases relay_cases found relayed with ⟨_, rfl⟩ | ⟨_, rfl⟩
  · exact holds
  · exact forwarded_tails holds _ io incoming sock

theorem swept_tails {state : System} (holds : Tails state) {resps : List Resp}
    {server : TcpServer} {sockes : List Fd} (distinct : (resps.map Resp.fd).Nodup)
    (reported : ∀ resp ∈ resps, state.kernel.reports true resp = true) (quiet : server.Quiet)
    (swept : TcpServer.Swept { state.server with closed := [] } resps server sockes) :
    Tails (state.swept resps server sockes) := by
  have offered : ∀ conn, ((state.swept resps server sockes).kernel.stream conn).offered =
      (state.kernel.stream conn).offered := by
    intro conn
    simp only [System.swept, Kernel.close, Kernel.batch, Kernel.report]
    split <;> split <;> rfl
  apply tails_more holds (swept_wired holds.wired quiet swept)
  · exact ((Kernel.report_retires _ _).trans (Kernel.batch_retires _ _)).trans
      (Kernel.close_retires _ _)
  · exact Kernel.batch_whole (Kernel.report_whole holds.whole _) _
  · rfl
  · intro closing member
    obtain ⟨resp, filtered, recorded⟩ := List.mem_flatMap.mp member
    obtain ⟨event, gone⟩ := List.mem_filter.mp filtered
    have closed : resp.fd ∈ server.closed := of_decide_eq_true gone
    -- one event of the batch names the descriptor, so it is the one that closed it
    have removed : TcpServer.Removed resps resp.fd := by
      rcases (swept.closed resp.fd).mp closed with old | new
      · cases old
      · exact new.2
    obtain ⟨other, otherEvent, same, removes⟩ := removed
    obtain rfl := List.inj_on_of_nodup_map distinct otherEvent event same
    have closable : other.isClosable = true := by
      simp only [Resp.removes, Bool.and_eq_true] at removes
      exact removes.1
    exact closing_recorded holds.whole recorded (reported other event) closable closed rfl offered

theorem cleaned_tails {state : System} (holds : Tails state) {resp : Resp} {incoming : Fd}
    (found : state.sockMap.lookup resp.fd = some incoming)
    (reported : state.kernel.reports false resp = true) (closable : resp.isClosable = true) :
    Tails (state.cleaned resp incoming) := by
  apply tails_more holds (cleaned_wired holds.wired found)
  · exact (Kernel.report_retires _ _).trans (Kernel.close_retires _ _)
  · exact Kernel.report_whole holds.whole _
  · rfl
  · intro closing recorded
    apply closing_recorded holds.whole recorded reported closable (List.mem_singleton_self _) rfl
    intro conn
    simp only [System.cleaned, Kernel.close, Kernel.report]
    split <;> rfl

theorem step_tails (state : System) (action : Action) (next : System) (holds : Tails state)
    (stepped : proxy.step state action = some next) : Tails next := by
  have wired := step_wired state action next holds.wired stepped
  cases step_outcome holds.wired stepped with
  | accepted =>
      exact tails_same holds wired (Kernel.attach_retires _ _ _ _)
        (Kernel.attach_whole holds.whole _ _ _) rfl
  | arrived =>
      apply tails_same holds wired (Kernel.modify_retires _ _ _) _ rfl
      apply Kernel.modify_whole holds.whole
      intro conn _
      have before : (state.kernel.stream conn).arrived = _ := holds.whole conn
      simp [Stream.Whole, before]
  | finished =>
      apply tails_same holds wired (Kernel.modify_retires _ _ _) _ rfl
      exact Kernel.modify_whole holds.whole _ fun conn _ => holds.whole conn
  | swept distinct reported quiet swept => exact swept_tails holds distinct reported quiet swept
  | balanced => exact tails_same holds wired (fun _ retired => ⟨retired, rfl⟩) holds.whole rfl
  | @relayed incoming sock addr rest _ _ _ _ _ found relayed =>
      exact relay_tails (popped_tails holds rest) found relayed
  | @established incoming sock addr rest _ _ _ _ absent free relayed =>
      have popped := popped_tails holds rest
      have established : Tails ((state.popped rest).establish sock incoming addr) :=
        tails_same popped (establish_wired popped.wired addr free absent)
          (Kernel.attach_retires _ _ _ _) (Kernel.attach_whole popped.whole _ _ _) rfl
      exact relay_tails established (establish_found (state.popped rest) addr absent) relayed
  | givenUp => exact popped_tails holds []
  | returned => exact forwarded_tails (reported_tails holds _) _ _ _ _
  | cleaned reported found closable => exact cleaned_tails holds found reported closable
  | ignored => exact reported_tails holds _

theorem start_tails : Tails System.start := by
  constructor
  · exact start_wired
  · intro conn
    rfl
  · intro closing member
    cases member

/-- A socket closed for an event without READABLE had been read to the end. For
one with READABLE the handlers read nothing either: what was read before is a
prefix of what the peer sent, and the rest of the queue is never read. -/
theorem closings_tail (actions : List Action) (final : System)
    (ran : proxy.run System.start actions = some final) :
    ∀ closing ∈ final.closings,
      Demultiplex.has closing.events Demultiplex.closable = true ∧
      (Demultiplex.has closing.events Demultiplex.readable = false → NoLostTail closing) ∧
      closing.stream.arrived = closing.stream.offered ++ closing.stream.queue ∧
      (final.kernel.stream closing.conn).offered = closing.stream.offered := by
  have holds := proxy.run_preserves Tails step_tails start_tails ran
  intro closing member
  have recorded := holds.recorded closing member
  refine ⟨recorded.closable, ?_, recorded.whole, recorded.frozen⟩
  intro unread
  have whole : closing.stream.arrived = _ := recorded.whole
  rw [recorded.emptied unread, List.append_nil] at whole
  rw [NoLostTail, whole]
  exact Nat.le_max_left _ _

/-- The client closes after its byte was read. -/
theorem read_before_close_tail : ∃ final,
    proxy.run System.start (request [1] [some 1] ++
      [.finish 5, .serverWait [⟨5, Demultiplex.epollRdHup⟩] fun _ => none]) = some final ∧
    final.closings.length = 1 ∧ ∀ closing ∈ final.closings,
      Demultiplex.has closing.events Demultiplex.closable = true ∧
      (Demultiplex.has closing.events Demultiplex.readable = false → NoLostTail closing) ∧
      closing.stream.arrived = closing.stream.offered ++ closing.stream.queue ∧
      (final.kernel.stream closing.conn).offered = closing.stream.offered := by
  obtain ⟨final, ran, closings⟩ := proxy.run_reaches
    (fun final => decide (final.closings.length = 1)) System.start
    (request [1] [some 1] ++
      [.finish 5, .serverWait [⟨5, Demultiplex.epollRdHup⟩] fun _ => none]) (by decide +kernel)
  exact ⟨final, ran, of_decide_eq_true closings, closings_tail _ final ran⟩

/-- The last byte and the end of the stream come in one event. -/
def lastByteWithEnd : List Action :=
  [.accept 5 ⟨['a'], 1⟩, .arrive 5 [1], .finish 5,
    .serverWait [⟨5, Demultiplex.epollIn ||| Demultiplex.epollRdHup⟩] fun _ => none]

theorem last_byte_lost : ¬ ∀ actions final, proxy.run System.start actions = some final →
    ∀ closing ∈ final.closings, NoLostTail closing := by
  intro claim
  obtain ⟨final, ran, reached⟩ := proxy.run_reaches
    (fun final => final.closings.any fun closing => decide (¬ NoLostTail closing))
    System.start lastByteWithEnd (by decide +kernel)
  obtain ⟨closing, member, lost⟩ := List.any_eq_true.mp reached
  exact of_decide_eq_true lost (claim lastByteWithEnd final ran closing member)

end Proxy
end RProxy
