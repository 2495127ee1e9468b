import RProxy.Kernel
import RProxy.Machine
import RProxy.Rotation
import RProxy.TcpServer

/-!
How a client comes in: `EventLoop::loop` accepts, `registerFd` hands the
descriptor to a loop of the group, whose DMPREGISTER notification makes
`TcpServer` enter it into `conn_map_` before epoll watches it. Meanwhile the
loops handle their batches event by event, and the teardown of a client in two
steps: down to the `close`, and what it still does under the number after that.
-/

namespace RProxy.Admission

/-- The accepting thread: at its test of `stop_`, in `accept`, with a new
descriptor before the notification, or between that and `epoll_ctl`. -/
inductive Phase where
  | testing
  | accepting
  | accepted (fd : Fd) (peer : InetAddr)
  | notified (fd : Fd)
  | returned
  deriving DecidableEq

/-- The descriptor that is accepted and not in `conn_map_` yet. -/
def Phase.unlisted : Phase → Option Fd
  | .accepted fd _ => some fd
  | _ => none

/-- The descriptor that is accepted and not watched yet. -/
def Phase.unwatched : Phase → Option Fd
  | .accepted fd _ => some fd
  | .notified fd => some fd
  | _ => none

theorem Phase.unwatched_of_unlisted {phase : Phase} {fd : Fd}
    (unlisted : phase.unlisted = some fd) : phase.unwatched = some fd := by
  cases phase with
  | accepted other peer => exact unlisted
  | _ => cases unlisted

/-- An event that `epoll_wait` has reported, with the connection it was for. -/
structure Report where
  resp : Resp
  conn : Nat

/-- A loop in `epoll_wait`, or in `updateForWait` with the events that are left,
the number of a teardown that is under way, and the batch so far. -/
inductive Worker where
  | waiting
  | handling (left : List Report) (tearing : Option Fd) (sockes : List Fd)

namespace Worker

def left : Worker → List Report
  | .waiting => []
  | .handling left _ _ => left

def tearing : Worker → Option Fd
  | .waiting => none
  | .handling _ tearing _ => tearing

end Worker

/-- `placed` are the loops in the order of the registrations. -/
structure Front (n : Nat) where
  kernel : Kernel
  server : TcpServer
  center : PubSubCenter Unit Unit
  group : LoopThreadGroup n
  stop : Bool
  phase : Phase
  placed : List (Fin n)
  workers : Fin n → Worker
  batches : List (List Fd)

def Front.start (n : Nat) [NeZero n] : Front n where
  kernel := .empty
  server := ⟨∅, 0, []⟩
  center := ⟨∅, ∅, ∅⟩
  group := .init n
  stop := false
  phase := .testing
  placed := []
  workers _ := .waiting
  batches := []

/-- `accept` with `none` returns -1, which throws. `attach` and `close` are the
sockets of the rest of the process. -/
inductive Action (n : Nat) where
  | test
  | accept (result : Option (Fd × InetAddr))
  | notify
  | watch
  | stop
  | attach (fd : Fd) (peer : InetAddr)
  | close (fd : Fd)
  | report (loop : Fin n) (resps : List Resp)
  | handle (loop : Fin n) (wrote : Fd → Option Nat)
  | settle (loop : Fin n)
  | balance (loop : Fin n)

namespace Front

variable {n : Nat} (front : Front n)

/-- The `catch` of the loop goes on after an exception of `accept`. -/
def accept : Option (Fd × InetAddr) → Option (Front n)
  | none => some { front with phase := .testing }
  | some (fd, peer) =>
      match front.kernel.fds.owner fd with
      | some _ => none
      | none => some { front with
          kernel := front.kernel.attach fd .client peer
          phase := .accepted fd peer }

/-- `demultiplexRegister` down to the notification. -/
def notify (fd : Fd) (peer : InetAddr) : Front n :=
  let (server, center) := { front.server with closed := [] }.updateForRegister front.center
    ⟨fd, Demultiplex.defaultEvents⟩ peer
  { front with
    kernel := front.kernel.close server.closed
    server := server
    center := center
    phase := .notified fd }

/-- `epoll_ctl(ADD)`. The cursor was moved before the notification, by the only
thread that moves it. -/
def watch (fd : Fd) : Front n :=
  { front with
    group := front.group.registerFd front.kernel.fds fd
    placed := front.placed ++ [front.group.iter]
    phase := .testing }

def become (loop : Fin n) (worker : Worker) : Front n :=
  { front with workers := Function.update front.workers loop worker }

/-- `epoll_wait` reports descriptors of the interest set that are open. -/
def report (loop : Fin n) (resps : List Resp) : Option (Front n) :=
  match front.workers loop with
  | .handling _ _ _ => none
  | .waiting =>
      if (resps.map Resp.fd).Nodup ∧ ∀ resp ∈ resps, resp.fd ∈ front.group.dmpes loop then
        some (front.become loop (.handling (resps.filterMap fun resp =>
          (front.kernel.fds.owner resp.fd).map fun conn => ⟨resp, conn⟩) none []))
      else none

/-- The descriptors that a handler has closed leave every interest set. -/
def closing (server : TcpServer) : Front n :=
  { front with
    kernel := front.kernel.close server.closed
    server := server
    group := server.closed.foldl LoopThreadGroup.close front.group }

/-- The next event of the batch. That of a client that is to be removed is handled
down to the `close` in `disconnect`. -/
def handle (loop : Fin n) (wrote : Fd → Option Nat) : Option (Front n) :=
  match front.workers loop with
  | .handling (report :: left) none sockes =>
      let server := { front.server with closed := [] }
      if report.resp.removes = true ∧ report.resp.fd ∈ server.connMap then
        some ((front.closing (server.disconnect report.resp.fd)).become loop
          (.handling left (some report.resp.fd) sockes))
      else
        match server.handleResp wrote report.resp with
        | .error _ => none
        | .ok (server, picked) =>
            some ((front.closing server).become loop (.handling left none (sockes ++ picked)))
  | _ => none

/-- `epoll_ctl(DEL)` on the set of the loop, and the second `removeConnection`. -/
def settle (loop : Fin n) : Option (Front n) :=
  match front.workers loop with
  | .handling left (some fd) sockes =>
      let deleted := { front with group := { front.group with
        dmpes := Function.update front.group.dmpes loop
          (AList.erase fd (front.group.dmpes loop)) } }
      some ((deleted.closing ({ front.server with closed := [] }.removeConnection fd)).become loop
        (.handling left none sockes))
  | _ => none

/-- The BALANCE notification at the end of the batch. -/
def balance (loop : Fin n) : Option (Front n) :=
  match front.workers loop with
  | .handling [] none sockes =>
      some ({ front with batches := front.batches ++ [sockes] }.become loop .waiting)
  | _ => none

end Front

def front (n : Nat) : Machine (Front n) (Action n) where
  step state
    | .test =>
        if state.phase = .testing then
          some { state with phase := if state.stop then .returned else .accepting }
        else none
    | .accept result => if state.phase = .accepting then state.accept result else none
    | .notify =>
        match state.phase with
        | .accepted fd peer => some (state.notify fd peer)
        | _ => none
    | .watch =>
        match state.phase with
        | .notified fd => some (state.watch fd)
        | _ => none
    | .stop => some { state with stop := true }
    | .attach fd peer =>
        if state.kernel.fds.owner fd = none then
          some { state with kernel := state.kernel.attach fd (.backend none) peer }
        else none
    | .close fd =>
        if state.kernel.side fd = some false then
          some { state with kernel := state.kernel.close [fd] }
        else none
    | .report loop resps => state.report loop resps
    | .handle loop wrote => state.handle loop wrote
    | .settle loop => state.settle loop
    | .balance loop => state.balance loop

/-- No number is entered into `conn_map_` while a loop still tears down the client
that had it before. -/
def Clear {n : Nat} (state : Front n) : Action n → Prop
  | .notify => ∀ loop, ∀ fd ∈ (state.workers loop).tearing, state.phase.unlisted ≠ some fd
  | _ => True

variable {n : Nat}

/-- What is true of the front at any moment: a client's descriptor is in
`conn_map_` from the notification on, and in the interest set of one loop from
`epoll_ctl` on; what a loop has to handle is of the connections it was reported
for; and a number that is torn down names nothing that the teardown could hit. -/
structure Admitted (state : Front n) : Prop where
  quiet : state.server.Quiet
  held : ∀ fd, state.phase.unwatched = some fd → state.kernel.side fd = some true
  listed : ∀ fd, fd ∈ state.server.connMap ↔
    state.kernel.side fd = some true ∧ state.phase.unlisted ≠ some fd
  watched : ∀ fd, (∃ loop, fd ∈ state.group.dmpes loop) ↔
    state.kernel.side fd = some true ∧ state.phase.unwatched ≠ some fd
  single : ∀ fd first second, fd ∈ state.group.dmpes first → fd ∈ state.group.dmpes second →
    first = second
  cursor : state.group.iter.val = state.placed.length % n
  turns : ∀ k loop, state.placed[k]? = some loop → loop.val = k % n
  distinct : ∀ loop, ((state.workers loop).left.map fun report => report.resp.fd).Nodup
  current : ∀ loop, ∀ report ∈ (state.workers loop).left,
    report.resp.fd ∈ state.group.dmpes loop ∧
      state.kernel.fds.owner report.resp.fd = some report.conn
  torn : ∀ loop, ∀ fd ∈ (state.workers loop).tearing, fd ∉ state.server.connMap

section Steps

theorem close_all_members (group : LoopThreadGroup n) (fds : List Fd) (loop : Fin n) (fd : Fd) :
    fd ∈ (fds.foldl LoopThreadGroup.close group).dmpes loop ↔
      fd ∉ fds ∧ fd ∈ group.dmpes loop := by
  induction fds generalizing group with
  | nil => simp
  | cons first rest ih =>
      rw [List.foldl_cons, ih, LoopThreadGroup.mem_close, List.mem_cons, not_or]
      tauto

theorem close_all_iter (group : LoopThreadGroup n) (fds : List Fd) :
    (fds.foldl LoopThreadGroup.close group).iter = group.iter := by
  induction fds generalizing group with
  | nil => rfl
  | cons first rest ih =>
      rw [List.foldl_cons, ih]
      rfl

theorem reported_sublist (fds : FdTable) (resps : List Resp) :
    ((resps.filterMap fun resp => (fds.owner resp.fd).map fun conn => Report.mk resp conn).map
      fun report => report.resp.fd).Sublist (resps.map Resp.fd) := by
  induction resps with
  | nil => exact List.Sublist.refl _
  | cons resp rest ih =>
      cases owned : fds.owner resp.fd with
      | none =>
          rw [List.filterMap_cons_none (by simp [owned])]
          exact ih.cons _
      | some conn =>
          rw [List.filterMap_cons_some (by rw [owned]; rfl)]
          exact ih.cons_cons _

variable {state : Front n} (holds : Admitted state)
include holds

/-- The thread goes on, or `stop_` is set. -/
theorem admitted_phase {stop : Bool} {phase : Phase}
    (unlisted : phase.unlisted = state.phase.unlisted)
    (unwatched : phase.unwatched = state.phase.unwatched) :
    Admitted { state with stop := stop, phase := phase } := by
  constructor
  · exact holds.quiet
  · intro fd held
    exact holds.held fd (unwatched ▸ held)
  · intro fd
    rw [holds.listed, unlisted]
  · intro fd
    rw [holds.watched, unwatched]
  · exact holds.single
  · exact holds.cursor
  · exact holds.turns
  · exact holds.distinct
  · exact holds.current
  · exact holds.torn

/-- A reported descriptor is a client's. -/
theorem current_side {loop : Fin n} {report : Report}
    (member : report ∈ (state.workers loop).left) :
    state.kernel.side report.resp.fd = some true :=
  ((holds.watched _).mp ⟨loop, (holds.current loop report member).1⟩).1

theorem accepted_admitted {fd : Fd} {peer : InetAddr} (accepting : state.phase = .accepting)
    (free : state.kernel.fds.owner fd = none) :
    Admitted { state with
      kernel := state.kernel.attach fd .client peer
      phase := .accepted fd peer } := by
  have closed : state.kernel.side fd = none := by
    rw [Kernel.side, free]
    rfl
  constructor
  · exact holds.quiet
  · intro other held
    rw [Kernel.attach_side, if_pos (Option.some.inj held).symm]
    rfl
  · intro other
    rw [holds.listed, Kernel.attach_side, accepting]
    by_cases same : other = fd
    · simp [same, closed, Phase.unlisted]
    · simp [same, Ne.symm same, Phase.unlisted]
  · intro other
    rw [holds.watched, Kernel.attach_side, accepting]
    by_cases same : other = fd
    · simp [same, closed, Phase.unwatched]
    · simp [same, Ne.symm same, Phase.unwatched]
  · exact holds.single
  · exact holds.cursor
  · exact holds.turns
  · exact holds.distinct
  · intro loop report member
    obtain ⟨watched, owned⟩ := holds.current loop report member
    have other : report.resp.fd ≠ fd := by
      intro same
      rw [same, free] at owned
      cases owned
    rw [Kernel.attach, FdTable.allocate_owner, if_neg other]
    exact ⟨watched, owned⟩
  · exact holds.torn

theorem notified_admitted {fd : Fd} {peer : InetAddr} (accepted : state.phase = .accepted fd peer)
    (clear : ∀ loop, ∀ torn ∈ (state.workers loop).tearing, torn ≠ fd) :
    Admitted (state.notify fd peer) := by
  have absent : fd ∉ state.server.connMap := by
    rw [holds.listed, accepted]
    simp [Phase.unlisted]
  have opened := holds.held fd (by rw [accepted]; rfl)
  have kernel : (state.notify fd peer).kernel = state.kernel := by
    simp [Front.notify, TcpServer.updateForRegister, absent, Kernel.close, FdTable.closeAll]
  have server : (state.notify fd peer).server.connMap =
      state.server.connMap.emplace fd (TcpConnection.new ⟨false, fd⟩
        (.dmpRegister ⟨fd, Demultiplex.defaultEvents⟩) peer) := by
    simp [Front.notify, TcpServer.updateForRegister, absent]
  constructor
  · intro other conn found
    rw [server, UnorderedMap.lookup_emplace_fresh (AList.lookup_eq_none.mpr absent)] at found
    split at found
    · next same =>
        cases found
        subst same
        exact ⟨rfl, rfl, ArrayBuffer.new_readable _⟩
    · exact holds.quiet other conn found
  · intro other held
    obtain rfl := Option.some.inj held
    rw [kernel]
    exact opened
  · intro other
    rw [server, UnorderedMap.mem_emplace, holds.listed, kernel, accepted]
    by_cases same : other = fd
    · subst same
      simp [Front.notify, Phase.unlisted, opened]
    · simp [Front.notify, Phase.unlisted, same, Ne.symm same]
  · intro other
    rw [kernel]
    have watched := holds.watched other
    rw [accepted] at watched
    exact watched
  · exact holds.single
  · exact holds.cursor
  · exact holds.turns
  · exact holds.distinct
  · rw [kernel]
    exact holds.current
  · intro loop torn tearing
    rw [server, UnorderedMap.mem_emplace, not_or]
    exact ⟨clear loop torn tearing, holds.torn loop torn tearing⟩

theorem watched_admitted {fd : Fd} (notified : state.phase = .notified fd) :
    Admitted (state.watch fd) := by
  have opened := holds.held fd (by rw [notified]; rfl)
  have owned : (state.kernel.fds.owner fd).isSome := by
    obtain ⟨conn, owner, _⟩ := Option.map_eq_some_iff.mp opened
    rw [owner]
    rfl
  have unwatched : ∀ loop, fd ∉ state.group.dmpes loop := by
    intro loop member
    have other := ((holds.watched fd).mp ⟨loop, member⟩).2
    rw [notified] at other
    exact other rfl
  have members : ∀ other loop, other ∈ (state.watch fd).group.dmpes loop ↔
      (loop = state.group.iter ∧ other = fd) ∨ other ∈ state.group.dmpes loop := by
    intro other loop
    rw [Front.watch, LoopThreadGroup.mem_register]
    simp [owned]
  constructor
  · exact holds.quiet
  · intro other held
    cases held
  · intro other
    have listed := holds.listed other
    rw [notified] at listed
    exact listed
  · intro other
    simp only [members]
    rw [exists_or, holds.watched, notified]
    by_cases same : other = fd
    · subst same
      simp [Front.watch, Phase.unwatched, opened]
    · simp [Front.watch, Phase.unwatched, same, Ne.symm same]
  · intro other first second inFirst inSecond
    rw [members] at inFirst inSecond
    rcases inFirst with ⟨rfl, rfl⟩ | inFirst
    · rcases inSecond with ⟨rfl, -⟩ | inSecond
      · rfl
      · exact absurd inSecond (unwatched second)
    · rcases inSecond with ⟨rfl, rfl⟩ | inSecond
      · exact absurd inFirst (unwatched first)
      · exact holds.single other first second inFirst inSecond
  · have positive : 0 < n := Nat.zero_lt_of_lt state.group.iter.isLt
    simp only [Front.watch, LoopThreadGroup.registerFd, List.length_append, List.length_singleton]
    rw [Rotation.advance_agrees, holds.cursor, Rotation.advance_mod positive]
  · intro k loop placed
    simp only [Front.watch] at placed
    rcases Nat.lt_trichotomy k state.placed.length with before | same | after
    · rw [List.getElem?_append_left before] at placed
      exact holds.turns k loop placed
    · subst same
      simp at placed
      rw [← placed, holds.cursor]
    · rw [List.getElem?_eq_none (by simp; omega)] at placed
      cases placed
  · exact holds.distinct
  · intro loop report member
    obtain ⟨watched, owner⟩ := holds.current loop report member
    exact ⟨(members _ loop).mpr (Or.inr watched), owner⟩
  · exact holds.torn

/-- Something happens to a socket that is no client's. -/
theorem unrelated_admitted {kernel : Kernel} {fd : Fd} (before : state.kernel.side fd ≠ some true)
    (after : kernel.side fd ≠ some true)
    (owners : ∀ other ≠ fd, kernel.fds.owner other = state.kernel.fds.owner other)
    (sides : ∀ other ≠ fd, kernel.side other = state.kernel.side other) :
    Admitted { state with kernel := kernel } := by
  have clients : ∀ other, kernel.side other = some true ↔ state.kernel.side other = some true := by
    intro other
    by_cases same : other = fd
    · subst same
      exact iff_of_false after before
    · rw [sides other same]
  constructor
  · exact holds.quiet
  · intro other held
    exact (clients other).mpr (holds.held other held)
  · intro other
    rw [holds.listed, clients]
  · intro other
    rw [holds.watched, clients]
  · exact holds.single
  · exact holds.cursor
  · exact holds.turns
  · exact holds.distinct
  · intro loop report member
    obtain ⟨watched, owned⟩ := holds.current loop report member
    have other : report.resp.fd ≠ fd := by
      intro same
      exact before (same ▸ current_side holds member)
    exact ⟨watched, (owners _ other).trans owned⟩
  · exact holds.torn

theorem attached_admitted {fd : Fd} {peer : InetAddr} (free : state.kernel.fds.owner fd = none) :
    Admitted { state with kernel := state.kernel.attach fd (.backend none) peer } := by
  have closed : state.kernel.side fd = none := by
    rw [Kernel.side, free]
    rfl
  apply unrelated_admitted holds
  · rw [closed]
    decide
  · rw [Kernel.attach_side, if_pos rfl]
    decide
  · intro other different
    rw [Kernel.attach, FdTable.allocate_owner, if_neg different]
  · intro other different
    rw [Kernel.attach_side, if_neg different]

theorem closed_admitted {fd : Fd} (backend : state.kernel.side fd = some false) :
    Admitted { state with kernel := state.kernel.close [fd] } := by
  apply unrelated_admitted holds
  · rw [backend]
    decide
  · rw [Kernel.close_side, if_pos (List.mem_singleton.mpr rfl)]
    decide
  · intro other different
    rw [Kernel.close, FdTable.close_all_owner, if_neg (by simpa using different)]
  · intro other different
    rw [Kernel.close_side, if_neg (by simpa using different)]

/-- A worker that goes on with events of clients it watches, and tears down a
number that no client has. -/
theorem become_admitted {loop : Fin n} {worker : Worker}
    (distinct : (worker.left.map fun report => report.resp.fd).Nodup)
    (current : ∀ report ∈ worker.left, report.resp.fd ∈ state.group.dmpes loop ∧
      state.kernel.fds.owner report.resp.fd = some report.conn)
    (torn : ∀ fd ∈ worker.tearing, fd ∉ state.server.connMap) :
    Admitted (state.become loop worker) := by
  constructor
  · exact holds.quiet
  · exact holds.held
  · exact holds.listed
  · exact holds.watched
  · exact holds.single
  · exact holds.cursor
  · exact holds.turns
  · intro other
    simp only [Front.become, Function.update_apply]
    split
    · exact distinct
    · exact holds.distinct other
  · intro other report member
    simp only [Front.become, Function.update_apply] at member
    split at member
    · next same =>
        subst same
        exact current report member
    · exact holds.current other report member
  · intro other fd tearing
    simp only [Front.become, Function.update_apply] at tearing
    split at tearing
    · exact torn fd tearing
    · exact holds.torn other fd tearing

/-- A handler that closes watched clients, of which no event is left. -/
theorem closing_admitted {server : TcpServer} (quiet : server.Quiet)
    (kept : ∀ fd, fd ∈ server.connMap ↔ fd ∈ state.server.connMap ∧ fd ∉ server.closed)
    (own : ∀ fd ∈ server.closed, ∃ loop, fd ∈ state.group.dmpes loop)
    (handled : ∀ loop, ∀ report ∈ (state.workers loop).left, report.resp.fd ∉ server.closed) :
    Admitted (state.closing server) := by
  constructor
  · exact quiet
  · intro fd held
    have stillOpen : fd ∉ server.closed := fun gone =>
      ((holds.watched fd).mp (own fd gone)).2 held
    simp only [Front.closing]
    rw [Kernel.close_side, if_neg stillOpen]
    exact holds.held fd held
  · intro fd
    simp only [Front.closing]
    rw [kept, holds.listed, Kernel.close_side]
    by_cases gone : fd ∈ server.closed <;> simp [gone]
  · intro fd
    simp only [Front.closing, close_all_members, exists_and_left]
    rw [holds.watched, Kernel.close_side]
    by_cases gone : fd ∈ server.closed <;> simp [gone]
  · intro fd first second inFirst inSecond
    simp only [Front.closing, close_all_members] at inFirst inSecond
    exact holds.single fd first second inFirst.2 inSecond.2
  · simp only [Front.closing]
    rw [close_all_iter]
    exact holds.cursor
  · exact holds.turns
  · exact holds.distinct
  · intro loop report member
    obtain ⟨watched, owned⟩ := holds.current loop report member
    have stillOpen := handled loop report member
    simp only [Front.closing]
    rw [close_all_members, Kernel.close, FdTable.close_all_owner, if_neg stillOpen]
    exact ⟨⟨stillOpen, watched⟩, owned⟩
  · intro loop fd tearing present
    exact holds.torn loop fd tearing ((kept fd).mp present).1

/-- The head of what is left goes. -/
theorem taken_admitted {loop : Fin n} {report : Report} {left : List Report}
    {tearing : Option Fd} {sockes : List Fd} (picked : List Fd)
    (working : state.workers loop = .handling (report :: left) tearing sockes) :
    Admitted (state.become loop (.handling left none picked)) := by
  have distinct := holds.distinct loop
  have current := holds.current loop
  rw [working] at distinct current
  apply become_admitted holds
  · exact (List.nodup_cons.mp distinct).2
  · exact fun other member => current other (List.mem_cons_of_mem _ member)
  · intro fd tearing
    cases tearing

/-- Only the loop that watches a descriptor has an event of it, and only one. -/
theorem taken_handled {loop : Fin n} {report : Report} {left : List Report}
    {tearing : Option Fd} {sockes : List Fd} (picked : List Fd)
    (working : state.workers loop = .handling (report :: left) tearing sockes) :
    ∀ other, ∀ rest ∈ ((state.become loop (.handling left none picked)).workers other).left,
      rest.resp.fd ≠ report.resp.fd := by
  have distinct := holds.distinct loop
  have current := holds.current loop
  rw [working] at distinct current
  have watched := (current report List.mem_cons_self).1
  intro other rest member same
  simp only [Front.become, Function.update_apply] at member
  split at member
  · exact (List.nodup_cons.mp distinct).1 (List.mem_map.mpr ⟨rest, member, same⟩)
  · next different =>
      exact different (holds.single _ other loop (same ▸ (holds.current other rest member).1)
        watched)

/-- The client is closed; what is left of its teardown names nothing. -/
theorem removed_admitted {loop : Fin n} {report : Report} {left : List Report}
    {tearing : Option Fd} {sockes : List Fd}
    (working : state.workers loop = .handling (report :: left) tearing sockes)
    (present : report.resp.fd ∈ state.server.connMap) :
    Admitted ((state.closing ({ state.server with closed := [] }.disconnect report.resp.fd)).become
      loop (.handling left (some report.resp.fd) sockes)) := by
  have watched : report.resp.fd ∈ state.group.dmpes loop := by
    have current := holds.current loop
    rw [working] at current
    exact (current report List.mem_cons_self).1
  obtain ⟨conn, found⟩ := UnorderedMap.lookup_of_mem present
  have settled := holds.quiet _ conn found
  have lookup := fun other => TcpServer.disconnect_lookup
    { state.server with closed := [] } other found settled.socket
  have closed := (TcpServer.disconnect_remove
    { state.server with closed := [] } found settled.sockfd settled.socket).2
  rw [TcpServer.remove_absent _ _ (by simp [lookup]), List.nil_append] at closed
  have closing : Admitted ((state.become loop (.handling left none sockes)).closing
      ({ state.server with closed := [] }.disconnect report.resp.fd)) := by
    apply closing_admitted (taken_admitted holds sockes working)
    · intro fd other kept
      rw [lookup] at kept
      split at kept
      · cases kept
      · exact holds.quiet fd other kept
    · intro fd
      rw [← AList.lookup_isSome, lookup, closed, List.mem_singleton]
      split
      · next same => simp [same]
      · next other => simp [other, Front.become, AList.lookup_isSome]
    · intro fd gone
      rw [closed, List.mem_singleton] at gone
      exact ⟨loop, gone ▸ watched⟩
    · intro other rest member gone
      rw [closed, List.mem_singleton] at gone
      exact taken_handled holds sockes working other rest member gone
  have torn : Admitted (((state.become loop (.handling left none sockes)).closing
      ({ state.server with closed := [] }.disconnect report.resp.fd)).become loop
        (.handling left (some report.resp.fd) sockes)) := by
    have distinct := closing.distinct loop
    have current := closing.current loop
    simp only [Front.closing, Front.become, Function.update_self] at distinct current
    apply become_admitted closing
    · exact distinct
    · exact current
    · intro fd tearing
      obtain rfl := Option.some.inj tearing
      apply AList.lookup_eq_none.mp
      simp [Front.closing, lookup]
  simpa [Front.closing, Front.become] using torn

theorem kept_admitted {loop : Fin n} {report : Report} {left : List Report}
    {tearing : Option Fd} {sockes picked : List Fd} {server : TcpServer} (batch : List Fd)
    (working : state.workers loop = .handling (report :: left) tearing sockes)
    (stays : ¬ (report.resp.removes = true ∧ report.resp.fd ∈ state.server.connMap))
    (handled : TcpServer.Handled { state.server with closed := [] } report.resp server picked) :
    Admitted ((state.closing server).become loop (.handling left none batch)) := by
  have closed : server.closed = [] := by
    rw [handled.closed, if_neg (fun both => stays both.symm)]
    rfl
  have closing : Admitted ((state.become loop (.handling left none batch)).closing server) := by
    apply closing_admitted (taken_admitted holds batch working)
    · have quiet : ({ state.server with closed := [] } : TcpServer).Quiet := holds.quiet
      exact TcpServer.handled_keeps quiet handled
    · intro fd
      rw [TcpServer.mem_of_handled handled, closed]
      have unremoved : fd ∈ state.server.connMap → ¬ (fd = report.resp.fd ∧
          report.resp.removes = true) := by
        rintro present ⟨rfl, removes⟩
        exact stays ⟨removes, present⟩
      simp only [Front.become, List.not_mem_nil, not_false_eq_true, and_true]
      exact ⟨fun both => both.1, fun present => ⟨present, unremoved present⟩⟩
    · intro fd gone
      rw [closed] at gone
      cases gone
    · intro other rest member gone
      rw [closed] at gone
      cases gone
  simpa [Front.closing, Front.become] using closing

theorem handled_admitted {next : Front n} {loop : Fin n} {wrote : Fd → Option Nat}
    (handled : state.handle loop wrote = some next) : Admitted next := by
  unfold Front.handle at handled
  split at handled
  · next report left sockes working =>
      dsimp only at handled
      split at handled
      · next removed =>
          cases handled
          exact removed_admitted holds working removed.2
      · next stays =>
          obtain ⟨server, picked, returned, effect⟩ := TcpServer.handle_resp_calm
            { state.server with closed := [] } holds.quiet.calm wrote report.resp
          rw [returned] at handled
          cases handled
          exact kept_admitted holds (sockes ++ picked) working stays effect
  · cases handled

theorem handle_returns {loop : Fin n} (wrote : Fd → Option Nat)
    (left : (state.workers loop).left ≠ []) (idle : (state.workers loop).tearing = none) :
    ((front n).step state (.handle loop wrote)).isSome = true := by
  simp only [front, Front.handle]
  cases working : state.workers loop with
  | waiting =>
      rw [working] at left
      exact absurd rfl left
  | handling events tearing sockes =>
      rw [working] at left idle
      obtain rfl : tearing = none := idle
      cases events with
      | nil => exact absurd rfl left
      | cons report rest =>
          obtain ⟨server, picked, returned, _⟩ := TcpServer.handle_resp_calm
            { state.server with closed := [] } holds.quiet.calm wrote report.resp
          dsimp only
          split
          · rfl
          · rw [returned]
            rfl

/-- The number is in no interest set, and in no entry. -/
theorem settled_admitted {next : Front n} {loop : Fin n} (settled : state.settle loop = some next) :
    Admitted next := by
  unfold Front.settle at settled
  split at settled
  · next left fd sockes working =>
      have torn : fd ∉ state.server.connMap := holds.torn loop fd (by rw [working]; rfl)
      have unwatched : fd ∉ state.group.dmpes loop := by
        intro member
        obtain ⟨client, held⟩ := (holds.watched fd).mp ⟨loop, member⟩
        exact torn ((holds.listed fd).mpr ⟨client, fun unlisted =>
          held (Phase.unwatched_of_unlisted unlisted)⟩)
      have deleted : AList.erase fd (state.group.dmpes loop) = state.group.dmpes loop := by
        apply AList.ext
        exact List.kerase_of_notMem_keys unwatched
      have absent : ({ state.server with closed := [] } : TcpServer).removeConnection fd =
          { state.server with closed := [] } :=
        TcpServer.remove_absent _ fd (AList.lookup_eq_none.mpr torn)
      simp only [deleted, Function.update_eq_self, absent] at settled
      cases settled
      have distinct := holds.distinct loop
      have current := holds.current loop
      rw [working] at distinct current
      have closing : Admitted (state.closing { state.server with closed := [] }) := by
        apply closing_admitted holds
        · exact holds.quiet
        · intro other
          simp
        · intro other gone
          cases gone
        · intro other report member gone
          cases gone
      apply become_admitted closing
      · exact distinct
      · simpa [Front.closing, Kernel.close, FdTable.closeAll, Worker.left] using current
      · intro other tearing
        cases tearing
  · cases settled

theorem balanced_admitted {next : Front n} {loop : Fin n}
    (balanced : state.balance loop = some next) : Admitted next := by
  unfold Front.balance at balanced
  split at balanced
  · next sockes working =>
      cases balanced
      have batched : Admitted { state with batches := state.batches ++ [sockes] } :=
        ⟨holds.quiet, holds.held, holds.listed, holds.watched, holds.single, holds.cursor,
          holds.turns, holds.distinct, holds.current, holds.torn⟩
      apply become_admitted batched
      · exact List.nodup_nil
      · intro report member
        cases member
      · intro fd tearing
        cases tearing
  · cases balanced

theorem reported_admitted {next : Front n} {loop : Fin n} {resps : List Resp}
    (reported : state.report loop resps = some next) : Admitted next := by
  unfold Front.report at reported
  split at reported
  · cases reported
  · split at reported
    · next contract =>
        cases reported
        apply become_admitted holds
        · exact contract.1.sublist (reported_sublist _ resps)
        · intro report member
          obtain ⟨resp, listed, made⟩ := List.mem_filterMap.mp member
          obtain ⟨conn, owned, rfl⟩ := Option.map_eq_some_iff.mp made
          exact ⟨contract.2 resp listed, owned⟩
        · intro fd tearing
          cases tearing
    · cases reported

end Steps

theorem step_admitted (state : Front n) (action : Action n) (next : Front n)
    (holds : Admitted state) (clear : Clear state action)
    (stepped : (front n).step state action = some next) :
    Admitted next := by
  cases action with
  | test =>
      simp only [front] at stepped
      split at stepped
      · next testing =>
          cases stepped
          cases state.stop with
          | true => exact admitted_phase holds (by rw [testing]; rfl) (by rw [testing]; rfl)
          | false => exact admitted_phase holds (by rw [testing]; rfl) (by rw [testing]; rfl)
      · cases stepped
  | accept result =>
      simp only [front] at stepped
      split at stepped
      · next accepting =>
          simp only [Front.accept] at stepped
          cases result with
          | none =>
              cases stepped
              exact admitted_phase holds (by rw [accepting]; rfl) (by rw [accepting]; rfl)
          | some taken =>
              obtain ⟨fd, peer⟩ := taken
              simp only at stepped
              split at stepped
              · cases stepped
              · next free =>
                  cases stepped
                  exact accepted_admitted holds accepting free
      · cases stepped
  | notify =>
      simp only [front] at stepped
      split at stepped
      · next accepted =>
          cases stepped
          apply notified_admitted holds accepted
          rintro loop torn tearing rfl
          exact clear loop torn tearing (by rw [accepted]; rfl)
      · cases stepped
  | watch =>
      simp only [front] at stepped
      split at stepped
      · next notified =>
          cases stepped
          exact watched_admitted holds notified
      · cases stepped
  | stop =>
      cases stepped
      exact admitted_phase holds rfl rfl
  | attach fd peer =>
      simp only [front] at stepped
      split at stepped
      · next free =>
          cases stepped
          exact attached_admitted holds free
      · cases stepped
  | close fd =>
      simp only [front] at stepped
      split at stepped
      · next backend =>
          cases stepped
          exact closed_admitted holds backend
      · cases stepped
  | report loop resps => exact reported_admitted holds stepped
  | handle loop wrote => exact handled_admitted holds stepped
  | settle loop => exact settled_admitted holds stepped
  | balance loop => exact balanced_admitted holds stepped

theorem start_admitted (n : Nat) [NeZero n] : Admitted (Front.start n) := by
  constructor
  · intro fd conn found
    cases found
  · intro fd held
    cases held
  · intro fd
    simp [Front.start, Kernel.side, Kernel.empty]
  · intro fd
    simp [Front.start, Kernel.side, Kernel.empty]
  · intro fd first second inFirst
    exact absurd inFirst (LoopThreadGroup.init_empty first fd)
  · simp [Front.start, LoopThreadGroup.init]
  · intro k loop placed
    simp [Front.start] at placed
  · intro loop
    exact List.nodup_nil
  · intro loop report member
    cases member
  · intro loop fd tearing
    cases tearing

instance (state : Front n) (action : Action n) : Decidable (Clear state action) := by
  cases action <;> simp only [Clear] <;> infer_instance

end RProxy.Admission
