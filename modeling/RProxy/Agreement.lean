import RProxy.Machine
import RProxy.TcpServer

/-!
The table of `TcpServer` beside the interest set of `epoll`. The demultiplexer
tells the server first and calls `epoll_ctl` afterwards, and what that returns
reaches nobody who would undo the first.
-/

namespace RProxy.Agreement

/-- `interest` is the kernel's side: the watched descriptors and their masks. -/
structure State (Publisher Subscriber : Type) where
  server : TcpServer
  center : PubSubCenter Publisher Subscriber
  interest : UnorderedMap Fd Mask

/-- `granted` is false where the kernel refuses a call that could succeed. -/
inductive Action where
  | register (fd : Fd) (peer : InetAddr) (granted : Bool)
  | modify (ctx : DmpModifyContext) (granted : Bool)

variable {Publisher Subscriber : Type}

def start (center : PubSubCenter Publisher Subscriber) : State Publisher Subscriber :=
  ⟨⟨∅, 0, []⟩, center, ∅⟩

/-- `EPOLL_CTL_ADD`, which fails for a descriptor that is watched already. -/
def epollAdd (interest : UnorderedMap Fd Mask) (fd : Fd) (events : Mask) (granted : Bool) :
    UnorderedMap Fd Mask × Bool :=
  if fd ∉ interest ∧ granted = true then (interest.insert fd events, true) else (interest, false)

/-- `EPOLL_CTL_MOD`, which fails for a descriptor that is not watched. -/
def epollMod (interest : UnorderedMap Fd Mask) (fd : Fd) (events : Mask) (granted : Bool) :
    UnorderedMap Fd Mask × Bool :=
  if fd ∈ interest ∧ granted = true then (interest.modify fd fun _ => events, true)
  else (interest, false)

namespace State

variable (state : State Publisher Subscriber)

/-- A second registration closes the descriptor, which leaves the interest set
and cannot be added any more. -/
def demultiplexRegister (fd : Fd) (peer : InetAddr) (granted : Bool) :
    State Publisher Subscriber × Bool :=
  let registered := { state.server with closed := [] }.updateForRegister state.center
    ⟨fd, Demultiplex.defaultEvents⟩ peer
  let interest := registered.1.closed.foldl (fun interest closed => interest.erase closed)
    state.interest
  let added := epollAdd interest fd Demultiplex.defaultEvents
    (granted && !registered.1.closed.contains fd)
  (⟨registered.1, registered.2, added.1⟩, added.2)

def demultiplexModify (ctx : DmpModifyContext) (granted : Bool) :
    Option (State Publisher Subscriber × Bool) :=
  match state.server.updateForModify ctx with
  | .error _ => none
  | .ok server =>
      let modified := epollMod state.interest ctx.fd ctx.events granted
      some ({ state with server := server, interest := modified.1 }, modified.2)

/-- A call, with whether its `epoll_ctl` succeeds. -/
def call : Action → Option (State Publisher Subscriber × Bool)
  | .register fd peer granted => some (state.demultiplexRegister fd peer granted)
  | .modify ctx granted => state.demultiplexModify ctx granted

end State

def demultiplexing : Machine (State Publisher Subscriber) Action where
  step state action := (state.call action).map Prod.fst

/-- Both sides have the same descriptors, with the same masks. -/
structure Agree (state : State Publisher Subscriber) : Prop where
  keys : ∀ fd, fd ∈ state.server.connMap ↔ fd ∈ state.interest
  masks : ∀ fd conn ctx, state.server.connMap.lookup fd = some conn →
    conn.context.toRegister = some ctx → state.interest.lookup fd = some ctx.events

/-- A failed `epoll_ctl` leaves both sides as they were. -/
def Harmless (state : State Publisher Subscriber) (action : Action) : Prop :=
  ∀ next, state.call action = some (next, false) → ∀ fd,
    next.server.connMap.lookup fd = state.server.connMap.lookup fd ∧
      next.interest.lookup fd = state.interest.lookup fd

/-- A new descriptor is added; the mask of a known one is changed by the kernel
too, or there is nothing to change. -/
def Succeeds (state : State Publisher Subscriber) : Action → Prop
  | .register fd _ granted => fd ∉ state.server.connMap ∧ granted = true
  | .modify ctx granted => ctx.fd ∈ state.server.connMap →
      granted = true ∨ state.interest.lookup ctx.fd = some ctx.events

/-- Each entry has a register context of its own descriptor, whose mask is in
the interest set. -/
structure Matched (state : State Publisher Subscriber) : Prop where
  entries : ∀ fd conn, state.server.connMap.lookup fd = some conn →
    ∃ events, conn.context = .dmpRegister ⟨fd, events⟩ ∧
      state.interest.lookup fd = some events
  absent : ∀ fd, fd ∉ state.server.connMap → fd ∉ state.interest

theorem start_matched (center : PubSubCenter Publisher Subscriber) : Matched (start center) := by
  constructor
  · intro fd conn found
    cases found
  · intro fd _
    simp [start]

theorem matched_agree (state : State Publisher Subscriber) (matched : Matched state) :
    Agree state := by
  constructor
  · intro fd
    constructor
    · intro present
      obtain ⟨conn, found⟩ := UnorderedMap.lookup_of_mem present
      obtain ⟨events, _, watched⟩ := matched.entries fd conn found
      exact UnorderedMap.mem_of_lookup watched
    · intro watched
      by_contra gone
      exact matched.absent fd gone watched
  · intro fd conn ctx found registered
    obtain ⟨events, context, watched⟩ := matched.entries fd conn found
    rw [context, Context.toRegister, Option.some.injEq] at registered
    rw [watched, ← registered]

section Calls

variable {state : State Publisher Subscriber}

/-- A registration of a new descriptor. -/
theorem register_fresh {fd : Fd} (absent : fd ∉ state.server.connMap) (peer : InetAddr)
    (granted : Bool) :
    (state.demultiplexRegister fd peer granted).1.server.connMap =
        state.server.connMap.emplace fd (.new ⟨false, fd⟩
          (.dmpRegister ⟨fd, Demultiplex.defaultEvents⟩) peer) ∧
      ((state.demultiplexRegister fd peer granted).1.interest,
          (state.demultiplexRegister fd peer granted).2) =
        epollAdd state.interest fd Demultiplex.defaultEvents granted := by
  simp [State.demultiplexRegister, TcpServer.updateForRegister, absent]

/-- The second registration of a descriptor takes it out of the table. -/
theorem register_again {fd : Fd} (present : fd ∈ state.server.connMap) (peer : InetAddr)
    (granted : Bool) :
    (state.demultiplexRegister fd peer granted).1.server.connMap.lookup fd = none ∧
      (state.demultiplexRegister fd peer granted).2 = false := by
  obtain ⟨conn, found⟩ := UnorderedMap.lookup_of_mem present
  constructor
  · simp [State.demultiplexRegister, TcpServer.updateForRegister, present, TcpServer.remove_lookup]
  · simp [State.demultiplexRegister, TcpServer.updateForRegister, present,
      TcpServer.removeConnection, found, epollAdd]

/-- Both sides ignore a descriptor that they do not know. -/
theorem modify_absent (matched : Matched state) {ctx : DmpModifyContext}
    (absent : ctx.fd ∉ state.server.connMap) (granted : Bool) :
    state.demultiplexModify ctx granted = some (state, false) := by
  have unknown := AList.lookup_eq_none.mpr absent
  have unwatched := matched.absent ctx.fd absent
  simp [State.demultiplexModify, TcpServer.updateForModify, unknown, epollMod, unwatched]

/-- The state after a modification; the server has changed its mask anyway. -/
def State.modified (state : State Publisher Subscriber) (ctx : DmpModifyContext)
    (granted : Bool) : State Publisher Subscriber :=
  { state with
    server := { state.server with
      connMap := state.server.connMap.modify ctx.fd fun conn =>
        { conn with context := .dmpRegister ⟨ctx.fd, ctx.events⟩ } }
    interest :=
      if granted then state.interest.modify ctx.fd fun _ => ctx.events else state.interest }

theorem modify_present (matched : Matched state) {ctx : DmpModifyContext}
    (present : ctx.fd ∈ state.server.connMap) (granted : Bool) :
    state.demultiplexModify ctx granted = some (state.modified ctx granted, granted) := by
  obtain ⟨conn, found⟩ := UnorderedMap.lookup_of_mem present
  obtain ⟨events, context, watched⟩ := matched.entries ctx.fd conn found
  have known := UnorderedMap.mem_of_lookup watched
  simp only [State.demultiplexModify, TcpServer.updateForModify, found, context,
    Context.toRegister, ne_eq, not_true_eq_false, ↓reduceIte, epollMod, known, true_and]
  cases granted <;> rfl

theorem lookup_modified (ctx : DmpModifyContext) (granted : Bool) (fd : Fd) :
    (state.modified ctx granted).server.connMap.lookup fd =
      if fd = ctx.fd then (state.server.connMap.lookup fd).map fun conn =>
        { conn with context := .dmpRegister ⟨ctx.fd, ctx.events⟩ }
      else state.server.connMap.lookup fd := by
  rw [State.modified, UnorderedMap.lookup_modify]
  by_cases same : fd = ctx.fd
  · rw [if_pos same, if_pos same, same]
  · rw [if_neg same, if_neg same]

/-- What the kernel watches `fd` with, once the modification has had its effect. -/
theorem interest_modified {ctx : DmpModifyContext} {granted : Bool}
    (effective : granted = true ∨ state.interest.lookup ctx.fd = some ctx.events) (fd : Fd) :
    (state.modified ctx granted).interest.lookup fd =
      if fd = ctx.fd then (state.interest.lookup fd).map fun _ => ctx.events
      else state.interest.lookup fd := by
  cases granted with
  | true =>
      rw [State.modified, if_pos rfl, UnorderedMap.lookup_modify]
      by_cases same : fd = ctx.fd
      · rw [if_pos same, if_pos same, same]
      · rw [if_neg same, if_neg same]
  | false =>
      have inForce := effective.resolve_left Bool.noConfusion
      rw [State.modified, if_neg Bool.noConfusion]
      by_cases same : fd = ctx.fd
      · rw [if_pos same, same, inForce, Option.map_some]
      · rw [if_neg same]

theorem register_matched (matched : Matched state) {fd : Fd}
    (absent : fd ∉ state.server.connMap) (peer : InetAddr) :
    Matched (state.demultiplexRegister fd peer true).1 := by
  obtain ⟨table, added⟩ := register_fresh absent peer true
  have unwatched := matched.absent fd absent
  rw [epollAdd, if_pos ⟨unwatched, rfl⟩, Prod.mk.injEq] at added
  constructor
  · intro other conn found
    rw [table, UnorderedMap.lookup_emplace_fresh (AList.lookup_eq_none.mpr absent)] at found
    rw [added.1, UnorderedMap.lookup_insert_if]
    by_cases same : other = fd
    · rw [if_pos same] at found
      cases found
      exact ⟨Demultiplex.defaultEvents, by rw [same]; rfl, if_pos same⟩
    · rw [if_neg same] at found ⊢
      exact matched.entries other conn found
  · intro other gone
    rw [table, UnorderedMap.mem_emplace, not_or] at gone
    rw [added.1, AList.mem_insert, not_or]
    exact ⟨gone.1, matched.absent other gone.2⟩

theorem modified_matched (matched : Matched state) {ctx : DmpModifyContext} {granted : Bool}
    (effective : granted = true ∨ state.interest.lookup ctx.fd = some ctx.events) :
    Matched (state.modified ctx granted) := by
  constructor
  · intro fd conn found
    rw [lookup_modified] at found
    rw [interest_modified effective]
    by_cases same : fd = ctx.fd
    · subst same
      rw [if_pos rfl, Option.map_eq_some_iff] at found
      obtain ⟨stored, there, rfl⟩ := found
      obtain ⟨events, _, watched⟩ := matched.entries ctx.fd stored there
      exact ⟨ctx.events, rfl, by rw [if_pos rfl, watched, Option.map_some]⟩
    · rw [if_neg same] at found ⊢
      exact matched.entries fd conn found
  · intro fd gone
    have unwatched : state.interest.lookup fd = none := by
      apply AList.lookup_eq_none.mpr
      apply matched.absent
      exact fun present => gone ((UnorderedMap.mem_modify _ _ _ _).mpr present)
    rw [← AList.lookup_eq_none, interest_modified effective, unwatched]
    simp

end Calls

theorem step_matched (state : State Publisher Subscriber) (action : Action)
    (next : State Publisher Subscriber) (matched : Matched state)
    (succeeds : Succeeds state action)
    (stepped : demultiplexing.step state action = some next) : Matched next := by
  obtain ⟨⟨after, result⟩, called, rfl⟩ := Option.map_eq_some_iff.mp stepped
  cases action with
  | register fd peer granted =>
      obtain ⟨absent, rfl⟩ := succeeds
      cases called
      exact register_matched matched absent peer
  | modify ctx granted =>
      by_cases present : ctx.fd ∈ state.server.connMap
      · rw [State.call, modify_present matched present] at called
        cases called
        exact modified_matched matched (succeeds present)
      · rw [State.call, modify_absent matched present] at called
        cases called
        exact matched

theorem succeeds_harmless (state : State Publisher Subscriber) (action : Action)
    (matched : Matched state) (succeeds : Succeeds state action) : Harmless state action := by
  intro next called fd
  cases action with
  | register added peer granted =>
      obtain ⟨absent, rfl⟩ := succeeds
      have unwatched := matched.absent added absent
      obtain ⟨_, result⟩ := register_fresh absent peer true
      rw [epollAdd, if_pos ⟨unwatched, rfl⟩, Prod.mk.injEq] at result
      simp only [State.call, Option.some.injEq] at called
      rw [called] at result
      cases result.2
  | modify ctx granted =>
      by_cases present : ctx.fd ∈ state.server.connMap
      · rw [State.call, modify_present matched present] at called
        simp only [Option.some.injEq, Prod.mk.injEq] at called
        obtain ⟨rfl, rfl⟩ := called
        have inForce := (succeeds present).resolve_left Bool.noConfusion
        refine ⟨?_, rfl⟩
        rw [lookup_modified]
        by_cases same : fd = ctx.fd
        · subst same
          obtain ⟨conn, found⟩ := UnorderedMap.lookup_of_mem present
          obtain ⟨events, context, watched⟩ := matched.entries ctx.fd conn found
          rw [inForce, Option.some.injEq] at watched
          rw [if_pos rfl, found, Option.map_some, watched, ← context]
        · rw [if_neg same]
      · rw [State.call, modify_absent matched present] at called
        cases called
        exact ⟨rfl, rfl⟩

theorem succeeds_of_agree (state : State Publisher Subscriber) (action : Action)
    (next : State Publisher Subscriber) (matched : Matched state)
    (stepped : demultiplexing.step state action = some next) (agree : Agree next)
    (harmless : Harmless state action) : Succeeds state action := by
  obtain ⟨⟨after, result⟩, called, rfl⟩ := Option.map_eq_some_iff.mp stepped
  cases action with
  | register fd peer granted =>
      have registered : state.demultiplexRegister fd peer granted = (after, result) :=
        Option.some.inj called
      by_cases present : fd ∈ state.server.connMap
      · obtain ⟨gone, failed⟩ := register_again present peer granted
        rw [registered] at gone failed
        have same := (harmless after (failed ▸ called) fd).1
        rw [gone] at same
        exact absurd present (AList.lookup_eq_none.mp same.symm)
      · refine ⟨present, ?_⟩
        obtain ⟨table, added⟩ := register_fresh present peer granted
        rw [registered] at table added
        have listed : fd ∈ after.server.connMap := by
          rw [table, UnorderedMap.mem_emplace]
          exact Or.inl rfl
        have watched := (agree.keys fd).mp listed
        cases granted with
        | true => rfl
        | false =>
            rw [epollAdd, if_neg (by simp), Prod.mk.injEq] at added
            rw [added.1] at watched
            exact absurd watched (matched.absent fd present)
  | modify ctx granted =>
      intro present
      rw [State.call, modify_present matched present, Option.some.injEq, Prod.mk.injEq] at called
      obtain ⟨rfl, _⟩ := called
      cases granted with
      | true => exact Or.inl rfl
      | false =>
          right
          obtain ⟨conn, found⟩ := UnorderedMap.lookup_of_mem present
          have changed : (state.modified ctx false).server.connMap.lookup ctx.fd =
              some { conn with context := .dmpRegister ⟨ctx.fd, ctx.events⟩ } := by
            rw [lookup_modified, if_pos rfl, found, Option.map_some]
          exact agree.masks ctx.fd _ _ changed rfl

theorem call_returns (state : State Publisher Subscriber) (action : Action)
    (matched : Matched state) : ∃ result, state.call action = some result := by
  cases action with
  | register fd peer granted => exact ⟨_, rfl⟩
  | modify ctx granted =>
      by_cases present : ctx.fd ∈ state.server.connMap
      · exact ⟨_, modify_present matched present granted⟩
      · exact ⟨_, modify_absent matched present granted⟩

theorem succeeds_of_refused (state : State Publisher Subscriber) (action : Action)
    (matched : Matched state) (refused : demultiplexing.step state action = none) :
    Succeeds state action := by
  obtain ⟨result, called⟩ := call_returns state action matched
  rw [demultiplexing, Option.map_eq_none_iff, called] at refused
  cases refused

/-- Server and kernel agree throughout, and failures change nothing, in exactly
the runs in which no `epoll_ctl` fails that would have had something to change. -/
theorem record_agrees_iff (center : PubSubCenter Publisher Subscriber) (actions : List Action) :
    demultiplexing.Always Agree (start center) actions ∧
        demultiplexing.Meets Harmless (start center) actions ↔
      demultiplexing.Meets Succeeds (start center) actions :=
  demultiplexing.always_and_meets_iff step_matched matched_agree succeeds_harmless
    succeeds_of_agree succeeds_of_refused (start_matched center) actions

/-- The limit of watched descriptors is reached: the server has a connection
whose events never come. -/
theorem refused_add_disagrees : ¬ ∀ (center : PubSubCenter Unit Unit) actions,
    demultiplexing.Always Agree (start center) actions := by
  intro claim
  let center : PubSubCenter Unit Unit := ⟨∅, ∅, ∅⟩
  obtain ⟨final, ran, test⟩ := demultiplexing.run_reaches
    (fun state => decide (5 ∈ state.server.connMap ∧ 5 ∉ state.interest)) (start center)
    [.register 5 ⟨[], 1⟩ false] (by decide +kernel)
  obtain ⟨listed, unwatched⟩ := of_decide_eq_true test
  exact unwatched (((demultiplexing.always_final (claim center _) ran).keys 5).mp listed)

end RProxy.Agreement
