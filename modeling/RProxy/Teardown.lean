import RProxy.Basic
import RProxy.Machine

/-!
The CLOSABLE branch of `TcpServer::updateForWait` step by step, on any number
of sub-reactors, against the steps of the accept thread. Connections are
numbered in the order they are accepted, so a descriptor that is used again
belongs to another connection.
-/

namespace RProxy.Teardown

/-- `leave` is `disconnect()` down to `demultiplexRemove`; `find` and `erase`
are `removeConnection` under DMPDELETE; `del` is the `epoll_ctl` after it;
`findAgain` and `eraseAgain` are the second `removeConnection(resp.fd)`. -/
inductive Pc where
  | leave | find | erase | del | findAgain | eraseAgain
  deriving DecidableEq

/-- A CLOSABLE event of connection `conn` being handled. -/
structure Chain where
  fd : Fd
  conn : Nat
  pc : Pc
  deriving DecidableEq

/-- `EventLoop::loop` with the loop that `registerFd` picks: after `accept`,
and between DMPREGISTER and the `epoll_ctl`. -/
inductive Acceptor (n : Nat) where
  | idle
  | accepted (fd : Fd) (conn : Nat) (loop : Fin n)
  | inserted (fd : Fd) (conn : Nat) (loop : Fin n)
  deriving DecidableEq

inductive Harm where
  | removed | closed | deleted
  deriving DecidableEq

/-- What the teardown of `torn` did to the connection `victim`. -/
structure Effect where
  torn : Nat
  victim : Nat
  harm : Harm
  deriving DecidableEq

structure World (n : Nat) where
  opened : Fd → Option Nat
  connMap : Fd → Option Nat
  epoll : Fin n → Fd → Option Nat
  chains : Fin n → Option Chain
  acceptor : Acceptor n
  nextConn : Nat
  effects : List Effect

variable {n : Nat}

def World.start : World n where
  opened _ := none
  connMap _ := none
  epoll _ _ := none
  chains _ := none
  acceptor := .idle
  nextConn := 0
  effects := []

inductive Action (n : Nat) where
  | accept (fd : Fd) (loop : Fin n)
  | insert
  | register
  | event (loop : Fin n) (fd : Fd)
  | advance (loop : Fin n)

namespace World

variable (world : World n)

/-- The kernel drops a closed descriptor from every epoll set. -/
def close (fd : Fd) : World n :=
  { world with
    opened := Function.update world.opened fd none
    epoll := fun loop => Function.update (world.epoll loop) fd none }

def accept (fd : Fd) (loop : Fin n) : Option (World n) :=
  match world.acceptor, world.opened fd with
  | .idle, none => some { world with
      opened := Function.update world.opened fd (some world.nextConn)
      acceptor := .accepted fd world.nextConn loop
      nextConn := world.nextConn + 1 }
  | _, _ => none

/-- DMPREGISTER. A connection that `emplace` does not take closes itself. -/
def insert : Option (World n) :=
  match world.acceptor with
  | .accepted fd conn loop =>
      match world.connMap fd with
      | none => some { world with
          connMap := Function.update world.connMap fd (some conn)
          acceptor := .inserted fd conn loop }
      | some _ => some { world.close fd with acceptor := .inserted fd conn loop }
  | _ => none

/-- `epoll_ctl(ADD)` registers the file that `fd` names now, if any. -/
def register : Option (World n) :=
  match world.acceptor with
  | .inserted fd _ loop => some { world with
      epoll := Function.update world.epoll loop
        (Function.update (world.epoll loop) fd (world.opened fd))
      acceptor := .idle }
  | _ => none

/-- A CLOSABLE event of a descriptor that is found in `conn_map_`. -/
def event (loop : Fin n) (fd : Fd) : Option (World n) :=
  match world.chains loop, world.epoll loop fd, world.connMap fd with
  | none, some conn, some _ => some { world with
      chains := Function.update world.chains loop (some ⟨fd, conn, .leave⟩) }
  | _, _, _ => none

def moveTo (loop : Fin n) (chain : Option Chain) : World n :=
  { world with chains := Function.update world.chains loop chain }

/-- `conn_map_.erase(fd)`, whose destructor closes `sockfd_`. -/
def erase (chain : Chain) : World n :=
  match world.connMap chain.fd with
  | none => world
  | some victim =>
      let closes := (world.opened chain.fd).toList.map (Effect.mk chain.conn · .closed)
      { world.close chain.fd with
        connMap := Function.update world.connMap chain.fd none
        effects := world.effects ++ ⟨chain.conn, victim, .removed⟩ :: closes }

/-- `epoll_ctl(DEL)` on the set of the loop. -/
def delete (loop : Fin n) (chain : Chain) : World n :=
  match world.epoll loop chain.fd with
  | none => world
  | some victim => { world with
      epoll := Function.update world.epoll loop
        (Function.update (world.epoll loop) chain.fd none)
      effects := world.effects ++ [⟨chain.conn, victim, .deleted⟩] }

def advance (loop : Fin n) : Option (World n) :=
  match world.chains loop with
  | none => none
  | some chain =>
      match chain.pc with
      | .leave => some (world.moveTo loop (some { chain with pc := .find }))
      | .find =>
          let pc := if (world.connMap chain.fd).isSome then Pc.erase else Pc.del
          some (world.moveTo loop (some { chain with pc := pc }))
      | .erase => some ((world.erase chain).moveTo loop (some { chain with pc := .del }))
      | .del => some ((world.delete loop chain).moveTo loop (some { chain with pc := .findAgain }))
      | .findAgain =>
          let rest := if (world.connMap chain.fd).isSome then
            some { chain with pc := .eraseAgain } else none
          some (world.moveTo loop rest)
      | .eraseAgain => some ((world.erase chain).moveTo loop none)

end World

def teardown : Machine (World n) (Action n) where
  step world
    | .accept fd loop => world.accept fd loop
    | .insert => world.insert
    | .register => world.register
    | .event loop fd => world.event loop fd
    | .advance loop => world.advance loop

/-- Every teardown so far has touched its own connection only. -/
def Contained (world : World n) : Prop :=
  ∀ effect ∈ world.effects, effect.victim = effect.torn

def Acceptor.names (fd : Fd) : Acceptor n → Bool
  | .accepted other _ _ => other == fd
  | _ => false

/-- DMPREGISTER does not insert a descriptor while its teardown is under way. -/
def Apart (world : World n) : Action n → Prop
  | .insert => ∀ loop, ∀ chain ∈ world.chains loop, world.acceptor.names chain.fd = false
  | _ => True

instance (world : World n) (action : Action n) : Decidable (Apart world action) := by
  cases action <;> (unfold Apart; infer_instance)

def Chain.Before (chain : Chain) : Prop := chain.pc = .leave ∨ chain.pc = .find ∨ chain.pc = .erase

def Chain.After (chain : Chain) : Prop := chain.pc = .del ∨ chain.pc = .findAgain

/-- A new connection is not watched until its `epoll_ctl`, and not in the table
until its DMPREGISTER. -/
def Arriving (world : World n) : Acceptor n → Prop
  | .idle => True
  | .accepted fd conn _ =>
      world.opened fd = some conn ∧ world.connMap fd = none ∧ ∀ loop, world.epoll loop fd = none
  | .inserted fd conn _ => world.connMap fd = some conn ∧ ∀ loop, world.epoll loop fd = none

structure Invariant (world : World n) : Prop where
  mapped : ∀ fd conn, world.connMap fd = some conn → world.opened fd = some conn
  watched : ∀ loop fd conn, world.epoll loop fd = some conn → world.connMap fd = some conn
  alone : ∀ first second fd, (world.epoll first fd).isSome → (world.epoll second fd).isSome →
    first = second
  chains : ∀ loop, ∀ chain ∈ world.chains loop,
    (chain.Before ∧ world.epoll loop chain.fd = some chain.conn) ∨
      (chain.After ∧ world.connMap chain.fd = none)
  arriving : Arriving world world.acceptor
  contained : Contained world

theorem accept_keeps {world next : World n} {fd : Fd} {loop : Fin n} (holds : Invariant world)
    (stepped : world.accept fd loop = some next) : Invariant next := by
  simp only [World.accept] at stepped
  split at stepped
  · next idle free =>
      cases stepped
      -- a number that is not open has no entry and is in no epoll set
      have unmapped : world.connMap fd = none := by
        cases found : world.connMap fd with
        | none => rfl
        | some conn => rw [holds.mapped fd conn found] at free; cases free
      have unwatched : ∀ loop, world.epoll loop fd = none := by
        intro loop
        cases found : world.epoll loop fd with
        | none => rfl
        | some conn => rw [holds.watched loop fd conn found] at unmapped; cases unmapped
      refine ⟨?_, holds.watched, holds.alone, holds.chains, ?_, holds.contained⟩
      · intro other conn found
        have different : other ≠ fd := by
          intro same
          subst same
          rw [unmapped] at found
          cases found
        simp only [Function.update_of_ne different]
        exact holds.mapped other conn found
      · exact ⟨Function.update_self _ _ _, unmapped, unwatched⟩
  · cases stepped

theorem insert_keeps {world next : World n} (holds : Invariant world)
    (apart : Apart world .insert) (stepped : world.insert = some next) : Invariant next := by
  simp only [World.insert] at stepped
  split at stepped
  · next fd conn loop arrived =>
      have arriving := holds.arriving
      rw [arrived] at arriving
      obtain ⟨opened, unmapped, unwatched⟩ := arriving
      rw [unmapped] at stepped
      cases stepped
      refine ⟨?_, ?_, holds.alone, ?_, ?_, holds.contained⟩
      · intro other owner found
        by_cases same : other = fd
        · subst same
          simp only [Function.update_self] at found
          rw [opened]
          exact found
        · simp only [Function.update_of_ne same] at found
          exact holds.mapped other owner found
      · intro watcher other owner found
        have different : other ≠ fd := by
          intro same
          subst same
          rw [unwatched] at found
          cases found
        simp only [Function.update_of_ne different]
        exact holds.watched watcher other owner found
      · intro watcher chain member
        -- no teardown of this number is under way, so no chain loses its clause
        have different : chain.fd ≠ fd := by
          intro same
          have free := apart watcher chain member
          rw [arrived, same] at free
          simp [Acceptor.names] at free
        rcases holds.chains watcher chain member with before | ⟨after, gone⟩
        · exact Or.inl before
        · exact Or.inr ⟨after, (Function.update_of_ne different _ _).trans gone⟩
      · exact ⟨Function.update_self _ _ _, unwatched⟩
  · cases stepped

theorem register_keeps {world next : World n} (holds : Invariant world)
    (stepped : world.register = some next) : Invariant next := by
  simp only [World.register] at stepped
  split at stepped
  · next fd conn loop arrived =>
      have arriving := holds.arriving
      rw [arrived] at arriving
      obtain ⟨mapped, unwatched⟩ := arriving
      have opened := holds.mapped fd conn mapped
      cases stepped
      have epoll_at : ∀ watcher other, Function.update world.epoll loop
          (Function.update (world.epoll loop) fd (world.opened fd)) watcher other =
          if watcher = loop ∧ other = fd then some conn else world.epoll watcher other := by
        intro watcher other
        by_cases here : watcher = loop
        · subst here
          by_cases same : other = fd
          · subst same; simp [opened]
          · simp [same]
        · simp [here]
      refine ⟨holds.mapped, ?_, ?_, ?_, trivial, holds.contained⟩
      · intro watcher other owner found
        simp only [epoll_at] at found
        split at found
        · next here => rw [here.2, mapped]; exact found
        · exact holds.watched watcher other owner found
      · intro first second other left right
        simp only [epoll_at] at left right
        by_cases same : other = fd
        · subst same
          simp only [unwatched, and_true] at left right
          split at left
          · next here =>
              split at right
              · next there => rw [here, there]
              · cases right
          · cases left
        · simp only [same, and_false, ↓reduceIte] at left right
          exact holds.alone first second other left right
      · intro watcher chain member
        simp only [epoll_at]
        rcases holds.chains watcher chain member with ⟨before, watching⟩ | after
        · have different : chain.fd ≠ fd := by
            intro same
            rw [same, unwatched] at watching
            cases watching
          exact Or.inl ⟨before, by simpa [different] using watching⟩
        · exact Or.inr after
  · cases stepped

theorem event_keeps {world next : World n} {loop : Fin n} {fd : Fd} (holds : Invariant world)
    (stepped : world.event loop fd = some next) : Invariant next := by
  simp only [World.event] at stepped
  split at stepped
  · next conn _ idle watching found =>
      cases stepped
      refine ⟨holds.mapped, holds.watched, holds.alone, ?_, holds.arriving, holds.contained⟩
      intro watcher chain member
      by_cases here : watcher = loop
      · subst here
        simp only [Function.update_self, Option.mem_some_iff] at member
        subst member
        exact Or.inl ⟨Or.inl rfl, watching⟩
      · simp only [Function.update_of_ne here] at member
        exact holds.chains watcher chain member
  · cases stepped

/-- Moving a chain on needs the chain's own clause in its new place. -/
theorem move_keeps {world : World n} {loop : Fin n} {moved : Option Chain}
    (holds : Invariant world)
    (clause : ∀ chain ∈ moved, (chain.Before ∧ world.epoll loop chain.fd = some chain.conn) ∨
      (chain.After ∧ world.connMap chain.fd = none)) :
    Invariant (world.moveTo loop moved) := by
  refine ⟨holds.mapped, holds.watched, holds.alone, ?_, holds.arriving, holds.contained⟩
  intro watcher chain member
  by_cases here : watcher = loop
  · subst here
    simp only [World.moveTo, Function.update_self] at member
    exact clause chain member
  · simp only [World.moveTo, Function.update_of_ne here] at member
    exact holds.chains watcher chain member

theorem close_opened (world : World n) (fd other : Fd) :
    (world.close fd).opened other = if other = fd then none else world.opened other := by
  simp [World.close, Function.update_apply]

theorem close_epoll (world : World n) (fd other : Fd) (loop : Fin n) :
    (world.close fd).epoll loop other = if other = fd then none else world.epoll loop other := by
  simp [World.close, Function.update_apply]

/-- A connection that is on its way in has another descriptor than one whose
teardown has not closed its own yet. -/
theorem erase_arriving {world : World n} {loop : Fin n} {chain : Chain} (holds : Invariant world)
    (watching : world.epoll loop chain.fd = some chain.conn) (chains : Fin n → Option Chain)
    (effects : List Effect) :
    Arriving { world.close chain.fd with
      connMap := Function.update world.connMap chain.fd none
      chains := chains
      effects := effects } world.acceptor := by
  have mapped : world.connMap chain.fd = some chain.conn := holds.watched loop _ _ watching
  have arriving := holds.arriving
  simp only [World.close]
  cases acceptor : world.acceptor with
  | idle => trivial
  | accepted fd conn picked =>
      rw [acceptor] at arriving
      rcases arriving with ⟨theirs, unmapped, unwatched⟩
      have different : fd ≠ chain.fd := by
        intro same
        rw [same, mapped] at unmapped
        cases unmapped
      constructor
      · simpa only [Function.update_of_ne different] using theirs
      · constructor
        · simpa only [Function.update_of_ne different] using unmapped
        · intro watcher
          simpa only [Function.update_of_ne different] using unwatched watcher
  | inserted fd conn picked =>
      rw [acceptor] at arriving
      rcases arriving with ⟨theirs, unwatched⟩
      have different : fd ≠ chain.fd := by
        intro same
        have absent := unwatched loop
        rw [same, watching] at absent
        cases absent
      constructor
      · simpa only [Function.update_of_ne different] using theirs
      · intro watcher
        simpa only [Function.update_of_ne different] using unwatched watcher

/-- Erasing the entry of a chain that has not closed its descriptor yet ends
every trace of the chain's own connection, and of no other. -/
theorem erase_keeps {world : World n} {loop : Fin n} {chain : Chain} (holds : Invariant world)
    (watching : world.epoll loop chain.fd = some chain.conn) :
    Invariant ((world.erase chain).moveTo loop (some { chain with pc := .del })) := by
  have mapped : world.connMap chain.fd = some chain.conn := holds.watched loop _ _ watching
  have opened : world.opened chain.fd = some chain.conn := holds.mapped _ _ mapped
  simp only [World.erase, mapped, World.moveTo]
  constructor
  · intro fd conn found
    simp only [Function.update_apply] at found
    split at found
    · cases found
    · next other =>
        simp only [close_opened, other, ↓reduceIte]
        exact holds.mapped fd conn found
  · intro watcher fd conn found
    simp only [close_epoll] at found
    split at found
    · cases found
    · next other =>
        simp only [Function.update_apply, other, ↓reduceIte]
        exact holds.watched watcher fd conn found
  · intro first second fd left right
    simp only [close_epoll] at left right
    split at left
    · cases left
    · next other =>
        simp only [other, ↓reduceIte] at right
        exact holds.alone first second fd left right
  · intro watcher rival found
    -- the chain itself is done with its descriptor; the others have other ones
    by_cases here : watcher = loop
    · subst here
      simp only [World.close, Function.update_self, Option.mem_some_iff] at found
      subst found
      exact Or.inr ⟨Or.inl rfl, by simp⟩
    · simp only [World.close, Function.update_of_ne here] at found
      rcases holds.chains watcher rival found with ⟨before, theirs⟩ | ⟨after, unmapped⟩
      · have different : rival.fd ≠ chain.fd := by
          intro same
          rw [same] at theirs
          exact here (holds.alone watcher loop chain.fd (by simp [theirs]) (by simp [watching]))
        exact Or.inl ⟨before, by simpa only [close_epoll, different, ↓reduceIte] using theirs⟩
      · refine Or.inr ⟨after, ?_⟩
        simp only [Function.update_apply]
        split
        · rfl
        · exact unmapped
  · exact erase_arriving holds watching _ _
  · intro effect listed
    simp only [opened, Option.toList_some, List.map_cons, List.map_nil, List.mem_append,
      List.mem_cons, List.not_mem_nil, or_false] at listed
    rcases listed with earlier | rfl | rfl
    · exact holds.contained effect earlier
    · rfl
    · rfl

theorem delete_absent {world : World n} {loop : Fin n} {chain : Chain} (holds : Invariant world)
    (unmapped : world.connMap chain.fd = none) : world.delete loop chain = world := by
  cases found : world.epoll loop chain.fd with
  | none => simp [World.delete, found]
  | some conn => rw [holds.watched loop _ _ found] at unmapped; cases unmapped

theorem advance_keeps {world next : World n} {loop : Fin n} (holds : Invariant world)
    (stepped : world.advance loop = some next) : Invariant next := by
  simp only [World.advance] at stepped
  cases found : world.chains loop with
  | none => simp [found] at stepped
  | some chain =>
      have clause := holds.chains loop chain found
      simp only [found] at stepped
      -- before the close the entry is the chain's own, after it there is none
      rcases clause with ⟨before, watching⟩ | ⟨after, unmapped⟩
      · have mapped := holds.watched loop _ _ watching
        rcases before with pc | pc | pc
        · simp only [pc, Option.some.injEq] at stepped
          subst stepped
          refine move_keeps holds fun moved member => ?_
          obtain rfl := Option.mem_some_iff.mp member
          exact Or.inl ⟨Or.inr (Or.inl rfl), watching⟩
        · simp only [pc, mapped, Option.isSome_some, ↓reduceIte, Option.some.injEq] at stepped
          subst stepped
          refine move_keeps holds fun moved member => ?_
          obtain rfl := Option.mem_some_iff.mp member
          exact Or.inl ⟨Or.inr (Or.inr rfl), watching⟩
        · simp only [pc, Option.some.injEq] at stepped
          subst stepped
          exact erase_keeps holds watching
      · rcases after with pc | pc
        · simp only [pc, delete_absent holds unmapped, Option.some.injEq] at stepped
          subst stepped
          refine move_keeps holds fun moved member => ?_
          obtain rfl := Option.mem_some_iff.mp member
          exact Or.inr ⟨Or.inr rfl, unmapped⟩
        · simp only [pc, unmapped, Option.isSome_none, Bool.false_eq_true, ↓reduceIte,
            Option.some.injEq] at stepped
          subst stepped
          exact move_keeps holds fun moved member => by cases member

theorem start_invariant : Invariant (World.start : World n) where
  mapped _ _ found := by cases found
  watched _ _ _ found := by cases found
  alone _ _ _ left := by cases left
  chains _ _ member := by cases member
  arriving := trivial
  contained _ listed := by cases listed

theorem step_keeps (world : World n) (action : Action n) (next : World n)
    (holds : Invariant world) (apart : Apart world action)
    (stepped : teardown.step world action = some next) : Invariant next := by
  cases action with
  | accept fd loop => exact accept_keeps holds stepped
  | insert => exact insert_keeps holds apart stepped
  | register => exact register_keeps holds stepped
  | event loop fd => exact event_keeps holds stepped
  | advance loop => exact advance_keeps holds stepped

/-- No teardown removes, closes or deletes another connection in a run whose
DMPREGISTER steps stay clear of the teardowns of their descriptor. -/
theorem teardown_contained (actions : List (Action n)) (final : World n)
    (apart : teardown.Meets Apart World.start actions)
    (ran : teardown.run World.start actions = some final) : Contained final :=
  (teardown.run_invariant Invariant step_keeps start_invariant apart ran).contained

/-- Client 0 on descriptor 5 is accepted, watched and torn down up to its `close`. -/
def closedFirst : List (Action 1) :=
  [.accept 5 0, .insert, .register, .event 0 5, .advance 0, .advance 0, .advance 0]

/-- Client 1 gets descriptor 5 while the teardown of client 0 goes on, and is
inserted once it has ended. -/
theorem accepted_during_teardown_contained :
    ∃ final, teardown.run World.start
        (closedFirst ++ [.accept 5 0, .advance 0, .advance 0, .insert, .register]) = some final ∧
      Contained final ∧ final.connMap 5 = some 1 := by
  obtain ⟨final, ran, mapped⟩ := teardown.run_reaches
    (fun world => world.connMap 5 == some 1) World.start
    (closedFirst ++ [Action.accept 5 0, Action.advance 0, Action.advance 0, Action.insert,
      Action.register]) (by decide)
  exact ⟨final, ran, teardown_contained _ final (by decide) ran, by simpa using mapped⟩

/-- Inserted before the teardown ends, client 1 is deleted from the epoll set,
removed from the table and closed by the teardown of client 0. -/
theorem inserted_during_teardown_harmed :
    ¬ ∀ actions final, teardown.run (World.start : World 1) actions = some final →
      Contained final := by
  intro claim
  obtain ⟨final, ran, harmed⟩ := teardown.run_reaches
    (fun world => world.effects.contains ⟨0, 1, .removed⟩) (World.start : World 1)
    (closedFirst ++ [Action.accept 5 0, Action.insert, Action.register, Action.advance 0,
      Action.advance 0, Action.advance 0]) (by decide)
  exact absurd (claim _ final ran ⟨0, 1, .removed⟩ (by simpa using harmed)) (by decide)

end RProxy.Teardown
