import RProxy.Passes

/-!
Which numbers the maps, the passes, the events and the calls under way still name, as a
client's, as a backend's or as a pair, and what a step of a thread leaves of these names.
-/

namespace RProxy.Passes

open Handlers (Threads ForwardPc)

variable {n m k : Nat}

/-- A client and the backend that was opened for it, until they are in both maps. -/
def opened : ForwardPc → Option (Fd × Fd)
  | .register incoming sock => some (incoming, sock)
  | .insert incoming sock => some (incoming, sock)
  | .insertReversed incoming sock => some (incoming, sock)
  | .registerAgain incoming sock => some (incoming, sock)
  | _ => none

/-- The client that a pass is for. -/
def client : ForwardPc → Option Fd
  | .idle => none
  | .find incoming => some incoming
  | .lock incoming => some incoming
  | .findAgain incoming => some incoming
  | .connect incoming => some incoming
  | .register incoming _ => some incoming
  | .insert incoming _ => some incoming
  | .insertReversed incoming _ => some incoming
  | .registerAgain incoming _ => some incoming
  | .unlock incoming => some incoming
  | .lookup incoming => some incoming

namespace CallPc

/-- The descriptors of a call that has not read yet. -/
def pair : CallPc → Option (Fd × Fd)
  | .limit incoming sock => some (incoming, sock)
  | .read inFd outFd _ => some (inFd, outFd)
  | .send .. => none

/-- The numbers that a call still uses. -/
def names : CallPc → List Fd
  | .limit incoming sock => [incoming, sock]
  | .read inFd outFd _ => [inFd, outFd]
  | .send _ outFd _ _ _ _ => [outFd]

end CallPc

/-- No map, no pass with a new backend and no call under way names the number. -/
def Unused (state : Passing n m k) (fd : Fd) : Prop :=
  (∀ entry ∈ state.threads.sockMap.entries, entry.1 ≠ fd ∧ entry.2 ≠ fd) ∧
    (∀ entry ∈ state.threads.reversedMap.entries, entry.1 ≠ fd ∧ entry.2 ≠ fd) ∧
    (∀ thread, ∀ pair ∈ opened (state.threads.forwards thread), pair.1 ≠ fd ∧ pair.2 ≠ fd) ∧
    ∀ who, ∀ call ∈ state.calls who, fd ∉ call.names

/-- A batch, a context or a pass names the number as a client's. -/
inductive Named (state : Passing n m k) (fd : Fd) : Prop where
  | collected (reactor : Fin k) (member : fd ∈ state.sockes reactor)
  | queued (batch : List Fd) (waits : batch ∈ state.loader.sockQueue) (member : fd ∈ batch)
  | popped (thread : Fin m) (taken : state.popped thread = true)
      (member : fd ∈ state.loader.sockes)
  | listed (thread : Fin m) (entry : Sigma fun _ : Fd => InetAddr)
      (member : entry ∈ state.contexts thread) (same : entry.1 = fd)
  | passing (thread : Fin m) (pc : client (state.threads.forwards thread) = some fd)
  | calling (thread : Fin m)
      (call : ((state.calls (.inr thread)).bind CallPc.pair).map Prod.fst = some fd)

/-- An event that a loop has still to handle names the number as a backend's. -/
def Reported (state : Passing n m k) (fd : Fd) : Prop :=
  ∃ loop, ∃ resp ∈ (state.threads.loops loop).resps, resp.fd = fd

instance (state : Passing n m k) (fd : Fd) : Decidable (Unused state fd) := by
  unfold Unused
  infer_instance

theorem named_iff (state : Passing n m k) (fd : Fd) : Named state fd ↔
    (∃ reactor, fd ∈ state.sockes reactor) ∨ (∃ batch ∈ state.loader.sockQueue, fd ∈ batch) ∨
      (∃ thread, state.popped thread = true ∧ fd ∈ state.loader.sockes) ∨
      (∃ thread, ∃ entry ∈ state.contexts thread, entry.1 = fd) ∨
      (∃ thread, client (state.threads.forwards thread) = some fd) ∨
      ∃ thread, ((state.calls (.inr thread)).bind CallPc.pair).map Prod.fst = some fd := by
  constructor
  · intro named
    cases named <;> grind
  · rintro (⟨reactor, member⟩ | ⟨batch, waits, member⟩ | ⟨thread, taken, member⟩ |
      ⟨thread, entry, member, same⟩ | ⟨thread, pc⟩ | ⟨thread, call⟩)
    · exact .collected reactor member
    · exact .queued batch waits member
    · exact .popped thread taken member
    · exact .listed thread entry member same
    · exact .passing thread pc
    · exact .calling thread call

instance (state : Passing n m k) (fd : Fd) : Decidable (Named state fd) :=
  decidable_of_iff _ (named_iff state fd).symm

instance (state : Passing n m k) (fd : Fd) : Decidable (Reported state fd) := by
  unfold Reported
  infer_instance

/-- `sock` is somewhere named as the backend of `incoming`. -/
inductive Pairs (state : Passing n m k) (sock incoming : Fd) : Prop where
  | mapped (found : state.threads.sockMap.lookup sock = some incoming)
  | reversed (found : state.threads.reversedMap.lookup incoming = some sock)
  | opened (thread : Fin m) (pc : opened (state.threads.forwards thread) = some (incoming, sock))
  | passing (thread : Fin m)
      (call : (state.calls (.inr thread)).bind CallPc.pair = some (incoming, sock))
  | returning (loop : Fin n)
      (call : (state.calls (.inl loop)).bind CallPc.pair = some (sock, incoming))

theorem unused_pairs {state : Passing n m k} {fd sock incoming : Fd} (unused : Unused state fd)
    (pairs : Pairs state sock incoming) : sock ≠ fd ∧ incoming ≠ fd := by
  obtain ⟨sockMap, reversedMap, passes, calls⟩ := unused
  have call_names : ∀ who first second,
      (state.calls who).bind CallPc.pair = some (first, second) → first ≠ fd ∧ second ≠ fd := by
    intro who first second held
    obtain ⟨call, here, pair⟩ := Option.bind_eq_some_iff.mp held
    have unnamed := calls who call here
    cases call with
    | limit incoming sock =>
        cases pair
        simpa [CallPc.names, eq_comm] using unnamed
    | read inFd outFd addr =>
        cases pair
        simpa [CallPc.names, eq_comm] using unnamed
    | send => cases pair
  cases pairs with
  | mapped found => exact sockMap ⟨sock, incoming⟩ (AList.mem_lookup_iff.mp found)
  | reversed found => exact (reversedMap ⟨incoming, sock⟩ (AList.mem_lookup_iff.mp found)).symm
  | opened thread pc => exact (passes thread (incoming, sock) pc).symm
  | passing thread call => exact (call_names _ incoming sock call).symm
  | returning loop call => exact call_names _ sock incoming call

/-- A thread that goes on names no other client. -/
theorem went_on {Name : Type*} (names : ForwardPc → Option Name) {forwards : Fin m → ForwardPc}
    {thread : Fin m} {pc : ForwardPc}
    (keeps : ∀ name, names pc = some name → names (forwards thread) = some name) (other : Fin m)
    (name : Name) (named : names (Function.update forwards thread pc other) = some name) :
    names (forwards other) = some name := by
  rw [Function.update_apply] at named
  split at named
  · next same =>
      rw [same]
      exact keeps name named
  · exact named

/-- What a step of a thread in `updateForForward` leaves of the names. -/
structure Advances (state next : Threads n m) (thread : Fin m) : Prop where
  fds : next.fds = state.fds
  loops : next.loops = state.loops
  opened : ∀ other pair, opened (next.forwards other) = some pair →
    opened (state.forwards other) = some pair
  client : ∀ other fd, client (next.forwards other) = some fd →
    client (state.forwards other) = some fd
  sockMap : ∀ sock incoming, next.sockMap.lookup sock = some incoming →
    state.sockMap.lookup sock = some incoming ∨
      Passes.opened (state.forwards thread) = some (incoming, sock)
  reversedMap : ∀ incoming sock, next.reversedMap.lookup incoming = some sock →
    state.reversedMap.lookup incoming = some sock ∨
      Passes.opened (state.forwards thread) = some (incoming, sock)
  watched : ∀ loop, ∀ fd ∈ next.group.dmpes loop, fd ∈ state.group.dmpes loop ∨
    (∃ incoming, Passes.opened (state.forwards thread) = some (incoming, fd)) ∧
      (state.fds.owner fd).isSome

section Advance

variable {state next : Threads n m} {thread : Fin m}

/-- The pass goes on at a place that names nothing else. -/
theorem advances_to {pc : ForwardPc} {mx : Option (Fin n ⊕ Fin m)}
    {sockMap reversedMap : UnorderedMap Fd Fd} {group : LoopThreadGroup n}
    (opens : ∀ pair, opened pc = some pair → opened (state.forwards thread) = some pair)
    (keeps : ∀ fd, client pc = some fd → client (state.forwards thread) = some fd)
    (sock_map : ∀ sock incoming, sockMap.lookup sock = some incoming →
      state.sockMap.lookup sock = some incoming ∨
        opened (state.forwards thread) = some (incoming, sock))
    (reversed_map : ∀ incoming sock, reversedMap.lookup incoming = some sock →
      state.reversedMap.lookup incoming = some sock ∨
        opened (state.forwards thread) = some (incoming, sock))
    (watched : ∀ loop, ∀ fd ∈ group.dmpes loop, fd ∈ state.group.dmpes loop ∨
      (∃ incoming, opened (state.forwards thread) = some (incoming, fd)) ∧
        (state.fds.owner fd).isSome) :
    Advances state { state.goForward thread pc with
      mx := mx, sockMap := sockMap, reversedMap := reversedMap, group := group } thread := by
  constructor
  · rfl
  · rfl
  · exact went_on opened opens
  · exact went_on client keeps
  · exact sock_map
  · exact reversed_map
  · exact watched

/-- Only the program counter changes. -/
theorem advances_pc {pc : ForwardPc} {mx : Option (Fin n ⊕ Fin m)}
    (opens : ∀ pair, opened pc = some pair → opened (state.forwards thread) = some pair)
    (keeps : ∀ fd, client pc = some fd → client (state.forwards thread) = some fd) :
    Advances state { state.goForward thread pc with mx := mx } thread :=
  advances_to opens keeps (fun _ _ => Or.inl) (fun _ _ => Or.inl) fun _ _ => Or.inl

theorem registers_watched {incoming sock : Fd} {group : LoopThreadGroup n}
    (here : opened (state.forwards thread) = some (incoming, sock))
    (registered : group = state.group.registerFd state.fds sock) :
    ∀ loop, ∀ fd ∈ group.dmpes loop, fd ∈ state.group.dmpes loop ∨
      (∃ incoming, opened (state.forwards thread) = some (incoming, fd)) ∧
        (state.fds.owner fd).isSome := by
  subst registered
  intro loop fd listed
  rcases (LoopThreadGroup.mem_register _ _ loop sock fd).mp listed with ⟨_, rfl, isOpen⟩ | old
  · exact Or.inr ⟨⟨incoming, here⟩, isOpen⟩
  · exact Or.inl old

theorem advance_spec (stepped : state.advance thread = some next) : Advances state next thread := by
  simp only [Threads.advance] at stepped
  split at stepped
  · cases stepped
  · cases stepped
  · next incoming here =>
      cases stepped
      apply advances_pc
      · intro pair
        split <;> exact nofun
      · intro fd
        rw [here]
        split <;> exact id
  · next incoming here =>
      split at stepped
      · cases stepped
      · cases stepped
        exact advances_pc nofun (by rw [here]; exact fun _ => id)
  · next incoming here =>
      cases stepped
      apply advances_pc
      · intro pair
        split <;> exact nofun
      · intro fd
        rw [here]
        split <;> exact id
  · next incoming sock here =>
      cases stepped
      apply advances_to
      · rw [here]
        exact fun _ => id
      · rw [here]
        exact fun _ => id
      · exact fun _ _ => Or.inl
      · exact fun _ _ => Or.inl
      · exact registers_watched (by rw [here]; rfl) rfl
  · next incoming sock here =>
      cases stepped
      apply advances_to
      · rw [here]
        exact fun _ => id
      · rw [here]
        exact fun _ => id
      · intro other found looked
        rcases UnorderedMap.lookup_emplace_cases looked with old | ⟨rfl, rfl⟩
        · exact Or.inl old
        · exact Or.inr (by rw [here]; rfl)
      · exact fun _ _ => Or.inl
      · exact fun _ _ => Or.inl
  · next incoming sock here =>
      cases stepped
      apply advances_to
      · rw [here]
        exact fun _ => id
      · rw [here]
        exact fun _ => id
      · exact fun _ _ => Or.inl
      · intro other found looked
        rcases UnorderedMap.lookup_emplace_cases looked with old | ⟨rfl, rfl⟩
        · exact Or.inl old
        · exact Or.inr (by rw [here]; rfl)
      · exact fun _ _ => Or.inl
  · next incoming sock here =>
      cases stepped
      apply advances_to
      · exact nofun
      · rw [here]
        exact fun _ => id
      · exact fun _ _ => Or.inl
      · exact fun _ _ => Or.inl
      · exact registers_watched (by rw [here]; rfl) rfl
  · next incoming here =>
      cases stepped
      exact advances_pc nofun (by rw [here]; exact fun _ => id)
  · next incoming here =>
      split at stepped
      · cases stepped
        exact advances_pc nofun nofun
      · cases stepped
        exact ⟨rfl, rfl, fun _ _ => id, fun _ _ => id, fun _ _ => Or.inl, fun _ _ => Or.inl,
          fun _ _ => Or.inl⟩

end Advance

/-- What a step of a loop in `updateForWait` leaves of the names, and of the descriptors. -/
structure Handles (state next : Threads n m) (loop : Fin n) : Prop where
  owners : ∀ fd, next.fds.owner fd = state.fds.owner fd ∨
    next.fds.owner fd = none ∧ (∃ resp ∈ (state.loops loop).resps, resp.fd = fd) ∧
      ∀ other, fd ∉ next.group.dmpes other
  numbers : next.fds.next = state.fds.next
  forwards : next.forwards = state.forwards
  sockMap : ∀ sock incoming, next.sockMap.lookup sock = some incoming →
    state.sockMap.lookup sock = some incoming
  reversedMap : ∀ incoming sock, next.reversedMap.lookup incoming = some sock →
    state.reversedMap.lookup incoming = some sock
  resps : ∀ other, ∀ resp ∈ (next.loops other).resps, resp ∈ (state.loops other).resps
  watched : ∀ other, ∀ fd ∈ next.group.dmpes other, fd ∈ state.group.dmpes other

section Handle

variable {state next : Threads n m} {loop : Fin n} {resp : Resp} {rest : List Resp}
  (here : (state.loops loop).resps = resp :: rest)
include here

theorem resps_shrink {resps : List Resp} {pc : Handlers.WaitPc}
    (shrinks : ∀ other ∈ resps, other ∈ resp :: rest) (other : Fin n) :
    ∀ event ∈ (Function.update state.loops loop ⟨pc, resps⟩ other).resps,
      event ∈ (state.loops other).resps := by
  intro event member
  rw [Function.update_apply] at member
  split at member
  · next same =>
      rw [same, here]
      exact shrinks event member
  · exact member

/-- Only the program counter and the maps change, which lose entries. -/
theorem handles_pc {pc : Handlers.WaitPc} {resps : List Resp} {mx : Option (Fin n ⊕ Fin m)}
    {sockMap reversedMap : UnorderedMap Fd Fd} (shrinks : ∀ other ∈ resps, other ∈ resp :: rest)
    (sock_map : ∀ sock incoming, sockMap.lookup sock = some incoming →
      state.sockMap.lookup sock = some incoming)
    (reversed_map : ∀ incoming sock, reversedMap.lookup incoming = some sock →
      state.reversedMap.lookup incoming = some sock) :
    Handles state { state.goLoop loop pc resps with
      mx := mx, sockMap := sockMap, reversedMap := reversedMap } loop := by
  constructor
  · exact fun _ => Or.inl rfl
  · rfl
  · rfl
  · exact sock_map
  · exact reversed_map
  · exact resps_shrink here shrinks
  · exact fun _ _ => id

end Handle

theorem throws_handles (state : Threads n m) (loop : Fin n) : Handles state state.throws loop :=
  ⟨fun _ => Or.inl rfl, rfl, rfl, fun _ _ => id, fun _ _ => id, fun _ _ => id, fun _ _ => id⟩

theorem handle_spec {state next : Threads n m} {loop : Fin n}
    (stepped : state.handle loop = some next) : Handles state next loop := by
  simp only [Threads.handle] at stepped
  cases here : (state.loops loop).resps with
  | nil => simp [here] at stepped
  | cons resp rest =>
      have tail : ∀ other ∈ rest, other ∈ resp :: rest := fun _ => List.mem_cons_of_mem _
      simp only [here] at stepped
      cases pc : (state.loops loop).pc with
      | print =>
          simp only [pc] at stepped
          split at stepped
          · cases stepped
            exact throws_handles state loop
          · split at stepped
            · cases stepped
              exact handles_pc here (fun _ => id) (fun _ _ => id) fun _ _ => id
            · split at stepped
              · cases stepped
                exact handles_pc here (fun _ => id) (fun _ _ => id) fun _ _ => id
              · cases stepped
                exact handles_pc here tail (fun _ _ => id) fun _ _ => id
      | relay =>
          simp only [pc] at stepped
          split at stepped
          · cases stepped
            exact throws_handles state loop
          · cases stepped
            exact handles_pc here tail (fun _ _ => id) fun _ _ => id
      | close =>
          simp only [pc, Option.some.injEq] at stepped
          subst stepped
          constructor
          · intro fd
            by_cases same : fd = resp.fd
            · right
              refine ⟨by simp [FdTable.close_owner, same], ⟨resp, by simp [here], same.symm⟩, ?_⟩
              intro other listed
              exact ((LoopThreadGroup.mem_close _ other resp.fd fd).mp listed).1 same
            · left
              simp [FdTable.close_owner, same]
          · rfl
          · rfl
          · exact fun _ _ => id
          · exact fun _ _ => id
          · exact resps_shrink here fun _ => id
          · intro other fd listed
            exact ((LoopThreadGroup.mem_close _ other resp.fd fd).mp listed).2
      | lock =>
          simp only [pc] at stepped
          split at stepped
          · cases stepped
          · cases stepped
            exact handles_pc here (fun _ => id) (fun _ _ => id) fun _ _ => id
      | find =>
          simp only [pc] at stepped
          split at stepped
          · cases stepped
            exact handles_pc here (fun _ => id) (fun _ _ => id) fun _ _ => id
          · cases stepped
            exact handles_pc here tail (fun _ _ => id) fun _ _ => id
      | eraseReversed =>
          simp only [pc] at stepped
          split at stepped
          · cases stepped
            exact throws_handles state loop
          · cases stepped
            exact handles_pc here (fun _ => id) (fun _ _ => id) fun _ _ => UnorderedMap.lookup_of_erase
      | erase =>
          simp only [pc, Option.some.injEq] at stepped
          subst stepped
          exact handles_pc here tail (fun _ _ => UnorderedMap.lookup_of_erase) fun _ _ => id

section Same

variable {state next : Passing n m k}

theorem pairs_same {sock incoming : Fd} (pairs : Pairs next sock incoming)
    (sockMap : next.threads.sockMap = state.threads.sockMap)
    (reversedMap : next.threads.reversedMap = state.threads.reversedMap)
    (forwards : ∀ thread pair, opened (next.threads.forwards thread) = some pair →
      opened (state.threads.forwards thread) = some pair)
    (calls : ∀ who pair, (next.calls who).bind CallPc.pair = some pair →
      (state.calls who).bind CallPc.pair = some pair) : Pairs state sock incoming := by
  cases pairs with
  | mapped found => exact .mapped (sockMap ▸ found)
  | reversed found => exact .reversed (reversedMap ▸ found)
  | opened thread pc => exact .opened thread (forwards thread _ pc)
  | passing thread call => exact .passing thread (calls _ _ call)
  | returning loop call => exact .returning loop (calls _ _ call)

/-- The passes and the calls go on, and contexts may be through. -/
theorem named_fewer {fd : Fd} (named : Named next fd) (sockes : next.sockes = state.sockes)
    (loader : next.loader = state.loader) (popped : next.popped = state.popped)
    (contexts : ∀ thread, ∀ entry ∈ next.contexts thread, entry ∈ state.contexts thread)
    (forwards : ∀ thread fd, client (next.threads.forwards thread) = some fd →
      client (state.threads.forwards thread) = some fd)
    (calls : ∀ thread pair, (next.calls (.inr thread)).bind CallPc.pair = some pair →
      (state.calls (.inr thread)).bind CallPc.pair = some pair) : Named state fd := by
  cases named with
  | collected reactor member => exact .collected reactor (sockes ▸ member)
  | queued batch waits member => exact .queued batch (loader ▸ waits) member
  | popped thread taken member => exact .popped thread (popped ▸ taken) (loader ▸ member)
  | listed thread entry member same =>
      exact .listed thread entry (contexts thread entry member) same
  | passing thread pc => exact .passing thread (forwards thread fd pc)
  | calling thread call =>
      obtain ⟨pair, held, same⟩ := Option.map_eq_some_iff.mp call
      exact .calling thread (by rw [calls thread pair held, Option.map_some, same])

/-- The pair of a call that goes on or comes to its end was there before. -/
theorem went_on_call {who : Fin n ⊕ Fin m} {pc : Option CallPc}
    (keeps : ∀ pair, pc.bind CallPc.pair = some pair →
      (state.calls who).bind CallPc.pair = some pair) (other : Fin n ⊕ Fin m) (pair : Fd × Fd)
    (held : (Function.update state.calls who pc other).bind CallPc.pair = some pair) :
    (state.calls other).bind CallPc.pair = some pair := by
  rw [Function.update_apply] at held
  split at held
  · next same =>
      rw [same]
      exact keeps pair held
  · exact held

/-- The pair that is looked up is in `reversed_map_`, and its client is the pass's. -/
theorem relays_cases {thread : Fin m} {pc : CallPc} (relays : state.relays thread = some pc) :
    ∃ incoming sock, pc = .limit incoming sock ∧
      client (state.threads.forwards thread) = some incoming ∧
        state.threads.reversedMap.lookup incoming = some sock := by
  simp only [Passing.relays] at relays
  split at relays
  · next incoming here =>
      obtain ⟨sock, found, rfl⟩ := Option.map_eq_some_iff.mp relays
      exact ⟨incoming, sock, rfl, by rw [here]; rfl, found⟩
  · cases relays

theorem returns_cases {loop : Fin n} {pc : CallPc} (returns : state.returns loop = some pc) :
    ∃ sock incoming, pc = .read sock incoming none ∧
      state.threads.sockMap.lookup sock = some incoming := by
  simp only [Passing.returns] at returns
  split at returns
  · next resp _ _ _ =>
      obtain ⟨incoming, found, rfl⟩ := Option.map_eq_some_iff.mp returns
      exact ⟨resp.fd, incoming, rfl, found⟩
  · cases returns

theorem back_contexts (who : Fin n ⊕ Fin m) (addr : Option (List Char)) (total : Nat)
    (thread : Fin m) : ∀ entry ∈ (state.back who addr total).contexts thread,
      entry ∈ state.contexts thread := by
  cases who with
  | inl loop => exact fun _ => id
  | inr pass =>
      intro entry member
      simp only [Passing.back, Function.update_apply] at member
      split at member
      · next same =>
          rw [same]
          exact List.mem_of_mem_tail member
      · exact member

end Same

end RProxy.Passes
