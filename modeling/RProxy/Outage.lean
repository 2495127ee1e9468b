import RProxy.Affinity
import RProxy.Buffer
import RProxy.Forward

/-!
`ProxyServer::updateForForward` with the exceptions of `connectTo`. Its loop goes
on with the next client where `establishWith` returns a negative number, and
`establishWith` never does: it throws, out of the loop and the function. The sockets
block, because `setNonBlocking` hands the flags to `fcntl` as its command, so
`forward` may not come back either.
-/

namespace RProxy.Outage

open Affinity (ProxyServer)

/-- What the handler is told for a pair of its context, and the packet it begins with.
`read` is `none` where the client has sent nothing and its socket is open; the list of
`send` results is shorter than the loop where a `send` finds no room. -/
structure Answers extends Affinity.Answers where
  packet : Packet
  read : Fd → Option ReadResult
  sends : Fd → List (Option Nat)

/-- `attempts` are the calls of `forward` or `zeroCopy`, `watched` those of
`group_.registerFd`. -/
structure State where
  sockMap : UnorderedMap Fd Fd
  reversedMap : UnorderedMap Fd Fd
  watched : List Fd
  attempts : List (Fd × Fd)

/-- The two maps before a call. -/
def before (sockMap reversedMap : UnorderedMap Fd Fd) : State := ⟨sockMap, reversedMap, [], []⟩

/-- Why a call is not through: it threw, or it is still in `forward`. -/
inductive Halt where
  | threw (fault : Fault)
  | blocked
  deriving DecidableEq

abbrev Handler := EStateM Halt State

variable (answers : Answers)

/-- Whether `forward` comes back; it clears the packet first. -/
def Answers.returns (incoming : Fd) : Bool :=
  (answers.read incoming).any fun read =>
    (RProxy.forward answers.packet read (answers.sends incoming)).sending.finished

/-- `socket` or `connect` fails where the answer is `none`. -/
def connectTo (incoming : Fd) (addr : InetAddr) : Handler Fd :=
  match answers.connect incoming addr with
  | none => throw (.threw .runtimeError)
  | some sock => pure sock

def registerFd (sock : Fd) : Handler Unit :=
  modify fun state => { state with watched := state.watched ++ [sock] }

def establishWith (incoming : Fd) (addr : InetAddr) : Handler Fd := do
  let sock ← connectTo answers incoming addr
  registerFd sock
  return sock

def forward (incoming sock : Fd) : Handler Unit := do
  modify fun state => { state with attempts := state.attempts ++ [(incoming, sock)] }
  if answers.returns incoming = true then pure () else throw .blocked

/-- A pass from `reversed_map_.at` on. -/
def relay (incoming : Fd) : Handler Unit := do
  let state ← get
  match state.reversedMap.lookup incoming with
  | none => throw (.threw .outOfRange)
  | some sock =>
      if answers.limited incoming = true then pure ()
      else forward answers incoming sock

def pass (incoming : Fd) (addr : InetAddr) : Handler Unit := do
  let state ← get
  if incoming ∈ state.reversedMap then relay answers incoming
  else
    let sock ← establishWith answers incoming addr
    -- `continue`, which no descriptor reaches
    if (sock : Int) < 0 then pure ()
    else
      modify fun state => { state with
        sockMap := state.sockMap.emplace sock incoming
        reversedMap := state.reversedMap.emplace incoming sock }
      registerFd sock
      relay answers incoming

def updateForForward : List (Sigma fun _ : Fd => InetAddr) → Handler Unit
  | [] => pure ()
  | pair :: rest => do
      pass answers pair.1 pair.2
      updateForForward rest

/-- The client has a backend connection, or its backend accepts one. -/
def Reachable (reversedMap : UnorderedMap Fd Fd) (incoming : Fd) (addr : InetAddr) : Prop :=
  incoming ∈ reversedMap ∨ (answers.connect incoming addr).isSome = true

instance (reversedMap : UnorderedMap Fd Fd) (incoming : Fd) (addr : InetAddr) :
    Decidable (Reachable answers reversedMap incoming addr) :=
  inferInstanceAs (Decidable (_ ∨ _))

/-- `forward` comes back for the client, or it is not called. -/
def Returns (incoming : Fd) : Prop :=
  answers.limited incoming = false → answers.returns incoming = true

instance (incoming : Fd) : Decidable (Returns answers incoming) :=
  inferInstanceAs (Decidable (_ → _))

/-- The call returns, with one attempt for each client that can be served, over
its backend connection, and no entry for one whose `connect` failed. -/
structure Serves (state : State) (context : UnorderedMap Fd InetAddr) (next : State) : Prop where
  returned : updateForForward answers context.entries state = .ok () next
  attempted : ∀ incoming addr, context.lookup incoming = some addr →
    answers.limited incoming = false → Reachable answers state.reversedMap incoming addr →
      ∃ sock, next.reversedMap.lookup incoming = some sock ∧
        next.attempts.filter (fun attempt => attempt.1 = incoming) = [(incoming, sock)]
  unrecorded : ∀ incoming addr, context.lookup incoming = some addr →
    ¬ Reachable answers state.reversedMap incoming addr →
      incoming ∉ next.reversedMap ∧
        ∀ sock, next.sockMap.lookup sock = some incoming →
          state.sockMap.lookup sock = some incoming

section Passes

variable {answers} {state : State} {incoming : Fd} {addr : InetAddr}

/-- What a pass leaves once the client has a backend. -/
def State.relayed (answers : Answers) (state : State) (incoming sock : Fd) : State :=
  { state with attempts := state.attempts ++
      if answers.limited incoming = true then [] else [(incoming, sock)] }

theorem relay_found {sock : Fd} (found : state.reversedMap.lookup incoming = some sock) :
    relay answers incoming state =
      if Returns answers incoming then .ok () (state.relayed answers incoming sock)
      else .error .blocked (state.relayed answers incoming sock) := by
  rw [relay, get_bind]
  simp only [found]
  rw [branch_apply, State.relayed]
  by_cases limited : answers.limited incoming = true
  · have uncalled : Returns answers incoming := fun unlimited => by simp [limited] at unlimited
    rw [if_pos limited, if_pos limited, if_pos uncalled, List.append_nil]
    rfl
  · have called : Returns answers incoming ↔ answers.returns incoming = true := by
      simp [Returns, limited]
    rw [if_neg limited, if_neg limited, forward, modify_bind, branch_apply]
    simp only [called]
    rfl

/-- The exception of `connectTo` ends the pass. -/
theorem pass_unreachable (unreachable : ¬ Reachable answers state.reversedMap incoming addr) :
    pass answers incoming addr state = .error (.threw .runtimeError) state := by
  rw [Reachable, not_or, Bool.not_eq_true, Option.isSome_eq_false_iff, Option.isNone_iff_eq_none]
    at unreachable
  obtain ⟨absent, refused⟩ := unreachable
  have threw : connectTo answers incoming addr state = .error (.threw .runtimeError) state := by
    rw [connectTo, refused]
    rfl
  rw [pass, get_bind, if_neg absent]
  exact bind_of_error (bind_of_error threw _) _

/-- A pass for a client that can be reached. -/
structure Passed (answers : Answers) (state : State) (incoming sock : Fd) (next : State) :
    Prop where
  here : next.reversedMap.lookup incoming = some sock
  others : ∀ other, other ≠ incoming →
    next.reversedMap.lookup other = state.reversedMap.lookup other
  attempts : next.attempts = state.attempts ++
    if answers.limited incoming = true then [] else [(incoming, sock)]

theorem pass_known (present : incoming ∈ state.reversedMap) :
    pass answers incoming addr state = relay answers incoming state := by
  rw [pass, get_bind, if_pos present]

/-- What `establishWith` and the section under `mx_` leave. -/
def State.connected (state : State) (incoming sock : Fd) : State :=
  { state with
    sockMap := state.sockMap.emplace sock incoming
    reversedMap := state.reversedMap.emplace incoming sock
    watched := state.watched ++ [sock] ++ [sock] }

theorem pass_connects {sock : Fd} (absent : incoming ∉ state.reversedMap)
    (connected : answers.connect incoming addr = some sock) :
    pass answers incoming addr state = relay answers incoming (state.connected incoming sock) := by
  have answered : connectTo answers incoming addr state = .ok sock state := by
    rw [connectTo, connected]
    rfl
  have established : establishWith answers incoming addr state =
      .ok sock { state with watched := state.watched ++ [sock] } := bind_of_ok answered _
  rw [pass, get_bind, if_neg absent, bind_of_ok established, if_neg (by omega), modify_bind]
  rfl

theorem lookup_connected (absent : incoming ∉ state.reversedMap) (sock other : Fd) :
    (state.connected incoming sock).reversedMap.lookup other =
      if other = incoming then some sock else state.reversedMap.lookup other :=
  UnorderedMap.lookup_emplace_fresh (AList.lookup_eq_none.mpr absent) _ _

theorem pass_reachable (reachable : Reachable answers state.reversedMap incoming addr) :
    ∃ sock next, Passed answers state incoming sock next ∧
      pass answers incoming addr state =
        if Returns answers incoming then .ok () next else .error .blocked next := by
  by_cases present : incoming ∈ state.reversedMap
  · obtain ⟨sock, found⟩ := UnorderedMap.lookup_of_mem present
    exact ⟨sock, state.relayed answers incoming sock, ⟨found, fun _ _ => rfl, rfl⟩,
      (pass_known present).trans (relay_found found)⟩
  · obtain ⟨sock, connected⟩ := Option.isSome_iff_exists.mp (reachable.resolve_left present)
    have lookup := lookup_connected present sock
    have found := lookup incoming
    rw [if_pos rfl] at found
    refine ⟨sock, (state.connected incoming sock).relayed answers incoming sock,
      ⟨found, ?_, rfl⟩, (pass_connects present connected).trans (relay_found found)⟩
    intro other different
    exact (lookup other).trans (if_neg different)

theorem reachable_congr {reversedMap other : UnorderedMap Fd Fd}
    (same : reversedMap.lookup incoming = other.lookup incoming) :
    Reachable answers reversedMap incoming addr ↔ Reachable answers other incoming addr := by
  rw [Reachable, Reachable, ← AList.lookup_isSome, ← AList.lookup_isSome, same]

end Passes

section Loop

variable {answers}

/-- What the loop does for clients that can all be reached. -/
structure Looped (answers : Answers) (pairs : List (Sigma fun _ : Fd => InetAddr))
    (state next : State) (attempts : List (Fd × Fd)) : Prop where
  others : ∀ other, other ∉ pairs.map Sigma.fst →
    next.reversedMap.lookup other = state.reversedMap.lookup other
  made : next.attempts = state.attempts ++ attempts
  inside : ∀ attempt ∈ attempts, attempt.1 ∈ pairs.map Sigma.fst
  once : ∀ pair ∈ pairs, answers.limited pair.1 = false →
    ∃ sock, next.reversedMap.lookup pair.1 = some sock ∧
      attempts.filter (fun attempt => attempt.1 = pair.1) = [(pair.1, sock)]

theorem looped_cons {pair : Sigma fun _ : Fd => InetAddr}
    {rest : List (Sigma fun _ : Fd => InetAddr)} {state middle next : State} {sock : Fd}
    {attempts : List (Fd × Fd)} (distinct : pair.1 ∉ rest.map Sigma.fst)
    (passed : Passed answers state pair.1 sock middle)
    (looped : Looped answers rest middle next attempts) :
    Looped answers (pair :: rest) state next
      ((if answers.limited pair.1 = true then [] else [(pair.1, sock)]) ++ attempts) := by
  have later : attempts.filter (fun attempt => attempt.1 = pair.1) = [] := by
    rw [List.filter_eq_nil_iff]
    intro attempt listed same
    exact distinct (of_decide_eq_true same ▸ looped.inside attempt listed)
  constructor
  · intro other outside
    rw [List.map_cons, List.mem_cons, not_or] at outside
    rw [looped.others other outside.2, passed.others other outside.1]
  · rw [looped.made, passed.attempts, List.append_assoc]
  · intro attempt listed
    rw [List.map_cons, List.mem_cons]
    rcases List.mem_append.mp listed with now | later
    · left
      split at now
      · cases now
      · rw [List.mem_singleton] at now
        rw [now]
    · exact Or.inr (looped.inside attempt later)
  · intro served listed unlimited
    rcases List.mem_cons.mp listed with rfl | listed
    · refine ⟨sock, ?_, ?_⟩
      · rw [looped.others served.1 distinct, passed.here]
      · rw [List.filter_append, later, unlimited]
        simp
    · obtain ⟨other, found, once⟩ := looped.once served listed unlimited
      have different : pair.1 ≠ served.1 := fun same =>
        distinct (same ▸ List.mem_map_of_mem listed)
      refine ⟨other, found, ?_⟩
      rw [List.filter_append, once]
      split
      · rfl
      · simp [different]

theorem loop_reachable {pairs : List (Sigma fun _ : Fd => InetAddr)} {state : State}
    (distinct : (pairs.map Sigma.fst).Nodup)
    (reachable : ∀ pair ∈ pairs, Reachable answers state.reversedMap pair.1 pair.2)
    (returns : ∀ pair ∈ pairs, Returns answers pair.1) :
    ∃ next attempts, updateForForward answers pairs state = .ok () next ∧
      Looped answers pairs state next attempts := by
  induction pairs generalizing state with
  | nil =>
      refine ⟨state, [], rfl, fun _ _ => rfl, (List.append_nil _).symm, ?_, ?_⟩
      · intro attempt listed
        cases listed
      · intro pair listed
        cases listed
  | cons pair rest ih =>
      obtain ⟨fresh, distinctRest⟩ := List.nodup_cons.mp distinct
      obtain ⟨sock, middle, passed, passes⟩ :=
        pass_reachable (reachable pair List.mem_cons_self)
      rw [if_pos (returns pair List.mem_cons_self)] at passes
      have reachableRest : ∀ later ∈ rest,
          Reachable answers middle.reversedMap later.1 later.2 := by
        intro later listed
        have different : later.1 ≠ pair.1 := fun same =>
          fresh (same ▸ List.mem_map_of_mem listed)
        exact (reachable_congr (passed.others later.1 different)).mpr
          (reachable later (List.mem_cons_of_mem pair listed))
      obtain ⟨next, attempts, returned, looped⟩ := ih distinctRest reachableRest
        fun later listed => returns later (List.mem_cons_of_mem pair listed)
      refine ⟨next, _, ?_, looped_cons fresh passed looped⟩
      rw [updateForForward, bind_of_ok passes, returned]

/-- The first client that cannot be reached ends the loop, and so does the first for
which `forward` does not come back. -/
theorem loop_returned {pairs : List (Sigma fun _ : Fd => InetAddr)} {state next : State}
    (distinct : (pairs.map Sigma.fst).Nodup)
    (returned : updateForForward answers pairs state = .ok () next) :
    ∀ pair ∈ pairs, Reachable answers state.reversedMap pair.1 pair.2 ∧
      Returns answers pair.1 := by
  induction pairs generalizing state with
  | nil =>
      intro pair listed
      cases listed
  | cons pair rest ih =>
      obtain ⟨fresh, distinctRest⟩ := List.nodup_cons.mp distinct
      rw [updateForForward] at returned
      by_cases reachable : Reachable answers state.reversedMap pair.1 pair.2
      · obtain ⟨sock, middle, passed, passes⟩ := pass_reachable reachable
        by_cases returns : Returns answers pair.1
        · rw [if_pos returns] at passes
          rw [bind_of_ok passes] at returned
          intro other listed
          rcases List.mem_cons.mp listed with rfl | later
          · exact ⟨reachable, returns⟩
          · have different : other.1 ≠ pair.1 := fun same =>
              fresh (same ▸ List.mem_map_of_mem later)
            obtain ⟨reachableThere, returnsThere⟩ := ih distinctRest returned other later
            exact ⟨(reachable_congr (passed.others other.1 different)).mp reachableThere,
              returnsThere⟩
        · rw [if_neg returns] at passes
          rw [bind_of_error passes] at returned
          cases returned
      · rw [bind_of_error (pass_unreachable reachable)] at returned
        cases returned

theorem relay_keeps {server : ProxyServer} {incoming sock : Fd}
    (found : server.reversedMap.lookup incoming = some sock) (limited : Bool) :
    (server.relay incoming limited).sockMap = server.sockMap ∧
      (server.relay incoming limited).reversedMap = server.reversedMap ∧
      (server.relay incoming limited).fault = server.fault := by
  simp only [ProxyServer.relay, found]
  split
  · exact ⟨rfl, rfl, rfl⟩
  · exact ⟨rfl, rfl, rfl⟩

/-- The handler of the affinity results is this one, with the exception forgotten, where
`forward` comes back. -/
theorem affinity_agrees {pairs : List (Sigma fun _ : Fd => InetAddr)} {server next : ProxyServer}
    {state : State} (sockMap : server.sockMap = state.sockMap)
    (reversedMap : server.reversedMap = state.reversedMap) (running : server.fault = none)
    (returns : ∀ pair ∈ pairs, Returns answers pair.1)
    (ran : server.updateForForward answers.toAnswers pairs = some next) :
    next.sockMap = (stateOf (updateForForward answers pairs state)).sockMap ∧
      next.reversedMap = (stateOf (updateForForward answers pairs state)).reversedMap := by
  induction pairs generalizing server state with
  | nil =>
      cases ran
      exact ⟨sockMap, reversedMap⟩
  | cons pair rest ih =>
      obtain ⟨incoming, addr⟩ := pair
      have here : Returns answers incoming := returns _ List.mem_cons_self
      have later : ∀ pair ∈ rest, Returns answers pair.1 :=
        fun pair listed => returns pair (List.mem_cons_of_mem _ listed)
      rw [updateForForward]
      simp only [ProxyServer.updateForForward, running, Option.isSome_none, Bool.false_eq_true,
        ↓reduceIte] at ran
      by_cases present : incoming ∈ server.reversedMap
      · obtain ⟨sock, found⟩ := UnorderedMap.lookup_of_mem present
        obtain ⟨socks, reverseds, faults⟩ := relay_keeps found (answers.limited incoming)
        simp only [present, ↓reduceIte] at ran
        have lookup : state.reversedMap.lookup incoming = some sock := reversedMap ▸ found
        have known : pass answers incoming addr state =
            .ok () (state.relayed answers incoming sock) := by
          rw [pass_known (reversedMap ▸ present), relay_found lookup, if_pos here]
        rw [bind_of_ok known]
        refine ih ?_ ?_ ?_ later ran
        · exact socks.trans sockMap
        · exact reverseds.trans reversedMap
        · exact faults.trans running
      · have absent : incoming ∉ state.reversedMap := reversedMap ▸ present
        cases connected : answers.connect incoming addr with
        | none =>
            have unreachable : ¬ Reachable answers state.reversedMap incoming addr := by
              simp [Reachable, absent, connected]
            simp only [present, ↓reduceIte, connected, Option.some.injEq] at ran
            rw [bind_of_error (pass_unreachable unreachable), ← ran]
            exact ⟨sockMap, reversedMap⟩
        | some sock =>
            have found : (server.establish incoming sock).reversedMap.lookup incoming =
                some sock := by
              rw [ProxyServer.establish,
                UnorderedMap.lookup_emplace_fresh (AList.lookup_eq_none.mpr present), if_pos rfl]
            obtain ⟨socks, reverseds, faults⟩ := relay_keeps found (answers.limited incoming)
            have lookup := lookup_connected absent sock incoming
            rw [if_pos rfl] at lookup
            have connects : pass answers incoming addr state =
                .ok () ((state.connected incoming sock).relayed answers incoming sock) := by
              rw [pass_connects absent connected, relay_found lookup, if_pos here]
            simp only [present, ↓reduceIte, connected] at ran
            rw [bind_of_ok connects]
            split at ran
            · cases ran
            · refine ih ?_ ?_ ?_ later ran
              · rw [socks, ProxyServer.establish, sockMap]
                rfl
              · rw [reverseds, ProxyServer.establish, reversedMap]
                rfl
              · exact faults.trans running

end Loop

/-- A batch is served exactly where none of its clients is assigned a backend
whose `connect` fails, and each `forward` that is called for one of them comes back. -/
theorem serves_iff (answers : Answers) (sockMap reversedMap : UnorderedMap Fd Fd)
    (context : UnorderedMap Fd InetAddr) :
    (∃ next, Serves answers (before sockMap reversedMap) context next) ↔
      ∀ incoming addr, context.lookup incoming = some addr →
        Reachable answers reversedMap incoming addr ∧ Returns answers incoming := by
  have distinct : (context.entries.map Sigma.fst).Nodup := context.nodupKeys
  constructor
  · rintro ⟨next, serves⟩ incoming addr assigned
    exact loop_returned distinct serves.returned ⟨incoming, addr⟩
      (AList.mem_lookup_iff.mp assigned)
  · intro served
    have all : ∀ pair ∈ context.entries,
        Reachable answers (before sockMap reversedMap).reversedMap pair.1 pair.2 ∧
          Returns answers pair.1 := by
      intro pair listed
      exact served pair.1 pair.2 (AList.mem_lookup_iff.mpr listed)
    obtain ⟨next, attempts, returned, looped⟩ := loop_reachable distinct
      (fun pair listed => (all pair listed).1) (fun pair listed => (all pair listed).2)
    refine ⟨next, returned, ?_, ?_⟩
    · intro incoming addr assigned unlimited _
      have made : next.attempts = attempts := looped.made
      rw [made]
      exact looped.once ⟨incoming, addr⟩ (AList.mem_lookup_iff.mp assigned) unlimited
    · intro incoming addr assigned unreachable
      exact absurd (served incoming addr assigned).1 unreachable

def live : InetAddr := ⟨['1', '0', '.', '0', '.', '0', '.', '1'], 80⟩
def dead : InetAddr := ⟨['1', '0', '.', '0', '.', '0', '.', '2'], 80⟩

/-- The client behind the dead backend's one in the batch gets nothing, though
both have sent a byte and the live backend takes it. -/
theorem dead_backend_blocks : ¬ ∀ answers sockMap reversedMap context,
    ∃ next, Serves answers (before sockMap reversedMap) context next := by
  intro claim
  let answers : Answers := {
    connect := fun incoming addr => if addr = live then some (incoming + 10) else none
    limited := fun _ => false
    packet := ⟨fun _ => 0, 0, fun _ => 0⟩
    read := fun _ => some (.data [1] (by decide))
    sends := fun _ => [some 1] }
  let context : UnorderedMap Fd InetAddr :=
    ((∅ : UnorderedMap Fd InetAddr).insert 5 live).insert 6 dead
  obtain ⟨next, serves⟩ := claim answers ∅ ∅ context
  cases serves.returned

end RProxy.Outage
