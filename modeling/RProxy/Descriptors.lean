import RProxy.Budget
import RProxy.LoadBalancer
import RProxy.Machine
import RProxy.Ping

/-!
The descriptors that `checkAllBackend`, `ping` and a refused `connectTo` open
and nobody closes. `connectTo` throws with the socket still open, the health
check leaves its connections where the next one overwrites `sock`, and `ping`
has no `close` either.
-/

namespace RProxy.Descriptors

open LoadBalancer Budget

/-- The descriptors of the process below `limit`. No variable holds those in
`lost` any more, and `stray` counts the ones of them that somebody closed. -/
structure Table (limit : Nat) where
  opened : Finset (Fin limit)
  lost : Finset (Fin limit)
  stray : Nat
  kept : lost ⊆ opened

namespace Table

variable {limit : Nat} (table : Table limit)

def lowest : Option { fd : Fin limit // fd ∉ table.opened } :=
  match found : (List.finRange limit).find? fun fd => decide (fd ∉ table.opened) with
  | none => none
  | some fd => some ⟨fd, by simpa using List.find?_some found⟩

/-- `free` is handed out; without somebody who keeps it, it is lost. -/
def opens (free : { fd : Fin limit // fd ∉ table.opened }) (keeps : Bool) : Table limit where
  opened := insert free.val table.opened
  lost := if keeps then table.lost else insert free.val table.lost
  stray := table.stray
  kept := by
    split
    · exact table.kept.trans (Finset.subset_insert _ _)
    · exact Finset.insert_subset_insert _ table.kept

def close (fd : Fin limit) : Table limit where
  opened := table.opened.erase fd
  lost := table.lost.erase fd
  stray := if fd ∈ table.lost then table.stray + 1 else table.stray
  kept := Finset.erase_subset_erase _ table.kept

/-- Every descriptor that was ever lost. -/
def spent : Nat := table.lost.card + table.stray

end Table

/-- A step of the rest of the process: `accept`, `epoll_create` or `pipe2`, of
which the caller keeps the number, and `close`. -/
inductive Other (limit : Nat) where
  | opens
  | closes (fd : Fin limit)

def Table.other {limit : Nat} (table : Table limit) : Other limit → Table limit
  | .opens =>
      match table.lowest with
      | none => table
      | some free => table.opens free true
  | .closes fd => table.close fd

/-- What an attempt to connect meets: the other threads' steps before it, and
whether the backend accepts. -/
structure Attempt (limit : Nat) where
  meanwhile : List (Other limit)
  accepts : Bool

/-- A backend that is checked. -/
structure Remote (limit : Nat) where
  attempt : Nat → Attempt limit
  write : Nat → Option Nat
  recv : Nat → Option (List Byte)
  buf : List Byte

def Remote.attempts {limit : Nat} (remote : Remote limit) (connect : Nat → Option Fd) : Attempts :=
  ⟨connect, remote.write, remote.recv, remote.buf⟩

section Calls

variable {limit : Nat}

abbrev Handler (limit : Nat) := EStateM Fault (Table limit)

/-- `keeps` says whether the caller stores what is returned. -/
def connectTo (keeps accepts : Bool) : Handler limit Fd := do
  let table ← get
  match table.lowest with
  | none => throw .runtimeError
  | some free => do
      -- of a refused socket the exception takes the number along
      set (table.opens free (keeps && accepts))
      if accepts = true then pure free.val.val else throw .runtimeError

def connectAt (remote : Remote limit) (index : Nat) : Handler limit Fd := do
  modify fun table => (remote.attempt index).meanwhile.foldl Table.other table
  connectTo false (remote.attempt index).accepts

/-- `do { sock = connectTo(addr); if (sock > 0) break; } while (--time);` -/
def connectLoop (remote : Remote limit) : Nat → Nat → Fd → Handler limit Fd
  | 0, _, sock => pure sock
  | time + 1, index, _ => do
      let sock ← connectAt remote index
      if 0 < sock then pure sock else connectLoop remote time (index + 1) sock

/-- The loop body of `checkAllBackend` once the connection is there. -/
def verify (attempts : Attempts) (loader : LoadBalancer) (key : List Char) (sock : Fd) :
    Except Fault LoadBalancer :=
  if (sock : Int) < 0 then .ok (loader.eraseBackend key)
  else
    match retry (tryWrite attempts loader.text.length) 3 0 () with
    | .error fault => .error fault
    | .ok (time, _) =>
        if (time : Int) < 0 then .ok (loader.eraseBackend key)
        else
          match retry (tryRecv attempts loader.text) 3 0 attempts.buf with
          | .error fault => .error fault
          | .ok (time, _) =>
              if (time : Int) < 0 then .ok (loader.eraseBackend key)
              else .ok loader

def returns {Value : Type} : Except Fault Value → Handler limit Value
  | .ok value => pure value
  | .error fault => throw fault

variable (remote : List Char → InetAddr → Remote limit)

def checkBackend (loader : LoadBalancer) (key : List Char) (port : UInt16) :
    Handler limit LoadBalancer :=
  match loader.backend.lookup key with
  | none => throw .outOfRange
  | some stored => do
      let peer := remote key ⟨stored.ip, port⟩
      let sock ← connectLoop peer 3 0 0
      returns (verify (peer.attempts fun _ => some sock) loader key sock)

def checkEntries : List (Sigma fun _ : List Char => UInt16) → LoadBalancer →
    Handler limit LoadBalancer
  | [], loader => pure loader
  | entry :: rest, loader => do
      let loader ← checkBackend remote loader entry.1 entry.2
      checkEntries rest loader

def checkAllBackend (loader : LoadBalancer) : Handler limit LoadBalancer :=
  checkEntries remote loader.checked.entries loader

/-- `Ping::ping` on the socket that the table has for it. -/
def ping (network : Ping.Network) (host : List Char) : Handler limit Bool := do
  let table ← get
  match table.lowest with
  | none => returns (Ping.ping { network with socket := none } host)
  | some free => do
      set (table.opens free false)
      returns (Ping.ping { network with socket := some free.val.val } host)

end Calls

/-- `probed` are the backends of the health checks that returned, `pinged` the
pings that returned, `refused` the connections to a backend for a client that
the backend refused. -/
structure State (limit : Nat) where
  table : Table limit
  probed : Nat
  pinged : Nat
  refused : Nat

def State.used {limit : Nat} (state : State limit) : Nat :=
  state.probed + state.pinged + state.refused

/-- The tables of the load balancer are whatever they are at the check. -/
inductive Action (limit : Nat) where
  | other (step : Other limit)
  | checkAllBackend (remote : List Char → InetAddr → Remote limit) (loader : LoadBalancer)
  | ping (network : Ping.Network) (host : List Char)
  | establishWith (accepts : Bool)

variable {limit : Nat}

def perform (state : State limit) : Action limit → State limit
  | .other step => { state with table := state.table.other step }
  | .checkAllBackend remote loader =>
      match checkAllBackend remote loader state.table with
      | .ok _ table =>
          { state with table := table, probed := state.probed + loader.checked.entries.length }
      | .error _ table => { state with table := table }
  | .ping network host =>
      match ping network host state.table with
      | .ok _ table => { state with table := table, pinged := state.pinged + 1 }
      | .error _ table => { state with table := table }
  | .establishWith accepts =>
      match connectTo true accepts state.table with
      | .ok _ table => { state with table := table }
      | .error _ table =>
          { state with
            table := table
            refused := if state.table.lowest.isSome then state.refused + 1 else state.refused }

def process (limit : Nat) : Machine (State limit) (Action limit) where
  step state action := some (perform state action)

section Costs

theorem spent_opens (table : Table limit) (free : { fd : Fin limit // fd ∉ table.opened })
    (keeps : Bool) : (table.opens free keeps).spent = table.spent + if keeps then 0 else 1 := by
  have fresh : free.val ∉ table.lost := fun lost => free.property (table.kept lost)
  cases keeps with
  | true => rfl
  | false =>
      simp only [Table.spent, Table.opens, Bool.false_eq_true, ↓reduceIte]
      rw [Finset.card_insert_of_notMem fresh]
      omega

theorem spent_close (table : Table limit) (fd : Fin limit) :
    (table.close fd).spent = table.spent := by
  simp only [Table.spent, Table.close]
  by_cases lost : fd ∈ table.lost
  · have positive : 0 < table.lost.card := Finset.card_pos.mpr ⟨fd, lost⟩
    rw [if_pos lost, Finset.card_erase_of_mem lost]
    omega
  · rw [if_neg lost, Finset.erase_eq_of_notMem lost]

theorem spent_other (table : Table limit) (step : Other limit) :
    (table.other step).spent = table.spent := by
  cases step with
  | opens =>
      rw [Table.other]
      split
      · rfl
      · exact spent_opens table _ true
  | closes fd => exact spent_close table fd

theorem spent_meanwhile (steps : List (Other limit)) (table : Table limit) :
    (steps.foldl Table.other table).spent = table.spent := by
  induction steps generalizing table with
  | nil => rfl
  | cons step rest ih => rw [List.foldl_cons, ih, spent_other]

theorem spends_returns {Value : Type} (result : Except Fault Value) :
    Spends Table.spent 0 (returns result : Handler limit Value) := by
  cases result with
  | error fault => exact spends_throw fault
  | ok value => exact spends_pure value

/-- A socket that nobody keeps is lost whether the backend accepts or not. -/
theorem spends_connect (accepts : Bool) :
    Spends Table.spent 1 (connectTo false accepts : Handler limit Fd) := by
  refine spends_get_bind fun table => ?_
  cases lowest : table.lowest with
  | none => exact Nat.le_refl _
  | some free =>
      have opened := spent_opens table free false
      rw [if_neg Bool.false_ne_true] at opened
      have ends : Spends Table.spent 0
          (if accepts = true then pure free.val.val else throw .runtimeError : Handler limit Fd) := by
        split
        · exact spends_pure _
        · exact spends_throw _
      exact ends.after_set (by rw [Bool.false_and]; omega) (by rw [Bool.false_and]; omega) table

theorem spends_connect_at (remote : Remote limit) (index : Nat) :
    Spends Table.spent 1 (connectAt remote index) :=
  (spends_connect _).after_modify (spent_meanwhile _)

theorem spends_loop (remote : Remote limit) (time index : Nat) (sock : Fd) :
    Spends Table.spent (min time 1) (connectLoop remote time index sock) := by
  induction time generalizing index sock with
  | zero => exact spends_pure sock
  | succ time ih =>
      rw [connectLoop]
      refine ((spends_connect_at remote index).bind fun found => ?_).weaken (by omega : _ ≤ 1 + 0)
      split
      · exact spends_pure found
      · exact (ih (index + 1) found).weaken (Nat.zero_le _)

theorem spends_backend (remote : List Char → InetAddr → Remote limit) (loader : LoadBalancer)
    (key : List Char) (port : UInt16) :
    Spends Table.spent 1 (checkBackend remote loader key port) := by
  rw [checkBackend]
  split
  · exact spends_throw _
  · exact (spends_loop _ 3 0 0).bind fun _ => spends_returns _

theorem spends_entries (remote : List Char → InetAddr → Remote limit)
    (entries : List (Sigma fun _ : List Char => UInt16)) (loader : LoadBalancer) :
    Spends Table.spent entries.length (checkEntries remote entries loader) := by
  induction entries generalizing loader with
  | nil => exact spends_pure loader
  | cons entry rest ih =>
      rw [checkEntries, List.length_cons, Nat.add_comm]
      exact (spends_backend remote loader entry.1 entry.2).bind ih

theorem spends_ping (network : Ping.Network) (host : List Char) :
    Spends Table.spent 1 (ping network host : Handler limit Bool) := by
  refine spends_get_bind fun table => ?_
  cases lowest : table.lowest with
  | none => exact Nat.le_refl _
  | some free =>
      have opened := spent_opens table free false
      rw [if_neg Bool.false_ne_true] at opened
      exact (spends_returns _).after_set (by omega) (by omega) table

end Costs

section Agreement

def outcome {State Value : Type} : EStateM.Result Fault State Value → Except Fault Value
  | .ok value _ => .ok value
  | .error fault _ => .error fault

/-- The table before attempt `index`, if all before were made. -/
def tableAt (remote : Remote limit) (table : Table limit) : Nat → Table limit
  | 0 => table
  | index + 1 => stateOf (connectAt remote index (tableAt remote table index))

def connects (remote : Remote limit) (table : Table limit) (index : Nat) : Option Fd :=
  (outcome (connectAt remote index (tableAt remote table index))).toOption

theorem connect_at_error {remote : Remote limit} {index : Nat} {table after : Table limit}
    {fault : Fault} (threw : connectAt remote index table = .error fault after) :
    fault = .runtimeError := by
  rw [connectAt, modify_bind, connectTo, get_bind] at threw
  cases lowest : ((remote.attempt index).meanwhile.foldl Table.other table).lowest with
  | none =>
      rw [lowest] at threw
      cases threw
      rfl
  | some free =>
      rw [lowest] at threw
      simp only at threw
      rw [set_bind, branch_apply] at threw
      split at threw
      · cases threw
      · cases threw
        rfl

theorem outcome_returns {Value : Type} (result : Except Fault Value) (table : Table limit) :
    outcome (returns result table) = result := by
  cases result with
  | error fault => rfl
  | ok value => rfl

theorem loop_agrees (remote : Remote limit) (table : Table limit) (time index : Nat) (sock : Fd) :
    outcome (connectLoop remote time index sock (tableAt remote table index)) =
      (retry (tryConnect (remote.attempts (connects remote table))) time index sock).map
        Prod.snd := by
  induction time generalizing index sock with
  | zero => rfl
  | succ time ih =>
      have later := ih (index + 1)
      have answer : connects remote table index =
          (outcome (connectAt remote index (tableAt remote table index))).toOption := rfl
      rw [tableAt] at later
      rw [connectLoop, retry]
      simp only [tryConnect, Remote.attempts, answer] at later ⊢
      cases called : connectAt remote index (tableAt remote table index) with
      | error fault after =>
          rw [bind_of_error called, connect_at_error called]
          rfl
      | ok found after =>
          rw [called] at later
          rw [bind_of_ok called, branch_apply]
          by_cases positive : 0 < found
          · rw [if_pos positive]
            simp only [outcome, Except.toOption, positive, decide_true]
            rfl
          · rw [if_neg positive]
            simp only [outcome, Except.toOption, positive, decide_false]
            exact later found

theorem backend_agrees (remote : List Char → InetAddr → Remote limit) (loader : LoadBalancer)
    (key : List Char) (port : UInt16) (table : Table limit) :
    outcome (checkBackend remote loader key port table) =
      LoadBalancer.checkBackend
        (fun key addr => (remote key addr).attempts (connects (remote key addr) table))
        loader key port := by
  rw [checkBackend, LoadBalancer.checkBackend]
  cases found : loader.backend.lookup key with
  | none => rfl
  | some stored =>
      have agrees := loop_agrees (remote key ⟨stored.ip, port⟩) table 3 0 0
      rw [tableAt] at agrees
      simp only
      cases connected : connectLoop (remote key ⟨stored.ip, port⟩) 3 0 0 table with
      | error fault after =>
          rw [connected] at agrees
          rw [bind_of_error connected]
          cases retried : retry (tryConnect ((remote key ⟨stored.ip, port⟩).attempts
              (connects (remote key ⟨stored.ip, port⟩) table))) 3 0 0 with
          | error other =>
              rw [retried] at agrees
              cases agrees
              rfl
          | ok result =>
              rw [retried] at agrees
              cases agrees
      | ok sock after =>
          rw [connected] at agrees
          rw [bind_of_ok connected]
          cases retried : retry (tryConnect ((remote key ⟨stored.ip, port⟩).attempts
              (connects (remote key ⟨stored.ip, port⟩) table))) 3 0 0 with
          | error other =>
              rw [retried] at agrees
              cases agrees
          | ok result =>
              rw [retried] at agrees
              cases agrees
              exact outcome_returns _ after

/-- A network that is the same at the keys of the entries gives the same check. -/
theorem check_entries_congr {network other : List Char → InetAddr → Attempts}
    (entries : List (Sigma fun _ : List Char => UInt16))
    (same : ∀ entry ∈ entries, network entry.1 = other entry.1) (loader : LoadBalancer) :
    LoadBalancer.checkEntries network entries loader =
      LoadBalancer.checkEntries other entries loader := by
  induction entries generalizing loader with
  | nil => rfl
  | cons entry rest ih =>
      have here : LoadBalancer.checkBackend network loader entry.1 entry.2 =
          LoadBalancer.checkBackend other loader entry.1 entry.2 := by
        rw [LoadBalancer.checkBackend, LoadBalancer.checkBackend, same entry List.mem_cons_self]
      rw [LoadBalancer.checkEntries, LoadBalancer.checkEntries, here]
      split
      · rfl
      · exact ih (fun entry listed => same entry (List.mem_cons_of_mem _ listed)) _

theorem entries_agree (remote : List Char → InetAddr → Remote limit)
    (entries : List (Sigma fun _ : List Char => UInt16)) (distinct : (entries.map Sigma.fst).Nodup)
    (loader : LoadBalancer) (table : Table limit) :
    ∃ network, outcome (checkEntries remote entries loader table) =
      LoadBalancer.checkEntries network entries loader := by
  induction entries generalizing loader table with
  | nil => exact ⟨fun _ _ => ⟨fun _ => none, fun _ => none, fun _ => none, []⟩, rfl⟩
  | cons entry rest ih =>
      rw [List.map_cons, List.nodup_cons] at distinct
      have first := backend_agrees remote loader entry.1 entry.2 table
      cases called : checkBackend remote loader entry.1 entry.2 table with
      | error fault after =>
          rw [called] at first
          refine ⟨fun key addr => (remote key addr).attempts (connects (remote key addr) table), ?_⟩
          rw [checkEntries, bind_of_error called, LoadBalancer.checkEntries, ← first]
          rfl
      | ok kept after =>
          rw [called] at first
          obtain ⟨network, later⟩ := ih distinct.2 kept after
          refine ⟨fun key => if key = entry.1 then fun addr =>
            (remote key addr).attempts (connects (remote key addr) table) else network key, ?_⟩
          have here : LoadBalancer.checkBackend (fun key => if key = entry.1 then fun addr =>
              (remote key addr).attempts (connects (remote key addr) table) else network key)
              loader entry.1 entry.2 = .ok kept := by
            rw [← outcome, first, LoadBalancer.checkBackend, LoadBalancer.checkBackend, if_pos rfl]
          rw [checkEntries, bind_of_ok called, LoadBalancer.checkEntries, here, later]
          apply check_entries_congr
          intro other listed
          have differs : other.1 ≠ entry.1 := fun same =>
            distinct.1 (same ▸ List.mem_map_of_mem listed)
          rw [if_neg differs]

/-- Whatever the table and the other threads do, the check does what it does on
some network. -/
theorem check_all_agrees (remote : List Char → InetAddr → Remote limit) (loader : LoadBalancer)
    (table : Table limit) :
    ∃ network, outcome (checkAllBackend remote loader table) =
      loader.checkAllBackend network :=
  entries_agree remote loader.checked.entries loader.checked.nodupKeys loader table

end Agreement

/-- What an action adds to `used` it has added to the lost descriptors. -/
theorem perform_spends (state : State limit) (action : Action limit) :
    (perform state action).used + state.table.spent ≤
      state.used + (perform state action).table.spent := by
  cases action with
  | other step =>
      rw [perform, spent_other]
      exact Nat.le_refl _
  | checkAllBackend remote loader =>
      have called := spends_entries remote loader.checked.entries loader state.table
      simp only [perform, checkAllBackend, State.used]
      cases result : checkEntries remote loader.checked.entries loader state.table with
      | ok after table =>
          rw [result, Paid] at called
          simp only
          omega
      | error fault table =>
          rw [result, Paid] at called
          simp only
          omega
  | ping network host =>
      have called := spends_ping network host state.table
      simp only [perform, State.used]
      cases result : ping network host state.table with
      | ok answer table =>
          rw [result, Paid] at called
          simp only
          omega
      | error fault table =>
          rw [result, Paid] at called
          simp only
          omega
  | establishWith accepts =>
      simp only [perform, State.used]
      cases lowest : state.table.lowest with
      | none =>
          have threw : connectTo true accepts state.table = .error .runtimeError state.table := by
            rw [connectTo, get_bind, lowest]
            rfl
          simp [threw]
      | some free =>
          have opened := spent_opens state.table free accepts
          cases accepts with
          | true =>
              have returned : connectTo true true state.table =
                  .ok free.val.val (state.table.opens free true) := by
                rw [connectTo, get_bind, lowest]
                rfl
              simp only [returned]
              omega
          | false =>
              have threw : connectTo true false state.table =
                  .error .runtimeError (state.table.opens free false) := by
                rw [connectTo, get_bind, lowest]
                rfl
              simp only [threw]
              simp at opened ⊢
              omega

theorem run_spends {state final : State limit} {actions : List (Action limit)}
    (ran : (process limit).run state actions = some final) :
    final.used + state.table.spent ≤ state.used + final.table.spent := by
  refine (process limit).run_preserves
    (fun reached => reached.used + state.table.spent ≤ state.used + reached.table.spent)
    ?_ (Nat.le_refl _) ran
  intro reached action next invariant stepped
  cases stepped
  have step := perform_spends reached action
  omega

/-- No descriptor is left when all are lost. -/
theorem lowest_of_lost (table : Table limit) (all : table.lost.card = limit) :
    table.lowest = none := by
  have every : table.lost = Finset.univ := Finset.card_eq_iff_eq_univ table.lost |>.mp
    (by rw [all, Fintype.card_fin])
  cases lowest : table.lowest with
  | none => rfl
  | some free => exact absurd (table.kept (every ▸ Finset.mem_univ free.val)) free.property

/-- In every run in which nobody closes a descriptor of somebody else, the
backends of the checks that return, the pings that return and the connections
that are refused take one descriptor each for good; there are at most `limit` of
them, and after that nothing can be opened. -/
theorem descriptors_run_out {start final : State limit} {actions : List (Action limit)}
    (ran : (process limit).run start actions = some final)
    (owned : final.table.stray = start.table.stray) :
    final.used + start.table.lost.card ≤ start.used + final.table.lost.card ∧
      final.table.lost.card ≤ limit ∧
      (final.table.lost.card = limit → final.table.lowest = none) := by
  have spends := run_spends ran
  rw [Table.spent, Table.spent, owned] at spends
  refine ⟨by omega, ?_, lowest_of_lost final.table⟩
  simpa only [Fintype.card_fin] using Finset.card_le_univ final.table.lost

/-- The standard streams are open. -/
def boot : State 5 := ⟨⟨{0, 1, 2}, ∅, 0, by decide⟩, 0, 0, 0⟩

def answering : Remote 5 := ⟨fun _ => ⟨[], true⟩, fun _ => some 1, fun _ => some [1], []⟩

def watched : LoadBalancer := (LoadBalancer.mk ∅ ∅ [1] [] []).addBackend ⟨['1'], 80⟩ 81

/-- A client comes and goes, a check succeeds, a backend refuses a client, and
the next check finds no descriptor. -/
theorem second_check_starved :
    let actions := [.other .opens, .other (.closes 3),
      .checkAllBackend (fun _ _ => answering) watched, .establishWith false,
      Action.checkAllBackend (fun _ _ => answering) watched]
    ∃ final, (process 5).run boot actions = some final ∧ final.probed = 1 ∧ final.refused = 1 ∧
      final.table.lowest = none ∧ final.used ≤ final.table.lost.card := by
  intro actions
  obtain ⟨final, ran, tested⟩ := (process 5).run_reaches
    (fun final => final.probed = 1 ∧ final.refused = 1 ∧ final.table.lowest = none ∧
      final.table.stray = 0) boot actions (by decide)
  obtain ⟨probed, refused, full, owned⟩ := of_decide_eq_true tested
  have spends := (descriptors_run_out ran owned).1
  have nothing : boot.table.lost.card = 0 ∧ boot.used = 0 := ⟨rfl, rfl⟩
  exact ⟨final, ran, probed, refused, full, by omega⟩

end RProxy.Descriptors
