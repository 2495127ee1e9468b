import RProxy.HealthCheck
import RProxy.Machine

/-!
The two tables of `LoadBalancer` over a whole run. `removeBackend` leaves the
entry of `checked_` behind, and the check looks every checked key up in
`backend_`.
-/

namespace RProxy.Registry

open LoadBalancer HealthCheck

/-- The loop of `checkAllBackend` with the tables as it leaves them: `at` and
`connectTo` throw before their iteration has erased anything. -/
def checkTables (network : List Char → InetAddr → Attempts) :
    List (Sigma fun _ : List Char => UInt16) → LoadBalancer → LoadBalancer × Option Fault
  | [], loader => (loader, none)
  | entry :: rest, loader =>
      match checkBackend network loader entry.1 entry.2 with
      | .error fault => (loader, some fault)
      | .ok loader => checkTables network rest loader

/-- `given` is the port of the `addBackend` that put a backend into the table;
`faults` are the exceptions that left `checkAllBackend`. -/
structure State where
  loader : LoadBalancer
  given : List Char → Option UInt16
  faults : List Fault

inductive Action where
  | addBackend (addr : InetAddr) (checkPort : UInt16)
  | removeBackend (addr : InetAddr)
  | checkAllBackend (network : List Char → InetAddr → Attempts)

def start (text : List Byte) : State := ⟨⟨∅, ∅, text, [], []⟩, fun _ => none, []⟩

/-- The ports after a call that turned the table `before` into `after`. -/
def record (before after : UnorderedMap (List Char) InetAddr) (port : Option UInt16)
    (given : List Char → Option UInt16) (key : List Char) : Option UInt16 :=
  if key ∈ after then if key ∈ before then given key else port else none

def State.call (state : State) (loader : LoadBalancer) (port : Option UInt16)
    (fault : Option Fault) : State where
  loader := loader
  given := record state.loader.backend loader.backend port state.given
  faults := state.faults ++ fault.toList

def registry : Machine State Action where
  step state action :=
    match action with
    | .addBackend addr checkPort =>
        some (state.call (state.loader.addBackend addr checkPort) checkPort none)
    | .removeBackend addr => some (state.call (state.loader.removeBackend addr) none none)
    | .checkAllBackend network =>
        let checked := checkTables network state.loader.checked.entries state.loader
        some (state.call checked.1 none checked.2)

/-- The tables have the same keys, each with the port it was added with, and
`backend_.at` has not thrown. -/
structure InStep (state : State) : Prop where
  keys : ∀ key, key ∈ state.loader.checked ↔ key ∈ state.loader.backend
  ports : ∀ key ∈ state.loader.backend, state.loader.checked.lookup key = state.given key
  found : .outOfRange ∉ state.faults

/-- `removeBackend` is not called for a backend that is in the table. -/
def Kept (state : State) : Action → Prop
  | .removeBackend addr => addr.toString ∉ state.loader.backend
  | _ => True

theorem check_tables_returns (network : List Char → InetAddr → Attempts)
    (entries : List (Sigma fun _ : List Char => UInt16)) (loader after : LoadBalancer) :
    checkTables network entries loader = (after, none) ↔
      checkEntries network entries loader = .ok after := by
  induction entries generalizing loader with
  | nil => simp [checkTables, checkEntries]
  | cons entry rest ih =>
      cases here : checkBackend network loader entry.1 entry.2 with
      | error fault => simp [checkTables, checkEntries, here]
      | ok middle => simpa [checkTables, checkEntries, here] using ih middle

/-- Nothing the check does changes the loader. -/
theorem check_tables_keeps (network : List Char → InetAddr → Attempts)
    (entries : List (Sigma fun _ : List Char => UInt16)) (loader : LoadBalancer) :
    (checkTables network entries loader).1 = loader := by
  induction entries with
  | nil => rfl
  | cons entry rest ih =>
      cases here : checkBackend network loader entry.1 entry.2 with
      | error fault => simp only [checkTables, here]
      | ok middle =>
          have same := ((check_backend_ok network loader middle entry.1 entry.2).mp here).1
          subst same
          simpa only [checkTables, here] using ih

/-- Only an exception of the loop body ends the loop with an exception. -/
theorem retry_error {Local : Type} {attempt : Nat → Local → Except Fault (Bool × Local)}
    {fault : Fault} {time index : Nat} {vars : Local}
    (threw : retry attempt time index vars = .error fault) :
    ∃ index vars, attempt index vars = .error fault := by
  induction time generalizing index vars with
  | zero => cases threw
  | succ time ih =>
      cases tried : attempt index vars with
      | error other =>
          simp only [retry, tried] at threw
          cases threw
          exact ⟨index, vars, tried⟩
      | ok result =>
          rcases result with ⟨_ | _, next⟩
          · simp only [retry, tried] at threw
            exact ih threw
          · simp only [retry, tried] at threw
            cases threw

theorem check_backend_found (network : List Char → InetAddr → Attempts) (loader : LoadBalancer)
    (key : List Char) (port : UInt16) (present : key ∈ loader.backend) :
    checkBackend network loader key port ≠ .error .outOfRange := by
  intro threw
  obtain ⟨addr, found⟩ := UnorderedMap.lookup_of_mem present
  cases connected : retry (tryConnect (network key ⟨addr.ip, port⟩)) 3 0 0 with
  | ok result =>
      have kept := (check_backend_ok network loader loader key port).mpr
        ⟨rfl, addr, found, (connects_iff _).mp ⟨result, connected⟩⟩
      rw [kept] at threw
      cases threw
  | error fault =>
      simp only [checkBackend, found, connected] at threw
      cases threw
      obtain ⟨index, sock, tried⟩ := retry_error connected
      cases answer : (network key ⟨addr.ip, port⟩).connect index with
      | none => simp only [tryConnect, answer] at tried; cases tried
      | some sock => simp only [tryConnect, answer] at tried; cases tried

theorem check_tables_found (network : List Char → InetAddr → Attempts)
    (entries : List (Sigma fun _ : List Char => UInt16)) (loader : LoadBalancer)
    (present : ∀ entry ∈ entries, entry.1 ∈ loader.backend) :
    (checkTables network entries loader).2 ≠ some .outOfRange := by
  induction entries with
  | nil => simp [checkTables]
  | cons entry rest ih =>
      have found := check_backend_found network loader entry.1 entry.2
        (present entry List.mem_cons_self)
      cases here : checkBackend network loader entry.1 entry.2 with
      | error fault =>
          intro threw
          simp only [checkTables, here, Option.some.injEq] at threw
          exact found (threw ▸ here)
      | ok middle =>
          have same := ((check_backend_ok network loader middle entry.1 entry.2).mp here).1
          subst same
          simp only [checkTables, here]
          exact ih fun entry listed => present entry (List.mem_cons_of_mem _ listed)

theorem start_in_step (text : List Byte) : InStep (start text) :=
  ⟨fun _ => Iff.rfl, fun _ absent => absurd absent (by simp [start]), by simp [start]⟩

theorem add_in_step (state : State) (inStep : InStep state) (addr : InetAddr)
    (checkPort : UInt16) :
    InStep (state.call (state.loader.addBackend addr checkPort) checkPort none) := by
  constructor
  · intro key
    simp only [State.call, addBackend, UnorderedMap.mem_emplace, inStep.keys]
  · intro key present
    have recorded : (state.call (state.loader.addBackend addr checkPort) checkPort none).given key =
        if key ∈ state.loader.backend then state.given key else some checkPort := if_pos present
    have checked : (state.call (state.loader.addBackend addr checkPort) checkPort
          none).loader.checked.lookup key =
        if key = addr.toString then some ((state.loader.checked.lookup addr.toString).getD checkPort)
        else state.loader.checked.lookup key := UnorderedMap.lookup_emplace _ _ _ _
    rw [recorded, checked]
    by_cases known : key ∈ state.loader.backend
    · rw [if_pos known, ← inStep.ports key known]
      by_cases same : key = addr.toString
      · subst same
        obtain ⟨stored, found⟩ := UnorderedMap.lookup_of_mem ((inStep.keys _).mpr known)
        simp [found]
      · rw [if_neg same]
    · have same : key = addr.toString := by
        rcases (UnorderedMap.mem_emplace _ _ _ _).mp present with same | old
        · exact same
        · exact absurd old known
      subst same
      have fresh := AList.lookup_eq_none.mpr (mt (inStep.keys _).mp known)
      rw [if_pos rfl, if_neg known, fresh, Option.getD_none]
  · simpa [State.call] using inStep.found

theorem remove_absent_in_step (state : State) (inStep : InStep state) (addr : InetAddr)
    (absent : addr.toString ∉ state.loader.backend) :
    InStep (state.call (state.loader.removeBackend addr) none none) := by
  have mem : ∀ key, key ∈ state.loader.backend.erase addr.toString ↔ key ∈ state.loader.backend := by
    intro key
    rw [AList.mem_erase, and_iff_right_iff_imp]
    rintro present rfl
    exact absent present
  constructor
  · intro key
    simp only [State.call, removeBackend, mem, inStep.keys]
  · intro key present
    have known := (mem key).mp present
    simpa [State.call, removeBackend, record, mem, known] using inStep.ports key known
  · simpa [State.call] using inStep.found

theorem check_in_step (state : State) (inStep : InStep state)
    (network : List Char → InetAddr → Attempts) :
    InStep (state.call (checkTables network state.loader.checked.entries state.loader).1 none
      (checkTables network state.loader.checked.entries state.loader).2) := by
  have same := check_tables_keeps network state.loader.checked.entries state.loader
  have found := check_tables_found network state.loader.checked.entries state.loader
    (fun entry listed => (inStep.keys entry.1).mp
      (UnorderedMap.mem_of_lookup (AList.mem_lookup_iff.mpr listed)))
  constructor
  · simpa only [State.call, same] using inStep.keys
  · intro key present
    simp only [State.call, same] at present
    simpa [State.call, same, record, present] using inStep.ports key present
  · intro threw
    rcases List.mem_append.mp threw with earlier | now
    · exact inStep.found earlier
    · exact found (Option.mem_toList.mp now)

theorem step_in_step (state : State) (action : Action) (next : State) (inStep : InStep state)
    (kept : Kept state action) (stepped : registry.step state action = some next) :
    InStep next := by
  cases action with
  | addBackend addr checkPort => cases stepped; exact add_in_step state inStep addr checkPort
  | removeBackend addr => cases stepped; exact remove_absent_in_step state inStep addr kept
  | checkAllBackend network => cases stepped; exact check_in_step state inStep network

/-- The entry of `checked_` outlives the backend. -/
theorem kept_of_in_step (state : State) (action : Action) (next : State) (inStep : InStep state)
    (stepped : registry.step state action = some next) (after : InStep next) :
    Kept state action := by
  cases action with
  | addBackend addr checkPort => trivial
  | checkAllBackend network => trivial
  | removeBackend addr =>
      cases stepped
      intro present
      have listed := (inStep.keys addr.toString).mpr present
      have gone := (after.keys addr.toString).mp listed
      simp [State.call, removeBackend] at gone

theorem registry_total (state : State) (action : Action) :
    registry.step state action ≠ none := by
  cases action <;> exact Option.some_ne_none _

/-- The tables stay in step over a run exactly when no call removes a backend. -/
theorem tables_in_step_iff (text : List Byte) (actions : List Action) :
    registry.Always InStep (start text) actions ↔ registry.Meets Kept (start text) actions :=
  registry.always_iff_meets step_in_step (fun _ inStep => inStep) kept_of_in_step
    (fun state action _ refused => absurd refused (registry_total state action))
    (start_in_step text) actions

/-- A backend is added and removed, and the next health check throws. -/
theorem removed_backend_throws :
    ¬ ∀ text actions, registry.Always InStep (start text) actions := by
  intro claim
  let addr : InetAddr := ⟨['1', '0', '.', '0', '.', '0', '.', '1'], 80⟩
  let silent : List Char → InetAddr → Attempts := fun _ _ =>
    ⟨fun _ => none, fun _ => none, fun _ => none, []⟩
  let actions : List Action := [.addBackend addr 81, .removeBackend addr, .checkAllBackend silent]
  obtain ⟨final, ran, threw⟩ := registry.run_reaches
    (fun state => decide (Fault.outOfRange ∈ state.faults)) (start []) actions (by decide +kernel)
  have inStep := registry.always_final (claim [] actions) ran
  exact inStep.found (of_decide_eq_true threw)

end RProxy.Registry
