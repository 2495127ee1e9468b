import RProxy.LoadBalancer

/-!
What README feature 3 asks of `checkAllBackend` and what the code does: the
three exit tests look for a negative counter or descriptor, which the loops
never leave behind, and a failed connect arrives as an exception.
-/

namespace RProxy.HealthCheck

open LoadBalancer

/-- Within three attempts each: a connection, the whole text written, and
exactly the text received. -/
def Healthy (text : List Byte) (attempts : Attempts) : Prop :=
  (∃ k < 3, (attempts.connect k).isSome) ∧ (∃ k < 3, attempts.write k = some text.length) ∧
    ∃ k < 3, attempts.recv k = some text

/-- The backend under `key` answers the check on its own port. -/
def Answers (loader : LoadBalancer) (network : List Char → InetAddr → Attempts)
    (key : List Char) : Prop :=
  ∃ addr ∈ loader.backend.lookup key, ∃ port ∈ loader.checked.lookup key,
    Healthy loader.text (network key ⟨addr.ip, port⟩)

def MeetsFeature (loader : LoadBalancer) (network : List Char → InetAddr → Attempts) : Prop :=
  ∃ after, loader.checkAllBackend network = .ok after ∧
    ∀ key, key ∈ after.backend ↔ key ∈ loader.backend ∧ Answers loader network key

-- Descriptor 0 does not end the loop, so the next attempt has to connect too.
/-- No attempt to connect that the check makes fails. -/
def ConnectsThroughout (attempts : Attempts) : Prop :=
  ∀ k < 3, (∀ j < k, attempts.connect j = some 0) → (attempts.connect k).isSome

section Retry
variable {Local : Type} (attempt : Nat → Local → Except Fault (Bool × Local))

theorem retry_returns (returns : ∀ index vars, ∃ result, attempt index vars = .ok result)
    (time index : Nat) (vars : Local) : ∃ result, retry attempt time index vars = .ok result := by
  induction time generalizing index vars with
  | zero => exact ⟨_, rfl⟩
  | succ time ih =>
      obtain ⟨⟨stop, next⟩, tried⟩ := returns index vars
      simp only [retry, tried]
      cases stop with
      | true => exact ⟨_, rfl⟩
      | false => exact ih (index + 1) next

end Retry

/-- The attempts from `index` on: the first one, and the others where it got
descriptor 0. -/
theorem attempts_succ (found : Nat → Option Nat) (time index : Nat) :
    (∀ k < time + 1, (∀ j < k, found (index + j) = some 0) → (found (index + k)).isSome) ↔
      (found index).isSome ∧ (found index = some 0 →
        ∀ k < time, (∀ j < k, found (index + 1 + j) = some 0) →
          (found (index + 1 + k)).isSome) := by
  simp only [Nat.forall_lt_succ_left, Nat.add_zero, Nat.add_assoc, Nat.add_comm 1,
    Nat.not_lt_zero, false_implies, implies_true, true_implies]
  constructor
  · rintro ⟨first, later⟩
    exact ⟨first, fun zeroth k bound earlier => later k bound ⟨zeroth, earlier⟩⟩
  · rintro ⟨first, later⟩
    exact ⟨first, fun k bound earlier => later earlier.1 k bound earlier.2⟩

theorem retry_connect_iff (attempts : Attempts) (time index : Nat) (sock : Fd) :
    (∃ result, retry (tryConnect attempts) time index sock = .ok result) ↔
      ∀ k < time, (∀ j < k, attempts.connect (index + j) = some 0) →
        (attempts.connect (index + k)).isSome := by
  induction time generalizing index sock with
  | zero =>
      constructor
      · intro _ k bound
        exact absurd bound (Nat.not_lt_zero k)
      · intro _
        exact ⟨_, rfl⟩
  | succ time ih =>
      rw [attempts_succ]
      cases tried : attempts.connect index with
      | none => simp [retry, tryConnect, tried]
      | some found =>
          cases found with
          | zero =>
              simp only [retry, tryConnect, tried, Nat.lt_irrefl, decide_false, ih]
              simp
          -- a connection on a descriptor above 0 ends the loop
          | succ n => simp [retry, tryConnect, tried]

theorem connects_iff (attempts : Attempts) :
    (∃ result, retry (tryConnect attempts) 3 0 0 = .ok result) ↔ ConnectsThroughout attempts := by
  simpa only [ConnectsThroughout, Nat.zero_add] using retry_connect_iff attempts 3 0 0

/-- A backend whose check returns is kept, whatever was written or received. -/
theorem check_backend_ok (network : List Char → InetAddr → Attempts) (loader after : LoadBalancer)
    (key : List Char) (port : UInt16) :
    checkBackend network loader key port = .ok after ↔
      after = loader ∧ ∃ addr ∈ loader.backend.lookup key,
        ConnectsThroughout (network key ⟨addr.ip, port⟩) := by
  cases found : loader.backend.lookup key with
  | none => simp [checkBackend, found]
  | some addr =>
      -- so the three tests for a negative number are never true
      have nonneg (n : Nat) : ¬ (n : Int) < 0 := by omega
      obtain ⟨⟨_, _⟩, wrote⟩ := retry_returns
        (tryWrite (network key ⟨addr.ip, port⟩) loader.text.length) (fun _ _ => ⟨_, rfl⟩) 3 0 ()
      obtain ⟨⟨_, _⟩, received⟩ := retry_returns
        (tryRecv (network key ⟨addr.ip, port⟩) loader.text) (fun _ _ => ⟨_, rfl⟩) 3 0
        (network key ⟨addr.ip, port⟩).buf
      have connects := connects_iff (network key ⟨addr.ip, port⟩)
      cases connected : retry (tryConnect (network key ⟨addr.ip, port⟩)) 3 0 0 with
      | error fault =>
          have fails : ¬ ConnectsThroughout (network key ⟨addr.ip, port⟩) := by
            rw [← connects, connected]
            rintro ⟨_, wrong⟩
            cases wrong
          simp [checkBackend, found, connected, fails]
      | ok result =>
          have holds : ConnectsThroughout (network key ⟨addr.ip, port⟩) :=
            connects.mp ⟨result, connected⟩
          simp [checkBackend, found, connected, wrote, received, nonneg, holds, eq_comm]

theorem check_entries_ok (network : List Char → InetAddr → Attempts)
    (entries : List (Sigma fun _ : List Char => UInt16)) (loader after : LoadBalancer) :
    checkEntries network entries loader = .ok after ↔
      after = loader ∧ ∀ entry ∈ entries, ∃ addr ∈ loader.backend.lookup entry.1,
        ConnectsThroughout (network entry.1 ⟨addr.ip, entry.2⟩) := by
  induction entries with
  | nil => simp [checkEntries, eq_comm]
  | cons entry rest ih =>
      cases here : checkBackend network loader entry.1 entry.2 with
      | error fault =>
          have fails : ¬ ∃ addr ∈ loader.backend.lookup entry.1,
              ConnectsThroughout (network entry.1 ⟨addr.ip, entry.2⟩) := by
            intro holds
            have returns := (check_backend_ok network loader loader entry.1 entry.2).mpr ⟨rfl, holds⟩
            rw [here] at returns
            cases returns
          simp only [checkEntries, here, List.forall_mem_cons, fails, false_and, and_false,
            reduceCtorEq]
      | ok middle =>
          obtain ⟨rfl, holds⟩ := (check_backend_ok network loader middle entry.1 entry.2).mp here
          simp only [checkEntries, here, ih, List.forall_mem_cons, holds, true_and]

theorem check_all_backend_ok (loader after : LoadBalancer)
    (network : List Char → InetAddr → Attempts) :
    loader.checkAllBackend network = .ok after ↔
      after = loader ∧ ∀ key, ∀ port ∈ loader.checked.lookup key,
        ∃ addr ∈ loader.backend.lookup key, ConnectsThroughout (network key ⟨addr.ip, port⟩) := by
  rw [checkAllBackend, check_entries_ok]
  refine and_congr_right fun _ => ⟨fun all key port listed => ?_, fun all entry listed => ?_⟩
  · exact all ⟨key, port⟩ (AList.mem_lookup_iff.mp listed)
  · exact all entry.1 entry.2 (AList.mem_lookup_iff.mpr listed)

/-- The check does what the feature asks exactly on tables whose checked keys
are all backends, where no connect fails and every backend answers. -/
theorem check_meets_feature_iff (loader : LoadBalancer)
    (network : List Char → InetAddr → Attempts) :
    MeetsFeature loader network ↔
      (∀ key, ∀ port ∈ loader.checked.lookup key,
        ∃ addr ∈ loader.backend.lookup key, ConnectsThroughout (network key ⟨addr.ip, port⟩)) ∧
      ∀ key ∈ loader.backend, Answers loader network key := by
  constructor
  · rintro ⟨after, returned, kept⟩
    obtain ⟨rfl, connects⟩ := (check_all_backend_ok loader after network).mp returned
    exact ⟨connects, fun key present => ((kept key).mp present).2⟩
  · rintro ⟨connects, answers⟩
    refine ⟨loader, (check_all_backend_ok loader loader network).mpr ⟨rfl, connects⟩, ?_⟩
    intro key
    exact ⟨fun present => ⟨present, answers key present⟩, And.left⟩

/-- A backend that refuses the connection: the exception of `connectTo` leaves
`checkAllBackend`. -/
theorem refused_connection_not_feature : ¬ ∀ loader network, MeetsFeature loader network := by
  intro claim
  let addr : InetAddr := ⟨['1', '0', '.', '0', '.', '0', '.', '1'], 80⟩
  let loader := (LoadBalancer.mk ∅ ∅ [1] [] []).addBackend addr 81
  let down : List Char → InetAddr → Attempts := fun _ _ => ⟨fun _ => none, fun _ => none,
    fun _ => none, []⟩
  obtain ⟨after, returned, _⟩ := claim loader down
  have throws : (loader.checkAllBackend down).isOk = false := by decide
  rw [returned] at throws
  cases throws

end RProxy.HealthCheck
