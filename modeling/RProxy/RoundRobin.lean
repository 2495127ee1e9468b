import RProxy.Registry

/-!
`LoadBalancer::balancing` over the batches of a whole run. Each call starts
again at `backend_.begin()`, so what one batch leaves uneven the next one does
not make up for.
-/

namespace RProxy.RoundRobin

open LoadBalancer Registry

abbrev Table := List (Sigma fun _ : List Char => InetAddr)

/-- How many sockets one call assigns to a backend. -/
def share (sockMap : UnorderedMap Fd InetAddr) (addr : InetAddr) : Nat :=
  sockMap.entries.countP fun entry => decide (entry.2 = addr)

def total (assigned : List (UnorderedMap Fd InetAddr)) (addr : InetAddr) : Nat :=
  (assigned.map (share · addr)).sum

/-- The batches handed to `balancing` one after another; the state is what it
has assigned so far. -/
def rounds (loader : LoadBalancer) : Machine (List (UnorderedMap Fd InetAddr)) (List Fd) where
  step assigned sockes := (loader.balancing sockes).map fun sockMap => assigned ++ [sockMap]

def Even (loader : LoadBalancer) (assigned : List (UnorderedMap Fd InetAddr)) : Prop :=
  ∀ key other addr otherAddr, loader.backend.lookup key = some addr →
    loader.backend.lookup other = some otherAddr →
      total assigned addr ≤ total assigned otherAddr + 1

/-- Each backend is stored under its own text. -/
def Named (loader : LoadBalancer) : Prop :=
  ∀ key addr, loader.backend.lookup key = some addr → addr.toString = key

/-- A backend that is in the table after a call was there before it, or is the
one that the call added. -/
theorem registry_found {state next : State} {action : Action} {key : List Char} {addr : InetAddr}
    (stepped : registry.step state action = some next)
    (found : next.loader.backend.lookup key = some addr) :
    state.loader.backend.lookup key = some addr ∨
      addr.toString = key ∧ ∃ checkPort, action = .addBackend addr checkPort := by
  cases action with
  | addBackend added checkPort =>
      cases stepped
      simp only [State.call, addBackend, UnorderedMap.lookup_emplace] at found
      split at found
      · next same =>
          cases known : state.loader.backend.lookup added.toString with
          | none =>
              rw [known] at found
              cases found
              exact Or.inr ⟨same.symm, checkPort, rfl⟩
          | some stored =>
              rw [known] at found
              exact Or.inl (by rw [same, known]; exact found)
      · exact Or.inl found
  | removeBackend removed =>
      cases stepped
      exact Or.inl (UnorderedMap.lookup_of_erase found)
  | checkAllBackend network =>
      cases stepped
      simp only [State.call, check_tables_keeps] at found
      exact Or.inl found

theorem registry_named (state : State) (action : Action) (next : State)
    (named : Named state.loader) (stepped : registry.step state action = some next) :
    Named next.loader := by
  intro key addr found
  rcases registry_found stepped found with before | ⟨added, _⟩
  · exact named key addr before
  · exact added

theorem registry_reaches_named {text : List Byte} {calls : List Action} {state : State}
    (built : registry.run (start text) calls = some state) : Named state.loader :=
  registry.run_preserves (fun state => Named state.loader) registry_named
    (fun _ _ found => by simp [start] at found) built

/-- The backends of the table, in the order of the iteration, are distinct. -/
theorem named_nodup {loader : LoadBalancer} (named : Named loader) :
    (loader.backend.entries.map Sigma.snd).Nodup := by
  have keyed : loader.backend.entries.map Sigma.fst =
      (loader.backend.entries.map Sigma.snd).map InetAddr.toString := by
    rw [List.map_map]
    apply List.map_congr_left
    intro entry listed
    exact (named entry.1 entry.2 (AList.mem_lookup_iff.mpr listed)).symm
  have keys : (loader.backend.entries.map Sigma.fst).Nodup := loader.backend.nodupKeys
  rw [keyed] at keys
  exact keys.of_map

theorem share_emplace_fresh (sockMap : UnorderedMap Fd InetAddr) (sock : Fd)
    (fresh : sock ∉ sockMap) (addr other : InetAddr) :
    share (sockMap.emplace sock addr) other =
      share sockMap other + if addr = other then 1 else 0 := by
  have entries : (sockMap.emplace sock addr).entries = ⟨sock, addr⟩ :: sockMap.entries := by
    rw [UnorderedMap.emplace, if_neg fresh, AList.entries_insert_of_notMem fresh]
  rw [share, entries, List.countP_cons, share]
  simp only [decide_eq_true_eq]

/-- The iterator after `++iter` and the test against `backend_.end()`. -/
theorem next_iter (table : Table) (p : Nat) (inside : p < table.length) :
    (if (table.drop (p + 1)).isEmpty then table else table.drop (p + 1)) =
      table.drop ((p + 1) % table.length) := by
  by_cases last : p + 1 = table.length
  · simp [last]
  · have more : p + 1 < table.length := by omega
    have rest : (table.drop (p + 1)).isEmpty = false := by simp; omega
    rw [rest, Nat.mod_eq_of_lt more]
    rfl

/-- From position `p` on, socket `j` of the batch gets backend `(p + j) % n`. -/
theorem share_balancing_from (table : Table) (distinct : (table.map Sigma.snd).Nodup)
    (i : Nat) (backend : i < table.length) (p : Nat) (inside : p < table.length)
    (sockes : List Fd) (fresh : sockes.Nodup) (sockMap : UnorderedMap Fd InetAddr)
    (unassigned : ∀ sock ∈ sockes, sock ∉ sockMap) (result : UnorderedMap Fd InetAddr)
    (assigned : balancingFrom table (table.drop p) sockes sockMap = some result) :
    share result table[i].2 =
      share sockMap table[i].2 + sockes.length.count fun j => (p + j) % table.length = i := by
  induction sockes generalizing p sockMap with
  | nil =>
      simp only [balancingFrom, Option.some.injEq] at assigned
      simp [assigned]
  | cons sock rest ih =>
      rw [List.drop_eq_getElem_cons inside, balancingFrom, next_iter table p inside] at assigned
      have wraps : (p + 1) % table.length < table.length := Nat.mod_lt _ (by omega)
      have outside : sock ∉ sockMap := unassigned sock List.mem_cons_self
      have others : ∀ other ∈ rest, other ∉ sockMap.emplace sock table[p].2 := by
        intro other listed member
        rcases (UnorderedMap.mem_emplace _ _ _ _).mp member with same | old
        · exact (List.nodup_cons.mp fresh).1 (same ▸ listed)
        · exact unassigned other (List.mem_cons_of_mem _ listed) old
      have shifted : ∀ j, ((p + 1) % table.length + j) % table.length = i ↔
          (p + (j + 1)) % table.length = i := by
        intro j
        rw [Nat.mod_add_mod, Nat.add_right_comm, Nat.add_assoc]
      have same : table[p].2 = table[i].2 ↔ (p + 0) % table.length = i := by
        have first : p < (table.map Sigma.snd).length := by simpa using inside
        have second : i < (table.map Sigma.snd).length := by simpa using backend
        have injective : (table.map Sigma.snd)[p] = (table.map Sigma.snd)[i] ↔ p = i :=
          distinct.getElem_inj_iff
        rw [List.getElem_map, List.getElem_map] at injective
        rw [injective, Nat.add_zero, Nat.mod_eq_of_lt inside]
      rw [ih _ wraps (List.nodup_cons.mp fresh).2 _ others assigned,
        share_emplace_fresh sockMap sock outside, List.length_cons, Nat.count_succ']
      simp only [shifted, same]
      omega

theorem share_balancing (loader : LoadBalancer) (named : Named loader) (i : Nat)
    (backend : i < loader.backend.entries.length) (sockes : List Fd) (fresh : sockes.Nodup)
    (result : UnorderedMap Fd InetAddr) (assigned : loader.balancing sockes = some result) :
    share result loader.backend.entries[i].2 = sockes.length / loader.backend.entries.length +
      if i < sockes.length % loader.backend.entries.length then 1 else 0 := by
  have started := share_balancing_from loader.backend.entries (named_nodup named) i backend 0
    (by omega) sockes fresh ∅ (by simp) result assigned
  have counted := Nat.count_modEq_card sockes.length (Nat.zero_lt_of_lt backend) i
  simp only [Nat.ModEq, Nat.mod_eq_of_lt backend] at counted
  simpa [share, counted] using started

/-- The batches after which the backends are not level. -/
def uneven (n : Nat) (batches : List (List Fd)) : Nat :=
  batches.countP fun sockes => decide (¬ n ∣ sockes.length)

/-- What has been assigned after some batches: everything but the remainders is
shared, and backend `i` is one ahead for each remainder that reaches it. -/
def Tallied (loader : LoadBalancer) (batches : List (List Fd))
    (assigned : List (UnorderedMap Fd InetAddr)) : Prop :=
  ∀ i, (backend : i < loader.backend.entries.length) →
    total assigned loader.backend.entries[i].2 =
      (batches.map fun sockes => sockes.length / loader.backend.entries.length).sum +
        batches.countP fun sockes => decide (i < sockes.length % loader.backend.entries.length)

theorem tallied_nil (loader : LoadBalancer) : Tallied loader [] [] := by
  intro i _
  rfl

theorem tallied_append {loader : LoadBalancer} (named : Named loader)
    {batches : List (List Fd)} {assigned : List (UnorderedMap Fd InetAddr)}
    (tallied : Tallied loader batches assigned) {sockes : List Fd} (fresh : sockes.Nodup)
    {result : UnorderedMap Fd InetAddr} (balanced : loader.balancing sockes = some result) :
    Tallied loader (batches ++ [sockes]) (assigned ++ [result]) := by
  intro i backend
  have here := share_balancing loader named i backend sockes fresh result balanced
  have earlier := tallied i backend
  simp only [total, List.map_append, List.sum_append, List.map_cons, List.map_nil, List.sum_cons,
    List.sum_nil, List.countP_append, List.countP_singleton, decide_eq_true_eq] at earlier ⊢
  omega

section Remainders

variable (n : Nat) (batches : List (List Fd))

theorem remainders_le (i : Nat) :
    (batches.countP fun sockes => decide (i < sockes.length % n)) ≤ uneven n batches := by
  apply List.countP_mono_left
  intro sockes _ remainder
  rw [decide_eq_true_eq, Nat.dvd_iff_mod_eq_zero]
  have := of_decide_eq_true remainder
  omega

/-- Every remainder reaches the first backend. -/
theorem remainders_first :
    (batches.countP fun sockes => decide (0 < sockes.length % n)) = uneven n batches := by
  simp only [uneven, Nat.dvd_iff_mod_eq_zero, Nat.pos_iff_ne_zero]

/-- None reaches the last one. -/
theorem remainders_last (positive : 0 < n) :
    (batches.countP fun sockes => decide (n - 1 < sockes.length % n)) = 0 := by
  rw [List.countP_eq_zero]
  intro sockes _ past
  have below := Nat.mod_lt sockes.length positive
  have := of_decide_eq_true past
  omega

end Remainders

theorem even_iff_of_tallied {loader : LoadBalancer} (nonempty : loader.backend.entries ≠ [])
    {batches : List (List Fd)} {assigned : List (UnorderedMap Fd InetAddr)}
    (tallied : Tallied loader batches assigned) :
    Even loader assigned ↔ loader.backend.entries.length = 1 ∨
      uneven loader.backend.entries.length batches ≤ 1 := by
  have positive := List.length_pos_iff.mpr nonempty
  have stored (i : Nat) (backend : i < loader.backend.entries.length) :
      loader.backend.lookup loader.backend.entries[i].1 = some loader.backend.entries[i].2 :=
    AList.mem_lookup_iff.mpr (List.getElem_mem backend)
  constructor
  · intro even
    by_cases single : loader.backend.entries.length = 1
    · exact Or.inl single
    · right
      have ahead := even _ _ _ _ (stored 0 positive)
        (stored (loader.backend.entries.length - 1) (by omega))
      rw [tallied 0 positive, tallied _ (by omega)] at ahead
      rw [remainders_first, remainders_last _ batches positive] at ahead
      omega
  · rintro level key other addr otherAddr found otherFound
    obtain ⟨i, backend, here⟩ := List.getElem_of_mem (AList.mem_lookup_iff.mp found)
    obtain ⟨j, otherBackend, there⟩ := List.getElem_of_mem (AList.mem_lookup_iff.mp otherFound)
    have first := tallied i backend
    have second := tallied j otherBackend
    rw [here] at first
    rw [there] at second
    rcases level with single | rare
    · have same : i = j := by omega
      subst same
      rw [here] at there
      cases there
      omega
    · have reached := remainders_le loader.backend.entries.length batches i
      simp only at first second
      omega

theorem uneven_append (n : Nat) (first second : List (List Fd)) :
    uneven n (first ++ second) = uneven n first + uneven n second := by
  simp only [uneven, List.countP_append]

theorem rounds_even_iff {loader : LoadBalancer} (named : Named loader)
    (nonempty : loader.backend.entries ≠ []) (earlier batches : List (List Fd))
    (distinct : ∀ sockes ∈ batches, sockes.Nodup) (assigned : List (UnorderedMap Fd InetAddr))
    (tallied : Tallied loader earlier assigned) :
    (rounds loader).Always (Even loader) assigned batches ↔ loader.backend.entries.length = 1 ∨
      uneven loader.backend.entries.length (earlier ++ batches) ≤ 1 := by
  induction batches generalizing earlier assigned with
  | nil => simpa [Machine.Always] using even_iff_of_tallied nonempty tallied
  | cons sockes rest ih =>
      obtain ⟨result, balanced, -⟩ := loader.balancing_keys nonempty sockes
      have stepped : (rounds loader).step assigned sockes = some (assigned ++ [result]) := by
        simp [rounds, balanced]
      have next := tallied_append named tallied (distinct sockes List.mem_cons_self) balanced
      have later := ih (earlier ++ [sockes])
        (fun other listed => distinct other (List.mem_cons_of_mem _ listed))
        (assigned ++ [result]) next
      rw [(rounds loader).always_cons stepped, later, even_iff_of_tallied nonempty tallied]
      have split : uneven loader.backend.entries.length (earlier ++ [sockes] ++ rest) =
          uneven loader.backend.entries.length (earlier ++ sockes :: rest) := by simp
      rw [split]
      have more := uneven_append loader.backend.entries.length earlier (sockes :: rest)
      omega

/-- The batches are shared evenly throughout exactly with a single backend, or
where at most one batch is not a multiple of the number of backends. -/
theorem even_throughout_iff (text : List Byte) (calls : List Action) (state : State)
    (built : registry.run (start text) calls = some state)
    (nonempty : state.loader.backend.entries ≠ []) (batches : List (List Fd))
    (distinct : ∀ sockes ∈ batches, sockes.Nodup) :
    (rounds state.loader).Always (Even state.loader) [] batches ↔
      state.loader.backend.entries.length = 1 ∨
        uneven state.loader.backend.entries.length batches ≤ 1 := by
  have named := registry_reaches_named built
  simpa using rounds_even_iff named nonempty [] batches distinct [] (tallied_nil state.loader)

def firstAddr : InetAddr := ⟨['1', '0', '.', '0', '.', '0', '.', '1'], 80⟩
def secondAddr : InetAddr := ⟨['1', '0', '.', '0', '.', '0', '.', '2'], 80⟩

def twoBackends : State :=
  ((start []).call ((start []).loader.addBackend firstAddr 81) (some 81) none).call
    (((start []).loader.addBackend firstAddr 81).addBackend secondAddr 81) (some 81) none

theorem two_backends_even : (rounds twoBackends.loader).Always (Even twoBackends.loader) []
    [[5, 6], [7], [8, 9, 10, 11]] :=
  (even_throughout_iff [] [.addBackend firstAddr 81, .addBackend secondAddr 81] twoBackends rfl
    (by decide +kernel) [[5, 6], [7], [8, 9, 10, 11]] (by decide)).mpr (by decide +kernel)

/-- Two clients that arrive one after the other get the same backend. -/
theorem single_sockets_not_even : ¬ ∀ text calls state,
    registry.run (start text) calls = some state → state.loader.backend.entries ≠ [] →
      ∀ batches : List (List Fd), (∀ sockes ∈ batches, sockes.Nodup) →
        (rounds state.loader).Always (Even state.loader) [] batches := by
  intro claim
  have always := claim [] [.addBackend firstAddr 81, .addBackend secondAddr 81] twoBackends rfl
    (by decide +kernel) [[5], [6]] (by decide)
  have named : Named twoBackends.loader := registry_reaches_named
    (show registry.run (start []) [.addBackend firstAddr 81, .addBackend secondAddr 81] =
      some twoBackends from rfl)
  have level := (rounds_even_iff named (by decide +kernel) [] [[5], [6]] (by decide) []
    (tallied_nil twoBackends.loader)).mp always
  revert level
  decide +kernel

/-- `sockMap` gives each socket of the batch a backend of the table, or nobody
one where the table is empty. -/
structure Registered (loader : LoadBalancer) (sockes : List Fd)
    (sockMap : UnorderedMap Fd InetAddr) : Prop where
  sockets : ∀ fd, fd ∈ sockMap ↔ fd ∈ sockes ∧ loader.backend.entries ≠ []
  backends : ∀ fd addr, sockMap.lookup fd = some addr →
    ∃ key, loader.backend.lookup key = some addr

/-- The end iterator is read for the first socket of a batch without backends,
and only then. -/
theorem balancing_registered_iff (loader : LoadBalancer) (sockes : List Fd) :
    (∃ sockMap, loader.balancing sockes = some sockMap ∧ Registered loader sockes sockMap) ↔
      loader.backend.entries ≠ [] ∨ sockes = [] := by
  constructor
  · rintro ⟨sockMap, assigned, -⟩
    by_cases empty : loader.backend.entries = []
    · right
      cases sockes with
      | nil => rfl
      | cons sock rest =>
          rw [balancing, empty] at assigned
          cases assigned
    · exact Or.inl empty
  · rintro (nonempty | rfl)
    · obtain ⟨sockMap, assigned, keys⟩ := loader.balancing_keys nonempty sockes
      refine ⟨sockMap, assigned, ?_, ?_⟩
      · intro fd
        rw [keys, and_iff_left nonempty]
      · intro fd addr found
        exact balancing_registered assigned found
    · have none : loader.balancing [] = some ∅ := by simp [balancing, balancingFrom]
      refine ⟨∅, none, ?_, ?_⟩
      · intro fd
        simp
      · intro fd addr found
        cases found

/-- The only backend is removed before the next batch. -/
theorem last_backend_removed_undefined : ¬ ∀ text calls state,
    registry.run (start text) calls = some state → ∀ sockes, ∃ sockMap,
      state.loader.balancing sockes = some sockMap ∧ Registered state.loader sockes sockMap := by
  intro claim
  obtain ⟨final, ran, undefined⟩ := registry.run_reaches
    (fun state => decide (state.loader.balancing [5] = none)) (start [])
    [.addBackend firstAddr 81, .removeBackend firstAddr] (by decide +kernel)
  obtain ⟨sockMap, assigned, -⟩ := claim [] _ final ran [5]
  rw [of_decide_eq_true undefined] at assigned
  cases assigned

end RProxy.RoundRobin
