import RProxy.Attach
import RProxy.Machine

/-!
The traffic counters over registrations and rounds of `updateForForward`. The
sum is modulo 2^64 and nothing looks at a carry: that there is none follows from
the limit, which is half of the range, and from the size of a packet.
-/

namespace RProxy.Attach

open PubSubCenter Traffic

/-- A client that registers is accounted 0. A round that throws is over, too,
and one that is still sending is not. -/
inductive Action where
  | register (addr : InetAddr)
  | round (packet : Packet) (context : UnorderedMap Fd InetAddr) (answers : Answers)

def limiting : Machine State Action where
  step state action :=
    match action with
    | .register addr => some (state.account addr.toString 0)
    | .round packet context answers =>
        match updateForForward answers context.entries { state with packet := packet } with
        | .ok _ next => some next
        | .error (.threw _) next => some next
        | .error .sending _ => none

/-- Each counter is the sum of what was accounted, far below 2^64. -/
structure Exact (state : State) : Prop where
  summed : ∀ addr, counter state.center addr = total addr state.accounts
  fits : ∀ addr, total addr state.accounts ≤ maxTraffic.toNat + Packet.maxPacketSize

def State.forwardsOf (state : State) (addr : List Char) : List Forwarding :=
  state.forwards.filter fun call => call.addr = addr

/-- What is accounted for an address, without the zeros of registrations. -/
def State.charges (state : State) (addr : List Char) : List Account :=
  state.accounts.filter fun call => call.addr = addr ∧ call.traffic ≠ 0

/-- From one state to a later one no counter decreases, and an address that is
over the limit is not forwarded and nothing is accounted for it. -/
structure Onward (state next : State) : Prop where
  grows : ∀ addr traffic, state.center.traffic.lookup addr = some traffic →
    ∃ later, next.center.traffic.lookup addr = some later ∧ traffic ≤ later
  stops : ∀ addr traffic, state.center.traffic.lookup addr = some traffic →
    maxTraffic < traffic →
      next.forwardsOf addr = state.forwardsOf addr ∧ next.charges addr = state.charges addr

def Bounded (state : State) : Prop :=
  ∀ call ∈ state.forwards, call.returned ≤ Packet.maxPacketSize

/-- What holds of a step holds of a run, with the history to tell which calls of
`forward` it is about. -/
structure Carries (state next : State) : Prop where
  history : state.forwards <+: next.forwards
  kept : Bounded next → Exact state → Exact next ∧ Onward state next

section Relations

variable {state middle next : State}

theorem onward_trans (first : Onward state middle) (second : Onward middle next) :
    Onward state next := by
  constructor
  · intro addr traffic known
    obtain ⟨later, there, grown⟩ := first.grows addr traffic known
    obtain ⟨last, final, further⟩ := second.grows addr later there
    exact ⟨last, final, UInt64.le_trans grown further⟩
  · intro addr traffic known above
    obtain ⟨later, there, grown⟩ := first.grows addr traffic known
    obtain ⟨forwards, charges⟩ := first.stops addr traffic known above
    obtain ⟨further, more⟩ := second.stops addr later there (UInt64.lt_of_lt_of_le above grown)
    exact ⟨further.trans forwards, more.trans charges⟩

theorem carries_trans (first : Carries state middle) (second : Carries middle next) :
    Carries state next := by
  constructor
  · exact first.history.trans second.history
  · intro bounded exact
    have earlier : Bounded middle := fun call listed =>
      bounded call (second.history.subset listed)
    obtain ⟨exactMiddle, onward⟩ := first.kept earlier exact
    obtain ⟨exactNext, further⟩ := second.kept bounded exactMiddle
    exact ⟨exactNext, onward_trans onward further⟩

/-- Neither the connections nor the packet matter. -/
theorem carries_of_same (center : next.center = state.center)
    (forwards : next.forwards = state.forwards) (accounts : next.accounts = state.accounts) :
    Carries state next := by
  constructor
  · rw [forwards]
  · intro _ exact
    refine ⟨⟨?_, ?_⟩, ?_, ?_⟩
    · rw [center, accounts]
      exact exact.summed
    · rw [accounts]
      exact exact.fits
    · intro addr traffic known
      exact ⟨traffic, center ▸ known, UInt64.le_refl _⟩
    · intro addr traffic _ _
      simp only [State.forwardsOf, State.charges, forwards, accounts, and_self]

end Relations

section Account

variable {state : State} {addr : List Char} {traffic : UInt64}

theorem total_account (state : State) (addr other : List Char) (traffic : UInt64) :
    total other (state.account addr traffic).accounts =
      total other state.accounts + if addr = other then traffic.toNat else 0 := by
  simp only [State.account, total, amounts, List.filter_append, List.map_append, List.sum_append]
  by_cases same : addr = other <;> simp [same]

theorem charges_account (state : State) (addr other : List Char) (traffic : UInt64) :
    (state.account addr traffic).charges other =
      state.charges other ++ if addr = other ∧ traffic ≠ 0 then [⟨addr, traffic⟩] else [] := by
  simp only [State.account, State.charges, List.filter_append, List.filter_singleton,
    Bool.cond_decide]

/-- What `account` may be called with, so that the sum is exact. -/
def Small (center : PubSubCenter Unit Unit) (addr : List Char) (traffic : UInt64) : Prop :=
  traffic = 0 ∨ ∃ known, center.traffic.lookup addr = some known ∧ known ≤ maxTraffic ∧
    traffic.toNat ≤ Packet.maxPacketSize

theorem small_add {known : UInt64} (small : Small state.center addr traffic)
    (found : state.center.traffic.lookup addr = some known) :
    (known + traffic).toNat = known.toNat + traffic.toNat := by
  have limit : maxTraffic.toNat = 2 ^ 63 - 1 := by decide +kernel
  rcases small with rfl | ⟨other, there, below, few⟩
  · rw [add_zero]
    rfl
  · cases found.symm.trans there
    have bound := UInt64.le_iff_toNat_le.mp below
    rw [Packet.maxPacketSize] at few
    rw [UInt64.toNat_add, Nat.mod_eq_of_lt]
    omega

theorem small_counter (small : Small state.center addr traffic) :
    counter (state.account addr traffic).center addr =
      counter state.center addr + traffic.toNat := by
  simp only [counter, State.account, lookup_account, if_true, Option.getD_some]
  cases found : state.center.traffic.lookup addr with
  | some known => exact small_add small found
  | none =>
      rcases small with rfl | ⟨known, there, _⟩
      · rfl
      · cases found.symm.trans there

theorem account_exact (small : Small state.center addr traffic) (exact : Exact state) :
    Exact (state.account addr traffic) := by
  constructor
  · intro other
    rw [total_account, ← exact.summed]
    by_cases same : addr = other
    · subst same
      rw [small_counter small, if_pos rfl]
    · rw [if_neg same, Nat.add_zero]
      simp only [counter, State.account, lookup_account, if_neg (Ne.symm same)]
  · intro other
    rw [total_account]
    by_cases same : addr = other
    · subst same
      rw [if_pos rfl]
      rcases small with rfl | ⟨known, there, below, few⟩
      · exact exact.fits addr
      · have counted : total addr state.accounts = known.toNat := by
          rw [← exact.summed, counter, there, Option.getD_some]
        have bound := UInt64.le_iff_toNat_le.mp below
        omega
    · rw [if_neg same]
      exact exact.fits other

theorem account_onward (small : Small state.center addr traffic) :
    Onward state (state.account addr traffic) := by
  constructor
  · intro other known found
    simp only [State.account, lookup_account]
    by_cases same : other = addr
    · subst same
      rw [if_pos rfl, found, Option.getD_some]
      refine ⟨known + traffic, rfl, UInt64.le_iff_toNat_le.mpr ?_⟩
      rw [small_add small found]
      exact Nat.le_add_right _ _
    · rw [if_neg same]
      exact ⟨known, found, UInt64.le_refl known⟩
  · intro other known found above
    refine ⟨rfl, ?_⟩
    rw [charges_account, if_neg, List.append_nil]
    rintro ⟨rfl, positive⟩
    obtain ⟨limited, there, below, _⟩ := small.resolve_left positive
    cases found.symm.trans there
    exact absurd above (UInt64.not_lt.mpr below)

theorem account_carries (small : Small state.center addr traffic) :
    Carries state (state.account addr traffic) where
  history := List.prefix_refl _
  kept _ exact := ⟨account_exact small exact, account_onward small⟩

end Account

section Rounds

variable {answers : Answers} {state : State}

/-- An address that passes the limit has a counter, and it is below. -/
theorem unlimited_known {center : PubSubCenter Unit Unit} {addr : List Char}
    (unlimited : ¬ center.isLismited addr = true) :
    ∃ known, center.traffic.lookup addr = some known ∧ known ≤ maxTraffic := by
  cases found : center.traffic.lookup addr with
  | none => exact absurd (limited_unknown found).1 unlimited
  | some known =>
      refine ⟨known, rfl, ?_⟩
      rw [isLismited, trafficOf, found, Option.getD_some, decide_eq_true_iff] at unlimited
      exact UInt64.not_lt.mp unlimited

theorem forwarded_carries {incoming sock : Fd} {addr : List Char} (result : Forwarded)
    (unlimited : ¬ state.center.isLismited addr = true) :
    Carries state (state.forwarded incoming sock addr result) := by
  constructor
  · exact List.prefix_append _ _
  · intro _ exact
    refine ⟨⟨exact.summed, exact.fits⟩, ?_, ?_⟩
    · intro other traffic known
      exact ⟨traffic, known, UInt64.le_refl traffic⟩
    · intro other traffic known above
      have different : addr ≠ other := by
        rintro rfl
        obtain ⟨counted, found, below⟩ := unlimited_known unlimited
        cases known.symm.trans found
        exact absurd above (UInt64.not_lt.mpr below)
      refine ⟨?_, rfl⟩
      simp only [State.forwardsOf, State.forwarded, List.filter_append, List.filter_singleton,
        decide_eq_false different, cond_false, List.append_nil]

theorem charged_carries {addr : List Char} {returned : Int}
    (unlimited : ¬ state.center.isLismited addr = true) (few : returned ≤ Packet.maxPacketSize) :
    Carries state (state.charged addr returned) := by
  rw [State.charged]
  split
  · obtain ⟨known, found, below⟩ := unlimited_known unlimited
    have size : returned.toNat ≤ Packet.maxPacketSize := Int.toNat_le.mpr few
    refine account_carries (Or.inr ⟨known, found, below, ?_⟩)
    rw [UInt64.toNat_ofNat']
    exact Nat.le_trans (Nat.mod_le _ _) size
  · exact carries_of_same rfl rfl rfl

/-- The accounting comes after a `forward` that the history tells the result of. -/
theorem charge_carries {incoming sock : Fd} {addr : List Char} (result : Forwarded)
    (unlimited : ¬ state.center.isLismited addr = true) :
    Carries state ((state.forwarded incoming sock addr result).charged addr result.returned) := by
  have first : Carries state (state.forwarded incoming sock addr result) :=
    forwarded_carries result unlimited
  constructor
  · rw [(charged_keeps _ _ _).2.2]
    exact first.history
  · intro bounded exact
    have few : result.returned ≤ Packet.maxPacketSize := by
      refine bounded ⟨addr, result.returned⟩ ?_
      rw [(charged_keeps _ _ _).2.2]
      exact List.mem_append_right _ List.mem_cons_self
    have second : Carries (state.forwarded incoming sock addr result)
        ((state.forwarded incoming sock addr result).charged addr result.returned) :=
      charged_carries unlimited few
    exact (carries_trans first second).kept bounded exact

theorem pass_carries (state : State) (incoming : Fd) (addr : InetAddr) :
    Carries state (stateOf (pass answers incoming addr state)) := by
  rcases pass_cases answers state incoming addr with ⟨_, threw⟩ | ⟨_, sock, middle, joined, relays⟩
  · rw [threw]
    exact carries_of_same rfl rfl rfl
  · have connected : Carries state middle :=
      carries_of_same joined.center joined.forwards joined.accounts
    rw [relays]
    refine carries_trans connected ?_
    by_cases limited : middle.center.isLismited (answers.key incoming) = true
    · rw [relay_limited joined.found limited]
      exact carries_of_same rfl rfl rfl
    · rw [relay_forwards joined.found limited]
      split
      · exact charge_carries _ limited
      · exact forwarded_carries _ limited

theorem round_carries (answers : Answers) (context : List (Sigma fun _ : Fd => InetAddr))
    (state : State) :
    Carries state (stateOf (updateForForward answers context state)) :=
  loop_carries (fun _ => carries_of_same rfl rfl rfl) carries_trans pass_carries context state

theorem step_carries {next : State} {action : Action}
    (stepped : limiting.step state action = some next) : Carries state next := by
  cases action with
  | register addr =>
      cases stepped
      exact account_carries (Or.inl rfl)
  | round packet context answers =>
      have begun : Carries state { state with packet := packet } := carries_of_same rfl rfl rfl
      have round := carries_trans begun (round_carries answers context.entries _)
      simp only [limiting] at stepped
      split at stepped
      · next returned =>
          cases stepped
          rw [returned] at round
          exact round
      · next threw =>
          cases stepped
          rw [threw] at round
          exact round
      · cases stepped

theorem run_carries {next : State} {actions : List Action}
    (ran : limiting.run state actions = some next) : Carries state next :=
  limiting.run_preserves (Carries state)
    (fun _ _ _ carried stepped => carries_trans carried (step_carries stepped))
    (carries_of_same rfl rfl rfl) ran

end Rounds

/-- A process that has accounted nothing yet. -/
def start (sockMap reversedMap : UnorderedMap Fd Fd) (center : PubSubCenter Unit Unit)
    (packet : Packet) : State :=
  before sockMap reversedMap { center with traffic := ∅ } packet

theorem start_exact (sockMap reversedMap : UnorderedMap Fd Fd) (center : PubSubCenter Unit Unit)
    (packet : Packet) : Exact (start sockMap reversedMap center packet) where
  summed _ := rfl
  fits _ := Nat.zero_le _

/-- Throughout a run the counters are exact, and from any state of it to any
later one they do not decrease and those above the limit are left alone. -/
theorem counters_never_wrap (sockMap reversedMap : UnorderedMap Fd Fd)
    (center : PubSubCenter Unit Unit) (packet : Packet) {first rest : List Action}
    {state final : State}
    (reached : limiting.run (start sockMap reversedMap center packet) first = some state)
    (ran : limiting.run state rest = some final) (bounded : Bounded final) :
    Exact final ∧ Onward state final := by
  have earlier := run_carries reached
  have later := run_carries ran
  have boundedState : Bounded state := fun call listed =>
    bounded call (later.history.subset listed)
  exact later.kept bounded (earlier.kept boundedState (start_exact _ _ _ _)).1

def client : InetAddr := getPeerAddr ⟨(127, 0, 0, 1), 5050⟩

/-- The client registers and one byte of it is forwarded. -/
theorem byte_counted : ∃ state final,
    limiting.run (start ∅ ∅ ⟨∅, ∅, ∅⟩ ⟨fun _ => 0, 0, fun _ => 0⟩) [.register client] =
      some state ∧
    final.forwards = [⟨client.toString, 1⟩] ∧ counter final.center client.toString = 1 ∧
      Exact final ∧ Onward state final := by
  let answers : Answers := ⟨fun _ _ => some 7, fun _ => ⟨(127, 0, 0, 1), 5050⟩,
    fun _ => .data [1] (by decide), fun _ => (some 1, [])⟩
  let context : UnorderedMap Fd InetAddr := (∅ : UnorderedMap Fd InetAddr).insert 5 ⟨['b'], 80⟩
  let packet : Packet := ⟨fun _ => 0, 0, fun _ => 0⟩
  let state := (start ∅ ∅ ⟨∅, ∅, ∅⟩ packet).account client.toString 0
  have reached : limiting.run (start ∅ ∅ ⟨∅, ∅, ∅⟩ packet) [.register client] = some state := rfl
  obtain ⟨final, ran, found⟩ := limiting.run_reaches
    (fun final => final.forwards = [⟨client.toString, 1⟩] ∧
      counter final.center client.toString = 1)
    state [.round packet context answers] (by decide +kernel)
  obtain ⟨forwards, counted⟩ := of_decide_eq_true found
  have bounded : Bounded final := by
    rw [Bounded, forwards]
    decide
  exact ⟨state, final, reached, forwards, counted,
    counters_never_wrap ∅ ∅ ⟨∅, ∅, ∅⟩ packet reached ran bounded⟩

end RProxy.Attach
