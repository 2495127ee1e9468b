import RProxy.Wiring

/-!
The traffic counters of `PubSubCenter` over a history of `account` calls, and
the clients that `updateForForward` turns away because of them. The first amount
of an address is stored and added; an address without a counter reads as the
largest number there is.
-/

namespace RProxy.Traffic

open PubSubCenter

/-- One call `account(addr, traffic)`. -/
structure Account where
  addr : List Char
  traffic : UInt64
  deriving DecidableEq

variable {Publisher Subscriber : Type}

def accountAll : PubSubCenter Publisher Subscriber → List Account →
    PubSubCenter Publisher Subscriber
  | center, [] => center
  | center, call :: rest => accountAll (center.account call.addr call.traffic) rest

/-- A center whose counters come from the calls. -/
def counted (center : PubSubCenter Publisher Subscriber) (calls : List Account) :
    PubSubCenter Publisher Subscriber :=
  accountAll { center with traffic := ∅ } calls

/-- The amounts passed for an address, in order. -/
def amounts (addr : List Char) (calls : List Account) : List UInt64 :=
  (calls.filter fun call => call.addr = addr).map Account.traffic

def total (addr : List Char) (calls : List Account) : Nat :=
  ((amounts addr calls).map UInt64.toNat).sum

/-- The counter of an address, 0 where nothing was accounted. -/
def counter (center : PubSubCenter Publisher Subscriber) (addr : List Char) : Nat :=
  ((center.traffic.lookup addr).getD 0).toNat

theorem amounts_cons (addr : List Char) (call : Account) (rest : List Account) :
    amounts addr (call :: rest) =
      if call.addr = addr then call.traffic :: amounts addr rest else amounts addr rest := by
  by_cases same : call.addr = addr <;> simp [amounts, same]

/-- Once an address has a counter, each call adds its amount. -/
theorem lookup_known (calls : List Account) {center : PubSubCenter Publisher Subscriber}
    {addr : List Char} {traffic : UInt64} (known : center.traffic.lookup addr = some traffic) :
    (accountAll center calls).traffic.lookup addr = some (traffic + (amounts addr calls).sum) := by
  induction calls generalizing center traffic with
  | nil => simpa [accountAll, amounts] using known
  | cons call rest ih =>
      rw [accountAll, amounts_cons]
      by_cases same : call.addr = addr
      · have next : (center.account call.addr call.traffic).traffic.lookup addr =
            some (traffic + call.traffic) := by
          rw [lookup_account, if_pos same.symm, same, known, Option.getD_some]
        rw [ih next, if_pos same, List.sum_cons, add_assoc]
      · have next : (center.account call.addr call.traffic).traffic.lookup addr = some traffic := by
          rw [lookup_account, if_neg (Ne.symm same), known]
        rw [ih next, if_neg same]

/-- The first amount counts twice. -/
theorem lookup_fresh (calls : List Account) {center : PubSubCenter Publisher Subscriber}
    {addr : List Char} (fresh : center.traffic.lookup addr = none) :
    (accountAll center calls).traffic.lookup addr =
      (amounts addr calls).head?.map fun first => first + (amounts addr calls).sum := by
  induction calls generalizing center with
  | nil => simpa [accountAll, amounts] using fresh
  | cons call rest ih =>
      rw [accountAll, amounts_cons]
      by_cases same : call.addr = addr
      · have next : (center.account call.addr call.traffic).traffic.lookup addr =
            some (call.traffic + call.traffic) := by
          rw [lookup_account, if_pos same.symm, same, fresh, Option.getD_none]
        rw [lookup_known rest next, if_pos same, List.head?_cons, Option.map_some, List.sum_cons,
          add_assoc]
      · have next : (center.account call.addr call.traffic).traffic.lookup addr = none := by
          rw [lookup_account, if_neg (Ne.symm same), fresh]
        rw [ih next, if_neg same]

theorem lookup_counted (center : PubSubCenter Publisher Subscriber) (calls : List Account)
    (addr : List Char) :
    (counted center calls).traffic.lookup addr =
      (amounts addr calls).head?.map fun first => first + (amounts addr calls).sum :=
  lookup_fresh calls (AList.lookup_empty addr)

theorem sum_mod (list : List UInt64) :
    list.sum.toNat = (list.map UInt64.toNat).sum % 2 ^ 64 := by
  induction list with
  | nil => rfl
  | cons first rest ih =>
      rw [List.sum_cons, UInt64.toNat_add, ih, List.map_cons, List.sum_cons, Nat.add_mod_mod]

/-- What is counted for an address is its amounts, as long as the first is 0. -/
theorem counted_once_iff (center : PubSubCenter Publisher Subscriber) (calls : List Account)
    (addr : List Char) (occurs : ∃ call ∈ calls, call.addr = addr)
    (fits : total addr calls < 2 ^ 64) :
    ((counted center calls).trafficOf addr).toNat = total addr calls ↔
      (amounts addr calls).head? = some 0 := by
  have listed : amounts addr calls ≠ [] := by
    obtain ⟨call, member, same⟩ := occurs
    exact List.ne_nil_of_mem
      (List.mem_map.mpr ⟨call, List.mem_filter.mpr ⟨member, decide_eq_true same⟩, rfl⟩)
  obtain ⟨first, rest, shape⟩ := List.exists_cons_of_ne_nil listed
  have summed := sum_mod (amounts addr calls)
  rw [total] at fits ⊢
  rw [Nat.mod_eq_of_lt fits] at summed
  rw [trafficOf, lookup_counted, shape, List.head?_cons, Option.map_some, Option.getD_some, ← shape,
    UInt64.toNat_add, summed, Option.some.injEq, ← UInt64.toNat_inj]
  have bound := first.toNat_lt
  have zero : (0 : UInt64).toNat = 0 := rfl
  rw [zero]
  constructor
  · intro same
    omega
  · intro none
    rw [none, Nat.zero_add]
    exact Nat.mod_eq_of_lt fits

/-- An accepted connection accounts 0 first. -/
theorem accepted_counted_once : ((counted Proxy.System.start.center
    [⟨['a'], 0⟩, ⟨['b'], 3⟩, ⟨['a'], 5⟩]).trafficOf ['a']).toNat =
      total ['a'] [⟨['a'], 0⟩, ⟨['b'], 3⟩, ⟨['a'], 5⟩] :=
  (counted_once_iff Proxy.System.start.center [⟨['a'], 0⟩, ⟨['b'], 3⟩, ⟨['a'], 5⟩] ['a']
    ⟨⟨['a'], 0⟩, by decide, rfl⟩ (by decide)).mpr (by decide)

theorem five_bytes_counted_twice : ¬ ∀ (calls : List Account) (addr : List Char),
    (∃ call ∈ calls, call.addr = addr) → (∀ addr, total addr calls < 2 ^ 64) →
      ((counted Proxy.System.start.center calls).trafficOf addr).toNat = total addr calls := by
  intro claim
  have once := claim [⟨['a'], 5⟩] ['a'] ⟨⟨['a'], 5⟩, by decide, rfl⟩ fun addr => by
    rw [total, amounts_cons]
    by_cases same : ['a'] = addr <;> simp [same, amounts]
  revert once
  decide

section Limit

open Proxy

/-- The limit is decided by the counter, and a client below it is forwarded. -/
structure Follows (state : System) (addr : List Char) : Prop where
  exact : state.center.isLismited addr = true ↔ maxTraffic.toNat < counter state.center addr
  served : counter state.center addr ≤ maxTraffic.toNat →
    ∀ {incoming sock : Fd} {garbage : InetAddr} {io : Io} {next : System},
      state.reversedMap.lookup incoming = some sock →
      (state.kernel.getPeerAddr incoming garbage).toString = addr →
      state.relay incoming garbage io = some next →
      next = state.forwarded (state.accounted io incoming sock addr) io incoming sock

/-- The proxy after the calls. -/
def afterCalls (state : System) (calls : List Account) : System :=
  { state with center := counted state.center calls }

theorem known_iff (center : PubSubCenter Publisher Subscriber) (calls : List Account)
    (addr : List Char) :
    ((counted center calls).traffic.lookup addr).isSome = true ↔
      ∃ call ∈ calls, call.addr = addr := by
  rw [lookup_counted, Option.isSome_map, List.isSome_head?]
  simp [amounts]

/-- A counter is compared as it is. -/
theorem limited_known {center : PubSubCenter Publisher Subscriber} {addr : List Char}
    {traffic : UInt64} (known : center.traffic.lookup addr = some traffic) :
    center.isLismited addr = true ↔ maxTraffic.toNat < counter center addr := by
  rw [isLismited, trafficOf, counter, known, Option.getD_some, Option.getD_some,
    decide_eq_true_iff, UInt64.lt_iff_toNat_lt]

/-- `(size_t)-1` is above every limit. -/
theorem limited_unknown {center : PubSubCenter Publisher Subscriber} {addr : List Char}
    (unknown : center.traffic.lookup addr = none) :
    center.isLismited addr = true ∧ counter center addr = 0 := by
  constructor
  · have above : maxTraffic < -1 := by decide +kernel
    rw [isLismited, trafficOf, unknown, Option.getD_none]
    exact decide_eq_true above
  · rw [counter, unknown]
    rfl

theorem follows_known {state : System} {addr : List Char} {traffic : UInt64}
    (known : state.center.traffic.lookup addr = some traffic) : Follows state addr := by
  have exact := limited_known known
  constructor
  · exact exact
  · intro below incoming sock garbage io next found peer relayed
    rcases relay_cases found relayed with ⟨limited, _⟩ | ⟨_, forwarded⟩
    · rw [peer, exact] at limited
      omega
    · rw [forwarded, peer]

/-- Limiting follows the traffic for the addresses that were accounted, and for
no other address. -/
theorem limit_follows_iff (state : System) (calls : List Account) (addr : List Char) :
    Follows (afterCalls state calls) addr ↔ ∃ call ∈ calls, call.addr = addr := by
  rw [← known_iff state.center calls addr]
  constructor
  · intro follows
    cases found : (counted state.center calls).traffic.lookup addr with
    | some traffic => rfl
    | none =>
        obtain ⟨limited, none⟩ := limited_unknown found
        have above := follows.exact.mp limited
        rw [afterCalls, none] at above
        exact absurd above (Nat.not_lt_zero _)
  · intro known
    obtain ⟨traffic, found⟩ := Option.isSome_iff_exists.mp known
    exact follows_known found

theorem unknown_address_refused : ¬ ∀ (calls : List Account) (addr : List Char),
    Follows (afterCalls System.start calls) addr := by
  intro claim
  have unknown : (afterCalls System.start []).center.traffic.lookup ['a'] = none := rfl
  obtain ⟨limited, none⟩ := limited_unknown unknown
  have above := (claim [] ['a']).exact.mp limited
  rw [none] at above
  exact absurd above (Nat.not_lt_zero _)

end Limit
end RProxy.Traffic
