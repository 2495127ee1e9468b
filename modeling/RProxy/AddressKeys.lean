import RProxy.Framing
import RProxy.PubSub
import RProxy.RoundRobin

/-!
The text of an address as a key. The separator may occur in the IP text, so it is
the last one that tells where the port begins; the text of the port has none.
-/

namespace RProxy

namespace InetAddr

/-- `operator==` -/
def equals (addr other : InetAddr) : Bool := other.ip == addr.ip && other.port == addr.port

/-- `c_str()` does not cut the IP text short. -/
def Plain (addr : InetAddr) : Prop := '\x00' ∉ addr.ip

instance (addr : InetAddr) : Decidable addr.Plain := inferInstanceAs (Decidable (_ ∉ _))

theorem equals_iff (addr other : InetAddr) : addr.equals other = true ↔ addr = other := by
  cases addr
  cases other
  simp only [equals, Bool.and_eq_true, beq_iff_eq, mk.injEq]
  exact and_congr eq_comm eq_comm

theorem cStr_eq {text : List Char} (plain : '\x00' ∉ text) : cStr text = text := by
  rw [cStr, List.takeWhile_eq_self_iff]
  intro symbol member
  have other : symbol ≠ '\x00' := fun same => plain (same ▸ member)
  simpa using other

theorem not_mem_portText (addr : InetAddr) {symbol : Char} (sign : symbol.isDigit = false) :
    symbol ∉ addr.portText := by
  intro member
  have digit := Nat.isDigit_of_mem_toDigits (by decide) (by decide) member
  exact absurd digit (by simp [sign])

theorem portText_injective {addr other : InetAddr} (same : addr.portText = other.portText) :
    addr.port = other.port := by
  apply UInt16.toNat_inj.mp
  calc addr.port.toNat = Nat.ofDigitChars 10 addr.portText 0 := Nat.ofDigitChars_ten_toDigits.symm
    _ = Nat.ofDigitChars 10 other.portText 0 := by rw [same]
    _ = other.port.toNat := Nat.ofDigitChars_ten_toDigits

theorem toString_eq {addr : InetAddr} (plain : addr.Plain) :
    addr.toString = '[' :: (addr.ip ++ ':' :: (addr.portText ++ [']'])) := by
  rw [toString, cStr_eq plain, cStr_eq (addr.not_mem_portText rfl)]
  simp

/-- No separator comes behind the one in front of the port. -/
theorem not_mem_tail (addr : InetAddr) : ':' ∉ addr.portText ++ [']'] := by
  intro member
  rcases List.mem_append.mp member with digit | bracket
  · exact addr.not_mem_portText rfl digit
  · exact absurd bracket (by decide)

theorem toString_injective {addr other : InetAddr} (plain : addr.Plain) (otherPlain : other.Plain)
    (same : addr.toString = other.toString) : addr = other := by
  rw [toString_eq plain, toString_eq otherPlain] at same
  rcases last_cut_unique addr.not_mem_tail other.not_mem_tail (List.cons.inj same).2 with
    ⟨ip, tail⟩
  have port := portText_injective (List.append_cancel_right tail)
  exact (equals_iff addr other).mp (by simp [equals, ip, port])

theorem toString_iff {addr other : InetAddr} (plain : addr.Plain) (otherPlain : other.Plain) :
    addr.toString = other.toString ↔ addr.equals other = true := by
  rw [equals_iff]
  exact ⟨toString_injective plain otherPlain, fun same => by rw [same]⟩

end InetAddr

namespace AddressKeys

open LoadBalancer Registry RoundRobin

/-- No address is added whose IP text has a NUL in it. -/
def PlainCall : State → Action → Prop
  | _, .addBackend addr _ => addr.Plain
  | _, _ => True

/-- The text of an address stands for this address and for no other: what is
done under the text of `addr` is seen under the text of `other` exactly if they
are equal. -/
structure Identified (addr other : InetAddr) : Prop where
  text : addr.toString = other.toString ↔ addr.equals other = true
  backend : ∀ (loader : LoadBalancer) (checkPort : UInt16),
    (loader.addBackend addr checkPort).backend.lookup other.toString =
      if addr.equals other then some ((loader.backend.lookup addr.toString).getD addr)
      else loader.backend.lookup other.toString
  checked : ∀ (loader : LoadBalancer) (checkPort : UInt16),
    (loader.addBackend addr checkPort).checked.lookup other.toString =
      if addr.equals other then some ((loader.checked.lookup addr.toString).getD checkPort)
      else loader.checked.lookup other.toString
  removed : ∀ loader : LoadBalancer,
    (loader.removeBackend addr).backend.lookup other.toString =
      if addr.equals other then none else loader.backend.lookup other.toString
  found : ∀ text calls state stored, registry.Meets PlainCall (start text) calls →
    registry.run (start text) calls = some state →
      state.loader.backend.lookup addr.toString = some stored → stored.equals addr = true
  traffic : ∀ (Publisher Subscriber : Type) (center : PubSubCenter Publisher Subscriber)
    (traffic : UInt64),
    (center.account addr.toString traffic).traffic.lookup other.toString =
      if addr.equals other then some ((center.traffic.lookup addr.toString).getD traffic + traffic)
      else center.traffic.lookup other.toString

variable {addr other : InetAddr}

theorem key_eq_iff (plain : addr.Plain) (otherPlain : other.Plain) :
    other.toString = addr.toString ↔ addr.equals other = true :=
  eq_comm.trans (InetAddr.toString_iff plain otherPlain)

def PlainTable (loader : LoadBalancer) : Prop :=
  ∀ key addr, loader.backend.lookup key = some addr → addr.Plain

theorem registry_plain (state : State) (action : Action) (next : State)
    (valid : PlainTable state.loader) (plain : PlainCall state action)
    (stepped : registry.step state action = some next) : PlainTable next.loader := by
  intro key addr found
  rcases registry_found stepped found with before | ⟨_, checkPort, rfl⟩
  · exact valid key addr before
  · exact plain

/-- The backend that is found under the text of an address is that address. -/
theorem found_equals {text : List Byte} {calls : List Action} {state : State} {stored : InetAddr}
    (allowed : registry.Meets PlainCall (start text) calls)
    (ran : registry.run (start text) calls = some state) (plain : addr.Plain)
    (found : state.loader.backend.lookup addr.toString = some stored) :
    stored.equals addr = true := by
  have table : PlainTable state.loader :=
    registry.run_invariant (fun state => PlainTable state.loader) registry_plain
      (fun _ _ found => by simp [start] at found) allowed ran
  have same := registry_reaches_named ran _ _ found
  exact (InetAddr.toString_iff (table _ _ found) plain).mp same

/-- The keys of the tables identify the addresses without a NUL. -/
theorem keys_identify (addr other : InetAddr) (plain : addr.Plain) (otherPlain : other.Plain) :
    Identified addr other := by
  have key := key_eq_iff plain otherPlain
  constructor
  · exact InetAddr.toString_iff plain otherPlain
  · intro loader checkPort
    simp only [addBackend, UnorderedMap.lookup_emplace, key]
  · intro loader checkPort
    simp only [addBackend, UnorderedMap.lookup_emplace, key]
  · intro loader
    simp only [removeBackend, UnorderedMap.lookup_erase_if, key]
  · intro text calls state stored allowed ran found
    exact found_equals allowed ran plain found
  · intro Publisher Subscriber center traffic
    simp only [PubSubCenter.lookup_account, key]

/-- The texts are `[::1:8:0]` and `[::1:80]`. -/
theorem colons_identify :
    Identified ⟨[':', ':', '1', ':', '8'], 0⟩ ⟨[':', ':', '1'], 80⟩ :=
  keys_identify _ _ (by decide) (by decide)

end AddressKeys

end RProxy
