import Mathlib
import RProxy.WhileLoop

/-!
The constructor of `LockFreeQueue`, which makes its capacity a power of two. The
loop doubles a `size_t`: past the last power that fits comes 0, and 0 stays 0.
-/

namespace RProxy.LockFreeQueue

open WhileLoop

structure Queue (T : Type) where
  capacity : UInt64
  size : UInt64
  head : Int
  tail : Int
  tailUpdated : Bool
  buffer : List T

def isPowerOfTwo (size : UInt64) : Bool := size > 0 && size &&& (size - 1) == 0

/-- `power < size` -/
def below (size power : UInt64) : Bool := power < size

/-- `power <<= 1` -/
def double (power : UInt64) : UInt64 := power <<< 1

def roundUpToPowerOfTwo (fuel : Nat) (size : UInt64) : Option UInt64 :=
  run (below size) double fuel 1

/-- The members when `buffer_.reserve(capacity_)` is called, which is last. -/
def members (T : Type) (capacity : UInt64) : Queue T where
  capacity := capacity
  size := 0
  head := -1
  tail := -1
  tailUpdated := false
  buffer := []

def new (T : Type) (fuel : Nat) (capacity : UInt64) : Option (Queue T) :=
  if isPowerOfTwo capacity then some (members T capacity)
  else (roundUpToPowerOfTwo fuel capacity).map (members T)

/-- The powers of two that have room for `capacity`, whether they fit in a
`size_t` or not. -/
def rooms (capacity : UInt64) : Set Nat :=
  {power | power.isPowerOfTwo ∧ max capacity.toNat 1 ≤ power}

/-- The constructor comes to its end, and with the least capacity that it may
take. -/
structure RoundsUp (T : Type) (capacity : UInt64) : Prop where
  returns : ∃ fuel queue, new T fuel capacity = some queue
  least : ∀ fuel queue, new T fuel capacity = some queue →
    IsLeast (rooms capacity) queue.capacity.toNat

section Powers

theorem isPowerOfTwo_iff (size : UInt64) :
    isPowerOfTwo size = true ↔ size.toNat.isPowerOfTwo := by
  have bits (nonzero : size.toNat ≠ 0) :
      size &&& (size - 1) = 0 ↔ size.toNat &&& (size.toNat - 1) = 0 := by
    have one : (1 : UInt64) ≤ size :=
      UInt64.le_iff_toNat_le.mpr (Nat.pos_of_ne_zero nonzero)
    rw [← UInt64.toNat_inj, UInt64.toNat_and, UInt64.toNat_sub_of_le _ _ one]
    rfl
  rw [← Nat.ne_zero_and_sub_one_eq_zero_iff_isPowerOfTwo]
  simp only [isPowerOfTwo, Bool.and_eq_true, decide_eq_true_eq, beq_iff_eq, gt_iff_lt,
    UInt64.lt_iff_toNat_lt]
  constructor
  · rintro ⟨positive, cleared⟩
    have nonzero := Nat.ne_of_gt positive
    exact ⟨nonzero, (bits nonzero).mp cleared⟩
  · rintro ⟨nonzero, cleared⟩
    exact ⟨Nat.pos_of_ne_zero nonzero, (bits nonzero).mpr cleared⟩

/-- There is nothing between a power of two and its double. -/
theorem isPowerOfTwo_gap {power other : Nat} (left : power.isPowerOfTwo)
    (right : other.isPowerOfTwo) (less : power < other) : 2 * power ≤ other := by
  rcases left with ⟨low, rfl⟩
  rcases right with ⟨high, rfl⟩
  have next : low + 1 ≤ high := (Nat.pow_lt_pow_iff_right (by decide)).mp less
  calc 2 * 2 ^ low = 2 ^ (low + 1) := by rw [Nat.pow_succ, Nat.mul_comm]
    _ ≤ 2 ^ high := Nat.pow_le_pow_right (by decide) next

theorem power_le {power : UInt64} (valid : power.toNat.isPowerOfTwo) :
    power.toNat ≤ 2 ^ 63 := by
  have top : (2 ^ 63).isPowerOfTwo := ⟨63, rfl⟩
  by_contra above
  have doubled := isPowerOfTwo_gap top valid (Nat.lt_of_not_le above)
  have fits := power.toNat_lt
  omega

theorem double_toNat (power : UInt64) : (double power).toNat = 2 * power.toNat % 2 ^ 64 := by
  rw [double, UInt64.toNat_shiftLeft, Nat.shiftLeft_eq, Nat.mul_comm]
  rfl

theorem double_fits {power : UInt64} (room : power.toNat < 2 ^ 63) :
    (double power).toNat = 2 * power.toNat := by
  rw [double_toNat]
  omega

theorem double_isPowerOfTwo {power : UInt64} (valid : power.toNat.isPowerOfTwo)
    (room : power.toNat < 2 ^ 63) : (double power).toNat.isPowerOfTwo := by
  rw [double_fits room, Nat.mul_comm]
  exact Nat.isPowerOfTwo_mul_two_of_isPowerOfTwo valid

end Powers

section Loop

theorem below_iff (size power : UInt64) : below size power = true ↔ power.toNat < size.toNat := by
  rw [below, decide_eq_true_eq, UInt64.lt_iff_toNat_lt]

/-- No power of two that has room for `size` is below the one in the loop. -/
structure Approaches (size power : UInt64) : Prop where
  isPower : power.toNat.isPowerOfTwo
  lower : ∀ room ∈ rooms size, power.toNat ≤ room

variable {size power : UInt64}

theorem approaches_start (size : UInt64) : Approaches size 1 where
  isPower := ⟨0, rfl⟩
  lower := fun _ room => (Nat.le_max_right _ _).trans room.2

theorem approaches_kept (limit : size.toNat ≤ 2 ^ 63) (power : UInt64)
    (valid : Approaches size power) (entered : below size power = true) :
    Approaches size (double power) := by
  have less := (below_iff size power).mp entered
  have room : power.toNat < 2 ^ 63 := Nat.lt_of_lt_of_le less limit
  constructor
  · exact double_isPowerOfTwo valid.isPower room
  · rintro other ⟨isPower, enough⟩
    rw [double_fits room]
    exact isPowerOfTwo_gap valid.isPower isPower
      (Nat.lt_of_lt_of_le less ((Nat.le_max_left _ _).trans enough))

/-- The distance to `size` shrinks, because a doubled power is not 0. -/
theorem distance_lowered (limit : size.toNat ≤ 2 ^ 63) (power : UInt64)
    (valid : Approaches size power) (entered : below size power = true) :
    size.toNat - (double power).toNat < size.toNat - power.toNat := by
  have less := (below_iff size power).mp entered
  have positive := Nat.pos_of_isPowerOfTwo valid.isPower
  rw [double_fits (Nat.lt_of_lt_of_le less limit)]
  omega

theorem round_up_returns (limit : size.toNat ≤ 2 ^ 63) :
    ∃ fuel rounded, roundUpToPowerOfTwo fuel size = some rounded := by
  rcases exits_of_measure (Approaches size) (approaches_kept limit)
    (fun power => size.toNat - power.toNat) (distance_lowered limit) 1 (approaches_start size) with
    ⟨rounded, exits⟩
  rcases run_of_exits exits with ⟨fuel, ran⟩
  exact ⟨fuel, rounded, ran⟩

theorem round_up_least (limit : size.toNat ≤ 2 ^ 63) {fuel : Nat} {rounded : UInt64}
    (ran : roundUpToPowerOfTwo fuel size = some rounded) :
    IsLeast (rooms size) rounded.toNat := by
  rcases exits_keeps (Approaches size) (approaches_kept limit) (exits_of_run ran)
    (approaches_start size) with ⟨valid, stop⟩
  have enough : size.toNat ≤ rounded.toNat := by
    by_contra less
    have entered := (below_iff size rounded).mpr (Nat.lt_of_not_le less)
    exact absurd entered (by simp [stop])
  have one : 1 ≤ rounded.toNat := Nat.pos_of_isPowerOfTwo valid.isPower
  exact ⟨⟨valid.isPower, max_le enough one⟩, valid.lower⟩

/-- Above 2^63 the loop comes to 0 and stays there. -/
def Spins (power : UInt64) : Prop := power.toNat = 0 ∨ power.toNat.isPowerOfTwo

theorem spins_kept {power : UInt64} (valid : Spins power) : Spins (double power) := by
  rcases valid with zero | valid
  · left
    rw [double_toNat]
    omega
  · by_cases room : power.toNat < 2 ^ 63
    · exact Or.inr (double_isPowerOfTwo valid room)
    · have top := power_le valid
      left
      rw [double_toNat]
      omega

theorem round_up_spins (above : 2 ^ 63 < size.toNat) (fuel : Nat) :
    roundUpToPowerOfTwo fuel size = none := by
  have enters (power : UInt64) (valid : Spins power) : below size power = true := by
    rw [below_iff]
    rcases valid with zero | valid
    · omega
    · exact Nat.lt_of_le_of_lt (power_le valid) above
  rcases ran : roundUpToPowerOfTwo fuel size with _ | rounded
  · rfl
  · have start : Spins 1 := Or.inr ⟨0, rfl⟩
    exact absurd (exits_of_run ran)
      (never_exits Spins (fun _ valid _ => spins_kept valid) enters start)

end Loop

section Constructor

variable (T : Type) {capacity : UInt64}

/-- A power of two is the least one with room for itself. -/
theorem shortcut_least (valid : capacity.toNat.isPowerOfTwo) :
    IsLeast (rooms capacity) capacity.toNat := by
  have one : 1 ≤ capacity.toNat := Nat.pos_of_isPowerOfTwo valid
  constructor
  · exact ⟨valid, max_le (Nat.le_refl _) one⟩
  · exact fun other room => (Nat.le_max_left _ _).trans room.2

theorem new_returns (limit : capacity.toNat ≤ 2 ^ 63) :
    ∃ fuel queue, new T fuel capacity = some queue := by
  by_cases short : isPowerOfTwo capacity = true
  · exact ⟨0, members T capacity, by rw [new, if_pos short]⟩
  · rcases round_up_returns limit with ⟨fuel, rounded, ran⟩
    refine ⟨fuel, members T rounded, ?_⟩
    rw [new, if_neg short, ran]
    rfl

theorem new_least (limit : capacity.toNat ≤ 2 ^ 63) {fuel : Nat} {queue : Queue T}
    (made : new T fuel capacity = some queue) : IsLeast (rooms capacity) queue.capacity.toNat := by
  rw [new] at made
  split at made
  · next short =>
      cases made
      exact shortcut_least ((isPowerOfTwo_iff capacity).mp short)
  · rcases Option.map_eq_some_iff.mp made with ⟨rounded, ran, rfl⟩
    exact round_up_least limit ran

theorem new_spins (above : 2 ^ 63 < capacity.toNat) (fuel : Nat) :
    new T fuel capacity = none := by
  have long : ¬ isPowerOfTwo capacity = true := fun short =>
    Nat.not_le_of_lt above (power_le ((isPowerOfTwo_iff capacity).mp short))
  rw [new, if_neg long, round_up_spins above]
  rfl

theorem not_rounds_up (above : 2 ^ 63 < capacity.toNat) : ¬ RoundsUp T capacity := by
  intro rounds
  rcases rounds.returns with ⟨fuel, queue, made⟩
  rw [new_spins T above] at made
  cases made

/-- The capacity is the least power of two with room for what was asked for,
exactly if that power fits in a `size_t`; else the constructor never ends. -/
theorem rounds_up_iff (T : Type) (capacity : UInt64) :
    RoundsUp T capacity ↔ capacity.toNat ≤ 2 ^ 63 := by
  constructor
  · intro rounds
    by_contra above
    exact not_rounds_up T (Nat.lt_of_not_le above) rounds
  · exact fun limit => ⟨new_returns T limit, fun _ _ => new_least T limit⟩

example : (new Unit 11 1000).map Queue.capacity = some 1024 := by decide

/-- With one more than 2^63 the constructor spins. -/
theorem past_top_spins : ¬ ∀ (T : Type) (capacity : UInt64), RoundsUp T capacity := by
  intro claim
  exact not_rounds_up Unit (by decide) (claim Unit 0x8000000000000001)

end Constructor

end RProxy.LockFreeQueue
