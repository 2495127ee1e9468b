import Mathlib.Data.Nat.ModEq
import RProxy.WhileLoop

/-!
One's complement sums of words below a base, which is arithmetic modulo `base - 1`
with two zeros, 0 and `base - 1`. What exceeds a word is carried around to its
end, with every addition or at last, until nothing exceeds it. Both give the same
word, because only one is congruent to the sum and is 0 only if the sum is.
-/

namespace RProxy.OnesComplement

open WhileLoop

/-- One end-around carry. -/
def carry (base value : Nat) : Nat := value % base + value / base

def add (base left right : Nat) : Nat := carry base (left + right)

def sum (base : Nat) (words : List Nat) : Nat := words.foldl (add base) 0

def complement (base value : Nat) : Nat := base - 1 - value

/-- End-around carries until none is left. -/
def Settles (base value last : Nat) : Prop :=
  Exits (fun sum => decide (base ≤ sum)) (carry base) value last

/-- The word that stands for `total`. -/
structure Represents (base total word : Nat) : Prop where
  below : word < base
  congruent : word ≡ total [MOD base - 1]
  zero : word = 0 ↔ total = 0

section Carry

variable {base : Nat}

theorem carry_modEq (large : 1 < base) (value : Nat) : carry base value ≡ value [MOD base - 1] := by
  have one : base ≡ 1 [MOD base - 1] := by
    rw [Nat.ModEq.comm, Nat.modEq_iff_dvd' (Nat.le_of_lt large)]
  have scaled : 1 * (value / base) ≡ base * (value / base) [MOD base - 1] := one.symm.mul_right _
  have both := scaled.add_left (value % base)
  rw [Nat.one_mul, Nat.mod_add_div] at both
  exact both

theorem carry_below {value : Nat} (below : value < base) : carry base value = value := by
  rw [carry, Nat.mod_eq_of_lt below, Nat.div_eq_of_lt below, Nat.add_zero]

theorem carry_zero (large : 1 < base) (value : Nat) : carry base value = 0 ↔ value = 0 := by
  constructor
  · intro none
    rw [carry] at none
    have parts := Nat.mod_add_div value base
    rw [Nat.eq_zero_of_add_eq_zero_left none, Nat.eq_zero_of_add_eq_zero_right none] at parts
    simpa using parts.symm
  · rintro rfl
    exact carry_below (Nat.zero_lt_of_lt large)

theorem carry_lowers (large : 1 < base) {value : Nat} (above : base ≤ value) :
    carry base value < value := by
  have positive : 0 < value / base := Nat.div_pos above (Nat.zero_lt_of_lt large)
  have grows : 1 * (value / base) < base * (value / base) :=
    Nat.mul_lt_mul_of_pos_right large positive
  have parts := Nat.mod_add_div value base
  rw [carry]
  omega

/-- After one carry of a sum of two words nothing exceeds the word. -/
theorem carry_lt {value : Nat} (few : value < 2 * base - 1) : carry base value < base := by
  by_cases below : value < base
  · rwa [carry_below below]
  · have quotient : value / base = 1 := by
      rw [Nat.div_eq_iff (by omega)]
      omega
    have parts := Nat.mod_add_div value base
    rw [quotient] at parts
    rw [carry, quotient]
    omega

/-- Two carries are enough below the square of the base. -/
theorem carry_carry_lt {value : Nat} (few : value < base * base) :
    carry base (carry base value) < base := by
  have positive : 0 < base := by
    rcases Nat.eq_zero_or_pos base with rfl | positive
    · exact absurd few (by simp)
    · exact positive
  have rest : value % base < base := Nat.mod_lt _ positive
  have carried : value / base < base := Nat.div_lt_of_lt_mul few
  apply carry_lt
  rw [carry]
  omega

end Carry

section Represents

variable {base total word : Nat}

theorem represents_unique {other : Nat} (left : Represents base total word)
    (right : Represents base total other) : word = other := by
  have congruent := left.congruent.trans right.congruent.symm
  have wordBelow := left.below
  have otherBelow := right.below
  by_cases none : total = 0
  · rw [left.zero.mpr none, right.zero.mpr none]
  · have wordPositive : word ≠ 0 := fun zero => none (left.zero.mp zero)
    have otherPositive : other ≠ 0 := fun zero => none (right.zero.mp zero)
    -- The words from 1 on are one period of the modulus.
    have shifted : word - 1 ≡ other - 1 [MOD base - 1] := by
      apply Nat.ModEq.add_right_cancel' 1
      rwa [Nat.sub_add_cancel (Nat.pos_of_ne_zero wordPositive),
        Nat.sub_add_cancel (Nat.pos_of_ne_zero otherPositive)]
    have equal := shifted.eq_of_lt_of_lt (by omega) (by omega)
    omega

theorem represents_self (below : word < base) : Represents base word word :=
  ⟨below, Nat.ModEq.rfl, Iff.rfl⟩

/-- A carry changes the total, but not the word that stands for it. -/
theorem represents_carry (large : 1 < base) :
    Represents base (carry base total) word ↔ Represents base total word := by
  have same := carry_modEq large total
  have zero := carry_zero large total
  constructor
  · exact fun valid => ⟨valid.below, valid.congruent.trans same, valid.zero.trans zero⟩
  · exact fun valid => ⟨valid.below, valid.congruent.trans same.symm, valid.zero.trans zero.symm⟩

theorem represents_add (large : 1 < base) {left right : Nat} (valid : Represents base total left)
    (below : right < base) : Represents base (total + right) (add base left right) := by
  have leftBelow := valid.below
  constructor
  · exact carry_lt (by omega)
  · exact (carry_modEq large _).trans (valid.congruent.add_right right)
  · rw [add, carry_zero large, Nat.add_eq_zero_iff, Nat.add_eq_zero_iff, valid.zero]

theorem represents_foldl (large : 1 < base) {words : List Nat} (below : ∀ item ∈ words, item < base)
    (valid : Represents base total word) :
    Represents base (total + words.sum) (words.foldl (add base) word) := by
  induction words generalizing total word with
  | nil => exact valid
  | cons first rest ih =>
      have next := represents_add large valid (below first List.mem_cons_self)
      have whole := ih (fun item member => below item (List.mem_cons_of_mem first member)) next
      rwa [Nat.add_assoc, ← List.sum_cons] at whole

theorem represents_sum (large : 1 < base) {words : List Nat}
    (below : ∀ item ∈ words, item < base) : Represents base words.sum (sum base words) := by
  have whole := represents_foldl large below (represents_self (Nat.zero_lt_of_lt large))
  rwa [Nat.zero_add] at whole

theorem represents_settled (large : 1 < base) (settles : Settles base total word) :
    Represents base total word := by
  induction settles with
  | done stop => exact represents_self (by simpa using stop)
  | again enter rest ih => exact (represents_carry large).mp ih

/-- The carries come to an end, and what is left is the word. -/
theorem settles_iff (large : 1 < base) : Settles base total word ↔ Represents base total word := by
  constructor
  · exact represents_settled large
  · intro valid
    have lowered (value : Nat) (_ : True) (above : decide (base ≤ value) = true) :
        id (carry base value) < id value := carry_lowers large (by simpa using above)
    rcases exits_of_measure (fun _ => True) (fun _ _ _ => trivial) id lowered total trivial with
      ⟨last, settles⟩
    have same := represents_unique valid (represents_settled large settles)
    rwa [same]

/-- Carrying at last gives what carrying with every addition gives. -/
theorem settles_sum (large : 1 < base) {words : List Nat} (below : ∀ item ∈ words, item < base) :
    Settles base words.sum (sum base words) :=
  (settles_iff large).mpr (represents_sum large below)

/-- A sum may start from the other zero, unless there is nothing else in it. -/
theorem represents_of_negative_zero (valid : Represents base (base - 1 + total) word)
    (positive : 0 < total) : Represents base total word := by
  constructor
  · exact valid.below
  · exact valid.congruent.trans (Nat.add_modEq_left)
  · have zero := valid.zero
    omega

theorem represents_carries (large : 1 < base) (few : total < base * base) :
    Represents base total (carry base (carry base total)) := by
  rw [← represents_carry large, ← represents_carry large]
  exact represents_self (carry_carry_lt few)

theorem add_complement (below : word < base) : add base word (complement base word) = base - 1 := by
  rw [add, complement, Nat.add_sub_cancel' (Nat.le_sub_one_of_lt below)]
  exact carry_below (by omega)

/-- The sum is the second zero where it is a multiple of the modulus, but not 0. -/
theorem represents_top_iff (large : 1 < base) (valid : Represents base total word) :
    word = base - 1 ↔ 0 < total ∧ base - 1 ∣ total := by
  have below := valid.below
  constructor
  · rintro rfl
    constructor
    · apply Nat.pos_of_ne_zero
      intro none
      have zero := valid.zero.mpr none
      omega
    · rw [← Nat.modEq_zero_iff_dvd]
      exact valid.congruent.symm.trans ((Nat.modEq_zero_iff_dvd).mpr (Nat.dvd_refl _))
  · rintro ⟨positive, multiple⟩
    have some_word : word ≠ 0 := fun zero => absurd (valid.zero.mp zero) (by omega)
    have divides : base - 1 ∣ word := by
      rw [← Nat.modEq_zero_iff_dvd]
      exact valid.congruent.trans ((Nat.modEq_zero_iff_dvd).mpr multiple)
    have least := Nat.le_of_dvd (Nat.pos_of_ne_zero some_word) divides
    omega

/-- Exchanging one word for another keeps the total a multiple exactly where the
words are the same, or the two zeros. -/
theorem multiple_exchanged_iff (large : 1 < base) {rest first second : Nat}
    (firstBelow : first < base) (secondBelow : second < base)
    (multiple : base - 1 ∣ rest + first) :
    base - 1 ∣ rest + second ↔
      first = second ∨ (first = 0 ∧ second = base - 1) ∨ (first = base - 1 ∧ second = 0) := by
  have congruent : base - 1 ∣ rest + second ↔ second ≡ first [MOD base - 1] := by
    rw [← Nat.modEq_zero_iff_dvd] at multiple ⊢
    constructor
    · intro other
      exact (other.trans multiple.symm).add_left_cancel' rest
    · intro same
      exact (same.add_left rest).trans multiple
  rw [congruent]
  constructor
  · intro same
    rcases Nat.lt_or_ge first (base - 1) with firstSmall | firstTop
    · rcases Nat.lt_or_ge second (base - 1) with secondSmall | secondTop
      · exact Or.inl (same.eq_of_lt_of_lt secondSmall firstSmall).symm
      · obtain rfl : second = base - 1 := by omega
        have zero : 0 ≡ first [MOD base - 1] := Nat.ModEq.trans (by simp [Nat.ModEq]) same
        exact Or.inr (Or.inl ⟨(zero.eq_of_lt_of_lt (by omega) firstSmall).symm, rfl⟩)
    · obtain rfl : first = base - 1 := by omega
      rcases Nat.lt_or_ge second (base - 1) with secondSmall | secondTop
      · have zero : second ≡ 0 [MOD base - 1] := Nat.ModEq.trans same (by simp [Nat.ModEq])
        exact Or.inr (Or.inr ⟨rfl, zero.eq_of_lt_of_lt secondSmall (by omega)⟩)
      · exact Or.inl (by omega)
  · rintro (rfl | ⟨rfl, rfl⟩ | ⟨rfl, rfl⟩)
    · exact Nat.ModEq.rfl
    · simp [Nat.ModEq]
    · simp [Nat.ModEq]

end Represents

end RProxy.OnesComplement
