import RProxy.OnesComplement
import RProxy.Ping

/-!
The checksum of `Ping` against the Internet checksum. The code adds all words to
an unsigned long that starts at 0xffff, one of the two zeros, and carries around
twice, which is enough as long as the sum fits in two words.
-/

namespace RProxy.Ping

open OnesComplement

/-- The words of a buffer; an odd byte has a zero above it. -/
def words : List Byte → List Nat
  | low :: high :: rest => (low.toNat + 256 * high.toNat) :: words rest
  | [last] => [last.toNat]
  | [] => []

/-- The one's complement sum of the words of a buffer -/
def internetSum (buf : List Byte) : Nat := OnesComplement.sum 65536 (words buf)

/-- Both folds keep every carry, and the result is the complement of the sum. -/
structure InternetChecksum (buf : List Byte) : Prop where
  settles : Settles 65536 (words buf).sum (internetSum buf)
  fits : internetSum buf < 65536
  folded : (fold (fold (addWords 0xffff buf))).toNat = internetSum buf
  complement : checksum buf = ~~~ UInt16.ofNat (internetSum buf)
  adds : internetSum buf + (checksum buf).toNat = 0xffff
  verifies : add 65536 (internetSum buf) (checksum buf).toNat = 0xffff

section Words

theorem words_lt (buf : List Byte) : ∀ word ∈ words buf, word < 65536 := by
  induction buf using words.induct with
  | case1 low high rest ih =>
      intro word member
      rcases List.mem_cons.mp member with rfl | member
      · have lowBound := low.toNat_lt
        have highBound := high.toNat_lt
        omega
      · exact ih word member
  | case2 last =>
      intro word member
      cases List.mem_singleton.mp member
      have bound := last.toNat_lt
      omega
  | case3 => exact fun word member => absurd member List.not_mem_nil

theorem words_sum_le (buf : List Byte) : (words buf).sum ≤ 65535 * buf.length := by
  have counted : (words buf).length ≤ buf.length := by
    induction buf using words.induct with
    | case1 low high rest ih =>
        simp only [words, List.length_cons]
        omega
    | case2 last => exact Nat.le_refl _
    | case3 => exact Nat.le_refl _
  have bounded := List.sum_le_card_nsmul (words buf) 65535 fun word member =>
    Nat.le_of_lt_succ (words_lt buf word member)
  calc (words buf).sum ≤ (words buf).length * 65535 := bounded
    _ ≤ buf.length * 65535 := Nat.mul_le_mul_right _ counted
    _ = 65535 * buf.length := Nat.mul_comm _ _

theorem words_sum_pos {buf : List Byte} {byte : Byte} (member : byte ∈ buf) (nonzero : byte ≠ 0) :
    0 < (words buf).sum := by
  have positive : 0 < byte.toNat := by
    apply Nat.pos_of_ne_zero
    intro zero
    exact nonzero (UInt8.toNat_inj.mp zero)
  induction buf using words.induct with
  | case1 low high rest ih =>
      rw [words, List.sum_cons]
      rcases List.mem_cons.mp member with rfl | member
      · omega
      · rcases List.mem_cons.mp member with rfl | member
        · omega
        · have rest := ih member
          omega
  | case2 last =>
      cases List.mem_singleton.mp member
      simpa [words] using positive
  | case3 => exact absurd member List.not_mem_nil

end Words

section Folds

theorem word_toNat (low high : Byte) : (word low high).toNat = low.toNat + 256 * high.toNat := by
  have lowBound := low.toNat_lt
  have highBound := high.toNat_lt
  rw [word, UInt64.toNat_add, UInt64.toNat_mul, UInt8.toNat_toUInt64, UInt8.toNat_toUInt64]
  rw [show (256 : UInt64).toNat = 256 from rfl]
  omega

/-- An unsigned long has room for the sum of all words. -/
theorem addWords_toNat {sum : UInt64} {buf : List Byte}
    (fits : sum.toNat + (words buf).sum < 2 ^ 64) :
    (addWords sum buf).toNat = sum.toNat + (words buf).sum := by
  induction sum, buf using addWords.induct with
  | case1 sum low high rest ih =>
      rw [words, List.sum_cons] at fits
      have added : (sum + word low high).toNat = sum.toNat + (low.toNat + 256 * high.toNat) := by
        rw [UInt64.toNat_add, word_toNat]
        exact Nat.mod_eq_of_lt (by omega)
      rw [addWords, ih (by omega), added, words, List.sum_cons, Nat.add_assoc]
  | case2 sum last =>
      simp only [words, List.sum_cons, List.sum_nil, Nat.add_zero] at fits
      rw [addWords, UInt64.toNat_add, UInt8.toNat_toUInt64]
      simpa [words] using Nat.mod_eq_of_lt fits
  | case3 sum => rfl

/-- A fold is one end-around carry. -/
theorem fold_toNat (sum : UInt64) : (fold sum).toNat = carry 65536 sum.toNat := by
  have low : (sum &&& 0xffff).toNat = sum.toNat % 65536 := by
    rw [UInt64.toNat_and]
    exact Nat.and_two_pow_sub_one_eq_mod _ 16
  have high : (sum >>> 16).toNat = sum.toNat / 65536 := by
    rw [UInt64.toNat_shiftRight]
    exact Nat.shiftRight_eq_div_pow _ 16
  have bound := sum.toNat_lt
  rw [fold, UInt64.toNat_add, low, high, carry]
  exact Nat.mod_eq_of_lt (by omega)

theorem folds_represent {buf : List Byte} (bound : buf.length ≤ 65535)
    (positive : 0 < (words buf).sum) :
    Represents 65536 (words buf).sum (fold (fold (addWords 0xffff buf))).toNat := by
  have few : 65535 + (words buf).sum < 65536 * 65536 := by
    have sized := words_sum_le buf
    omega
  have summed : (addWords 0xffff buf).toNat = 65535 + (words buf).sum :=
    addWords_toNat (Nat.lt_trans few (by decide))
  rw [fold_toNat, fold_toNat, summed]
  exact represents_of_negative_zero (represents_carries (by decide) few) positive

end Folds

section Complement

/-- The unsigned short that is returned is the complement of the low half. -/
theorem checksum_eq {buf : List Byte} {word : Nat}
    (folded : (fold (fold (addWords 0xffff buf))).toNat = word) :
    checksum buf = ~~~ UInt16.ofNat word := by
  rw [checksum, UInt64.toUInt16_not, ← folded]
  rfl

theorem complement_toNat {word : Nat} (fits : word < 65536) :
    (~~~ UInt16.ofNat word).toNat = OnesComplement.complement 65536 word := by
  rw [UInt16.toNat_not, UInt16.toNat_ofNat', Nat.mod_eq_of_lt fits]
  rfl

/-- Of a buffer that is not all zeros the Internet checksum is returned. -/
theorem checksum_internet (buf : List Byte) (bound : buf.length ≤ 65535)
    (nonzero : ∃ byte ∈ buf, byte ≠ 0) : InternetChecksum buf := by
  rcases nonzero with ⟨byte, member, nonzero⟩
  have positive := words_sum_pos member nonzero
  have large : 1 < 65536 := by decide
  have summed : Represents 65536 (words buf).sum (internetSum buf) :=
    represents_sum large (words_lt buf)
  have folded := represents_unique (folds_represent bound positive) summed
  have returned : (checksum buf).toNat = OnesComplement.complement 65536 (internetSum buf) := by
    rw [checksum_eq folded, complement_toNat summed.below]
  constructor
  · exact settles_sum large (words_lt buf)
  · exact summed.below
  · exact folded
  · exact checksum_eq folded
  · rw [returned]
    exact Nat.add_sub_cancel' (Nat.le_of_lt_succ summed.below)
  · rw [returned]
    exact add_complement summed.below

/-- The request that `ping` sends, before its checksum is filled in -/
theorem echo_header_checksum : InternetChecksum (header icmpEcho 0 0 0 0) :=
  checksum_internet _ (by decide) ⟨icmpEcho, by decide, by decide⟩

/-- The receiver's check of the request -/
example : internetSum hdr = 0xffff := by decide

end Complement

section Filled

/-- A message in which the field of the checksum, zero before, is filled in. -/
def filled (before after : List Byte) : List Byte :=
  let sum := checksum (before ++ 0 :: 0 :: after)
  before ++ sum.toUInt8 :: (sum >>> 8).toUInt8 :: after

example : hdr = filled [icmpEcho, 0] [0, 0, 0, 0] := rfl

theorem words_append {first : List Byte} (even : first.length % 2 = 0) (second : List Byte) :
    words (first ++ second) = words first ++ words second := by
  induction first using words.induct with
  | case1 low high rest ih =>
      have shorter : rest.length % 2 = 0 := by
        simp only [List.length_cons] at even
        omega
      simp only [List.cons_append, words, ih shorter]
  | case2 last => simp at even
  | case3 => rfl

theorem words_exchange {left : List Byte} (even : left.length % 2 = 0) (low high : Byte)
    (right : List Byte) :
    (words (left ++ low :: high :: right)).sum =
      (words left).sum + (words right).sum + (low.toNat + 256 * high.toNat) := by
  rw [words_append even, words, List.sum_append, List.sum_cons]
  omega

theorem halves_toNat (sum : UInt16) :
    sum.toUInt8.toNat + 256 * (sum >>> 8).toUInt8.toNat = sum.toNat := by
  have bound := sum.toNat_lt
  have low : sum.toUInt8.toNat = sum.toNat % 256 := UInt16.toNat_toUInt8 sum
  have high : (sum >>> 8).toUInt8.toNat = sum.toNat / 256 % 256 := by
    rw [UInt16.toNat_toUInt8, UInt16.toNat_shiftRight]
    congr 1
    exact Nat.shiftRight_eq_div_pow _ 8
  rw [low, high]
  omega

theorem internet_sum_represents (buf : List Byte) :
    Represents 65536 (words buf).sum (internetSum buf) :=
  represents_sum (by decide) (words_lt buf)

theorem checksum_toNat {buf : List Byte} (bound : buf.length ≤ 65535)
    (positive : 0 < (words buf).sum) : (checksum buf).toNat = 65535 - internetSum buf := by
  have summed := internet_sum_represents buf
  have folded := represents_unique (folds_represent bound positive) summed
  rw [checksum_eq folded, complement_toNat summed.below, OnesComplement.complement]

/-- The checksum that is filled in makes the sum of the whole message 0xffff, which
is what the receiver asks for; and a message in which one word was exchanged for
another is still accepted only if the two words are the two zeros. -/
theorem filled_checksum_protects {before after : List Byte} (even : before.length % 2 = 0)
    (bound : (before ++ 0 :: 0 :: after).length ≤ 65535)
    (nonzero : ∃ byte ∈ before ++ after, byte ≠ 0) :
    internetSum (filled before after) = 0xffff ∧
      ∀ left right low high otherLow otherHigh, left.length % 2 = 0 →
        filled before after = left ++ low :: high :: right →
          (internetSum (left ++ otherLow :: otherHigh :: right) = 0xffff ↔
            0 < (words (left ++ otherLow :: otherHigh :: right)).sum ∧
              ((low.toNat + 256 * high.toNat = otherLow.toNat + 256 * otherHigh.toNat) ∨
                (low.toNat + 256 * high.toNat = 0 ∧
                  otherLow.toNat + 256 * otherHigh.toNat = 0xffff) ∨
                (low.toNat + 256 * high.toNat = 0xffff ∧
                  otherLow.toNat + 256 * otherHigh.toNat = 0))) := by
  have large : 1 < 65536 := by decide
  have blank := words_exchange even 0 0 after
  have positive : 0 < (words (before ++ 0 :: 0 :: after)).sum := by
    obtain ⟨byte, member, other⟩ := nonzero
    have still : byte ∈ before ++ 0 :: 0 :: after := by
      rcases List.mem_append.mp member with first | last
      · exact List.mem_append_left _ first
      · simp [last]
    exact words_sum_pos still other
  have summed := internet_sum_represents (before ++ 0 :: 0 :: after)
  have total : (words (filled before after)).sum = (words (before ++ 0 :: 0 :: after)).sum +
      (65535 - internetSum (before ++ 0 :: 0 :: after)) := by
    rw [filled, words_exchange even, halves_toNat, checksum_toNat bound positive, blank]
    rfl
  have multiple : 65535 ∣ (words (filled before after)).sum := by
    have congruent : internetSum (before ++ 0 :: 0 :: after) +
        (65535 - internetSum (before ++ 0 :: 0 :: after)) ≡
        (words (filled before after)).sum [MOD 65535] := by
      rw [total]
      exact summed.congruent.add_right _
    have below := summed.below
    rw [Nat.add_sub_cancel' (by omega)] at congruent
    exact (Nat.modEq_zero_iff_dvd).mp (congruent.symm.trans (by simp [Nat.ModEq]))
  constructor
  · exact (represents_top_iff large (internet_sum_represents _)).mpr ⟨by omega, multiple⟩
  · intro left right low high otherLow otherHigh evenLeft same
    have exchanged := words_exchange evenLeft otherLow otherHigh right
    rw [same, words_exchange evenLeft] at multiple
    have lowBound := low.toNat_lt
    have highBound := high.toNat_lt
    have otherLowBound := otherLow.toNat_lt
    have otherHighBound := otherHigh.toNat_lt
    have below : low.toNat + 256 * high.toNat < 65536 := by omega
    have otherBelow : otherLow.toNat + 256 * otherHigh.toNat < 65536 := by omega
    have still := multiple_exchanged_iff large below otherBelow multiple
    rw [show (0xffff : Nat) = 65536 - 1 from rfl,
      represents_top_iff large (internet_sum_represents _), exchanged]
    exact and_congr_right fun _ => still

/-- The request of `ping` -/
theorem request_protected : internetSum (filled [icmpEcho, 0] [0, 0, 0, 0]) = 0xffff ∧
    ∀ left right low high otherLow otherHigh, left.length % 2 = 0 →
      filled [icmpEcho, 0] [0, 0, 0, 0] = left ++ low :: high :: right →
        (internetSum (left ++ otherLow :: otherHigh :: right) = 0xffff ↔
          0 < (words (left ++ otherLow :: otherHigh :: right)).sum ∧
            ((low.toNat + 256 * high.toNat = otherLow.toNat + 256 * otherHigh.toNat) ∨
              (low.toNat + 256 * high.toNat = 0 ∧
                otherLow.toNat + 256 * otherHigh.toNat = 0xffff) ∨
              (low.toNat + 256 * high.toNat = 0xffff ∧
                otherLow.toNat + 256 * otherHigh.toNat = 0))) :=
  filled_checksum_protects rfl (by decide) ⟨icmpEcho, by decide, by decide⟩

end Filled

end RProxy.Ping
