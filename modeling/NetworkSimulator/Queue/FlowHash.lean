import Mathlib.Algebra.Order.Ring.Int
import Mathlib.Tactic.Common

/-!
# The buckets that SFQ and DRR hash packets to

The arithmetic is the one of `int`: additions wrap around, `>>` keeps the sign and the remainder has the sign
of the dividend.
-/

namespace NetworkSimulator

/-- `k + (k >> 8) + ~(k >> 4)` -/
def mixFlow (k : Int32) : Int32 := k + (k >>> 8) + ~~~(k >>> 4)

namespace Sfq

def hash (saddr daddr : Int32) : Int32 := mixFlow (saddr + daddr) % ((2 : Int32) <<< 19 - 1)

/-- The index that `enque` takes a bucket at. -/
def which (buckets saddr daddr : Int32) : Int32 := hash saddr daddr % buckets

end Sfq

namespace Drr

def hash (mask saddr : Int32) : Int32 :=
  let i := if mask ≠ 0 then saddr &&& 0xfff0 else saddr
  mixFlow i % ((2 : Int32) <<< 23 - 1) + 1

/-- The index that `enque` takes a bucket at. -/
def which (mask buckets saddr : Int32) : Int32 := hash mask saddr % buckets

end Drr

variable {k mask buckets saddr daddr : Int32} {b m : ℤ}

/-- A bucket of the array. -/
def InArray (buckets which : Int32) : Prop := 0 ≤ which.toInt ∧ which.toInt < buckets.toInt

lemma toInt_shiftRight (k : Int32) (n : Int32) (s : ℕ) (hs : n.toBitVec.smod 32 = BitVec.ofNat 32 s)
    (hlt : s < 32) : (k >>> n).toInt = k.toInt / 2 ^ s := by
  rw [← Int32.toInt_toBitVec, Int32.toBitVec_shiftRight, hs, BitVec.sshiftRight_eq', BitVec.toInt_sshiftRight,
    BitVec.toNat_ofNat, Nat.mod_eq_of_lt (hlt.trans (by decide)), Int.shiftRight_eq_div_pow]
  push_cast
  rfl

/-- No sum of the hash wraps around in the end. -/
lemma toInt_mixFlow (k : Int32) : (mixFlow k).toInt = k.toInt + k.toInt / 256 - k.toInt / 16 - 1 := by
  have hlo := k.le_toInt
  have hhi := k.toInt_lt
  have h8 : (k >>> 8).toInt = k.toInt / 256 := toInt_shiftRight k 8 8 (by decide) (by decide)
  have h4 : (k >>> 4).toInt = k.toInt / 16 := toInt_shiftRight k 4 4 (by decide) (by decide)
  rw [mixFlow, Int32.toInt_add, Int32.toInt_add, Int32.toInt_not, h8, h4, Int.bmod_add_bmod, Int.add_bmod_bmod,
    Int.bmod_eq_of_le (by omega) (by omega)]
  omega

/-- The remainder of a negative number, as C takes it. -/
lemma tmod_of_neg (hm : m < 0) : m.tmod b = -(-m % b) := by
  have hneg : m = -(-m) := by omega
  rw [hneg, Int.neg_tmod, neg_neg, Int.tmod_eq_emod_of_nonneg (by omega)]

lemma inArray_mod (hbuckets : 0 < buckets.toInt) :
    InArray buckets (k % buckets) ↔ 0 ≤ k.toInt ∨ buckets.toInt ∣ k.toInt := by
  rw [InArray, Int32.toInt_mod]
  by_cases hk : 0 ≤ k.toInt
  · rw [Int.tmod_eq_emod_of_nonneg hk]
    exact ⟨fun _ => .inl hk, fun _ => ⟨Int.emod_nonneg _ hbuckets.ne', Int.emod_lt_of_pos _ hbuckets⟩⟩
  · have hnonneg := Int.emod_nonneg (-k.toInt) hbuckets.ne'
    have hdvd : buckets.toInt ∣ k.toInt ↔ -k.toInt % buckets.toInt = 0 :=
      (Int.dvd_neg (b := k.toInt)).symm.trans Int.dvd_iff_emod_eq_zero
    rw [tmod_of_neg (not_le.mp hk), hdvd]
    omega

/-- The sum of the addresses is positive, or what its mixed bits leave to the prime is a multiple of the number
of buckets. -/
lemma Sfq.which_inArray (hbuckets : 0 < buckets.toInt) (hk : (saddr + daddr).toInt = m) :
    InArray buckets (Sfq.which buckets saddr daddr) ↔
      0 < m ∨ buckets.toInt ∣ (1 + m / 16 - m / 256 - m) % 1048575 := by
  have hprime : ((2 : Int32) <<< 19 - 1).toInt = 1048575 := by decide
  rw [Sfq.which, inArray_mod hbuckets, Sfq.hash, Int32.toInt_mod, toInt_mixFlow, hprime, hk]
  by_cases hm : 0 < m
  · rw [Int.tmod_eq_emod_of_nonneg (by omega)]
    exact ⟨fun _ => .inl hm, fun _ => .inl (Int.emod_nonneg _ (by decide))⟩
  · have hneg : -(m + m / 256 - m / 16 - 1) = 1 + m / 16 - m / 256 - m := by omega
    have hnonneg := Int.emod_nonneg (1 + m / 16 - m / 256 - m) (show (1048575 : ℤ) ≠ 0 by decide)
    rw [tmod_of_neg (by omega), hneg, Int.dvd_neg]
    constructor
    · rintro (hzero | hdvd)
      · have hzero : (1 + m / 16 - m / 256 - m) % 1048575 = 0 := by omega
        exact .inr (hzero ▸ Int.dvd_zero _)
      · exact .inr hdvd
    · exact fun h => .inr (h.resolve_left hm)

lemma toInt_and_mask (saddr : Int32) : 0 ≤ (saddr &&& 0xfff0).toInt := by
  have hmask : (0xfff0 : Int32).toBitVec.msb = false := by decide
  have hsign : (saddr &&& 0xfff0).toBitVec.msb = false := by
    rw [Int32.toBitVec_and, BitVec.msb_and, hmask, Bool.and_false]
  rw [← Int32.toInt_toBitVec, BitVec.toInt_eq_toNat_of_msb hsign]
  exact Int.natCast_nonneg _

/-- A source address that is not negative, or one whose mixed bits leave 0 to the prime, or one more than a
multiple of the number of buckets. -/
lemma Drr.which_inArray (hbuckets : 0 < buckets.toInt) (hk : saddr.toInt = m) :
    InArray buckets (Drr.which mask buckets saddr) ↔
      mask ≠ 0 ∨ 0 ≤ m ∨ 16777215 ∣ 1 + m / 16 - m / 256 - m ∨
        buckets.toInt ∣ (1 + m / 16 - m / 256 - m) % 16777215 - 1 := by
  have hprime : ((2 : Int32) <<< 23 - 1).toInt = 16777215 := by decide
  -- the hash without the mask
  have hadd (i : Int32) : (mixFlow i % ((2 : Int32) <<< 23 - 1) + 1).toInt =
      (i.toInt + i.toInt / 256 - i.toInt / 16 - 1).tmod 16777215 + 1 := by
    have hlo := Int.lt_tmod_of_pos (i.toInt + i.toInt / 256 - i.toInt / 16 - 1) (show (0 : ℤ) < 16777215 by decide)
    have hhi := Int.tmod_lt_of_pos (i.toInt + i.toInt / 256 - i.toInt / 16 - 1) (show (0 : ℤ) < 16777215 by decide)
    have hone : (1 : Int32).toInt = 1 := by decide
    rw [Int32.toInt_add, Int32.toInt_mod, toInt_mixFlow, hprime, hone, Int.bmod_eq_of_le (by omega) (by omega)]
  have hnonneg (i : Int32) (hi : 0 ≤ i.toInt) : 0 ≤ (mixFlow i % ((2 : Int32) <<< 23 - 1) + 1).toInt := by
    rw [hadd]
    by_cases hzero : i.toInt = 0
    · rw [hzero]
      decide
    · rw [Int.tmod_eq_emod_of_nonneg (by omega)]
      have := Int.emod_nonneg (i.toInt + i.toInt / 256 - i.toInt / 16 - 1) (show (16777215 : ℤ) ≠ 0 by decide)
      omega
  rw [Drr.which, inArray_mod hbuckets, Drr.hash]
  by_cases hmask : mask ≠ 0
  · rw [if_pos hmask]
    exact ⟨fun _ => .inl hmask, fun _ => .inl (hnonneg _ (toInt_and_mask saddr))⟩
  rw [if_neg hmask]
  by_cases hm : 0 ≤ m
  · exact ⟨fun _ => .inr (.inl hm), fun _ => .inl (hnonneg saddr (hk ▸ hm))⟩
  have hneg : -(m + m / 256 - m / 16 - 1) = 1 + m / 16 - m / 256 - m := by omega
  have hrange := Int.emod_nonneg (1 + m / 16 - m / 256 - m) (show (16777215 : ℤ) ≠ 0 by decide)
  have hflip : -((1 + m / 16 - m / 256 - m) % 16777215) + 1 = -((1 + m / 16 - m / 256 - m) % 16777215 - 1) := by
    omega
  rw [hadd, hk, tmod_of_neg (by omega), hneg, hflip, Int.dvd_neg, Int.dvd_iff_emod_eq_zero (a := 16777215)]
  constructor
  · rintro (hle | hdvd)
    · by_cases hone : (1 + m / 16 - m / 256 - m) % 16777215 = 1
      · exact .inr (.inr (.inr (by rw [hone]; exact Int.dvd_zero _)))
      · exact .inr (.inr (.inl (by omega)))
    · exact .inr (.inr (.inr hdvd))
  · rintro (h | h | hzero | hdvd)
    · exact absurd h hmask
    · exact absurd h hm
    · exact .inl (by omega)
    · exact .inr hdvd

/-- When the buckets that `SFQ::enque` and `DRR::enque` take are in the array. -/
theorem which_inArray_iff (mask buckets saddr daddr : Int32) (hbuckets : 0 < buckets.toInt) :
    let k := (saddr + daddr).toInt
    let i := saddr.toInt
    (InArray buckets (Sfq.which buckets saddr daddr) ↔
      0 < k ∨ buckets.toInt ∣ (1 + k / 16 - k / 256 - k) % 1048575) ∧
    (InArray buckets (Drr.which mask buckets saddr) ↔
      mask ≠ 0 ∨ 0 ≤ i ∨ 16777215 ∣ 1 + i / 16 - i / 256 - i ∨
        buckets.toInt ∣ (1 + i / 16 - i / 256 - i) % 16777215 - 1) :=
  ⟨Sfq.which_inArray hbuckets rfl, Drr.which_inArray hbuckets rfl⟩

/-- A packet to 2 from 1 and one from 1. -/
theorem which_inArray_small : InArray 16 (Sfq.which 16 1 2) ∧ InArray 16 (Drr.which 0 16 1) := by
  obtain ⟨hsfq, hdrr⟩ := which_inArray_iff 0 16 1 2 (by decide)
  exact ⟨hsfq.mpr (.inl (by decide)), hdrr.mpr (.inr (.inl (by decide)))⟩

/-- Packets between nodes 0 and 0 and packets from the broadcast address are put in front of the array. -/
theorem which_before_array : ¬InArray 16 (Sfq.which 16 0 0) ∧ ¬InArray 16 (Drr.which 0 16 (-1)) := by
  unfold InArray
  decide

end NetworkSimulator
