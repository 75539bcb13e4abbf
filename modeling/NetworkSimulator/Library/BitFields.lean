import Mathlib.Algebra.Order.Ring.Nat
import Mathlib.Tactic.Common

/-!
# Bit fields in the lower half of a word

A field of `n` bits from bit `c` of a 32-bit word is read with a mask that is the highest of the 32 bits, shifted
`n - 1` places as a signed number and then to its place as an unsigned one. Where the word has 32 bits the first
shift fills in ones; in a wider word the number is not negative and one bit is all that is left of the mask.
-/

namespace NetworkSimulator.Library
variable {W n c i q : ℕ} {w v : BitVec W}

/-- A word of the platform. -/
def IsWord (W : ℕ) : Prop := W = 32 ∨ W = 64

/-- `m = 0x80000000; m >>= n - 1`, taken as unsigned -/
def signMask (W n : ℕ) : BitVec W := (BitVec.ofNat W 0x80000000).sshiftRight (n - 1)

def fieldMask (W n c : ℕ) : BitVec W := signMask W n >>> (32 - (c + n))

def readField (n c : ℕ) (w : BitVec W) : BitVec W := (w &&& fieldMask W n c) >>> c

/-- The field is cleared and a value is put there. -/
def writeField (n c : ℕ) (v w : BitVec W) : BitVec W := (w &&& ~~~fieldMask W n c) ||| (v <<< c)

lemma getLsbD_signBit (h : 32 ≤ W) : (BitVec.ofNat W 0x80000000).getLsbD i = decide (i = 31) := by
  have hbit : (0x80000000 : ℕ) = 2 ^ 31 := by decide
  rw [BitVec.getLsbD_ofNat, hbit, Nat.testBit_two_pow, Bool.eq_iff_iff]
  simp only [Bool.and_eq_true, decide_eq_true_eq]
  omega

/-- A mask of `n` bits in a word of 32, and of the lowest one of them in a wider word. -/
lemma getLsbD_signMask (hW : IsWord W) (hn : 0 < n) (hn' : n ≤ 32) :
    (signMask W n).getLsbD i = decide (32 - n ≤ i ∧ i < 32 ∧ (W = 32 ∨ i = 32 - n)) := by
  rcases hW with rfl | rfl
  · have hmsb : (BitVec.ofNat 32 0x80000000).msb = true := by decide
    rw [signMask, BitVec.getLsbD_sshiftRight, getLsbD_signBit (by decide), hmsb, Bool.eq_iff_iff]
    simp only [Bool.and_eq_true, Bool.not_eq_true', decide_eq_true_eq, decide_eq_false_iff_not]
    split
    · simp only [decide_eq_true_eq, true_or, and_true]
      omega
    · simp only [and_true, true_or]
      omega
  · have hmsb : (BitVec.ofNat 64 0x80000000).msb = false := by decide
    rw [signMask, BitVec.getLsbD_sshiftRight, getLsbD_signBit (by decide), hmsb, Bool.eq_iff_iff]
    simp only [Bool.and_eq_true, Bool.not_eq_true', decide_eq_true_eq, decide_eq_false_iff_not]
    split
    · simp only [decide_eq_true_eq]
      omega
    · simp only [Bool.false_eq_true, and_false, false_iff]
      omega

lemma getLsbD_fieldMask (hW : IsWord W) (hn : 0 < n) (hc : c + n ≤ 32) :
    (fieldMask W n c).getLsbD i = decide (c ≤ i ∧ i < c + n ∧ (W = 32 ∨ i = c)) := by
  rw [fieldMask, BitVec.getLsbD_ushiftRight, getLsbD_signMask hW hn (by omega), decide_eq_decide]
  omega

/-- The bits that are read from a field. -/
lemma getLsbD_readField (hW : IsWord W) (hn : 0 < n) (hc : c + n ≤ 32) :
    (readField n c w).getLsbD q = (w.getLsbD (c + q) && decide (q < n ∧ (W = 32 ∨ q = 0))) := by
  rw [readField, BitVec.getLsbD_ushiftRight, BitVec.getLsbD_and, getLsbD_fieldMask hW hn hc]
  congr 1
  rw [decide_eq_decide]
  omega

lemma getLsbD_of_lt (hv : v.toNat < 2 ^ n) (hi : n ≤ i) : v.getLsbD i = false := by
  rw [← BitVec.testBit_toNat]
  exact Nat.testBit_lt_two_pow (Nat.lt_of_lt_of_le hv (Nat.pow_le_pow_right (by decide) hi))

/-- What is left of a value in a field: all of it in a word of 32 bits, its lowest bit in a wider word. -/
def fieldValue (v : BitVec W) : BitVec W := if W = 32 then v else v &&& 1

lemma getLsbD_fieldValue (hW : IsWord W) :
    (fieldValue v).getLsbD q = (v.getLsbD q && decide (W = 32 ∨ q = 0)) := by
  rw [fieldValue]
  split
  · next h => rw [decide_eq_true (.inl h), Bool.and_true]
  · next h =>
    have hone : (1 : BitVec W).getLsbD q = decide (W = 32 ∨ q = 0) := by
      rw [show (1 : BitVec W) = 1#W from rfl, BitVec.getLsbD_one, Bool.eq_iff_iff]
      simp only [Bool.and_eq_true, decide_eq_true_eq]
      rcases hW with h' | h' <;> omega
    rw [BitVec.getLsbD_and, hone]

lemma getLsbD_writeField (hW : IsWord W) (hn : 0 < n) (hc : c + n ≤ 32) :
    (writeField n c v w).getLsbD i =
      (w.getLsbD i && !decide (c ≤ i ∧ i < c + n ∧ (W = 32 ∨ i = c)) ||
        (decide (i < W) && !decide (i < c) && v.getLsbD (i - c))) := by
  rw [writeField, BitVec.getLsbD_or, BitVec.getLsbD_and, BitVec.getLsbD_not, getLsbD_fieldMask hW hn hc,
    BitVec.getLsbD_shiftLeft]
  by_cases hi : i < W
  · rw [decide_eq_true hi, Bool.true_and]
  · rw [BitVec.getLsbD_of_ge w i (by omega), Bool.false_and, Bool.false_and]

/-- A field reads back what is left of the value. -/
lemma readField_writeField (hW : IsWord W) (hn : 0 < n) (hc : c + n ≤ 32) (hv : v.toNat < 2 ^ n) :
    readField n c (writeField n c v w) = fieldValue v := by
  refine BitVec.eq_of_getLsbD_eq fun q _ => ?_
  have hle : 32 ≤ W := by rcases hW with rfl | rfl <;> decide
  rw [getLsbD_readField hW hn hc, getLsbD_fieldValue hW, getLsbD_writeField hW hn hc, Nat.add_sub_cancel_left]
  by_cases hq : q < n ∧ (W = 32 ∨ q = 0)
  · have hmask : c ≤ c + q ∧ c + q < c + n ∧ (W = 32 ∨ c + q = c) := by omega
    have hshift : ¬c + q < c := by omega
    rw [decide_eq_true hmask, decide_eq_true hq, decide_eq_true hq.2, decide_eq_true (show c + q < W by omega),
      decide_eq_false hshift]
    simp
  · by_cases hlt : q < n
    · rw [decide_eq_false hq, decide_eq_false fun h => hq ⟨hlt, h⟩, Bool.and_false, Bool.and_false]
    · rw [decide_eq_false hq, getLsbD_of_lt hv (not_lt.mp hlt), Bool.and_false, Bool.false_and]

/-- Fields that do not meet are independent. -/
lemma readField_writeField_of_disjoint {m d : ℕ} (hW : IsWord W) (hn : 0 < n) (hc : c + n ≤ 32) (hm : 0 < m)
    (hd : d + m ≤ 32) (hv : v.toNat < 2 ^ n) (hdisj : c + n ≤ d ∨ d + m ≤ c) :
    readField m d (writeField n c v w) = readField m d w := by
  refine BitVec.eq_of_getLsbD_eq fun q _ => ?_
  rw [getLsbD_readField hW hm hd, getLsbD_readField hW hm hd, getLsbD_writeField hW hn hc]
  by_cases hq : q < m
  · have hmask : ¬(c ≤ d + q ∧ d + q < c + n ∧ (W = 32 ∨ d + q = c)) := by omega
    have hput : (!decide (d + q < c) && v.getLsbD (d + q - c)) = false := by
      by_cases hlow : d + q < c
      · rw [decide_eq_true hlow, Bool.not_true, Bool.false_and]
      · rw [getLsbD_of_lt hv (by omega), Bool.and_false]
    rw [decide_eq_false hmask, Bool.and_assoc, hput, Bool.and_false, Bool.or_false, Bool.not_false, Bool.and_true]
  · rw [decide_eq_false (p := q < m ∧ (W = 32 ∨ q = 0)) fun h => hq h.1, Bool.and_false, Bool.and_false]

/-- Just the numbers 0 and 1 are left as they are in a word that is wider than 32 bits. -/
lemma fieldValue_eq_iff (hW : IsWord W) : fieldValue v = v ↔ W = 32 ∨ v.toNat ≤ 1 := by
  rw [fieldValue]
  split
  · next h => exact ⟨fun _ => .inl h, fun _ => rfl⟩
  · next h =>
    have hone : (1 : BitVec W).toNat = 1 := by rcases hW with rfl | rfl <;> rfl
    rw [← BitVec.toNat_inj, BitVec.toNat_and, hone, Nat.and_one_is_mod]
    omega

end NetworkSimulator.Library
