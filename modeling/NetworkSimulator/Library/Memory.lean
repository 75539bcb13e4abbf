import Mathlib.Algebra.Group.Nat.Defs
import Mathlib.Data.List.Basic
import Mathlib.Data.Nat.Basic
import Mathlib.Order.Basic
import Mathlib.Tactic.Common

/-!
# Memory of bytes

A memory has a byte at each address. What has been stored is loaded again, and a store changes nothing
outside of its range. Words are stored with the least significant byte first.
-/

namespace NetworkSimulator.Library

abbrev Memory := ℕ → UInt8

def store (m : Memory) (a : ℕ) (bs : List UInt8) : Memory := fun i =>
  if a ≤ i then bs[i - a]?.getD (m i) else m i

def load (m : Memory) : ℕ → ℕ → List UInt8
  | _, 0 => []
  | a, n + 1 => m a :: load m (a + 1) n

def bytes16 (v : ℕ) : List UInt8 := [UInt8.ofNat v, UInt8.ofNat (v / 256)]

def load16 (m : Memory) (a : ℕ) : ℕ := (m a).toNat + 256 * (m (a + 1)).toNat

def bytes32 (w : UInt32) : List UInt8 :=
  [UInt8.ofNat w.toNat, UInt8.ofNat (w.toNat / 256), UInt8.ofNat (w.toNat / 65536), UInt8.ofNat (w.toNat / 16777216)]

def load32 (m : Memory) (a : ℕ) : UInt32 :=
  UInt32.ofNat ((m a).toNat + 256 * (m (a + 1)).toNat + 65536 * (m (a + 2)).toNat + 16777216 * (m (a + 3)).toNat)

def load32s (m : Memory) : ℕ → ℕ → List UInt32
  | _, 0 => []
  | a, n + 1 => load32 m a :: load32s m (a + 4) n

/-- The bit-field of the low `w` bits of a byte. -/
def field (m : Memory) (a w : ℕ) : ℕ := (m a).toNat % 2 ^ w

def storeField (m : Memory) (a w v : ℕ) : Memory :=
  store m a [UInt8.ofNat ((m a).toNat / 2 ^ w * 2 ^ w + v % 2 ^ w)]

variable {m m' : Memory} {a b i n k : ℕ} {bs : List UInt8}

/-- Two memories have the same bytes from `a` on, before `b`. -/
def Agree (m m' : Memory) (a b : ℕ) : Prop := ∀ i, a ≤ i → i < b → m' i = m i

lemma agree_refl : Agree m m a b := fun _ _ _ => rfl

lemma Agree.trans {m'' : Memory} (h : Agree m m' a b) (h' : Agree m' m'' a b) : Agree m m'' a b :=
  fun i h₁ h₂ => (h' i h₁ h₂).trans (h i h₁ h₂)

lemma Agree.mono {c d : ℕ} (h : Agree m m' a b) (h₁ : a ≤ c) (h₂ : d ≤ b) : Agree m m' c d :=
  fun i hi hj => h i (h₁.trans hi) (lt_of_lt_of_le hj h₂)

lemma store_of_lt (h : i < a) : store m a bs i = m i := if_neg (not_le.mpr h)

lemma store_of_le (h : a + bs.length ≤ i) : store m a bs i = m i := by
  unfold store
  rw [if_pos (by omega), List.getElem?_eq_none (by omega)]
  rfl

lemma agree_store_of_le (h : b ≤ a) : Agree m (store m a bs) k b := fun _ _ hi => store_of_lt (by omega)

lemma agree_store_of_ge (h : a + bs.length ≤ k) : Agree m (store m a bs) k b := fun _ hi _ => store_of_le (by omega)

@[simp] lemma store_singleton_self (v : UInt8) : store m a [v] a = v := by simp [store]

@[simp] lemma length_load : (load m a n).length = n := by
  induction n generalizing a with
  | zero => rfl
  | succ n ih =>
    rw [load, List.length_cons, ih]

lemma load_eq_iff : load m a n = load m' b n ↔ ∀ i < n, m (a + i) = m' (b + i) := by
  induction n generalizing a b with
  | zero => simp [load]
  | succ n ih =>
    rw [load, load, List.cons.injEq, ih]
    constructor
    · rintro ⟨h₀, h⟩ i hi
      cases i with
      | zero => exact h₀
      | succ i =>
        have hi' := h i (by omega)
        rwa [Nat.add_right_comm, Nat.add_right_comm b] at hi'
    · intro h
      refine ⟨h 0 (Nat.succ_pos n), fun i hi => ?_⟩
      have hi' := h (i + 1) (by omega)
      rwa [Nat.add_right_comm, Nat.add_right_comm b]

lemma load_congr (h : Agree m m' a (a + n)) : load m' a n = load m a n :=
  load_eq_iff.mpr fun i hi => h (a + i) (Nat.le_add_right a i) (by omega)

lemma load_add : load m a (n + k) = load m a n ++ load m (a + n) k := by
  induction n generalizing a with
  | zero => simp [load]
  | succ n ih =>
    rw [Nat.add_right_comm, load, ih, load, List.cons_append]
    congr 3
    omega

lemma load_store_self : load (store m a bs) a bs.length = bs := by
  induction bs generalizing m a with
  | nil => rfl
  | cons v bs ih =>
    have hstep : ∀ i, store m a (v :: bs) (a + 1 + i) = store m (a + 1) bs (a + 1 + i) := by
      intro i
      unfold store
      rw [if_pos (by omega), if_pos (by omega), show a + 1 + i - a = i + 1 by omega,
        show a + 1 + i - (a + 1) = i by omega, List.getElem?_cons_succ]
    have hhead : store m a (v :: bs) a = v := by simp [store]
    rw [List.length_cons, load, hhead, load_eq_iff.mpr fun i _ => hstep i, ih]

/-- A range that is copied to another place. -/
lemma load_store_load : load (store m a (load m' b n)) a n = load m' b n := by
  have hlength : (load m' b n).length = n := length_load
  have hself : load (store m a (load m' b n)) a (load m' b n).length = load m' b n := load_store_self
  rwa [hlength] at hself

lemma store_load (h : i < n) : store m a (load m' b n) (a + i) = m' (b + i) := by
  exact load_eq_iff.mp load_store_load i h

/-- The bytes of a range are the same one address further on only if they are all the same. -/
lemma load_succ_eq_iff : load m (a + 1) n = load m a n ↔ ∀ i < n, m (a + i) = m (a + n) := by
  rw [load_eq_iff]
  constructor
  · intro h i hi
    have hstep : ∀ k, i + k ≤ n → m (a + i) = m (a + (i + k)) := by
      intro k
      induction k with
      | zero => exact fun _ => rfl
      | succ k ih =>
        intro hk
        have hnext := h (i + k) (by omega)
        rw [ih (by omega), ← hnext, show a + 1 + (i + k) = a + (i + (k + 1)) by omega]
    have hlast := hstep (n - i) (by omega)
    rwa [show i + (n - i) = n by omega] at hlast
  · intro h i hi
    by_cases hlast : i + 1 = n
    · rw [h i hi, ← hlast, Nat.add_right_comm, Nat.add_assoc]
    · rw [h i hi, ← h (i + 1) (by omega), Nat.add_right_comm, Nat.add_assoc]

/-! ### Words -/

lemma load_two : load m a 2 = [m a, m (a + 1)] := rfl

lemma load_four : load m a 4 = [m a, m (a + 1), m (a + 2), m (a + 3)] := rfl

lemma load16_eq_iff {v : ℕ} (hv : v < 65536) : load16 m a = v ↔ load m a 2 = bytes16 v := by
  have h₀ := (m a).toNat_lt
  have h₁ := (m (a + 1)).toNat_lt
  rw [load_two, load16, bytes16]
  simp only [List.cons.injEq, and_true, ← UInt8.toNat_inj, UInt8.toNat_ofNat']
  omega

lemma load32_eq_iff {w : UInt32} : load32 m a = w ↔ load m a 4 = bytes32 w := by
  have h₀ := (m a).toNat_lt
  have h₁ := (m (a + 1)).toNat_lt
  have h₂ := (m (a + 2)).toNat_lt
  have h₃ := (m (a + 3)).toNat_lt
  have hw := w.toNat_lt
  rw [load_four, load32, bytes32]
  simp only [List.cons.injEq, and_true, ← UInt8.toNat_inj, ← UInt32.toNat_inj, UInt8.toNat_ofNat',
    UInt32.toNat_ofNat']
  omega

lemma load32_congr (h : Agree m m' a (a + 4)) : load32 m' a = load32 m a := by
  unfold load32
  rw [h a le_rfl (by omega), h (a + 1) (by omega) (by omega), h (a + 2) (by omega) (by omega),
    h (a + 3) (by omega) (by omega)]

lemma load16_congr (h : Agree m m' a (a + 2)) : load16 m' a = load16 m a := by
  unfold load16
  rw [h a le_rfl (by omega), h (a + 1) (by omega) (by omega)]

lemma load32_store {w : UInt32} : load32 (store m a (bytes32 w)) a = w := load32_eq_iff.mpr load_store_self

lemma load32s_congr (h : Agree m m' a (a + 4 * n)) : load32s m' a n = load32s m a n := by
  induction n generalizing a with
  | zero => rfl
  | succ n ih =>
    rw [load32s, load32s, load32_congr (h.mono le_rfl (by omega)), ih (h.mono (by omega) (by omega))]

lemma load32s_shift (h : ∀ i < 4 * n, m' (b + i) = m (a + i)) : load32s m' b n = load32s m a n := by
  induction n generalizing a b with
  | zero => rfl
  | succ n ih =>
    have hfirst : load32 m' b = load32 m a := by
      unfold load32
      rw [show m' b = m a from h 0 (by omega), h 1 (by omega), h 2 (by omega), h 3 (by omega)]
    rw [load32s, load32s, hfirst, ih fun i hi => ?_]
    rw [Nat.add_assoc, h _ (by omega), Nat.add_assoc]

lemma load32s_eq_iff {ws : List UInt32} :
    load32s m a ws.length = ws ↔ load m a (4 * ws.length) = ws.flatMap bytes32 := by
  induction ws generalizing a with
  | nil => simp [load32s, load]
  | cons w ws ih =>
    rw [List.length_cons, load32s, List.cons.injEq, ih, load32_eq_iff, List.flatMap_cons,
      show 4 * (ws.length + 1) = 4 + 4 * ws.length by omega, load_add]
    constructor
    · rintro ⟨h₁, h₂⟩
      rw [h₁, h₂]
    · exact fun h => List.append_inj h rfl

/-! ### Bit-fields -/

lemma field_storeField {w v : ℕ} (hw : w ≤ 8) : field (storeField m a w v) a w = v % 2 ^ w := by
  have hdvd : 2 ^ w ∣ 2 ^ 8 := Nat.pow_dvd_pow 2 hw
  rw [field, storeField, store_singleton_self, UInt8.toNat_ofNat', Nat.mod_mod_of_dvd _ hdvd, Nat.add_comm,
    Nat.add_mul_mod_self_right, Nat.mod_mod]

lemma field_congr {w : ℕ} (h : m' a = m a) : field m' a w = field m a w := by rw [field, field, h]

lemma storeField_of_ne {w v : ℕ} (h : i ≠ a) : storeField m a w v i = m i := by
  unfold storeField
  rcases Nat.lt_or_gt_of_ne h with h | h
  · exact store_of_lt h
  · exact store_of_le h

end NetworkSimulator.Library
