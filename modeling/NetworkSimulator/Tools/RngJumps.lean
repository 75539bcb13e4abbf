import NetworkSimulator.Library.Runs
import NetworkSimulator.Tools.Rng
import Mathlib.Algebra.Order.Field.Basic
import Mathlib.Data.Int.ModEq
import Mathlib.Data.ZMod.Basic
import Mathlib.LinearAlgebra.Matrix.Notation
import Mathlib.LinearAlgebra.Matrix.NonsingularInverse
import Mathlib.Tactic.FinCases
import Mathlib.Tactic.LinearCombination

/-!
# Jumps of the random number generator

Each component is a linear recurrence over the integers modulo `m`: the arithmetic of the program computes matrix
products there, so that a jump is a power of the transition matrix.
-/

namespace NetworkSimulator
open Library
open scoped Matrix

namespace Rng

/-! ### The arithmetic -/

/-- The remainder of the truncating division, made non-negative. -/
lemma tdiv_rem (v : ℤ) {m : ℤ} (hm : 0 < m) :
    (if v - v.tdiv m * m < 0 then v - v.tdiv m * m + m else v - v.tdiv m * m) = v % m := by
  have hrem : v - v.tdiv m * m = v.tmod m := by
    rw [Int.tmod_def, Int.mul_comm]
  have hlt := Int.tmod_lt_of_pos v hm
  have hgt := Int.lt_tmod_of_pos v hm
  rw [hrem]
  split
  next hneg =>
    have hmod : v.tmod m + m ≡ v [ZMOD m] :=
      Int.modEq_iff_dvd.mpr ⟨v.tdiv m - 1, by linear_combination hrem⟩
    rw [← hmod, Int.emod_eq_of_lt (by omega) (by omega)]
  next hpos =>
    have hmod : v.tmod m ≡ v [ZMOD m] := Int.modEq_iff_dvd.mpr ⟨v.tdiv m, by linear_combination hrem⟩
    rw [← hmod, Int.emod_eq_of_lt (by omega) hlt]

/-- Splitting the first factor does not change the result. -/
lemma MultModM_eq (a s c : ℤ) {m : ℤ} (hm : 0 < m) : MultModM a s c m = (a * s + c) % m := by
  unfold MultModM
  dsimp only
  rw [tdiv_rem _ hm]
  split
  next =>
    refine Int.modEq_iff_dvd.mpr ⟨(a.tdiv two17 * s).tdiv m * two17, ?_⟩
    ring
  next => rfl

/-! ### Vectors and matrices modulo m -/

variable (m : ℕ)

def Vec3.toVec (s : Vec3) : Fin 3 → ZMod m := ![s.v0, s.v1, s.v2]

def Mat3.toMatrix (A : Mat3) : Matrix (Fin 3) (Fin 3) (ZMod m) :=
  !![(A.r0.v0 : ZMod m), A.r0.v1, A.r0.v2; A.r1.v0, A.r1.v1, A.r1.v2; A.r2.v0, A.r2.v1, A.r2.v2]

/-- All numbers are reduced. -/
structure Vec3.Below (s : Vec3) : Prop where
  v0 : 0 ≤ s.v0 ∧ s.v0 < m
  v1 : 0 ≤ s.v1 ∧ s.v1 < m
  v2 : 0 ≤ s.v2 ∧ s.v2 < m

variable {m} {A B : Mat3} {s t : Vec3}

lemma eq_of_cast {x y : ℤ} (hx : 0 ≤ x ∧ x < m) (hy : 0 ≤ y ∧ y < m) (h : (x : ZMod m) = y) : x = y := by
  have hmod := (ZMod.intCast_eq_intCast_iff' x y m).mp h
  rwa [Int.emod_eq_of_lt hx.1 hx.2, Int.emod_eq_of_lt hy.1 hy.2] at hmod

/-- A reduced vector is known from its residues. -/
lemma Vec3.Below.ext (hs : s.Below m) (ht : t.Below m) (h : s.toVec m = t.toVec m) : s = t := by
  obtain ⟨s0, s1, s2⟩ := s
  obtain ⟨t0, t1, t2⟩ := t
  congr
  · exact eq_of_cast hs.v0 ht.v0 (congrFun h 0)
  · exact eq_of_cast hs.v1 ht.v1 (congrFun h 1)
  · exact eq_of_cast hs.v2 ht.v2 (congrFun h 2)

section Products
variable (hm : 0 < m)
include hm

lemma rowModM_below (row s : Vec3) : 0 ≤ rowModM row s m ∧ rowModM row s m < m := by
  have hm' : (0 : ℤ) < m := by exact_mod_cast hm
  unfold rowModM
  dsimp only
  rw [MultModM_eq _ _ _ hm']
  exact ⟨Int.emod_nonneg _ hm'.ne', Int.emod_lt_of_pos _ hm'⟩

lemma rowModM_cast (row s : Vec3) :
    (rowModM row s m : ZMod m) = row.v0 * s.v0 + row.v1 * s.v1 + row.v2 * s.v2 := by
  have hm' : (0 : ℤ) < m := by exact_mod_cast hm
  unfold rowModM
  dsimp only
  rw [MultModM_eq _ _ _ hm', MultModM_eq _ _ _ hm', MultModM_eq _ _ _ hm']
  push_cast [ZMod.intCast_mod]
  ring

lemma MatVecModM_below (A : Mat3) (s : Vec3) : (MatVecModM A s m).Below m :=
  ⟨rowModM_below hm _ _, rowModM_below hm _ _, rowModM_below hm _ _⟩

lemma MatVecModM_toVec (A : Mat3) (s : Vec3) : (MatVecModM A s m).toVec m = A.toMatrix m *ᵥ s.toVec m := by
  funext i
  fin_cases i <;>
    simp [MatVecModM, Vec3.toVec, Mat3.toMatrix, rowModM_cast hm, Matrix.mulVec, dotProduct, Fin.sum_univ_three]

lemma MatMatModM_toMatrix (A B : Mat3) : (MatMatModM A B m).toMatrix m = A.toMatrix m * B.toMatrix m := by
  ext i j
  fin_cases i <;> fin_cases j <;>
    simp [MatMatModM, MatVecModM, Mat3.transpose, Mat3.toMatrix, rowModM_cast hm, Matrix.mul_apply, Fin.sum_univ_three]

lemma MatTwoPowModM_toMatrix (A : Mat3) (e : ℕ) : (MatTwoPowModM A m e).toMatrix m = A.toMatrix m ^ 2 ^ e := by
  induction e with
  | zero => rw [MatTwoPowModM, pow_zero, pow_one]
  | succ e ih => rw [MatTwoPowModM, MatMatModM_toMatrix hm, ih, ← pow_add, pow_succ, mul_two]

lemma powLoop_toMatrix (W B : Mat3) (n : ℕ) : (powLoop m W B n).toMatrix m = W.toMatrix m ^ n * B.toMatrix m := by
  induction n using Nat.strong_induction_on generalizing W B with
  | h n ih =>
    rw [powLoop]
    split
    next hn => rw [hn, pow_zero, one_mul]
    next hn =>
      have hhalf : W.toMatrix m ^ n = (W.toMatrix m * W.toMatrix m) ^ (n / 2) * W.toMatrix m ^ (n % 2) := by
        rw [← pow_two, ← pow_mul, ← pow_add, Nat.div_add_mod]
      rw [ih (n / 2) (by omega), MatMatModM_toMatrix hm, hhalf, mul_assoc]
      congr 1
      rcases Nat.mod_two_eq_zero_or_one n with hodd | hodd
      · rw [if_neg (by omega), hodd, pow_zero, one_mul]
      · rw [if_pos (by omega), hodd, pow_one, MatMatModM_toMatrix hm]

lemma MatPowModM_toMatrix (A : Mat3) (n : ℕ) : (MatPowModM A m n).toMatrix m = A.toMatrix m ^ n := by
  have hone : identity.toMatrix m = 1 := by
    ext i j
    fin_cases i <;> fin_cases j <;> simp [identity, Mat3.toMatrix]
  rw [MatPowModM, powLoop_toMatrix hm, hone, mul_one]

end Products

/-! ### Linear recurrences -/

/-- How far `advance_state` goes. -/
def jump (e c : ℤ) : ℤ := (if e > 0 then 2 ^ e.toNat else if e < 0 then -2 ^ (-e).toNat else 0) + c

/-- A step of a component is one application of its matrix, and the matrix has an inverse. -/
structure Recurrence (m : ℕ) (A InvA : Mat3) (f : Vec3 → Vec3) : Prop where
  pos : 0 < m
  inv : A.toMatrix m * InvA.toMatrix m = 1
  step : ∀ s, (f s).toVec m = A.toMatrix m *ᵥ s.toVec m
  below : ∀ s, s.Below m → (f s).Below m

namespace Recurrence
variable {InvA : Mat3} {f : Vec3 → Vec3} (h : Recurrence m A InvA f)
include h

/-- The transition matrix as a unit. -/
def unit : (Matrix (Fin 3) (Fin 3) (ZMod m))ˣ :=
  ⟨A.toMatrix m, InvA.toMatrix m, h.inv, mul_eq_one_comm.mp h.inv⟩

lemma jumpMatrix_toMatrix (e c : ℤ) :
    (jumpMatrix A InvA m e c).toMatrix m = ((h.unit ^ jump e c : (Matrix (Fin 3) (Fin 3) (ZMod m))ˣ) : Matrix _ _ _) := by
  have hpow : ∀ n : ℕ, A.toMatrix m ^ n = ((h.unit ^ (n : ℤ) : (Matrix (Fin 3) (Fin 3) (ZMod m))ˣ) : Matrix _ _ _) := by
    intro n
    rw [zpow_natCast, Units.val_pow_eq_pow_val]
    rfl
  have hpowInv : ∀ n : ℕ, InvA.toMatrix m ^ n =
      ((h.unit ^ (-n : ℤ) : (Matrix (Fin 3) (Fin 3) (ZMod m))ˣ) : Matrix _ _ _) := by
    intro n
    rw [zpow_neg, zpow_natCast, ← inv_pow, Units.val_pow_eq_pow_val]
    rfl
  have hC : (if c ≥ 0 then MatPowModM A m c.toNat else MatPowModM InvA m (-c).toNat).toMatrix m =
      ((h.unit ^ c : (Matrix (Fin 3) (Fin 3) (ZMod m))ˣ) : Matrix _ _ _) := by
    split
    next hc => rw [MatPowModM_toMatrix h.pos, hpow, Int.toNat_of_nonneg hc]
    next hc => rw [MatPowModM_toMatrix h.pos, hpowInv, Int.toNat_of_nonneg (by omega), neg_neg]
  unfold jumpMatrix jump
  dsimp only
  generalize (if c ≥ 0 then MatPowModM A m c.toNat else MatPowModM InvA m (-c).toNat) = C at hC ⊢
  rcases lt_trichotomy e 0 with he | rfl | he
  · rw [if_pos he.ne, if_neg (by omega), if_neg (by omega), if_pos he, MatMatModM_toMatrix h.pos, hC,
      MatTwoPowModM_toMatrix h.pos, hpowInv, ← Units.val_mul, ← zpow_add]
    push_cast
    rfl
  · rw [if_neg (by simp), if_neg (by simp), if_neg (by simp), hC, zero_add]
  · rw [if_pos he.ne', if_pos he, if_pos he, MatMatModM_toMatrix h.pos, hC, MatTwoPowModM_toMatrix h.pos, hpow,
      ← Units.val_mul, ← zpow_add]
    push_cast
    rfl

lemma iterate_below (hs : s.Below m) (k : ℕ) : (f^[k] s).Below m := by
  induction k generalizing s with
  | zero => exact hs
  | succ k ih => exact ih (h.below s hs)

lemma iterate_toVec (s : Vec3) (k : ℕ) : (f^[k] s).toVec m = A.toMatrix m ^ k *ᵥ s.toVec m := by
  induction k generalizing s with
  | zero => rw [Function.iterate_zero, id, pow_zero, Matrix.one_mulVec]
  | succ k ih => rw [Function.iterate_succ_apply, ih, h.step, Matrix.mulVec_mulVec, ← pow_succ]

/-- A matrix that is a power of the transition matrix jumps as many steps. -/
lemma jump_forward {J : Mat3} {k : ℕ} (hJ : J.toMatrix m = A.toMatrix m ^ k) (hs : s.Below m) :
    MatVecModM J s m = f^[k] s :=
  (MatVecModM_below h.pos J s).ext (h.iterate_below hs k) (by rw [MatVecModM_toVec h.pos, hJ, h.iterate_toVec])

lemma jump_back {J : Mat3} {k : ℕ} (hJ : A.toMatrix m ^ k * J.toMatrix m = 1) (hs : s.Below m) :
    f^[k] (MatVecModM J s m) = s := by
  refine (h.iterate_below (MatVecModM_below h.pos J s) k).ext hs ?_
  rw [h.iterate_toVec, MatVecModM_toVec h.pos, Matrix.mulVec_mulVec, hJ, Matrix.one_mulVec]

lemma advance_forward {e c : ℤ} (hn : 0 ≤ jump e c) (hs : s.Below m) :
    MatVecModM (jumpMatrix A InvA m e c) s m = f^[(jump e c).toNat] s := by
  refine h.jump_forward ?_ hs
  obtain ⟨n, hn⟩ := Int.eq_ofNat_of_zero_le hn
  rw [h.jumpMatrix_toMatrix, hn, Int.toNat_natCast, zpow_natCast, Units.val_pow_eq_pow_val]
  rfl

lemma advance_back {e c : ℤ} (hn : jump e c < 0) (hs : s.Below m) :
    f^[(-jump e c).toNat] (MatVecModM (jumpMatrix A InvA m e c) s m) = s := by
  refine h.jump_back ?_ hs
  obtain ⟨n, hn⟩ := Int.eq_ofNat_of_zero_le (show 0 ≤ -jump e c by omega)
  have hpow : A.toMatrix m ^ n = ((h.unit ^ n : (Matrix (Fin 3) (Fin 3) (ZMod m))ˣ) : Matrix _ _ _) := by
    rw [Units.val_pow_eq_pow_val]
    rfl
  rw [h.jumpMatrix_toMatrix, hn, Int.toNat_natCast, show jump e c = -(n : ℤ) by omega, hpow, ← Units.val_mul, zpow_neg,
    zpow_natCast, mul_inv_cancel, Units.val_one]

/-- No step leads to the zero vector. -/
lemma step_ne_zero (hs : s.toVec m ≠ 0) : (f s).toVec m ≠ 0 := by
  intro hzero
  have hback : InvA.toMatrix m *ᵥ (f s).toVec m = s.toVec m := by
    rw [h.step, Matrix.mulVec_mulVec, mul_eq_one_comm.mp h.inv, Matrix.one_mulVec]
  rw [hzero, Matrix.mulVec_zero] at hback
  exact hs hback.symm

end Recurrence

/-! ### The two components -/

lemma component1_eq (s : Vec3) : component1 s = ⟨s.v1, s.v2, (a12 * s.v1 - a13n * s.v0) % m1⟩ := by
  unfold component1
  dsimp only
  rw [tdiv_rem _ (by decide)]

lemma component2_eq (s : Vec3) : component2 s = ⟨s.v1, s.v2, (a21 * s.v2 - a23n * s.v0) % m2⟩ := by
  unfold component2
  dsimp only
  rw [tdiv_rem _ (by decide)]

lemma identity_toMatrix (m : ℕ) : identity.toMatrix m = 1 := by
  ext i j
  fin_cases i <;> fin_cases j <;> simp [identity, Mat3.toMatrix]

theorem recurrence1 : Recurrence m1 A1p0 InvA1 component1 where
  pos := by decide
  inv := by
    have hinv : MatMatModM A1p0 InvA1 m1 = identity := by decide +kernel
    rw [← MatMatModM_toMatrix (by decide), hinv, identity_toMatrix]
  step s := by
    funext i
    fin_cases i <;>
      simp [component1_eq, Vec3.toVec, Mat3.toMatrix, A1p0, Matrix.mulVec, dotProduct, Fin.sum_univ_three, a12, a13n]
    ring
  below s hs := by
    rw [component1_eq]
    exact ⟨hs.v1, hs.v2, Int.emod_nonneg _ (by decide), Int.emod_lt_of_pos _ (by decide)⟩

theorem recurrence2 : Recurrence m2 A2p0 InvA2 component2 where
  pos := by decide
  inv := by
    have hinv : MatMatModM A2p0 InvA2 m2 = identity := by decide +kernel
    rw [← MatMatModM_toMatrix (by decide), hinv, identity_toMatrix]
  step s := by
    funext i
    fin_cases i <;>
      simp [component2_eq, Vec3.toVec, Mat3.toMatrix, A2p0, Matrix.mulVec, dotProduct, Fin.sum_univ_three, a21, a23n]
    ring
  below s hs := by
    rw [component2_eq]
    exact ⟨hs.v1, hs.v2, Int.emod_nonneg _ (by decide), Int.emod_lt_of_pos _ (by decide)⟩

/-! ### Repeated squaring -/

/-- `k n`, where `n` is computed before `k` is applied. -/
def strict {α : Type} (n : ℕ) (k : ℕ → α) : α :=
  match n with
  | 0 => k 0
  | n + 1 => k (n + 1)

lemma strict_eq {α : Type} (n : ℕ) (k : ℕ → α) : strict n k = k n := by
  cases n <;> rfl

/-- The matrix with the rows `a b c`, `d e f` and `g h i`, squared `n` times. -/
def squares (m : ℕ) : ℕ → (a b c d e f g h i : ℕ) → Mat3
  | 0, a, b, c, d, e, f, g, h, i => ⟨⟨a, b, c⟩, ⟨d, e, f⟩, ⟨g, h, i⟩⟩
  | n + 1, a, b, c, d, e, f, g, h, i =>
    strict ((a * a + b * d + c * g) % m) fun a' => strict ((a * b + b * e + c * h) % m) fun b' =>
    strict ((a * c + b * f + c * i) % m) fun c' => strict ((d * a + e * d + f * g) % m) fun d' =>
    strict ((d * b + e * e + f * h) % m) fun e' => strict ((d * c + e * f + f * i) % m) fun f' =>
    strict ((g * a + h * d + i * g) % m) fun g' => strict ((g * b + h * e + i * h) % m) fun h' =>
    strict ((g * c + h * f + i * i) % m) fun i' => squares m n a' b' c' d' e' f' g' h' i'

lemma squares_toMatrix (m n a b c d e f g h i : ℕ) : (squares m n a b c d e f g h i).toMatrix m =
    !![(a : ZMod m), b, c; d, e, f; g, h, i] ^ 2 ^ n := by
  induction n generalizing a b c d e f g h i with
  | zero => simp [squares, Mat3.toMatrix]
  | succ n ih =>
    simp only [squares, strict_eq]
    rw [ih, pow_succ', pow_mul, pow_two]
    congr 1
    ext j k
    fin_cases j <;> fin_cases k <;> simp [Matrix.mul_apply, Fin.sum_univ_three]

/-- `MatTwoPowModM` with the entries reduced. -/
def Mat3.squares (m : ℕ) (A : Mat3) (n : ℕ) : Mat3 :=
  Rng.squares m n (A.r0.v0 % m).toNat (A.r0.v1 % m).toNat (A.r0.v2 % m).toNat (A.r1.v0 % m).toNat (A.r1.v1 % m).toNat
    (A.r1.v2 % m).toNat (A.r2.v0 % m).toNat (A.r2.v1 % m).toNat (A.r2.v2 % m).toNat

lemma Mat3.squares_toMatrix {m : ℕ} (hm : 0 < m) (A : Mat3) (n : ℕ) :
    (A.squares m n).toMatrix m = A.toMatrix m ^ 2 ^ n := by
  have hcast : ∀ x : ℤ, (((x % m).toNat : ℕ) : ZMod m) = x := fun x => by
    rw [← Int.cast_natCast, Int.toNat_of_nonneg (Int.emod_nonneg x (by omega)), ZMod.intCast_mod]
  unfold Mat3.squares
  rw [Rng.squares_toMatrix]
  simp only [hcast]
  rfl

lemma A1p76_eq : A1p76.toMatrix m1 = A1p0.toMatrix m1 ^ 2 ^ 76 := by
  have hsquares : A1p0.squares m1 76 = A1p76 := by decide +kernel
  rw [← hsquares, Mat3.squares_toMatrix (by decide)]

lemma A2p76_eq : A2p76.toMatrix m2 = A2p0.toMatrix m2 ^ 2 ^ 76 := by
  have hsquares : A2p0.squares m2 76 = A2p76 := by decide +kernel
  rw [← hsquares, Mat3.squares_toMatrix (by decide)]

lemma A1p127_eq : A1p127.toMatrix m1 = A1p0.toMatrix m1 ^ 2 ^ 127 := by
  have hsquares : A1p76.squares m1 51 = A1p127 := by decide +kernel
  rw [← hsquares, Mat3.squares_toMatrix (by decide), A1p76_eq, ← pow_mul, ← pow_add]

lemma A2p127_eq : A2p127.toMatrix m2 = A2p0.toMatrix m2 ^ 2 ^ 127 := by
  have hsquares : A2p76.squares m2 51 = A2p127 := by decide +kernel
  rw [← hsquares, Mat3.squares_toMatrix (by decide), A2p76_eq, ← pow_mul, ← pow_add]

/-! ### States -/

lemma toVec_ne_zero {m : ℕ} {s : Vec3} (hs : s.Below m) : s.toVec m ≠ 0 ↔ s ≠ ⟨0, 0, 0⟩ := by
  refine not_congr ⟨fun hzero => ?_, fun hzero => ?_⟩
  · have hpos : 0 < m := by exact_mod_cast hs.v0.1.trans_lt hs.v0.2
    have hpos' : (0 : ℤ) < m := by exact_mod_cast hpos
    have hbelow : (⟨0, 0, 0⟩ : Vec3).Below m := ⟨⟨le_rfl, hpos'⟩, ⟨le_rfl, hpos'⟩, ⟨le_rfl, hpos'⟩⟩
    refine hs.ext hbelow (hzero.trans ?_)
    funext i
    fin_cases i <;> simp [Vec3.toVec]
  · rw [hzero]
    funext i
    fin_cases i <;> simp [Vec3.toVec]

/-- What `CheckSeed` asks for. -/
structure State.Legal (s : State) : Prop where
  below1 : s.c1.Below m1
  below2 : s.c2.Below m2
  nonzero1 : s.c1 ≠ ⟨0, 0, 0⟩
  nonzero2 : s.c2 ≠ ⟨0, 0, 0⟩

lemma ofSeed_legal {seed : Fin 6 → ℕ} (h : CheckSeed seed = 0) : (State.ofSeed seed).Legal := by
  unfold CheckSeed at h
  split at h
  · cases h
  next h1 =>
  split at h
  · cases h
  next h2 =>
  split at h
  · cases h
  next h3 =>
  split at h
  · cases h
  next h4 =>
  push Not at h1 h2
  refine ⟨⟨?_, ?_, ?_⟩, ⟨?_, ?_, ?_⟩, fun hzero => h3 ?_, fun hzero => h4 ?_⟩
  all_goals simp_all [State.ofSeed]

lemma Recurrence.legal {m : ℕ} {A InvA : Mat3} {f : Vec3 → Vec3} (h : Recurrence m A InvA f) {s : Vec3}
    (hs : s.Below m) (hne : s ≠ ⟨0, 0, 0⟩) (k : ℕ) : (f^[k] s).Below m ∧ f^[k] s ≠ ⟨0, 0, 0⟩ := by
  induction k generalizing s with
  | zero => exact ⟨hs, hne⟩
  | succ k ih =>
    refine ih (h.below s hs) ?_
    rw [← toVec_ne_zero (h.below s hs)]
    exact h.step_ne_zero ((toVec_ne_zero hs).mpr hne)

lemma Recurrence.start_ne_zero {m : ℕ} {A InvA : Mat3} {f : Vec3 → Vec3} (h : Recurrence m A InvA f) {s : Vec3}
    (hs : s.Below m) {k : ℕ} (hne : f^[k] s ≠ ⟨0, 0, 0⟩) : s ≠ ⟨0, 0, 0⟩ := by
  rw [← toVec_ne_zero (h.iterate_below hs k), h.iterate_toVec] at hne
  rw [← toVec_ne_zero hs]
  intro hzero
  rw [hzero, Matrix.mulVec_zero] at hne
  exact hne rfl

lemma iterate_next (s : State) (k : ℕ) : State.next^[k] s = ⟨component1^[k] s.c1, component2^[k] s.c2⟩ := by
  induction k generalizing s with
  | zero => rfl
  | succ k ih => exact ih s.next

namespace State
variable {s : State}

lemma Legal.iterate (h : s.Legal) (k : ℕ) : (State.next^[k] s).Legal := by
  rw [iterate_next]
  obtain ⟨hbelow1, hne1⟩ := recurrence1.legal h.below1 h.nonzero1 k
  obtain ⟨hbelow2, hne2⟩ := recurrence2.legal h.below2 h.nonzero2 k
  exact ⟨hbelow1, hbelow2, hne1, hne2⟩

/-- Powers of the transition matrices are jumps. -/
lemma Legal.through (h : s.Legal) {J1 J2 : Mat3} {k : ℕ} (h1 : J1.toMatrix m1 = A1p0.toMatrix m1 ^ k)
    (h2 : J2.toMatrix m2 = A2p0.toMatrix m2 ^ k) : s.through J1 J2 = State.next^[k] s := by
  rw [iterate_next, State.through, recurrence1.jump_forward h1 h.below1, recurrence2.jump_forward h2 h.below2]

lemma Legal.substream (h : s.Legal) : s.through A1p76 A2p76 = State.next^[2 ^ 76] s :=
  h.through A1p76_eq A2p76_eq

lemma Legal.stream (h : s.Legal) : s.through A1p127 A2p127 = State.next^[2 ^ 127] s :=
  h.through A1p127_eq A2p127_eq

/-- The state after `advance_state`. -/
def advance (s : State) (e c : ℤ) : State := s.through (jumpMatrix A1p0 InvA1 m1 e c) (jumpMatrix A2p0 InvA2 m2 e c)

lemma Legal.advance_forward (h : s.Legal) {e c : ℤ} (hn : 0 ≤ jump e c) :
    s.advance e c = State.next^[(jump e c).toNat] s := by
  rw [iterate_next, advance, State.through, recurrence1.advance_forward hn h.below1,
    recurrence2.advance_forward hn h.below2]

lemma Legal.advance_back (h : s.Legal) {e c : ℤ} (hn : jump e c < 0) :
    State.next^[(-jump e c).toNat] (s.advance e c) = s := by
  rw [iterate_next, advance, State.through, recurrence1.advance_back hn h.below1, recurrence2.advance_back hn h.below2]

lemma Legal.advance (h : s.Legal) (e c : ℤ) : (s.advance e c).Legal := by
  by_cases hn : 0 ≤ jump e c
  · rw [h.advance_forward hn]
    exact h.iterate _
  · have hback := h.advance_back (not_le.mp hn)
    rw [iterate_next] at hback
    have hback1 : component1^[(-jump e c).toNat] (s.advance e c).c1 = s.c1 := congrArg State.c1 hback
    have hback2 : component2^[(-jump e c).toNat] (s.advance e c).c2 = s.c2 := congrArg State.c2 hback
    have hbelow1 : (s.advance e c).c1.Below m1 := MatVecModM_below (by decide) _ _
    have hbelow2 : (s.advance e c).c2.Below m2 := MatVecModM_below (by decide) _ _
    exact ⟨hbelow1, hbelow2, recurrence1.start_ne_zero hbelow1 (by rw [hback1]; exact h.nonzero1),
      recurrence2.start_ne_zero hbelow2 (by rw [hback2]; exact h.nonzero2)⟩

end State

end Rng

open Rng

namespace RNG
variable {r : RNG}

structure Legal (r : RNG) : Prop where
  Cg : r.Cg.Legal
  Bg : r.Bg.Legal
  Ig : r.Ig.Legal

/-- The combination of the two components is neither 0 nor 1. -/
lemma U01_between (h : r.Cg.Legal) : 0 < r.U01.2 ∧ r.U01.2 < 1 := by
  have hnext : r.Cg.next.Legal := h.iterate 1
  obtain ⟨hp1, hp1'⟩ := hnext.below1.v2
  obtain ⟨hp2, hp2'⟩ := hnext.below2.v2
  have hm : m2 < m1 := by decide
  have hnorm : ∀ z : ℤ, 0 < z → z ≤ m1 → 0 < (z : ℚ) * Rng.norm ∧ (z : ℚ) * Rng.norm < 1 := by
    intro z hz hz'
    have hpos : (0 : ℚ) < m1 + 1 := by positivity
    have hzq : (0 : ℚ) < z := by exact_mod_cast hz
    have hzq' : (z : ℚ) < m1 + 1 := by exact_mod_cast (by omega : z < m1 + 1)
    rw [Rng.norm, mul_one_div]
    exact ⟨div_pos hzq hpos, (div_lt_one hpos).mpr hzq'⟩
  have hu : 0 < (if r.Cg.next.c1.v2 > r.Cg.next.c2.v2 then ((r.Cg.next.c1.v2 : ℚ) - r.Cg.next.c2.v2) * Rng.norm
      else ((r.Cg.next.c1.v2 : ℚ) - r.Cg.next.c2.v2 + m1) * Rng.norm) ∧
      (if r.Cg.next.c1.v2 > r.Cg.next.c2.v2 then ((r.Cg.next.c1.v2 : ℚ) - r.Cg.next.c2.v2) * Rng.norm
      else ((r.Cg.next.c1.v2 : ℚ) - r.Cg.next.c2.v2 + m1) * Rng.norm) < 1 := by
    split
    next hgt =>
      have := hnorm (r.Cg.next.c1.v2 - r.Cg.next.c2.v2) (by omega) (by omega)
      push_cast at this
      exact this
    next hle =>
      have := hnorm (r.Cg.next.c1.v2 - r.Cg.next.c2.v2 + m1) (by omega) (by omega)
      push_cast at this
      exact this
  unfold U01
  dsimp only
  split
  · exact hu
  · exact ⟨sub_pos.mpr hu.2, sub_lt_self _ hu.1⟩

end RNG

namespace RngPackage
variable {p p' : RngPackage} {op : RngOp} {o : Option ℚ}

structure Legal (p : RngPackage) : Prop where
  next_seed : p.next_seed.Legal
  streams : ∀ r ∈ p.streams, r.Legal

lemma Legal.set (h : p.Legal) {k : ℕ} {r : RNG} (hr : r.Legal) : Legal { p with streams := p.streams.set k r } :=
  ⟨h.next_seed, fun r' hr' => (List.mem_or_eq_of_mem_set hr').elim (h.streams r') fun heq => heq ▸ hr⟩

lemma Legal.onStream (h : p.Legal) {k : ℕ} {f : RNG → Option RNG} (hf : ∀ r r', r.Legal → f r = some r' → r'.Legal)
    (hstep : p.onStream k f = some (p', o)) : p'.Legal ∧ o = none := by
  obtain ⟨r, hr, hstep⟩ := Option.bind_eq_some_iff.mp hstep
  obtain ⟨r', hr', heq⟩ := Option.map_eq_some_iff.mp hstep
  obtain ⟨rfl, rfl⟩ := Prod.mk.inj heq
  exact ⟨h.set (hf r r' (h.streams r (List.mem_of_getElem? hr)) hr'), rfl⟩

lemma Legal.step (h : p.Legal) (hstep : p.step op = some (p', o)) :
    p'.Legal ∧ ∀ u, o = some u → 0 < u ∧ u < 1 := by
  have hquiet : ∀ {k f}, (∀ r r', r.Legal → f r = some r' → r'.Legal) → p.onStream k f = some (p', o) →
      p'.Legal ∧ ∀ u, o = some u → 0 < u ∧ u < 1 := by
    intro k f hf hstep
    obtain ⟨hp, rfl⟩ := h.onStream hf hstep
    exact ⟨hp, nofun⟩
  cases op with
  | create =>
    obtain ⟨rfl, rfl⟩ := Prod.mk.inj (Option.some.inj hstep)
    refine ⟨⟨?_, fun r hr => ?_⟩, nofun⟩
    · show (p.next_seed.through A1p127 A2p127).Legal
      rw [h.next_seed.stream]
      exact h.next_seed.iterate _
    · rcases List.mem_append.mp hr with hr | hr
      · exact h.streams r hr
      · obtain rfl := List.mem_singleton.mp hr
        exact ⟨h.next_seed, h.next_seed, h.next_seed⟩
  | set_package_seed seed =>
    simp only [RngPackage.step] at hstep
    split at hstep
    · cases hstep
    next hseed =>
      obtain ⟨rfl, rfl⟩ := Prod.mk.inj (Option.some.inj hstep)
      exact ⟨⟨ofSeed_legal (not_not.mp hseed), h.streams⟩, nofun⟩
  | U01 k =>
    obtain ⟨r, hr, heq⟩ := Option.map_eq_some_iff.mp hstep
    obtain ⟨rfl, rfl⟩ := Prod.mk.inj heq
    have hlegal := h.streams r (List.mem_of_getElem? hr)
    refine ⟨h.set ⟨hlegal.Cg.iterate 1, hlegal.Bg, hlegal.Ig⟩, ?_⟩
    rintro u ⟨⟩
    exact RNG.U01_between hlegal.Cg
  | reset_start_stream k =>
    refine hquiet (fun r r' hr heq => ?_) hstep
    obtain rfl := Option.some.inj heq
    exact ⟨hr.Ig, hr.Ig, hr.Ig⟩
  | reset_start_substream k =>
    refine hquiet (fun r r' hr heq => ?_) hstep
    obtain rfl := Option.some.inj heq
    exact ⟨hr.Bg, hr.Bg, hr.Ig⟩
  | reset_next_substream k =>
    refine hquiet (fun r r' hr heq => ?_) hstep
    obtain rfl := Option.some.inj heq
    have hnext : (r.Bg.through A1p76 A2p76).Legal := by
      rw [hr.Bg.substream]
      exact hr.Bg.iterate _
    exact ⟨hnext, hnext, hr.Ig⟩
  | set_seed k seed =>
    refine hquiet (fun r r' hr heq => ?_) hstep
    unfold RNG.set_seed at heq
    split at heq
    · cases heq
    next hseed =>
      obtain rfl := Option.some.inj heq
      have hlegal := ofSeed_legal (not_not.mp hseed)
      exact ⟨hlegal, hlegal, hlegal⟩
  | set_antithetic k a =>
    refine hquiet (fun r r' hr heq => ?_) hstep
    obtain rfl := Option.some.inj heq
    exact ⟨hr.Cg, hr.Bg, hr.Ig⟩
  | advance_state k e c =>
    refine hquiet (fun r r' hr heq => ?_) hstep
    obtain rfl := Option.some.inj heq
    exact ⟨hr.Cg.advance e c, hr.Bg, hr.Ig⟩

/-- From a legal seed, jumps are repeated steps or undo them, substreams are `2 ^ 76` steps and streams `2 ^ 127` steps
apart; in every run all states are legal and all numbers lie between 0 and 1. -/
theorem rng_jumps {seed : Fin 6 → ℕ} (hseed : CheckSeed seed = 0) :
    (∀ r : RNG, r.Cg = .ofSeed seed → ∀ e c,
      (0 ≤ jump e c → (r.advance_state e c).Cg = State.next^[(jump e c).toNat] (.ofSeed seed)) ∧
        (jump e c < 0 → State.next^[(-jump e c).toNat] (r.advance_state e c).Cg = .ofSeed seed)) ∧
    (∀ r : RNG, r.Bg = .ofSeed seed → r.reset_next_substream.Bg = State.next^[2 ^ 76] (.ofSeed seed) ∧
      r.reset_next_substream.Cg = State.next^[2 ^ 76] (.ofSeed seed)) ∧
    (RNG.init (.ofSeed seed)).1 = ⟨.ofSeed seed, .ofSeed seed, .ofSeed seed, false⟩ ∧
    (RNG.init (.ofSeed seed)).2 = State.next^[2 ^ 127] (.ofSeed seed) ∧
    ∀ ops p os, run step ⟨.ofSeed seed, []⟩ ops = some (p, os) →
      p.Legal ∧ ∀ u, some u ∈ os → 0 < u ∧ u < 1 := by
  have hlegal := ofSeed_legal hseed
  refine ⟨fun r hr e c => ?_, fun r hr => ?_, rfl, ?_, fun ops p os hrun => ?_⟩
  · have hadvance : (r.advance_state e c).Cg = (State.ofSeed seed).advance e c := congrArg (State.advance · e c) hr
    rw [hadvance]
    exact ⟨hlegal.advance_forward, hlegal.advance_back⟩
  · have hnext : r.Bg.through A1p76 A2p76 = State.next^[2 ^ 76] (.ofSeed seed) := by rw [hr, hlegal.substream]
    exact ⟨hnext, hnext⟩
  · rw [← hlegal.stream]
    rfl
  · have hstart : Legal ⟨.ofSeed seed, []⟩ := ⟨hlegal, fun _ hr => absurd hr List.not_mem_nil⟩
    clear hlegal
    generalize (⟨.ofSeed seed, []⟩ : RngPackage) = q at hrun hstart
    induction ops generalizing q os with
    | nil =>
      obtain ⟨rfl, rfl⟩ := Prod.mk.inj (Option.some.inj hrun)
      exact ⟨hstart, nofun⟩
    | cons op ops ih =>
      obtain ⟨q', o, os', hstep, hrest, rfl⟩ := run_cons_inv hrun
      obtain ⟨hq', ho⟩ := hstart.step hstep
      obtain ⟨hp, hos⟩ := ih os' q' hrest hq'
      refine ⟨hp, fun u hu => ?_⟩
      rcases List.mem_cons.mp hu with hu | hu
      · exact ho u hu.symm
      · exact hos u hu

/-- The seed of the package at the start of the program. -/
theorem rng_jumps_initial : CheckSeed (fun _ => 12345) = 0 ∧
    (RNG.init (.ofSeed fun _ => 12345)).2 = State.next^[2 ^ 127] (.ofSeed fun _ => 12345) ∧
    ∀ ops p os, run step initial ops = some (p, os) → p.Legal ∧ ∀ u, some u ∈ os → 0 < u ∧ u < 1 := by
  have hseed : CheckSeed (fun _ => 12345) = 0 := by decide +kernel
  obtain ⟨-, -, -, hstream, hrun⟩ := rng_jumps hseed
  exact ⟨hseed, hstream, hrun⟩

end RngPackage

end NetworkSimulator
