import NetworkSimulator.Tools.RngJumps
import Mathlib.Algebra.Order.Group.Unbundled.Int
import Mathlib.Tactic.Positivity

/-!
# Multiplication modulo m in doubles

A double represents every integer below 2^53 in magnitude. `MultModM` splits its first factor where the product may
be above that, and all that it computes from there on stays below.
-/

namespace NetworkSimulator.Rng

/-- What a call of `MultModM` computes behind the test of its branch, with the values of `a1` apart. -/
structure Computed where
  values : List ℤ
  quotients : List ℤ
  result : ℤ

/-- The end of `MultModM`, behind the branch. -/
def reduced (v m : ℤ) (before : List ℤ) (quotients : List ℤ) : Computed :=
  let a1 := v.tdiv m
  let w := v - a1 * m
  if w < 0 then ⟨before ++ [a1 * m, w, w + m], quotients ++ [a1], w + m⟩
  else ⟨before ++ [a1 * m, w], quotients ++ [a1], w⟩

/-- `MultModM` with all that it computes. -/
def computed (a s c m : ℤ) : Computed :=
  let v := a * s + c
  if v ≥ two53 ∨ v ≤ -two53 then
    let a1 := a.tdiv two17
    let a0 := a - a1 * two17
    let v := a1 * s
    let a2 := v.tdiv m
    let w := v - a2 * m
    let sum := w * two17 + a0 * s
    reduced (sum + c) m [a1 * two17, a0, v, a2 * m, w, w * two17, a0 * s, sum, sum + c] [a1, a2]
  else reduced v m [] []

lemma reduced_result (v m : ℤ) (before quotients : List ℤ) :
    (reduced v m before quotients).result = if v - v.tdiv m * m < 0 then v - v.tdiv m * m + m else v - v.tdiv m * m := by
  unfold reduced
  dsimp only
  split <;> rfl

lemma computed_result (a s c m : ℤ) : (computed a s c m).result = MultModM a s c m := by
  unfold computed MultModM
  dsimp only
  split <;> exact reduced_result _ _ _ _

/-- No value is rounded, and the quotients are values of a `long` of 32 bits. -/
structure Computed.Exact (r : Computed) : Prop where
  values : ∀ x ∈ r.values, |x| < 2 ^ 53
  quotients : ∀ q ∈ r.quotients, |q| < 2 ^ 31

/-- The quotient by `m` and the remainder. -/
lemma tdiv_bounds {v m : ℤ} (hv : 0 ≤ v) (hv' : v < 2 ^ 53) (hm : 2 ^ 22 ≤ m) :
    0 ≤ v.tdiv m ∧ v.tdiv m < 2 ^ 31 ∧ 0 ≤ v.tdiv m * m ∧ v.tdiv m * m ≤ v ∧ v - v.tdiv m * m < m := by
  have hpos : 0 < m := by omega
  rw [Int.tdiv_eq_ediv_of_nonneg hv]
  have hq : 0 ≤ v / m := Int.ediv_nonneg hv hpos.le
  have hlt : v / m < 2 ^ 31 := Int.ediv_lt_of_lt_mul hpos (by omega)
  have hmul : v / m * m ≤ v := Int.ediv_mul_le v hpos.ne'
  have hrem : v < (v / m + 1) * m := Int.lt_ediv_add_one_mul_self v hpos
  exact ⟨hq, hlt, mul_nonneg hq hpos.le, hmul, by linarith⟩

lemma reduced_exact {v m : ℤ} {before quotients : List ℤ} (hv : 0 ≤ v) (hv' : v < 2 ^ 53) (hm : 2 ^ 22 ≤ m)
    (hbefore : ∀ x ∈ before, |x| < 2 ^ 53) (hquotients : ∀ q ∈ quotients, |q| < 2 ^ 31) :
    (reduced v m before quotients).Exact := by
  obtain ⟨hq, hlt, hmul, hle, -⟩ := tdiv_bounds hv hv' hm
  unfold reduced
  dsimp only
  rw [if_neg (by omega)]
  refine ⟨?_, ?_⟩
  · simp only [List.forall_mem_append, List.forall_mem_cons, List.not_mem_nil, false_imp_iff, implies_true, and_true]
    refine ⟨hbefore, ?_, ?_⟩
    · rw [abs_of_nonneg hmul]
      omega
    · rw [abs_of_nonneg (by omega)]
      omega
  · simp only [List.forall_mem_append, List.forall_mem_singleton]
    refine ⟨hquotients, ?_⟩
    rw [abs_of_nonneg hq]
    exact hlt

/-- A product of two numbers below powers of two. -/
lemma mul_bounds {x y : ℤ} (i j : ℕ) (hx : 0 ≤ x) (hx' : x < 2 ^ i) (hy : 0 ≤ y) (hy' : y < 2 ^ j) :
    0 ≤ x * y ∧ x * y ≤ (2 ^ i - 1) * (2 ^ j - 1) :=
  ⟨mul_nonneg hx hy, mul_le_mul (by omega) (by omega) hy (by linarith)⟩

lemma computed_exact {a s c m : ℤ} (ha : 0 ≤ a ∧ a < 2 ^ 35) (hs : 0 ≤ s ∧ s < 2 ^ 35) (hc : 0 ≤ c ∧ c < 2 ^ 35)
    (hm : 2 ^ 22 ≤ m ∧ m < 2 ^ 35) : (computed a s c m).Exact := by
  have hprod : 0 ≤ a * s := mul_nonneg ha.1 hs.1
  unfold computed
  extract_lets v a1 a0 v₁ a2 w sum
  split
  next =>
    -- the two halves of `a`
    have ha1 : a1 = a / 2 ^ 17 := Int.tdiv_eq_ediv_of_nonneg ha.1
    have hshift : a1 * two17 = a1 * 2 ^ 17 := rfl
    have ha0 : a0 = a - a1 * 2 ^ 17 := rfl
    have hupper : 0 ≤ a1 ∧ a1 < 2 ^ 18 := by omega
    have hlower : 0 ≤ a0 ∧ a0 < 2 ^ 17 := by omega
    -- the upper half times `s`, reduced
    have hv₁ := mul_bounds 18 35 hupper.1 hupper.2 hs.1 hs.2
    obtain ⟨hq, hqlt, hmul, hle, hrem⟩ : 0 ≤ a2 ∧ a2 < 2 ^ 31 ∧ 0 ≤ a2 * m ∧ a2 * m ≤ v₁ ∧ w < m :=
      tdiv_bounds hv₁.1 (by omega) hm.1
    have hv₁' : v₁ = a1 * s := rfl
    have hw' : w = v₁ - a2 * m := rfl
    have hw : 0 ≤ w ∧ w ≤ 2 ^ 35 - 2 := by omega
    -- back to the product, with the lower half
    have ha0s := mul_bounds 17 35 hlower.1 hlower.2 hs.1 hs.2
    have hwshift : w * two17 = w * 2 ^ 17 := rfl
    have hsum' : sum = w * 2 ^ 17 + a0 * s := rfl
    have hsum : 0 ≤ sum + c ∧ sum + c < 2 ^ 53 := by omega
    refine reduced_exact hsum.1 hsum.2 hm.1 ?_ ?_
    · simp only [List.forall_mem_cons, List.not_mem_nil, false_imp_iff, implies_true, and_true]
      refine ⟨?_, ?_, ?_, ?_, ?_, ?_, ?_, ?_, ?_⟩ <;> rw [abs_of_nonneg (by omega)] <;> omega
    · simp only [List.forall_mem_cons, List.not_mem_nil, false_imp_iff, implies_true, and_true]
      refine ⟨?_, ?_⟩ <;> rw [abs_of_nonneg (by omega)] <;> omega
  next hsmall =>
    have hv : v < 2 ^ 53 := not_le.mp fun hge => hsmall (Or.inl hge)
    exact reduced_exact (by omega) hv hm.1 nofun nofun

/-- The result is the remainder, and no double is rounded on the way to it. -/
theorem MultModM_exact {a s c m : ℤ} (ha : 0 ≤ a ∧ a < 2 ^ 35) (hs : 0 ≤ s ∧ s < 2 ^ 35) (hc : 0 ≤ c ∧ c < 2 ^ 35)
    (hm : 2 ^ 22 ≤ m ∧ m < 2 ^ 35) :
    MultModM a s c m = (a * s + c) % m ∧ (computed a s c m).result = MultModM a s c m ∧ (computed a s c m).Exact :=
  ⟨MultModM_eq a s c (by omega), computed_result a s c m, computed_exact ha hs hc hm⟩

/-- The largest arguments. -/
theorem MultModM_exact_largest :
    MultModM (2 ^ 35 - 1) (2 ^ 35 - 1) (2 ^ 35 - 1) (2 ^ 35 - 1) =
        ((2 ^ 35 - 1) * (2 ^ 35 - 1) + (2 ^ 35 - 1)) % (2 ^ 35 - 1) ∧
      (computed (2 ^ 35 - 1) (2 ^ 35 - 1) (2 ^ 35 - 1) (2 ^ 35 - 1)).result =
        MultModM (2 ^ 35 - 1) (2 ^ 35 - 1) (2 ^ 35 - 1) (2 ^ 35 - 1) ∧
      (computed (2 ^ 35 - 1) (2 ^ 35 - 1) (2 ^ 35 - 1) (2 ^ 35 - 1)).Exact :=
  MultModM_exact (by decide) (by decide) (by decide) (by decide)

end NetworkSimulator.Rng
