import NetworkSimulator.Library.Runs
import Mathlib.Algebra.Order.Ring.Int
import Mathlib.Data.Int.Lemmas
import Mathlib.Tactic.Linarith

/-!
# The round-trip time estimator

`t_srtt_` is the smoothed round-trip time in ticks with `T_SRTT_BITS` bits to the right of the binary point, and
`t_rttvar_` its deviation with `T_RTTVAR_BITS` bits. Both are `int`; the difference of a sample to the estimate is
kept in a `short`.
-/

namespace NetworkSimulator
open Library

/-- The bits of the estimates, whose shifts are not negative. -/
structure RttParams where
  T_SRTT_BITS : ℕ
  T_RTTVAR_BITS : ℕ
  rttvar_exp : ℕ
  rttvar_pos : 1 ≤ T_RTTVAR_BITS
  rttvar_le : T_RTTVAR_BITS ≤ rttvar_exp + T_SRTT_BITS

structure RttEstimator where
  t_srtt : ℤ
  t_rttvar : ℤ
  t_backoff : ℤ
  deriving DecidableEq

namespace RttEstimator
variable (p : RttParams)

def toInt (x : ℤ) : ℤ := x.bmod (2 ^ 32)

def toShort (x : ℤ) : ℤ := x.bmod (2 ^ 16)

/-- The `short` that is added to `t_srtt_`. -/
def delta (s : RttEstimator) (t_rtt : ℤ) : ℤ := toShort (t_rtt - s.t_srtt >>> p.T_SRTT_BITS)

/-- `if (delta < 0) delta = -delta` -/
def absDelta (s : RttEstimator) (t_rtt : ℤ) : ℤ :=
  if s.delta p t_rtt < 0 then toShort (-s.delta p t_rtt) else s.delta p t_rtt

/-- `rtt_update`, from the sample in ticks on, with the retransmit value in ticks. -/
def rttUpdate (s : RttEstimator) (t_rtt : ℤ) : RttEstimator × ℤ :=
  let t_rtt := if t_rtt < 1 then 1 else t_rtt
  let s :=
    if s.t_srtt ≠ 0 then
      let t_srtt := toInt (s.t_srtt + s.delta p t_rtt)
      let delta := toShort (s.absDelta p t_rtt - s.t_rttvar >>> p.T_RTTVAR_BITS)
      let t_rttvar := toInt (s.t_rttvar + delta)
      { s with
        t_srtt := if t_srtt ≤ 0 then 1 else t_srtt
        t_rttvar := if t_rttvar ≤ 0 then 1 else t_rttvar }
    else
      { s with
        t_srtt := toInt (t_rtt <<< p.T_SRTT_BITS)
        t_rttvar := toInt (t_rtt <<< (p.T_RTTVAR_BITS - 1)) }
  (s, toInt (toInt (s.t_rttvar <<< (p.rttvar_exp + p.T_SRTT_BITS - p.T_RTTVAR_BITS)) + s.t_srtt) >>> p.T_SRTT_BITS)

/-- `rtt_backoff` -/
def rttBackoff (rfc2988 : Bool) (s : RttEstimator) : RttEstimator :=
  let s := if s.t_backoff < 64 || rfc2988 then { s with t_backoff := toInt (s.t_backoff <<< 1) } else s
  if s.t_backoff > 8 then
    { s with
      t_rttvar := toInt (s.t_rttvar + s.t_srtt >>> p.T_SRTT_BITS)
      t_srtt := 0 }
  else s

/-! ### Arithmetic -/

lemma toInt_eq {x : ℤ} (h : -2 ^ 31 ≤ x) (h' : x < 2 ^ 31) : toInt x = x :=
  Int.bmod_eq_of_le (by omega) (by omega)

lemma toShort_eq {x : ℤ} (h : -2 ^ 15 ≤ x) (h' : x < 2 ^ 15) : toShort x = x :=
  Int.bmod_eq_of_le (by omega) (by omega)

lemma toShort_bounds (x : ℤ) : -2 ^ 15 ≤ toShort x ∧ toShort x < 2 ^ 15 := by
  unfold toShort
  rw [Int.bmod_def]
  omega

/-- The deviation does not come past a number that is `2 ^ 15` modulo `2 ^ 16`, whatever the `short` makes of it. -/
lemma toShort_sub_le {x q b : ℤ} (hx : 0 ≤ x ∧ x < 2 ^ 15 ∨ x = -2 ^ 15) (hb : b % 2 ^ 16 = 2 ^ 15) (hq : q ≤ b) :
    toShort (x - q) ≤ b - q := by
  unfold toShort
  rw [Int.bmod_def]
  omega

/-- A sample that is not smaller than a bound of the estimate keeps it. -/
lemma le_estimate {P t r m : ℤ} (hP : 0 < P) (hm : m * P ≤ t) (hmr : m ≤ r) : m * P ≤ t + (r - t / P) := by
  have hdiv : P * (t / P) + t % P = t := Int.mul_ediv_add_emod t P
  have hmod := Int.emod_nonneg t hP.ne'
  have hq : m ≤ t / P := (Int.le_ediv_iff_mul_le hP).mpr hm
  nlinarith [mul_nonneg (sub_nonneg.mpr (Int.add_one_le_iff.mpr hP)) (sub_nonneg.mpr hq)]

lemma estimate_lt {P t r m : ℤ} (hP : 0 < P) (hm : t < (m + 1) * P) (hrm : r ≤ m) : t + (r - t / P) < (m + 1) * P := by
  have hdiv : P * (t / P) + t % P = t := Int.mul_ediv_add_emod t P
  have hmod := Int.emod_lt_of_pos t hP
  have hq : t / P ≤ m := Int.lt_add_one_iff.mp ((Int.ediv_lt_iff_lt_mul hP).mpr hm)
  nlinarith [mul_nonneg (sub_nonneg.mpr (Int.add_one_le_iff.mpr hP)) (sub_nonneg.mpr hq)]

/-- The deviation stays below the barrier. -/
lemma deviation_lt {P v d b : ℤ} (hP : 0 < P) (hd : d ≤ b - v / P) (hb : v / P ≤ b) : v + d < (b + 1) * P := by
  have hdiv : P * (v / P) + v % P = v := Int.mul_ediv_add_emod v P
  have hmod' := Int.emod_lt_of_pos v hP
  nlinarith [mul_nonneg (sub_nonneg.mpr (Int.add_one_le_iff.mpr hP)) (sub_nonneg.mpr hb)]

/-! ### Runs -/

inductive RttEvent
  | update (t_rtt : ℤ)
  | backoff
  /-- A new acknowledgement sets `t_backoff_` to 1. -/
  | newBackoff

/-- Beside the estimator stand the samples since `t_srtt_` was clobbered, the last one first. -/
def step (rfc2988 : Bool) (s : RttEstimator × List ℤ) : RttEvent → Option ((RttEstimator × List ℤ) × ℤ)
  | .update t_rtt => some (((s.1.rttUpdate p t_rtt).1, t_rtt :: s.2), (s.1.rttUpdate p t_rtt).2)
  | .backoff =>
    let t := s.1.rttBackoff p rfc2988
    some ((t, if t.t_srtt = 0 then [] else s.2), 0)
  | .newBackoff => some (({ s.1 with t_backoff := 1 }, s.2), 0)

/-- With the usual 3 bits, a sample from 1 to `2 ^ 26 - 1`. -/
def IsSample : RttEvent → Prop
  | .update t_rtt => 1 ≤ t_rtt ∧ t_rtt * 2 ^ p.T_SRTT_BITS < 2 ^ 29
  | _ => True

/-- The estimate is between the smallest and the largest sample, and the retransmit value is not below it. -/
def WithinSamples (s : RttEstimator × List ℤ) : RttEvent → Prop
  | .update t_rtt =>
    let r := s.1.rttUpdate p t_rtt
    (∃ m ∈ t_rtt :: s.2, m ≤ r.1.t_srtt >>> p.T_SRTT_BITS) ∧
      (∃ m ∈ t_rtt :: s.2, r.1.t_srtt >>> p.T_SRTT_BITS ≤ m) ∧
      1 ≤ r.1.t_rttvar ∧ r.1.t_srtt >>> p.T_SRTT_BITS ≤ r.2
  | _ => True

/-- The difference of the sample to the estimate is a `short`; for a first sample, `rttvar_exp_` is not so large that
the retransmit value does not fit in an `int`. -/
def Fits (s : RttEstimator × List ℤ) : RttEvent → Prop
  | .update t_rtt =>
    if s.1.t_srtt = 0 then 2 ^ (p.rttvar_exp + p.T_SRTT_BITS) * (t_rtt / 2 + 2 ^ 16) ≤ 3 * 2 ^ 29
    else -2 ^ 15 ≤ t_rtt - s.1.t_srtt >>> p.T_SRTT_BITS ∧ t_rtt - s.1.t_srtt >>> p.T_SRTT_BITS < 2 ^ 15
  | _ => True

instance (e : RttEvent) : Decidable (IsSample p e) :=
  match e with
  | .update t_rtt => inferInstanceAs (Decidable (1 ≤ t_rtt ∧ _))
  | .backoff | .newBackoff => inferInstanceAs (Decidable True)

instance (s : RttEstimator × List ℤ) (e : RttEvent) : Decidable (Fits p s e) :=
  match e with
  | .update _ => inferInstanceAs (Decidable (if s.1.t_srtt = 0 then _ else _ ∧ _))
  | .backoff | .newBackoff => inferInstanceAs (Decidable True)

/-- The estimates and the samples that they have been made from. -/
structure Tracks (s : RttEstimator × List ℤ) : Prop where
  low : ∃ m ∈ s.2, m * 2 ^ p.T_SRTT_BITS ≤ s.1.t_srtt
  high : ∃ m ∈ s.2, s.1.t_srtt < (m + 1) * 2 ^ p.T_SRTT_BITS
  samples : ∀ m ∈ s.2, 1 ≤ m ∧ m * 2 ^ p.T_SRTT_BITS < 2 ^ 29
  rttvar_pos : 1 ≤ s.1.t_rttvar
  rttvar_le : ∃ b : ℤ, b % 2 ^ 16 = 2 ^ 15 ∧ s.1.t_rttvar / 2 ^ p.T_RTTVAR_BITS ≤ b ∧
    2 ^ (p.rttvar_exp + p.T_SRTT_BITS) * (b + 1) ≤ 3 * 2 ^ 29

variable {p} {s : RttEstimator × List ℤ} {t_rtt : ℤ}

lemma Tracks.srtt_pos (h : Tracks p s) : 0 < s.1.t_srtt := by
  obtain ⟨m, hm, hle⟩ := h.low
  have hpos : 0 < m * 2 ^ p.T_SRTT_BITS := mul_pos (h.samples m hm).1 (pow_pos two_pos _)
  exact hpos.trans_le hle

lemma succ_mul_le {m : ℤ} {n : ℕ} (h₁ : 1 ≤ m) (h₂ : m * 2 ^ n < 2 ^ 29) : (m + 1) * 2 ^ n ≤ 2 ^ 29 := by
  have hn : n ≤ 29 := by
    by_contra hlt
    have hpow : (2 : ℤ) ^ 29 ≤ 2 ^ n := pow_le_pow_right₀ (by norm_num) (by omega)
    nlinarith
  have hsplit : (2 : ℤ) ^ 29 = 2 ^ (29 - n) * 2 ^ n := by rw [← pow_add, Nat.sub_add_cancel hn]
  have hpos : (0 : ℤ) < 2 ^ n := pow_pos two_pos n
  rw [hsplit] at h₂ ⊢
  exact mul_le_mul_of_nonneg_right (Int.add_one_le_iff.mpr (lt_of_mul_lt_mul_right h₂ hpos.le)) hpos.le

lemma Tracks.srtt_lt (h : Tracks p s) : s.1.t_srtt < 2 ^ 29 := by
  obtain ⟨m, hm, hlt⟩ := h.high
  exact hlt.trans_le (succ_mul_le (h.samples m hm).1 (h.samples m hm).2)

lemma Tracks.rttvar_lt (h : Tracks p s) :
    s.1.t_rttvar * 2 ^ (p.rttvar_exp + p.T_SRTT_BITS - p.T_RTTVAR_BITS) < 3 * 2 ^ 29 := by
  obtain ⟨b, -, hb, hle⟩ := h.rttvar_le
  have hlt : s.1.t_rttvar < (b + 1) * 2 ^ p.T_RTTVAR_BITS :=
    (Int.ediv_lt_iff_lt_mul (pow_pos two_pos _)).mp (Int.lt_add_one_iff.mpr hb)
  calc s.1.t_rttvar * 2 ^ (p.rttvar_exp + p.T_SRTT_BITS - p.T_RTTVAR_BITS)
      < (b + 1) * 2 ^ p.T_RTTVAR_BITS * 2 ^ (p.rttvar_exp + p.T_SRTT_BITS - p.T_RTTVAR_BITS) :=
        mul_lt_mul_of_pos_right hlt (pow_pos two_pos _)
    _ = 2 ^ (p.rttvar_exp + p.T_SRTT_BITS) * (b + 1) := by
        rw [mul_assoc, ← pow_add, Nat.add_sub_cancel' p.rttvar_le, mul_comm]
    _ ≤ 3 * 2 ^ 29 := hle

/-- The retransmit value of an estimate with a deviation. -/
lemma Tracks.retransmit_ge (h : Tracks p s) : s.1.t_srtt >>> p.T_SRTT_BITS ≤
    toInt (toInt (s.1.t_rttvar <<< (p.rttvar_exp + p.T_SRTT_BITS - p.T_RTTVAR_BITS)) + s.1.t_srtt) >>>
      p.T_SRTT_BITS := by
  have hlt := h.rttvar_lt
  have hsrtt := h.srtt_lt
  have hsrtt' := h.srtt_pos
  rw [Int.shiftLeft_eq]
  have hpos : 0 ≤ s.1.t_rttvar * 2 ^ (p.rttvar_exp + p.T_SRTT_BITS - p.T_RTTVAR_BITS) :=
    mul_nonneg (zero_le_one.trans h.rttvar_pos) (pow_nonneg two_pos.le _)
  generalize s.1.t_rttvar * 2 ^ (p.rttvar_exp + p.T_SRTT_BITS - p.T_RTTVAR_BITS) = v at hlt hpos
  have hv : toInt v = v := toInt_eq (by omega) (by omega)
  rw [hv, toInt_eq (by omega) (by omega), Int.shiftRight_eq_div_pow, Int.shiftRight_eq_div_pow]
  exact Int.ediv_le_ediv (by positivity) (le_add_of_nonneg_left hpos)

lemma Tracks.within (h : Tracks p s) : (∃ m ∈ s.2, m ≤ s.1.t_srtt >>> p.T_SRTT_BITS) ∧
    ∃ m ∈ s.2, s.1.t_srtt >>> p.T_SRTT_BITS ≤ m := by
  obtain ⟨m, hm, hlow⟩ := h.low
  obtain ⟨m', hm', hhigh⟩ := h.high
  rw [Int.shiftRight_eq_div_pow]
  have hpos : (0 : ℤ) < 2 ^ p.T_SRTT_BITS := pow_pos two_pos _
  exact ⟨⟨m, hm, (Int.le_ediv_iff_mul_le (by exact_mod_cast hpos)).mpr (by exact_mod_cast hlow)⟩,
    ⟨m', hm', Int.lt_add_one_iff.mp ((Int.ediv_lt_iff_lt_mul (by exact_mod_cast hpos)).mpr (by exact_mod_cast hhigh))⟩⟩

/-- The first number that the deviation does not come past. -/
lemma exists_barrier (h : ℤ) : ∃ b, b % 2 ^ 16 = 2 ^ 15 ∧ h ≤ b ∧ b + 1 ≤ h + 2 ^ 16 :=
  ⟨(h + 2 ^ 15 - 1) / 2 ^ 16 * 2 ^ 16 + 2 ^ 15, by omega, by omega, by omega⟩

/-- The first sample. -/
lemma tracks_first {q : RttEstimator} (hq : q.t_srtt = 0) (hone : 1 ≤ t_rtt) (hlt : t_rtt * 2 ^ p.T_SRTT_BITS < 2 ^ 29)
    (hfits : 2 ^ (p.rttvar_exp + p.T_SRTT_BITS) * (t_rtt / 2 + 2 ^ 16) ≤ 3 * 2 ^ 29) :
    Tracks p ((q.rttUpdate p t_rtt).1, [t_rtt]) := by
  have hbits : (2 : ℤ) ^ p.T_RTTVAR_BITS = 2 * 2 ^ (p.T_RTTVAR_BITS - 1) := by
    rw [← pow_succ', Nat.sub_add_cancel p.rttvar_pos]
  have hpow : (0 : ℤ) < 2 ^ (p.T_RTTVAR_BITS - 1) := pow_pos two_pos _
  have hdev : t_rtt * 2 ^ (p.T_RTTVAR_BITS - 1) < 3 * 2 ^ 29 := by
    have hle : (2 : ℤ) ^ p.T_RTTVAR_BITS ≤ 2 ^ (p.rttvar_exp + p.T_SRTT_BITS) :=
      pow_le_pow_right₀ (by norm_num) p.rttvar_le
    have htwo : t_rtt < 2 * (t_rtt / 2 + 2 ^ 16) := by omega
    calc t_rtt * 2 ^ (p.T_RTTVAR_BITS - 1)
        < 2 * (t_rtt / 2 + 2 ^ 16) * 2 ^ (p.T_RTTVAR_BITS - 1) := mul_lt_mul_of_pos_right htwo hpow
      _ = 2 ^ p.T_RTTVAR_BITS * (t_rtt / 2 + 2 ^ 16) := by rw [hbits, mul_right_comm]
      _ ≤ 2 ^ (p.rttvar_exp + p.T_SRTT_BITS) * (t_rtt / 2 + 2 ^ 16) :=
        mul_le_mul_of_nonneg_right hle (by omega)
      _ ≤ 3 * 2 ^ 29 := hfits
  have hsrtt : (q.rttUpdate p t_rtt).1.t_srtt = t_rtt * 2 ^ p.T_SRTT_BITS := by
    unfold rttUpdate
    dsimp only
    rw [if_neg (not_lt.mpr hone), if_neg (not_not_intro hq)]
    show toInt (t_rtt <<< p.T_SRTT_BITS) = _
    rw [Int.shiftLeft_eq]
    have hpos : 0 ≤ t_rtt * 2 ^ p.T_SRTT_BITS := by positivity
    exact toInt_eq (by omega) (by omega)
  have hrttvar : (q.rttUpdate p t_rtt).1.t_rttvar = t_rtt * 2 ^ (p.T_RTTVAR_BITS - 1) := by
    unfold rttUpdate
    dsimp only
    rw [if_neg (not_lt.mpr hone), if_neg (not_not_intro hq)]
    show toInt (t_rtt <<< (p.T_RTTVAR_BITS - 1)) = _
    rw [Int.shiftLeft_eq]
    have hpos : 0 ≤ t_rtt * 2 ^ (p.T_RTTVAR_BITS - 1) := by positivity
    exact toInt_eq (by omega) (by omega)
  obtain ⟨b, hmod, hhalf, hb⟩ := exists_barrier (t_rtt / 2)
  constructor
  · exact ⟨t_rtt, List.mem_singleton.mpr rfl, hsrtt.ge⟩
  · refine ⟨t_rtt, List.mem_singleton.mpr rfl, hsrtt.trans_lt ?_⟩
    exact mul_lt_mul_of_pos_right (lt_add_one _) (pow_pos two_pos _)
  · intro m hm
    rw [List.mem_singleton.mp hm]
    exact ⟨hone, hlt⟩
  · rw [hrttvar]
    exact one_le_mul_of_one_le_of_one_le hone (one_le_pow₀ (by norm_num))
  · refine ⟨b, hmod, ?_, ?_⟩
    · rw [hrttvar, hbits, Int.mul_ediv_mul_of_pos_left _ _ hpow]
      exact hhalf
    · exact (mul_le_mul_of_nonneg_left hb (pow_nonneg two_pos.le _)).trans hfits

/-- What is added to the deviation, as a `short` again, keeps it below the barrier. -/
lemma rttvar_next {q : RttEstimator} {b : ℤ} (hone : 1 ≤ t_rtt) (hpos : q.t_srtt ≠ 0) (hvar : 1 ≤ q.t_rttvar)
    (hmod : b % 2 ^ 16 = 2 ^ 15) (hb : q.t_rttvar / 2 ^ p.T_RTTVAR_BITS ≤ b)
    (hbarrier : 2 ^ (p.rttvar_exp + p.T_SRTT_BITS) * (b + 1) ≤ 3 * 2 ^ 29) :
    1 ≤ (q.rttUpdate p t_rtt).1.t_rttvar ∧
      (q.rttUpdate p t_rtt).1.t_rttvar / 2 ^ p.T_RTTVAR_BITS ≤ b := by
  have hP : (0 : ℤ) < 2 ^ p.T_RTTVAR_BITS := pow_pos two_pos _
  have hshift : q.t_rttvar >>> p.T_RTTVAR_BITS = q.t_rttvar / 2 ^ p.T_RTTVAR_BITS := by
    rw [Int.shiftRight_eq_div_pow]
    norm_cast
  have hlim : (b + 1) * 2 ^ p.T_RTTVAR_BITS ≤ 3 * 2 ^ 29 := by
    have hle : (2 : ℤ) ^ p.T_RTTVAR_BITS ≤ 2 ^ (p.rttvar_exp + p.T_SRTT_BITS) :=
      pow_le_pow_right₀ (by norm_num) p.rttvar_le
    have hbpos : 0 ≤ q.t_rttvar / 2 ^ p.T_RTTVAR_BITS := Int.ediv_nonneg (zero_le_one.trans hvar) hP.le
    rw [mul_comm]
    exact (mul_le_mul_of_nonneg_right hle (by omega)).trans hbarrier
  have hx : 0 ≤ q.absDelta p t_rtt ∧ q.absDelta p t_rtt < 2 ^ 15 ∨ q.absDelta p t_rtt = -2 ^ 15 := by
    have hbounds : -2 ^ 15 ≤ q.delta p t_rtt ∧ q.delta p t_rtt < 2 ^ 15 := toShort_bounds _
    unfold absDelta
    split
    · by_cases hmin : q.delta p t_rtt = -2 ^ 15
      · right
        rw [hmin]
        decide
      · left
        rw [toShort_eq (by omega) (by omega)]
        omega
    · left
      omega
  have hadd := toShort_sub_le hx hmod hb
  have hadd' := toShort_bounds (q.absDelta p t_rtt - q.t_rttvar / 2 ^ p.T_RTTVAR_BITS)
  have hnew := deviation_lt hP hadd hb
  have hvalue : (q.rttUpdate p t_rtt).1.t_rttvar =
      if q.t_rttvar + toShort (q.absDelta p t_rtt - q.t_rttvar / 2 ^ p.T_RTTVAR_BITS) ≤ 0 then 1
      else q.t_rttvar + toShort (q.absDelta p t_rtt - q.t_rttvar / 2 ^ p.T_RTTVAR_BITS) := by
    have hint : toInt (q.t_rttvar + toShort (q.absDelta p t_rtt - q.t_rttvar / 2 ^ p.T_RTTVAR_BITS)) = _ :=
      toInt_eq (by omega) (by omega)
    rw [rttUpdate]
    dsimp only
    rw [if_neg (not_lt.mpr hone), if_pos hpos, hshift, hint]
  rw [hvalue]
  split
  · refine ⟨le_rfl, ?_⟩
    have hdiv : (1 : ℤ) / 2 ^ p.T_RTTVAR_BITS ≤ 1 := Int.ediv_le_self _ zero_le_one
    have hvar' : 0 ≤ q.t_rttvar / 2 ^ p.T_RTTVAR_BITS := Int.ediv_nonneg (zero_le_one.trans hvar) hP.le
    omega
  next hnot =>
    exact ⟨Int.add_one_le_iff.mpr (not_le.mp hnot),
      Int.lt_add_one_iff.mp ((Int.ediv_lt_iff_lt_mul hP).mpr hnew)⟩

/-- A further sample whose difference to the estimate is a `short`. -/
lemma Tracks.next (h : Tracks p s) (hone : 1 ≤ t_rtt) (hlt : t_rtt * 2 ^ p.T_SRTT_BITS < 2 ^ 29)
    (hge : -2 ^ 15 ≤ t_rtt - s.1.t_srtt >>> p.T_SRTT_BITS) (hle : t_rtt - s.1.t_srtt >>> p.T_SRTT_BITS < 2 ^ 15) :
    Tracks p ((s.1.rttUpdate p t_rtt).1, t_rtt :: s.2) := by
  have hP : (0 : ℤ) < 2 ^ p.T_SRTT_BITS := pow_pos two_pos _
  have hdelta : s.1.delta p t_rtt = t_rtt - s.1.t_srtt / 2 ^ p.T_SRTT_BITS := by
    rw [delta, toShort_eq hge hle, Int.shiftRight_eq_div_pow]
    norm_cast
  have hpos := h.srtt_pos
  have hsamples : ∀ m ∈ t_rtt :: s.2, 1 ≤ m ∧ m * 2 ^ p.T_SRTT_BITS < 2 ^ 29 := by
    intro m hm
    rcases List.mem_cons.mp hm with rfl | hm
    · exact ⟨hone, hlt⟩
    · exact h.samples m hm
  have hlow : ∃ m ∈ t_rtt :: s.2, m * 2 ^ p.T_SRTT_BITS ≤ s.1.t_srtt + s.1.delta p t_rtt := by
    obtain ⟨m, hm, hmle⟩ := h.low
    rw [hdelta]
    rcases le_total m t_rtt with hmr | hmr
    · exact ⟨m, List.mem_cons_of_mem _ hm, le_estimate hP hmle hmr⟩
    · have hr := (mul_le_mul_of_nonneg_right hmr hP.le).trans hmle
      exact ⟨t_rtt, List.mem_cons_self, le_estimate hP hr le_rfl⟩
  have hhigh : ∃ m ∈ t_rtt :: s.2, s.1.t_srtt + s.1.delta p t_rtt < (m + 1) * 2 ^ p.T_SRTT_BITS := by
    obtain ⟨m, hm, hmlt⟩ := h.high
    rw [hdelta]
    rcases le_total t_rtt m with hmr | hmr
    · exact ⟨m, List.mem_cons_of_mem _ hm, estimate_lt hP hmlt hmr⟩
    · have hr := hmlt.trans_le (mul_le_mul_of_nonneg_right (add_le_add_left hmr 1) hP.le)
      exact ⟨t_rtt, List.mem_cons_self, estimate_lt hP hr le_rfl⟩
  have hnew : 0 < s.1.t_srtt + s.1.delta p t_rtt ∧ s.1.t_srtt + s.1.delta p t_rtt < 2 ^ 29 := by
    obtain ⟨m, hm, hmle⟩ := hlow
    obtain ⟨m', hm', hmlt⟩ := hhigh
    have hmpos : 0 < m * 2 ^ p.T_SRTT_BITS := mul_pos (hsamples m hm).1 hP
    exact ⟨hmpos.trans_le hmle, hmlt.trans_le (succ_mul_le (hsamples m' hm').1 (hsamples m' hm').2)⟩
  have hsrtt : (s.1.rttUpdate p t_rtt).1.t_srtt = s.1.t_srtt + s.1.delta p t_rtt := by
    unfold rttUpdate
    dsimp only
    rw [if_neg (not_lt.mpr hone), if_pos hpos.ne']
    show (if toInt (s.1.t_srtt + s.1.delta p t_rtt) ≤ 0 then 1 else toInt _) = _
    rw [toInt_eq (by omega) (by omega), if_neg (not_le.mpr hnew.1)]
  obtain ⟨b, hmod, hb, hbarrier⟩ := h.rttvar_le
  have hdev := rttvar_next hone hpos.ne' h.rttvar_pos hmod hb hbarrier
  refine ⟨?_, ?_, hsamples, hdev.1, ⟨b, hmod, hdev.2, hbarrier⟩⟩
  · rw [hsrtt]
    exact hlow
  · rw [hsrtt]
    exact hhigh

/-- There is no sample yet, or the estimates have been made from the samples. -/
def Books (p : RttParams) (s : RttEstimator × List ℤ) : Prop := s.1.t_srtt = 0 ∧ s.2 = [] ∨ Tracks p s

lemma Books.update (h : Books p s) (hsample : IsSample p (.update t_rtt)) (hfits : Fits p s (.update t_rtt)) :
    Tracks p ((s.1.rttUpdate p t_rtt).1, t_rtt :: s.2) := by
  obtain ⟨hone, hlt⟩ := hsample
  rcases h with ⟨hzero, hnil⟩ | htracks
  · rw [hnil]
    exact tracks_first hzero hone hlt (by rwa [Fits, if_pos hzero] at hfits)
  · rw [Fits, if_neg htracks.srtt_pos.ne'] at hfits
    exact htracks.next hone hlt hfits.1 hfits.2

lemma Books.within {e : RttEvent} (h : Books p s) (hsample : IsSample p e) (hfits : Fits p s e) : WithinSamples p s e := by
  cases e with
  | update t_rtt =>
    have htracks := h.update hsample hfits
    exact ⟨htracks.within.1, htracks.within.2, htracks.rttvar_pos, htracks.retransmit_ge⟩
  | backoff => trivial
  | newBackoff => trivial

lemma Tracks.of_same {t : RttEstimator} (h : Tracks p s) (hsrtt : t.t_srtt = s.1.t_srtt)
    (hrttvar : t.t_rttvar = s.1.t_rttvar) : Tracks p (t, s.2) := by
  constructor
  · rw [hsrtt]
    exact h.low
  · rw [hsrtt]
    exact h.high
  · exact h.samples
  · rw [hrttvar]
    exact h.rttvar_pos
  · rw [hrttvar]
    exact h.rttvar_le

/-- `rtt_backoff` keeps the estimates or clobbers `t_srtt_`. -/
lemma rttBackoff_cases (rfc2988 : Bool) (q : RttEstimator) : (q.rttBackoff p rfc2988).t_srtt = 0 ∨
    (q.rttBackoff p rfc2988).t_srtt = q.t_srtt ∧ (q.rttBackoff p rfc2988).t_rttvar = q.t_rttvar := by
  have hcases : ∀ r : RttEstimator, r.t_srtt = q.t_srtt → r.t_rttvar = q.t_rttvar →
      ∀ t, t = (if r.t_backoff > 8 then { r with
        t_rttvar := toInt (r.t_rttvar + r.t_srtt >>> p.T_SRTT_BITS)
        t_srtt := 0 } else r) → t.t_srtt = 0 ∨ t.t_srtt = q.t_srtt ∧ t.t_rttvar = q.t_rttvar := by
    intro r hsrtt hrttvar t ht
    split at ht
    · exact Or.inl (congrArg t_srtt ht)
    · exact Or.inr (ht ▸ ⟨hsrtt, hrttvar⟩)
  refine hcases (if q.t_backoff < 64 || rfc2988 then { q with t_backoff := toInt (q.t_backoff <<< 1) } else q) ?_ ?_ _ rfl
  · split <;> rfl
  · split <;> rfl

lemma Books.step {rfc2988 : Bool} {e : RttEvent} {t : RttEstimator × List ℤ} {o : ℤ} (h : Books p s)
    (hsample : IsSample p e) (hfits : Fits p s e) (hstep : RttEstimator.step p rfc2988 s e = some (t, o)) :
    Books p t := by
  cases e with
  | update t_rtt =>
    obtain ⟨rfl, -⟩ := Prod.mk.inj (Option.some.inj hstep)
    exact Or.inr (h.update hsample hfits)
  | backoff =>
    obtain ⟨rfl, -⟩ := Prod.mk.inj (Option.some.inj hstep)
    by_cases hzero : (s.1.rttBackoff p rfc2988).t_srtt = 0
    · exact Or.inl ⟨hzero, if_pos hzero⟩
    · obtain ⟨hsrtt, hrttvar⟩ := (rttBackoff_cases rfc2988 s.1).resolve_left hzero
      refine Or.inr ?_
      rw [if_neg hzero]
      rcases h with h | h
      · exact absurd (hsrtt.trans h.1) hzero
      · exact h.of_same hsrtt hrttvar
  | newBackoff =>
    obtain ⟨rfl, -⟩ := Prod.mk.inj (Option.some.inj hstep)
    exact h.imp_right fun htracks => htracks.of_same rfl rfl

/-- With the usual bits, a first sample fits whatever it is. -/
lemma fits_first (hbits : p.T_SRTT_BITS = 3) (hexp : p.rttvar_exp ≤ 2) (hzero : s.1.t_srtt = 0)
    (hsample : IsSample p (.update t_rtt)) : Fits p s (.update t_rtt) := by
  obtain ⟨hone, hlt⟩ := hsample
  rw [hbits] at hlt
  rw [Fits, if_pos hzero, hbits]
  have hle : (2 : ℤ) ^ (p.rttvar_exp + 3) ≤ 2 ^ 5 := pow_le_pow_right₀ (by norm_num) (by omega)
  exact (mul_le_mul_of_nonneg_right hle (by omega)).trans (by omega)

/-- After each update the estimate is within the samples since it was clobbered last, the deviation is not zero and
the retransmit value is not below the estimate, as long as the differences to the estimate fit. -/
theorem estimate_within_samples (rfc2988 : Bool) {q : RttEstimator} {es : List RttEvent} (hzero : q.t_srtt = 0)
    (hsamples : ∀ e ∈ es, IsSample p e) (hfits : EachStep (step p rfc2988) (Fits p) (q, []) es) :
    EachStep (step p rfc2988) (WithinSamples p) (q, []) es :=
  (hfits.and_mem hsamples).gives (fun _ _ _ _ (h : Books p _) hP => h.step hP.2 hP.1)
    (fun _ _ h hP => h.within hP.2 hP.1) (Or.inl ⟨hzero, rfl⟩)

/-- The bits that the simulator sets. -/
def usual : RttParams := ⟨3, 2, 2, by decide, by decide⟩

/-- Two samples, the clobbering and a third. -/
theorem estimate_within_samples_backoff :
    EachStep (step usual false) (WithinSamples usual) (⟨0, 12, 8⟩, [])
      [.update 7, .update 900, .backoff, .newBackoff, .update 3] := by
  have hguarded : ((run (guarded (step usual false) (Fits usual)) (⟨0, 12, 8⟩, [])
      [.update 7, .update 900, .backoff, .newBackoff, .update 3]).map fun _ => decide True) = some true := by
    decide +kernel
  obtain ⟨-, -, hfits, -, -⟩ := run_guarded_of (fun _ _ => True) hguarded
  exact estimate_within_samples false rfl (by decide) hfits

/-- A sample of 1 tick is followed by one of 40000 ticks, and the estimate is 0 ticks. -/
theorem estimate_below_samples : ¬EachStep (step usual false) (WithinSamples usual) (⟨0, 12, 1⟩, [])
      [.update 1, .update 40000] ∧
    ∃ s os, run (step usual false) (⟨0, 12, 1⟩, []) [.update 1, .update 40000] = some (s, os) ∧
      s.1.t_srtt >>> usual.T_SRTT_BITS = 0 := by
  refine ⟨fun h => ?_, _, _, rfl, by decide⟩
  obtain ⟨-, h₁⟩ := h
  obtain ⟨⟨⟨m, hm, hle⟩, -⟩, -⟩ := h₁ _ _ rfl
  have hzero : m ≤ 0 := hle
  rcases List.mem_cons.mp hm with rfl | hm
  · omega
  · rw [List.mem_singleton.mp hm] at hzero
    omega

end RttEstimator
end NetworkSimulator
