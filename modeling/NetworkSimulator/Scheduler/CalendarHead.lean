import Mathlib.Data.Int.ModEq
import NetworkSimulator.Scheduler.CalendarBuckets

/-!
# The search of `CalendarScheduler::head`

Every pending event lies `ahead` whole widths after the width of the clock, and the bucket visited
in round `j` holds those with `ahead` congruent to `j`. Each threshold of `CAL_DEQUEUE` says
exactly that an event of the visited bucket is of this year, so the search stops at the first
event of this year, or compares the heads of all buckets.
-/

namespace NetworkSimulator
open Library

/-- The number of bucket widths between the clock and a later time. -/
def ahead (w c t : ℚ) : ℤ := ⌊t / w⌋ - ⌊c / w⌋

section Year
variable {w c t : ℚ} {n : ℤ}

lemma ahead_nonneg (hw : 0 < w) (h : c ≤ t) : 0 ≤ ahead w c t := by
  have := Int.floor_le_floor (div_le_div_of_nonneg_right h hw.le)
  rw [ahead]; omega

lemma sub_lt_of_ahead (hw : 0 < w) : t - c < w * (ahead w c t + 1) := by
  have h₁ : t < w * (⌊t / w⌋ + 1) := by
    have := (div_lt_iff₀ hw).mp (Int.lt_floor_add_one (t / w))
    linarith
  have h₂ : w * ⌊c / w⌋ ≤ c := by
    have := (le_div_iff₀ hw).mp (Int.floor_le (c / w))
    linarith
  rw [ahead]
  push_cast
  linarith

lemma lt_sub_of_ahead (hw : 0 < w) : w * (ahead w c t - 1) < t - c := by
  have h₁ : w * ⌊t / w⌋ ≤ t := by
    have := (le_div_iff₀ hw).mp (Int.floor_le (t / w))
    linarith
  have h₂ : c < w * (⌊c / w⌋ + 1) := by
    have := (div_lt_iff₀ hw).mp (Int.lt_floor_add_one (c / w))
    linarith
  rw [ahead]
  push_cast
  linarith

lemma lt_of_ahead_lt {t' : ℚ} (hw : 0 < w) (h : ahead w c t < ahead w c t') : t < t' := by
  by_contra hle
  have := Int.floor_le_floor (div_le_div_of_nonneg_right (not_lt.mp hle) hw.le)
  rw [ahead, ahead] at h
  omega

lemma add_le_ahead {j : ℤ} (hj : ahead w c t % n = j) (hn : 0 < n) (hne : ahead w c t ≠ j)
    (h0 : 0 ≤ ahead w c t) : n + j ≤ ahead w c t := by
  have hge : n ≤ ahead w c t := by
    by_contra hlt
    exact hne (by rw [← hj, Int.emod_eq_of_lt h0 (not_le.mp hlt)])
  have hq : 1 ≤ ahead w c t / n := (Int.le_ediv_iff_mul_le hn).mpr (by rw [one_mul]; exact hge)
  have hdiv := Int.emod_add_mul_ediv (ahead w c t) n
  have hmul := mul_le_mul_of_nonneg_left hq hn.le
  rw [hj] at hdiv
  omega

/-- The threshold of round `j` tells this year from later ones. -/
lemma within_year_iff (hw : 0 < w) {j : ℤ} (hj : ahead w c t % n = j) (hn : 0 < n)
    (h0 : 0 ≤ ahead w c t) {d : ℚ} (hlo : w * (j + 1) ≤ d) (hhi : d ≤ w * (n + j - 1)) :
    t - c < d ↔ ahead w c t = j := by
  constructor
  · intro h
    by_contra hne
    have hge := add_le_ahead hj hn hne h0
    have hlt := lt_sub_of_ahead (c := c) (t := t) hw
    have hcast : (n : ℚ) + j ≤ ahead w c t := by exact_mod_cast hge
    have hmul := mul_le_mul_of_nonneg_left hcast hw.le
    linarith
  · intro h
    have := sub_lt_of_ahead (c := c) (t := t) hw
    rw [h] at this
    linarith

lemma slot_eq_iff {j : ℤ} (hn : 0 < n) (hj0 : 0 ≤ j) (hj : j < n) :
    slot w n t = (slot w n c + j) % n ↔ ahead w c t % n = j := by
  have hc : (slot w n c + j) % n = (⌊c / w⌋ + j) % n := by rw [slot, Int.emod_add_emod]
  rw [hc, slot]
  constructor
  · intro h
    have h₁ : Int.ModEq n (⌊t / w⌋ - ⌊c / w⌋) (⌊c / w⌋ + j - ⌊c / w⌋) := Int.ModEq.sub_right _ h
    rw [add_sub_cancel_left] at h₁
    rw [ahead, h₁, Int.emod_eq_of_lt hj0 hj]
  · intro h
    have h₁ : Int.ModEq n (⌊t / w⌋ - ⌊c / w⌋) j := by
      rw [Int.ModEq, Int.emod_eq_of_lt hj0 hj]
      exact h
    have h₂ := h₁.add_right ⌊c / w⌋
    rw [sub_add_cancel, add_comm j] at h₂
    exact h₂

end Year

namespace CalendarScheduler

/-- What holds of the variables of the search before round `j`: no event of an earlier round is of
this year, and `minE` is the head of a bucket and not later than any of them. -/
structure Scanned (s : CalendarScheduler) (P : List (Event ℚ)) (j : ℤ) (c : Scan) : Prop where
  round_nonneg : 0 ≤ j
  round_lt : j < s.nbuckets
  i_eq : c.i = (s.lastbucket + j) % s.nbuckets
  past : ∀ e ∈ P, ahead s.width s.calClock e.time % s.nbuckets < j →
    s.nbuckets ≤ ahead s.width s.calClock e.time ∧ ∃ m, c.minE = some m ∧ m.time ≤ e.time
  min_head : ∀ m, c.minE = some m →
    0 ≤ c.l ∧ c.l < s.nbuckets ∧ (s.buckets c.l).list.head? = some m

/-- The answer of the search: an event of least time that heads the bucket it names. -/
structure Found (s : CalendarScheduler) (P : List (Event ℚ)) (e : Event ℚ) (l : ℤ) : Prop where
  l_nonneg : 0 ≤ l
  l_lt : l < s.nbuckets
  head_eq : (s.buckets l).list.head? = some e
  least : ∀ x ∈ P, e.time ≤ x.time

/-- The clock is not ahead of an event, and `lastbucket_` is its bucket. -/
structure Cursor (s : CalendarScheduler) (P : List (Event ℚ)) : Prop where
  width_pos : 0 < s.width
  nbuckets_ge : 4 ≤ s.nbuckets
  lastbucket_eq : s.lastbucket = slot s.width s.nbuckets s.calClock
  clock_le : ∀ e ∈ P, s.calClock ≤ e.time
  holds : Holds s.width s.nbuckets s.buckets s.statQsize s.qsize P

section Search
variable {s : CalendarScheduler} {P : List (Event ℚ)}

lemma bucketAt_eq {i : ℤ} (h0 : 0 ≤ i) (hi : i < s.nbuckets) :
    s.bucketAt i = some (s.buckets i) := if_pos ⟨h0, hi⟩

lemma Scanned.i_nonneg {j : ℤ} {c : Scan} (h : Scanned s P j c) : 0 ≤ c.i := by
  have h₁ := h.round_nonneg
  have h₂ := h.round_lt
  rw [h.i_eq]
  exact Int.emod_nonneg _ (by omega)

lemma Scanned.i_lt {j : ℤ} {c : Scan} (h : Scanned s P j c) : c.i < s.nbuckets := by
  have h₁ := h.round_nonneg
  have h₂ := h.round_lt
  rw [h.i_eq]
  exact Int.emod_lt_of_pos _ (by omega)

/-- The bucket of round `j` holds the events `j` widths ahead, modulo the year. -/
lemma Scanned.mem_bucket_iff {j : ℤ} {c : Scan} (h : Scanned s P j c) (hs : Cursor s P)
    (e : Event ℚ) : e ∈ (s.buckets c.i).list ↔
      e ∈ P ∧ ahead s.width s.calClock e.time % s.nbuckets = j := by
  have hn := hs.nbuckets_ge
  have hiff : slot s.width s.nbuckets e.time = c.i ↔
      ahead s.width s.calClock e.time % s.nbuckets = j := by
    rw [h.i_eq, hs.lastbucket_eq]
    exact slot_eq_iff (by omega) h.round_nonneg h.round_lt
  constructor
  · intro he
    exact ⟨hs.holds.mem_of_mem_bucket h.i_nonneg h.i_lt he,
      hiff.mp (hs.holds.hashed _ h.i_nonneg h.i_lt e he)⟩
  · rintro ⟨heP, hj⟩
    rw [← hiff.mpr hj]
    exact (hs.holds.mem_iff e).mpr heP

lemma Scanned.next_i {j : ℤ} {c : Scan} (h : Scanned s P j c) :
    (if c.i + 1 = s.nbuckets then 0 else c.i + 1) = (s.lastbucket + (j + 1)) % s.nbuckets := by
  have h₁ := h.i_nonneg
  have h₂ := h.i_lt
  have hmod : (s.lastbucket + (j + 1)) % s.nbuckets = (c.i + 1) % s.nbuckets := by
    rw [h.i_eq, Int.emod_add_emod, add_assoc]
  rw [hmod]
  by_cases hc : c.i + 1 = s.nbuckets
  · rw [if_pos hc, hc, Int.emod_self]
  · rw [if_neg hc, Int.emod_eq_of_lt (by omega) (by omega)]

/-- An event of the bucket of round `j` that is this year's has least time among all. -/
lemma Scanned.least_of_ahead {j : ℤ} {c : Scan} (h : Scanned s P j c) (hs : Cursor s P)
    {e : Event ℚ} {rest : List (Event ℚ)} (hl : (s.buckets c.i).list = e :: rest)
    (he : ahead s.width s.calClock e.time = j) : ∀ x ∈ P, e.time ≤ x.time := by
  intro x hx
  have hn := hs.nbuckets_ge
  have hj := h.round_lt
  have hx0 := ahead_nonneg hs.width_pos (hs.clock_le x hx)
  have hdiv := Int.emod_add_mul_ediv (ahead s.width s.calClock x.time) s.nbuckets
  have hyears : 0 ≤ s.nbuckets * (ahead s.width s.calClock x.time / s.nbuckets) :=
    mul_nonneg (by omega) (Int.ediv_nonneg hx0 (by omega))
  have hlt_of : ahead s.width s.calClock e.time < ahead s.width s.calClock x.time →
      e.time ≤ x.time := fun hlt => (lt_of_ahead_lt hs.width_pos hlt).le
  rcases lt_trichotomy (ahead s.width s.calClock x.time % s.nbuckets) j with hlt | heq | hgt
  · have hpast := (h.past x hx hlt).1
    exact hlt_of (by omega)
  · have hmem := (h.mem_bucket_iff hs x).mpr ⟨hx, heq⟩
    have ho := hs.holds.ordered _ h.i_nonneg h.i_lt
    rw [hl] at hmem ho
    rcases List.mem_cons.mp hmem with rfl | hmem
    · exact le_rfl
    · exact List.rel_of_pairwise_cons ho hmem
  · exact hlt_of (by omega)

/-- One `CAL_DEQUEUE`: the event found is a first one of least time, else the next round is
ready. -/
lemma calDequeue_spec {j : ℤ} {c : Scan} (h : Scanned s P j c) (hs : Cursor s P)
    (hj : j + 1 < s.nbuckets) {d : ℚ} (hlo : s.width * (j + 1) ≤ d)
    (hhi : d ≤ s.width * (s.nbuckets + j - 1)) :
    (∃ e l k, s.calDequeue d c = some (.inl (e, l, k)) ∧ Found s P e l) ∨
      ∃ c', s.calDequeue d c = some (.inr c') ∧ Scanned s P (j + 1) c' := by
  have hn : 0 < s.nbuckets := by have := hs.nbuckets_ge; omega
  have hj0 := h.round_nonneg
  have hpast : ∀ x ∈ P, ahead s.width s.calClock x.time % s.nbuckets < j + 1 →
      x ∈ (s.buckets c.i).list ∨ ahead s.width s.calClock x.time % s.nbuckets < j := by
    intro x hx hlt
    rcases lt_or_eq_of_le (Int.lt_add_one_iff.mp hlt) with hlt | heq
    · exact Or.inr hlt
    · exact Or.inl ((h.mem_bucket_iff hs x).mpr ⟨hx, heq⟩)
  unfold calDequeue
  simp only [bucketAt_eq h.i_nonneg h.i_lt, Option.bind_eq_bind, Option.bind_some]
  cases hl : (s.buckets c.i).list with
  | nil =>
    refine Or.inr ⟨_, rfl, by omega, hj, h.next_i, fun x hx hlt => ?_, h.min_head⟩
    rcases hpast x hx hlt with hmem | hlt
    · simp [hl] at hmem
    · exact h.past x hx hlt
  | cons e rest =>
    have hmem : e ∈ (s.buckets c.i).list := by rw [hl]; simp
    obtain ⟨heP, hround⟩ := (h.mem_bucket_iff hs e).mp hmem
    have he0 := ahead_nonneg hs.width_pos (hs.clock_le e heP)
    have hyear := within_year_iff hs.width_pos hround hn he0 hlo hhi
    by_cases hd : e.time - s.calClock < d
    · refine Or.inl ⟨e, c.i, c.headSearch + 1, by simp [hd], h.i_nonneg, h.i_lt, by simp [hl], ?_⟩
      exact h.least_of_ahead hs hl (hyear.mp hd)
    · have hyears : ∀ x ∈ (s.buckets c.i).list, s.nbuckets ≤ ahead s.width s.calClock x.time ∧
          e.time ≤ x.time := by
        intro x hx
        have hex : e.time ≤ x.time := by
          have ho := hs.holds.ordered _ h.i_nonneg h.i_lt
          rw [hl] at ho hx
          rcases List.mem_cons.mp hx with rfl | hx
          · exact le_rfl
          · exact List.rel_of_pairwise_cons ho hx
        obtain ⟨hxP, hxr⟩ := (h.mem_bucket_iff hs x).mp hx
        have hx0 := ahead_nonneg hs.width_pos (hs.clock_le x hxP)
        refine ⟨?_, hex⟩
        have hge := add_le_ahead hround hn (fun heq => hd (hyear.mpr heq)) he0
        by_contra hlt
        rw [Int.emod_eq_of_lt hx0 (not_le.mp hlt)] at hxr
        have hlt' : x.time < e.time := lt_of_ahead_lt (c := s.calClock) hs.width_pos (by omega)
        exact absurd hex (not_le.mpr hlt')
      simp only [hd, if_false]
      by_cases hmin : (c.minE.all fun m => decide (e.time < m.time)) = true
      · rw [if_pos hmin]
        refine Or.inr ⟨_, rfl, by omega, hj, h.next_i, fun x hx hlt => ?_, ?_⟩
        · rcases hpast x hx hlt with hx | hlt
          · exact ⟨(hyears x hx).1, e, rfl, (hyears x hx).2⟩
          · obtain ⟨hy, m, hm, hmx⟩ := h.past x hx hlt
            have hem : e.time < m.time := by simpa [hm] using hmin
            exact ⟨hy, e, rfl, hem.le.trans hmx⟩
        · rintro m ⟨⟩
          exact ⟨h.i_nonneg, h.i_lt, by simp [hl]⟩
      · rw [if_neg hmin]
        obtain ⟨m, hm, hme⟩ : ∃ m, c.minE = some m ∧ m.time ≤ e.time := by
          cases hcm : c.minE with
          | none => simp [hcm] at hmin
          | some m => exact ⟨m, rfl, by simpa [hcm] using hmin⟩
        refine Or.inr ⟨_, rfl, by omega, hj, h.next_i, fun x hx hlt => ?_, h.min_head⟩
        rcases hpast x hx hlt with hx | hlt
        · exact ⟨(hyears x hx).1, m, hm, hme.trans (hyears x hx).2⟩
        · exact h.past x hx hlt

/-- The loop of `CAL_DEQUEUE(2)` stops at an event found, or in the last round. -/
lemma scanYear_spec (hs : Cursor s P) (hd : s.diff2 = s.width * s.nbuckets) {dec : ℤ}
    (hdec : dec = (s.lastbucket + (s.nbuckets - 1)) % s.nbuckets) (fuel : ℕ) {j : ℤ} {c : Scan}
    (h : Scanned s P j c) (hj : 2 ≤ j) (hf : s.nbuckets - j ≤ fuel) :
    (∃ e l k, s.scanYear dec fuel c = some (.inl (e, l, k)) ∧ Found s P e l) ∨
      ∃ c', s.scanYear dec fuel c = some (.inr c') ∧ Scanned s P (s.nbuckets - 1) c' := by
  have hn := hs.nbuckets_ge
  induction fuel generalizing j c with
  | zero =>
    have := h.round_lt
    omega
  | succ fuel ih =>
    have hiff : c.i = dec ↔ j = s.nbuckets - 1 := by
      rw [h.i_eq, hdec]
      constructor
      · intro heq
        have h₁ := Int.ModEq.add_left_cancel' _ heq
        rwa [Int.ModEq, Int.emod_eq_of_lt h.round_nonneg h.round_lt,
          Int.emod_eq_of_lt (by omega) (by omega)] at h₁
      · rintro rfl; rfl
    rw [scanYear]
    by_cases hc : c.i = dec
    · rw [if_pos hc]
      exact Or.inr ⟨c, rfl, hiff.mp hc ▸ h⟩
    · have hlt := h.round_lt
      have hj1 : j + 1 < s.nbuckets := by
        have := mt hiff.mpr hc
        omega
      have hw := hs.width_pos
      have hlo : s.width * (j + 1) ≤ s.diff2 := by
        rw [hd]
        exact mul_le_mul_of_nonneg_left (by exact_mod_cast hj1.le) hw.le
      have hhi : s.diff2 ≤ s.width * (s.nbuckets + j - 1) := by
        have hcast : (2 : ℚ) ≤ j := by exact_mod_cast hj
        rw [hd]
        exact mul_le_mul_of_nonneg_left (by linarith) hw.le
      rw [if_neg hc]
      rcases calDequeue_spec h hs hj1 hlo hhi with ⟨e, l, k, heq, hfound⟩ | ⟨c', heq, hc'⟩
      · exact Or.inl ⟨e, l, k, by rw [heq]; rfl, hfound⟩
      · rw [heq, Option.bind_some]
        exact ih hc' (by omega) (by omega)

/-- The last bucket is compared with the best of the others. -/
lemma lastBucketMin_spec (hs : Cursor s P) (hP : P ≠ []) {c : Scan}
    (h : Scanned s P (s.nbuckets - 1) c) :
    ∃ e l k, s.lastBucketMin c = some (e, l, k) ∧ Found s P e l := by
  have hn : 0 < s.nbuckets := by have := hs.nbuckets_ge; omega
  have hmem : ∀ x ∈ P, x ∈ (s.buckets c.i).list ∨ ∃ m, c.minE = some m ∧ m.time ≤ x.time := by
    intro x hx
    have hlt := Int.emod_lt_of_pos (ahead s.width s.calClock x.time) hn
    rcases lt_or_eq_of_le (Int.le_sub_one_of_lt hlt) with hlt | heq
    · exact Or.inr (h.past x hx hlt).2
    · exact Or.inl ((h.mem_bucket_iff hs x).mpr ⟨hx, heq⟩)
  have hhead : ∀ e rest, (s.buckets c.i).list = e :: rest →
      ∀ x ∈ (s.buckets c.i).list, e.time ≤ x.time := by
    intro e rest hl x hx
    have ho := hs.holds.ordered _ h.i_nonneg h.i_lt
    rw [hl] at ho hx
    rcases List.mem_cons.mp hx with rfl | hx
    · exact le_rfl
    · exact List.rel_of_pairwise_cons ho hx
  unfold lastBucketMin
  rw [bucketAt_eq h.i_nonneg h.i_lt, Option.bind_some]
  cases hm : c.minE with
  | none =>
    cases hl : (s.buckets c.i).list with
    | nil =>
      obtain ⟨x, hx⟩ := List.exists_mem_of_ne_nil P hP
      rcases hmem x hx with hx | ⟨m, hm', -⟩
      · simp [hl] at hx
      · simp [hm] at hm'
    | cons e rest =>
      refine ⟨e, c.i, c.headSearch, rfl, h.i_nonneg, h.i_lt, by rw [hl]; rfl, fun x hx => ?_⟩
      rcases hmem x hx with hx | ⟨m, hm', -⟩
      · exact hhead e rest hl x hx
      · simp [hm] at hm'
  | some m =>
    obtain ⟨hl0, hln, hmh⟩ := h.min_head m hm
    have hother : ∀ x ∈ P, x ∈ (s.buckets c.i).list ∨ m.time ≤ x.time := by
      intro x hx
      rcases hmem x hx with hx | ⟨m', hm', hle⟩
      · exact Or.inl hx
      · rw [hm, Option.some.injEq] at hm'
        exact Or.inr (hm' ▸ hle)
    cases hl : (s.buckets c.i).list with
    | nil =>
      refine ⟨m, c.l, c.headSearch, rfl, hl0, hln, hmh, fun x hx => ?_⟩
      rcases hother x hx with hx | hle
      · simp [hl] at hx
      · exact hle
    | cons e rest =>
      by_cases hlt : m.time < e.time
      · refine ⟨m, c.l, c.headSearch, if_pos hlt, hl0, hln, hmh, fun x hx => ?_⟩
        rcases hother x hx with hx | hle
        · exact hlt.le.trans (hhead e rest hl x hx)
        · exact hle
      · refine ⟨e, c.i, c.headSearch, if_neg hlt, h.i_nonneg, h.i_lt, by rw [hl]; rfl,
          fun x hx => ?_⟩
        rcases hother x hx with hx | hle
        · exact hhead e rest hl x hx
        · exact (not_lt.mp hlt).trans hle

/-- The three thresholds as `reinit` sets them. -/
structure Thresholds (s : CalendarScheduler) : Prop where
  diff0 : s.diff0 = s.width * s.nbuckets / 2
  diff1 : s.diff1 = s.width * s.nbuckets / 2 + s.width
  diff2 : s.diff2 = s.width * s.nbuckets

/-- The search of a queue that is not empty finds an event of least time at the head of its
bucket. -/
theorem search_spec (hs : Cursor s P) (hd : Thresholds s) (hP : P ≠ []) :
    ∃ e l k, s.search = some (e, l, k) ∧ Found s P e l := by
  have hn := hs.nbuckets_ge
  have hw := hs.width_pos
  have hncast : (4 : ℚ) ≤ s.nbuckets := by exact_mod_cast hn
  have hwn : s.width * 4 ≤ s.width * s.nbuckets := mul_le_mul_of_nonneg_left hncast hw.le
  have hb0 : 0 ≤ s.lastbucket := hs.lastbucket_eq ▸ slot_nonneg (by omega) _ _
  have hbn : s.lastbucket < s.nbuckets := hs.lastbucket_eq ▸ slot_lt (by omega) _ _
  have h₀ : Scanned s P 0 ⟨s.lastbucket, -1, none, s.headSearch⟩ := by
    refine ⟨le_rfl, by omega, ?_, fun e he hlt => ?_, fun m hm => by simp at hm⟩
    · rw [add_zero, Int.emod_eq_of_lt hb0 hbn]
    · exact absurd hlt (not_lt.mpr (Int.emod_nonneg _ (by omega)))
  have hdec : (if s.lastbucket ≠ 0 then s.lastbucket - 1 else s.nbuckets - 1) =
      (s.lastbucket + (s.nbuckets - 1)) % s.nbuckets := by
    by_cases h0 : s.lastbucket = 0
    · rw [if_neg (not_not.mpr h0), h0, zero_add, Int.emod_eq_of_lt (by omega) (by omega)]
    · rw [if_pos h0, show s.lastbucket + (s.nbuckets - 1) = s.lastbucket - 1 + s.nbuckets by ring,
        Int.add_emod_right, Int.emod_eq_of_lt (by omega) (by omega)]
  unfold search
  rcases calDequeue_spec (d := s.diff0) h₀ hs (by omega) (by rw [hd.diff0]; push_cast; linarith)
    (by rw [hd.diff0]; push_cast; linarith) with ⟨e, l, k, heq, hf⟩ | ⟨c₀, heq, hc₀⟩
  · exact ⟨e, l, k, by rw [heq]; rfl, hf⟩
  rw [heq, Option.bind_some]
  simp only
  rcases calDequeue_spec (d := s.diff1) hc₀ hs (by omega) (by rw [hd.diff1]; push_cast; linarith)
    (by rw [hd.diff1]; push_cast; linarith) with ⟨e, l, k, heq, hf⟩ | ⟨c₁, heq, hc₁⟩
  · exact ⟨e, l, k, by rw [heq]; rfl, hf⟩
  rw [heq, Option.bind_some]
  simp only
  rcases scanYear_spec hs hd.diff2 hdec s.nbuckets.toNat hc₁ (by omega) (by omega) with
    ⟨e, l, k, heq, hf⟩ | ⟨c₂, heq, hc₂⟩
  · exact ⟨e, l, k, by rw [heq]; rfl, hf⟩
  rw [heq, Option.bind_some]
  exact lastBucketMin_spec hs hP hc₂

end Search

end CalendarScheduler

end NetworkSimulator
