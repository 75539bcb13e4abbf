import NetworkSimulator.Scheduler.CalendarHead

/-!
# The calendar queue is a stable queue

`Refines` ties a `CalendarScheduler` to the pending events and the time of the last event
returned. A resize empties the buckets and fills them again last event first; since `insert2` puts
an event before its equals, every class of equal times comes out in its old order.
-/

namespace NetworkSimulator
open Library

/-- A bucket that has the class of a least event first in line has that event at its head. -/
lemma Holds.head_eq {w : ℚ} {n : ℤ} {bs : ℤ → Bucket} {stat size : ℤ} {P : List (Event ℚ)}
    (h : Holds w n bs stat size P) (hn : 0 < n) {e : Event ℚ} {cs : List (Event ℚ)}
    (hc : keyClass Event.time e.time P = e :: cs) (hmin : ∀ x ∈ P, e.time ≤ x.time) :
    ∃ rest, (bs (slot w n e.time)).list = e :: rest := by
  have hs0 := slot_nonneg hn w e.time
  have hsn := slot_lt hn w e.time
  have heP : e ∈ P := ((mem_keyClass _).mp (hc ▸ List.mem_cons_self)).1
  have hcl := (h.classes e.time).trans hc
  have hmem := (h.mem_iff e).mpr heP
  cases hl : (bs (slot w n e.time)).list with
  | nil => simp [hl] at hmem
  | cons x rest =>
    have ho := h.ordered _ hs0 hsn
    rw [hl] at hmem hcl ho
    have hxP : x ∈ P := h.mem_of_mem_bucket hs0 hsn (by rw [hl]; exact List.mem_cons_self)
    have hxe : x.time ≤ e.time := by
      rcases List.mem_cons.mp hmem with rfl | hmem
      · exact le_rfl
      · exact List.rel_of_pairwise_cons ho hmem
    have hxe' : x.time = e.time := le_antisymm hxe (hmin x hxP)
    rw [← hxe', keyClass_cons_self] at hcl
    exact ⟨rest, by rw [(List.cons.inj hcl).1]⟩

namespace CalendarScheduler
variable {cfg : CalendarConfig} {s : CalendarScheduler} {P : List (Event ℚ)}

lemma calendarHash_eq (hw : 0 < s.width) (hn : 0 < s.nbuckets) {t : ℚ} (ht : 0 ≤ t) :
    s.calendarHash t = slot s.width s.nbuckets t := toInt_fmod (div_nonneg ht hw.le) hn

/-- `insert2` changes the buckets and the two sizes, and puts `e` before its equals. -/
lemma insert2_spec (hw : 0 < s.width) (hn : 0 < s.nbuckets) {Q : List (Event ℚ)}
    (h : Holds s.width s.nbuckets s.buckets s.statQsize s.qsize Q) {e : Event ℚ}
    (he : 0 ≤ e.time) :
    ∃ bs stat size, s.insert2 e = some { s with buckets := bs, statQsize := stat, qsize := size } ∧
      Holds s.width s.nbuckets bs stat size (e :: Q) := by
  have h0 := slot_nonneg hn s.width e.time
  have hlt := slot_lt hn s.width e.time
  obtain ⟨b', hp, hh⟩ := h.placeFirst h0 hlt rfl
  refine ⟨_, _, _, ?_, hh⟩
  rw [insert2, calendarHash_eq hw hn he, bucketAt_eq h0 hlt]
  simp only [Option.bind_eq_bind, Option.bind_some, hp]
  rfl

lemma insert2_foldlM (es : List (Event ℚ)) (hes : ∀ e ∈ es, 0 ≤ e.time) {s : CalendarScheduler}
    (hw : 0 < s.width) (hn : 0 < s.nbuckets) {Q : List (Event ℚ)}
    (h : Holds s.width s.nbuckets s.buckets s.statQsize s.qsize Q) :
    ∃ bs stat size,
      es.foldlM insert2 s = some { s with buckets := bs, statQsize := stat, qsize := size } ∧
      Holds s.width s.nbuckets bs stat size (es.reverse ++ Q) := by
  induction es generalizing s Q with
  | nil => exact ⟨_, _, _, rfl, h⟩
  | cons e es ih =>
    obtain ⟨bs, stat, size, h₁, hh₁⟩ := insert2_spec hw hn h (hes e (by simp))
    obtain ⟨bs', stat', size', h₂, hh₂⟩ := ih (fun x hx => hes x (by simp [hx]))
      (s := { s with buckets := bs, statQsize := stat, qsize := size }) hw hn hh₁
    refine ⟨bs', stat', size', ?_, by simpa using hh₂⟩
    rw [List.foldlM_cons, h₁]
    exact h₂

/-- The events in the order in which a resize copies them. -/
def copied (s : CalendarScheduler) (m : ℕ) : List (Event ℚ) :=
  (List.range m).flatMap fun (i : ℕ) => (s.buckets i).list.reverse

lemma copied_succ (s : CalendarScheduler) (m : ℕ) :
    s.copied (m + 1) = s.copied m ++ (s.buckets m).list.reverse := by
  rw [copied, List.range_succ, List.flatMap_append, List.flatMap_singleton]
  rfl

lemma foldlM_copied (s t : CalendarScheduler) (m : ℕ) :
    (List.range m).foldlM (fun t (i : ℕ) => (s.buckets i).list.reverse.foldlM insert2 t) t =
      (s.copied m).foldlM insert2 t := by
  induction m with
  | zero => rfl
  | succ m ih =>
    rw [List.range_succ, List.foldlM_append, ih, copied_succ, List.foldlM_append]
    simp only [List.foldlM_cons, List.foldlM_nil, bind_pure]

lemma keyClass_reverse (t : ℚ) (l : List (Event ℚ)) :
    keyClass Event.time t l.reverse = (keyClass Event.time t l).reverse := List.filter_reverse ..

/-- Each class of times is copied from one bucket, backwards. -/
lemma keyClass_copied (h : Holds s.width s.nbuckets s.buckets s.statQsize s.qsize P)
    (hn : 0 < s.nbuckets) (t : ℚ) {m : ℕ} (hm : (m : ℤ) ≤ s.nbuckets) :
    keyClass Event.time t (s.copied m) =
      if slot s.width s.nbuckets t < m then (keyClass Event.time t P).reverse else [] := by
  have h0 := slot_nonneg hn s.width t
  induction m with
  | zero => rw [if_neg (by push_cast; omega)]; rfl
  | succ m ih =>
    rw [copied_succ, keyClass_append, ih (by push_cast at hm; omega), keyClass_reverse]
    by_cases hlt : slot s.width s.nbuckets t < m
    · have hnil : keyClass Event.time t (s.buckets m).list = [] := by
        refine keyClass_eq_nil _ fun e he het => ?_
        have hs := h.hashed m (by omega) (by push_cast at hm; omega) e he
        rw [het] at hs
        omega
      rw [if_pos hlt, if_pos (by push_cast; omega), hnil, List.reverse_nil, List.append_nil]
    · by_cases heq : slot s.width s.nbuckets t = m
      · rw [if_neg hlt, if_pos (by push_cast; omega), ← heq, h.classes, List.nil_append]
      · have hnil : keyClass Event.time t (s.buckets m).list = [] := by
          refine keyClass_eq_nil _ fun e he het => heq ?_
          have hs := h.hashed m (by omega) (by push_cast at hm; omega) e he
          rw [← hs, het]
        rw [if_neg hlt, if_neg (by push_cast; omega), hnil]
        rfl

lemma mem_of_mem_copied (h : Holds s.width s.nbuckets s.buckets s.statQsize s.qsize P)
    (hn : 0 < s.nbuckets) {e : Event ℚ} (he : e ∈ s.copied s.nbuckets.toNat) : e ∈ P := by
  have hm := (mem_keyClass Event.time).mpr ⟨he, rfl⟩
  rw [keyClass_copied h hn e.time (by omega)] at hm
  have hlt := slot_lt hn s.width e.time
  rw [if_pos (by omega), List.mem_reverse] at hm
  exact ((mem_keyClass _).mp hm).1

/-- The state after a resize: the same events, the clock untouched. -/
structure Resized (s s' : CalendarScheduler) (P : List (Event ℚ)) : Prop where
  cursor : Cursor s' P
  thresholds : Thresholds s'
  calClock_eq : s'.calClock = s.calClock

lemma reinit_holds (s : CalendarScheduler) {nbuck : ℤ} (bwidth start : ℚ) :
    Holds (s.reinit nbuck bwidth start).width (s.reinit nbuck bwidth start).nbuckets
      (s.reinit nbuck bwidth start).buckets (s.reinit nbuck bwidth start).statQsize
      (s.reinit nbuck bwidth start).qsize [] where
  ordered _ _ _ := List.Pairwise.nil
  hashed _ _ _ e he := by simp [reinit] at he
  classes _ := rfl
  counts _ _ _ := rfl
  total := by simp [reinit]
  size_eq := rfl

lemma rebuild_spec (hs : Cursor s P) (hc : 0 ≤ s.calClock) {newsize : ℤ} (hsize : 4 ≤ newsize)
    {bwidth : ℚ} (hw : 0 < bwidth) :
    ∃ s', s.rebuild newsize bwidth s.calClock = some s' ∧ Resized s s' P := by
  have hn : 0 < s.nbuckets := by have := hs.nbuckets_ge; omega
  obtain ⟨bs, stat, size, hf, hh⟩ := insert2_foldlM (s.copied s.nbuckets.toNat)
    (fun e he => hc.trans (hs.clock_le e (mem_of_mem_copied hs.holds hn he)))
    (s := s.reinit newsize bwidth s.calClock) hw (show 0 < newsize by omega)
    (reinit_holds s bwidth s.calClock)
  refine ⟨{ s.reinit newsize bwidth s.calClock with
    buckets := bs, statQsize := stat, qsize := size, headSearch := 0, insertSearch := 0,
    roundNum := 0 }, ?_, ⟨hw, hsize, ?_, hs.clock_le, ?_⟩, ⟨rfl, rfl, rfl⟩, rfl⟩
  · rw [rebuild, foldlM_copied, hf]
    rfl
  · exact toInt_fmod (div_nonneg hc hw.le) (show 0 < newsize by omega)
  · refine hh.congr fun t => ?_
    have hlt := slot_lt hn s.width t
    rw [List.append_nil, keyClass_reverse, keyClass_copied hs.holds hn t (by omega),
      if_pos (by omega), List.reverse_reverse]

lemma maxBucket_range (hn : 0 < s.nbuckets) : 0 ≤ s.maxBucket ∧ s.maxBucket < s.nbuckets := by
  have hfold : ∀ (l : List ℕ) (m : ℤ), (∀ i ∈ l, (i : ℤ) < s.nbuckets) → 0 ≤ m → m < s.nbuckets →
      let r := l.foldl (fun (m : ℤ) (i : ℕ) =>
        if (s.buckets i).count > (s.buckets m).count then (i : ℤ) else m) m
      0 ≤ r ∧ r < s.nbuckets := by
    intro l
    induction l with
    | nil => exact fun m _ h0 hm => ⟨h0, hm⟩
    | cons i l ih =>
      intro m hl h0 hm
      have hi := hl i (by simp)
      have hnext : ∀ p : Prop, [Decidable p] → 0 ≤ (if p then (i : ℤ) else m) ∧
          (if p then (i : ℤ) else m) < s.nbuckets := by
        intro p _
        split <;> omega
      exact ih _ (fun j hj => hl j (by simp [hj])) (hnext _).1 (hnext _).2
  refine hfold _ 0 (fun i hi => ?_) le_rfl hn
  have := List.mem_range.mp hi
  omega

/-- An ordered list with two distinct times spans some time. -/
lemma head_lt_getLast {l : List (Event ℚ)} (ho : Ordered Event.time l) (h : 1 < distinctTimes l) :
    ∃ head tail, l.head? = some head ∧ l.getLast? = some tail ∧ head.time < tail.time := by
  obtain ⟨x, hx, y, hy, hxy⟩ := eq_of_distinctTimes_gt h
  cases l with
  | nil => simp at hx
  | cons head tl =>
    obtain ⟨tail, ht⟩ : ∃ tail, (head :: tl).getLast? = some tail :=
      ⟨_, List.getLast?_eq_getLast_of_ne_nil (List.cons_ne_nil head tl)⟩
    have hhead : ∀ z ∈ head :: tl, head.time ≤ z.time := by
      intro z hz
      rcases List.mem_cons.mp hz with rfl | hz
      · exact le_rfl
      · exact List.rel_of_pairwise_cons ho hz
    have htail : ∀ z ∈ head :: tl, z.time ≤ tail.time := by
      intro z hz
      obtain ⟨ys, hys⟩ := List.getLast?_eq_some_iff.mp ht
      rw [hys] at ho hz
      rcases List.mem_append.mp hz with hz | hz
      · exact (List.pairwise_append.mp ho).2.2 z hz tail (by simp)
      · exact (List.mem_singleton.mp hz) ▸ le_rfl
    refine ⟨head, tail, rfl, ht, ?_⟩
    rcases lt_or_gt_of_ne hxy with hlt | hlt
    · exact (hhead x hx).trans_lt (hlt.trans_le (htail y hy))
    · exact (hhead y hy).trans_lt (hlt.trans_le (htail x hx))

/-- The assertion of `newwidth` holds, and the width it picks is positive. -/
lemma newwidth_spec (cfg : CalendarConfig) (hs : Cursor s P) {newsize : ℤ} (hsize : 0 < newsize) :
    ∃ bwidth k, s.newwidth cfg newsize = some (bwidth, { s with timeToNewwidth := k }) ∧
      0 < bwidth := by
  have hn : 0 < s.nbuckets := by have := hs.nbuckets_ge; omega
  obtain ⟨k, hk⟩ : ∃ k, (if cfg.adjustNewWidthInterval ≠ 0 then
      { s with timeToNewwidth := cfg.adjustNewWidthInterval } else s) =
        { s with timeToNewwidth := k } := by
    by_cases ha : cfg.adjustNewWidthInterval ≠ 0
    · exact ⟨_, if_pos ha⟩
    · exact ⟨s.timeToNewwidth, if_neg ha⟩
  unfold newwidth
  simp only [hk]
  by_cases hgap : cfg.adjustNewWidthInterval ≠ 0 ∧ s.avgGap > 0
  · rw [if_pos hgap]
    exact ⟨_, k, rfl, by have := hgap.2; linarith⟩
  have hmax : CalendarScheduler.maxBucket { s with timeToNewwidth := k } = s.maxBucket := rfl
  rw [if_neg hgap, hmax]
  obtain ⟨hm0, hmn⟩ := maxBucket_range hn
  by_cases hc : (s.buckets s.maxBucket).count ≤ 4
  · rw [if_pos hc]
    exact ⟨_, k, rfl, hs.width_pos⟩
  · rw [if_neg hc]
    have hd := hs.holds.counts _ hm0 hmn
    obtain ⟨head, tail, hh, ht, hlt⟩ := head_lt_getLast (hs.holds.ordered _ hm0 hmn)
      (by rw [← hd]; omega)
    have hnw : 0 < tail.time - head.time := sub_pos.mpr hlt
    have hmin : (0 : ℚ) < (if newsize < (s.buckets s.maxBucket).count then newsize
        else (s.buckets s.maxBucket).count : ℤ) := by
      have : (0 : ℤ) < if newsize < (s.buckets s.maxBucket).count then newsize
        else (s.buckets s.maxBucket).count := by split <;> omega
      exact_mod_cast this
    simp only [hh, ht, if_pos hnw]
    exact ⟨_, k, rfl, by positivity⟩

/-- Every automatic resize keeps the pending events and the clock. -/
lemma resize_spec (hsqrt : ∀ x, 0 < x → 0 < cfg.sqrt x) (hs : Cursor s P) (hd : Thresholds s)
    (hc : 0 ≤ s.calClock) {newsize : ℤ} (hsize : 0 < newsize) :
    ∃ s', s.resize cfg newsize s.calClock = some s' ∧ Resized s s' P := by
  have hnew : ∀ m : ℤ, 4 ≤ m → ∃ s', ((s.newwidth cfg newsize).bind fun p =>
      p.2.rebuild m p.1 s.calClock) = some s' ∧ Resized s s' P := by
    intro m hm
    obtain ⟨bwidth, k, heq, hw⟩ := newwidth_spec cfg hs hsize
    obtain ⟨s', hs', hr⟩ := rebuild_spec (s := { s with timeToNewwidth := k })
      ⟨hs.width_pos, hs.nbuckets_ge, hs.lastbucket_eq, hs.clock_le, hs.holds⟩ hc hm hw
    exact ⟨s', by rw [heq]; exact hs', hr.cursor, hr.thresholds, hr.calClock_eq⟩
  unfold resize
  by_cases heq : newsize = s.nbuckets
  · rw [if_pos heq]
    set ratio₀ : ℚ := if s.headSearch ≠ 0 then s.headSearch else 1 with hr₀
    set ratio : ℚ := if s.insertSearch ≠ 0 then ratio₀ / s.insertSearch else ratio₀ with hr
    have hpos₀ : 0 < ratio₀ := by
      rw [hr₀]
      split
      · exact_mod_cast Nat.pos_of_ne_zero ‹_›
      · exact one_pos
    have hpos : 0 < ratio := by
      rw [hr]
      split
      · exact div_pos hpos₀ (by exact_mod_cast Nat.pos_of_ne_zero ‹_›)
      · exact hpos₀
    have hw : 0 < cfg.sqrt ratio * s.width := mul_pos (hsqrt _ hpos) hs.width_pos
    have h4 : 4 ≤ newsize := heq ▸ hs.nbuckets_ge
    by_cases hb : cfg.sqrt ratio * s.width < cfg.minBinWidth
    · rw [if_pos hb]
      by_cases ht : 0 < s.timeToNewwidth
      · rw [if_pos ht]
        exact ⟨_, rfl, ⟨hs.width_pos, hs.nbuckets_ge, hs.lastbucket_eq, hs.clock_le, hs.holds⟩,
          ⟨hd.diff0, hd.diff1, hd.diff2⟩, rfl⟩
      · rw [if_neg ht]
        exact hnew newsize h4
    · rw [if_neg hb]
      exact rebuild_spec hs hc h4 hw
  · rw [if_neg heq]
    exact hnew _ (by split <;> omega)

/-- The calendar queue holds the pending events, and its clock is the time of the last event
returned. -/
structure Refines (s : CalendarScheduler) (q : StableQueue ℚ) : Prop where
  cursor : Cursor s q.pending
  thresholds : Thresholds s
  calClock_eq : s.calClock = q.clock
  clock_nonneg : 0 ≤ q.clock

lemma Refines.nbuckets_pos {q : StableQueue ℚ} (h : Refines s q) : 0 < s.nbuckets := by
  have := h.cursor.nbuckets_ge
  omega

/-- The promise of the callers of `Scheduler::schedule`: no event lies before the clock. -/
def Admitted (q : StableQueue ℚ) (op : SchedulerOp ℚ) : Prop :=
  q.Admitted op ∧ ∀ e, op = .insert e → q.clock ≤ e.time

lemma insert_spec (hsqrt : ∀ x, 0 < x → 0 < cfg.sqrt x) {q : StableQueue ℚ} (h : Refines s q)
    {e : Event ℚ} (he : q.clock ≤ e.time) :
    ∃ s', s.insert cfg e = some s' ∧ Refines s' (q.next (.insert e)) := by
  have hn := h.nbuckets_pos
  have hw := h.cursor.width_pos
  have h0 := slot_nonneg hn s.width e.time
  have hlt := slot_lt hn s.width e.time
  have hnot : ¬e.time < s.calClock := by rw [h.calClock_eq]; exact not_lt.mpr he
  obtain ⟨b', steps, hp, hh⟩ := h.cursor.holds.placeLast h0 hlt rfl
  set s₁ : CalendarScheduler :=
    { s.setBucket (slot s.width s.nbuckets e.time) b' with
      statQsize := s.statQsize + (b'.count - (s.buckets (slot s.width s.nbuckets e.time)).count)
      insertSearch := s.insertSearch + steps
      qsize := s.qsize + 1 } with hs₁
  have hc₁ : Cursor s₁ (q.pending ++ [e]) := by
    refine ⟨hw, h.cursor.nbuckets_ge, h.cursor.lastbucket_eq, fun x hx => ?_, hh⟩
    rcases List.mem_append.mp hx with hx | hx
    · exact h.cursor.clock_le x hx
    · rw [List.mem_singleton.mp hx]
      exact not_lt.mp hnot
  have hd₁ : Thresholds s₁ := ⟨h.thresholds.diff0, h.thresholds.diff1, h.thresholds.diff2⟩
  have hclock : s₁.calClock = q.clock := h.calClock_eq
  have heq : s.insert cfg e = if s₁.statQsize > s₁.topThreshold then
      s₁.resize cfg (s₁.nbuckets * 2) s₁.calClock else some s₁ := by
    rw [insert, calendarHash_eq hw hn (h.clock_nonneg.trans he)]
    simp only [if_neg hnot, bucketAt_eq h0 hlt, Option.bind_eq_bind, Option.bind_some, hp]
    rfl
  rw [heq]
  by_cases hgrow : s₁.statQsize > s₁.topThreshold
  · have hn₁ : 0 < s₁.nbuckets := hn
    obtain ⟨s', hs', hr⟩ := resize_spec hsqrt hc₁ hd₁ (hclock ▸ h.clock_nonneg)
      (show 0 < s₁.nbuckets * 2 by omega)
    rw [if_pos hgrow]
    exact ⟨s', hs', hr.cursor, hr.thresholds, hr.calClock_eq.trans hclock, h.clock_nonneg⟩
  · rw [if_neg hgrow]
    exact ⟨s₁, rfl, hc₁, hd₁, hclock, h.clock_nonneg⟩

/-- `head` moves the cursor to a first event of least time. -/
lemma head_spec {q : StableQueue ℚ} (h : Refines s q) (hP : q.pending ≠ []) :
    ∃ e cs s', s.head = some (some e, s') ∧
      keyClass Event.time e.time q.pending = e :: cs ∧ (∀ x ∈ q.pending, e.time ≤ x.time) ∧
      Cursor s' q.pending ∧ Thresholds s' ∧ s'.calClock = e.time := by
  have hq : s.qsize ≠ 0 := by
    have := List.length_pos_of_ne_nil hP
    rw [h.cursor.holds.size_eq]
    omega
  obtain ⟨e, l, k, heq, hf⟩ := search_spec h.cursor h.thresholds hP
  obtain ⟨rest, hl⟩ : ∃ rest, (s.buckets l).list = e :: rest := by
    cases hl : (s.buckets l).list with
    | nil => have := hf.head_eq; simp [hl] at this
    | cons x rest =>
      have := hf.head_eq
      rw [hl, List.head?_cons, Option.some.injEq] at this
      exact ⟨rest, by rw [this]⟩
  have hslot := h.cursor.holds.hashed l hf.l_nonneg hf.l_lt e (by rw [hl]; simp)
  have hclass : keyClass Event.time e.time q.pending =
      e :: keyClass Event.time e.time rest := by
    rw [← h.cursor.holds.classes, hslot, hl, keyClass_cons_self]
  refine ⟨e, _, { s with headSearch := k, lastbucket := l, calClock := e.time }, ?_, hclass,
    hf.least, ⟨h.cursor.width_pos, h.cursor.nbuckets_ge, hslot.symm, hf.least, h.cursor.holds⟩,
    ⟨h.thresholds.diff0, h.thresholds.diff1, h.thresholds.diff2⟩, rfl⟩
  rw [head, if_neg hq, heq, Option.bind_some]
  have hne : l ≠ -1 := by have := hf.l_nonneg; omega
  simp only [if_neg hne]

/-- The statistics of the snoopy queue play no part in what the queue holds. -/
lemma Resized.of_statistics {s' : CalendarScheduler} (h : Resized s s' P) (l a : ℚ) (g r : ℤ)
    (k i : ℕ) : Resized s { s' with
      lastTime := l, avgGap := a, gapNum := g, roundNum := r, headSearch := k,
      insertSearch := i } P :=
  ⟨⟨h.cursor.width_pos, h.cursor.nbuckets_ge, h.cursor.lastbucket_eq, h.cursor.clock_le,
    h.cursor.holds⟩, ⟨h.thresholds.diff0, h.thresholds.diff1, h.thresholds.diff2⟩, h.calClock_eq⟩

/-- The width adjustment in the middle of `deque` keeps the cursor on the same event. -/
lemma adjustWidth_spec (hsqrt : ∀ x, 0 < x → 0 < cfg.sqrt x) (hs : Cursor s P)
    (hd : Thresholds s) (hc : 0 ≤ s.calClock) (e : Event ℚ) :
    ∃ s', s.adjustWidth cfg e = some s' ∧ Resized s s' P := by
  have hr : Resized s s P := ⟨hs, hd, rfl⟩
  unfold adjustWidth
  by_cases ha : cfg.adjustNewWidthInterval = 0
  · exact ⟨s, if_pos ha, hr⟩
  rw [if_neg ha]
  by_cases hl : s.lastTime < 0
  · rw [if_pos hl]
    exact ⟨_, rfl, hr.of_statistics _ _ _ _ _ _⟩
  rw [if_neg hl]
  by_cases hg : s.gapNum + 1 ≥ s.qsize
  · simp only [if_pos hg]
    set s₁ : CalendarScheduler := { s with
      gapNum := 0, avgGap := (e.time - s.lastTime) / (s.gapNum + 1 : ℤ), lastTime := e.time,
      roundNum := s.roundNum + 1 } with hs₁
    have hr₁ : Resized s s₁ P := hr.of_statistics _ _ _ _ _ _
    split
    · obtain ⟨s', heq, hr'⟩ := resize_spec hsqrt hr₁.cursor hr₁.thresholds hc
        (show 0 < s₁.nbuckets by have := hr₁.cursor.nbuckets_ge; omega)
      refine ⟨{ s' with roundNum := 0 }, by rw [heq]; rfl, ?_⟩
      exact Resized.of_statistics (s := s) ⟨hr'.cursor, hr'.thresholds, hr'.calClock_eq⟩ _ _ _ _ _ _
    · split
      · exact ⟨_, rfl, hr₁.of_statistics _ _ _ _ _ _⟩
      · exact ⟨_, rfl, hr₁⟩
  · simp only [if_neg hg]
    exact ⟨_, rfl, hr.of_statistics _ _ _ _ _ _⟩

lemma unlinkHead_spec (hs : Cursor s P) (hd : Thresholds s) {e : Event ℚ} {cs : List (Event ℚ)}
    (hclock : s.calClock = e.time) (hc : keyClass Event.time e.time P = e :: cs)
    (hmin : ∀ x ∈ P, e.time ≤ x.time) :
    ∃ s', s.unlinkHead e = some s' ∧ Resized s s' (P.erase e) := by
  have hn : 0 < s.nbuckets := by have := hs.nbuckets_ge; omega
  obtain ⟨rest, hl⟩ := hs.holds.head_eq hn hc hmin
  have hb : s.lastbucket = slot s.width s.nbuckets e.time := hclock ▸ hs.lastbucket_eq
  rw [← hb] at hl
  have h0 : 0 ≤ s.lastbucket := hb ▸ slot_nonneg hn _ _
  have hlt : s.lastbucket < s.nbuckets := hb ▸ slot_lt hn _ _
  have ho := hs.holds.ordered _ h0 hlt
  rw [hl] at ho
  set last : ℤ := if rest.head?.all fun y => decide (y.time ≠ e.time) then 1 else 0 with hlast
  have hrest : (s.buckets s.lastbucket).list.erase e = rest := by rw [hl, List.erase_cons_head]
  have hlast' : last = if ∃ x ∈ (s.buckets s.lastbucket).list.erase e, x.time = e.time
      then 0 else 1 := by
    rw [hrest, hlast]
    cases hr : rest with
    | nil => simp
    | cons y ys =>
      have hiff : (∃ x ∈ y :: ys, x.time = e.time) ↔ y.time = e.time := by
        rw [hr] at ho
        obtain ⟨hey, hoy⟩ := List.pairwise_cons.mp ho
        constructor
        · rintro ⟨x, hx, hxe⟩
          refine le_antisymm ?_ (hey y (by simp))
          rcases List.mem_cons.mp hx with rfl | hx
          · exact hxe.le
          · exact hxe ▸ List.rel_of_pairwise_cons hoy hx
        · exact fun hy => ⟨y, by simp, hy⟩
      by_cases hy : y.time = e.time
      · rw [if_pos (hiff.mpr hy), if_neg (by simp [hy])]
      · rw [if_neg (mt hiff.mp hy), if_pos (by simp [hy])]
  have hh := hs.holds.erase h0 hlt (by rw [hl]; simp) hlast'
  rw [hrest] at hh
  refine ⟨{ s.setBucket s.lastbucket ⟨rest, (s.buckets s.lastbucket).count - last⟩ with
      statQsize := s.statQsize - last, qsize := s.qsize - 1 }, ?_,
    ⟨hs.width_pos, hs.nbuckets_ge, hs.lastbucket_eq,
      fun x hx => hs.clock_le x (List.mem_of_mem_erase hx), hh⟩,
    ⟨hd.diff0, hd.diff1, hd.diff2⟩, rfl⟩
  rw [unlinkHead, bucketAt_eq h0 hlt]
  simp only [Option.bind_eq_bind, Option.bind_some, hl, ne_eq, not_true_eq_false, if_false]
  rfl

lemma deque_spec (hsqrt : ∀ x, 0 < x → 0 < cfg.sqrt x) {q : StableQueue ℚ} (h : Refines s q) :
    ∃ s', s.deque cfg = some (q.first, s') ∧ Refines s' (q.next .deque) := by
  by_cases hP : q.pending = []
  · have hf := StableQueue.first_eq_none.mpr hP
    have hq : s.qsize = 0 := by rw [h.cursor.holds.size_eq, hP]; rfl
    refine ⟨s, ?_, by rwa [StableQueue.next_deque_of_none hf]⟩
    rw [deque, head, if_pos hq, hf]
    rfl
  obtain ⟨e, cs, s₁, heq₁, hclass, hmin, hs₁, hd₁, hclock₁⟩ := head_spec h hP
  have hfirst : q.first = some e := argmin_of_keyClass _ hclass hmin
  have heP : e ∈ q.pending := List.argmin_mem hfirst
  have he0 : 0 ≤ e.time := h.clock_nonneg.trans (h.calClock_eq ▸ h.cursor.clock_le e heP)
  obtain ⟨s₂, heq₂, hr₂⟩ := adjustWidth_spec hsqrt hs₁ hd₁ (hclock₁ ▸ he0) e
  have hclock₂ : s₂.calClock = e.time := hr₂.calClock_eq.trans hclock₁
  obtain ⟨s₃, heq₃, hr₃⟩ := unlinkHead_spec hr₂.cursor hr₂.thresholds hclock₂ hclass hmin
  have hclock₃ : s₃.calClock = e.time := hr₃.calClock_eq.trans hclock₂
  have heq : s.deque cfg = if s₃.statQsize < s₃.botThreshold then
      (s₃.resize cfg (s₃.nbuckets / 2) s₃.calClock).map fun s => (some e, s)
      else some (some e, s₃) := by
    rw [deque, heq₁]
    simp only [Option.bind_eq_bind, Option.bind_some, heq₂, heq₃]
  rw [heq, hfirst, StableQueue.next_deque_of_first hfirst]
  by_cases hshrink : s₃.statQsize < s₃.botThreshold
  · obtain ⟨s₄, heq₄, hr₄⟩ := resize_spec hsqrt hr₃.cursor hr₃.thresholds (hclock₃ ▸ he0)
      (show 0 < s₃.nbuckets / 2 by have := hr₃.cursor.nbuckets_ge; omega)
    rw [if_pos hshrink, heq₄]
    exact ⟨s₄, rfl, hr₄.cursor, hr₄.thresholds, hr₄.calClock_eq.trans hclock₃, he0⟩
  · rw [if_neg hshrink]
    exact ⟨s₃, rfl, hr₃.cursor, hr₃.thresholds, hclock₃, he0⟩

/-- The assertions of `cancel` hold when the event is queued. -/
lemma cancel_spec {q : StableQueue ℚ} (h : Refines s q) (hv : q.Valid) {e : Event ℚ}
    (he : e ∈ q.pending) :
    ∃ s', s.cancel e = some s' ∧ Refines s' (q.next (.cancel e)) := by
  have hn := h.nbuckets_pos
  have hw := h.cursor.width_pos
  have h0 := slot_nonneg hn s.width e.time
  have hlt := slot_lt hn s.width e.time
  have hclock := h.cursor.clock_le e he
  have he0 : 0 ≤ e.time := h.clock_nonneg.trans (h.calClock_eq ▸ hclock)
  have hmem := (h.cursor.holds.mem_iff e).mpr he
  have huid := not_le.mpr (hv.positive e he)
  set i := slot s.width s.nbuckets e.time with hi
  set b := s.buckets i with hb
  set last : ℤ := if uniqueTime b.list e then 1 else 0 with hlast
  have hlast' : last = if ∃ x ∈ b.list.erase e, x.time = e.time then 0 else 1 := by
    have hu := uniqueTime_iff (h.cursor.holds.ordered i h0 hlt) hmem
    by_cases hex : ∃ x ∈ b.list.erase e, x.time = e.time
    · rw [if_pos hex, hlast, if_neg (fun hu' => hu.mp hu' hex)]
    · rw [if_neg hex, hlast, if_pos (hu.mpr hex)]
  have hh := h.cursor.holds.erase h0 hlt hmem hlast'
  have hcount : b.count - last = distinctTimes (b.list.erase e) := by
    have := hh.counts i h0 hlt
    rwa [Function.update_self] at this
  have hstat := hh.total_nonneg
  have hassert : ¬(last = 1 ∧ (s.statQsize - last < 0 ∨ b.count - last < 0)) := by
    have := distinctTimes_nonneg (b.list.erase e)
    omega
  have hempty : ¬(b.count - last = 0 ∧ b.list.erase e ≠ []) := by
    rintro ⟨hz, hne⟩
    exact hne (distinctTimes_eq_zero.mp (hcount ▸ hz))
  refine ⟨{ s.setBucket i ⟨b.list.erase e, b.count - last⟩ with
      statQsize := s.statQsize - last, qsize := s.qsize - 1 }, ?_,
    ⟨hw, h.cursor.nbuckets_ge, h.cursor.lastbucket_eq,
      fun x hx => h.cursor.clock_le x (List.mem_of_mem_erase hx), hh⟩,
    ⟨h.thresholds.diff0, h.thresholds.diff1, h.thresholds.diff2⟩, h.calClock_eq, h.clock_nonneg⟩
  rw [cancel, if_neg huid, calendarHash_eq hw hn he0, ← hi]
  simp only [bucketAt_eq h0 hlt, Option.bind_some, ← hb, if_pos hmem, ← hlast, if_neg hempty]
  exact if_neg hassert

lemma Refines.step (hsqrt : ∀ x, 0 < x → 0 < cfg.sqrt x) {q : StableQueue ℚ} (h : Refines s q)
    (hv : q.Valid) {op : SchedulerOp ℚ} (ha : Admitted q op) :
    ∃ s', s.step cfg op = some (s', q.out op) ∧ Refines s' (q.next op) := by
  cases op with
  | insert e =>
    obtain ⟨s', heq, hr⟩ := insert_spec hsqrt h (ha.2 e rfl)
    exact ⟨s', by rw [CalendarScheduler.step, heq]; rfl, hr⟩
  | cancel e =>
    obtain ⟨s', heq, hr⟩ := cancel_spec h hv ha.1
    exact ⟨s', by rw [CalendarScheduler.step, heq]; rfl, hr⟩
  | deque =>
    obtain ⟨s', heq, hr⟩ := deque_spec hsqrt h
    exact ⟨s', by rw [CalendarScheduler.step, heq]; rfl, hr⟩

lemma refines_init (cfg : CalendarConfig) : Refines (init cfg 0) ⟨[], 0⟩ := by
  refine ⟨⟨one_pos, le_rfl, ?_, by simp, reinit_holds _ _ _⟩, ⟨rfl, rfl, rfl⟩, rfl, le_rfl⟩
  exact toInt_fmod (by simp) (by norm_num)

/-- Along every run the calendar queue answers what the stable queue answers, whatever positive
widths its resizes choose. The clock starts at `0`, so no event lies before the start. -/
theorem calendar_run_stable (cfg : CalendarConfig) (hsqrt : ∀ x, 0 < x → 0 < cfg.sqrt x)
    (ops : List (SchedulerOp ℚ)) (h : AdmissibleRun Admitted StableQueue.next ⟨[], 0⟩ ops) :
    ∃ s, run (step cfg) (init cfg 0) ops =
      some (s, outputs StableQueue.next StableQueue.out ⟨[], 0⟩ ops) := by
  have hinit : Refines (init cfg 0) ⟨[], 0⟩ ∧ (⟨[], 0⟩ : StableQueue ℚ).Valid :=
    ⟨refines_init cfg, ⟨by simp, by simp⟩⟩
  obtain ⟨s, hs, -⟩ := run_simulates (R := fun s q => Refines s q ∧ q.Valid)
    (fun s q op hR ha => by
      obtain ⟨s', h₁, h₂⟩ := hR.1.step hsqrt hR.2 ha
      exact ⟨s', h₁, h₂, hR.2.next ha.1⟩) ops hinit h
  exact ⟨s, hs⟩

/-- Two events, the later one inserted first. -/
theorem calendar_run_two_events :
    ∃ s, run (step ⟨0, 1, fun _ => 1⟩) (init ⟨0, 1, fun _ => 1⟩ 0)
      [.insert ⟨1, 7⟩, .insert ⟨2, 3⟩, .deque, .cancel ⟨1, 7⟩, .deque] =
        some (s, [none, none, some ⟨2, 3⟩, none, none]) := by
  obtain ⟨s, hs⟩ := calendar_run_stable ⟨0, 1, fun _ => 1⟩ (fun _ _ => one_pos)
    [.insert ⟨1, 7⟩, .insert ⟨2, 3⟩, .deque, .cancel ⟨1, 7⟩, .deque]
    (by simp [AdmissibleRun, Admitted, StableQueue.Admitted, StableQueue.next, StableQueue.first,
      List.argmin_cons]; norm_num)
  refine ⟨s, hs.trans ?_⟩
  simp [outputs, StableQueue.next, StableQueue.out, StableQueue.first, List.argmin_cons]
  norm_num

/-- Before the first `deque` there is no last event returned to bound a time from below: the hash
of a negative time is a negative index. -/
theorem calendar_run_negative_time :
    ¬∀ (cfg : CalendarConfig) (clock : ℚ) (ops : List (SchedulerOp ℚ)),
      (∀ x, 0 < x → 0 < cfg.sqrt x) → AdmissibleRun Admitted StableQueue.next ⟨[], clock⟩ ops →
        ∃ s, run (step cfg) (init cfg 0) ops =
          some (s, outputs StableQueue.next StableQueue.out ⟨[], clock⟩ ops) := by
  intro h
  obtain ⟨s, hs⟩ := h ⟨0, 1, fun _ => 1⟩ (-1) [.insert ⟨1, -1⟩] (fun _ _ => one_pos)
    (by simp [AdmissibleRun, Admitted, StableQueue.Admitted])
  have hceil : ⌈(-1 / 4 : ℚ)⌉ = 0 := by rw [Int.ceil_eq_iff]; norm_num
  have hneg : ¬(0 : ℚ) ≤ -1 / 4 := by norm_num
  have hhash : (init ⟨0, 1, fun _ => 1⟩ 0).calendarHash (-1) = -1 := by
    simp [calendarHash, init, reinit, fmod, toInt, hneg, hceil]
    norm_num
  simp [run, step, insert, hhash, bucketAt] at hs

end CalendarScheduler

end NetworkSimulator
