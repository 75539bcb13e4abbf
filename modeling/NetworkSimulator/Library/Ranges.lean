import Mathlib.Data.Set.Card
import Mathlib.Order.Interval.Finset.Basic
import Mathlib.Data.Int.Interval
import Mathlib.Tactic.Common

/-!
# Sets of numbers as lists of ranges

A set is kept as a list of half-open ranges with gaps between them. `absorb` adds a range: what it
touches becomes one range with it. `trim` removes everything below a number.
-/

namespace NetworkSimulator.Library

/-- The numbers `x` with `start ≤ x < stop`. -/
structure Range (ι : Type*) where
  start : ι
  stop : ι
deriving DecidableEq

namespace Range
variable {ι : Type*} [LinearOrder ι] {r n : Range ι} {rs ts : List (Range ι)} {x : ι}

def Contains (r : Range ι) (x : ι) : Prop := r.start ≤ x ∧ x < r.stop

/-- The two ranges overlap or are adjacent. -/
def Touches (n r : Range ι) : Prop := n.start ≤ r.stop ∧ r.start ≤ n.stop

instance (n r : Range ι) : Decidable (n.Touches r) := inferInstanceAs (Decidable (_ ∧ _))

def join (r n : Range ι) : Range ι := ⟨min r.start n.start, max r.stop n.stop⟩

/-- The smallest range around `n` and the ranges of a list. -/
def hull (ts : List (Range ι)) (n : Range ι) : Range ι := ts.foldr join n

@[simp] lemma hull_nil : hull [] n = n := rfl

@[simp] lemma hull_cons : hull (r :: ts) n = r.join (hull ts n) := rfl

/-- Ascending, with something left out between any two ranges. -/
structure Gapped (rs : List (Range ι)) : Prop where
  apart : rs.Pairwise fun r t => r.stop < t.start
  ordered : ∀ r ∈ rs, r.start ≤ r.stop

def covered (rs : List (Range ι)) : Set ι := {x | ∃ r ∈ rs, r.Contains x}

/-- Add the range `n`. -/
def absorb (rs : List (Range ι)) (n : Range ι) : List (Range ι) :=
  rs.filter (fun r => r.stop < n.start) ++
    hull (rs.filter fun r => n.Touches r) n :: rs.filter fun r => n.stop < r.start

/-- Remove the numbers below `x`. -/
def trim (rs : List (Range ι)) (x : ι) : List (Range ι) :=
  (rs.filter fun r => x < r.stop).map fun r => ⟨max r.start x, r.stop⟩

lemma hull_start_le (ts : List (Range ι)) : (hull ts n).start ≤ n.start := by
  induction ts with
  | nil => exact le_rfl
  | cons t ts ih => exact (min_le_right _ _).trans ih

lemma le_hull_stop (ts : List (Range ι)) : n.stop ≤ (hull ts n).stop := by
  induction ts with
  | nil => exact le_rfl
  | cons t ts ih => exact ih.trans (le_max_right _ _)

lemma hull_start_le_of_mem {t : Range ι} (ht : t ∈ ts) : (hull ts n).start ≤ t.start := by
  induction ts with
  | nil => simp at ht
  | cons u ts ih =>
    rcases List.mem_cons.mp ht with rfl | ht
    · exact min_le_left _ _
    · exact (min_le_right _ _).trans (ih ht)

lemma stop_le_hull {t : Range ι} (ht : t ∈ ts) : t.stop ≤ (hull ts n).stop := by
  induction ts with
  | nil => simp at ht
  | cons u ts ih =>
    rcases List.mem_cons.mp ht with rfl | ht
    · exact le_max_left _ _
    · exact (ih ht).trans (le_max_right _ _)

lemma lt_hull_start (hn : x < n.start) (ht : ∀ t ∈ ts, x < t.start) : x < (hull ts n).start := by
  induction ts with
  | nil => exact hn
  | cons t ts ih =>
    exact lt_min (ht t (by simp)) (ih fun u hu => ht u (by simp [hu]))

lemma hull_stop_lt (hn : n.stop < x) (ht : ∀ t ∈ ts, t.stop < x) : (hull ts n).stop < x := by
  induction ts with
  | nil => exact hn
  | cons t ts ih =>
    exact max_lt (ht t (by simp)) (ih fun u hu => ht u (by simp [hu]))

/-- Around ranges that touch `n`, nothing but them and `n` is in the hull. -/
lemma hull_contains (ht : ∀ t ∈ ts, n.Touches t) :
    (hull ts n).Contains x ↔ n.Contains x ∨ x ∈ covered ts := by
  induction ts with
  | nil => simp [covered]
  | cons t ts ih =>
    have htn := ht t (by simp)
    have h₁ := htn.1.trans' (hull_start_le ts)
    have h₂ := htn.2.trans (le_hull_stop ts)
    have hjoin : (t.join (hull ts n)).Contains x ↔ t.Contains x ∨ (hull ts n).Contains x := by
      simp only [join, Contains, min_le_iff, lt_max_iff]
      constructor
      · rintro ⟨hl | hl, hr | hr⟩
        · exact Or.inl ⟨hl, hr⟩
        · rcases lt_or_ge x t.stop with h | h
          · exact Or.inl ⟨hl, h⟩
          · exact Or.inr ⟨h₁.trans h, hr⟩
        · rcases lt_or_ge x (hull ts n).stop with h | h
          · exact Or.inr ⟨hl, h⟩
          · exact Or.inl ⟨h₂.trans h, hr⟩
        · exact Or.inr ⟨hl, hr⟩
      · rintro (h | h)
        · exact ⟨Or.inl h.1, Or.inl h.2⟩
        · exact ⟨Or.inr h.1, Or.inr h.2⟩
    rw [hull_cons, hjoin, ih fun u hu => ht u (by simp [hu])]
    simp only [covered, Set.mem_ofPred_eq, List.mem_cons, exists_eq_or_imp]
    exact or_left_comm

lemma covered_absorb (rs : List (Range ι)) (n : Range ι) :
    covered (absorb rs n) = covered rs ∪ {x | n.Contains x} := by
  ext x
  have htouch : ∀ t ∈ rs.filter fun r => n.Touches r, n.Touches t := fun t ht => by
    simpa using (List.mem_filter.mp ht).2
  have hhull := hull_contains (x := x) htouch
  simp only [covered, absorb, Set.mem_ofPred_eq, Set.mem_union, List.mem_append, List.mem_cons,
    List.mem_filter, decide_eq_true_eq] at hhull ⊢
  constructor
  · rintro ⟨r, ⟨hr, -⟩ | rfl | ⟨hr, -⟩, hx⟩
    · exact Or.inl ⟨r, hr, hx⟩
    · rcases hhull.mp hx with hx | ⟨t, ⟨ht, -⟩, hx⟩
      · exact Or.inr hx
      · exact Or.inl ⟨t, ht, hx⟩
    · exact Or.inl ⟨r, hr, hx⟩
  · rintro (⟨r, hr, hx⟩ | hx)
    · rcases lt_or_ge r.stop n.start with hb | hb
      · exact ⟨r, Or.inl ⟨hr, hb⟩, hx⟩
      · rcases lt_or_ge n.stop r.start with ha | ha
        · exact ⟨r, Or.inr (Or.inr ⟨hr, ha⟩), hx⟩
        · exact ⟨_, Or.inr (Or.inl rfl), hhull.mpr (Or.inr ⟨r, ⟨hr, hb, ha⟩, hx⟩)⟩
    · exact ⟨_, Or.inr (Or.inl rfl), hhull.mpr (Or.inl hx)⟩

namespace Gapped

lemma sublist (h : Gapped rs) (hs : ts.Sublist rs) : Gapped ts :=
  ⟨h.apart.sublist hs, fun r hr => h.ordered r (hs.subset hr)⟩

lemma append_iff : Gapped (ts ++ rs) ↔
    Gapped ts ∧ Gapped rs ∧ ∀ t ∈ ts, ∀ r ∈ rs, t.stop < r.start := by
  constructor
  · intro h
    obtain ⟨h₁, h₂, h₃⟩ := List.pairwise_append.mp h.apart
    exact ⟨⟨h₁, fun r hr => h.ordered r (by simp [hr])⟩,
      ⟨h₂, fun r hr => h.ordered r (by simp [hr])⟩, h₃⟩
  · rintro ⟨h₁, h₂, h₃⟩
    refine ⟨List.pairwise_append.mpr ⟨h₁.apart, h₂.apart, h₃⟩, fun r hr => ?_⟩
    exact (List.mem_append.mp hr).elim (h₁.ordered r) (h₂.ordered r)

lemma cons_iff : Gapped (r :: rs) ↔
    r.start ≤ r.stop ∧ Gapped rs ∧ ∀ t ∈ rs, r.stop < t.start := by
  constructor
  · intro h
    obtain ⟨h₁, h₂⟩ := List.pairwise_cons.mp h.apart
    exact ⟨h.ordered r (by simp), ⟨h₂, fun t ht => h.ordered t (by simp [ht])⟩, h₁⟩
  · rintro ⟨h₁, h₂, h₃⟩
    refine ⟨List.pairwise_cons.mpr ⟨h₃, h₂.apart⟩, fun t ht => ?_⟩
    exact (List.mem_cons.mp ht).elim (fun he => he ▸ h₁) (h₂.ordered t)

lemma insert (h : Gapped (ts ++ rs)) (hn : n.start ≤ n.stop) (hl : ∀ t ∈ ts, t.stop < n.start)
    (hr : ∀ r ∈ rs, n.stop < r.start) : Gapped (ts ++ n :: rs) := by
  obtain ⟨h₁, h₂, h₃⟩ := append_iff.mp h
  refine append_iff.mpr ⟨h₁, cons_iff.mpr ⟨hn, h₂, hr⟩, fun t ht r hmem => ?_⟩
  rcases List.mem_cons.mp hmem with rfl | hmem
  · exact hl t ht
  · exact h₃ t ht r hmem

lemma eq_or_apart (h : Gapped rs) {t : Range ι} (hr : r ∈ rs) (ht : t ∈ rs) :
    r = t ∨ r.stop < t.start ∨ t.stop < r.start := by
  induction rs with
  | nil => simp at hr
  | cons u rs ih =>
    obtain ⟨-, hrs, hu⟩ := cons_iff.mp h
    rcases List.mem_cons.mp hr with rfl | hr' <;> rcases List.mem_cons.mp ht with rfl | ht'
    · exact Or.inl rfl
    · exact Or.inr (Or.inl (hu t ht'))
    · exact Or.inr (Or.inr (hu r hr'))
    · exact ih hrs hr' ht'

/-- A range below another stands before it. -/
lemma lt_of_start_lt (h : Gapped rs) {t : Range ι} (hr : r ∈ rs) (ht : t ∈ rs)
    (hlt : r.start < t.start) : r.stop < t.start := by
  rcases h.eq_or_apart hr ht with rfl | hs | hs
  · exact absurd hlt (lt_irrefl _)
  · exact hs
  · exact absurd (hlt.trans_le (h.ordered t ht)) (lt_asymm hs)

theorem absorb (h : Gapped rs) (hn : n.start ≤ n.stop) : Gapped (absorb rs n) := by
  have hsub := h.sublist (List.filter_sublist (p := fun r => decide (r.stop < n.start)))
  have hsup := h.sublist (List.filter_sublist (p := fun r => decide (n.stop < r.start)))
  have hle := (hull_start_le (n := n) (rs.filter fun r => n.Touches r)).trans
    (hn.trans (le_hull_stop (rs.filter fun r => n.Touches r)))
  refine append_iff.mpr ⟨hsub, cons_iff.mpr ⟨hle, hsup, fun r hr => ?_⟩, fun b hb r hr => ?_⟩
  · obtain ⟨hr, hlt⟩ := List.mem_filter.mp hr
    refine hull_stop_lt (by simpa using hlt) fun t ht => ?_
    obtain ⟨ht, htn⟩ := List.mem_filter.mp ht
    have hts : t.start ≤ n.stop := (of_decide_eq_true htn).2
    exact h.lt_of_start_lt ht hr (hts.trans_lt (by simpa using hlt))
  · obtain ⟨hb, hlt⟩ := List.mem_filter.mp hb
    have hbn : b.stop < n.start := by simpa using hlt
    rcases List.mem_cons.mp hr with rfl | hr
    · refine lt_hull_start hbn fun t ht => ?_
      obtain ⟨ht, htn⟩ := List.mem_filter.mp ht
      have hts : n.start ≤ t.stop := (of_decide_eq_true htn).1
      rcases h.eq_or_apart hb ht with rfl | hs | hs
      · exact absurd hbn hts.not_gt
      · exact hs
      · exact absurd (hs.trans_le (h.ordered b hb)) (hbn.trans_le hts).not_gt
    · obtain ⟨-, hgt⟩ := List.mem_filter.mp hr
      have hnr : n.stop < r.start := by simpa using hgt
      exact hbn.trans (hn.trans_lt hnr)

theorem trim (h : Gapped rs) (x : ι) : Gapped (trim rs x) := by
  have hs := h.sublist (List.filter_sublist (p := fun r => decide (x < r.stop)))
  refine ⟨List.pairwise_map.mpr ?_, ?_⟩
  · exact hs.apart.imp fun hlt => hlt.trans_le (le_max_left _ _)
  · rintro r hr
    obtain ⟨t, ht, rfl⟩ := List.mem_map.mp hr
    obtain ⟨ht, hx⟩ := List.mem_filter.mp ht
    exact max_le (h.ordered t ht) (le_of_lt (by simpa using hx))

end Gapped

lemma covered_trim (rs : List (Range ι)) (x : ι) : covered (trim rs x) = covered rs \ Set.Iio x := by
  ext y
  simp only [covered, trim, Contains, Set.mem_ofPred_eq, Set.mem_sdiff, Set.mem_Iio, not_lt,
    List.mem_map, List.mem_filter, decide_eq_true_eq]
  constructor
  · rintro ⟨-, ⟨t, ⟨ht, -⟩, rfl⟩, hy⟩
    exact ⟨⟨t, ht, (le_max_left _ _).trans hy.1, hy.2⟩, (le_max_right _ _).trans hy.1⟩
  · rintro ⟨⟨t, ht, hy⟩, hx⟩
    exact ⟨_, ⟨t, ⟨ht, hx.trans_lt hy.2⟩, rfl⟩, max_le hy.1 hx, hy.2⟩

/-- When a list is cut by the position relative to `n`, the three pieces are what `absorb` picks. -/
lemma pieces_of_split {β : Type*} (f : β → Range ι) {l m r : List β}
    (hl : ∀ b ∈ l, (f b).stop < n.start) (hm : ∀ b ∈ m, n.Touches (f b))
    (hr : ∀ b ∈ r, n.stop < (f b).start) (hn : n.start ≤ n.stop)
    (ho : ∀ b ∈ l ++ m ++ r, (f b).start ≤ (f b).stop) :
    (l ++ m ++ r).filter (fun b => (f b).stop < n.start) = l ∧
      (l ++ m ++ r).filter (fun b => n.Touches (f b)) = m ∧
      (l ++ m ++ r).filter (fun b => n.stop < (f b).start) = r := by
  have hl' : ∀ b ∈ l, (f b).start ≤ n.stop := fun b h =>
    ((ho b (by simp [h])).trans (hl b h).le).trans hn
  have hr' : ∀ b ∈ r, n.start ≤ (f b).stop := fun b h =>
    hn.trans ((hr b h).le.trans (ho b (by simp [h])))
  refine ⟨?_, ?_, ?_⟩
  · rw [List.filter_append, List.filter_append, List.filter_eq_self.mpr fun b h => by simp [hl b h],
      List.filter_eq_nil_iff.mpr fun b h => by simpa using (hm b h).1,
      List.filter_eq_nil_iff.mpr fun b h => by simpa using hr' b h]
    simp
  · rw [List.filter_append, List.filter_append,
      List.filter_eq_nil_iff.mpr fun b h => ?_,
      List.filter_eq_self.mpr fun b h => by simp [hm b h],
      List.filter_eq_nil_iff.mpr fun b h => ?_]
    · simp
    · rw [decide_eq_true_iff]
      exact fun ht => ht.2.not_gt (hr b h)
    · rw [decide_eq_true_iff]
      exact fun ht => ht.1.not_gt (hl b h)
  · rw [List.filter_append, List.filter_append,
      List.filter_eq_nil_iff.mpr fun b h => by simpa using hl' b h,
      List.filter_eq_nil_iff.mpr fun b h => by simpa using (hm b h).2,
      List.filter_eq_self.mpr fun b h => by simp [hr b h]]
    simp

/-- How many numbers there are in the ranges, when none is counted twice. -/
def size (rs : List (Range ℤ)) : ℤ := (rs.map fun r => r.stop - r.start).sum

@[simp] lemma size_nil : size [] = 0 := rfl

@[simp] lemma size_cons (r : Range ℤ) (rs : List (Range ℤ)) :
    size (r :: rs) = r.stop - r.start + size rs := rfl

@[simp] lemma size_append (rs ts : List (Range ℤ)) : size (rs ++ ts) = size rs + size ts := by
  simp [size]

lemma covered_finite (rs : List (Range ℤ)) : (covered rs).Finite := by
  induction rs with
  | nil => simp [covered]
  | cons r rs ih =>
    have hcons : covered (r :: rs) = Set.Ico r.start r.stop ∪ covered rs := by
      ext x
      simp [covered, Contains]
    rw [hcons]
    exact (Set.finite_Ico _ _).union ih

theorem size_eq_ncard {rs : List (Range ℤ)} (h : Gapped rs) :
    size rs = ((covered rs).ncard : ℤ) := by
  induction rs with
  | nil => simp [covered]
  | cons r rs ih =>
    obtain ⟨hr, hrs, hlt⟩ := Gapped.cons_iff.mp h
    have hcons : covered (r :: rs) = Set.Ico r.start r.stop ∪ covered rs := by
      ext x
      simp [covered, Contains]
    have hdisj : Disjoint (Set.Ico r.start r.stop) (covered rs) := by
      refine Set.disjoint_left.mpr fun x hx => ?_
      rintro ⟨t, ht, htx⟩
      exact absurd (hx.2.trans (hlt t ht)) htx.1.not_gt
    rw [hcons, Set.ncard_union_eq hdisj (Set.finite_Ico _ _) (covered_finite rs), size_cons, ih hrs,
      ← Finset.coe_Ico, Set.ncard_coe_finset, Int.card_Ico, Nat.cast_add,
      Int.toNat_of_nonneg (by omega)]

end Range

end NetworkSimulator.Library
