import Mathlib.Algebra.Order.BigOperators.Group.Finset
import Mathlib.Data.List.TakeWhile
import Mathlib.Tactic.Linarith
import NetworkSimulator.Scheduler.Calendar

/-!
# The buckets of the calendar queue

`Holds` says that the buckets hold the pending events, each in the bucket of its time, ordered,
equal times in the order of insertion, and that the counters count distinct times and events. The
list work of `insert`, `insert2`, `deque` and `cancel` keeps it.
-/

namespace NetworkSimulator
open Library

/-- The bucket of a time that is not negative. -/
def slot (w : ℚ) (n : ℤ) (t : ℚ) : ℤ := ⌊t / w⌋ % n

lemma toInt_of_nonneg {x : ℚ} (h : 0 ≤ x) : toInt x = ⌊x⌋ := if_pos h

lemma toInt_fmod {x : ℚ} (hx : 0 ≤ x) {n : ℤ} (hn : 0 < n) : toInt (fmod x n) = ⌊x⌋ % n := by
  have hn' : (0 : ℚ) < n := by exact_mod_cast hn
  have hq : toInt (x / n) = ⌊x⌋ / n := by
    rw [toInt_of_nonneg (div_nonneg hx hn'.le), ← Int.mul_cast_floor_div_cancel_of_pos hn,
      div_mul_cancel₀ x hn'.ne']
  have hf : fmod x n = x - ((⌊x⌋ / n * n : ℤ) : ℚ) := by rw [fmod, hq]; push_cast; rfl
  have hfloor : ⌊fmod x n⌋ = ⌊x⌋ % n := by
    rw [hf, Int.floor_sub_intCast, Int.emod_def, mul_comm]
  rw [toInt_of_nonneg, hfloor]
  rw [← Int.floor_nonneg, hfloor]
  exact Int.emod_nonneg _ hn.ne'

lemma slot_nonneg {n : ℤ} (hn : 0 < n) (w t : ℚ) : 0 ≤ slot w n t := Int.emod_nonneg _ hn.ne'

lemma slot_lt {n : ℤ} (hn : 0 < n) (w t : ℚ) : slot w n t < n := Int.emod_lt_of_pos _ hn

/-- The number of distinct times in a list of events: `count_` of a bucket. -/
def distinctTimes (l : List (Event ℚ)) : ℤ := (l.map Event.time).toFinset.card

lemma distinctTimes_nonneg (l : List (Event ℚ)) : 0 ≤ distinctTimes l := by
  rw [distinctTimes]; omega

lemma distinctTimes_eq_zero {l : List (Event ℚ)} : distinctTimes l = 0 ↔ l = [] := by
  simp [distinctTimes]

lemma distinctTimes_perm {l m : List (Event ℚ)} (h : l.Perm m) :
    distinctTimes l = distinctTimes m := by
  rw [distinctTimes, distinctTimes, List.toFinset_eq_of_perm _ _ (h.map _)]

lemma distinctTimes_cons {e : Event ℚ} {l : List (Event ℚ)} :
    distinctTimes (e :: l) =
      distinctTimes l + if ∃ x ∈ l, x.time = e.time then 0 else 1 := by
  rw [distinctTimes, distinctTimes, List.map_cons, List.toFinset_cons]
  by_cases h : ∃ x ∈ l, x.time = e.time
  · rw [if_pos h, Finset.insert_eq_of_mem (by simpa using h), add_zero]
  · rw [if_neg h, Finset.card_insert_of_notMem (by simpa using h)]
    push_cast; rfl

lemma distinctTimes_insertLast (e : Event ℚ) (l : List (Event ℚ)) :
    distinctTimes (insertLast Event.time e l) =
      distinctTimes l + if ∃ x ∈ l, x.time = e.time then 0 else 1 := by
  rw [distinctTimes_perm (insertLast_perm _ e l), distinctTimes_cons]

lemma distinctTimes_insertFirst (e : Event ℚ) (l : List (Event ℚ)) :
    distinctTimes (insertFirst Event.time e l) =
      distinctTimes l + if ∃ x ∈ l, x.time = e.time then 0 else 1 := by
  rw [distinctTimes_perm (insertFirst_perm _ e l), distinctTimes_cons]

lemma distinctTimes_erase {e : Event ℚ} {l : List (Event ℚ)} (he : e ∈ l) :
    distinctTimes l =
      distinctTimes (l.erase e) + if ∃ x ∈ l.erase e, x.time = e.time then 0 else 1 := by
  rw [distinctTimes_perm (List.perm_cons_erase he), distinctTimes_cons]

lemma eq_of_distinctTimes_gt {l : List (Event ℚ)} (h : 1 < distinctTimes l) :
    ∃ x ∈ l, ∃ y ∈ l, x.time ≠ y.time := by
  have hc : 1 < (l.map Event.time).toFinset.card := by rw [distinctTimes] at h; omega
  obtain ⟨a, ha, b, hb, hab⟩ := Finset.one_lt_card.mp hc
  obtain ⟨x, hx, rfl⟩ := List.mem_map.mp (List.mem_toFinset.mp ha)
  obtain ⟨y, hy, rfl⟩ := List.mem_map.mp (List.mem_toFinset.mp hb)
  exact ⟨x, hx, y, hy, hab⟩

namespace CalendarScheduler

/-- The backward walk of `insert` puts the event after all that are not later. -/
lemma placeLast_spec {b : Bucket} (e : Event ℚ) (ho : Ordered Event.time b.list)
    (hc : b.count = distinctTimes b.list) :
    ∃ b' steps, placeLast b e = some (b', b'.count - b.count, steps) ∧
      b'.list = insertLast Event.time e b.list ∧ b'.count = distinctTimes b'.list := by
  unfold placeLast
  cases hl : b.list with
  | nil =>
    refine ⟨⟨[e], b.count + 1⟩, 0, by simp, rfl, ?_⟩
    rw [hc, hl]
    simp [distinctTimes]
  | cons head tail =>
    rw [hl] at ho
    by_cases hlt : e.time < head.time
    · have hne : ¬∃ x ∈ head :: tail, x.time = e.time := by
        rintro ⟨x, hx, hxe⟩
        rcases List.mem_cons.mp hx with rfl | hx
        · exact absurd hxe hlt.ne'
        · have := List.rel_of_pairwise_cons ho hx
          exact absurd hxe (hlt.trans_le this).ne'
      have hi : insertLast Event.time e (head :: tail) = e :: head :: tail := by
        rw [insertLast, if_pos hlt]
      refine ⟨⟨e :: head :: tail, b.count + 1⟩, 1, by simp [hlt], hi.symm, ?_⟩
      have hd := distinctTimes_insertLast e (head :: tail)
      rw [if_neg hne, hi] at hd
      rw [hd, hc, hl]
    · set p : Event ℚ → Bool := fun x => decide (e.time < x.time) with hp
      have hsplit : (head :: tail).reverse.takeWhile p ++ (head :: tail).reverse.dropWhile p =
          (head :: tail).reverse := List.takeWhile_append_dropWhile
      have hne : (head :: tail).reverse.dropWhile p ≠ [] := by
        rw [ne_eq, List.dropWhile_eq_nil_iff]
        intro hall
        have := hall head (by simp)
        simp only [hp, decide_eq_true_eq] at this
        exact hlt this
      obtain ⟨after, before, hd⟩ := List.exists_cons_of_ne_nil hne
      rw [hd] at hsplit
      have hlist : head :: tail = (before.reverse ++ [after]) ++
          ((head :: tail).reverse.takeWhile p).reverse := by
        have := congrArg List.reverse hsplit
        simpa using this.symm
      have hafter : ¬e.time < after.time := by
        have := List.head?_dropWhile_not p (head :: tail).reverse
        rw [hd] at this
        simpa [hp] using this
      set passed := ((head :: tail).reverse.takeWhile p) with hpassed
      have hle : ∀ x ∈ before.reverse ++ [after], x.time ≤ after.time := by
        intro x hx
        rw [hlist] at ho
        have ho' := (List.pairwise_append.mp (List.pairwise_append.mp ho).1).2.2
        rcases List.mem_append.mp hx with hx | hx
        · exact ho' x hx after (by simp)
        · exact (List.mem_singleton.mp hx) ▸ le_rfl
      have hgt : ∀ x ∈ passed.reverse, e.time < x.time := by
        intro x hx
        have := List.mem_takeWhile_imp (List.mem_reverse.mp hx)
        simpa [hp] using this
      have hi : insertLast Event.time e (head :: tail) =
          before.reverse ++ after :: e :: passed.reverse := by
        conv_lhs => rw [hlist]
        rw [insertLast_append _ (fun x hx => (hle x hx).trans (not_lt.mp hafter)) hgt]
        simp
      have hex : (∃ x ∈ head :: tail, x.time = e.time) ↔ ¬after.time < e.time := by
        constructor
        · rintro ⟨x, hx, hxe⟩ hlt'
          rw [hlist] at hx
          rcases List.mem_append.mp hx with hx | hx
          · exact absurd hxe ((hle x hx).trans_lt hlt').ne
          · exact absurd hxe (hgt x hx).ne'
        · intro hnlt
          exact ⟨after, by rw [hlist]; simp, le_antisymm (not_lt.mp hafter) (not_lt.mp hnlt)⟩
      have hdist := distinctTimes_insertLast e (head :: tail)
      rw [hi] at hdist
      simp only [hlt, if_false, hd]
      by_cases hu : after.time < e.time
      · refine ⟨⟨before.reverse ++ after :: e :: passed.reverse, b.count + 1⟩, 1 + passed.length,
          by simp [hu, hp, hpassed], hi.symm, ?_⟩
        rw [if_neg (fun h => hex.mp h hu)] at hdist
        rw [hdist, hc, hl]
      · refine ⟨⟨before.reverse ++ after :: e :: passed.reverse, b.count⟩, 1 + passed.length,
          by simp [hu, hp, hpassed], hi.symm, ?_⟩
        rw [if_pos (hex.mpr hu), add_zero] at hdist
        rw [hdist, hc, hl]

/-- The forward walk of `insert2` puts the event before all that are not earlier. -/
lemma placeFirst_spec {b : Bucket} (e : Event ℚ) (ho : Ordered Event.time b.list)
    (hc : b.count = distinctTimes b.list) :
    ∃ b', placeFirst b e = some (b', b'.count - b.count) ∧
      b'.list = insertFirst Event.time e b.list ∧ b'.count = distinctTimes b'.list := by
  unfold placeFirst
  cases hl : b.list with
  | nil =>
    refine ⟨⟨[e], b.count + 1⟩, by simp, rfl, ?_⟩
    rw [hc, hl]
    simp [distinctTimes]
  | cons head tl =>
    rw [hl] at ho
    obtain ⟨tail, htail⟩ : ∃ tail, (head :: tl).getLast? = some tail :=
      ⟨_, List.getLast?_eq_getLast_of_ne_nil (List.cons_ne_nil head tl)⟩
    have htm : tail ∈ head :: tl := List.mem_of_getLast? htail
    have hle : ∀ x ∈ head :: tl, x.time ≤ tail.time := by
      intro x hx
      obtain ⟨ys, hys⟩ := List.getLast?_eq_some_iff.mp htail
      rw [hys] at ho hx
      rcases List.mem_append.mp hx with hx | hx
      · exact (List.pairwise_append.mp ho).2.2 x hx tail (by simp)
      · exact (List.mem_singleton.mp hx) ▸ le_rfl
    set p : Event ℚ → Bool := fun x => decide (x.time < e.time) with hp
    set passed := if tail.time < e.time then head :: tl else (head :: tl).takeWhile p with hpassed
    set rest := if tail.time < e.time then [] else (head :: tl).dropWhile p with hrest
    have hsplit : passed ++ rest = head :: tl := by
      by_cases ht : tail.time < e.time
      · rw [hpassed, hrest, if_pos ht, if_pos ht, List.append_nil]
      · rw [hpassed, hrest, if_neg ht, if_neg ht, List.takeWhile_append_dropWhile]
    have hlt : ∀ x ∈ passed, x.time < e.time := by
      intro x hx
      by_cases ht : tail.time < e.time
      · rw [hpassed, if_pos ht] at hx
        exact (hle x hx).trans_lt ht
      · rw [hpassed, if_neg ht] at hx
        simpa [hp] using List.mem_takeWhile_imp hx
    have hge : ∀ x ∈ rest.head?, e.time ≤ x.time := by
      intro x hx
      by_cases ht : tail.time < e.time
      · rw [hrest, if_pos ht] at hx
        simp at hx
      · rw [hrest, if_neg ht, Option.mem_def] at hx
        have := List.head?_dropWhile_not p (head :: tl)
        rw [hx] at this
        simpa [hp] using this
    have hi : insertFirst Event.time e (head :: tl) = passed ++ e :: rest := by
      rw [← hsplit, insertFirst_append _ hlt hge]
    have hex : (∃ x ∈ head :: tl, x.time = e.time) ↔ (rest.headD head).time = e.time := by
      cases hr : rest with
      | nil =>
        have hall : ∀ x ∈ head :: tl, x.time < e.time := by
          rw [hr, List.append_nil] at hsplit
          exact hsplit ▸ hlt
        constructor
        · rintro ⟨x, hx, hxe⟩
          exact absurd hxe (hall x hx).ne
        · intro h
          exact absurd h (hall head (by simp)).ne
      | cons r rs =>
        have hr' : e.time ≤ r.time := hge r (by simp [hr])
        have hmem : r ∈ head :: tl := by rw [← hsplit, hr]; simp
        constructor
        · rintro ⟨x, hx, hxe⟩
          rw [← hsplit, hr] at hx ho
          rcases List.mem_append.mp hx with hx | hx
          · exact absurd hxe (hlt x hx).ne
          · have hrx : r.time ≤ x.time := by
              rcases List.mem_cons.mp hx with rfl | hx
              · exact le_rfl
              · exact List.rel_of_pairwise_cons (List.pairwise_append.mp ho).2.1 hx
            exact le_antisymm (hxe ▸ hrx) hr'
        · intro h
          exact ⟨r, hmem, h⟩
    have hdist := distinctTimes_insertFirst e (head :: tl)
    rw [hi] at hdist
    rw [htail]
    by_cases hu : (rest.headD head).time ≠ e.time
    · refine ⟨⟨passed ++ e :: rest, b.count + 1⟩, ?_, hi.symm, ?_⟩
      · change (if (rest.headD head).time ≠ e.time then
          some ((⟨passed ++ e :: rest, b.count + 1⟩ : Bucket), (1 : ℤ)) else _) = _
        rw [if_pos hu, add_sub_cancel_left]
      · rw [if_neg (fun h => hu (hex.mp h))] at hdist
        rw [hdist, hc, hl]
    · refine ⟨⟨passed ++ e :: rest, b.count⟩, ?_, hi.symm, ?_⟩
      · change (if (rest.headD head).time ≠ e.time then _ else
          some ((⟨passed ++ e :: rest, b.count⟩ : Bucket), (0 : ℤ))) = _
        rw [if_neg hu, sub_self]
      · rw [if_pos (hex.mpr (not_not.mp hu)), add_zero] at hdist
        rw [hdist, hc, hl]

/-- On an ordered list the two neighbours decide whether a time is unique. -/
lemma uniqueTime_iff {l : List (Event ℚ)} {e : Event ℚ} (ho : Ordered Event.time l) (he : e ∈ l) :
    uniqueTime l e = true ↔ ¬∃ x ∈ l.erase e, x.time = e.time := by
  obtain ⟨before, after, hne, rfl, herase⟩ := List.exists_erase_eq he
  have hb : (before ++ e :: after).takeWhile (fun x => decide (x ≠ e)) = before := by
    rw [List.takeWhile_append_of_pos fun x hx => decide_eq_true (show x ≠ e from fun h => hne (h ▸ hx))]
    simp
  have ha : ((before ++ e :: after).dropWhile fun x => decide (x ≠ e)) = e :: after := by
    rw [List.dropWhile_append_of_pos fun x hx => decide_eq_true (show x ≠ e from fun h => hne (h ▸ hx))]
    simp
  obtain ⟨hob, hoa, hcross⟩ := List.pairwise_append.mp ho
  have hbe : ∀ x ∈ before, x.time ≤ e.time := fun x hx => hcross x hx e (by simp)
  have hea : ∀ x ∈ after, e.time ≤ x.time := fun x hx => List.rel_of_pairwise_cons hoa hx
  rw [herase]
  unfold uniqueTime
  simp only [hb, ha, List.tail_cons, Bool.and_eq_true]
  constructor
  · rintro ⟨hnext, hprev⟩ ⟨x, hx, hxe⟩
    have hbefore : ∀ y ∈ before, y.time ≠ e.time := by
      intro y hy hye
      cases hlast : before.getLast? with
      | none =>
        rw [List.getLast?_eq_none_iff] at hlast
        simp [hlast] at hy
      | some z =>
        have hz : z.time ≠ e.time := by simpa [hlast] using hprev
        have hzb := List.mem_of_getLast? hlast
        have hyz : y.time ≤ z.time := by
          obtain ⟨ys, rfl⟩ := List.getLast?_eq_some_iff.mp hlast
          rcases List.mem_append.mp hy with hy | hy
          · exact (List.pairwise_append.mp hob).2.2 y hy z (by simp)
          · exact (List.mem_singleton.mp hy) ▸ le_rfl
        exact hz (le_antisymm (hbe z hzb) (hye ▸ hyz))
    rcases List.mem_append.mp hx with hx | hx
    · exact hbefore x hx hxe
    · cases after with
      | nil => simp at hx
      | cons a as =>
        have hae : a.time ≠ e.time := by simpa using hnext
        have hax : a.time ≤ x.time := by
          rcases List.mem_cons.mp hx with rfl | hx
          · exact le_rfl
          · exact List.rel_of_pairwise_cons (List.pairwise_cons.mp hoa).2 hx
        exact hae (le_antisymm (hxe ▸ hax) (hea a (by simp)))
  · intro h
    have hall : ∀ x ∈ before ++ after, x.time ≠ e.time := fun x hx hxe => h ⟨x, hx, hxe⟩
    constructor
    · cases after with
      | cons a as => simpa using hall a (by simp)
      | nil =>
        cases before with
        | nil => simp
        | cons c cs => simpa using hall c (by simp)
    · cases hlast : before.getLast? with
      | some z =>
        have hz := hall z (List.mem_append_left _ (List.mem_of_getLast? hlast))
        simpa using hz
      | none =>
        cases hla : after.getLast? with
        | none => simp
        | some z =>
          have hz := hall z (List.mem_append_right _ (List.mem_of_getLast? hla))
          simpa using hz

end CalendarScheduler

/-- The buckets hold the events `P`, given in the order of their insertion. -/
structure Holds (w : ℚ) (n : ℤ) (bs : ℤ → Bucket) (stat size : ℤ) (P : List (Event ℚ)) :
    Prop where
  ordered : ∀ i, 0 ≤ i → i < n → Ordered Event.time (bs i).list
  hashed : ∀ i, 0 ≤ i → i < n → ∀ e ∈ (bs i).list, slot w n e.time = i
  classes : ∀ t, keyClass Event.time t (bs (slot w n t)).list = keyClass Event.time t P
  counts : ∀ i, 0 ≤ i → i < n → (bs i).count = distinctTimes (bs i).list
  total : stat = ∑ i ∈ Finset.range n.toNat, (bs i).count
  size_eq : size = P.length

namespace Holds
variable {w : ℚ} {n : ℤ} {bs : ℤ → Bucket} {stat size : ℤ} {P : List (Event ℚ)}

lemma mem_iff (h : Holds w n bs stat size P) (e : Event ℚ) :
    e ∈ (bs (slot w n e.time)).list ↔ e ∈ P := by
  have hm := congrArg (e ∈ ·) (h.classes e.time)
  simpa [mem_keyClass] using hm

lemma mem_of_mem_bucket (h : Holds w n bs stat size P) {i : ℤ} (h0 : 0 ≤ i) (hi : i < n)
    {e : Event ℚ} (he : e ∈ (bs i).list) : e ∈ P := by
  have hs := h.hashed i h0 hi e he
  exact (h.mem_iff e).mp (hs.symm ▸ he)

/-- Only the classes of the pending events matter, not how the classes interleave. -/
lemma congr (h : Holds w n bs stat size P) {Q : List (Event ℚ)}
    (hc : ∀ t, keyClass Event.time t P = keyClass Event.time t Q) : Holds w n bs stat size Q where
  ordered := h.ordered
  hashed := h.hashed
  classes t := (h.classes t).trans (hc t)
  counts := h.counts
  total := h.total
  size_eq := by rw [h.size_eq, (perm_of_keyClass _ hc).length_eq]

lemma total_nonneg (h : Holds w n bs stat size P) : 0 ≤ stat := by
  rw [h.total]
  refine Finset.sum_nonneg fun i hi => ?_
  have hi := Finset.mem_range.mp hi
  rw [h.counts i (by omega) (by omega)]
  exact distinctTimes_nonneg _

lemma total_update {i : ℤ} (h0 : 0 ≤ i) (hi : i < n) (b : Bucket) :
    ∑ j ∈ Finset.range n.toNat, (Function.update bs i b j).count =
      (∑ j ∈ Finset.range n.toNat, (bs j).count) + (b.count - (bs i).count) := by
  have hm : i.toNat ∈ Finset.range n.toNat := Finset.mem_range.mpr (by omega)
  have hc : ((i.toNat : ℕ) : ℤ) = i := by omega
  rw [← Finset.add_sum_erase _ _ hm, ← Finset.add_sum_erase _ (fun j : ℕ => (bs j).count) hm]
  simp only [hc, Function.update_self]
  have he : ∀ j ∈ (Finset.range n.toNat).erase i.toNat,
      (Function.update bs i b j).count = (bs j).count := by
    intro j hj
    have hne : (j : ℤ) ≠ i := by
      intro hji
      exact (Finset.mem_erase.mp hj).1 (by omega)
    rw [Function.update_of_ne hne]
  rw [Finset.sum_congr rfl he]
  ring

/-- Replacing one bucket: the events of the other buckets stay as they are. -/
lemma update (h : Holds w n bs stat size P) {i : ℤ} (h0 : 0 ≤ i) (hi : i < n) {b : Bucket}
    {Q : List (Event ℚ)} (ho : Ordered Event.time b.list)
    (hh : ∀ e ∈ b.list, slot w n e.time = i)
    (hin : ∀ t, slot w n t = i → keyClass Event.time t b.list = keyClass Event.time t Q)
    (hout : ∀ t, slot w n t ≠ i → keyClass Event.time t P = keyClass Event.time t Q)
    (hc : b.count = distinctTimes b.list) :
    Holds w n (Function.update bs i b) (stat + (b.count - (bs i).count)) Q.length Q where
  ordered j hj0 hj := by
    by_cases hji : j = i
    · rw [hji, Function.update_self]; exact ho
    · rw [Function.update_of_ne hji]; exact h.ordered j hj0 hj
  hashed j hj0 hj := by
    by_cases hji : j = i
    · rw [hji, Function.update_self]; exact hh
    · rw [Function.update_of_ne hji]; exact h.hashed j hj0 hj
  classes t := by
    by_cases ht : slot w n t = i
    · rw [ht, Function.update_self]; exact hin t ht
    · rw [Function.update_of_ne ht, h.classes]; exact hout t ht
  counts j hj0 hj := by
    by_cases hji : j = i
    · rw [hji, Function.update_self]; exact hc
    · rw [Function.update_of_ne hji]; exact h.counts j hj0 hj
  total := by rw [total_update h0 hi, h.total]
  size_eq := rfl

open CalendarScheduler

lemma placeLast (h : Holds w n bs stat size P) {i : ℤ} (h0 : 0 ≤ i) (hi : i < n) {e : Event ℚ}
    (he : slot w n e.time = i) :
    ∃ b' steps, CalendarScheduler.placeLast (bs i) e = some (b', b'.count - (bs i).count, steps) ∧
      Holds w n (Function.update bs i b') (stat + (b'.count - (bs i).count)) (size + 1)
        (P ++ [e]) := by
  obtain ⟨b', steps, hp, hl, hc⟩ := placeLast_spec e (h.ordered i h0 hi) (h.counts i h0 hi)
  refine ⟨b', steps, hp, ?_⟩
  have hlen : size + 1 = ((P ++ [e]).length : ℤ) := by rw [h.size_eq, List.length_append]; rfl
  rw [hlen]
  refine h.update h0 hi ?_ ?_ ?_ ?_ hc
  · rw [hl]; exact ordered_insertLast _ (h.ordered i h0 hi)
  · intro x hx
    rw [hl] at hx
    rcases List.mem_cons.mp ((insertLast_perm _ e _).mem_iff.mp hx) with rfl | hx
    · exact he
    · exact h.hashed i h0 hi x hx
  · intro t ht
    have hcl := h.classes t
    rw [ht] at hcl
    rw [hl, keyClass_insertLast _ (h.ordered i h0 hi), keyClass_append, hcl, ← keyClass_append]
  · intro t ht
    have hne : e.time ≠ t := fun h => ht (h ▸ he)
    rw [keyClass_append, keyClass_singleton_of_ne _ hne, List.append_nil]

lemma placeFirst (h : Holds w n bs stat size P) {i : ℤ} (h0 : 0 ≤ i) (hi : i < n) {e : Event ℚ}
    (he : slot w n e.time = i) :
    ∃ b', CalendarScheduler.placeFirst (bs i) e = some (b', b'.count - (bs i).count) ∧
      Holds w n (Function.update bs i b') (stat + (b'.count - (bs i).count)) (size + 1)
        (e :: P) := by
  obtain ⟨b', hp, hl, hc⟩ := placeFirst_spec e (h.ordered i h0 hi) (h.counts i h0 hi)
  refine ⟨b', hp, ?_⟩
  have hlen : size + 1 = ((e :: P).length : ℤ) := by rw [h.size_eq, List.length_cons]; rfl
  rw [hlen]
  refine h.update h0 hi ?_ ?_ ?_ ?_ hc
  · rw [hl]; exact ordered_insertFirst _ (h.ordered i h0 hi)
  · intro x hx
    rw [hl] at hx
    rcases List.mem_cons.mp ((insertFirst_perm _ e _).mem_iff.mp hx) with rfl | hx
    · exact he
    · exact h.hashed i h0 hi x hx
  · intro t ht
    have hcl := h.classes t
    rw [ht] at hcl
    rw [hl, keyClass_insertFirst, ← List.singleton_append, keyClass_append, hcl,
      ← keyClass_append]
    rfl
  · intro t ht
    have hne : e.time ≠ t := fun h => ht (h ▸ he)
    exact (keyClass_cons_of_ne _ hne P).symm

/-- Taking an event out of its bucket. -/
lemma erase (h : Holds w n bs stat size P) {i : ℤ} (h0 : 0 ≤ i) (hi : i < n) {e : Event ℚ}
    (he : e ∈ (bs i).list) {d : ℤ}
    (hd : d = if ∃ x ∈ (bs i).list.erase e, x.time = e.time then 0 else 1) :
    Holds w n (Function.update bs i ⟨(bs i).list.erase e, (bs i).count - d⟩) (stat - d) (size - 1)
      (P.erase e) := by
  have hsl := h.hashed i h0 hi e he
  have hP := h.mem_of_mem_bucket h0 hi he
  have hlen : size - 1 = ((P.erase e).length : ℤ) := by
    have := List.length_pos_of_mem hP
    rw [h.size_eq, List.length_erase_of_mem hP]
    omega
  have hstat : stat - d = stat + ((⟨(bs i).list.erase e, (bs i).count - d⟩ : Bucket).count -
      (bs i).count) := by ring
  rw [hlen, hstat]
  refine h.update h0 hi ((h.ordered i h0 hi).sublist List.erase_sublist)
    (fun x hx => h.hashed i h0 hi x (List.mem_of_mem_erase hx)) ?_ ?_ ?_
  · intro t ht
    have hcl := h.classes t
    rw [ht] at hcl
    rw [keyClass_erase, hcl, ← keyClass_erase]
  · intro t ht
    rw [keyClass_erase, List.erase_of_not_mem]
    intro hm
    exact ht (((mem_keyClass _).mp hm).2 ▸ hsl)
  · rw [h.counts i h0 hi, distinctTimes_erase he, hd]
    ring

end Holds

end NetworkSimulator
