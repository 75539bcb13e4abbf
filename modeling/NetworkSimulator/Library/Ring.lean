import Mathlib.Data.List.Basic
import Mathlib.Data.Nat.Init
import Mathlib.Logic.Function.Basic
import Mathlib.Order.Basic

/-!
# Rings of slots

The first `n` slots of an array, walked around from a start. A ring holds a list when the slots from the start on
have its members and the other slots are free; taking the first member away and putting one in front, behind or
in between are the operations on the list.
-/

namespace NetworkSimulator.Library

variable {α : Type*} {slots : ℕ → Option α} {n t i j k : ℕ} {l : List α} {x : α}

namespace Ring

def next (n i : ℕ) : ℕ := (i + 1) % n

def prev (n i : ℕ) : ℕ := if i = 0 then n - 1 else i - 1

/-- The `k`-th slot from `t` on. -/
def place (n t k : ℕ) : ℕ := (t + k) % n

lemma next_lt (hn : 0 < n) (i : ℕ) : next n i < n :=
  Nat.mod_lt _ hn

lemma prev_lt (hi : i < n) : prev n i < n := by
  unfold prev
  split_ifs <;> omega

lemma place_lt (hn : 0 < n) : place n t k < n :=
  Nat.mod_lt _ hn

lemma next_eq (hi : i < n) : next n i = if i + 1 = n then 0 else i + 1 := by
  unfold next
  split_ifs with h
  · rw [h, Nat.mod_self]
  · exact Nat.mod_eq_of_lt (by omega)

lemma next_prev (hi : i < n) : next n (prev n i) = i := by
  rw [next_eq (prev_lt hi)]
  unfold prev
  split_ifs <;> omega

lemma prev_next (hi : i < n) : prev n (next n i) = i := by
  rw [next_eq hi]
  split_ifs with h
  · exact (if_pos rfl).trans (by omega)
  · exact (if_neg i.succ_ne_zero).trans (Nat.add_sub_cancel i 1)

lemma place_eq (ht : t < n) (hk : k < n) : place n t k = if t + k < n then t + k else t + k - n := by
  unfold place
  split_ifs with h
  · exact Nat.mod_eq_of_lt h
  · rw [Nat.mod_eq_sub_mod (Nat.le_of_not_lt h), Nat.mod_eq_of_lt (by omega)]

lemma place_zero (ht : t < n) : place n t 0 = t :=
  Nat.mod_eq_of_lt ht

lemma place_full (ht : t < n) : place n t n = t := by
  rw [place, Nat.add_mod_right, Nat.mod_eq_of_lt ht]

lemma place_inj (ht : t < n) (hk : k < n) (hj : j < n) : place n t k = place n t j ↔ k = j := by
  rw [place_eq ht hk, place_eq ht hj]
  split_ifs <;> omega

lemma place_eq_start (ht : t < n) (hk : k ≤ n) : place n t k = t ↔ k = 0 ∨ k = n := by
  rcases Nat.lt_or_eq_of_le hk with hlt | rfl
  · rw [place_eq ht hlt]
    split_ifs <;> omega
  · exact ⟨fun _ => Or.inr rfl, fun _ => place_full ht⟩

lemma next_place : next n (place n t k) = place n t (k + 1) := by
  rw [next, place, place, Nat.mod_add_mod, Nat.add_assoc]

lemma place_next : place n (next n t) k = place n t (k + 1) := by
  rw [next, place, place, Nat.mod_add_mod, Nat.add_right_comm, Nat.add_assoc]

lemma place_prev (ht : t < n) : place n (prev n t) (k + 1) = place n t k := by
  rw [← place_next, next_prev ht]

lemma prev_place (ht : t < n) : prev n (place n t k) = place n (prev n t) k := by
  rw [← place_prev ht, ← next_place, prev_next (place_lt (Nat.zero_lt_of_lt ht))]

/-- What stands in the `k`-th slot, once the `j`-th one has been written. -/
lemma update_place (ht : t < n) (hk : k < n) (hj : j < n) (v : Option α) :
    Function.update slots (place n t j) v (place n t k) = if k = j then v else slots (place n t k) := by
  simp only [Function.update_apply, place_inj ht hk hj]

lemma update_outside (hn : 0 < n) (h : ∀ i, n ≤ i → slots i = none) (v : Option α) (hi : n ≤ i) :
    Function.update slots (place n t j) v i = none := by
  have hne : i ≠ place n t j := by
    have := place_lt (t := t) (k := j) hn
    omega
  rw [Function.update_of_ne hne, h i hi]

/-- The ring holds the list `l`, and nothing else. -/
structure Holds (slots : ℕ → Option α) (n t : ℕ) (l : List α) : Prop where
  start_lt : t < n
  length_le : l.length ≤ n
  slot : ∀ k < n, slots (place n t k) = l[k]?
  outside : ∀ i, n ≤ i → slots i = none

lemma holds_nil (ht : t < n) : Holds (fun _ => (none : Option α)) n t [] :=
  ⟨ht, Nat.zero_le n, fun _ _ => rfl, fun _ _ => rfl⟩

lemma Holds.pos (h : Holds slots n t l) : 0 < n :=
  Nat.zero_lt_of_lt h.start_lt

lemma Holds.first (h : Holds slots n t l) : slots t = l.head? := by
  have hslot := h.slot 0 h.pos
  rwa [place_zero h.start_lt, ← List.head?_eq_getElem?] at hslot

/-- The `j`-th slot is written, so that the ring holds `l'` from `t'` on. -/
lemma Holds.write (h : Holds slots n t l) (l' : List α) {t' : ℕ} {v : Option α} (ht : t' < n) (hj : j < n)
    (hle : l'.length ≤ n) (hv : l'[j]? = v) (hsame : ∀ k < n, k ≠ j → slots (place n t' k) = l'[k]?) :
    Holds (Function.update slots (place n t' j) v) n t' l' := by
  refine ⟨ht, hle, fun k hk => ?_, fun i hi => update_outside h.pos h.outside v hi⟩
  rw [update_place ht hk hj]
  split_ifs with hkj
  · rw [hkj, hv]
  · exact hsame k hk hkj

lemma Holds.snoc (h : Holds slots n t l) (hroom : l.length < n) (x : α) :
    Holds (Function.update slots (place n t l.length) (some x)) n t (l ++ [x]) := by
  refine h.write (l ++ [x]) h.start_lt hroom ?_ (by simp) fun k hk hne => ?_
  · rw [List.length_append]
    exact hroom
  · rw [h.slot k hk]
    rcases Nat.lt_or_ge k l.length with hlt | hge
    · rw [List.getElem?_append_left hlt]
    · rw [List.getElem?_eq_none hge, List.getElem?_eq_none]
      rw [List.length_append, List.length_singleton]
      omega

/-- The ring seen from the slot in front of its start, which is free. -/
lemma Holds.front (h : Holds slots n t l) (hroom : l.length < n) (hk : k < n) :
    slots (place n (prev n t) k) = if k = 0 then none else l[k - 1]? := by
  cases k with
  | zero =>
    have hlast : place n (prev n t) 0 = place n t (n - 1) := by
      have hn : place n (prev n t) (n - 1 + 1) = place n t (n - 1) := place_prev h.start_lt
      rw [← hn, Nat.sub_add_cancel hk, place_full (prev_lt h.start_lt), place_zero (prev_lt h.start_lt)]
    rw [hlast, h.slot _ (by omega), if_pos rfl, List.getElem?_eq_none (by omega)]
  | succ k => rw [place_prev h.start_lt, h.slot k (by omega), if_neg k.succ_ne_zero, Nat.add_sub_cancel]

lemma Holds.cons (h : Holds slots n t l) (hroom : l.length < n) (x : α) :
    Holds (Function.update slots (prev n t) (some x)) n (prev n t) (x :: l) := by
  have hwrite := h.write (x :: l) (prev_lt h.start_lt) h.pos hroom rfl fun k hk hne => by
    obtain ⟨k, rfl⟩ := Nat.exists_eq_succ_of_ne_zero hne
    rw [h.front hroom hk, if_neg hne]
    rfl
  rwa [place_zero (prev_lt h.start_lt)] at hwrite

lemma Holds.drop_first (h : Holds slots n t (x :: l)) :
    Holds (Function.update slots t none) n (next n t) l := by
  have hle : l.length + 1 ≤ n := h.length_le
  have hplace : place n (next n t) (n - 1) = t := by
    rw [place_next, Nat.sub_add_cancel h.pos, place_full h.start_lt]
  have hwrite := h.write l (j := n - 1) (next_lt h.pos t) (by omega)
    (by omega) (List.getElem?_eq_none (by omega)) fun k hk hne => by
      rw [place_next, h.slot (k + 1) (by omega)]
      rfl
  rwa [hplace] at hwrite

lemma Holds.modify (h : Holds slots n t l) (hk : k < l.length) (x : α) :
    Holds (Function.update slots (place n t k) (some x)) n t (l.set k x) := by
  refine h.write (l.set k x) h.start_lt (Nat.lt_of_lt_of_le hk h.length_le) ?_ (by simp [hk]) fun j hj hne => ?_
  · rw [List.length_set]
    exact h.length_le
  · rw [h.slot j hj, List.getElem?_set_ne hne.symm]

/-- The slots from `j` up to `i`, each moved one slot to the front. -/
def shift (n i : ℕ) : ℕ → ℕ → (ℕ → Option α) → (ℕ → Option α)
  | 0, _, slots => slots
  | fuel + 1, j, slots =>
    if j = i then slots else shift n i fuel (next n j) (Function.update slots (prev n j) (slots j))

/-- What the slots hold from the one in front of the start on, when the first `j` members have moved. -/
lemma shift_spec (fuel : ℕ) (hslots : ∀ i, n ≤ i → slots i = none) (ht : t < n) (hroom : l.length < n)
    (hjk : j ≤ k) (hk : k < l.length) (hfuel : k < j + fuel)
    (hmoved : ∀ m < j, slots (place n (prev n t) m) = l[m]?)
    (hrest : ∀ m < n, j < m → slots (place n (prev n t) m) = l[m - 1]?) :
    (∀ i, n ≤ i → shift n (place n t k) fuel (place n t j) slots i = none) ∧
      (∀ m < k, shift n (place n t k) fuel (place n t j) slots (place n (prev n t) m) = l[m]?) ∧
      ∀ m < n, k < m → shift n (place n t k) fuel (place n t j) slots (place n (prev n t) m) = l[m - 1]? := by
  induction fuel generalizing j slots with
  | zero => omega
  | succ fuel ih =>
    unfold shift
    by_cases hjk' : j = k
    · subst hjk'
      rw [if_pos rfl]
      exact ⟨hslots, hmoved, hrest⟩
    · have hmem : slots (place n t j) = l[j]? := by
        rw [← place_prev ht]
        exact hrest (j + 1) (by omega) j.lt_succ_self
      rw [if_neg fun heq => hjk' ((place_inj ht (by omega) (by omega)).mp heq), next_place, prev_place ht, hmem]
      refine ih (fun i hi => update_outside (by omega) hslots _ hi) (by omega) (by omega) (fun m hm => ?_)
        fun m hm hjm => ?_
      · rw [update_place (prev_lt ht) (by omega) (by omega)]
        split_ifs with hmj
        · rw [hmj]
        · exact hmoved m (by omega)
      · rw [update_place (prev_lt ht) hm (by omega), if_neg (by omega)]
        exact hrest m hm (by omega)

/-- A new member in front of the `k`-th one: those before it move, and it takes the slot that becomes free. -/
lemma Holds.insertIdx {fuel : ℕ} (h : Holds slots n t l) (hroom : l.length < n) (hk : k < l.length)
    (hfuel : k < fuel) (x : α) :
    Holds (Function.update (shift n (place n t k) fuel t slots) (prev n (place n t k)) (some x)) n (prev n t)
      (l.take k ++ x :: l.drop k) := by
  obtain ⟨houtside, hmoved, hrest⟩ := shift_spec (j := 0) fuel h.outside h.start_lt hroom (Nat.zero_le k) hk
    (by omega) (fun m hm => absurd hm m.not_lt_zero) fun m hm hpos => by
      rw [h.front hroom hm, if_neg (by omega)]
  rw [place_zero h.start_lt] at houtside hmoved hrest
  have hlen : (l.take k).length = k := List.length_take_of_le (by omega)
  rw [prev_place h.start_lt]
  refine ⟨prev_lt h.start_lt, ?_, fun m hm => ?_, fun i hi => update_outside h.pos houtside _ hi⟩
  · rw [List.length_append, List.length_cons, hlen, List.length_drop]
    omega
  · rw [update_place (prev_lt h.start_lt) hm (by omega)]
    split_ifs with hmk
    · rw [hmk, List.getElem?_append_right (Nat.le_of_eq hlen), hlen, Nat.sub_self]
      rfl
    · rcases Nat.lt_or_gt_of_ne hmk with hlt | hgt
      · rw [hmoved m hlt, List.getElem?_append_left (hlt.trans_eq hlen.symm), List.getElem?_take_of_lt hlt]
      · obtain ⟨d, rfl⟩ := Nat.exists_eq_add_of_lt hgt
        rw [hrest _ hm hgt, List.getElem?_append_right (by omega), hlen,
          show k + d + 1 - k = d + 1 by omega, List.getElem?_cons_succ, List.getElem?_drop]
        rfl

end Ring

end NetworkSimulator.Library
