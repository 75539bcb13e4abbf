import Mathlib.Data.List.Nodup
import Mathlib.Data.List.Perm.Basic
import Mathlib.Logic.Equiv.Basic
import Mathlib.Order.Lattice
import Mathlib.Order.Nat
import Mathlib.Tactic.Common

/-!
# Binary heaps in an array

An array is a function on positions of which the first `n` count; the children of `i` are
`2 * i + 1` and `2 * i + 2`. `HeapExcept` is a heap whose element at one position may be anything.
Exchanging that element with its parent, or with its smaller child, moves the bad position along,
and a heap is reached when the element fits between its parent and its children.
-/

namespace NetworkSimulator.Library

variable {α K : Type*} [LinearOrder K] (rank : α → K)

/-- The parent of a position other than `0`. -/
def parentOf (i : ℕ) : ℕ := (i - 1) / 2

lemma parentOf_lt {i : ℕ} (h : 0 < i) : parentOf i < i := by
  unfold parentOf
  omega

lemma parentOf_eq_iff {i j : ℕ} (h : 0 < j) : parentOf j = i ↔ j = 2 * i + 1 ∨ j = 2 * i + 2 := by
  unfold parentOf
  omega

def IsHeap (f : ℕ → α) (n : ℕ) : Prop :=
  ∀ j, 0 < j → j < n → rank (f (parentOf j)) ≤ rank (f j)

/-- A heap but for the element at `i`: pairs without `i` are in order, and the children of `i` do
not come before the parent of `i`. -/
structure HeapExcept (f : ℕ → α) (n i : ℕ) : Prop where
  others : ∀ j, 0 < j → j < n → j ≠ i → parentOf j ≠ i → rank (f (parentOf j)) ≤ rank (f j)
  across : 0 < i → ∀ j, 0 < j → j < n → parentOf j = i → rank (f (parentOf i)) ≤ rank (f j)

/-- The element at `i` does not come after its children. -/
def AboveChildren (f : ℕ → α) (n i : ℕ) : Prop :=
  ∀ j, 0 < j → j < n → parentOf j = i → rank (f i) ≤ rank (f j)

/-- The array with the elements at `i` and `j` exchanged. -/
def exchange (f : ℕ → α) (i j : ℕ) : ℕ → α := f ∘ Equiv.swap i j

section Exchange
variable {f : ℕ → α} {n i j k : ℕ}

@[simp] lemma exchange_left : exchange f i j i = f j := by
  rw [exchange, Function.comp_apply, Equiv.swap_apply_left]

@[simp] lemma exchange_right : exchange f i j j = f i := by
  rw [exchange, Function.comp_apply, Equiv.swap_apply_right]

lemma exchange_of_ne (hi : k ≠ i) (hj : k ≠ j) : exchange f i j k = f k := by
  rw [exchange, Function.comp_apply, Equiv.swap_apply_of_ne_of_ne hi hj]

/-- The elements that count. -/
def contents (f : ℕ → α) (n : ℕ) : List α := (List.range n).map f

lemma contents_succ (f : ℕ → α) (n : ℕ) : contents f (n + 1) = contents f n ++ [f n] := by
  rw [contents, List.range_succ, List.map_append]
  rfl

lemma mem_contents {x : α} : x ∈ contents f n ↔ ∃ i, i < n ∧ f i = x := by
  simp [contents]

lemma contents_congr {g : ℕ → α} (h : ∀ i, i < n → g i = f i) : contents g n = contents f n :=
  List.map_congr_left fun i hi => h i (List.mem_range.mp hi)

lemma contents_exchange (hi : i < n) (hj : j < n) :
    (contents (exchange f i j) n).Perm (contents f n) := by
  have hperm : ((List.range n).map (Equiv.swap i j)).Perm (List.range n) := by
    refine (List.perm_ext_iff_of_nodup ?_ List.nodup_range).mpr fun k => ?_
    · exact List.nodup_range.map (Equiv.injective _)
    · have hlt : ∀ k, k < n → Equiv.swap i j k < n := by
        intro k hk
        rw [Equiv.swap_apply_def]
        split
        · exact hj
        · split
          · exact hi
          · exact hk
      simp only [List.mem_map, List.mem_range]
      constructor
      · rintro ⟨l, hl, rfl⟩
        exact hlt l hl
      · intro hk
        exact ⟨Equiv.swap i j k, hlt k hk, by rw [Equiv.swap_apply_self]⟩
  have hmap := hperm.map f
  rwa [List.map_map] at hmap

end Exchange

section Heap
variable {rank} {f : ℕ → α} {n i : ℕ}

lemma IsHeap.root_le (h : IsHeap rank f n) : ∀ i, i < n → rank (f 0) ≤ rank (f i) := by
  intro i
  induction i using Nat.strongRec with
  | ind i ih =>
    intro hi
    rcases Nat.eq_zero_or_pos i with rfl | hpos
    · exact le_rfl
    · have hlt := parentOf_lt hpos
      exact (ih _ hlt (hlt.trans hi)).trans (h i hpos hi)

lemma IsHeap.heapExcept (h : IsHeap rank f n) (i : ℕ) : HeapExcept rank f n i where
  others j hj hjn _ _ := h j hj hjn
  across hi j hj hjn hji := by
    have hlt := parentOf_lt hj
    have hpar := h i hi (by omega)
    have hchild := h j hj hjn
    rw [hji] at hchild
    exact hpar.trans hchild

/-- The element at `i` fits in. -/
lemma HeapExcept.isHeap (h : HeapExcept rank f n i)
    (hup : 0 < i → i < n → rank (f (parentOf i)) ≤ rank (f i)) (hdown : AboveChildren rank f n i) :
    IsHeap rank f n := by
  intro j hj hjn
  by_cases hji : j = i
  · subst hji
    exact hup hj hjn
  · by_cases hpar : parentOf j = i
    · rw [hpar]
      exact hdown j hj hjn hpar
    · exact h.others j hj hjn hji hpar

/-- Only the element at `i` has changed. -/
lemma HeapExcept.congr {g : ℕ → α} (h : HeapExcept rank f n i) (hg : ∀ j, j ≠ i → g j = f j) :
    HeapExcept rank g n i where
  others j hj hjn hji hpar := by
    rw [hg _ hpar, hg _ hji]
    exact h.others j hj hjn hji hpar
  across hi j hj hjn hpar := by
    have hlt := parentOf_lt hi
    have hlt' := parentOf_lt hj
    rw [hg _ (by omega), hg _ (by omega)]
    exact h.across hi j hj hjn hpar

/-- A new last position: it has no children yet. -/
lemma IsHeap.heapExcept_last (h : IsHeap rank f n) : HeapExcept rank f (n + 1) n where
  others j hj hjn hji _ := h j hj (by omega)
  across _ j hj hjn hpar := by
    have := parentOf_lt hj
    omega

lemma aboveChildren_last (f : ℕ → α) (n : ℕ) : AboveChildren rank f (n + 1) n := by
  intro j hj hjn hpar
  have := parentOf_lt hj
  omega

/-- One exchange with the parent. -/
lemma HeapExcept.up (h : HeapExcept rank f n i) (hi : 0 < i) (hin : i < n) :
    HeapExcept rank (exchange f i (parentOf i)) n (parentOf i) where
  others j hj hjn hji hpar := by
    have hij : j ≠ i := by
      rintro rfl
      exact hpar rfl
    rw [exchange_of_ne hij hji]
    by_cases hpi : parentOf j = i
    · rw [hpi, exchange_left]
      exact h.across hi j hj hjn hpi
    · rw [exchange_of_ne hpi hpar]
      exact h.others j hj hjn hij hpi
  across hpos j hj hjn hpar := by
    have hlt := parentOf_lt hi
    have hlt' := parentOf_lt hpos
    have hgrand : rank (f (parentOf (parentOf i))) ≤ rank (f (parentOf i)) :=
      h.others _ hpos (hlt.trans hin) hlt.ne (by omega)
    rw [exchange_of_ne (by omega) hlt'.ne]
    by_cases hji : j = i
    · subst hji
      rw [exchange_left]
      exact hgrand
    · have hjp : j ≠ parentOf i := by
        have := parentOf_lt hj
        omega
      rw [exchange_of_ne hji hjp]
      have hsib := h.others j hj hjn hji (by omega)
      rw [hpar] at hsib
      exact hgrand.trans hsib

/-- An element that comes before its parent comes before the other child of the parent too. -/
lemma AboveChildren.up (h : HeapExcept rank f n i) (hi : 0 < i) (hin : i < n)
    (hlt : rank (f i) ≤ rank (f (parentOf i))) :
    AboveChildren rank (exchange f i (parentOf i)) n (parentOf i) := by
  intro j hj hjn hpar
  have hpi := parentOf_lt hi
  rw [exchange_right]
  by_cases hji : j = i
  · subst hji
    rw [exchange_left]
    exact hlt
  · have hjp : j ≠ parentOf i := by
      have := parentOf_lt hj
      omega
    rw [exchange_of_ne hji hjp]
    have hsib := h.others j hj hjn hji (by omega)
    rw [hpar] at hsib
    exact hlt.trans hsib

/-- One exchange with the smaller child `x`. -/
lemma HeapExcept.down {x : ℕ} (h : HeapExcept rank f n i) (hx : 0 < x) (hxn : x < n)
    (hxi : parentOf x = i) (hmin : ∀ j, 0 < j → j < n → parentOf j = i → rank (f x) ≤ rank (f j)) :
    HeapExcept rank (exchange f i x) n x where
  others j hj hjn hjx hpar := by
    have hix := parentOf_lt hx
    by_cases hji : j = i
    · subst hji
      have hpj := parentOf_lt hj
      rw [exchange_left, exchange_of_ne hpj.ne (by omega)]
      exact h.across hj x hx hxn hxi
    · rw [exchange_of_ne hji hjx]
      by_cases hpi : parentOf j = i
      · rw [hpi, exchange_left]
        exact hmin j hj hjn hpi
      · rw [exchange_of_ne hpi hpar]
        exact h.others j hj hjn hji hpi
  across _ j hj hjn hpar := by
    have hix := parentOf_lt hx
    have hxj := parentOf_lt hj
    rw [hxi, exchange_left, exchange_of_ne (by omega) (by omega)]
    have hchild := h.others j hj hjn (by omega) (by omega)
    rwa [hpar] at hchild

end Heap

end NetworkSimulator.Library
