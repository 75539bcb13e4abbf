import Mathlib.Algebra.Order.Ring.Int
import Mathlib.Data.Int.Lemmas
import Mathlib.Data.Int.ModEq
import Mathlib.Logic.Function.Basic
import Mathlib.Tactic.Common

/-!
# Circular arrays that are read by number

The element for number `i` is in the slot `i % n`. Numbers that are less than `n` apart have different slots,
so a window of at most `n` numbers holds a list, whatever the slots hold for other numbers.
-/

namespace NetworkSimulator.Library
variable {α β : Type*} {R : ℤ → α → β → Prop} {a a' : ℤ → α} {n m i j : ℤ} {x : α} {b b' : β} {l l' : List β}

def slot (a : ℤ → α) (n i : ℤ) : α := a (i % n)

def setSlot (a : ℤ → α) (n i : ℤ) (x : α) : ℤ → α := Function.update a (i % n) x

@[simp] lemma slot_setSlot_self : slot (setSlot a n i x) n i = x := Function.update_self _ _ _

lemma slot_setSlot_of_ne (hne : i ≠ j) (hij : i < j + n) (hji : j < i + n) :
    slot (setSlot a n j x) n i = slot a n i := by
  refine Function.update_of_ne (fun h => hne ?_) _ _
  have hdvd : n ∣ i - j := Int.ModEq.dvd (Int.ModEq.symm h)
  have hzero : i - j = 0 := Int.eq_zero_of_abs_lt_dvd hdvd (abs_lt.mpr ⟨by omega, by omega⟩)
  omega

lemma slot_add_self : slot a n (i + n) = slot a n i := by
  unfold slot
  rw [Int.add_emod_right]

/-- The elements for `k` numbers from `i` on are copied to another array. -/
def copySlots (a : ℤ → α) (n m : ℤ) : ℕ → ℤ → (ℤ → α) → ℤ → α
  | 0, _, a' => a'
  | k + 1, i, a' => copySlots a n m k (i + 1) (setSlot a' m i (slot a n i))

lemma slot_copySlots_of_lt {k : ℕ} (hj : j < i) (hk : i + k ≤ j + m) :
    slot (copySlots a n m k i a') m j = slot a' m j := by
  induction k generalizing i a' with
  | zero => rfl
  | succ k ih =>
    push_cast at hk
    rw [copySlots, ih (by omega) (by omega), slot_setSlot_of_ne (by omega) (by omega) (by omega)]

/-- Every number of the window is copied when the window fits into the new array. -/
lemma slot_copySlots {k : ℕ} (hk : k ≤ m) (hij : i ≤ j) (hj : j < i + k) :
    slot (copySlots a n m k i a') m j = slot a n j := by
  induction k generalizing i a' with
  | zero => omega
  | succ k ih =>
    push_cast at hk hj
    rw [copySlots]
    by_cases h : j = i
    · subst h
      rw [slot_copySlots_of_lt (by omega) (by omega), slot_setSlot_self]
    · exact ih (by omega) (by omega) (by omega)

/-- The slots for the numbers from `i` on are related to the elements of a list. -/
def Holds (R : ℤ → α → β → Prop) (a : ℤ → α) (n : ℤ) : ℤ → List β → Prop
  | _, [] => True
  | i, b :: l => R i (slot a n i) b ∧ Holds R a n (i + 1) l

lemma holds_append : Holds R a n i (l ++ l') ↔ Holds R a n i l ∧ Holds R a n (i + l.length) l' := by
  induction l generalizing i with
  | nil => simp [Holds]
  | cons b l ih =>
    rw [List.cons_append, Holds, Holds, ih, and_assoc, List.length_cons]
    push_cast
    rw [add_right_comm, add_assoc i]

lemma holds_iff : Holds R a n i l ↔ ∀ (k : ℕ) b, l[k]? = some b → R (i + k) (slot a n (i + k)) b := by
  induction l generalizing i with
  | nil => simp [Holds]
  | cons b l ih =>
    rw [Holds, ih]
    constructor
    · rintro ⟨hb, hl⟩ k c hc
      cases k with
      | zero =>
        obtain rfl := Option.some.inj hc
        simpa using hb
      | succ k =>
        have hk := hl k c hc
        push_cast
        rwa [add_right_comm, add_assoc] at hk
    · intro h
      refine ⟨by simpa using h 0 b rfl, fun k c hc => ?_⟩
      have hk := h (k + 1) c hc
      push_cast at hk
      rwa [add_right_comm, add_assoc]

/-- Arrays with the same elements for the numbers of a list hold the same list. -/
lemma Holds.congr (h : Holds R a n i l) (hsame : ∀ j, i ≤ j → j < i + l.length → slot a' m j = slot a n j) :
    Holds R a' m i l := by
  rw [holds_iff] at h ⊢
  intro k b hk
  have hlt : k < l.length := (List.getElem?_eq_some_iff.mp hk).1
  rw [hsame _ (by omega) (by omega)]
  exact h k b hk

/-- A number outside of the window is written. -/
lemma Holds.setSlot (h : Holds R a n i l) (hout : (j < i ∧ i + l.length ≤ j + n) ∨ (i + l.length ≤ j ∧ j < i + n)) :
    Holds R (setSlot a n j x) n i l :=
  h.congr fun k hk hlt => slot_setSlot_of_ne (by omega) (by omega) (by omega)

/-- A number of the window is written. -/
lemma Holds.replace (h : Holds R a n i (l ++ b :: l')) (hlen : (l ++ b :: l').length ≤ n)
    (hx : R (i + l.length) x b') : Holds R (Library.setSlot a n (i + l.length) x) n i (l ++ b' :: l') := by
  rw [List.length_append, List.length_cons] at hlen
  push_cast at hlen
  obtain ⟨hl, -, hl'⟩ := holds_append.mp h
  refine holds_append.mpr ⟨hl.setSlot (.inr ⟨le_rfl, by omega⟩), ?_, hl'.setSlot (.inl ⟨by omega, by omega⟩)⟩
  rwa [slot_setSlot_self]

/-- The number behind the window is written. -/
lemma Holds.concat (h : Holds R a n i l) (hlen : l.length < n) (hx : R (i + l.length) x b) :
    Holds R (Library.setSlot a n (i + l.length) x) n i (l ++ [b]) := by
  refine holds_append.mpr ⟨h.setSlot (.inr ⟨le_rfl, by omega⟩), ?_, trivial⟩
  rwa [slot_setSlot_self]

/-- The elements of the list change and the slots do not. -/
lemma Holds.map {f : β → β} (h : Holds R a n i l) (hf : ∀ j x b, i ≤ j → R j x b → R j x (f b)) :
    Holds R a n i (l.map f) := by
  induction l generalizing i with
  | nil => trivial
  | cons b l ih => exact ⟨hf i _ b le_rfl h.1, ih h.2 fun j x c hj => hf j x c (by omega)⟩

end NetworkSimulator.Library
