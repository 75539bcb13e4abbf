import Mathlib.Data.List.Sigma
import Mathlib.Order.Lattice

/-!
# Maps that are walked in the order of their keys

The entries of a `std::map`, in the order in which its iterators meet them.
-/

namespace NetworkSimulator.Library

structure SortedMap (K V : Type*) [LinearOrder K] where
  entries : List ((_ : K) × V)
  sorted : entries.Pairwise fun a b => a.1 < b.1

namespace SortedMap
variable {K V : Type*} [LinearOrder K] {m : SortedMap K V} {k k' : K} {v w : V}

def setEntry (k : K) (v : V) : List ((_ : K) × V) → List ((_ : K) × V)
  | [] => [⟨k, v⟩]
  | e :: es =>
    if k < e.1 then ⟨k, v⟩ :: e :: es
    else if k = e.1 then ⟨k, v⟩ :: es
    else e :: setEntry k v es

lemma of_mem_setEntry {e : (_ : K) × V} {es : List ((_ : K) × V)} (he : e ∈ setEntry k v es) :
    e = ⟨k, v⟩ ∨ e ∈ es := by
  induction es with
  | nil => exact Or.inl (List.mem_singleton.mp he)
  | cons a es ih =>
    rw [setEntry] at he
    split_ifs at he with hlt heq
    · exact List.mem_cons.mp he
    · exact (List.mem_cons.mp he).imp_right (List.mem_cons_of_mem a)
    · rcases List.mem_cons.mp he with rfl | he
      · exact Or.inr List.mem_cons_self
      · exact (ih he).imp_right (List.mem_cons_of_mem a)

lemma sorted_setEntry {es : List ((_ : K) × V)} (hes : es.Pairwise fun a b => a.1 < b.1) :
    (setEntry k v es).Pairwise fun a b => a.1 < b.1 := by
  induction es with
  | nil => exact List.pairwise_singleton _ _
  | cons a es ih =>
    have hhead := (List.pairwise_cons.mp hes).1
    rw [setEntry]
    split_ifs with hlt heq
    · refine hes.cons fun b hb => ?_
      rcases List.mem_cons.mp hb with rfl | hb
      · exact hlt
      · exact hlt.trans (hhead b hb)
    · refine hes.of_cons.cons fun b hb => ?_
      rw [heq]
      exact hhead b hb
    · refine (ih hes.of_cons).cons fun b hb => ?_
      rcases of_mem_setEntry hb with rfl | hb
      · exact lt_of_le_of_ne (not_lt.mp hlt) (Ne.symm heq)
      · exact hhead b hb

lemma dlookup_setEntry_self (k : K) (v : V) (es : List ((_ : K) × V)) :
    (setEntry k v es).dlookup k = some v := by
  induction es with
  | nil => simp [setEntry]
  | cons a es ih =>
    rw [setEntry]
    split_ifs with hlt heq
    · simp
    · simp
    · rw [List.dlookup_cons_ne _ _ heq, ih]

lemma dlookup_cons_of_ne (hk : k' ≠ k) (es : List ((_ : K) × V)) :
    (⟨k, v⟩ :: es).dlookup k' = es.dlookup k' :=
  List.dlookup_cons_ne es ⟨k, v⟩ hk

lemma dlookup_setEntry_ne (hk : k' ≠ k) (es : List ((_ : K) × V)) :
    (setEntry k v es).dlookup k' = es.dlookup k' := by
  induction es with
  | nil => exact dlookup_cons_of_ne hk []
  | cons a es ih =>
    obtain ⟨k₀, v₀⟩ := a
    rw [setEntry]
    split_ifs with hlt heq
    · exact dlookup_cons_of_ne hk _
    · rw [dlookup_cons_of_ne hk, dlookup_cons_of_ne fun h => hk (h.trans heq.symm)]
    · by_cases hkk : k' = k₀
      · rw [hkk, List.dlookup_cons_eq, List.dlookup_cons_eq]
      · rw [dlookup_cons_of_ne hkk, dlookup_cons_of_ne hkk, ih]

def empty : SortedMap K V :=
  ⟨[], List.Pairwise.nil⟩

def find (m : SortedMap K V) (k : K) : Option V :=
  m.entries.dlookup k

/-- The entry of `k` becomes `v`, whether or not there was one. -/
def set (m : SortedMap K V) (k : K) (v : V) : SortedMap K V :=
  ⟨setEntry k v m.entries, sorted_setEntry m.sorted⟩

/-- An entry that is there stays, as `std::map::insert` does it. -/
def insert (m : SortedMap K V) (k : K) (v : V) : SortedMap K V :=
  if m.find k = none then m.set k v else m

def erase (m : SortedMap K V) (k : K) : SortedMap K V :=
  ⟨m.entries.kerase k, m.sorted.sublist (List.kerase_sublist k _)⟩

def isEmpty (m : SortedMap K V) : Bool :=
  m.entries.isEmpty

lemma nodupKeys (m : SortedMap K V) : m.entries.NodupKeys :=
  List.nodupKeys_iff_pairwise.mpr (m.sorted.imp ne_of_lt)

lemma mem_entries_iff : ⟨k, v⟩ ∈ m.entries ↔ m.find k = some v :=
  (List.mem_dlookup_iff m.nodupKeys).symm

@[simp] lemma find_empty : (empty : SortedMap K V).find k = none :=
  rfl

@[simp] lemma find_set_self : (m.set k v).find k = some v :=
  dlookup_setEntry_self k v m.entries

lemma find_set_of_ne (h : k' ≠ k) : (m.set k v).find k' = m.find k' :=
  dlookup_setEntry_ne h m.entries

lemma find_set : (m.set k v).find k' = if k' = k then some v else m.find k' := by
  split_ifs with h
  · rw [h, find_set_self]
  · exact find_set_of_ne h

@[simp] lemma find_erase_self : (m.erase k).find k = none :=
  List.dlookup_kerase k m.nodupKeys

lemma find_erase_of_ne (h : k' ≠ k) : (m.erase k).find k' = m.find k' :=
  List.dlookup_kerase_ne h

lemma find_erase : (m.erase k).find k' = if k' = k then none else m.find k' := by
  split_ifs with h
  · rw [h, find_erase_self]
  · exact find_erase_of_ne h

lemma insert_of_none (h : m.find k = none) : m.insert k v = m.set k v :=
  if_pos h

lemma isEmpty_iff : m.isEmpty ↔ ∀ k, m.find k = none := by
  refine ⟨fun h k => ?_, fun h => ?_⟩
  · rw [find, List.isEmpty_iff.mp h, List.dlookup_nil]
  · cases he : m.entries with
    | nil => simp [isEmpty, he]
    | cons e es =>
      have hfind : m.find e.1 = some e.2 := mem_entries_iff.mp (he ▸ List.mem_cons_self)
      exact absurd (h e.1) (by simp [hfind])

lemma exists_find_of_not_isEmpty (h : ¬m.isEmpty) : ∃ k v, m.find k = some v := by
  rw [isEmpty_iff] at h
  push Not at h
  obtain ⟨k, hk⟩ := h
  exact ⟨k, Option.ne_none_iff_exists'.mp hk⟩

lemma dlookup_of_forall_lt {es : List ((_ : K) × V)} (h : ∀ e ∈ es, k < e.1) : es.dlookup k = none := by
  refine List.dlookup_eq_none.mpr fun hk => ?_
  obtain ⟨e, he, rfl⟩ := List.mem_map.mp hk
  exact lt_irrefl _ (h e he)

lemma countP_setEntry {es : List ((_ : K) × V)} (hes : es.Pairwise fun a b => a.1 < b.1)
    (p : ((_ : K) × V) → Bool) : (setEntry k v es).countP p +
      ((es.dlookup k).elim 0 fun w => if p ⟨k, w⟩ then 1 else 0) =
      es.countP p + if p ⟨k, v⟩ then 1 else 0 := by
  induction es with
  | nil =>
    rw [setEntry, List.dlookup_nil, Option.elim_none, List.countP_cons]
    rfl
  | cons a es ih =>
    obtain ⟨k', w⟩ := a
    have hhead := (List.pairwise_cons.mp hes).1
    rw [setEntry]
    dsimp only at hhead ⊢
    by_cases hlt : k < k'
    · have hnone : List.dlookup k (⟨k', w⟩ :: es) = none := by
        refine dlookup_of_forall_lt fun e he => ?_
        rcases List.mem_cons.mp he with rfl | he
        · exact hlt
        · exact hlt.trans (hhead e he)
      rw [if_pos hlt, hnone, Option.elim_none, List.countP_cons]
      rfl
    · rw [if_neg hlt]
      by_cases heq : k = k'
      · subst heq
        rw [if_pos rfl, List.dlookup_cons_eq, Option.elim_some, List.countP_cons, List.countP_cons,
          Nat.add_right_comm]
      · rw [if_neg heq, dlookup_cons_of_ne heq, List.countP_cons, List.countP_cons, Nat.add_right_comm,
          ih hes.of_cons, Nat.add_right_comm]

/-- Counting the entries of a map when one is set. -/
lemma countP_set (p : ((_ : K) × V) → Bool) : (m.set k v).entries.countP p +
    ((m.find k).elim 0 fun w => if p ⟨k, w⟩ then 1 else 0) = m.entries.countP p + if p ⟨k, v⟩ then 1 else 0 :=
  countP_setEntry m.sorted p

end SortedMap

end NetworkSimulator.Library
