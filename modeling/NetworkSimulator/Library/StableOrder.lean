import Mathlib.Data.List.MinMax
import Mathlib.Data.List.Sort
import Mathlib.Tactic.Common

/-!
# Lists kept in stable order

A list ordered by a key, where equal keys stand in order of arrival. Stability is stated by
classes: for every key value the elements with that key form the same sublist as in the list of
arrivals. The file gives the two insertions (after or before the equal keys) their effect on the
classes, and identifies the first least element of the arrivals.
-/

namespace NetworkSimulator.Library

variable {α K : Type*} [LinearOrder K] (key : α → K)

/-- Ordered by key, equal keys in any order. -/
def Ordered (l : List α) : Prop := l.Pairwise fun a b => key a ≤ key b

/-- The elements of `l` with key `k`, in the order of `l`. -/
def keyClass (k : K) (l : List α) : List α := l.filter fun a => decide (key a = k)

@[simp] lemma keyClass_nil (k : K) : keyClass key k ([] : List α) = [] := rfl

lemma mem_keyClass {k : K} {l : List α} {a : α} : a ∈ keyClass key k l ↔ a ∈ l ∧ key a = k := by
  simp [keyClass]

lemma keyClass_append (k : K) (l m : List α) :
    keyClass key k (l ++ m) = keyClass key k l ++ keyClass key k m := List.filter_append ..

lemma keyClass_eq_nil {k : K} {l : List α} (h : ∀ a ∈ l, key a ≠ k) : keyClass key k l = [] := by
  simpa [keyClass] using h

lemma keyClass_cons_self {a : α} (l : List α) :
    keyClass key (key a) (a :: l) = a :: keyClass key (key a) l := by simp [keyClass]

lemma keyClass_cons_of_ne {k : K} {a : α} (h : key a ≠ k) (l : List α) :
    keyClass key k (a :: l) = keyClass key k l := by simp [keyClass, h]

lemma keyClass_singleton_of_ne {k : K} {a : α} (h : key a ≠ k) : keyClass key k [a] = [] := by
  simp [keyClass, h]

lemma keyClass_erase [DecidableEq α] (k : K) (a : α) (l : List α) :
    keyClass key k (l.erase a) = (keyClass key k l).erase a := by
  rw [keyClass, keyClass, List.erase_filter]

/-- Lists with the same classes have the same elements. -/
lemma perm_of_keyClass [DecidableEq α] {l m : List α}
    (h : ∀ k, keyClass key k l = keyClass key k m) : l.Perm m := by
  rw [List.perm_iff_count]
  intro a
  have hc := congrArg (List.count a) (h (key a))
  rwa [keyClass, keyClass, List.count_filter (by simp), List.count_filter (by simp)] at hc

/-- Insert after every element whose key is not larger: first come, first served. -/
def insertLast (a : α) : List α → List α
  | [] => [a]
  | b :: l => if key a < key b then a :: b :: l else b :: insertLast a l

lemma insertLast_perm (a : α) (l : List α) : (insertLast key a l).Perm (a :: l) := by
  induction l with
  | nil => exact List.Perm.refl _
  | cons b l ih =>
    rw [insertLast]
    by_cases h : key a < key b
    · rw [if_pos h]
    · rw [if_neg h]
      exact (ih.cons b).trans (List.Perm.swap a b l)

lemma ordered_insertLast {a : α} {l : List α} (hl : Ordered key l) :
    Ordered key (insertLast key a l) := by
  induction l with
  | nil => exact List.pairwise_singleton _ _
  | cons b l ih =>
    obtain ⟨hb, hl'⟩ := List.pairwise_cons.mp hl
    rw [insertLast]
    by_cases h : key a < key b
    · rw [if_pos h]
      exact List.pairwise_cons.mpr ⟨fun c hc => by
        rcases List.mem_cons.mp hc with rfl | hc
        · exact h.le
        · exact h.le.trans (hb c hc), hl⟩
    · rw [if_neg h]
      refine List.pairwise_cons.mpr ⟨fun c hc => ?_, ih hl'⟩
      rcases List.mem_cons.mp ((insertLast_perm key a l).mem_iff.mp hc) with rfl | hc
      · exact not_lt.mp h
      · exact hb c hc

/-- The split form of `insertLast`: everything before has a key at most `key a`, everything after
has a larger one. -/
lemma insertLast_append {a : α} {l m : List α} (hl : ∀ b ∈ l, key b ≤ key a)
    (hm : ∀ b ∈ m, key a < key b) : insertLast key a (l ++ m) = l ++ a :: m := by
  induction l with
  | nil =>
    cases m with
    | nil => rfl
    | cons b m => rw [List.nil_append, insertLast, if_pos (hm b (by simp))]; rfl
  | cons b l ih =>
    rw [List.cons_append, insertLast, if_neg (not_lt.mpr (hl b (by simp))),
      ih (fun c hc => hl c (by simp [hc]))]
    rfl

lemma keyClass_insertLast {a : α} {l : List α} (hl : Ordered key l) (k : K) :
    keyClass key k (insertLast key a l) = keyClass key k (l ++ [a]) := by
  induction l with
  | nil => rfl
  | cons b l ih =>
    obtain ⟨hb, hl'⟩ := List.pairwise_cons.mp hl
    rw [insertLast]
    by_cases h : key a < key b
    · rw [if_pos h]
      by_cases hk : key a = k
      · have hnil : keyClass key k (b :: l) = [] := by
          apply keyClass_eq_nil
          intro c hc hck
          have hbc : key b ≤ key c := by
            rcases List.mem_cons.mp hc with rfl | hc
            · exact le_rfl
            · exact hb c hc
          exact absurd (hk ▸ hck ▸ hbc) (not_le.mpr h)
        subst hk
        rw [keyClass_cons_self, hnil, keyClass_append, hnil, keyClass_cons_self]
        rfl
      · rw [keyClass_cons_of_ne key hk, keyClass_append, keyClass_singleton_of_ne key hk,
          List.append_nil]
    · rw [if_neg h]
      have hi := ih hl'
      rw [keyClass_append] at hi ⊢
      by_cases hk : key b = k
      · subst hk
        rw [keyClass_cons_self, keyClass_cons_self, hi]
        rfl
      · rw [keyClass_cons_of_ne key hk, keyClass_cons_of_ne key hk, hi]

section Earlier
variable {S : Type*} [LinearOrder S] (seq : α → S)

/-- The order by key, then by the number each element got on arrival. -/
def Earlier (a b : α) : Prop := key a < key b ∨ key a = key b ∧ seq a < seq b

variable {key seq}

lemma Earlier.asymm {a b : α} (h : Earlier key seq a b) : ¬Earlier key seq b a := by
  rintro (hlt | ⟨heq, hlt⟩)
  · rcases h with h | ⟨h, -⟩
    · exact lt_asymm h hlt
    · exact lt_irrefl _ (h ▸ hlt)
  · rcases h with h | ⟨-, h⟩
    · exact lt_irrefl _ (heq ▸ h)
    · exact lt_asymm h hlt

lemma ordered_of_earlier {l : List α} (h : l.Pairwise (Earlier key seq)) : Ordered key l := by
  refine h.imp fun hab => ?_
  rcases hab with hlt | ⟨heq, -⟩
  · exact hlt.le
  · exact heq.le

lemma nodup_of_earlier {l : List α} (h : l.Pairwise (Earlier key seq)) : l.Nodup := by
  refine h.imp fun {a b} hab heq => ?_
  exact hab.asymm (heq ▸ hab)

/-- A newcomer goes after its equals, and its number is larger than theirs. -/
lemma earlier_insertLast {a : α} {l : List α} (h : l.Pairwise (Earlier key seq))
    (ha : ∀ b ∈ l, seq b < seq a) : (insertLast key a l).Pairwise (Earlier key seq) := by
  induction l with
  | nil => exact List.pairwise_singleton _ _
  | cons b l ih =>
    obtain ⟨hb, hl⟩ := List.pairwise_cons.mp h
    rw [insertLast]
    by_cases hcmp : key a < key b
    · rw [if_pos hcmp]
      refine List.pairwise_cons.mpr ⟨fun c hc => ?_, h⟩
      rcases List.mem_cons.mp hc with rfl | hc
      · exact Or.inl hcmp
      · rcases hb c hc with hlt | ⟨heq, -⟩
        · exact Or.inl (hcmp.trans hlt)
        · exact Or.inl (heq ▸ hcmp)
    · rw [if_neg hcmp]
      refine List.pairwise_cons.mpr ⟨fun c hc => ?_, ih hl fun x hx => ha x (by simp [hx])⟩
      rcases List.mem_cons.mp ((insertLast_perm key a l).mem_iff.mp hc) with rfl | hc
      · rcases lt_or_eq_of_le (not_lt.mp hcmp) with hlt | heq
        · exact Or.inl hlt
        · exact Or.inr ⟨heq, ha b (by simp)⟩
      · exact hb c hc

end Earlier

/-- A map that respects the keys respects the insertion. -/
lemma map_insertLast {β : Type*} (key' : β → K) {f : α → β} (a : α) (l : List α)
    (hf : ∀ b, b = a ∨ b ∈ l → key' (f b) = key b) :
    (insertLast key a l).map f = insertLast key' (f a) (l.map f) := by
  induction l with
  | nil => rfl
  | cons b l ih =>
    rw [List.map_cons, insertLast, insertLast, hf a (Or.inl rfl), hf b (by simp)]
    by_cases hcmp : key a < key b
    · rw [if_pos hcmp, if_pos hcmp]
      rfl
    · rw [if_neg hcmp, if_neg hcmp, List.map_cons, ih fun c hc => hf c (by
        rcases hc with rfl | hc
        · exact Or.inl rfl
        · exact Or.inr (by simp [hc]))]

/-- Of the elements that a filter keeps the new one comes last, when none of them has a larger key. -/
lemma filterMap_insertLast {β : Type*} {f : α → Option β} {a : α} {l : List α} (hl : Ordered key l)
    (h : ∀ b ∈ l, (f b).isSome → key b ≤ key a) :
    (insertLast key a l).filterMap f = l.filterMap f ++ (f a).toList := by
  induction l with
  | nil => cases hf : f a <;> simp [insertLast, hf]
  | cons b l ih =>
    obtain ⟨hb, hl'⟩ := List.pairwise_cons.mp hl
    rw [insertLast]
    by_cases hcmp : key a < key b
    · have hnone : (b :: l).filterMap f = [] := by
        rw [List.filterMap_eq_nil_iff]
        intro c hc
        by_contra hsome
        have hle := h c hc (Option.isSome_iff_ne_none.mpr hsome)
        rcases List.mem_cons.mp hc with rfl | hc
        · exact absurd hcmp hle.not_gt
        · exact absurd hcmp ((hb c hc).trans hle).not_gt
      rw [if_pos hcmp, List.filterMap_cons, hnone]
      cases f a <;> rfl
    · rw [if_neg hcmp, List.filterMap_cons, List.filterMap_cons, ih hl' fun c hc => h c (List.mem_cons_of_mem b hc)]
      cases f b <;> rfl

/-- An element that a filter drops leaves the others as they were. -/
lemma filterMap_insertLast_none {β : Type*} {f : α → Option β} {a : α} (l : List α) (h : f a = none) :
    (insertLast key a l).filterMap f = l.filterMap f := by
  induction l with
  | nil => simp [insertLast, h]
  | cons b l ih =>
    rw [insertLast]
    split_ifs
    · rw [List.filterMap_cons_none h]
    · rw [List.filterMap_cons, List.filterMap_cons, ih]

/-- Insert before every element whose key is not smaller: last come, first served. -/
def insertFirst (a : α) : List α → List α
  | [] => [a]
  | b :: l => if key b < key a then b :: insertFirst a l else a :: b :: l

lemma insertFirst_perm (a : α) (l : List α) : (insertFirst key a l).Perm (a :: l) := by
  induction l with
  | nil => exact List.Perm.refl _
  | cons b l ih =>
    rw [insertFirst]
    by_cases h : key b < key a
    · rw [if_pos h]
      exact (ih.cons b).trans (List.Perm.swap a b l)
    · rw [if_neg h]

lemma insertFirst_append {a : α} {l m : List α} (hl : ∀ b ∈ l, key b < key a)
    (hm : ∀ b ∈ m.head?, key a ≤ key b) : insertFirst key a (l ++ m) = l ++ a :: m := by
  induction l with
  | nil =>
    cases m with
    | nil => rfl
    | cons b m => rw [List.nil_append, insertFirst, if_neg (not_lt.mpr (hm b (by simp)))]; rfl
  | cons b l ih =>
    rw [List.cons_append, insertFirst, if_pos (hl b (by simp)), ih (fun c hc => hl c (by simp [hc]))]
    rfl

lemma ordered_insertFirst {a : α} {l : List α} (hl : Ordered key l) :
    Ordered key (insertFirst key a l) := by
  induction l with
  | nil => exact List.pairwise_singleton _ _
  | cons b l ih =>
    obtain ⟨hb, hl'⟩ := List.pairwise_cons.mp hl
    rw [insertFirst]
    by_cases h : key b < key a
    · rw [if_pos h]
      refine List.pairwise_cons.mpr ⟨fun c hc => ?_, ih hl'⟩
      rcases List.mem_cons.mp ((insertFirst_perm key a l).mem_iff.mp hc) with rfl | hc
      · exact h.le
      · exact hb c hc
    · rw [if_neg h]
      refine List.pairwise_cons.mpr ⟨fun c hc => ?_, hl⟩
      rcases List.mem_cons.mp hc with rfl | hc
      · exact not_lt.mp h
      · exact (not_lt.mp h).trans (hb c hc)

lemma keyClass_insertFirst {a : α} {l : List α} (k : K) :
    keyClass key k (insertFirst key a l) = keyClass key k (a :: l) := by
  induction l with
  | nil => rfl
  | cons b l ih =>
    rw [insertFirst]
    by_cases h : key b < key a
    · rw [if_pos h]
      by_cases hk : key b = k
      · have ha : key a ≠ k := fun hak => absurd h (by rw [hk, hak]; exact lt_irrefl k)
        rw [keyClass_cons_of_ne key ha] at ih ⊢
        subst hk
        rw [keyClass_cons_self, keyClass_cons_self, ih]
      · rw [keyClass_cons_of_ne key hk, ih]
        by_cases ha : key a = k
        · subst ha
          rw [keyClass_cons_self, keyClass_cons_self, keyClass_cons_of_ne key hk]
        · rw [keyClass_cons_of_ne key ha, keyClass_cons_of_ne key ha, keyClass_cons_of_ne key hk]
    · rw [if_neg h]

lemma argmin_append_cons {a : α} {l m : List α} (hl : ∀ b ∈ l, key a < key b)
    (hm : ∀ b ∈ m, key a ≤ key b) : (l ++ a :: m).argmin key = some a := by
  induction l with
  | nil =>
    rw [List.nil_append, List.argmin_cons]
    cases hc : m.argmin key with
    | none => rfl
    | some c =>
      simp only [if_neg (not_lt.mpr (hm c (List.argmin_mem hc)))]
  | cons b l ih =>
    rw [List.cons_append, List.argmin_cons, ih (fun c hc => hl c (by simp [hc]))]
    simp only [if_pos (hl b (by simp))]

/-- The first element of the class of the least key is the first least element. -/
lemma argmin_of_keyClass {a : α} {l cs : List α} (hc : keyClass key (key a) l = a :: cs)
    (hmin : ∀ b ∈ l, key a ≤ key b) : l.argmin key = some a := by
  obtain ⟨l₁, l₂, rfl, h₁, -, -⟩ := List.filter_eq_cons_iff.mp hc
  refine argmin_append_cons key (fun b hb => ?_) fun b hb => hmin b (by simp [hb])
  have hne : key b ≠ key a := by simpa using h₁ b hb
  exact lt_of_le_of_ne (hmin b (by simp [hb])) hne.symm

section Arrivals
variable {β : Type*} [DecidableEq β] {l : List β} {a b c : β}

/-- Both have arrived, and the first not after the second. -/
def NotAfter (l : List β) (a b : β) : Prop := a ∈ l ∧ b ∈ l ∧ l.idxOf a ≤ l.idxOf b

lemma NotAfter.refl (ha : a ∈ l) : NotAfter l a a := ⟨ha, ha, le_rfl⟩

lemma NotAfter.trans (h : NotAfter l a b) (h' : NotAfter l b c) : NotAfter l a c := ⟨h.1, h'.2.1, h.2.2.trans h'.2.2⟩

lemma NotAfter.antisymm (h : NotAfter l a b) (h' : NotAfter l b a) : a = b :=
  (List.idxOf_inj h.1).mp (h.2.2.antisymm h'.2.2)

/-- Later arrivals change nothing. -/
lemma NotAfter.append (h : NotAfter l a b) (m : List β) : NotAfter (l ++ m) a b := by
  refine ⟨List.mem_append_left m h.1, List.mem_append_left m h.2.1, ?_⟩
  rw [List.idxOf_append_of_mem h.1, List.idxOf_append_of_mem h.2.1]
  exact h.2.2

/-- The last to arrive comes after all the others. -/
lemma notAfter_last (ha : a ∈ l ++ [b]) (hb : b ∉ l) : NotAfter (l ++ [b]) a b := by
  refine ⟨ha, List.mem_append_right l (List.mem_singleton_self b), ?_⟩
  rcases List.mem_append.mp ha with ha | ha
  · rw [List.idxOf_append_of_mem ha, List.idxOf_append_of_notMem hb]
    exact List.idxOf_le_length.trans (Nat.le_add_right _ _)
  · rw [List.mem_singleton.mp ha]

end Arrivals

end NetworkSimulator.Library
