import Mathlib

/-!
# Comparing memory

What `memcmp`, `strncmp` and `strcmp` answer, as the sign of the number they return, and how the answers stand to the
lexicographic order. The least byte ends a string.
-/

namespace NetworkSimulator.Library
variable {α : Type*} [LinearOrder α] {a b : α} {s t : List α}

/-- The first `n` bytes, which both have. -/
def memcmp : ℕ → List α → List α → Ordering
  | n + 1, a :: s, b :: t => (cmp a b).then (memcmp n s t)
  | _, _, _ => .eq

section Strings
variable [OrderBot α]

/-- At most `n` bytes, and none behind the end of the strings. -/
def strncmp : ℕ → List α → List α → Ordering
  | n + 1, a :: s, b :: t => (cmp a b).then (if a = ⊥ then .eq else strncmp n s t)
  | _, _, _ => .eq

def strcmp : List α → List α → Ordering
  | a :: s, b :: t => (cmp a b).then (if a = ⊥ then .eq else strcmp s t)
  | _, _ => .eq

end Strings

/-- The lexicographic order. -/
def lexCmp : List α → List α → Ordering
  | [], [] => .eq
  | [], _ :: _ => .lt
  | _ :: _, [] => .gt
  | a :: s, b :: t => (cmp a b).then (lexCmp s t)

lemma lexCmp_eq_lt_iff : lexCmp s t = .lt ↔ s < t := by
  induction s generalizing t with
  | nil => cases t <;> simp [lexCmp]
  | cons a s ih =>
    cases t with
    | nil => simp [lexCmp]
    | cons b t =>
      rw [lexCmp, List.cons_lt_cons_iff, ← ih, ← cmp_eq_lt_iff a b, ← cmp_eq_eq_iff a b]
      cases cmp a b <;> simp [Ordering.then]

lemma lexCmp_eq_gt_iff : lexCmp s t = .gt ↔ t < s := by
  induction s generalizing t with
  | nil => cases t <;> simp [lexCmp]
  | cons a s ih =>
    cases t with
    | nil => simp [lexCmp]
    | cons b t =>
      rw [lexCmp, List.cons_lt_cons_iff, ← ih, ← cmp_eq_gt_iff a b, eq_comm (a := b), ← cmp_eq_eq_iff a b]
      cases cmp a b <;> simp [Ordering.then]

lemma lexCmp_eq_eq_iff : lexCmp s t = .eq ↔ s = t := by
  rcases lt_trichotomy s t with h | rfl | h
  · simp [lexCmp_eq_lt_iff.mpr h, h.ne]
  · have hlt : lexCmp s s ≠ .lt := fun h => lt_irrefl s (lexCmp_eq_lt_iff.mp h)
    have hgt : lexCmp s s ≠ .gt := fun h => lt_irrefl s (lexCmp_eq_gt_iff.mp h)
    cases hcmp : lexCmp s s with
    | lt => exact absurd hcmp hlt
    | eq => simp
    | gt => exact absurd hcmp hgt
  · simp [lexCmp_eq_gt_iff.mpr h, h.ne']

/-- As far as the shorter one reaches, the answer is the lexicographic order, but a beginning is not told from the
whole. -/
lemma memcmp_min : memcmp (min s.length t.length) s t = if s <+: t ∨ t <+: s then .eq else lexCmp s t := by
  induction s generalizing t with
  | nil => rw [if_pos (Or.inl List.nil_prefix), List.length_nil, Nat.zero_min, memcmp.eq_def]
  | cons a s ih =>
    cases t with
    | nil => rw [if_pos (Or.inr List.nil_prefix), List.length_nil, Nat.min_zero, memcmp.eq_def]
    | cons b t =>
      rw [List.length_cons, List.length_cons, Nat.succ_min_succ, memcmp, ih, lexCmp]
      simp only [List.cons_prefix_cons]
      by_cases hab : a = b
      · subst hab
        simp only [cmp_self_eq_eq, true_and, Ordering.then]
      · have hno : ¬(a = b ∧ s <+: t ∨ b = a ∧ t <+: s) := by
          rw [not_or]
          exact ⟨fun h => hab h.1, fun h => hab h.1.symm⟩
        rw [if_neg hno]
        have hne : cmp a b ≠ .eq := fun h => hab ((cmp_eq_eq_iff a b).mp h)
        cases hcmp : cmp a b with
        | eq => exact absurd hcmp hne
        | lt => rfl
        | gt => rfl

lemma memcmp_eq_iff (h : s.length = t.length) : memcmp s.length s t = .eq ↔ s = t := by
  have hmin := memcmp_min (s := s) (t := t)
  rw [← h, Nat.min_self] at hmin
  rw [hmin]
  constructor
  · intro heq
    by_cases hpre : s <+: t ∨ t <+: s
    · exact hpre.elim (fun hs => hs.eq_of_length h) fun ht => (ht.eq_of_length h.symm).symm
    · rw [if_neg hpre] at heq
      exact lexCmp_eq_eq_iff.mp heq
  · rintro rfl
    rw [if_pos (Or.inl List.prefix_rfl)]

section Strings
variable [OrderBot α]

/-- With the ends of both strings in reach, strings compare like lists. -/
lemma strncmp_ends (hs : ⊥ ∉ s) (ht : ⊥ ∉ t) {n : ℕ} (hn : min s.length t.length < n) :
    strncmp n (s ++ [⊥]) (t ++ [⊥]) = lexCmp s t := by
  induction s generalizing t n with
  | nil =>
    obtain ⟨n, rfl⟩ := Nat.exists_eq_add_one_of_ne_zero (Nat.ne_zero_of_lt hn)
    cases t with
    | nil => simp [strncmp, lexCmp]
    | cons b t =>
      have hb : (⊥ : α) < b := bot_lt_iff_ne_bot.mpr (fun h => ht (h ▸ List.mem_cons_self))
      rw [List.nil_append, List.cons_append, strncmp, (cmp_eq_lt_iff ⊥ b).mpr hb, lexCmp]
      rfl
  | cons a s ih =>
    obtain ⟨n, rfl⟩ := Nat.exists_eq_add_one_of_ne_zero (Nat.ne_zero_of_lt hn)
    have ha : a ≠ ⊥ := fun h => hs (h ▸ List.mem_cons_self)
    cases t with
    | nil =>
      rw [List.nil_append, List.cons_append, strncmp, (cmp_eq_gt_iff a ⊥).mpr (bot_lt_iff_ne_bot.mpr ha),
        lexCmp]
      rfl
    | cons b t =>
      rw [List.length_cons, List.length_cons, Nat.succ_min_succ] at hn
      rw [List.cons_append, List.cons_append, strncmp, if_neg ha, lexCmp,
        ih (fun h => hs (List.mem_cons_of_mem a h)) (fun h => ht (List.mem_cons_of_mem b h)) (by omega)]

lemma strcmp_ends (hs : ⊥ ∉ s) (ht : ⊥ ∉ t) : strcmp (s ++ [⊥]) (t ++ [⊥]) = lexCmp s t := by
  have hlong : ∀ (s t : List α) (n : ℕ), min s.length t.length ≤ n → strcmp s t = strncmp n s t := by
    intro s
    induction s with
    | nil => exact fun t n _ => by simp [strcmp, strncmp]
    | cons a s ih =>
      intro t n hn
      cases t with
      | nil => simp [strcmp, strncmp]
      | cons b t =>
        rw [List.length_cons, List.length_cons, Nat.succ_min_succ] at hn
        obtain ⟨n, rfl⟩ := Nat.exists_eq_add_one_of_ne_zero (Nat.ne_zero_of_lt hn)
        rw [strcmp, strncmp, ih t n (by omega)]
  rw [hlong _ _ (min (s ++ [⊥]).length (t ++ [⊥]).length) le_rfl]
  refine strncmp_ends hs ht ?_
  rw [List.length_append, List.length_append, List.length_singleton, Nat.succ_min_succ]
  exact Nat.lt_succ_self _

end Strings

end NetworkSimulator.Library
