import Mathlib.Data.List.Basic
import Mathlib.Data.Multiset.DershowitzManna
import Mathlib.Data.Nat.Init
import Mathlib.Logic.Function.Iterate

/-!
# Loops

Loops that count, and loops that run until they are done.
-/

namespace NetworkSimulator.Library
variable {σ : Type*} {a b : ℕ} {f : ℕ → σ → σ} {s : σ}

/-- `for (i = a; i < b; i++)` with the body `f`. -/
def forLoop (a b : ℕ) (f : ℕ → σ → σ) (s : σ) : σ :=
  (List.range' a (b - a)).foldl (fun s i => f i s) s

lemma forLoop_of_le (h : b ≤ a) : forLoop a b f s = s := by
  rw [forLoop, Nat.sub_eq_zero_of_le h, List.range'_zero, List.foldl_nil]

lemma forLoop_succ (h : a ≤ b) : forLoop a (b + 1) f s = f b (forLoop a b f s) := by
  rw [forLoop, Nat.succ_sub h, List.range'_1_concat, List.foldl_append, Nat.add_sub_cancel' h]
  rfl

lemma forLoop_first (h : a < b) : forLoop a b f s = forLoop (a + 1) b f (f a s) := by
  rw [forLoop, forLoop, show b - a = b - (a + 1) + 1 by omega, List.range'_succ, List.foldl_cons]

/-- What each pass keeps, counting along, holds after the loop. -/
lemma forLoop_invariant {P : ℕ → σ → Prop} (hab : a ≤ b) (hinit : P a s)
    (hstep : ∀ i s, a ≤ i → i < b → P i s → P (i + 1) (f i s)) : P b (forLoop a b f s) := by
  induction b, hab using Nat.le_induction with
  | base => rwa [forLoop_of_le a.le_refl]
  | succ b hab ih =>
    rw [forLoop_succ hab]
    exact hstep b _ hab b.lt_succ_self (ih fun i s hi hb => hstep i s hi (Nat.lt_succ_of_lt hb))

/-- What each pass keeps holds after the loop. -/
lemma forLoop_keeps {P : σ → Prop} (hinit : P s)
    (hstep : ∀ i s, a ≤ i → i < b → P s → P (f i s)) : P (forLoop a b f s) := by
  rcases Nat.le_total a b with hab | hba
  · exact forLoop_invariant (P := fun _ => P) hab hinit hstep
  · rwa [forLoop_of_le hba]

section Iterate
variable {step : σ → σ} {Done P : σ → Prop}

/-- A loop that is done or lowers a potential after some passes comes to its end. -/
theorem iterate_terminates {ρ : Type*} {r : ρ → ρ → Prop} (hr : WellFounded r) (potential : σ → ρ)
    (hstep : ∀ s, P s → (∃ n, Done (step^[n] s)) ∨
      ∃ n, P (step^[n] s) ∧ r (potential (step^[n] s)) (potential s)) {s : σ} (hs : P s) :
    ∃ n, Done (step^[n] s) := by
  induction hk : potential s using hr.induction generalizing s with
  | _ k ih =>
    rcases hstep s hs with hdone | ⟨n, hn, hlt⟩
    · exact hdone
    · obtain ⟨m, hm⟩ := ih _ (hk ▸ hlt) hn rfl
      exact ⟨m + n, by rwa [Function.iterate_add_apply]⟩

/-- A loop that always comes back to `P` does so for ever. -/
theorem iterate_returns (hstep : ∀ s, P s → ∃ n, P (step^[n + 1] s)) {s : σ} (hs : P s) (k : ℕ) :
    ∃ m, k ≤ m ∧ P (step^[m] s) := by
  induction k with
  | zero => exact ⟨0, le_rfl, hs⟩
  | succ k ih =>
    obtain ⟨m, hm, hP⟩ := ih
    obtain ⟨n, hn⟩ := hstep _ hP
    exact ⟨n + 1 + m, by omega, by rwa [Function.iterate_add_apply]⟩

/-- A loop that is done stays where it is. -/
lemma iterate_of_done (hfixed : ∀ s, Done s → step s = s) {s : σ} {k m : ℕ} (hdone : Done (step^[k] s))
    (hkm : k ≤ m) : step^[m] s = step^[k] s := by
  obtain ⟨n, rfl⟩ := Nat.exists_eq_add_of_le' hkm
  rw [Function.iterate_add_apply]
  exact Function.iterate_fixed (hfixed _ hdone) n

lemma iterate_done_unique (hfixed : ∀ s, Done s → step s = s) {s : σ} {k m : ℕ} (hk : Done (step^[k] s))
    (hm : Done (step^[m] s)) : step^[k] s = step^[m] s := by
  rcases Nat.le_total k m with h | h
  · exact (iterate_of_done hfixed hk h).symm
  · exact iterate_of_done hfixed hm h

end Iterate

/-- Fewer of one element, and no more of any greater one. -/
lemma isDershowitzMannaLT_of_count {α : Type*} [LinearOrder α] {M N : Multiset α} {i : α}
    (hi : M.count i < N.count i) (hle : ∀ j, i < j → M.count j ≤ N.count j) :
    M.IsDershowitzMannaLT N := by
  have hmem : i ∈ N - M := by
    rw [← Multiset.count_pos, Multiset.count_sub]
    omega
  refine ⟨M ∩ N, M - N, N - M, fun h => ?_, ?_, ?_, fun y hy => ?_⟩
  · rw [h] at hmem
    exact Multiset.notMem_zero i hmem
  · rw [add_comm, Multiset.sub_add_inter]
  · rw [add_comm, Multiset.inter_comm, Multiset.sub_add_inter]
  · rw [← Multiset.count_pos, Multiset.count_sub] at hy
    refine ⟨i, hmem, lt_of_le_of_ne (not_lt.mp fun hlt => ?_) ?_⟩
    · have := hle y hlt
      omega
    · rintro rfl
      omega

end NetworkSimulator.Library
