import Mathlib.Algebra.BigOperators.Group.Finset.Basic
import Mathlib.Algebra.BigOperators.Intervals
import Mathlib.Algebra.Order.BigOperators.Group.Finset
import Mathlib.Data.Finset.Lattice.Fold
import Mathlib.Order.Lattice.Nat
import NetworkSimulator.Library.Runs
import NetworkSimulator.Tcp.AckerWindow

/-!
# The record is the set of packets received

What `Acker` says of the packets is what the set of all packets received says, and the bytes it returns
are those last stored for the packets in order. The ring and its growth do not show.
-/

namespace NetworkSimulator
open Library

/-- The packets received, with the size last stored for each. -/
structure PacketSet where
  got : Finset ℕ := ∅
  size : ℕ → ℕ := fun _ => 0
  dup : Bool := false

namespace PacketSet

/-- The largest packet received, 0 if there is none. -/
def largest (p : PacketSet) : ℕ :=
  p.got.sup id

/-- The least packet that has not been received. -/
def missing (p : PacketSet) : ℕ :=
  ((List.range (p.largest + 2)).find? fun i => i ∉ p.got).getD 0

lemma notMem_of_largest_lt {p : PacketSet} {i : ℕ} (hi : p.largest < i) : i ∉ p.got := by
  intro hmem
  exact absurd (Finset.le_sup (f := id) hmem) (not_le.mpr hi)

lemma missing_isLeast (p : PacketSet) : IsLeast {i | i ∉ p.got} p.missing := by
  unfold missing
  cases hfind : (List.range (p.largest + 2)).find? fun i => i ∉ p.got with
  | none =>
    rw [List.find?_range_eq_none] at hfind
    exact absurd (hfind (p.largest + 1) (Nat.lt_succ_self _)) (by simpa using notMem_of_largest_lt (Nat.lt_succ_self _))
  | some i =>
    obtain ⟨hi, -, hleast⟩ := List.find?_range_eq_some.mp hfind
    refine ⟨by simpa using hi, ?_⟩
    intro j hj
    by_contra hlt
    have hmem : j ∈ p.got := by simpa using hleast j (not_le.mp hlt)
    exact hj hmem

/-- A packet that is in order already is not stored again. -/
def receive (p : PacketSet) (call : ℕ × ℕ) : PacketSet where
  got := insert call.1 p.got
  size := if call.1 < p.missing then p.size else Function.update p.size call.1 call.2
  dup := decide (call.1 ∈ p.got)

/-- What a list of calls has received. -/
def ofCalls (calls : List (ℕ × ℕ)) : PacketSet :=
  calls.foldl receive {}

end PacketSet

namespace Acker
variable {a b : Acker} {p : PacketSet} {seq numBytes fuel n num : ℕ}

lemma deliver_bytes : (a.deliver fuel n num).2 =
    num + ∑ i ∈ Finset.Ico n (a.deliver fuel n num).1, a.seenAt i := by
  induction fuel generalizing n num with
  | zero => simp [deliver]
  | succ fuel ih =>
    have hle : ∀ fuel n num, n ≤ (a.deliver fuel n num).1 := by
      intro fuel
      induction fuel with
      | zero => exact fun n num => le_rfl
      | succ fuel ih =>
        intro n num
        unfold deliver
        split
        · exact (Nat.le_succ n).trans (ih (n + 1) _)
        · exact le_rfl
    unfold deliver
    split
    · rw [ih, Finset.sum_eq_sum_Ico_succ_bot (hle fuel (n + 1) _), Nat.add_assoc]
    · simp

lemma grow_frame : (grow seq fuel a).next = a.next ∧ (grow seq fuel a).maxseen = a.maxseen := by
  induction fuel generalizing a with
  | zero => exact ⟨rfl, rfl⟩
  | succ fuel ih =>
    unfold grow
    split
    · exact ih
    · exact ⟨rfl, rfl⟩

lemma markHighest_next : (a.markHighest seq numBytes).next = a.next :=
  forLoop_keeps (P := fun b : Acker => b.next = a.next) rfl fun _ _ _ _ h => h

/-- What `update` returns are the bytes in the ring between the old and the new left edge. -/
lemma update_frame : (a.update seq numBytes).1.maxseen = max a.maxseen seq ∧
    (a.update seq numBytes).2 =
      ∑ i ∈ Finset.Ico a.next (a.update seq numBytes).1.next, (a.update seq numBytes).1.seenAt i := by
  unfold update
  extract_lets a₁ just a₂ a₃ a₄ a₅ r
  obtain ⟨hnext₁, hmax₁⟩ : a₁.next = a.next ∧ a₁.maxseen = a.maxseen := grow_frame
  have h₂ : a₂.next = a.next ∧ a₂.maxseen = max a.maxseen seq := by
    by_cases hnew : seq > a₁.maxseen
    · have ha₂ : a₂ = a₁.markHighest seq numBytes := if_pos hnew
      rw [ha₂, markHighest_next]
      exact ⟨hnext₁, (max_eq_right (hmax₁ ▸ hnew.le)).symm⟩
    · have ha₂ : a₂ = a₁ := if_neg hnew
      rw [ha₂, hmax₁]
      exact ⟨hnext₁, (max_eq_left (hmax₁ ▸ not_lt.mp hnew)).symm⟩
  have h₃ : a₃.next = a.next ∧ a₃.maxseen = max a.maxseen seq := by
    by_cases hbelow : seq < a₂.next
    · have ha₃ : a₃ = { a₂ with isDup := true } := if_pos hbelow
      rw [ha₃]
      exact h₂
    · have ha₃ : a₃ = a₂ := if_neg hbelow
      rw [ha₃]
      exact h₂
  have h₅ : a₅.next = a.next ∧ a₅.maxseen = max a.maxseen seq := by
    by_cases hseen : a₃.seenAt seq ≠ 0 ∧ ¬just
    · have ha₄ : a₄ = { a₃ with isDup := true } := if_pos hseen
      show a₄.next = a.next ∧ a₄.maxseen = max a.maxseen seq
      rw [ha₄]
      exact h₃
    · have ha₄ : a₄ = a₃ := if_neg hseen
      show a₄.next = a.next ∧ a₄.maxseen = max a.maxseen seq
      rw [ha₄]
      exact h₃
  by_cases hin : seq ≥ a₃.next ∧ seq ≤ a₃.maxseen
  · rw [if_pos hin]
    refine ⟨h₅.2, ?_⟩
    have hbytes : r.2 = 0 + ∑ i ∈ Finset.Ico a₅.next r.1, a₅.seenAt i := deliver_bytes
    rw [Nat.zero_add, h₅.1] at hbytes
    exact hbytes
  · rw [if_neg hin]
    refine ⟨h₃.2, ?_⟩
    simp [h₃.1]

/-- The window says what the set of packets says. -/
structure Holds (p : PacketSet) (a : Acker) : Prop where
  stores : Stores p.size a
  got : ∀ i, i ∈ p.got ↔ p.size i ≠ 0
  max : a.maxseen = p.largest

lemma Holds.next (h : Holds p a) : a.next = p.missing := by
  have hleast : IsLeast {i | i ∉ p.got} a.next := by
    constructor
    · exact fun hmem => (h.got _).mp hmem h.stores.next
    · intro i hi
      by_contra hlt
      exact hi ((h.got i).mpr (h.stores.inOrder i (not_le.mp hlt)))
  exact hleast.unique p.missing_isLeast

lemma Holds.update (h : Holds p a) (hpos : 0 < numBytes) :
    Holds (p.receive (seq, numBytes)) (a.update seq numBytes).1 ∧
      (a.update seq numBytes).1.isDup = (p.receive (seq, numBytes)).dup ∧
      ∑ i ∈ Finset.range (a.update seq numBytes).1.next, (p.receive (seq, numBytes)).size i =
        ∑ i ∈ Finset.range a.next, p.size i + (a.update seq numBytes).2 := by
  have hup := update_spec seq numBytes h.stores
  obtain ⟨hmax, hbytes⟩ := @update_frame a seq numBytes
  generalize (a.update seq numBytes).2 = bytes at hbytes ⊢
  generalize (a.update seq numBytes).1 = b at hup hmax hbytes ⊢
  have hsize : (p.receive (seq, numBytes)).size = record p.size a.next seq numBytes := by
    unfold PacketSet.receive record
    rw [h.next]
  have hbelow : ∀ i < a.next, record p.size a.next seq numBytes i = p.size i := by
    intro i hi
    unfold record
    split
    · rfl
    · exact Function.update_of_ne (by omega) ..
  have hring : ∀ i ∈ Finset.Ico a.next b.next, b.seenAt i = record p.size a.next seq numBytes i := by
    intro i hi
    obtain ⟨hlo, hhi⟩ := Finset.mem_Ico.mp hi
    by_cases hseq : a.next ≤ seq
    · exact (hup.window hseq).seen i hlo (hhi.le.trans hup.stores.next_le)
    · -- A packet to the left of the window moves nothing, so the interval is empty.
      have hzero : record p.size a.next seq numBytes a.next = 0 := by
        unfold record
        rw [if_pos (not_le.mp hseq), h.stores.next]
      exact absurd hzero (hup.stores.inOrder a.next (hlo.trans_lt hhi))
  refine ⟨⟨?_, ?_, ?_⟩, ?_, ?_⟩
  · rw [hsize]
    exact hup.stores
  · intro i
    rw [hsize, record_ne_zero_iff h.stores hpos, ← h.got]
    exact Finset.mem_insert.trans or_comm
  · rw [hmax, h.max]
    unfold PacketSet.largest PacketSet.receive
    rw [Finset.sup_insert, max_comm]
    rfl
  · rw [Bool.eq_iff_iff, hup.dup, ← h.got]
    exact decide_eq_true_iff.symm
  · rw [hsize, Finset.range_eq_Ico, ← Finset.sum_Ico_consecutive _ (Nat.zero_le _) hup.next_le, hbytes,
      Finset.sum_congr rfl hring, ← Finset.range_eq_Ico]
    congr 1
    exact Finset.sum_congr rfl fun i hi => hbelow i (Finset.mem_range.mp hi)

lemma holds_init : Holds {} init := by
  refine ⟨stores_init, ?_, ?_⟩
  · intro i
    simp
  · rfl

lemma Stores.holds_reset {st : ℕ → ℕ} (h : Stores st a) : Holds {} a.reset := by
  refine ⟨h.reset, ?_, ?_⟩
  · intro i
    simp
  · rfl

def call (a : Acker) (c : ℕ × ℕ) : Option (Acker × ℕ) :=
  some (a.update c.1 c.2)

/-- The states that calls of `update` and `reset` lead to. -/
inductive Reachable : Acker → Prop
  | init : Reachable init
  | update {a : Acker} (h : Reachable a) (seq numBytes : ℕ) : Reachable (a.update seq numBytes).1
  | reset {a : Acker} (h : Reachable a) : Reachable a.reset

lemma Reachable.stores (h : Reachable a) : ∃ st, Stores st a := by
  induction h with
  | init => exact ⟨_, stores_init⟩
  | update _ seq numBytes ih =>
    obtain ⟨st, hst⟩ := ih
    exact ⟨_, (update_spec seq numBytes hst).stores⟩
  | reset _ ih =>
    obtain ⟨st, hst⟩ := ih
    exact ⟨_, hst.reset⟩

lemma Holds.run {calls : List (ℕ × ℕ)} (h : Holds p a) (hpos : ∀ c ∈ calls, 0 < c.2) :
    ∃ b os, run call a calls = some (b, os) ∧ Holds (calls.foldl .receive p) b ∧
      (calls ≠ [] → b.isDup = (calls.foldl PacketSet.receive p).dup) ∧
      ∑ i ∈ Finset.range b.next, (calls.foldl PacketSet.receive p).size i =
        ∑ i ∈ Finset.range a.next, p.size i + os.sum := by
  induction calls generalizing a p with
  | nil => exact ⟨a, [], rfl, h, fun hne => absurd rfl hne, rfl⟩
  | cons c calls ih =>
    have hc := hpos c List.mem_cons_self
    obtain ⟨hnext, hdup, hbytes⟩ := @Holds.update _ _ c.1 _ h hc
    obtain ⟨b, os, hrun, hb, hdup', hbytes'⟩ := ih hnext fun c hc => hpos c (List.mem_cons_of_mem _ hc)
    have hstep : call a c = some ((a.update c.1 c.2).1, (a.update c.1 c.2).2) := rfl
    refine ⟨b, (a.update c.1 c.2).2 :: os, ?_, hb, ?_, ?_⟩
    · rw [run_cons_of_step hstep, hrun]
      rfl
    · intro _
      cases calls with
      | nil =>
        obtain ⟨rfl, -⟩ := Prod.mk.inj (Option.some.inj hrun)
        exact hdup
      | cons c' calls => exact hdup' (List.cons_ne_nil _ _)
    · rw [List.foldl_cons, hbytes', hbytes, List.sum_cons, Nat.add_assoc]

/-- From a fresh or a reset state, after any calls of `update`: the next packet expected is the least one
never received, `maxseen` the largest received, the last packet is a duplicate exactly when it had been
received before, and what has been returned is the size last stored for the packets in order. -/
theorem acker_run (ha : a = init ∨ ∃ b, Reachable b ∧ a = b.reset) (calls : List (ℕ × ℕ))
    (hpos : ∀ c ∈ calls, 0 < c.2) :
    ∃ b os, Library.run call a calls = some (b, os) ∧
      IsLeast {i | i ∉ (PacketSet.ofCalls calls).got} b.next ∧
      b.maxseen = (PacketSet.ofCalls calls).largest ∧
      (calls ≠ [] → b.isDup = (PacketSet.ofCalls calls).dup) ∧
      os.sum = ∑ i ∈ Finset.range b.next, (PacketSet.ofCalls calls).size i := by
  have hstart : Holds {} a := by
    rcases ha with rfl | ⟨b, hb, rfl⟩
    · exact holds_init
    · obtain ⟨st, hst⟩ := hb.stores
      exact hst.holds_reset
  obtain ⟨b, os, hrun, hb, hdup, hbytes⟩ := hstart.run hpos
  refine ⟨b, os, hrun, hb.next ▸ PacketSet.missing_isLeast _, hb.max, hdup, ?_⟩
  have hnone : ∑ i ∈ Finset.range a.next, ({} : PacketSet).size i = 0 := Finset.sum_const_zero
  rw [hnone, Nat.zero_add] at hbytes
  exact hbytes.symm

/-- A hole that is filled, a duplicate below it, and a packet beyond the first size of the ring. -/
theorem acker_run_grown : ∃ b os, Library.run call init [(1, 10), (0, 20), (1, 5), (100, 7)] = some (b, os) ∧
    b.next = 2 ∧ b.maxseen = 100 ∧ os.sum = 30 := by
  obtain ⟨b, os, hrun, hnext, hmax, -, hsum⟩ :=
    acker_run (Or.inl rfl) [(1, 10), (0, 20), (1, 5), (100, 7)] (by decide)
  have hnext' : b.next = 2 := (hnext.unique (PacketSet.missing_isLeast _)).trans (by decide +kernel)
  refine ⟨b, os, hrun, hnext', hmax.trans (by decide +kernel), ?_⟩
  rw [hsum, hnext']
  decide +kernel

end Acker
end NetworkSimulator
