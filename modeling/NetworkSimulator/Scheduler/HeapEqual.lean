import NetworkSimulator.Scheduler.HeapOrder

/-!
# `HeapScheduler` and `ListScheduler` answer the same

The list of `ListScheduler` is the content of the heap in the order of `(he_key, he_s_key)`: a new
event gets the largest number so far, so it stands after its equals in both. The heap can hold
`2 ^ 31` events; one more, and the doubled `h_maxsize` does not fit its 32 bits.
-/

namespace NetworkSimulator
open Library

/-- A `ListScheduler` together with the number of insertions so far. -/
structure Counted (T : Type) where
  list : ListScheduler T
  inserts : ℕ

namespace Counted
variable {T : Type} [LinearOrder T]

/-- An event is inserted that is not queued, fewer than `2 ^ 32` in all, and a queued event is
cancelled. -/
def Admitted (q : Counted T) : SchedulerOp T → Prop
  | .insert e => e ∉ q.list.queue ∧ q.inserts + 1 < 2 ^ 32
  | .cancel e => e ∈ q.list.queue
  | .deque => True

instance (q : Counted T) : ∀ op, Decidable (q.Admitted op)
  | .insert e => inferInstanceAs (Decidable (e ∉ q.list.queue ∧ q.inserts + 1 < 2 ^ 32))
  | .cancel e => inferInstanceAs (Decidable (e ∈ q.list.queue))
  | .deque => inferInstanceAs (Decidable True)

def next (q : Counted T) : SchedulerOp T → Counted T
  | .insert e => ⟨q.list.insert e, q.inserts + 1⟩
  | .cancel e => ⟨(q.list.cancel e).getD q.list, q.inserts⟩
  | .deque => ⟨q.list.deque.2, q.inserts⟩

def out (q : Counted T) : SchedulerOp T → Option (Event T)
  | .insert _ | .cancel _ => none
  | .deque => q.list.deque.1

/-- Fewer than `2 ^ 31` events are queued after the call. -/
def Fits (q : Counted T) (op : SchedulerOp T) : Prop := (q.next op).list.queue.length < 2 ^ 31

lemma cancel_of_mem {q : Counted T} {e : Event T} (he : e ∈ q.list.queue) :
    q.list.cancel e = some (if e.uid ≤ 0 then q.list else ⟨q.list.queue.erase e⟩) := by
  rw [ListScheduler.cancel, if_pos he]
  split <;> rfl

lemma step_list {q : Counted T} {op : SchedulerOp T} (ha : q.Admitted op) :
    q.list.step op = some ((q.next op).list, q.out op) := by
  cases op with
  | insert e => rfl
  | cancel e =>
    rw [ListScheduler.step, Counted.next, cancel_of_mem ha]
    rfl
  | deque => rfl

end Counted

namespace HeapScheduler
open Heap
variable {T : Type} [LinearOrder T]

/-- The heap holds the queued events, numbered in the order of insertion. -/
structure Refines (s : Heap T) (q : Counted T) : Prop where
  heap : IsHeap rank s.elems s.size
  capacity : Capacity s.maxsize
  size_le : s.size ≤ s.maxsize
  size_eq : s.size = q.list.queue.length
  sKey_eq : s.sKey = q.inserts
  inserts_lt : q.inserts < 2 ^ 32
  nodup : q.list.queue.Nodup
  entries : ∃ es : List (HeapElem T), es.map HeapElem.elem = q.list.queue ∧
    es.Pairwise (Earlier HeapElem.key HeapElem.sKey) ∧
    (∀ x ∈ es, x.key = x.elem.time ∧ x.sKey < q.inserts) ∧ (contents s.elems s.size).Perm es

lemma Refines.size_le_two_pow {s : Heap T} {q : Counted T} (h : Refines s q) : s.size ≤ 2 ^ 31 :=
  h.size_le.trans h.capacity.le

lemma Refines.insert {s : Heap T} {q : Counted T} (h : Refines s q) {e : Event T}
    (ha : q.Admitted (.insert e)) (hlt : s.size < 2 ^ 31) :
    ∃ s', HeapScheduler.insert s e = some s' ∧ Refines s' (q.next (.insert e)) := by
  obtain ⟨es, hmap, hord, hkeys, hperm⟩ := h.entries
  obtain ⟨f, m, heq, hcap, hle, hheap, hperm'⟩ :=
    heapInsert_spec h.heap h.capacity h.size_le hlt e.time e
  have hsKey : (s.sKey + 1) % 2 ^ 32 = q.inserts + 1 := by
    rw [h.sKey_eq]
    exact Nat.mod_eq_of_lt ha.2
  set x : HeapElem T := ⟨e.time, s.sKey, e⟩ with hx
  have hins := insertLast_perm HeapElem.key x es
  have hqueue := insertLast_perm Event.time e q.list.queue
  refine ⟨_, heq, hheap, hcap, hle, ?_, hsKey, ha.2, ?_, insertLast HeapElem.key x es, ?_, ?_, ?_,
    ?_⟩
  · rw [h.size_eq]
    exact hqueue.length_eq.symm
  · exact hqueue.nodup_iff.mpr (List.nodup_cons.mpr ⟨ha.1, h.nodup⟩)
  · rw [map_insertLast HeapElem.key Event.time x es, hmap]
    · rfl
    · rintro b (rfl | hb)
      · rfl
      · exact (hkeys b hb).1.symm
  · refine earlier_insertLast hord fun b hb => ?_
    rw [hx, h.sKey_eq]
    exact (hkeys b hb).2
  · intro y hy
    rcases List.mem_cons.mp (hins.mem_iff.mp hy) with rfl | hy
    · exact ⟨rfl, by rw [hx, h.sKey_eq]; exact Nat.lt_succ_self _⟩
    · exact ⟨(hkeys y hy).1, Nat.lt_succ_of_lt (hkeys y hy).2⟩
  · exact hperm'.trans ((hperm.cons x).trans hins.symm)

/-- The event at the root is the head of the list. -/
lemma Refines.deque {s : Heap T} {q : Counted T} (h : Refines s q) :
    ∃ s', HeapScheduler.deque s = some (q.out .deque, s') ∧ Refines s' (q.next .deque) := by
  obtain ⟨es, hmap, hord, hkeys, hperm⟩ := h.entries
  have hsize := h.size_eq
  have hlen := h.size_le_two_pow
  have hnodup := h.nodup
  rw [Counted.next, Counted.out, ListScheduler.deque, HeapScheduler.deque]
  cases hq : q.list.queue with
  | nil =>
    rw [hq, List.length_nil] at hsize
    exact ⟨s, by rw [heapExtractMin, if_pos hsize], h⟩
  | cons e rest =>
    rw [hq] at hmap hsize hnodup
    obtain ⟨x, xs, rfl, rfl, rfl⟩ := List.map_eq_cons_iff.mp hmap
    simp only [List.length_cons, List.length_map] at hsize
    obtain ⟨f, heq, hheap, hperm'⟩ :=
      heapExtractMin_spec hsize h.size_le (by omega) (h.heap.heapExcept 0)
    have hroot : s.elems 0 = x := by
      have hmem : s.elems 0 ∈ x :: xs :=
        hperm.mem_iff.mp (mem_contents.mpr ⟨0, by omega, rfl⟩)
      rcases List.mem_cons.mp hmem with h0 | h0
      · exact h0
      · have hlt : rank x < rank (s.elems 0) :=
          keyLessThan_iff.mp (List.rel_of_pairwise_cons hord h0)
        obtain ⟨i, hi, hix⟩ := mem_contents.mp (hperm.mem_iff.mpr List.mem_cons_self)
        have hle := h.heap.root_le i hi
        rw [hix] at hle
        exact absurd hlt (not_lt.mpr hle)
    rw [hsize] at hperm
    rw [hroot] at heq hperm'
    refine ⟨_, heq, hheap, h.capacity, ?_, by simp, h.sKey_eq, h.inserts_lt,
      (List.nodup_cons.mp hnodup).2, xs, rfl, (List.pairwise_cons.mp hord).2,
      fun y hy => hkeys y (by simp [hy]), ?_⟩
    · have := h.size_le
      show xs.length ≤ s.maxsize
      omega
    · exact (hperm'.symm.trans hperm).cons_inv

/-- Deleting an event from the heap takes it out of the list. -/
lemma Refines.cancel {s : Heap T} {q : Counted T} (h : Refines s q) {e : Event T}
    (ha : e ∈ q.list.queue) (hlt : s.size < 2 ^ 31) :
    ∃ s', HeapScheduler.cancel s e = some s' ∧ Refines s' (q.next (.cancel e)) := by
  rw [HeapScheduler.cancel, Counted.next, Counted.cancel_of_mem ha, Option.getD_some]
  by_cases huid : e.uid ≤ 0
  · rw [if_pos huid, if_pos huid]
    exact ⟨s, rfl, h⟩
  rw [if_neg huid, if_neg huid]
  obtain ⟨es, hmap, hord, hkeys, hperm⟩ := h.entries
  obtain ⟨n, hn⟩ : ∃ n, s.size = n + 1 := by
    have := List.length_pos_of_mem ha
    exact ⟨s.size - 1, by rw [h.size_eq]; omega⟩
  have hmem : ∃ x ∈ contents s.elems s.size, x.elem = e := by
    rw [← hmap] at ha
    obtain ⟨x, hx, hxe⟩ := List.mem_map.mp ha
    exact ⟨x, hperm.mem_iff.mpr hx, hxe⟩
  obtain ⟨f, x, heq, hxe, hheap, hperm'⟩ := heapDelete_spec hn h.size_le hlt h.heap hmem
  have hx : x ∈ es := by
    refine hperm.mem_iff.mp ?_
    rw [hn]
    exact hperm'.mem_iff.mpr List.mem_cons_self
  obtain ⟨l, m, rfl⟩ := List.append_of_mem hx
  have hqueue : q.list.queue = l.map HeapElem.elem ++ e :: m.map HeapElem.elem := by
    rw [← hmap, List.map_append, List.map_cons, hxe]
  have hnodup := h.nodup
  have hsub : (l ++ m).Sublist (l ++ x :: m) := (List.sublist_cons_self x m).append_left l
  have herase : q.list.queue.erase e = (l ++ m).map HeapElem.elem := by
    rw [hqueue] at hnodup ⊢
    have hel : e ∉ l.map HeapElem.elem :=
      fun hmem => (List.nodup_append.mp hnodup).2.2 e hmem e (by simp) rfl
    rw [List.erase_append_right _ hel, List.erase_cons_head, List.map_append]
  refine ⟨_, heq, hheap, h.capacity, ?_, ?_, h.sKey_eq, h.inserts_lt, hnodup.erase e, l ++ m,
    herase.symm, hord.sublist hsub, fun y hy => hkeys y (hsub.subset hy), ?_⟩
  · have := h.size_le
    show n ≤ s.maxsize
    omega
  · show n = (q.list.queue.erase e).length
    rw [List.length_erase_of_mem ha, ← h.size_eq, hn, Nat.add_sub_cancel]
  · rw [hn] at hperm
    exact ((hperm'.symm.trans hperm).trans List.perm_middle).cons_inv

lemma Refines.step {s : Heap T} {q : Counted T} (h : Refines s q) {op : SchedulerOp T}
    (ha : q.Admitted op) (hlt : s.size < 2 ^ 31) :
    ∃ s', HeapScheduler.step s op = some (s', q.out op) ∧ Refines s' (q.next op) := by
  cases op with
  | insert e =>
    obtain ⟨s', heq, hR⟩ := h.insert ha hlt
    exact ⟨s', by rw [HeapScheduler.step, heq]; rfl, hR⟩
  | cancel e =>
    obtain ⟨s', heq, hR⟩ := h.cancel ha hlt
    exact ⟨s', by rw [HeapScheduler.step, heq]; rfl, hR⟩
  | deque =>
    obtain ⟨s', heq, hR⟩ := h.deque
    exact ⟨s', by rw [HeapScheduler.step, heq]; rfl, hR⟩

lemma refines_empty {s : Heap T} (h : s.Empty) : Refines s ⟨⟨[]⟩, 0⟩ := by
  obtain ⟨hkey, hsize, hmax⟩ := h
  refine ⟨fun j _ hj => by omega, ⟨0, Nat.zero_le _, by rw [hmax]; rfl⟩, by omega, hsize, hkey,
    Nat.two_pow_pos 32, List.nodup_nil, [], rfl, List.Pairwise.nil, by simp, ?_⟩
  rw [hsize]
  exact List.Perm.refl _

/-- Both schedulers answer the same along every run in which the heap never holds `2 ^ 31` events,
and after it the array is a heap of exactly the live events. -/
theorem heap_run_eq_list (s₀ : Heap T) (h₀ : s₀.Empty) (ops : List (SchedulerOp T))
    (h : AdmissibleRun (fun q op => Counted.Admitted q op ∧ q.Fits op) Counted.next ⟨⟨[]⟩, 0⟩ ops) :
    ∃ s l os, run HeapScheduler.step s₀ ops = some (s, os) ∧
      run ListScheduler.step ⟨[]⟩ ops = some (l, os) ∧
      IsHeap rank s.elems s.size ∧
      ((contents s.elems s.size).map HeapElem.elem).Perm l.queue := by
  have hstep : ∀ (s : Heap T) (q : Counted T) (op : SchedulerOp T),
      (Refines s q ∧ q.list.queue.length < 2 ^ 31) → q.Admitted op ∧ q.Fits op →
      ∃ s', HeapScheduler.step s op = some (s', q.out op) ∧
        (Refines s' (q.next op) ∧ (q.next op).list.queue.length < 2 ^ 31) := by
    rintro s q op ⟨hR, hlt⟩ ⟨ha, hfits⟩
    obtain ⟨s', heq, hR'⟩ := hR.step ha (hR.size_eq ▸ hlt)
    exact ⟨s', heq, hR', hfits⟩
  obtain ⟨s, hs, hR, -⟩ := run_simulates hstep ops ⟨refines_empty h₀, by simp⟩ h
  obtain ⟨l, hl, rfl⟩ := run_simulates (R := fun l q => q.list = l)
    (fun l q op hR ha => ⟨(q.next op).list, hR ▸ q.step_list ha.1, rfl⟩) ops rfl h
  obtain ⟨es, hmap, -, -, hperm⟩ := hR.entries
  exact ⟨s, _, _, hs, hl, hR.heap, hmap ▸ hperm.map _⟩

/-- Insertions that are tied and then resolved by `h_s_key`, and a cancelled event. -/
theorem heap_run_three_events :
    ∃ s l os, run HeapScheduler.step ⟨fun _ => ⟨0, 0, ⟨0, 0⟩⟩, 0, 0, 32⟩
        [.insert ⟨7, 5⟩, .insert ⟨2, 5⟩, .insert ⟨3, 4⟩, .cancel ⟨3, 4⟩, .deque] = some (s, os) ∧
      run ListScheduler.step ⟨[]⟩
        [.insert ⟨7, 5⟩, .insert ⟨2, 5⟩, .insert ⟨3, 4⟩, .cancel ⟨3, 4⟩, .deque] = some (l, os) ∧
      IsHeap (rank (T := ℕ)) s.elems s.size ∧
      ((contents s.elems s.size).map HeapElem.elem).Perm l.queue := by
  refine heap_run_eq_list ⟨fun _ => ⟨0, 0, ⟨0, 0⟩⟩, 0, 0, 32⟩ ⟨rfl, rfl, rfl⟩ _
    ⟨⟨by decide, ?_⟩, ⟨by decide, ?_⟩, ⟨by decide, ?_⟩, ⟨by decide, ?_⟩, ⟨trivial, ?_⟩, trivial⟩
  all_goals exact show (_ : ℕ) < 2 ^ 31 by decide

/-- `n` insertions with time `0`, the events numbered from `k + 1`. -/
def fill (k : ℕ) : ℕ → List (SchedulerOp ℕ)
  | 0 => []
  | n + 1 => .insert ⟨k + 1, 0⟩ :: fill (k + 1) n

lemma fill_succ (k n : ℕ) : fill k (n + 1) = fill k n ++ [.insert ⟨(k + n : ℕ) + 1, 0⟩] := by
  induction n generalizing k with
  | zero => rfl
  | succ n ih =>
    rw [fill, ih (k + 1), fill, List.cons_append, Nat.add_right_comm, Nat.add_assoc]

/-- What `k` insertions of `fill` leave. -/
structure Filled (q : Counted ℕ) (k : ℕ) : Prop where
  length_eq : q.list.queue.length = k
  inserts_eq : q.inserts = k
  uid_le : ∀ e ∈ q.list.queue, e.uid ≤ k

lemma Filled.next {q : Counted ℕ} {k : ℕ} (h : Filled q k) :
    Filled (q.next (.insert ⟨k + 1, 0⟩)) (k + 1) := by
  have hins := insertLast_perm Event.time (⟨k + 1, 0⟩ : Event ℕ) q.list.queue
  refine ⟨?_, by rw [Counted.next, h.inserts_eq], fun e he => ?_⟩
  · exact hins.length_eq.trans (by rw [List.length_cons, h.length_eq])
  · rcases List.mem_cons.mp (hins.mem_iff.mp he) with rfl | he
    · push_cast; exact le_rfl
    · have := h.uid_le e he
      push_cast
      omega

lemma Filled.admitted {q : Counted ℕ} {k : ℕ} (h : Filled q k) (hk : k + 1 < 2 ^ 32) :
    q.Admitted (.insert ⟨k + 1, 0⟩) := by
  refine ⟨fun hmem => ?_, by rw [h.inserts_eq]; exact hk⟩
  have := h.uid_le _ hmem
  simp only at this
  omega

lemma fill_admissible (n : ℕ) {q : Counted ℕ} {k : ℕ} (h : Filled q k) (hk : k + n < 2 ^ 32) :
    AdmissibleRun Counted.Admitted Counted.next q (fill k n) := by
  induction n generalizing q k with
  | zero => trivial
  | succ n ih => exact ⟨h.admitted (by omega), ih h.next (by omega)⟩

/-- As long as no more than `2 ^ 31` events are queued, an insertion succeeds. -/
lemma run_fill (n : ℕ) {s : Heap ℕ} {q : Counted ℕ} {k : ℕ} (hR : Refines s q) (h : Filled q k)
    (hk : k + n ≤ 2 ^ 31) :
    ∃ s' os q', run HeapScheduler.step s (fill k n) = some (s', os) ∧ Refines s' q' ∧
      Filled q' (k + n) := by
  induction n generalizing s q k with
  | zero => exact ⟨s, [], q, rfl, hR, h⟩
  | succ n ih =>
    have hlt : s.size < 2 ^ 31 := by
      rw [hR.size_eq, h.length_eq]
      omega
    obtain ⟨s₁, h₁, hR₁⟩ := hR.step (h.admitted (by omega)) hlt
    obtain ⟨s', os, q', h₂, hR', h'⟩ := ih hR₁ h.next (by omega)
    refine ⟨s', _, q', by rw [fill, run_cons_of_step h₁, h₂]; rfl, hR', ?_⟩
    rwa [Nat.add_assoc, Nat.add_comm 1 n] at h'

/-- With `2 ^ 31` events queued, `h_maxsize *= 2` gives `0`, and the copy of the old elements runs
past the new array. -/
lemma insert_full {s : Heap ℕ} {q : Counted ℕ} (hR : Refines s q) (h : Filled q (2 ^ 31))
    (e : Event ℕ) : HeapScheduler.insert s e = none := by
  have hsize : s.size = 2 ^ 31 := hR.size_eq.trans h.length_eq
  have hmax : s.maxsize = 2 ^ 31 := by
    have h₁ := hR.size_le
    have h₂ := hR.capacity.le
    omega
  have hgrow : s.grow = none := by
    rw [grow, hmax]
    exact if_neg (by decide)
  rw [HeapScheduler.insert, heapInsert, if_pos (by rw [hsize, hmax]), hgrow]
  rfl

/-- Fewer than `2 ^ 32` insertions are not enough: after `2 ^ 31` of them the next one fails. -/
theorem heap_run_overflow :
    ¬∀ (s₀ : Heap ℕ) (ops : List (SchedulerOp ℕ)), s₀.Empty →
      AdmissibleRun Counted.Admitted Counted.next ⟨⟨[]⟩, 0⟩ ops →
      ∃ s l os, run HeapScheduler.step s₀ ops = some (s, os) ∧
        run ListScheduler.step ⟨[]⟩ ops = some (l, os) := by
  intro hall
  have hempty : (⟨fun _ => ⟨0, 0, ⟨0, 0⟩⟩, 0, 0, 32⟩ : Heap ℕ).Empty := ⟨rfl, rfl, rfl⟩
  have hfilled : Filled ⟨⟨[]⟩, 0⟩ 0 := ⟨rfl, rfl, by simp⟩
  obtain ⟨s₁, os₁, q, hrun, hR, hq⟩ := run_fill (2 ^ 31) (refines_empty hempty) hfilled (by decide)
  obtain ⟨s, l, os, hs, -⟩ := hall _ (fill 0 (2 ^ 31 + 1)) hempty
    (fill_admissible _ hfilled (by decide))
  rw [Nat.zero_add] at hq
  rw [fill_succ, run_append_of_run hrun, run, HeapScheduler.step, insert_full hR hq] at hs
  simp at hs

end HeapScheduler

end NetworkSimulator
