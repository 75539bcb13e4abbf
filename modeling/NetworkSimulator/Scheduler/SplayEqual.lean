import NetworkSimulator.Scheduler.SplayOrder

/-!
# `SplayScheduler` and `ListScheduler` answer the same

The in-order walk of the splay tree is the list of `ListScheduler`. As long as `uid_` grows from
one insertion to the next, that list is sorted by `(time_, uid_)`, which is what the search of
`cancel` relies on.
-/

namespace NetworkSimulator
open Library

/-- A `ListScheduler` together with the last `uid_` given to an event. -/
structure Issued (T : Type) where
  list : ListScheduler T
  uid : ℤ

namespace Issued
variable {T : Type} [LinearOrder T]

/-- Events carry strictly increasing `uid_`, and only a queued event is cancelled. -/
def Admitted (q : Issued T) : SchedulerOp T → Prop
  | .insert e => q.uid < e.uid
  | .cancel e => e ∈ q.list.queue
  | .deque => True

instance (q : Issued T) : ∀ op, Decidable (q.Admitted op)
  | .insert e => inferInstanceAs (Decidable (q.uid < e.uid))
  | .cancel e => inferInstanceAs (Decidable (e ∈ q.list.queue))
  | .deque => inferInstanceAs (Decidable True)

def next (q : Issued T) : SchedulerOp T → Issued T
  | .insert e => ⟨q.list.insert e, e.uid⟩
  | .cancel e => ⟨(q.list.cancel e).getD q.list, q.uid⟩
  | .deque => ⟨q.list.deque.2, q.uid⟩

def out (q : Issued T) : SchedulerOp T → Option (Event T)
  | .insert _ | .cancel _ => none
  | .deque => q.list.deque.1

/-- The list is sorted by `(time_, uid_)`, and no queued event is newer than the last one. -/
structure Sorted (q : Issued T) : Prop where
  before : q.list.queue.Pairwise SplayScheduler.Before
  uid_le : ∀ e ∈ q.list.queue, e.uid ≤ q.uid

lemma cancel_of_mem {q : Issued T} {e : Event T} (he : e ∈ q.list.queue) :
    q.list.cancel e = some (if e.uid ≤ 0 then q.list else ⟨q.list.queue.erase e⟩) := by
  rw [ListScheduler.cancel, if_pos he]
  split <;> rfl

lemma Sorted.insert {q : Issued T} (h : Sorted q) {e : Event T} (he : q.uid < e.uid) :
    Sorted (q.next (.insert e)) where
  before := earlier_insertLast h.before fun x hx => lt_of_le_of_lt (h.uid_le x hx) he
  uid_le x hx := by
    rcases List.mem_cons.mp ((insertLast_perm _ e _).mem_iff.mp hx) with rfl | hx
    · exact le_rfl
    · exact (h.uid_le x hx).trans he.le

lemma Sorted.next {q : Issued T} (h : Sorted q) {op : SchedulerOp T} (ha : q.Admitted op) :
    Sorted (q.next op) := by
  cases op with
  | insert e => exact h.insert ha
  | cancel e =>
    rw [Issued.next, cancel_of_mem ha, Option.getD_some]
    split
    · exact h
    · exact ⟨h.before.sublist List.erase_sublist,
        fun x hx => h.uid_le x (List.mem_of_mem_erase hx)⟩
  | deque =>
    rw [Issued.next, ListScheduler.deque]
    cases hq : q.list.queue with
    | nil => exact h
    | cons e rest =>
      have hb := h.before
      rw [hq] at hb
      exact ⟨(List.pairwise_cons.mp hb).2, fun x hx => h.uid_le x (by rw [hq]; simp [hx])⟩

lemma step_list {q : Issued T} {op : SchedulerOp T} (ha : q.Admitted op) :
    q.list.step op = some ((q.next op).list, q.out op) := by
  cases op with
  | insert e => rfl
  | cancel e =>
    rw [ListScheduler.step, Issued.next, cancel_of_mem ha]
    rfl
  | deque => rfl

end Issued

namespace SplayScheduler
variable {T : Type} [LinearOrder T]

/-- The walk of the tree is the list. -/
structure Refines (s : SplayScheduler T) (q : Issued T) : Prop where
  walk : s.Walk q.list.queue
  sorted : q.Sorted
  qsize_eq : s.qsize = q.list.queue.length

lemma Refines.step {s : SplayScheduler T} {q : Issued T} (h : Refines s q) {op : SchedulerOp T}
    (ha : q.Admitted op) :
    ∃ s', s.step op = some (s', q.out op) ∧ Refines s' (q.next op) := by
  have hnext := h.sorted.next ha
  cases op with
  | insert e =>
    have hnot : e ∉ q.list.queue := fun hmem => absurd (h.sorted.uid_le e hmem) (not_le.mpr ha)
    obtain ⟨s', heq, hwalk, hsize⟩ :=
      insert_walk h.walk (nodup_of_earlier h.sorted.before) (ordered_of_earlier h.sorted.before)
        h.qsize_eq hnot
    refine ⟨s', by rw [SplayScheduler.step, heq]; rfl, hwalk, hnext, ?_⟩
    rw [hsize]
    exact (insertLast_perm Event.time e q.list.queue).length_eq.symm
  | cancel e =>
    rw [Issued.next, Issued.cancel_of_mem ha, Option.getD_some] at hnext ⊢
    by_cases huid : e.uid ≤ 0
    · refine ⟨s, ?_, ?_⟩
      · rw [SplayScheduler.step, cancel, if_pos huid]
        rfl
      · rw [if_pos huid]
        exact h
    · obtain ⟨s', heq, hwalk, hsize⟩ := cancel_walk h.walk h.sorted.before
        (nodup_of_earlier h.sorted.before) ha (not_le.mp huid) h.qsize_eq
      rw [if_neg huid] at hnext ⊢
      exact ⟨s', by rw [SplayScheduler.step, heq]; rfl, hwalk, hnext, hsize⟩
  | deque =>
    cases hq : q.list.queue with
    | nil =>
      have hroot : s.link .root = none := by
        have hwalk := h.walk
        rw [hq] at hwalk
        exact hwalk.none_of_nil
      refine ⟨s, ?_, ?_⟩
      · rw [SplayScheduler.step, SplayScheduler.deque, hroot, Issued.out, ListScheduler.deque, hq]
        rfl
      · rw [Issued.next, ListScheduler.deque, hq]
        exact h
    | cons e rest =>
      have hwalk := h.walk
      have hnodup := nodup_of_earlier h.sorted.before
      have hsize := h.qsize_eq
      rw [hq] at hwalk hnodup hsize
      obtain ⟨s', heq, hwalk', hsize'⟩ := deque_walk hwalk hnodup hsize
      rw [Issued.next, ListScheduler.deque, hq] at hnext ⊢
      refine ⟨s', ?_, hwalk', hnext, hsize'⟩
      rw [SplayScheduler.step, heq, Issued.out, ListScheduler.deque, hq]
      rfl

/-- Both schedulers answer the same along every run; no search of `cancel` fails, and in the end
the in-order walk is the list, sorted by `(time_, uid_)`. -/
theorem splay_run_eq_list (s₀ : SplayScheduler T) (h₀ : s₀.Empty) (uid : ℤ)
    (ops : List (SchedulerOp T)) (h : AdmissibleRun Issued.Admitted Issued.next ⟨⟨[]⟩, uid⟩ ops) :
    ∃ s l os, run SplayScheduler.step s₀ ops = some (s, os) ∧
      run ListScheduler.step ⟨[]⟩ ops = some (l, os) ∧
      s.Walk l.queue ∧ l.queue.Pairwise Before := by
  have hinit : Refines s₀ ⟨⟨[]⟩, uid⟩ := by
    refine ⟨?_, ⟨List.Pairwise.nil, by simp⟩, h₀.2⟩
    rw [Walk, h₀.1]
    exact .nil
  have hstep : ∀ (s : SplayScheduler T) (q : Issued T) (op : SchedulerOp T), Refines s q →
      q.Admitted op → ∃ s', s.step op = some (s', q.out op) ∧ Refines s' (q.next op) :=
    fun _ _ _ hR ha => hR.step ha
  obtain ⟨s, hs, hR⟩ := run_simulates hstep ops hinit h
  obtain ⟨l, hl, rfl⟩ := run_simulates (R := fun l q => q.list = l)
    (fun l q op hR ha => ⟨(q.next op).list, hR ▸ q.step_list ha, rfl⟩) ops rfl h
  exact ⟨s, _, _, hs, hl, hR.walk, hR.sorted.before⟩

/-- Three events of one time, the middle one cancelled. -/
theorem splay_run_three_events :
    ∃ s l os, run SplayScheduler.step ⟨fun _ => none, 0⟩
        [.insert ⟨1, 5⟩, .insert ⟨2, 5⟩, .insert ⟨3, 5⟩, .cancel ⟨2, 5⟩, .deque] = some (s, os) ∧
      run ListScheduler.step ⟨[]⟩
        [.insert ⟨1, 5⟩, .insert ⟨2, 5⟩, .insert ⟨3, 5⟩, .cancel ⟨2, 5⟩, .deque] = some (l, os) ∧
      s.Walk l.queue ∧ l.queue.Pairwise (Before (T := ℕ)) :=
  splay_run_eq_list ⟨fun _ => none, 0⟩ ⟨rfl, rfl⟩ 0 _
    ⟨by decide, by decide, by decide, by decide, trivial, trivial⟩

end SplayScheduler

end NetworkSimulator
