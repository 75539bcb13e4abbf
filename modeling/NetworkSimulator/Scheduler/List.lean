import NetworkSimulator.Library.Runs
import NetworkSimulator.Library.StableOrder

/-!
# Events, the stable queue and `ListScheduler`

`StableQueue` says what an event scheduler is for: the pending events in the order of their
insertion, of which `deque` takes the first one with the least time. `ListScheduler` is the
linear list of `common/scheduler.cc`, which keeps that order in its single list; the splay and
heap schedulers are compared with it, the calendar queue with the stable queue itself.
-/

namespace NetworkSimulator
open Library

/-- `class Event`: the object is named by its `uid_`, which `Scheduler::schedule` draws from a
counter. The links `next_` and `prev_` belong to the scheduler that holds the event. -/
structure Event (T : Type) where
  uid : ℤ
  time : T
deriving DecidableEq, Repr

/-- The calls made on a scheduler. -/
inductive SchedulerOp (T : Type) where
  | insert (e : Event T)
  | cancel (e : Event T)
  | deque
deriving Repr

/-- The pending events in the order of insertion and the time of the last event returned. -/
structure StableQueue (T : Type) where
  pending : List (Event T)
  clock : T

namespace StableQueue
variable {T : Type} [LinearOrder T]

/-- The event a `deque` returns: the least time, and among equal times the first inserted. -/
def first (q : StableQueue T) : Option (Event T) := q.pending.argmin Event.time

def next (q : StableQueue T) : SchedulerOp T → StableQueue T
  | .insert e => { q with pending := q.pending ++ [e] }
  | .cancel e => { q with pending := q.pending.erase e }
  | .deque =>
    match q.first with
    | none => q
    | some e => ⟨q.pending.erase e, e.time⟩

def out (q : StableQueue T) : SchedulerOp T → Option (Event T)
  | .insert _ | .cancel _ => none
  | .deque => q.first

lemma first_eq_none {q : StableQueue T} : q.first = none ↔ q.pending = [] := List.argmin_eq_none

/-- The event before which all are later, and after which none is earlier. -/
lemma first_append_cons {l m : List (Event T)} {e : Event T} {t : T}
    (hl : ∀ x ∈ l, e.time < x.time) (hm : ∀ x ∈ m, e.time ≤ x.time) :
    first ⟨l ++ e :: m, t⟩ = some e := argmin_append_cons _ hl hm

lemma next_deque_of_first {q : StableQueue T} {e : Event T} (h : q.first = some e) :
    q.next .deque = ⟨q.pending.erase e, e.time⟩ := by rw [next, h]

lemma next_deque_of_none {q : StableQueue T} (h : q.first = none) : q.next .deque = q := by
  rw [next, h]

/-- What the callers of a scheduler promise: `schedule` gives a fresh positive `uid_` to the event
it inserts, and only a queued event is cancelled. -/
def Admitted (q : StableQueue T) : SchedulerOp T → Prop
  | .insert e => 0 < e.uid ∧ ∀ x ∈ q.pending, x.uid ≠ e.uid
  | .cancel e => e ∈ q.pending
  | .deque => True

/-- Queued events carry distinct positive names. -/
structure Valid (q : StableQueue T) : Prop where
  positive : ∀ e ∈ q.pending, 0 < e.uid
  distinct : (q.pending.map Event.uid).Nodup

lemma Valid.erase {q : StableQueue T} (h : Valid q) (e : Event T) (t : T) :
    Valid ⟨q.pending.erase e, t⟩ where
  positive x hx := h.positive x (List.mem_of_mem_erase hx)
  distinct := h.distinct.sublist (List.erase_sublist.map _)

lemma Valid.next {q : StableQueue T} (h : Valid q) {op : SchedulerOp T} (ha : q.Admitted op) :
    Valid (q.next op) := by
  cases op with
  | insert e =>
    constructor
    · intro x hx
      rcases List.mem_append.mp hx with hx | hx
      · exact h.positive x hx
      · exact List.mem_singleton.mp hx ▸ ha.1
    · simp only [StableQueue.next, List.map_append, List.map_cons, List.map_nil]
      refine List.nodup_append.mpr ⟨h.distinct, List.nodup_singleton _, fun a hl b hr => ?_⟩
      obtain ⟨x, hx, rfl⟩ := List.mem_map.mp hl
      rw [List.mem_singleton.mp hr]
      exact ha.2 x hx
  | cancel e => exact h.erase e _
  | deque =>
    cases hf : q.first with
    | none => rwa [next_deque_of_none hf]
    | some e => rw [next_deque_of_first hf]; exact h.erase e _

omit [LinearOrder T] in
lemma Valid.nodup {q : StableQueue T} (h : Valid q) : q.pending.Nodup := h.distinct.of_map

end StableQueue

/-- `ListScheduler`: the events from `queue_` along `next_`. -/
structure ListScheduler (T : Type) where
  queue : List (Event T)

namespace ListScheduler
variable {T : Type} [LinearOrder T]

/-- `ListScheduler::insert` walks past every event whose time is not after the new one. -/
def insert (s : ListScheduler T) (e : Event T) : ListScheduler T :=
  ⟨insertLast Event.time e s.queue⟩

/-- `ListScheduler::cancel`; `none` is the `abort()` at the end of the list. -/
def cancel (s : ListScheduler T) (e : Event T) : Option (ListScheduler T) :=
  if e.uid ≤ 0 then some s
  else if e ∈ s.queue then some ⟨s.queue.erase e⟩ else none

def deque (s : ListScheduler T) : Option (Event T) × ListScheduler T :=
  match s.queue with
  | [] => (none, s)
  | e :: rest => (some e, ⟨rest⟩)

def step (s : ListScheduler T) : SchedulerOp T → Option (ListScheduler T × Option (Event T))
  | .insert e => some (s.insert e, none)
  | .cancel e => (s.cancel e).map fun s' => (s', none)
  | .deque => some (s.deque.2, s.deque.1)

/-- The list holds the pending events by time, equal times in the order of insertion. -/
structure Refines (s : ListScheduler T) (q : StableQueue T) : Prop where
  ordered : Ordered Event.time s.queue
  classes : ∀ t, keyClass Event.time t s.queue = keyClass Event.time t q.pending

lemma Refines.mem_iff {s : ListScheduler T} {q : StableQueue T} (h : Refines s q) (e : Event T) :
    e ∈ s.queue ↔ e ∈ q.pending := by
  have hm := congrArg (e ∈ ·) (h.classes e.time)
  simpa [mem_keyClass] using hm

lemma Refines.insert {s : ListScheduler T} {q : StableQueue T} (h : Refines s q) (e : Event T) :
    Refines (s.insert e) (q.next (.insert e)) where
  ordered := ordered_insertLast _ h.ordered
  classes t := by
    rw [ListScheduler.insert, keyClass_insertLast _ h.ordered, keyClass_append, h.classes,
      ← keyClass_append]
    rfl

lemma Refines.erase {s : ListScheduler T} {q : StableQueue T} (h : Refines s q) (e : Event T)
    (t : T) : Refines ⟨s.queue.erase e⟩ ⟨q.pending.erase e, t⟩ where
  ordered := h.ordered.sublist List.erase_sublist
  classes t := by rw [keyClass_erase, h.classes, ← keyClass_erase]

lemma Refines.first_cons {s : ListScheduler T} {q : StableQueue T} (h : Refines s q)
    {e : Event T} {rest : List (Event T)} (hs : s.queue = e :: rest) : q.first = some e := by
  have ho := h.ordered
  rw [hs] at ho
  have hc : keyClass Event.time e.time q.pending = e :: keyClass Event.time e.time rest := by
    rw [← h.classes, hs, keyClass_cons_self]
  refine argmin_of_keyClass _ hc fun b hb => ?_
  rcases List.mem_cons.mp (hs ▸ (h.mem_iff b).mpr hb) with rfl | hb
  · exact le_rfl
  · exact List.rel_of_pairwise_cons ho hb

lemma Refines.step {s : ListScheduler T} {q : StableQueue T} (h : Refines s q) (hv : q.Valid)
    {op : SchedulerOp T} (ha : q.Admitted op) :
    ∃ s', s.step op = some (s', q.out op) ∧ Refines s' (q.next op) := by
  cases op with
  | insert e => exact ⟨s.insert e, rfl, h.insert e⟩
  | cancel e =>
    have hm : e ∈ s.queue := (h.mem_iff e).mpr ha
    refine ⟨⟨s.queue.erase e⟩, ?_, h.erase e _⟩
    rw [ListScheduler.step, cancel, if_neg (not_le.mpr (hv.positive e ha)), if_pos hm]
    rfl
  | deque =>
    cases hs : s.queue with
    | nil =>
      have hp : q.pending = [] := List.eq_nil_iff_forall_not_mem.mpr fun e he => by
        simpa [hs] using (h.mem_iff e).mpr he
      have hf := StableQueue.first_eq_none.mpr hp
      refine ⟨s, ?_, by rwa [StableQueue.next_deque_of_none hf]⟩
      rw [ListScheduler.step, deque, hs, StableQueue.out, hf]
    | cons e rest =>
      have hf := h.first_cons hs
      refine ⟨⟨rest⟩, ?_, ?_⟩
      · rw [ListScheduler.step, deque, hs, StableQueue.out, hf]
      · rw [StableQueue.next_deque_of_first hf]
        have he := h.erase e e.time
        rwa [hs, List.erase_cons_head] at he

/-- `ListScheduler` is the stable queue along every run its callers may ask for. -/
theorem run_stable (ops : List (SchedulerOp T)) (t : T)
    (h : AdmissibleRun StableQueue.Admitted StableQueue.next ⟨[], t⟩ ops) :
    ∃ s, run ListScheduler.step ⟨[]⟩ ops =
      some (s, outputs StableQueue.next StableQueue.out ⟨[], t⟩ ops) := by
  have hinit : Refines (⟨[]⟩ : ListScheduler T) ⟨[], t⟩ ∧ (⟨[], t⟩ : StableQueue T).Valid :=
    ⟨⟨List.Pairwise.nil, fun _ => rfl⟩, ⟨by simp, by simp⟩⟩
  obtain ⟨s, hs, -⟩ := run_simulates (R := fun s q => Refines s q ∧ q.Valid)
    (fun s q op hR ha => by
      obtain ⟨s', h₁, h₂⟩ := hR.1.step hR.2 ha
      exact ⟨s', h₁, h₂, hR.2.next ha⟩) ops hinit h
  exact ⟨s, hs⟩

end ListScheduler

end NetworkSimulator
