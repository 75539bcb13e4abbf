import Mathlib.Algebra.Order.Ring.Rat
import Mathlib.Data.List.Perm.Basic
import Mathlib.Logic.Function.Basic
import NetworkSimulator.Scheduler.List

/-!
# Scheduling and dispatching

What `Scheduler` does around the list of pending events: an event gets its `uid_` and its time from `schedule`, and
the turn of the loop of `run` takes the first event and sets the clock. The agenda says what this is for.
-/

namespace NetworkSimulator
open Library

/-- `Scheduler` over the list of `ListScheduler`. The objects of class `Event` are named by `ε`, and the counter has
no bound. -/
structure Scheduler (ε : Type) where
  clock : ℚ
  uid : ℤ
  eventUid : ε → ℤ
  eventTime : ε → ℚ
  queue : List ε

namespace Scheduler
variable {ε : Type} [DecidableEq ε]

def init : Scheduler ε := ⟨0, 1, fun _ => 0, fun _ => 0, []⟩

/-- `none` is one of the calls of `abort()`. -/
def schedule (s : Scheduler ε) (e : ε) (delay : ℚ) : Option (Scheduler ε) :=
  if 0 < s.eventUid e then none
  else if s.uid < 0 then none
  else
    let time := Function.update s.eventTime e (s.clock + delay)
    some { s with
      uid := s.uid + 1
      eventUid := Function.update s.eventUid e s.uid
      eventTime := time
      queue := insertLast time e s.queue }

def cancel (s : Scheduler ε) (e : ε) : Option (Scheduler ε) :=
  if s.eventUid e ≤ 0 then some s
  else if e ∈ s.queue then
    some { s with queue := s.queue.erase e, eventUid := Function.update s.eventUid e (-s.eventUid e) }
  else none

/-- One turn of `run`, as far as the call of the handler. -/
def dispatch (s : Scheduler ε) : Option (Scheduler ε × Option ε) :=
  match s.queue with
  | [] => some (s, none)
  | p :: rest =>
    if s.eventTime p < s.clock then none
    else
      some ({ s with
        clock := s.eventTime p
        eventUid := Function.update s.eventUid p (-s.eventUid p)
        queue := rest }, some p)

end Scheduler

/-- The pending events with their times, in the order in which they were scheduled. -/
structure Agenda (ε : Type) where
  clock : ℚ
  pending : List (ε × ℚ)

namespace Agenda
variable {ε : Type} [DecidableEq ε]

def Has (a : Agenda ε) (e : ε) : Prop := e ∈ a.pending.map Prod.fst

instance (a : Agenda ε) (e : ε) : Decidable (a.Has e) := inferInstanceAs (Decidable (_ ∈ _))

/-- An event that is pending cannot be scheduled. -/
def schedule (a : Agenda ε) (e : ε) (delay : ℚ) : Option (Agenda ε) :=
  if a.Has e then none else some { a with pending := a.pending ++ [(e, a.clock + delay)] }

def cancel (a : Agenda ε) (e : ε) : Agenda ε := { a with pending := a.pending.filter fun p => p.1 ≠ e }

/-- The earliest event, and among equal times the one that was scheduled first. -/
def dispatch (a : Agenda ε) : Option (Agenda ε × Option ε) :=
  match a.pending.argmin Prod.snd with
  | none => some (a, none)
  | some p => if p.2 < a.clock then none else some ({ a.cancel p.1 with clock := p.2 }, some p.1)

omit [DecidableEq ε] in
lemma has_iff {a : Agenda ε} {e : ε} : a.Has e ↔ ∃ t, (e, t) ∈ a.pending := by
  simp [Has]

lemma has_cancel {a : Agenda ε} {e f : ε} : (a.cancel e).Has f ↔ a.Has f ∧ f ≠ e := by
  simp [Has, cancel, and_comm]

lemma cancel_of_not_has {a : Agenda ε} {e : ε} (h : ¬a.Has e) : a.cancel e = a := by
  have hall : a.pending.filter (fun p => p.1 ≠ e) = a.pending := by
    apply List.filter_eq_self.mpr
    intro p hp
    exact decide_eq_true fun heq => h (has_iff.mpr ⟨p.2, heq ▸ hp⟩)
  rw [cancel, hall]

lemma has_schedule {a a' : Agenda ε} {e f : ε} {d : ℚ} (h : a.schedule e d = some a') :
    a'.Has f ↔ a.Has f ∨ f = e := by
  unfold schedule at h
  split_ifs at h
  obtain rfl := Option.some.inj h
  simp [Has]

lemma has_dispatch {a a' : Agenda ε} {e f : ε} (h : a.dispatch = some (a', some e)) :
    a.Has e ∧ (a'.Has f ↔ a.Has f ∧ f ≠ e) := by
  unfold dispatch at h
  cases hmin : a.pending.argmin Prod.snd with
  | none =>
    rw [hmin] at h
    simp at h
  | some p =>
    rw [hmin] at h
    dsimp only at h
    split_ifs at h
    obtain ⟨rfl, hp⟩ := Prod.mk.inj (Option.some.inj h)
    obtain rfl := Option.some.inj hp
    exact ⟨has_iff.mpr ⟨p.2, List.argmin_mem hmin⟩, has_cancel⟩

lemma eq_of_dispatch {a a' : Agenda ε} (h : a.dispatch = some (a', none)) : a' = a := by
  unfold dispatch at h
  cases hmin : a.pending.argmin Prod.snd with
  | none =>
    rw [hmin] at h
    exact (Prod.mk.inj (Option.some.inj h)).1.symm
  | some p =>
    rw [hmin] at h
    dsimp only at h
    split_ifs at h
    simp at h

end Agenda

namespace Scheduler
variable {ε : Type} [DecidableEq ε]

/-- The queue holds the agenda by time, equal times in the order of scheduling. -/
structure Refines (s : Scheduler ε) (a : Agenda ε) : Prop where
  clock : s.clock = a.clock
  positive : 0 < s.uid
  sorted : s.queue.Pairwise (Earlier s.eventTime s.eventUid)
  perm : s.queue.Perm (a.pending.map Prod.fst)
  times : ∀ p ∈ a.pending, s.eventTime p.1 = p.2
  numbered : a.pending.Pairwise fun p q => s.eventUid p.1 < s.eventUid q.1
  below : ∀ e ∈ s.queue, s.eventUid e < s.uid
  queued : ∀ e, 0 < s.eventUid e ↔ e ∈ s.queue

omit [DecidableEq ε] in
lemma refines_init : (init : Scheduler ε).Refines ⟨0, []⟩ :=
  ⟨rfl, Int.one_pos, List.Pairwise.nil, List.Perm.refl _, fun _ h => absurd h List.not_mem_nil, List.Pairwise.nil,
    fun _ h => absurd h List.not_mem_nil, fun _ => iff_of_false (lt_irrefl 0) List.not_mem_nil⟩

namespace Refines
variable {s : Scheduler ε} {a : Agenda ε} (h : s.Refines a)
include h

omit [DecidableEq ε] in
lemma has_iff (e : ε) : a.Has e ↔ e ∈ s.queue := h.perm.mem_iff.symm

omit [DecidableEq ε] in
lemma uid_pos_iff (e : ε) : 0 < s.eventUid e ↔ a.Has e := (h.queued e).trans (h.has_iff e).symm

omit [DecidableEq ε] in
lemma nodup : (a.pending.map Prod.fst).Nodup := h.perm.nodup_iff.mp (nodup_of_earlier h.sorted)

lemma schedule (e : ε) (d : ℚ) : Option.Rel Refines (s.schedule e d) (a.schedule e d) := by
  unfold Scheduler.schedule Agenda.schedule
  by_cases hhas : a.Has e
  · rw [if_pos ((h.uid_pos_iff e).mpr hhas), if_pos hhas]
    exact .none
  · have hmem : e ∉ s.queue := fun hmem => hhas ((h.has_iff e).mpr hmem)
    rw [if_neg (fun hpos => hhas ((h.uid_pos_iff e).mp hpos)), if_neg h.positive.not_gt, if_neg hhas]
    refine .some ?_
    have hold : ∀ f ∈ s.queue, f ≠ e := fun f hf heq => hmem (heq ▸ hf)
    have holdPending : ∀ p ∈ a.pending, p.1 ≠ e := fun p hp heq => hhas (heq ▸ List.mem_map_of_mem hp)
    have huid : ∀ f ∈ s.queue, Function.update s.eventUid e s.uid f = s.eventUid f := fun f hf =>
      Function.update_of_ne (hold f hf) _ _
    have hperm := insertLast_perm (Function.update s.eventTime e (s.clock + d)) e s.queue
    constructor
    · exact h.clock
    · exact h.positive.trans (lt_add_one s.uid)
    · apply earlier_insertLast
      · refine h.sorted.imp_of_mem fun {f g} hf hg hfg => ?_
        dsimp only [Earlier] at hfg ⊢
        rwa [huid f hf, huid g hg, Function.update_of_ne (hold f hf), Function.update_of_ne (hold g hg)]
      · intro f hf
        dsimp only
        rw [huid f hf, Function.update_self]
        exact h.below f hf
    · rw [List.map_append]
      exact hperm.trans ((List.perm_append_singleton e _).symm.trans (h.perm.append_right [e]))
    · intro p hp
      dsimp only
      rcases List.mem_append.mp hp with hp | hp
      · rw [Function.update_of_ne (holdPending p hp)]
        exact h.times p hp
      · obtain rfl := List.mem_singleton.mp hp
        rw [Function.update_self, h.clock]
    · refine List.pairwise_append.mpr ⟨?_, List.pairwise_singleton _ _, fun p hp q hq => ?_⟩
      · refine h.numbered.imp_of_mem fun {p q} hp hq hpq => ?_
        dsimp only
        rwa [Function.update_of_ne (holdPending p hp), Function.update_of_ne (holdPending q hq)]
      · obtain rfl := List.mem_singleton.mp hq
        dsimp only
        rw [Function.update_of_ne (holdPending p hp), Function.update_self]
        exact h.below p.1 ((h.has_iff p.1).mp (List.mem_map_of_mem hp))
    · intro f hf
      dsimp only
      rcases List.mem_cons.mp (hperm.mem_iff.mp hf) with rfl | hf
      · rw [Function.update_self]
        exact lt_add_one s.uid
      · rw [huid f hf]
        exact (h.below f hf).trans (lt_add_one s.uid)
    · intro f
      dsimp only
      rw [hperm.mem_iff, List.mem_cons]
      by_cases hfe : f = e
      · subst hfe
        rw [Function.update_self]
        exact iff_of_true h.positive (Or.inl rfl)
      · rw [Function.update_of_ne hfe, h.queued f, or_iff_right hfe]

/-- An event is taken out of the queue. -/
lemma remove {e : ε} (hmem : e ∈ s.queue) (t : ℚ) :
    Refines { s with
      clock := t, queue := s.queue.erase e, eventUid := Function.update s.eventUid e (-s.eventUid e) }
      { a.cancel e with clock := t } := by
  have hnodup := nodup_of_earlier h.sorted
  have hne : ∀ f ∈ s.queue.erase e, f ≠ e := fun f hf => (hnodup.mem_erase_iff.mp hf).1
  have huid : ∀ f ∈ s.queue.erase e, Function.update s.eventUid e (-s.eventUid e) f = s.eventUid f := fun f hf =>
    Function.update_of_ne (hne f hf) _ _
  have hkept : ∀ p ∈ (a.cancel e).pending, p ∈ a.pending ∧ p.1 ≠ e := fun p hp => by
    simpa [Agenda.cancel] using hp
  constructor
  · rfl
  · exact h.positive
  · refine (h.sorted.sublist List.erase_sublist).imp_of_mem fun {f g} hf hg hfg => ?_
    dsimp only [Earlier] at hfg ⊢
    rwa [huid f hf, huid g hg]
  · have hmap : (a.cancel e).pending.map Prod.fst = (a.pending.map Prod.fst).erase e := by
      rw [h.nodup.erase_eq_filter, List.filter_map]
      congr 1
      apply List.filter_congr
      intro p _
      by_cases hpe : p.1 = e <;> simp [hpe]
    rw [hmap]
    exact h.perm.erase e
  · exact fun p hp => h.times p (hkept p hp).1
  · refine (h.numbered.sublist List.filter_sublist).imp_of_mem fun {p q} hp hq hpq => ?_
    dsimp only
    rwa [Function.update_of_ne (hkept p hp).2, Function.update_of_ne (hkept q hq).2]
  · intro f hf
    dsimp only
    rw [huid f hf]
    exact h.below f (List.mem_of_mem_erase hf)
  · intro f
    dsimp only
    by_cases hfe : f = e
    · subst hfe
      have hpos := (h.queued f).mpr hmem
      rw [Function.update_self]
      exact iff_of_false (by omega) fun hf => hne f hf rfl
    · rw [Function.update_of_ne hfe, h.queued f, List.mem_erase_of_ne hfe]

lemma cancel (e : ε) : ∃ s', s.cancel e = some s' ∧ s'.Refines (a.cancel e) := by
  unfold Scheduler.cancel
  by_cases hmem : e ∈ s.queue
  · rw [if_neg ((h.queued e).mpr hmem).not_ge, if_pos hmem]
    refine ⟨_, rfl, ?_⟩
    have hremove := h.remove hmem s.clock
    rwa [show ({ a.cancel e with clock := s.clock } : Agenda ε) = a.cancel e by rw [h.clock]; rfl] at hremove
  · rw [if_pos (not_lt.mp fun hpos => hmem ((h.queued e).mp hpos)),
      Agenda.cancel_of_not_has fun hhas => hmem ((h.has_iff e).mp hhas)]
    exact ⟨s, rfl, h⟩

omit [DecidableEq ε] in
/-- The first event of the queue is the earliest one of the agenda. -/
lemma argmin_eq {e : ε} {rest : List ε} (hq : s.queue = e :: rest) :
    a.pending.argmin Prod.snd = some (e, s.eventTime e) := by
  have hsorted := h.sorted
  rw [hq, List.pairwise_cons] at hsorted
  obtain ⟨t, hmem⟩ := Agenda.has_iff.mp ((h.has_iff e).mpr (by rw [hq]; exact List.mem_cons_self))
  have ht : s.eventTime e = t := h.times (e, t) hmem
  obtain ⟨l, m, hsplit⟩ := List.append_of_mem hmem
  have hnumbered := h.numbered
  rw [hsplit, List.pairwise_append] at hnumbered
  have hlater : ∀ p ∈ a.pending, p.1 ≠ e → Earlier s.eventTime s.eventUid e p.1 := fun p hp hne => by
    have hp := (h.has_iff p.1).mp (List.mem_map_of_mem hp)
    rw [hq] at hp
    exact hsorted.1 p.1 (List.mem_of_ne_of_mem hne hp)
  have hnodup := h.nodup
  rw [hsplit, List.map_append, List.map_cons, List.nodup_middle, List.nodup_cons] at hnodup
  have hother : ∀ p ∈ l ++ m, p.1 ≠ e := fun p hp heq => by
    rw [← List.map_append] at hnodup
    have hfst := List.mem_map_of_mem (f := Prod.fst) hp
    rw [heq] at hfst
    exact hnodup.1 hfst
  rw [ht, hsplit]
  apply argmin_append_cons
  · intro p hp
    have hpa : p ∈ a.pending := by rw [hsplit]; exact List.mem_append_left _ hp
    have hbefore := hnumbered.2.2 p hp (e, t) List.mem_cons_self
    rcases hlater p hpa (hother p (List.mem_append_left m hp)) with hlt | ⟨-, hlt⟩
    · rwa [ht, h.times p hpa] at hlt
    · exact absurd hlt hbefore.not_gt
  · intro p hp
    have hpa : p ∈ a.pending := by rw [hsplit]; exact List.mem_append_right _ (List.mem_cons_of_mem _ hp)
    rcases hlater p hpa (hother p (List.mem_append_right l hp)) with hlt | ⟨heq, -⟩
    · rw [ht, h.times p hpa] at hlt
      exact hlt.le
    · rw [ht, h.times p hpa] at heq
      exact heq.le

lemma dispatch : Option.Rel (fun p q => Refines p.1 q.1 ∧ p.2 = q.2) s.dispatch a.dispatch := by
  unfold Scheduler.dispatch Agenda.dispatch
  cases hq : s.queue with
  | nil =>
    have hperm := h.perm
    rw [hq] at hperm
    have hnil : a.pending = [] := List.map_eq_nil_iff.mp hperm.nil_eq.symm
    rw [hnil]
    exact .some ⟨h, rfl⟩
  | cons e rest =>
    rw [h.argmin_eq hq]
    dsimp only
    rw [h.clock]
    split_ifs
    · exact .none
    · have hremove := h.remove (e := e) (by rw [hq]; exact List.mem_cons_self) (s.eventTime e)
      rw [hq, List.erase_cons_head] at hremove
      exact .some ⟨hremove, rfl⟩

end Refines

/-- No event lies behind the clock. -/
structure Orderly (s : Scheduler ε) : Prop where
  refines : ∃ a, s.Refines a
  ahead : ∀ e ∈ s.queue, s.clock ≤ s.eventTime e

omit [DecidableEq ε] in
lemma orderly_init : (init : Scheduler ε).Orderly :=
  ⟨⟨_, refines_init⟩, fun _ h => absurd h List.not_mem_nil⟩

namespace Orderly
variable {s : Scheduler ε} (h : s.Orderly)
include h

omit [DecidableEq ε] in
lemma ordered : Ordered s.eventTime s.queue := by
  obtain ⟨a, ha⟩ := h.refines
  exact ordered_of_earlier ha.sorted

omit [DecidableEq ε] in
lemma nodup : s.queue.Nodup := by
  obtain ⟨a, ha⟩ := h.refines
  exact nodup_of_earlier ha.sorted

/-- An event that is not pending can be scheduled. -/
lemma schedule {e : ε} {d : ℚ} (he : e ∉ s.queue) (hd : 0 ≤ d) :
    ∃ s', s.schedule e d = some s' ∧ s'.Orderly ∧ s'.clock = s.clock ∧
      s'.eventTime = Function.update s.eventTime e (s.clock + d) ∧
      s'.queue = insertLast (Function.update s.eventTime e (s.clock + d)) e s.queue := by
  obtain ⟨a, ha⟩ := h.refines
  have hschedule : s.schedule e d = some { s with
      uid := s.uid + 1
      eventUid := Function.update s.eventUid e s.uid
      eventTime := Function.update s.eventTime e (s.clock + d)
      queue := insertLast (Function.update s.eventTime e (s.clock + d)) e s.queue } := by
    unfold Scheduler.schedule
    rw [if_neg fun hpos => he ((ha.queued e).mp hpos), if_neg ha.positive.not_gt]
  have hrel := ha.schedule e d
  rw [hschedule] at hrel
  refine ⟨_, hschedule, ⟨?_, fun f hf => ?_⟩, rfl, rfl, rfl⟩
  · generalize a.schedule e d = b at hrel
    cases hrel with
    | some hrefines => exact ⟨_, hrefines⟩
  · dsimp only at hf ⊢
    rcases List.mem_cons.mp ((insertLast_perm _ e s.queue).mem_iff.mp hf) with rfl | hf
    · rw [Function.update_self]
      exact le_add_of_nonneg_right hd
    · rw [Function.update_of_ne (ne_of_mem_of_not_mem hf he)]
      exact h.ahead f hf

lemma cancel (e : ε) : ∃ s', s.cancel e = some s' ∧ s'.Orderly ∧ s'.clock = s.clock ∧
    s'.eventTime = s.eventTime ∧ s'.queue = s.queue.erase e := by
  obtain ⟨a, ha⟩ := h.refines
  obtain ⟨s', hs', hrefines⟩ := ha.cancel e
  have hcancel := hs'
  unfold Scheduler.cancel at hcancel
  by_cases hmem : e ∈ s.queue
  · rw [if_neg ((ha.queued e).mpr hmem).not_ge, if_pos hmem] at hcancel
    obtain rfl := Option.some.inj hcancel
    exact ⟨_, hs', ⟨⟨_, hrefines⟩, fun f hf => h.ahead f (List.mem_of_mem_erase hf)⟩, rfl, rfl, rfl⟩
  · rw [if_pos (not_lt.mp fun hpos => hmem ((ha.queued e).mp hpos))] at hcancel
    obtain rfl := Option.some.inj hcancel
    exact ⟨_, hs', h, rfl, rfl, (List.erase_of_not_mem hmem).symm⟩

/-- The first event sets the clock to its time. -/
lemma dispatch {e : ε} {rest : List ε} (hq : s.queue = e :: rest) :
    ∃ s', s.dispatch = some (s', some e) ∧ s'.Orderly ∧ s'.clock = s.eventTime e ∧ s'.eventTime = s.eventTime ∧
      s'.queue = rest := by
  obtain ⟨a, ha⟩ := h.refines
  have hahead : s.clock ≤ s.eventTime e := h.ahead e (by rw [hq]; exact List.mem_cons_self)
  have hordered := h.ordered
  rw [hq] at hordered
  have hdispatch : s.dispatch = some ({ s with
      clock := s.eventTime e
      eventUid := Function.update s.eventUid e (-s.eventUid e)
      queue := rest }, some e) := by
    unfold Scheduler.dispatch
    rw [hq]
    exact if_neg hahead.not_gt
  have hrel := ha.dispatch
  rw [hdispatch] at hrel
  refine ⟨_, hdispatch, ⟨?_, fun f hf => (List.pairwise_cons.mp hordered).1 f hf⟩, rfl, rfl, rfl⟩
  generalize a.dispatch = b at hrel
  cases hrel with
  | some hrefines => exact ⟨_, hrefines.1⟩

end Orderly

end Scheduler

end NetworkSimulator
