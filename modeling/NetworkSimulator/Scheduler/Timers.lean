import Mathlib.Data.Sum.Basic
import NetworkSimulator.Scheduler.Dispatch

/-!
# Timers

A `TimerHandler` has one event and a status, and all timers share the scheduler with the other events of the
simulation. What a timer is for is its deadline, which each `sched` or `resched` sets and `cancel` takes away. The two
agree on every sequence of calls, those made while `expire` runs included.
-/

namespace NetworkSimulator
open Library

inductive TimerStatus
  | TIMER_IDLE
  | TIMER_PENDING
  | TIMER_HANDLING
  deriving DecidableEq, Repr

/-- The calls on the timers `ι` and on the other events `κ`. A turn of `Scheduler::run` is `dispatch`; when it is a
timer's, its `expire` runs until `expireReturns`. -/
inductive TimerCall (ι κ : Type)
  | sched (i : ι) (delay : ℚ)
  | resched (i : ι) (delay : ℚ)
  | cancel (i : ι)
  | forceCancel (i : ι)
  | schedule (e : κ) (delay : ℚ)
  | cancelEvent (e : κ)
  | dispatch
  | expireReturns

/-- The objects of class `TimerHandler` and the one whose `expire` runs. -/
structure TimerHandlers (ι κ : Type) where
  scheduler : Scheduler (ι ⊕ κ)
  status : ι → TimerStatus
  running : Option ι

variable {ι κ : Type} [DecidableEq ι] [DecidableEq κ]

namespace TimerHandlers

def init : TimerHandlers ι κ := ⟨.init, fun _ => .TIMER_IDLE, none⟩

def setStatus (s : TimerHandlers ι κ) (i : ι) (status : TimerStatus) : TimerHandlers ι κ :=
  { s with status := Function.update s.status i status }

def cancel (s : TimerHandlers ι κ) (i : ι) : Option (TimerHandlers ι κ) :=
  if s.status i ≠ .TIMER_PENDING then none
  else (s.scheduler.cancel (.inl i)).map fun scheduler => { s with scheduler }.setStatus i .TIMER_IDLE

def forceCancel (s : TimerHandlers ι κ) (i : ι) : Option (TimerHandlers ι κ) :=
  if s.status i = .TIMER_PENDING then
    (s.scheduler.cancel (.inl i)).map fun scheduler => { s with scheduler }.setStatus i .TIMER_IDLE
  else some s

def sched (s : TimerHandlers ι κ) (i : ι) (delay : ℚ) : Option (TimerHandlers ι κ) :=
  if s.status i ≠ .TIMER_IDLE then none
  else (s.scheduler.schedule (.inl i) delay).map fun scheduler => { s with scheduler }.setStatus i .TIMER_PENDING

def resched (s : TimerHandlers ι κ) (i : ι) (delay : ℚ) : Option (TimerHandlers ι κ) :=
  ((if s.status i = .TIMER_PENDING then s.scheduler.cancel (.inl i) else some s.scheduler).bind fun scheduler =>
    scheduler.schedule (.inl i) delay).map fun scheduler => { s with scheduler }.setStatus i .TIMER_PENDING

/-- `handle` as far as the call of `expire`. -/
def handle (s : TimerHandlers ι κ) (i : ι) : Option (TimerHandlers ι κ) :=
  if s.status i ≠ .TIMER_PENDING then none else some { s.setStatus i .TIMER_HANDLING with running := some i }

/-- The rest of `handle`. -/
def expireReturns (s : TimerHandlers ι κ) : Option (TimerHandlers ι κ) :=
  s.running.map fun i =>
    { (if s.status i = .TIMER_HANDLING then s.setStatus i .TIMER_IDLE else s) with running := none }

/-- The next event is taken only when its predecessor has been handled. -/
def dispatch (s : TimerHandlers ι κ) : Option (TimerHandlers ι κ × Option ((ι ⊕ κ) × ℚ)) :=
  if s.running.isSome then none
  else s.scheduler.dispatch.bind fun r =>
    match r.2 with
    | none => some ({ s with scheduler := r.1 }, none)
    | some (.inl i) => ({ s with scheduler := r.1 }.handle i).map fun s => (s, some (.inl i, r.1.clock))
    | some (.inr e) => some ({ s with scheduler := r.1 }, some (.inr e, r.1.clock))

def step (s : TimerHandlers ι κ) : TimerCall ι κ → Option (TimerHandlers ι κ × Option ((ι ⊕ κ) × ℚ))
  | .sched i delay => (s.sched i delay).map fun s => (s, none)
  | .resched i delay => (s.resched i delay).map fun s => (s, none)
  | .cancel i => (s.cancel i).map fun s => (s, none)
  | .forceCancel i => (s.forceCancel i).map fun s => (s, none)
  | .schedule e delay => (s.scheduler.schedule (.inr e) delay).map fun scheduler => ({ s with scheduler }, none)
  | .cancelEvent e => (s.scheduler.cancel (.inr e)).map fun scheduler => ({ s with scheduler }, none)
  | .dispatch => s.dispatch
  | .expireReturns => s.expireReturns.map fun s => (s, none)

end TimerHandlers

/-- The deadlines of the timers and the times of the other events. A timer whose `expire` runs is `untouched` until it
is set again. -/
structure Deadlines (ι κ : Type) where
  agenda : Agenda (ι ⊕ κ)
  running : Option ι
  untouched : Bool

namespace Deadlines

def init : Deadlines ι κ := ⟨⟨0, []⟩, none, false⟩

def status (t : Deadlines ι κ) (i : ι) : TimerStatus :=
  if t.agenda.Has (.inl i) then .TIMER_PENDING
  else if t.running = some i ∧ t.untouched then .TIMER_HANDLING else .TIMER_IDLE

def step (t : Deadlines ι κ) : TimerCall ι κ → Option (Deadlines ι κ × Option ((ι ⊕ κ) × ℚ))
  | .sched i delay =>
    if t.status i ≠ .TIMER_IDLE then none
    else (t.agenda.schedule (.inl i) delay).map fun agenda => ({ t with agenda }, none)
  | .resched i delay =>
    ((t.agenda.cancel (.inl i)).schedule (.inl i) delay).map fun agenda =>
      ({ t with agenda, untouched := t.untouched && t.running ≠ some i }, none)
  | .cancel i =>
    if t.agenda.Has (.inl i) then some ({ t with agenda := t.agenda.cancel (.inl i) }, none) else none
  | .forceCancel i => some ({ t with agenda := t.agenda.cancel (.inl i) }, none)
  | .schedule e delay => (t.agenda.schedule (.inr e) delay).map fun agenda => ({ t with agenda }, none)
  | .cancelEvent e => some ({ t with agenda := t.agenda.cancel (.inr e) }, none)
  | .dispatch =>
    if t.running.isSome then none
    else t.agenda.dispatch.map fun r =>
      match r.2 with
      | none => ({ t with agenda := r.1 }, none)
      | some e => (⟨r.1, e.getLeft?, true⟩, some (e, r.1.clock))
  | .expireReturns => if t.running.isSome then some ({ t with running := none }, none) else none

end Deadlines

namespace TimerHandlers

/-- A timer is pending when its event is, and it is not untouched any more when it has been set. -/
structure Refines (s : TimerHandlers ι κ) (t : Deadlines ι κ) : Prop where
  scheduler : s.scheduler.Refines t.agenda
  running : s.running = t.running
  status : s.status = t.status
  touched : ∀ i, t.agenda.Has (.inl i) → t.running = some i → t.untouched = false

lemma refines_init : (init : TimerHandlers ι κ).Refines .init :=
  ⟨Scheduler.refines_init, rfl, rfl, fun _ h => absurd h List.not_mem_nil⟩

end TimerHandlers

namespace Deadlines
variable {t : Deadlines ι κ} {i j : ι}

lemma status_eq_pending : t.status i = .TIMER_PENDING ↔ t.agenda.Has (.inl i) := by
  unfold status
  split_ifs with hhas
  · exact iff_of_true rfl hhas
  · exact iff_of_false nofun hhas
  · exact iff_of_false nofun hhas

lemma status_of_has (h : t.agenda.Has (.inl i)) : t.status i = .TIMER_PENDING := status_eq_pending.mpr h

end Deadlines

namespace TimerHandlers
variable {s : TimerHandlers ι κ} {t : Deadlines ι κ}

lemma Refines.status_pending (h : s.Refines t) (i : ι) : s.status i = .TIMER_PENDING ↔ t.agenda.Has (.inl i) := by
  rw [h.status]
  exact Deadlines.status_eq_pending

/-- An event of another kind comes or goes. -/
lemma Refines.other {scheduler : Scheduler (ι ⊕ κ)} {agenda : Agenda (ι ⊕ κ)} (h : s.Refines t)
    (hs : scheduler.Refines agenda) (hhas : ∀ i, agenda.Has (.inl i) ↔ t.agenda.Has (.inl i)) :
    Refines { s with scheduler } { t with agenda } := by
  refine ⟨hs, h.running, ?_, fun i hi => h.touched i ((hhas i).mp hi)⟩
  funext i
  dsimp only
  rw [h.status, Deadlines.status, Deadlines.status]
  simp only [hhas]

/-- The event of the timer `i` is scheduled. -/
lemma Refines.set {scheduler : Scheduler (ι ⊕ κ)} {agenda : Agenda (ι ⊕ κ)} {u : Bool} {i : ι} (h : s.Refines t)
    (hs : scheduler.Refines agenda) (hhas : ∀ j, agenda.Has (.inl j) ↔ t.agenda.Has (.inl j) ∨ j = i)
    (hu : ∀ j, j ≠ i → t.running = some j → u = t.untouched) (hi : t.running = some i → u = false) :
    Refines ({ s with scheduler }.setStatus i .TIMER_PENDING) { t with agenda, untouched := u } := by
  refine ⟨hs, h.running, ?_, fun j hj hrun => ?_⟩
  · funext j
    dsimp only [setStatus]
    by_cases hji : j = i
    · subst hji
      rw [Function.update_self]
      exact (Deadlines.status_of_has ((hhas j).mpr (Or.inr rfl))).symm
    · rw [Function.update_of_ne hji, h.status, Deadlines.status, Deadlines.status]
      simp only [hhas, hji, or_false]
      by_cases hrun : t.running = some j
      · rw [hu j hji hrun]
      · simp [hrun]
  · by_cases hji : j = i
    · exact hi (hji ▸ hrun)
    · exact (hu j hji hrun).trans (h.touched j (((hhas j).mp hj).resolve_right hji) hrun)

/-- The event of the timer `i` is taken back. -/
lemma Refines.unset {scheduler : Scheduler (ι ⊕ κ)} {i : ι} (h : s.Refines t)
    (hs : scheduler.Refines (t.agenda.cancel (.inl i))) (hpending : t.agenda.Has (.inl i)) :
    Refines ({ s with scheduler }.setStatus i .TIMER_IDLE) { t with agenda := t.agenda.cancel (.inl i) } := by
  refine ⟨hs, h.running, ?_, fun j hj => h.touched j (Agenda.has_cancel.mp hj).1⟩
  funext j
  dsimp only [setStatus]
  by_cases hji : j = i
  · subst hji
    rw [Function.update_self, Deadlines.status, if_neg fun hhas => (Agenda.has_cancel.mp hhas).2 rfl, if_neg]
    rintro ⟨hrun, huntouched⟩
    rw [h.touched j hpending hrun] at huntouched
    exact Bool.false_ne_true huntouched
  · have hne : (Sum.inl j : ι ⊕ κ) ≠ .inl i := fun heq => hji (Sum.inl.inj heq)
    rw [Function.update_of_ne hji, h.status, Deadlines.status, Deadlines.status]
    simp only [Agenda.has_cancel, hne, ne_eq, not_false_eq_true, and_true]

/-- Both fail, or both go on with results that are related. -/
lemma rel_map {α β γ δ : Type} {r : α → β → Prop} {q : γ → δ → Prop} {a : Option α} {b : Option β} {f : α → γ}
    {g : β → δ} (h : Option.Rel r a b) (hfg : ∀ x y, b = some y → r x y → q (f x) (g y)) :
    Option.Rel q (a.map f) (b.map g) := by
  cases h with
  | none => exact .none
  | some hxy => exact .some (hfg _ _ rfl hxy)

namespace Refines
variable (h : s.Refines t)
include h

lemma schedSpec (i : ι) (d : ℚ) :
    Option.Rel (fun p q => Refines p.1 q.1 ∧ p.2 = q.2) (s.step (.sched i d)) (t.step (.sched i d)) := by
  unfold step sched Deadlines.step
  dsimp only
  rw [show s.status i = t.status i from congrFun h.status i]
  by_cases hidle : t.status i = .TIMER_IDLE
  · rw [if_neg (not_not.mpr hidle), if_neg (not_not.mpr hidle), Option.map_map]
    refine rel_map (h.scheduler.schedule (.inl i) d) fun scheduler agenda ha hs => ⟨?_, rfl⟩
    refine h.set hs (fun j => ?_) (fun j _ _ => rfl) fun hrun => ?_
    · rw [Agenda.has_schedule ha, Sum.inl.injEq]
    · unfold Deadlines.status at hidle
      split_ifs at hidle with hhas hhandling
      simpa [hrun] using hhandling
  · rw [if_pos hidle, if_pos hidle]
    exact .none

lemma reschedSpec (i : ι) (d : ℚ) :
    Option.Rel (fun p q => Refines p.1 q.1 ∧ p.2 = q.2) (s.step (.resched i d)) (t.step (.resched i d)) := by
  unfold step resched Deadlines.step
  dsimp only
  -- The event is taken back when it is pending, and in any case it is not pending after that.
  obtain ⟨scheduler, hcancel, hs⟩ : ∃ scheduler,
      (if s.status i = .TIMER_PENDING then s.scheduler.cancel (.inl i) else some s.scheduler) = some scheduler ∧
        scheduler.Refines (t.agenda.cancel (.inl i)) := by
    by_cases hpending : t.agenda.Has (.inl i)
    · rw [if_pos ((h.status_pending i).mpr hpending)]
      exact h.scheduler.cancel (.inl i)
    · rw [if_neg fun hp => hpending ((h.status_pending i).mp hp), Agenda.cancel_of_not_has hpending]
      exact ⟨s.scheduler, rfl, h.scheduler⟩
  rw [hcancel, Option.bind_some, Option.map_map]
  refine rel_map (hs.schedule (.inl i) d) fun scheduler agenda ha hs => ⟨?_, rfl⟩
  refine h.set hs (fun j => ?_) (fun j hji hrun => ?_) fun hrun => ?_
  · rw [Agenda.has_schedule ha, Agenda.has_cancel, Sum.inl.injEq, ne_eq, Sum.inl.injEq]
    tauto
  · have hne : t.running ≠ some i := fun heq => hji (Option.some.inj (hrun.symm.trans heq))
    rw [decide_eq_true hne, Bool.and_true]
  · rw [decide_eq_false (not_not.mpr hrun), Bool.and_false]

lemma cancelSpec (i : ι) :
    Option.Rel (fun p q => Refines p.1 q.1 ∧ p.2 = q.2) (s.step (.cancel i)) (t.step (.cancel i)) := by
  unfold step cancel Deadlines.step
  dsimp only
  by_cases hpending : t.agenda.Has (.inl i)
  · obtain ⟨scheduler, hcancel, hs⟩ := h.scheduler.cancel (.inl i)
    rw [if_neg (not_not.mpr ((h.status_pending i).mpr hpending)), if_pos hpending, hcancel]
    exact .some ⟨h.unset hs hpending, rfl⟩
  · rw [if_pos fun hp => hpending ((h.status_pending i).mp hp), if_neg hpending]
    exact .none

lemma forceCancelSpec (i : ι) :
    Option.Rel (fun p q => Refines p.1 q.1 ∧ p.2 = q.2) (s.step (.forceCancel i)) (t.step (.forceCancel i)) := by
  unfold step forceCancel Deadlines.step
  dsimp only
  by_cases hpending : t.agenda.Has (.inl i)
  · obtain ⟨scheduler, hcancel, hs⟩ := h.scheduler.cancel (.inl i)
    rw [if_pos ((h.status_pending i).mpr hpending), hcancel]
    exact .some ⟨h.unset hs hpending, rfl⟩
  · rw [if_neg fun hp => hpending ((h.status_pending i).mp hp), Agenda.cancel_of_not_has hpending]
    exact .some ⟨h, rfl⟩

/-- The event of a timer goes to `handle`, whose check finds the timer pending. -/
lemma fires {scheduler : Scheduler (ι ⊕ κ)} {agenda : Agenda (ι ⊕ κ)} {i : ι} (hnone : t.running = none)
    (hb : t.agenda.dispatch = some (agenda, some (.inl i))) (hs : scheduler.Refines agenda) :
    Option.Rel (fun p q => Refines p.1 q.1 ∧ p.2 = q.2)
      (({ s with scheduler }.handle i).map fun s => (s, some ((Sum.inl i : ι ⊕ κ), scheduler.clock)))
      (some (⟨agenda, some i, true⟩, some (.inl i, agenda.clock))) := by
  have hpending : s.status i = .TIMER_PENDING := (h.status_pending i).mpr (Agenda.has_dispatch (f := .inl i) hb).1
  have hhas : ∀ j, agenda.Has (.inl j) ↔ t.agenda.Has (.inl j) ∧ j ≠ i := fun j => by
    rw [(Agenda.has_dispatch hb).2, ne_eq, Sum.inl.injEq]
  unfold handle
  rw [if_neg (not_not.mpr hpending)]
  refine .some ⟨⟨hs, rfl, ?_, fun j hj hrun => ?_⟩, congrArg (fun c => some (Sum.inl i, c)) hs.clock⟩
  · funext j
    dsimp only [setStatus, Deadlines.status]
    by_cases hji : j = i
    · subst hji
      rw [Function.update_self, if_neg fun hj => ((hhas j).mp hj).2 rfl, if_pos ⟨rfl, rfl⟩]
    · rw [Function.update_of_ne hji, h.status]
      simp [Deadlines.status, hhas, hnone, hji, Ne.symm hji]
  · exact absurd (Option.some.inj hrun).symm ((hhas j).mp hj).2

lemma otherFires {scheduler : Scheduler (ι ⊕ κ)} {agenda : Agenda (ι ⊕ κ)} {e : κ} (hnone : t.running = none)
    (hb : t.agenda.dispatch = some (agenda, some (.inr e))) (hs : scheduler.Refines agenda) :
    Refines { s with scheduler } ⟨agenda, none, true⟩ := by
  have hhas : ∀ j, agenda.Has (.inl j) ↔ t.agenda.Has (.inl j) := fun j => by
    rw [(Agenda.has_dispatch hb).2]
    exact and_iff_left nofun
  refine ⟨hs, h.running.trans hnone, ?_, fun j _ hrun => by cases hrun⟩
  funext j
  dsimp only
  rw [h.status]
  simp [Deadlines.status, hhas, hnone]

lemma dispatchSpec :
    Option.Rel (fun p q => Refines p.1 q.1 ∧ p.2 = q.2) (s.step .dispatch) (t.step .dispatch) := by
  unfold step dispatch Deadlines.step
  dsimp only
  by_cases hrunning : s.running.isSome
  · rw [if_pos hrunning, if_pos (h.running ▸ hrunning)]
    exact .none
  · rw [if_neg hrunning, if_neg (h.running ▸ hrunning)]
    have hnone : t.running = none := h.running.symm.trans (Option.not_isSome_iff_eq_none.mp hrunning)
    have hdispatch := h.scheduler.dispatch
    generalize s.scheduler.dispatch = a at hdispatch
    generalize hb : t.agenda.dispatch = b at hdispatch
    cases hdispatch with
    | none => exact .none
    | @some p q hpq =>
      obtain ⟨scheduler, e⟩ := p
      obtain ⟨agenda, e'⟩ := q
      obtain ⟨hs, rfl⟩ : scheduler.Refines agenda ∧ e = e' := hpq
      rcases e with - | (i | e)
      · obtain rfl := Agenda.eq_of_dispatch hb
        exact .some ⟨h.other hs fun _ => Iff.rfl, rfl⟩
      · exact h.fires hnone hb hs
      · exact .some ⟨h.otherFires hnone hb hs, congrArg (fun c => some (Sum.inr e, c)) hs.clock⟩

lemma expireReturnsSpec :
    Option.Rel (fun p q => Refines p.1 q.1 ∧ p.2 = q.2) (s.step .expireReturns) (t.step .expireReturns) := by
  unfold step expireReturns Deadlines.step
  dsimp only
  rw [← h.running]
  cases hrun : s.running with
  | none => exact .none
  | some i =>
    refine .some ⟨⟨?_, rfl, ?_, fun _ _ hj => by cases hj⟩, rfl⟩
    · dsimp only
      split_ifs <;> exact h.scheduler
    · funext j
      rw [h.running] at hrun
      have hafter : Deadlines.status { t with running := none } j =
          if t.agenda.Has (.inl j) then .TIMER_PENDING else .TIMER_IDLE := by simp [Deadlines.status]
      have hbefore : s.status j = t.status j := congrFun h.status j
      rw [hafter]
      dsimp only
      by_cases hji : j = i
      · subst hji
        by_cases hhandling : s.status j = .TIMER_HANDLING
        · have hhas : ¬t.agenda.Has (.inl j) := fun hhas => by
            rw [hbefore, Deadlines.status_of_has hhas] at hhandling
            cases hhandling
          rw [if_pos hhandling, if_neg hhas]
          exact Function.update_self _ _ _
        · rw [if_neg hhandling]
          rw [hbefore] at hhandling ⊢
          unfold Deadlines.status at hhandling ⊢
          split_ifs at hhandling ⊢ <;> simp_all
      · have hne : t.running ≠ some j := fun heq => hji (Option.some.inj (hrun.symm.trans heq)).symm
        have hother : t.status j = if t.agenda.Has (.inl j) then .TIMER_PENDING else .TIMER_IDLE := by
          simp [Deadlines.status, hne]
        rw [← hother, ← hbefore]
        split_ifs
        · exact Function.update_of_ne hji _ _
        · rfl

lemma stepSpec (call : TimerCall ι κ) :
    Option.Rel (fun p q => Refines p.1 q.1 ∧ p.2 = q.2) (s.step call) (t.step call) := by
  cases call with
  | sched i delay => exact h.schedSpec i delay
  | resched i delay => exact h.reschedSpec i delay
  | cancel i => exact h.cancelSpec i
  | forceCancel i => exact h.forceCancelSpec i
  | schedule e delay =>
    refine rel_map (h.scheduler.schedule (.inr e) delay) fun scheduler agenda ha hs => ⟨h.other hs fun i => ?_, rfl⟩
    rw [Agenda.has_schedule ha]
    exact or_iff_left nofun
  | cancelEvent e =>
    obtain ⟨scheduler, hcancel, hs⟩ := h.scheduler.cancel (.inr e)
    unfold step Deadlines.step
    dsimp only
    rw [hcancel]
    refine .some ⟨h.other hs fun i => ?_, rfl⟩
    rw [Agenda.has_cancel]
    exact and_iff_left nofun
  | dispatch => exact h.dispatchSpec
  | expireReturns => exact h.expireReturnsSpec

end Refines

/-- On every sequence of calls the timers behave like deadlines. The calls that abort are the same, the events come at
the same times in the same order, equal times in the order in which they were set, and the status says whether a
timer is set, is handled or neither. -/
theorem timers_run (calls : List (TimerCall ι κ)) :
    Option.Rel (fun p q => p.2 = q.2 ∧ p.1.status = q.1.status ∧ p.1.scheduler.clock = q.1.agenda.clock)
      (run step (init : TimerHandlers ι κ) calls) (run Deadlines.step .init calls) := by
  have hrun := run_rel (fun s t call (h : Refines s t) => h.stepSpec call) calls refines_init
  generalize run step (init : TimerHandlers ι κ) calls = a at hrun
  generalize run Deadlines.step (.init : Deadlines ι κ) calls = b at hrun
  cases hrun with
  | none => exact .none
  | some h => exact .some ⟨h.2, h.1.status, h.1.scheduler.clock⟩

end TimerHandlers

end NetworkSimulator
