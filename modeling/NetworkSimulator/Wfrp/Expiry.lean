import Mathlib.Tactic.Linarith
import NetworkSimulator.Library.Runs
import NetworkSimulator.Wfrp.Received

/-!
# Which routes the data packets follow

A purge marks the routes that no beacon has refreshed for `DEFAULT_ROUTE_EXPIRE`. The mark says how old
the route is, but a data packet is kept from a route only when the route is marked as failed, which
nothing ever does.
-/

namespace NetworkSimulator.Wfrp
open Library

/-- An agent with the time, the beacons that it has accepted (sink, next hop and time, the last one
first) and the last purge. -/
structure Logged where
  agent : Agent
  clock : ℚ := 0
  refreshed : List (ℤ × ℤ × ℚ) := []
  purged : Option ℚ := none

inductive AgentEvent
  | recv (p : Packet) (now r : ℚ)
  | rtPurge (now : ℚ)
  | sendBeacon (now : ℚ) (size : ℕ)

def AgentEvent.now : AgentEvent → ℚ
  | .recv _ now _ => now
  | .rtPurge now => now
  | .sendBeacon now _ => now

namespace Logged

/-- One event, which does not come before the last one. -/
def step (l : Logged) (ev : AgentEvent) : Option (Logged × List Packet) :=
  if ev.now < l.clock then none
  else
    match ev with
    | .recv p now r => (l.agent.recv p now r).map fun x =>
      ({ l with
        agent := x.1
        clock := now
        refreshed := if l.agent.Takes p then (p.beacon.src, p.saddr, now) :: l.refreshed
          else l.refreshed }, Agent.sent x.2)
    | .rtPurge now => some ({ l with agent := l.agent.rtPurge now, clock := now, purged := some now }, [])
    | .sendBeacon now size =>
      some ({ l with agent := (l.agent.sendBeacon size).1, clock := now }, [(l.agent.sendBeacon size).2])

def start (index : ℤ) : Logged :=
  { agent := { index := index } }

/-- The last beacon from the sink has come over `nexthop`, less than `DEFAULT_ROUTE_EXPIRE` before the
last purge. -/
def Fresh (l : Logged) (sink nexthop : ℤ) : Prop :=
  ∃ τ, l.refreshed.find? (fun x => x.1 = sink) = some (sink, nexthop, τ) ∧
    ∀ π ∈ l.purged, π < τ + DEFAULT_ROUTE_EXPIRE

/-- A data packet that the agent sends follows a fresh route. -/
def FollowsFresh (l : Logged) : AgentEvent → Prop
  | .recv p now r => p.ptype ≠ .PT_WFRP → ∀ l' out, l.step (.recv p now r) = some (l', out) → out ≠ [] →
      ∃ rt, l.agent.rtLookup p.daddr = some rt ∧ l.Fresh p.daddr rt.nexthop
  | _ => True

/-- The packet gets as far as the route cache. -/
def LooksUp (s : Agent) (p : Packet) : Prop :=
  p.ptype ≠ .PT_WFRP ∧ if p.saddr = s.index then p.numForwards = 0 else p.ttl ≠ 1
  deriving Decidable

/-- No data packet looks up a route that is marked as expired. -/
def Unmarked (l : Logged) : AgentEvent → Prop
  | .recv p _ _ => LooksUp l.agent p → ∀ rt ∈ l.agent.rtLookup p.daddr, rt.state ≠ .ROUTE_EXPIRED
  | _ => True

/-- The mark of an entry is what the beacons and purges so far have made of it. -/
structure Marks (l : Logged) : Prop where
  clock : ∀ π ∈ l.purged, π ≤ l.clock
  entry : ∀ sink rt, l.agent.rtLookup sink = some rt → rt.state ≠ .ROUTE_FAILED ∧
    ∃ τ, l.refreshed.find? (fun x => x.1 = sink) = some (sink, rt.nexthop, τ) ∧
      rt.expire = τ + DEFAULT_ROUTE_EXPIRE ∧
      (rt.state = .ROUTE_EXPIRED ↔ ∃ π ∈ l.purged, τ + DEFAULT_ROUTE_EXPIRE ≤ π)

variable {l l' : Logged} {s s' : Agent} {p : Packet} {ev : AgentEvent} {out : List Packet} {now r : ℚ}
  {index : ℤ} {fates : List Fate}

lemma marks_start : (start index).Marks :=
  ⟨fun _ hπ => by simp [start] at hπ, fun _ _ hrt => by simp [start, Agent.rtLookup] at hrt⟩

lemma Marks.recv (h : l.Marks) (hnow : l.clock ≤ now) (hrecv : l.agent.recv p now r = some (s, fates)) :
    Marks { l with
      agent := s
      clock := now
      refreshed := if l.agent.Takes p then (p.beacon.src, p.saddr, now) :: l.refreshed
        else l.refreshed } := by
  have hclock : ∀ π ∈ l.purged, π ≤ now := fun π hπ => (h.clock π hπ).trans hnow
  cases Agent.received hrecv with
  | kept hno _ =>
    rw [if_neg hno]
    exact ⟨hclock, h.entry⟩
  | accepted ha =>
    rw [if_pos ha.takes]
    refine ⟨hclock, ?_⟩
    intro sink rt hrt
    dsimp only at hrt
    by_cases hsink : sink = p.beacon.src
    · subst hsink
      obtain rfl := Option.some.inj (ha.entry.symm.trans hrt)
      refine ⟨by simp, now, by simp, rfl, ?_⟩
      simp only [reduceCtorEq, false_iff, not_exists, not_and, not_le]
      intro π hπ
      have hle := hclock π hπ
      have hpos : (0 : ℚ) < DEFAULT_ROUTE_EXPIRE := by norm_num [DEFAULT_ROUTE_EXPIRE, DEFAULT_BEACON_INTERVAL]
      linarith
    · obtain ⟨hfailed, τ, hfind, hrest⟩ := h.entry sink rt ((ha.others sink hsink).symm.trans hrt)
      refine ⟨hfailed, τ, ?_, hrest⟩
      have hne : ¬p.beacon.src = sink := fun heq => hsink heq.symm
      simpa [hne] using hfind

lemma Marks.rtPurge (h : l.Marks) (hnow : l.clock ≤ now) :
    Marks { l with agent := l.agent.rtPurge now, clock := now, purged := some now } := by
  constructor
  · intro π hπ
    obtain rfl := Option.mem_some_iff.mp hπ
    exact le_rfl
  · intro sink rt hrt
    rw [Agent.rtLookup_purge] at hrt
    obtain ⟨rt', hrt', rfl⟩ := Option.map_eq_some_iff.mp hrt
    obtain ⟨hfailed, τ, hfind, hexpire, hmark⟩ := h.entry sink rt' hrt'
    by_cases hold : rt'.expire ≤ now
    · rw [if_pos hold]
      refine ⟨by simp, τ, hfind, hexpire, ?_⟩
      simpa [hexpire] using hold
    · rw [if_neg hold]
      refine ⟨hfailed, τ, hfind, hexpire, hmark.trans ?_⟩
      rw [hexpire] at hold
      constructor
      · rintro ⟨π, hπ, hle⟩
        exact absurd (hle.trans ((h.clock π hπ).trans hnow)) hold
      · rintro ⟨π, hπ, hle⟩
        obtain rfl := Option.mem_some_iff.mp hπ
        exact absurd hle hold

lemma Marks.step (h : l.Marks) (hstep : l.step ev = some (l', out)) : l'.Marks := by
  unfold Logged.step at hstep
  split_ifs at hstep with hpast
  have hnow : l.clock ≤ ev.now := not_lt.mp hpast
  cases ev with
  | recv p now r =>
    obtain ⟨⟨s, fates⟩, hrecv, heq⟩ := Option.map_eq_some_iff.mp hstep
    obtain ⟨rfl, -⟩ := Prod.mk.inj heq
    exact h.recv hnow hrecv
  | rtPurge now =>
    obtain ⟨rfl, -⟩ := Prod.mk.inj (Option.some.inj hstep)
    exact h.rtPurge hnow
  | sendBeacon now size =>
    obtain ⟨rfl, -⟩ := Prod.mk.inj (Option.some.inj hstep)
    exact ⟨fun π hπ => (h.clock π hπ).trans hnow, h.entry⟩

lemma sent_ne_nil_of_forward {nexthop : ℤ} (h : s.forward p nexthop r = some fates) :
    Agent.sent fates ≠ [] := by
  unfold Agent.forward at h
  by_cases httl : p.ttl = 0
  · simp only [httl, if_true] at h
    split_ifs at h <;> cases h <;> simp [Agent.sent]
  · simp only [httl, if_false] at h
    split_ifs at h <;> cases h <;> simp [Agent.sent]

lemma recvData_sends (h : s.recvData p = some (s', fates)) :
    Agent.sent fates ≠ [] ↔ ∃ rt, s.rtLookup p.daddr = some rt ∧ rt.state ≠ .ROUTE_FAILED := by
  unfold Agent.recvData at h
  cases hrt : s.rtLookup p.daddr with
  | none =>
    simp only [hrt, Option.some.injEq, Prod.mk.injEq] at h
    simp [← h.2, Agent.sent]
  | some rt =>
    simp only [hrt] at h
    split_ifs at h with hstate
    · obtain ⟨fates', hf, heq⟩ := Option.map_eq_some_iff.mp h
      obtain ⟨-, rfl⟩ := Prod.mk.inj heq
      simpa [hstate] using sent_ne_nil_of_forward hf
    · obtain ⟨-, rfl⟩ := Prod.mk.inj (Option.some.inj h)
      simpa [Agent.sent] using hstate

/-- A data packet is sent exactly when it gets as far as a route that has not failed. -/
lemma recv_sends (hdata : p.ptype ≠ .PT_WFRP) (h : s.recv p now r = some (s', fates)) :
    Agent.sent fates ≠ [] ↔
      LooksUp s p ∧ ∃ rt, s.rtLookup p.daddr = some rt ∧ rt.state ≠ .ROUTE_FAILED := by
  unfold Agent.recv at h
  rw [if_neg hdata] at h
  unfold LooksUp
  by_cases hown : p.saddr = s.index
  · by_cases hnum : p.numForwards = 0
    · rw [if_pos ⟨hown, hnum⟩] at h
      simp only [hdata, hown, hnum, ne_eq, not_false_eq_true, if_true, and_self, true_and]
      split_ifs at h
      · exact recvData_sends (p := { p with size := p.size + IP_HDR_LEN }) h
      · exact recvData_sends h
    · simp only [hown, hnum, and_false, if_false, if_true] at h
      obtain ⟨-, rfl⟩ := Prod.mk.inj (Option.some.inj h)
      simp [Agent.sent, hown, hnum]
  · by_cases httl : p.ttl = 1
    · simp only [hown, httl, false_and, if_false, sub_self, if_true] at h
      obtain ⟨-, rfl⟩ := Prod.mk.inj (Option.some.inj h)
      simp [Agent.sent, hown, httl]
    · have hleft : ¬p.ttl - 1 = 0 := by omega
      simp only [hown, hleft, false_and, if_false] at h
      simp only [hdata, hown, httl, ne_eq, not_false_eq_true, if_false, true_and]
      exact recvData_sends (p := { p with ttl := p.ttl - 1 }) h

/-- In a state that can be reached an entry is fresh exactly when it is not marked. -/
lemma Marks.fresh_iff (h : l.Marks) {sink : ℤ} {rt : RouteCache} (hrt : l.agent.rtLookup sink = some rt) :
    l.Fresh sink rt.nexthop ↔ rt.state ≠ .ROUTE_EXPIRED := by
  obtain ⟨-, τ, hfind, -, hmark⟩ := h.entry sink rt hrt
  rw [Ne, hmark]
  push Not
  constructor
  · rintro ⟨τ', hfind', hless⟩
    obtain rfl : τ = τ' := by simpa using hfind.symm.trans hfind'
    exact hless
  · intro hless
    exact ⟨τ, hfind, hless⟩

lemma Marks.followsFresh_iff (h : l.Marks) (hstep : l.step ev = some (l', out)) :
    l.FollowsFresh ev ↔ l.Unmarked ev := by
  cases ev with
  | rtPurge now => exact Iff.rfl
  | sendBeacon now size => exact Iff.rfl
  | recv p now r =>
    have hmap := hstep
    unfold Logged.step at hmap
    split_ifs at hmap with hpast
    obtain ⟨⟨s, fates⟩, hrecv, heq⟩ := Option.map_eq_some_iff.mp hmap
    obtain ⟨-, rfl⟩ := Prod.mk.inj heq
    unfold FollowsFresh Unmarked
    constructor
    · intro hfollows hlooks rt hrt
      have hsent := (recv_sends hlooks.1 hrecv).mpr ⟨hlooks, rt, hrt, (h.entry _ rt hrt).1⟩
      obtain ⟨rt', hrt', hfresh⟩ := hfollows hlooks.1 l' _ hstep hsent
      obtain rfl := Option.some.inj (hrt.symm.trans hrt')
      exact (h.fresh_iff hrt').mp hfresh
    · intro hunmarked hdata l'' out' hstep' hsent
      obtain ⟨-, rfl⟩ := Prod.mk.inj (Option.some.inj (hstep.symm.trans hstep'))
      obtain ⟨hlooks, rt, hrt, -⟩ := (recv_sends hdata hrecv).mp hsent
      exact ⟨rt, hrt, (h.fresh_iff hrt).mpr (hunmarked hlooks rt hrt)⟩

/-- In a run of an agent all data packets follow fresh routes exactly when none looks up a marked one. -/
theorem expiry_run {evs : List AgentEvent} {os : List (List Packet)}
    (hrun : run Logged.step (start index) evs = some (l, os)) :
    EachStep Logged.step FollowsFresh (start index) evs ↔ EachStep Logged.step Unmarked (start index) evs := by
  apply EachStep.congr _ marks_start hrun
  intro l ev l' out hl hstep
  exact ⟨hl.step hstep, hl.followsFresh_iff hstep⟩

/-- A beacon of the sink 0, and a purge 22 seconds later. -/
def expired : List AgentEvent :=
  [.recv { ptype := .PT_WFRP, saddr := 0, daddr := IP_BROADCAST, beacon := { hops := 1, id := 1, src := 0 } } 0 0,
    .rtPurge 22]

/-- A packet of the node 1 for the sink. -/
def report : Packet :=
  { saddr := 1, daddr := 0 }

theorem expiry_run_expired : ∃ l os, run Logged.step (start 1) (expired ++ [.recv report 23 0]) = some (l, os) ∧
    (EachStep Logged.step FollowsFresh (start 1) (expired ++ [.recv report 23 0]) ↔
      EachStep Logged.step Unmarked (start 1) (expired ++ [.recv report 23 0])) := by
  obtain ⟨⟨l, os⟩, hrun⟩ : ∃ r, run Logged.step (start 1) (expired ++ [.recv report 23 0]) = some r :=
    Option.isSome_iff_exists.mp (by decide +kernel)
  exact ⟨l, os, hrun, expiry_run hrun⟩

/-- The packet follows the route that the purge has marked. -/
theorem expired_followed : ∃ l os, run Logged.step (start 1) (expired ++ [.recv report 23 0]) = some (l, os) ∧
    ¬EachStep Logged.step FollowsFresh (start 1) (expired ++ [.recv report 23 0]) := by
  obtain ⟨⟨l, os⟩, hrun⟩ : ∃ r, run Logged.step (start 1) (expired ++ [.recv report 23 0]) = some r :=
    Option.isSome_iff_exists.mp (by decide +kernel)
  refine ⟨l, os, hrun, ?_⟩
  intro hfollows
  have hmarked : (run Logged.step (start 1) expired).any (fun r =>
      decide (LooksUp r.1.agent report) && (r.1.agent.rtLookup report.daddr).any (·.state = .ROUTE_EXPIRED) &&
        (r.1.step (.recv report 23 0)).isSome) = true := by decide +kernel
  obtain ⟨⟨t, os'⟩, ht, hlast⟩ := (Option.any_eq_true _ _).mp hmarked
  simp only [Bool.and_eq_true, decide_eq_true_eq] at hlast
  obtain ⟨⟨hlooks, hstate⟩, hsome⟩ := hlast
  obtain ⟨rt, hrt, hexpired⟩ := (Option.any_eq_true _ _).mp hstate
  obtain ⟨⟨l', out⟩, hstep⟩ := Option.isSome_iff_exists.mp hsome
  have hmarks : t.Marks := run_invariant (fun l ev l' out h => h.step) marks_start ht
  have hunmarked := (hmarks.followsFresh_iff hstep).mp (hfollows.right ht).1
  exact hunmarked hlooks rt hrt (of_decide_eq_true hexpired)

end Logged
end NetworkSimulator.Wfrp
