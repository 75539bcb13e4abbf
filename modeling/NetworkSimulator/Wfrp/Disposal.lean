import NetworkSimulator.Wfrp.Agent

/-!
# What becomes of a packet

A packet that is received should be freed, dropped or passed to the target, once. The agent keeps
this for the packets that it passes on with time to live, for its own beacons and for those that it
drops in `recv`; it forgets the packets that it has no route for and the beacons that are not passed
on, and it drops and sends a packet that has run out of time to live.
-/

namespace NetworkSimulator.Wfrp
namespace Agent
variable {s : Agent} {p : Packet} {nexthop : ℤ} {delay now r : ℚ}

/-- There is a route that has not failed. The link layer broadcasts only what is for everybody. -/
def Forwardable (s : Agent) (p : Packet) : Prop :=
  ∃ rt, s.rtLookup p.daddr = some rt ∧ rt.state ≠ .ROUTE_FAILED ∧
    (rt.nexthop = IP_BROADCAST → p.daddr = IP_BROADCAST)

/-- The beacon brings a round that is new to the node. -/
def NewRound (s : Agent) (p : Packet) : Prop :=
  ∀ rt, s.rtLookup p.beacon.src = some rt → rt.seqno < p.beacon.id

def DisposedOnce (s : Agent) (p : Packet) (now r : ℚ) : Prop :=
  ∃ s' fate, s.recv p now r = some (s', [fate])

/-- The packets that the agent disposes of as it should. -/
def Disposes (s : Agent) (p : Packet) : Prop :=
  if p.ptype = .PT_WFRP then
    p.sport = RT_PORT ∧ p.dport = RT_PORT ∧ p.pktType = WFRP_BEACON ∧
      (p.beacon.src = s.index ∨ s.NewRound p ∧ p.daddr = IP_BROADCAST ∧ p.ttl ≠ 1)
  else if p.saddr = s.index then
    p.numForwards = 0 → p.ttl ≠ 0 ∧ s.Forwardable p
  else p.ttl = 1 ∨ s.Forwardable p

lemma forward_once : (∃ fate, s.forward p nexthop delay = some [fate]) ↔
    p.ttl ≠ 0 ∧ (nexthop = IP_BROADCAST → p.daddr = IP_BROADCAST) := by
  unfold forward
  by_cases httl : p.ttl = 0
  · simp only [httl, if_true, ne_eq, not_true_eq_false, false_and, iff_false, not_exists]
    intro fate
    split_ifs <;> simp
  · by_cases hhop : nexthop = IP_BROADCAST
    · by_cases hall : p.daddr = IP_BROADCAST
      · simp [httl, hhop, hall]
      · simp [httl, hhop, hall]
    · simp [httl, hhop]

lemma recvData_once : (∃ s' fate, s.recvData p = some (s', [fate])) ↔ p.ttl ≠ 0 ∧ s.Forwardable p := by
  unfold recvData Forwardable
  cases s.rtLookup p.daddr with
  | none => simp
  | some rt =>
    by_cases hstate : rt.state = .ROUTE_FAILED
    · simp [hstate]
    · have honce : (∃ fate, s.forward p rt.nexthop 0 = some [fate]) ↔
          p.ttl ≠ 0 ∧ (rt.nexthop = IP_BROADCAST → p.daddr = IP_BROADCAST) := forward_once
      simpa [hstate] using honce

lemma recvBeacon_once : (∃ s' fate, s.recvBeacon p now r = some (s', [fate])) ↔
    p.beacon.src = s.index ∨ s.NewRound p ∧ p.daddr = IP_BROADCAST ∧ p.ttl ≠ 0 := by
  have honce : (∃ fate, s.forward (s.passOn p) IP_BROADCAST (1 / 10 + r) = some [fate]) ↔
      (s.passOn p).ttl ≠ 0 ∧ (IP_BROADCAST = IP_BROADCAST → (s.passOn p).daddr = IP_BROADCAST) :=
    forward_once
  unfold recvBeacon NewRound
  by_cases hown : p.beacon.src = s.index
  · simp [hown]
  · have hpass : (∃ fate, s.forward (s.passOn p) IP_BROADCAST (1 / 10 + r) = some [fate]) ↔
        p.daddr = IP_BROADCAST ∧ p.ttl ≠ 0 := by
      rw [honce]
      unfold passOn
      simp [and_comm]
    simp only [hown, if_false, false_or]
    cases hrt : s.rtLookup p.beacon.src with
    | none => simpa using hpass
    | some rt =>
      by_cases hnew : rt.seqno < p.beacon.id
      · simpa [hnew] using hpass
      · by_cases hshort : p.beacon.id = rt.seqno ∧ p.beacon.hops < rt.hopcount
        · simp [hshort]
        · simp [hnew, hshort]

lemma recvWfrp_once : (∃ s' fate, s.recvWfrp p now r = some (s', [fate])) ↔
    p.sport = RT_PORT ∧ p.dport = RT_PORT ∧ p.pktType = WFRP_BEACON ∧
      (p.beacon.src = s.index ∨ s.NewRound p ∧ p.daddr = IP_BROADCAST ∧ p.ttl ≠ 0) := by
  unfold recvWfrp
  by_cases hports : p.sport = RT_PORT ∧ p.dport = RT_PORT
  · rw [if_pos hports]
    by_cases hbeacon : p.pktType = WFRP_BEACON
    · rw [if_pos hbeacon, recvBeacon_once]
      simp only [hports.1, hports.2, hbeacon, true_and]
    · rw [if_neg hbeacon]
      split_ifs <;> simp [hbeacon]
  · rw [if_neg hports]
    simp only [reduceCtorEq, exists_false, false_iff]
    exact fun h => hports ⟨h.1, h.2.1⟩

/-- A packet is disposed of once exactly when no branch is taken that forgets it or sends it although
it has been dropped. -/
theorem disposedOnce_iff : s.DisposedOnce p now r ↔ s.Disposes p := by
  unfold DisposedOnce Disposes recv
  by_cases hwfrp : p.ptype = .PT_WFRP
  · rw [if_pos hwfrp, if_pos hwfrp, recvWfrp_once]
    simp only [NewRound, ne_eq, sub_eq_zero]
  · rw [if_neg hwfrp, if_neg hwfrp]
    by_cases hown : p.saddr = s.index
    · by_cases hnum : p.numForwards = 0
      · rw [if_pos ⟨hown, hnum⟩, if_pos hown]
        simp only [hnum, true_implies]
        split_ifs
        · exact recvData_once
        · exact recvData_once
      · simp [hown, hnum]
    · have hfirst : ¬(p.saddr = s.index ∧ p.numForwards = 0) := fun h => hown h.1
      rw [if_neg hfirst, if_neg hown, if_neg hown]
      by_cases httl : p.ttl = 1
      · simp [httl]
      · have hless : ¬p.ttl - 1 = 0 := by omega
        rw [if_neg hless, recvData_once]
        simp only [Forwardable, ne_eq, hless, httl, not_false_eq_true, true_and, false_or]

/-- A node with a route to the sink 0. -/
def routed : Agent :=
  { index := 1
    rthead := [{ dst := 0, seqno := 1, nexthop := 0, xpos := 0, ypos := 0, state := .ROUTE_FRESH
                 hopcount := 1, expire := 20 }] }

/-- A second copy of the beacon that it has the route from. -/
def staleBeacon : Packet :=
  { ptype := .PT_WFRP, saddr := 2, daddr := IP_BROADCAST, beacon := { hops := 3, id := 1, src := 0 } }

theorem staleBeacon_forgotten : ¬routed.DisposedOnce staleBeacon 1 0 := by
  rintro ⟨s', fate, hrecv⟩
  have hno : routed.recv staleBeacon 1 0 = some (routed, []) := by decide
  rw [hno] at hrecv
  simp at hrecv

end Agent
end NetworkSimulator.Wfrp
