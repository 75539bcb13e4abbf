import NetworkSimulator.Wfrp.Disposal

/-!
# What a packet does to the route cache

A packet leaves the cache as it is, or it is a beacon that becomes the route of the node.
-/

namespace NetworkSimulator.Wfrp

namespace Agent
variable {s s' : Agent} {p q : Packet} {d e nexthop : ℤ} {now r : ℚ} {fates : List Fate}

instance : Decidable (s.NewRound p) :=
  inferInstanceAs (Decidable (∀ rt ∈ s.rtLookup p.beacon.src, rt.seqno < p.beacon.id))

def IsBeacon (p : Packet) : Prop :=
  p.ptype = .PT_WFRP ∧ p.pktType = WFRP_BEACON
  deriving Decidable

/-- The packets that reach the target. -/
def sent (fates : List Fate) : List Packet :=
  fates.filterMap fun
    | .schedule p _ => some p
    | _ => none

lemma mem_sent_forward (h : s.forward p nexthop r = some fates) (hq : q ∈ sent fates) :
    q.ptype = p.ptype ∧ q.pktType = p.pktType ∧ q.saddr = p.saddr ∧ q.beacon = p.beacon := by
  unfold forward at h
  by_cases httl : p.ttl = 0
  · simp only [httl, if_true] at h
    split_ifs at h <;> cases h <;> simp [sent] at hq <;> simp [hq]
  · simp only [httl, if_false] at h
    split_ifs at h <;> cases h <;> simp [sent] at hq <;> simp [hq]

lemma find_assign (f : RouteCache → RouteCache) (hf : ∀ rt, (f rt).dst = rt.dst) (rts : List RouteCache) :
    (assign d f rts).find? (fun rt => rt.dst = e) =
      if e = d then (rts.find? (fun rt => rt.dst = d)).map f else rts.find? (fun rt => rt.dst = e) := by
  induction rts with
  | nil => simp [assign]
  | cons rt rts ih =>
    unfold assign
    by_cases hd : rt.dst = d
    · by_cases he : e = d
      · subst he
        simp [hd, hf]
      · have hne : ¬d = e := fun h => he h.symm
        simp [hd, hf, he, hne]
    · by_cases he : e = d
      · subst he
        simpa [hd] using ih
      · by_cases hrt : rt.dst = e
        · simp [hrt, he]
        · simpa [hd, hrt, he] using ih

lemma rtLookup_insert : (s.rtInsert p.beacon nexthop now).rtLookup e =
    if e = p.beacon.src then
      some ⟨p.beacon.src, p.beacon.id, nexthop, p.beacon.posx, p.beacon.posy, .ROUTE_FRESH,
        p.beacon.hops, now + DEFAULT_ROUTE_EXPIRE⟩
    else s.rtLookup e := by
  unfold rtInsert rtLookup
  by_cases he : e = p.beacon.src
  · simp [he]
  · have hne : ¬p.beacon.src = e := fun h => he h.symm
    simp [he, hne]

lemma rtLookup_refresh : (s.rtRefresh p.beacon nexthop now).rtLookup e =
    if e = p.beacon.src then (s.rtLookup p.beacon.src).map (refresh p.beacon nexthop now)
    else s.rtLookup e := by
  unfold rtRefresh rtLookup
  exact find_assign (refresh p.beacon nexthop now) (fun _ => rfl) s.rthead

/-- A beacon of another node that is newer or shorter than the route that the node has. -/
def Takes (s : Agent) (p : Packet) : Prop :=
  IsBeacon p ∧ p.beacon.src ≠ s.index ∧ ∀ rt ∈ s.rtLookup p.beacon.src,
    rt.seqno < p.beacon.id ∨ p.beacon.id = rt.seqno ∧ p.beacon.hops < rt.hopcount
  deriving Decidable

/-- The beacon becomes the route of the node; `out` is passed on. -/
structure Accepts (s : Agent) (p : Packet) (now : ℚ) (s' : Agent) (out : List Packet) : Prop where
  takes : s.Takes p
  index : s'.index = s.index
  entry : s'.rtLookup p.beacon.src = some ⟨p.beacon.src, p.beacon.id, p.saddr, p.beacon.posx,
    p.beacon.posy, .ROUTE_FRESH, p.beacon.hops, now + DEFAULT_ROUTE_EXPIRE⟩
  others : ∀ e, e ≠ p.beacon.src → s'.rtLookup e = s.rtLookup e
  sent : ∀ q ∈ out, s.NewRound p ∧ q.saddr = s.index ∧
    q.beacon = { p.beacon with hops := (p.beacon.hops + 1) % 2 ^ 8 }

/-- A packet changes nothing and lets no beacon out, or it is a beacon that is accepted. -/
inductive Received (s : Agent) (p : Packet) (now : ℚ) : Agent → List Packet → Prop
  | kept {out} (hno : ¬s.Takes p) (hout : ∀ q ∈ out, ¬IsBeacon q) : Received s p now s out
  | accepted {s' out} (h : Accepts s p now s' out) : Received s p now s' out

lemma recvData_received (hp : ¬IsBeacon p) (h : s.recvData p = some (s', fates)) :
    s' = s ∧ ∀ q ∈ sent fates, ¬IsBeacon q := by
  unfold recvData at h
  cases hrt : s.rtLookup p.daddr with
  | none =>
    simp only [hrt, Option.some.injEq, Prod.mk.injEq] at h
    obtain ⟨rfl, rfl⟩ := h
    exact ⟨rfl, by simp [sent]⟩
  | some rt =>
    simp only [hrt] at h
    split_ifs at h
    · obtain ⟨fates', hf, heq⟩ := Option.map_eq_some_iff.mp h
      obtain ⟨rfl, rfl⟩ := Prod.mk.inj heq
      refine ⟨rfl, ?_⟩
      intro q hq
      obtain ⟨hptype, hpkt, -⟩ := mem_sent_forward hf hq
      unfold IsBeacon
      rwa [hptype, hpkt]
    · obtain ⟨rfl, rfl⟩ := Prod.mk.inj (Option.some.inj h)
      exact ⟨rfl, by simp [sent]⟩

lemma passOn_sent (h : s.forward (s.passOn p) nexthop r = some fates) (hq : q ∈ sent fates) :
    q.saddr = s.index ∧ q.beacon = { p.beacon with hops := (p.beacon.hops + 1) % 2 ^ 8 } := by
  obtain ⟨-, -, hsaddr, hbeacon⟩ := mem_sent_forward h hq
  exact ⟨hsaddr, hbeacon⟩

lemma rtLookup_dst {rt : RouteCache} (h : s.rtLookup d = some rt) : rt.dst = d := by
  simpa using List.find?_some h

lemma recvBeacon_received (hp : IsBeacon p) (h : s.recvBeacon p now r = some (s', fates)) :
    Received s p now s' (sent fates) := by
  unfold recvBeacon at h
  dsimp only at h
  by_cases hown : p.beacon.src = s.index
  · rw [if_pos hown] at h
    obtain ⟨rfl, rfl⟩ := Prod.mk.inj (Option.some.inj h)
    exact .kept (fun htakes => htakes.2.1 hown) (by simp [sent])
  · rw [if_neg hown] at h
    cases hrt : s.rtLookup p.beacon.src with
    | none =>
      simp only [hrt] at h
      obtain ⟨fates', hf, heq⟩ := Option.map_eq_some_iff.mp h
      obtain ⟨rfl, rfl⟩ := Prod.mk.inj heq
      apply Received.accepted
      refine ⟨⟨hp, hown, by simp [hrt]⟩, rfl, by rw [rtLookup_insert, if_pos rfl], ?_, ?_⟩
      · intro e he
        rw [rtLookup_insert, if_neg he]
      · intro q hq
        exact ⟨by simp [NewRound, hrt], passOn_sent hf hq⟩
    | some rt =>
      simp only [hrt] at h
      have hentry : (s.rtRefresh p.beacon p.saddr now).rtLookup p.beacon.src =
          some ⟨p.beacon.src, p.beacon.id, p.saddr, p.beacon.posx, p.beacon.posy, .ROUTE_FRESH,
            p.beacon.hops, now + DEFAULT_ROUTE_EXPIRE⟩ := by
        rw [rtLookup_refresh, if_pos rfl, hrt, Option.map_some, refresh, rtLookup_dst hrt]
      have hothers : ∀ e, e ≠ p.beacon.src →
          (s.rtRefresh p.beacon p.saddr now).rtLookup e = s.rtLookup e := by
        intro e he
        rw [rtLookup_refresh, if_neg he]
      by_cases hnew : rt.seqno < p.beacon.id
      · rw [if_pos hnew] at h
        obtain ⟨fates', hf, heq⟩ := Option.map_eq_some_iff.mp h
        obtain ⟨rfl, rfl⟩ := Prod.mk.inj heq
        apply Received.accepted
        refine ⟨⟨hp, hown, by simp [hrt, hnew]⟩, rfl, hentry, hothers, ?_⟩
        intro q hq
        exact ⟨by simp [NewRound, hrt, hnew], passOn_sent hf hq⟩
      · rw [if_neg hnew] at h
        split_ifs at h with hshort
        · obtain ⟨rfl, rfl⟩ := Prod.mk.inj (Option.some.inj h)
          apply Received.accepted
          exact ⟨⟨hp, hown, by simp [hrt, hshort]⟩, rfl, hentry, hothers, by simp [sent]⟩
        · obtain ⟨rfl, rfl⟩ := Prod.mk.inj (Option.some.inj h)
          refine .kept ?_ (by simp [sent])
          intro htakes
          exact (htakes.2.2 rt hrt).elim hnew hshort

lemma received (h : s.recv p now r = some (s', fates)) : Received s p now s' (sent fates) := by
  unfold recv at h
  by_cases hwfrp : p.ptype = .PT_WFRP
  · rw [if_pos hwfrp] at h
    unfold recvWfrp at h
    split_ifs at h with hports hbeacon herror
    · have hlater : IsBeacon { p with ttl := p.ttl - 1 } := ⟨hwfrp, hbeacon⟩
      cases recvBeacon_received hlater h with
      | kept hno hout => exact .kept (fun htakes => hno ⟨hlater, htakes.2⟩) hout
      | accepted ha =>
        exact .accepted ⟨⟨⟨hwfrp, hbeacon⟩, ha.takes.2⟩, ha.index, ha.entry, ha.others, ha.sent⟩
    · obtain ⟨rfl, rfl⟩ := Prod.mk.inj (Option.some.inj h)
      exact .kept (fun htakes => hbeacon htakes.1.2) (by simp [sent])
  · rw [if_neg hwfrp] at h
    have hno : ¬s.Takes p := fun htakes => hwfrp htakes.1.1
    have hdata : ∀ q : Packet, q.ptype = p.ptype → s.recvData q = some (s', fates) →
        Received s p now s' (sent fates) := by
      intro q hq hrecv
      obtain ⟨rfl, hout⟩ := recvData_received (fun hbeacon => hwfrp (hq ▸ hbeacon.1)) hrecv
      exact .kept hno hout
    split_ifs at h
    · exact hdata _ (by rfl) h
    · exact hdata _ (by rfl) h
    · obtain ⟨rfl, rfl⟩ := Prod.mk.inj (Option.some.inj h)
      exact .kept hno (by simp [sent])
    · obtain ⟨rfl, rfl⟩ := Prod.mk.inj (Option.some.inj h)
      exact .kept hno (by simp [sent])
    · exact hdata _ (by rfl) h

lemma rtLookup_purge : (s.rtPurge now).rtLookup d = (s.rtLookup d).map
    (fun rt => if rt.expire ≤ now then { rt with state := .ROUTE_EXPIRED } else rt) := by
  unfold rtPurge rtLookup
  induction s.rthead with
  | nil => rfl
  | cons rt rts ih =>
    have hdst : (if rt.expire ≤ now then { rt with state := .ROUTE_EXPIRED } else rt).dst = rt.dst := by
      split_ifs <;> rfl
    simp only [List.map_cons, List.find?_cons, hdst]
    by_cases hd : rt.dst = d
    · simp [hd]
    · simpa [hd] using ih

end Agent

end NetworkSimulator.Wfrp
