import NetworkSimulator.Dsdv.Agent

/-!
# Stale advertisements

The decision leaves the route to a destination alone when the advertisement is stale. The block after it
that sends off queued packets may write the candidate into the table all the same.
-/

namespace NetworkSimulator.Dsdv
open Library

/-- The sequence number is older than the stored one, or it is the stored one and the metric is no
smaller. -/
def Stale (prte : Entry) (adv : Advert) : Prop :=
  adv.seqnum < prte.seqnum ∨ (adv.seqnum = prte.seqnum ∧ prte.metric ≤ adv.incremented)

structure SameRoute (e e' : Entry) : Prop where
  hop : e'.hop = e.hop
  metric : e'.metric = e.metric
  seqnum : e'.seqnum = e.seqnum

namespace Agent
variable {env : Env} {now : ℚ} {r : Agent → Packet → Option Agent} {fuel k : ℕ} {a b c : Agent} {p : Packet}
  {hop dst : NsAddr} {adv : Advert} {prte rte : Entry}

lemma find_needTriggeredUpdate {t : ℚ} (h : a.needTriggeredUpdate now dst prte t = some b) :
    ∃ e, b.table.find dst = some { prte with trigger_event := e } := by
  unfold needTriggeredUpdate at h
  split at h
  · simp at h
  · obtain rfl := Option.some.inj h
    exact ⟨_, SortedMap.find_set_self⟩

lemma AddEntry_eq_some {ent : Entry} (h : a.AddEntry dst ent = some b) :
    ent.metric ≤ BIG ∧ b = { a with table := a.table.set dst ent } := by
  unfold AddEntry at h
  split at h
  · rename_i hle
    exact ⟨hle, (Option.some.inj h).symm⟩
  · simp at h

lemma candidate_hop : (candidate env now hop (some prte) adv).hop = hop := rfl

lemma candidate_metric : (candidate env now hop (some prte) adv).metric = adv.incremented := rfl

lemma candidate_seqnum : (candidate env now hop (some prte) adv).seqnum = adv.seqnum := rfl

lemma candidate_q : (candidate env now hop (some prte) adv).q = prte.q := rfl

/-- The decision about a stale advertisement. -/
lemma learn_stale (hfind : a.table.find adv.dst = some prte) (hstale : Stale prte adv)
    (h : a.learn env now hop adv = some (b, rte)) :
    rte = candidate env now hop (some prte) adv ∧
      ∃ e, b.table.find adv.dst = some e ∧ SameRoute prte e ∧ e.q = prte.q := by
  have hnewer : ¬prte.seqnum < adv.seqnum := by
    rcases hstale with hlt | ⟨heq, -⟩
    · rw [UInt32.lt_iff_toNat_lt] at hlt ⊢
      omega
    · rw [heq, UInt32.lt_iff_toNat_lt]
      exact lt_irrefl _
  unfold learn at h
  rw [hfind] at h
  dsimp only at h
  rw [candidate_metric, candidate_seqnum] at h
  split at h
  · rename_i heq
    have hle : prte.metric ≤ adv.incremented := by
      rcases hstale with hlt | ⟨-, hle⟩
      · rw [heq, UInt32.lt_iff_toNat_lt] at hlt
        exact absurd hlt (lt_irrefl _)
      · exact hle
    rw [if_neg hle.not_gt] at h
    obtain ⟨rfl, rfl⟩ := Prod.mk.inj (Option.some.inj h)
    exact ⟨rfl, prte, hfind, ⟨rfl, rfl, rfl⟩, rfl⟩
  · split at h
    · obtain ⟨b', hb', heq⟩ := Option.map_eq_some_iff.mp h
      obtain ⟨rfl, rfl⟩ := Prod.mk.inj heq
      obtain ⟨e, he⟩ := find_needTriggeredUpdate hb'
      exact ⟨rfl, _, he, ⟨rfl, rfl, rfl⟩, rfl⟩
    · obtain ⟨rfl, rfl⟩ := Prod.mk.inj (Option.some.inj h)
      exact ⟨rfl, prte, hfind, ⟨rfl, rfl, rfl⟩, rfl⟩

/-- A stale advertisement changes the route when packets are sent off, unless it repeats it. -/
lemma processAdvert_stale (hself : adv.dst ≠ env.myaddr_) (hfind : a.table.find adv.dst = some prte)
    (hstale : Stale prte adv) (h : processAdvert env now r fuel hop a adv = some b) :
    (∃ e, b.table.find adv.dst = some e ∧ SameRoute prte e) ↔
      prte.q = none ∨ adv.incremented = BIG ∨
        (adv.seqnum = prte.seqnum ∧ adv.incremented = prte.metric ∧ hop = prte.hop) := by
  unfold processAdvert at h
  rw [if_neg hself] at h
  obtain ⟨⟨s, rte⟩, hlearn, h⟩ := Option.bind_eq_some_iff.mp h
  obtain ⟨rfl, e, he, hsame, -⟩ := learn_stale hfind hstale hlearn
  dsimp only at h
  rw [candidate_q, candidate_metric] at h
  split at h
  · rename_i hdrain
    obtain ⟨s', -, hadd⟩ := Option.bind_eq_some_iff.mp h
    obtain ⟨-, rfl⟩ := AddEntry_eq_some hadd
    rw [or_iff_right (Option.isSome_iff_ne_none.mp hdrain.1), or_iff_right hdrain.2]
    constructor
    · rintro ⟨e, he, hroute⟩
      obtain rfl := Option.some.inj (SortedMap.find_set_self.symm.trans he)
      exact ⟨hroute.seqnum, hroute.metric, hroute.hop⟩
    · rintro ⟨hseq, hmetric, hhop⟩
      exact ⟨_, SortedMap.find_set_self, hhop, hmetric, hseq⟩
  · rename_i hdrain
    obtain rfl := Option.some.inj h
    refine iff_of_true ⟨e, he, hsame⟩ ?_
    rcases not_and_or.mp hdrain with hq | hbig
    · exact Or.inl (Option.not_isSome_iff_eq_none.mp hq)
    · exact Or.inr (Or.inl (not_not.mp hbig))

/-- When the destination after the first `k` ones of an update is processed, a stale advertisement leaves
the route alone unless queued packets are sent off. -/
theorem processUpdate_stale {adverts : List Advert} (hread : readUpdate p.data = some adverts)
    (hadv : adverts[k]? = some adv) (hself : adv.dst ≠ env.myaddr_)
    (hbefore : a.afterAdverts env now (recv env now fuel) fuel p k = some b)
    (hfind : b.table.find adv.dst = some prte) (hstale : Stale prte adv)
    (hafter : a.afterAdverts env now (recv env now fuel) fuel p (k + 1) = some c) :
    (∃ e, c.table.find adv.dst = some e ∧ SameRoute prte e) ↔
      prte.q = none ∨ adv.incremented = BIG ∨
        (adv.seqnum = prte.seqnum ∧ adv.incremented = prte.metric ∧ env.nodeaddr p.saddr = prte.hop) := by
  have hstep : c ∈ processAdvert env now (recv env now fuel) fuel (env.nodeaddr p.saddr) b adv := by
    unfold afterAdverts processAdverts at hbefore hafter
    rw [hread, Option.bind_some] at hbefore hafter
    rw [List.take_add_one, hadv, List.foldlM_append, hbefore] at hafter
    simpa using hafter
  exact processAdvert_stale hself hfind hstale hstep

end Agent

/-! ### A stale advertisement that is believed -/

/-- The entry of a node whose route is lost, with a packet that waits for it. -/
def lostEntry (p : Packet) : Entry :=
  { Entry.zero with hop := toNsAddr 2, metric := BIG, seqnum := 101, q := some [p] }

/-- A packet for node 3. -/
def packetFrom (saddr : NsAddr) (ttl : ℤ) : Packet :=
  ⟨0, saddr, toNsAddr 3, 0, ttl, 0, []⟩

/-- Node 1 has lost its route to node 3. -/
def brokenRoute (p : Packet) : Agent :=
  { table := SortedMap.empty.set (toNsAddr 3) (lostEntry p)
    seqno_ := 0
    periodic_callback_ := none
    nextEvent := 0
    scheduled := []
    fates := [] }

/-- Node 5 says that node 3 is one hop away, with the sequence number from before the loss. -/
def oldNews : Packet :=
  ⟨1, toNsAddr 5, IP_BROADCAST, ROUTER_PORT, 32, 1, [1, 0, 0, 0, 3, 1, 0, 0, 0, 100]⟩


lemma readUpdate_oldNews : readUpdate oldNews.data = some [⟨toNsAddr 3, 1, 100⟩] := by
  decide +kernel

theorem processUpdate_stale_broken : ∃ c,
    (brokenRoute (packetFrom (toNsAddr 4) 2)).afterAdverts flatEnv 0 (Agent.recv flatEnv 0 4) 4 oldNews 1 =
      some c ∧
    ((∃ e, c.table.find (toNsAddr 3) = some e ∧ SameRoute (lostEntry (packetFrom (toNsAddr 4) 2)) e) ↔
      (lostEntry (packetFrom (toNsAddr 4) 2)).q = none ∨ (⟨toNsAddr 3, 1, 100⟩ : Advert).incremented = BIG ∨
        ((100 : UInt32) = 101 ∧ (⟨toNsAddr 3, 1, 100⟩ : Advert).incremented = BIG ∧ toNsAddr 5 = toNsAddr 2)) := by
  have hrun : ((brokenRoute (packetFrom (toNsAddr 4) 2)).afterAdverts flatEnv 0 (Agent.recv flatEnv 0 4) 4
      oldNews 1).isSome := by
    decide +kernel
  obtain ⟨c, hc⟩ := Option.isSome_iff_exists.mp hrun
  exact ⟨c, hc, Agent.processUpdate_stale readUpdate_oldNews rfl (by decide +kernel) rfl rfl
    (Or.inl (by decide)) hc⟩

/-- Node 1 believes the old news when it has sent off the packet. -/
theorem processUpdate_believes_stale : ∃ prte c e,
    (brokenRoute (packetFrom (toNsAddr 4) 2)).table.find (toNsAddr 3) = some prte ∧
      toNsAddr 3 ≠ flatEnv.myaddr_ ∧ Stale prte ⟨toNsAddr 3, 1, 100⟩ ∧
      (brokenRoute (packetFrom (toNsAddr 4) 2)).processUpdate flatEnv 0 (Agent.recv flatEnv 0 4) 4 oldNews =
        some c ∧
      c.table.find (toNsAddr 3) = some e ∧ ¬SameRoute prte e := by
  have hrun : (((brokenRoute (packetFrom (toNsAddr 4) 2)).processUpdate flatEnv 0 (Agent.recv flatEnv 0 4) 4
      oldNews).bind fun c => (c.table.find (toNsAddr 3)).map (·.seqnum)) = some 100 := by
    decide +kernel
  obtain ⟨c, hc, h⟩ := Option.bind_eq_some_iff.mp hrun
  obtain ⟨e, he, hseq⟩ := Option.map_eq_some_iff.mp h
  refine ⟨_, c, e, rfl, by decide +kernel, Or.inl (by decide), hc, he, fun hsame => ?_⟩
  have hsame' : e.seqnum = 101 := hsame.seqnum
  rw [hseq] at hsame'
  exact absurd hsame' (by decide)

end NetworkSimulator.Dsdv
