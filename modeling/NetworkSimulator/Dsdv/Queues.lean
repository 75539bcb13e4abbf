import NetworkSimulator.Dsdv.Stale

/-!
# The queues of the routing table

The queue of a destination holds a few packets that `recv` and `forwardPacket` have put there.
-/

namespace NetworkSimulator.Dsdv
open Library

/-- What `recv` and `forwardPacket` have found out about a packet that they queue. -/
structure Waiting (env : Env) (dst : NsAddr) (p : Packet) : Prop where
  addr : env.nodeaddr p.daddr = dst
  inside : env.diff_subnet p.daddr = false
  data : env.nodeaddr p.saddr = env.myaddr_ ∨ p.dport ≠ ROUTER_PORT
  unicast : p.daddr ≠ IP_BROADCAST ∨ p.dport = ROUTER_PORT

def Waits (env : Env) (dst : NsAddr) (q : List Packet) : Prop :=
  q.length ≤ MAX_QUEUE_LENGTH ∧ ∀ p ∈ q, Waiting env dst p

/-- What holds of every queue of the table. -/
def QueuesWait (env : Env) (t : RoutingTable) : Prop :=
  ∀ d e q, t.find d = some e → e.q = some q → Waits env d q

lemma QueuesWait.set {env : Env} {t : RoutingTable} {dst : NsAddr} {e : Entry} (ht : QueuesWait env t)
    (he : ∀ q, e.q = some q → Waits env dst q) : QueuesWait env (t.set dst e) := by
  intro d e' q hfind hq
  by_cases hd : d = dst
  · subst hd
    obtain rfl := Option.some.inj (SortedMap.find_set_self.symm.trans hfind)
    exact he q hq
  · rw [SortedMap.find_set_of_ne hd] at hfind
    exact ht d e' q hfind hq

namespace Agent
variable {env : Env} {now : ℚ} {r : Agent → Packet → Option Agent} {fuel : ℕ} {a b : Agent} {p : Packet}
  {hop dst : NsAddr} {adv : Advert} {prte rte rte' : Entry} {trigger : Bool}

lemma updateRoute_spec (h : a.updateRoute now dst rte trigger = some (b, rte')) :
    rte' = rte ∧ ∃ t, b.table = a.table.set dst rte ∨
      b.table = (a.table.set dst rte).set dst { rte with trigger_event := t } := by
  unfold updateRoute at h
  obtain ⟨s, hs, h⟩ := Option.bind_eq_some_iff.mp h
  obtain ⟨-, rfl⟩ := AddEntry_eq_some hs
  split at h
  · obtain ⟨s', hs', heq⟩ := Option.map_eq_some_iff.mp h
    obtain ⟨rfl, rfl⟩ := Prod.mk.inj heq
    unfold needTriggeredUpdate at hs'
    split at hs'
    · simp at hs'
    · obtain rfl := Option.some.inj hs'
      exact ⟨rfl, _, Or.inr rfl⟩
  · obtain ⟨rfl, rfl⟩ := Prod.mk.inj (Option.some.inj h)
    exact ⟨rfl, none, Or.inl rfl⟩

/-- The decision keeps the queue of the destination, in the table and in the candidate. -/
lemma learn_waits (ht : QueuesWait env a.table) (h : a.learn env now hop adv = some (b, rte)) :
    QueuesWait env b.table := by
  have hupdate : ∀ {rte rte' trigger}, a.updateRoute now adv.dst rte trigger = some (b, rte') →
      (∀ q, rte.q = some q → Waits env adv.dst q) → QueuesWait env b.table := by
    intro rte rte' trigger h hrte
    obtain ⟨-, t, hb | hb⟩ := updateRoute_spec h
    · rw [hb]
      exact ht.set hrte
    · rw [hb]
      exact (ht.set hrte).set hrte
  unfold learn at h
  cases hfind : a.table.find adv.dst with
  | none =>
    rw [hfind] at h
    dsimp only at h
    split at h
    · exact hupdate h fun q hq => by simp [candidate, Entry.zero] at hq
    · exact hupdate h fun q hq => by simp [candidate, Entry.zero] at hq
  | some prte =>
    have hold := ht adv.dst prte
    rw [hfind] at h
    dsimp only at h
    split at h
    · split at h
      · exact hupdate h fun q hq => hold q hfind hq
      · exact (Prod.mk.inj (Option.some.inj h)).1 ▸ ht
    · split at h
      · exact hupdate h fun q hq => hold q hfind hq
      · split at h
        · obtain ⟨s, hs, heq⟩ := Option.map_eq_some_iff.mp h
          unfold needTriggeredUpdate at hs
          split at hs
          · simp at hs
          · obtain rfl := Option.some.inj hs
            rw [← (Prod.mk.inj heq).1]
            exact ht.set fun q hq => hold q hfind hq
        · exact (Prod.mk.inj (Option.some.inj h)).1 ▸ ht

lemma deque_waits (ht : QueuesWait env a.table) (h : a.deque dst = some (p, b)) : QueuesWait env b.table := by
  unfold deque at h
  obtain ⟨e, hfind, h⟩ := Option.bind_eq_some_iff.mp h
  split at h
  · rename_i x rest hq
    obtain ⟨rfl, rfl⟩ := Prod.mk.inj (Option.some.inj h)
    obtain ⟨hlen, hmem⟩ := ht dst e _ hfind hq
    refine ht.set fun q hq' => ?_
    obtain rfl := Option.some.inj hq'
    exact ⟨(Nat.le_succ _).trans hlen, fun y hy => hmem y (List.mem_cons_of_mem x hy)⟩
  · simp at h

lemma drain_waits (hr : ∀ a b p, QueuesWait env a.table → r a p = some b → QueuesWait env b.table)
    (ht : QueuesWait env a.table) (h : drain r dst fuel a = some b) : QueuesWait env b.table := by
  induction fuel generalizing a with
  | zero => simp [drain] at h
  | succ fuel ih =>
    rw [drain] at h
    split at h
    · exact Option.some.inj h ▸ ht
    · rename_i p s hdeque
      obtain ⟨s', hs', h⟩ := Option.bind_eq_some_iff.mp h
      exact ih (hr _ _ _ (deque_waits ht hdeque) hs') h

lemma processAdvert_waits (hr : ∀ a b p, QueuesWait env a.table → r a p = some b → QueuesWait env b.table)
    (ht : QueuesWait env a.table) (h : processAdvert env now r fuel hop a adv = some b) :
    QueuesWait env b.table := by
  unfold processAdvert at h
  split at h
  · split at h
    · obtain rfl := Option.some.inj h
      split
      · exact ht
      · exact ht
    · exact Option.some.inj h ▸ ht
  · obtain ⟨⟨s, rte⟩, hlearn, h⟩ := Option.bind_eq_some_iff.mp h
    have hs := learn_waits ht hlearn
    dsimp only at h
    split at h
    · obtain ⟨s', hs', hadd⟩ := Option.bind_eq_some_iff.mp h
      obtain ⟨-, rfl⟩ := AddEntry_eq_some hadd
      exact QueuesWait.set (drain_waits hr hs hs') fun q hq => by simp at hq
    · exact Option.some.inj h ▸ hs

lemma processAdverts_waits (hr : ∀ a b p, QueuesWait env a.table → r a p = some b → QueuesWait env b.table)
    {adverts : List Advert} (ht : QueuesWait env a.table)
    (h : a.processAdverts env now r fuel hop adverts = some b) : QueuesWait env b.table := by
  unfold processAdverts at h
  induction adverts generalizing a with
  | nil => exact Option.some.inj h ▸ ht
  | cons adv adverts ih =>
    rw [List.foldlM_cons] at h
    obtain ⟨s, hs, h⟩ := Option.bind_eq_some_iff.mp h
    exact ih (processAdvert_waits hr ht hs) h

lemma restartTimeout_waits (ht : QueuesWait env a.table) :
    QueuesWait env (a.restartTimeout env now hop).table := by
  refine ht.set fun q hq => ?_
  cases hfind : a.table.find hop with
  | none =>
    rw [hfind] at hq
    simp [Entry.zero] at hq
  | some e =>
    rw [hfind] at hq
    exact ht hop e q hfind hq

lemma forwardPacket_waits (ht : QueuesWait env a.table)
    (hdata : env.nodeaddr p.saddr = env.myaddr_ ∨ p.dport ≠ ROUTER_PORT)
    (hunicast : p.daddr ≠ IP_BROADCAST ∨ p.dport = ROUTER_PORT) :
    QueuesWait env (a.forwardPacket env now p).table := by
  unfold forwardPacket
  dsimp only
  split
  · split
    · exact ht
    · split
      · exact ht
      · exact ht
  · rename_i hinside
    have hp : Waiting env (env.nodeaddr p.daddr) p :=
      ⟨rfl, Bool.eq_false_iff.mpr hinside, hdata, hunicast⟩
    split
    · rename_i e hfind
      split
      · exact ht
      · refine ht.set fun q hq => ?_
        obtain rfl := Option.some.inj hq
        refine ⟨?_, fun x hx => ?_⟩
        · rw [List.length_drop]
          omega
        · rcases List.mem_append.mp (List.mem_of_mem_drop hx) with hx | hx
          · cases hq : e.q with
            | none =>
              rw [hq] at hx
              exact absurd hx List.not_mem_nil
            | some q =>
              rw [hq] at hx
              exact (ht _ e q hfind hq).2 x hx
          · obtain rfl := List.mem_singleton.mp hx
            exact hp
    · refine ht.set fun q hq => ?_
      obtain rfl := Option.some.inj hq
      refine ⟨Nat.succ_le_succ (Nat.zero_le 4), fun x hx => ?_⟩
      obtain rfl := List.mem_singleton.mp hx
      exact hp

/-- The queues hold waiting packets after any call of `recv`. -/
theorem recv_waits (ht : QueuesWait env a.table) (h : recv env now fuel a p = some b) :
    QueuesWait env b.table := by
  induction fuel generalizing a b p with
  | zero => simp [recv] at h
  | succ fuel ih =>
    unfold recv receive at h
    split at h
    · exact Option.some.inj h ▸ ht
    · dsimp only at h
      split at h
      · unfold processUpdate at h
        obtain ⟨adverts, -, h⟩ := Option.bind_eq_some_iff.mp h
        obtain ⟨s, hs, rfl⟩ := Option.map_eq_some_iff.mp h
        exact restartTimeout_waits (processAdverts_waits (fun _ _ _ ht h => ih ht h) ht hs)
      · rename_i hdata
        split at h
        · obtain rfl := Option.some.inj h
          exact ht
        · rename_i hunicast
          obtain rfl := Option.some.inj h
          refine forwardPacket_waits ht ?_ ?_
          · exact (not_and_or.mp hdata).imp_left not_not.mp
          · exact (not_and_or.mp hunicast).imp_right not_not.mp

end Agent

end NetworkSimulator.Dsdv
