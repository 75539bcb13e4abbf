import NetworkSimulator.Imep.Links

/-!
# Between two events no chain is being pulled

`getNextPacket` keeps in each entry how far the chain has come that it is pulling. The incoming timer
goes on until nothing is left to pull, so at every event the entries say `ILLEGAL_SEQ`.
-/

namespace NetworkSimulator.Imep.Agent

variable {π : Type*} {s s' : Agent π} {y : ℤ} {now : ℚ}

lemma size_deliver {fuel : ℕ} : (s.deliver y fuel).incomingQ.size ≤ s.incomingQ.size := by
  induction fuel generalizing s with
  | zero => exact le_rfl
  | succ fuel ih =>
    unfold deliver
    split
    · exact le_rfl
    next q p hq =>
      have hle := s.incomingQ.size_getPacket_le y (s.lastSeq y + 1)
      rw [hq] at hle
      exact ih.trans hle

/-- The loop ends because `getNextPacket` has nothing more, and then no chain is being pulled. -/
lemma idle_retireHoles {fuel : ℕ} (hfuel : s.incomingQ.size < fuel) (hs : s.retireHoles now fuel = some s') :
    s'.incomingQ.Idle := by
  induction fuel generalizing s with
  | zero => exact absurd hfuel (Nat.not_lt_zero _)
  | succ fuel ih =>
    unfold retireHoles at hs
    split at hs
    next q hq =>
      obtain rfl := Option.some.inj hs
      rcases s.incomingQ.getNextPacket_cases now with ⟨hq', -⟩ | ⟨_, _, _, _, _, _, -, -, -, -, hq'⟩
      · obtain ⟨rfl, -⟩ := Prod.mk.inj (hq'.symm.trans hq)
        intro d hd
        obtain ⟨e, -, rfl⟩ := List.mem_map.mp hd
        rfl
      · rw [hq'] at hq
        cases hq
    next q index t hq =>
      split_ifs at hs
      have hsize := DstQueue.size_getNextPacket hq
      refine ih ?_ hs
      refine lt_of_le_of_lt size_deliver ?_
      change q.size < fuel
      omega

lemma idle_getPacket {q : DstQueue π} (seqno : ℕ) (h : q.Idle) : (q.getPacket y seqno).1.Idle := by
  unfold DstQueue.getPacket
  cases q.findEntry y with
  | none => exact h
  | some e =>
    intro d hd
    obtain ⟨d', hd', rfl⟩ := List.mem_map.mp hd
    split_ifs
    · rw [(d'.getPacket_frame seqno).2.1]
      exact h d' hd'
    · exact h d' hd'

lemma idle_addEntry {q : DstQueue π} {e : ℚ} {seqno : ℕ} {p : π} (h : q.Idle) :
    (q.addEntry y e seqno p).Idle := by
  unfold DstQueue.addEntry
  split_ifs
  · intro d hd
    obtain ⟨d', hd', rfl⟩ := List.mem_map.mp hd
    split_ifs
    · rw [(d'.addEntry_frame e seqno p).2]
      exact h d' hd'
    · exact h d' hd'
  · intro d hd
    rcases List.mem_cons.mp hd with rfl | hd
    · exact (Dstent.addEntry_frame _ e seqno p).2
    · exact h d hd

lemma idle_deliver {fuel : ℕ} (h : s.incomingQ.Idle) : (s.deliver y fuel).incomingQ.Idle := by
  induction fuel generalizing s with
  | zero => exact h
  | succ fuel ih =>
    unfold deliver
    split
    · exact h
    next q p hq =>
      have hidle := idle_getPacket (y := y) (s.lastSeq y + 1) h
      rw [hq] at hidle
      exact ih hidle

lemma idle_down (h : s.incomingQ.Idle) : (s.imepSetLinkDownStatus y).incomingQ.Idle := by
  cases hl : s.findLink y with
  | none =>
    rw [down_of_none hl]
    exact h
  | some l =>
    rw [(down_of_some (by rw [hl]; rfl)).2.2.2]
    exact fun d hd => h d (List.mem_of_mem_filter hd)

lemma idle_purgeOne (h : s.incomingQ.Idle) : (s.purgeOne now y).incomingQ.Idle := by
  unfold purgeOne
  extract_lets s₁ s₂
  have hs₂ : s₂.incomingQ.Idle := by
    dsimp only [s₂]
    split_ifs
    · exact idle_down h
    · exact h
  split_ifs
  · exact hs₂
  · exact hs₂

lemma idle_beacon (h : s.incomingQ.Idle) : (s.handlerBeaconTimer now).incomingQ.Idle := by
  unfold handlerBeaconTimer purgeLink
  refine List.foldlRecOn (motive := fun s : Agent π => s.incomingQ.Idle) _ _ ?_ fun s hs x _ => hs
  exact List.foldlRecOn (motive := fun s : Agent π => s.incomingQ.Idle) _ _ h fun s hs x _ => idle_purgeOne hs

lemma idle_punt {id fuel i : ℕ} (h : s.incomingQ.Idle) : (s.punt id fuel i).incomingQ.Idle := by
  induction fuel generalizing s i with
  | zero => exact h
  | succ fuel ih =>
    unfold punt
    split
    · exact h
    · split_ifs
      · exact ih (idle_down h)
      · exact h

lemma idle_rexmit (h : s.incomingQ.Idle) : (s.handlerReXmitTimer now).incomingQ.Idle := by
  unfold handlerReXmitTimer
  split
  · exact h
  · split_ifs
    · exact idle_punt h
    · exact h
    · exact h

@[simp] lemma incomingQ_ack {saddr : ℤ} {ack : ℤ × ℕ} : (imepAck now saddr s ack).incomingQ = s.incomingQ := by
  unfold imepAck
  extract_lets s₁
  split_ifs
  · split
    · rfl
    · rw [incomingQ_bi]
      rfl
  · rfl

lemma incomingQ_ack_input {p : Incoming π} : (s.imep_ack_input now p).incomingQ = s.incomingQ := by
  unfold imep_ack_input
  exact List.foldlRecOn (motive := fun t : Agent π => t.incomingQ = s.incomingQ) _ _ rfl
    fun t ht ack _ => incomingQ_ack.trans ht

lemma incomingQ_hello_input {p : Incoming π} : (s.imep_hello_input now p).incomingQ = s.incomingQ := by
  unfold imep_hello_input
  split_ifs
  · exact incomingQ_bi
  · rfl

lemma idle_object {saddr : ℤ} {ob : ObjectBlock π} (h : s.incomingQ.Idle) :
    (s.imep_object_input now saddr ob).incomingQ.Idle := by
  have h₁ : (s.imep_ack_object saddr ob).incomingQ = s.incomingQ := by
    unfold imep_ack_object
    split_ifs <;> rfl
  unfold imep_object_input
  extract_lets s₁ s₂ s₃
  have h₂ : s₂.incomingQ.Idle := by
    dsimp only [s₂]
    split_ifs
    · rw [incomingQ_setLink, h₁]
      exact h
    · rw [h₁]
      exact h
  split_ifs
  · exact h₂
  · refine idle_deliver ?_
    dsimp only [s₃]
    split_ifs
    · exact h₂
    · exact idle_addEntry h₂

lemma idle_recv {p : Incoming π} (h : s.incomingQ.Idle) : (s.recv_incoming now p).incomingQ.Idle := by
  unfold recv_incoming
  extract_lets s₁ s₂ s₃
  have h₁ : s₁.incomingQ.Idle := by
    dsimp only [s₁]
    rw [incomingQ_in]
    exact h
  have h₃ : s₃.incomingQ.Idle := by
    dsimp only [s₃, s₂]
    rw [incomingQ_hello_input, incomingQ_ack_input]
    exact h₁
  split_ifs
  · exact h₁
  · split
    · exact h₃
    · exact idle_object h₃

lemma idle_incoming (hs : s.handlerIncomingTimer now = some s') : s'.incomingQ.Idle := by
  simp only [handlerIncomingTimer, Option.bind_eq_bind, Option.bind_eq_some_iff] at hs
  obtain ⟨t, ht, hs⟩ := hs
  split_ifs at hs
  obtain rfl := Option.some.inj hs
  exact idle_retireHoles (Nat.lt_succ_self _) ht

lemma step_idle {e : Event π} {o : Unit} (h : s.incomingQ.Idle) (hs : s.step e = some (s', o)) : s'.incomingQ.Idle := by
  cases e with
  | recv now p =>
    obtain ⟨rfl, -⟩ := Prod.mk.inj (Option.some.inj hs)
    exact idle_recv h
  | aggregateObject now found =>
    obtain ⟨rfl, -⟩ := Prod.mk.inj (Option.some.inj hs)
    unfold aggregateObjectBlock
    simp only
    split_ifs <;> exact h
  | beaconTimer now =>
    obtain ⟨rfl, -⟩ := Prod.mk.inj (Option.some.inj hs)
    exact idle_beacon h
  | rexmitTimer now =>
    obtain ⟨rfl, -⟩ := Prod.mk.inj (Option.some.inj hs)
    exact idle_rexmit h
  | incomingTimer now =>
    obtain ⟨t, ht, he⟩ := Option.map_eq_some_iff.mp hs
    obtain ⟨rfl, -⟩ := Prod.mk.inj he
    exact idle_incoming ht
  | undeliverable inet nextHop =>
    obtain ⟨rfl, -⟩ := Prod.mk.inj (Option.some.inj hs)
    unfold imepPacketUndeliverable
    split_ifs
    · exact idle_down h
    · exact h

end NetworkSimulator.Imep.Agent
