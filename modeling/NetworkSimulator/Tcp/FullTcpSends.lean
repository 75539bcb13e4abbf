import NetworkSimulator.Tcp.FullTcpRecv

/-!
# What sending leaves alone

Whatever the agent sends, and whenever it does so, the receiving side and the count of the duplicate
ACKs are as before. The state changes only when the connection is closed on empty.
-/

namespace NetworkSimulator

namespace FullTcpAgent
variable {κ : Type*} {c : FullTcpConfig κ} {now : ℚ} {s s' t : FullTcpAgent κ}

/-- What the receiving side keeps is the same. -/
structure SameReceiver (s t : FullTcpAgent κ) : Prop where
  rq : t.rq = s.rq
  irs : t.irs = s.irs
  delivered : t.delivered = s.delivered
  state : t.state = s.state ∨ t.state = .finWait1 ∧ s.state.upToEstablished

/-- The acknowledgement and the count of its duplicates are the same. -/
structure SameAcks (s t : FullTcpAgent κ) : Prop where
  highestAck : t.highestAck = s.highestAck
  dupacks : t.dupacks = s.dupacks
  acks : t.acks = s.acks

/-- At most the sending side has moved. -/
def Sends (s t : FullTcpAgent κ) : Prop := SameReceiver s t ∧ SameAcks s t

lemma SameReceiver.trans (h : SameReceiver s s') (h' : SameReceiver s' t) : SameReceiver s t := by
  refine ⟨h'.rq.trans h.rq, h'.irs.trans h.irs, h'.delivered.trans h.delivered, ?_⟩
  rcases h.state with hs | ⟨hs, hclose⟩
  · rw [← hs]
    exact h'.state
  · rcases h'.state with ht | ⟨ht, -⟩
    · exact Or.inr ⟨ht.trans hs, hclose⟩
    · exact Or.inr ⟨ht, hclose⟩

lemma SameAcks.trans (h : SameAcks s s') (h' : SameAcks s' t) : SameAcks s t :=
  ⟨h'.highestAck.trans h.highestAck, h'.dupacks.trans h.dupacks, h'.acks.trans h.acks⟩

namespace Sends

lemma refl (s : FullTcpAgent κ) : Sends s s := ⟨⟨rfl, rfl, rfl, Or.inl rfl⟩, rfl, rfl, rfl⟩

lemma trans (h : Sends s s') (h' : Sends s' t) : Sends s t :=
  ⟨h.1.trans h'.1, h.2.trans h'.2⟩

lemma foutputSend (seqno datalen : ℤ) (pflags : ℕ) (isRetransmit : Bool) :
    Sends s (foutputSend c now s seqno datalen pflags isRetransmit).1 := by
  refine ⟨⟨rfl, rfl, rfl, ?_⟩, rfl, rfl, rfl⟩
  -- a pending close moves the state
  by_cases hclose : (s.needclose && s.state.upToEstablished) = true
  · exact Or.inr ⟨if_pos hclose, (Bool.and_eq_true_iff.mp hclose).2⟩
  · exact Or.inl (if_neg hclose)

lemma foutput (seqno : ℤ) : Sends s (foutput c now s seqno).1 := by
  unfold FullTcpAgent.foutput
  extract_lets _ _ _ _ _ _ _ _ _ _ _ _ s' _ _
  split
  · have hs' : Sends s s' := ⟨⟨rfl, rfl, rfl, Or.inl rfl⟩, rfl, rfl, rfl⟩
    exact hs'.trans (foutputSend _ _ _ _)
  · exact ⟨⟨rfl, rfl, rfl, Or.inl rfl⟩, rfl, rfl, rfl⟩

lemma sentUpTo (seq amt : ℤ) : Sends s (sentUpTo s seq amt) :=
  ⟨⟨rfl, rfl, rfl, Or.inl rfl⟩, rfl, rfl, rfl⟩

lemma sendMuchLoop {maxburst fuel npackets : ℕ} {force : Bool}
    (h : sendMuchLoop c now maxburst fuel force npackets s = some t) : Sends s t := by
  induction fuel generalizing force npackets s with
  | zero => exact absurd h (by simp [FullTcpAgent.sendMuchLoop])
  | succ fuel ih =>
    have hsent : ∀ amt, Sends s
        (FullTcpAgent.sentUpTo (FullTcpAgent.foutput c now s s.tSeqno).1 s.tSeqno amt) :=
      fun amt => (foutput s.tSeqno).trans (sentUpTo _ _)
    unfold FullTcpAgent.sendMuchLoop at h
    extract_lets at h
    split at h
    · exact Option.some.inj h ▸ refl s
    · split at h
      · exact Option.some.inj h ▸ ⟨⟨rfl, rfl, rfl, Or.inl rfl⟩, rfl, rfl, rfl⟩
      · split at h
        · exact Option.some.inj h ▸ foutput _
        · split at h
          · exact Option.some.inj h ▸ hsent _
          · exact (hsent _).trans (ih h)

lemma sendMuch {force : Bool} {maxburst : ℕ} (h : sendMuch c now s force maxburst = some t) :
    Sends s t := by
  unfold FullTcpAgent.sendMuch at h
  split at h
  · exact Option.some.inj h ▸ refl s
  · exact sendMuchLoop h

lemma dropafterack (h : dropafterack c now s = some t) : Sends s t := by
  have hs : Sends s { s with acknow := true } := ⟨⟨rfl, rfl, rfl, Or.inl rfl⟩, rfl, rfl, rfl⟩
  exact hs.trans (sendMuch h)

lemma dropwithreset (p : TcpPacket) (tiflags : ℕ) (datalen : ℤ) :
    Sends s (dropwithreset c now p tiflags datalen s) := by
  unfold FullTcpAgent.dropwithreset
  split
  · exact ⟨⟨rfl, rfl, rfl, Or.inl rfl⟩, rfl, rfl, rfl⟩
  · exact ⟨⟨rfl, rfl, rfl, Or.inl rfl⟩, rfl, rfl, rfl⟩

lemma fastRetransmit (seq : ℤ) : Sends s (fastRetransmit c now s seq) := by
  have hs : Sends s { s with recover := s.maxseq, lastCwndAction := CWND_ACTION_DUPACK } :=
    ⟨⟨rfl, rfl, rfl, Or.inl rfl⟩, rfl, rfl, rfl⟩
  exact hs.trans (foutput seq)

lemma fullRenoAction : Sends s (fullRenoAction c now s) := by
  unfold FullTcpAgent.fullRenoAction
  extract_lets s₁ s₂
  have hs₁ : Sends s (cancelRtxTimer { s₁ with rttActive := false, recover := s₁.maxseq }) :=
    ⟨⟨rfl, rfl, rfl, Or.inl rfl⟩, rfl, rfl, rfl⟩
  have hs₂ : Sends s s₂ := hs₁.trans (fastRetransmit _)
  exact hs₂.trans ⟨⟨rfl, rfl, rfl, Or.inl rfl⟩, rfl, rfl, rfl⟩

lemma ecnAction (seqno : ℤ) : Sends s (ecnAction c s seqno) := by
  unfold FullTcpAgent.ecnAction
  split
  · exact ⟨⟨rfl, rfl, rfl, Or.inl rfl⟩, rfl, rfl, rfl⟩
  · exact refl s

lemma predicted (p : TcpPacket) : Sends s (predicted c now p s) := by
  unfold FullTcpAgent.predicted
  split
  · exact ⟨⟨rfl, rfl, rfl, Or.inl rfl⟩, rfl, rfl, rfl⟩
  · exact refl s

end Sends

/-- `dupack_action` itself does not count. -/
lemma dupackAction_sends :
    Sends { s with acks := .dupackAction s.highestAck :: s.acks } (dupackAction c now s) := by
  unfold dupackAction
  extract_lets _ s₁ s₂
  have hs₁ : Sends { s with acks := .dupackAction s.highestAck :: s.acks } s₁ :=
    ⟨⟨rfl, rfl, rfl, Or.inl rfl⟩, rfl, rfl, rfl⟩
  split
  · exact hs₁.trans Sends.fullRenoAction
  · split
    · have hs₂ : Sends s₁ (cancelRtxTimer { s₂ with rttActive := false }) :=
        ⟨⟨rfl, rfl, rfl, Or.inl rfl⟩, rfl, rfl, rfl⟩
      exact hs₁.trans (hs₂.trans (Sends.fastRetransmit _))
    · split
      · exact hs₁
      · exact hs₁.trans Sends.fullRenoAction

/-- After the ACK has been taken, what is done about it leaves the rest alone. -/
lemma ackReceived_sends (p : TcpPacket) (tiflags : ℕ) :
    Sends { newack c now p s with dupacks := 0 } (ackReceived c now p tiflags s) := by
  unfold ackReceived
  extract_lets s₁ partialAck s₂ s₃ s₄
  have hs₂ : Sends { s₁ with dupacks := 0 } s₂ := by
    unfold s₂
    split
    · exact ⟨⟨rfl, rfl, rfl, Or.inl rfl⟩, rfl, rfl, rfl⟩
    · exact ⟨⟨rfl, rfl, rfl, Or.inl rfl⟩, rfl, rfl, rfl⟩
  have hs₃ : Sends s₂ s₃ := Sends.ecnAction _
  have hs₄ : Sends s₂ s₄ := by
    unfold s₄
    split
    · split
      · exact hs₃.trans ⟨⟨rfl, rfl, rfl, Or.inl rfl⟩, rfl, rfl, rfl⟩
      · exact hs₃
    · exact Sends.refl _
  split
  · exact (hs₂.trans hs₄).trans ⟨⟨rfl, rfl, rfl, Or.inl rfl⟩, rfl, rfl, rfl⟩
  · exact hs₂.trans hs₄

/-- A timer only makes the agent send; the retransmission timer also ends the count of duplicates. -/
lemma timeout_sends {timer : Timer} (h : timeout c now s timer = some t) :
    Sends s t ∨ Sends { s with dupacks := 0 } t := by
  unfold timeout at h
  cases timer with
  | rtx =>
    dsimp only at h
    split at h
    · exact Or.inl (Option.some.inj h ▸ ⟨⟨rfl, rfl, rfl, Or.inl rfl⟩, rfl, rfl, rfl⟩)
    · have hs : Sends { s with dupacks := 0 } (timeoutAction c { s with rtxPending := false }) :=
        ⟨⟨rfl, rfl, rfl, Or.inl rfl⟩, rfl, rfl, rfl⟩
      exact Or.inr (hs.trans (Sends.sendMuch h))
  | delsnd =>
    dsimp only at h
    split at h
    · exact Or.inl (Option.some.inj h ▸ ⟨⟨rfl, rfl, rfl, Or.inl rfl⟩, rfl, rfl, rfl⟩)
    · have hs : Sends s { s with delsndPending := false } :=
        ⟨⟨rfl, rfl, rfl, Or.inl rfl⟩, rfl, rfl, rfl⟩
      exact Or.inl (hs.trans (Sends.sendMuch h))
  | delack =>
    dsimp only at h
    split at h
    · exact Or.inl (Option.some.inj h ▸ ⟨⟨rfl, rfl, rfl, Or.inl rfl⟩, rfl, rfl, rfl⟩)
    · obtain ⟨s', hs', rfl⟩ := Option.map_eq_some_iff.mp h
      have hsends : Sends s s' := by
        split at hs'
        · have hs : Sends s { s with delackPending := false, delack := false, acknow := true } :=
            ⟨⟨rfl, rfl, rfl, Or.inl rfl⟩, rfl, rfl, rfl⟩
          exact hs.trans (Sends.sendMuch hs')
        · exact Option.some.inj hs' ▸ ⟨⟨rfl, rfl, rfl, Or.inl rfl⟩, rfl, rfl, rfl⟩
      exact Or.inl (hsends.trans ⟨⟨rfl, rfl, rfl, Or.inl rfl⟩, rfl, rfl, rfl⟩)

/-- The state in which the user's close leaves the connection. -/
def closesTo : TcpState → TcpState
  | .listen | .synSent => .closed
  | .synReceived | .established => .finWait1
  | .closeWait => .lastAck
  | state => state

lemma usrclosed_sends (h : usrclosed c now s = some t) :
    Sends { s with state := closesTo s.state } t := by
  have hgo : ∀ u : FullTcpAgent κ, Sends { s with state := closesTo s.state } u →
      sendMuch c now u true c.maxburst = some t → Sends { s with state := closesTo s.state } t :=
    fun u hu hres => hu.trans (Sends.sendMuch hres)
  unfold usrclosed at h
  cases hstate : s.state <;> simp only [hstate] at h hgo ⊢
  case closed => exact Option.some.inj h ▸ ⟨⟨rfl, rfl, rfl, Or.inl rfl⟩, rfl, rfl, rfl⟩
  case listen => exact Option.some.inj h ▸ ⟨⟨rfl, rfl, rfl, Or.inl rfl⟩, rfl, rfl, rfl⟩
  case finWait1 => exact Option.some.inj h ▸ ⟨⟨rfl, rfl, rfl, Or.inl rfl⟩, rfl, rfl, rfl⟩
  case finWait2 => exact Option.some.inj h ▸ ⟨⟨rfl, rfl, rfl, Or.inl rfl⟩, rfl, rfl, rfl⟩
  case closing => exact Option.some.inj h ▸ ⟨⟨rfl, rfl, rfl, Or.inl rfl⟩, rfl, rfl, rfl⟩
  all_goals
    refine hgo _ ?_ h
    exact ⟨⟨rfl, rfl, rfl, Or.inl rfl⟩, rfl, rfl, rfl⟩

end FullTcpAgent

end NetworkSimulator
