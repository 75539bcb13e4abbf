import NetworkSimulator.Tcp.FullTcpDelivery

/-!
# Duplicate ACKs

Fast retransmit is meant for `tcprexmtthresh_` duplicates of one ACK. Each path that moves
`highest_ack_` also ends the count of the duplicates, except that header prediction takes a pure ACK
without doing so.
-/

namespace NetworkSimulator
open Library

namespace FullTcpAgent
variable {κ : Type*} {c : FullTcpConfig κ} {now : ℚ} {s s' t : FullTcpAgent κ} {p : TcpPacket}
  {tiflags : ℕ} {datalen : ℤ} {needoutput : Bool}

/-- The events before each `dupack_action` are as many ACKs at `highest_ack_` as the threshold says. -/
def Consecutive (thresh : ℤ) (acks : List AckEvent) : Prop :=
  ∀ newer h older, acks = newer ++ .dupackAction h :: older →
    older.take thresh.toNat = List.replicate thresh.toNat (.counted h)

/-- `highest_ack_` has moved or not, and the count starts again. -/
def Restarts (s t : FullTcpAgent κ) : Prop :=
  t.dupacks = 0 ∧ ∃ k, t.acks = List.replicate k .advanced ++ s.acks

/-- A duplicate is counted. -/
def Counted (s t : FullTcpAgent κ) : Prop :=
  t.highestAck = s.highestAck ∧ t.dupacks = s.dupacks + 1 ∧ t.acks = .counted s.highestAck :: s.acks

/-- What a step does to the count of the duplicates. -/
def Goes (c : FullTcpConfig κ) (s t : FullTcpAgent κ) : Prop :=
  SameAcks s t ∨ Restarts s t ∨ (Counted s t ∧ t.dupacks ≠ c.tcprexmtthresh) ∨
    ∃ u, Counted s u ∧ u.dupacks = c.tcprexmtthresh ∧
      SameAcks { u with acks := .dupackAction u.highestAck :: u.acks } t

/-- Below the threshold, the last events are the duplicates that have been counted. -/
structure Counts (c : FullTcpConfig κ) (s : FullTcpAgent κ) : Prop where
  nonneg : 0 ≤ s.dupacks
  last : s.dupacks < c.tcprexmtthresh →
    ∃ older, s.acks = List.replicate s.dupacks.toNat (.counted s.highestAck) ++ older
  consecutive : Consecutive c.tcprexmtthresh s.acks

lemma Consecutive.cons {thresh : ℤ} {acks : List AckEvent} {e : AckEvent}
    (h : Consecutive thresh acks) (he : ∀ a, e ≠ .dupackAction a) : Consecutive thresh (e :: acks) := by
  intro newer a older heq
  cases newer with
  | nil =>
    rw [List.nil_append, List.cons.injEq] at heq
    exact absurd heq.1 (he a)
  | cons x newer =>
    rw [List.cons_append, List.cons.injEq] at heq
    exact h newer a older heq.2

lemma Consecutive.action {thresh a : ℤ} {acks : List AckEvent} (h : Consecutive thresh acks)
    (hlast : acks.take thresh.toNat = List.replicate thresh.toNat (.counted a)) :
    Consecutive thresh (.dupackAction a :: acks) := by
  intro newer b older heq
  cases newer with
  | nil =>
    simp only [List.nil_append, List.cons.injEq, AckEvent.dupackAction.injEq] at heq
    obtain ⟨rfl, rfl⟩ := heq
    exact hlast
  | cons x newer =>
    rw [List.cons_append, List.cons.injEq] at heq
    exact h newer b older heq.2

lemma Counts.same (h : Counts c s) (hs : SameAcks s t) : Counts c t := by
  refine ⟨?_, ?_, ?_⟩
  · rw [hs.dupacks]
    exact h.nonneg
  · rw [hs.dupacks, hs.highestAck, hs.acks]
    exact h.last
  · rw [hs.acks]
    exact h.consecutive

lemma Counts.restarts (h : Counts c s) (hs : Restarts s t) : Counts c t := by
  obtain ⟨hzero, k, hacks⟩ := hs
  refine ⟨hzero.ge, fun _ => ⟨t.acks, by simp [hzero]⟩, ?_⟩
  rw [hacks]
  clear hacks
  induction k with
  | zero => exact h.consecutive
  | succ k ih => exact ih.cons fun a => by simp

lemma Counts.counted (h : Counts c s) (hs : Counted s t) : Counts c t := by
  obtain ⟨hhigh, hcount, hacks⟩ := hs
  have hnonneg := h.nonneg
  refine ⟨by omega, fun hlt => ?_, ?_⟩
  · obtain ⟨older, hlast⟩ := h.last (by omega)
    have hsucc : t.dupacks.toNat = s.dupacks.toNat + 1 := by omega
    refine ⟨older, ?_⟩
    rw [hacks, hlast, hsucc, hhigh, List.replicate_succ, List.cons_append]
  · rw [hacks]
    exact h.consecutive.cons fun a => by simp

/-- The duplicate that reaches the threshold is the last of as many. -/
lemma Counts.action (h : Counts c s) {u : FullTcpAgent κ} (hu : Counted s u)
    (hthresh : u.dupacks = c.tcprexmtthresh) :
    Counts c { u with acks := .dupackAction u.highestAck :: u.acks } := by
  have hu' := h.counted hu
  obtain ⟨hhigh, hcount, hacks⟩ := hu
  have hnonneg := h.nonneg
  refine ⟨hu'.nonneg, fun hlt => absurd hthresh hlt.ne, hu'.consecutive.action ?_⟩
  obtain ⟨older, hlast⟩ := h.last (by omega)
  have hsucc : c.tcprexmtthresh.toNat = s.dupacks.toNat + 1 := by omega
  rw [hacks, hlast, hsucc, hhigh, List.take_succ_cons, List.take_left' (by simp),
    List.replicate_succ]

lemma Counts.goes (h : Counts c s) (hs : Goes c s t) : Counts c t := by
  rcases hs with hs | hs | ⟨hs, -⟩ | ⟨u, hu, hthresh, hs⟩
  · exact h.same hs
  · exact h.restarts hs
  · exact h.counted hs
  · exact (h.action hu hthresh).same hs

/-- An ACK that moves `highest_ack_` ends the count. -/
lemma Goes.advance (h : Goes c s t) (hlt : s.highestAck < t.highestAck) : t.dupacks = 0 := by
  rcases h with hs | hs | ⟨hs, -⟩ | ⟨u, hu, -, hs⟩
  · exact absurd hs.highestAck hlt.ne'
  · exact hs.1
  · exact absurd hs.1 hlt.ne'
  · exact absurd (hs.highestAck.trans hu.1) hlt.ne'

lemma Restarts.same (h : Restarts s s') (hs : SameAcks s' t) : Restarts s t :=
  ⟨hs.dupacks.trans h.1, h.2.imp fun _ hk => hs.acks.trans hk⟩

lemma Restarts.of_same (hs : SameAcks s s') (h : Restarts s' t) : Restarts s t := by
  obtain ⟨hzero, k, hk⟩ := h
  exact ⟨hzero, k, by rw [hk, hs.acks]⟩

/-- What comes before a step without a trace among the ACKs. -/
lemma Goes.of_same (hs : SameAcks s s') (h : Goes c s' t) : Goes c s t := by
  have hcounted : ∀ {u : FullTcpAgent κ}, Counted s' u → Counted s u := fun hu =>
    ⟨hu.1.trans hs.highestAck, by rw [hu.2.1, hs.dupacks], by rw [hu.2.2, hs.highestAck, hs.acks]⟩
  rcases h with h | h | ⟨h, hne⟩ | ⟨u, hu, hthresh, h⟩
  · exact Or.inl (hs.trans h)
  · exact Or.inr (Or.inl (h.of_same hs))
  · exact Or.inr (Or.inr (Or.inl ⟨hcounted h, hne⟩))
  · exact Or.inr (Or.inr (Or.inr ⟨u, hcounted hu, hthresh, h⟩))

lemma finishRecv_same (h : finishRecv c now needoutput s = some t) : SameAcks s t := by
  obtain ⟨s', hs', hres⟩ := Option.bind_eq_some_iff.mp h
  have hsends : SameAcks s s' := by
    split at hs'
    · exact (Sends.sendMuch hs').2
    · split at hs'
      · exact (Sends.sendMuch hs').2
      · exact Option.some.inj hs' ▸ (Sends.refl s).2
  split at hres
  · have hclose : SameAcks s' { s' with state := closesTo s'.state } := ⟨rfl, rfl, rfl⟩
    exact hsends.trans (hclose.trans (usrclosed_sends hres).2)
  · exact Option.some.inj hres ▸ hsends

lemma dodata_same {f : ℕ} {n : Bool}
    (h : dodata c p tiflags datalen needoutput s = some (t, f, n)) : SameAcks s t := by
  unfold dodata at h
  split at h
  · split at h
    · simp only [Option.some.injEq, Prod.mk.injEq] at h
      exact h.1 ▸ ⟨rfl, rfl, rfl⟩
    · obtain ⟨r, -, hr⟩ := Option.map_eq_some_iff.mp h
      simp only [Prod.mk.injEq] at hr
      exact hr.1 ▸ ⟨rfl, rfl, rfl⟩
  · simp only [Option.some.injEq, Prod.mk.injEq] at h
    exact h.1 ▸ ⟨rfl, rfl, rfl⟩

lemma finReceived_same : SameAcks s (finReceived s) := by
  unfold finReceived
  extract_lets _ s₁
  have hs₁ : SameAcks s s₁ := by
    unfold s₁
    split
    · exact ⟨rfl, rfl, rfl⟩
    · exact ⟨rfl, rfl, rfl⟩
  refine hs₁.trans ?_
  split <;> exact ⟨rfl, rfl, rfl⟩

lemma step6_same (h : step6 c now p tiflags datalen needoutput s = some t) : SameAcks s t := by
  obtain ⟨⟨s', f, n⟩, hs', hres⟩ := Option.bind_eq_some_iff.mp h
  have hdata := dodata_same hs'
  dsimp only at hres
  split at hres
  · exact hdata.trans (finReceived_same.trans (finishRecv_same hres))
  · exact hdata.trans (finishRecv_same hres)

lemma restarts_reset (h : reset c s = some t) : Restarts s t := by
  obtain ⟨rq, -, rfl⟩ := Option.map_eq_some_iff.mp h
  exact ⟨rfl, 1, rfl⟩

lemma newack_acks (c : FullTcpConfig κ) (now : ℚ) (p : TcpPacket) (s : FullTcpAgent κ) :
    ∃ k, (newack c now p s).acks = List.replicate k .advanced ++ s.acks := by
  by_cases h : p.ackno > s.highestAck
  · exact ⟨1, if_pos (by simpa using h)⟩
  · exact ⟨0, if_neg (by simpa using h)⟩

/-- An ACK on the slow path ends the count. -/
lemma processAck_goes (hle : p.ackno ≤ s.maxseq)
    (h : processAck c now p tiflags datalen s = some t) : Restarts s t := by
  unfold processAck at h
  rw [if_neg (not_lt.mpr hle)] at h
  extract_lets s₁ n at h
  have hs₁ : Restarts s s₁ := by
    obtain ⟨k, hk⟩ := newack_acks c now p s
    have hnew : Restarts s { newack c now p s with dupacks := 0 } := ⟨rfl, k, hk⟩
    exact hnew.same (ackReceived_sends p tiflags).2
  split at h
  · exact hs₁.same (step6_same h)
  · split at h
    · refine hs₁.same (SameAcks.trans ?_ (step6_same h))
      exact ⟨rfl, rfl, rfl⟩
    · refine hs₁.same (SameAcks.trans ?_ (step6_same h))
      exact ⟨rfl, rfl, rfl⟩
    · obtain ⟨hzero, k, hk⟩ := restarts_reset h
      obtain ⟨-, j, hj⟩ := hs₁
      refine ⟨hzero, k + j, ?_⟩
      rw [hk, List.replicate_add, List.append_assoc, ← hj]
    · exact hs₁.same (step6_same h)

lemma processAck_spec (h : processAck c now p tiflags datalen s = some t) : Goes c s t := by
  by_cases hle : p.ackno ≤ s.maxseq
  · exact Or.inr (Or.inl (processAck_goes hle h))
  · rw [processAck, if_pos (not_le.mp hle)] at h
    exact Or.inl (Sends.dropafterack h).2

/-- A duplicate is counted only if it carries `highest_ack_`. -/
lemma recvAck_goes {dupseg : Bool} (h : recvAck c now p tiflags datalen dupseg s = some t) :
    Goes c s t := by
  unfold recvAck at h
  extract_lets s₁ s₂ s₃ at h
  have hs₁ : SameAcks s s₁ := ⟨rfl, rfl, rfl⟩
  split at h
  · rename_i hle
    split at h
    · split at h
      · have hold : Restarts s (oldack s₁) := ⟨rfl, 0, rfl⟩
        exact Or.inr (Or.inl (hold.same (step6_same h)))
      · rename_i hdup
        have hack : p.ackno = s.highestAck := by
          have : s₁.highestAck = s.highestAck := rfl
          have := fun hlt => hdup (Or.inr hlt)
          omega
        have hcounted : Counted s s₂ := ⟨rfl, rfl, by rw [← hack]⟩
        split at h
        · rename_i hthresh
          refine Or.inr (Or.inr (Or.inr ⟨s₂, hcounted, hthresh, ?_⟩))
          exact Option.some.inj h ▸ dupackAction_sends.2
        · rename_i hne
          refine Or.inr (Or.inr (Or.inl ?_))
          have hsame : SameAcks s₂ t := by
            split at h
            · have hextra : SameAcks s₂ (extraAck c s₂) := ⟨rfl, rfl, rfl⟩
              exact hextra.trans (Sends.sendMuch h).2
            · exact step6_same h
          refine ⟨⟨hsame.highestAck.trans hcounted.1, hsame.dupacks.trans hcounted.2.1,
            hsame.acks.trans hcounted.2.2⟩, ?_⟩
          rw [hsame.dupacks]
          exact hne
    · by_cases hreset : c.dupackReset = true
      · have hs₃ : Restarts s s₃ := by
          unfold s₃
          rw [if_pos hreset]
          exact ⟨rfl, 0, rfl⟩
        exact Or.inr (Or.inl (hs₃.same (step6_same h)))
      · have hs₃ : SameAcks s s₃ := by
          unfold s₃
          rw [if_neg hreset]
          exact hs₁
        exact Or.inl (hs₃.trans (step6_same h))
  · exact (processAck_spec h).of_same hs₁

lemma recvTrimmed_goes {dupseg : Bool}
    (h : recvTrimmed c now p tiflags datalen dupseg s = some t) : Goes c s t := by
  unfold recvTrimmed at h
  extract_lets marked s₁ cwnd at h
  split at h
  · exact Or.inl (Option.some.inj h ▸ (Sends.dropwithreset _ _ _).2)
  split at h
  · exact Or.inl (Option.some.inj h ▸ (Sends.refl s).2)
  split at h
  · split at h
    · exact Or.inl (Option.some.inj h ▸ (Sends.dropwithreset _ _ _).2)
    split at h
    · have hs : SameAcks s (cancelRtxTimer { s with ecnSynNext := false }) := ⟨rfl, rfl, rfl⟩
      have hs₁ : SameAcks s s₁ := hs.trans (Sends.foutput _).2
      exact Or.inl (Option.some.inj h ▸ hs₁.trans ⟨rfl, rfl, rfl⟩)
    · refine (recvAck_goes h).of_same ?_
      exact ⟨rfl, rfl, rfl⟩
  · exact recvAck_goes h

lemma recvSegment_goes (h : recvSegment c now p s = some t) : Goes c s t := by
  unfold recvSegment at h
  extract_lets stale s₁ r fresh at h
  split at h
  · exact Or.inl (Sends.dropafterack h).2
  · refine (recvTrimmed_goes h).of_same ?_
    exact ⟨rfl, rfl, rfl⟩

lemma recvListen_same (h : recvListen c now p s = some t) : SameAcks s t := by
  unfold recvListen at h
  split at h
  · exact Option.some.inj h ▸ (Sends.dropwithreset _ _ _).2
  split at h
  · exact Option.some.inj h ▸ (Sends.refl s).2
  · refine SameAcks.trans ?_ (step6_same h)
    exact ⟨rfl, rfl, rfl⟩

/-- The ACK of the SYN moves `highest_ack_` before it is processed, and is in range. -/
lemma recvSynSent_goes (h : recvSynSent c now p s = some t) : Goes c s t := by
  unfold recvSynSent at h
  extract_lets datalen _ s₁ marked f _ s₂ s₃ s₄ at h
  split at h
  · exact Or.inl (Option.some.inj h ▸ (Sends.dropwithreset _ _ _).2)
  rename_i hrange
  split at h
  · exact Or.inl (Option.some.inj h ▸ (Sends.refl s).2)
  split at h
  · exact Or.inl (Option.some.inj h ▸ ⟨rfl, rfl, rfl⟩)
  split at h
  · rename_i hack
    have hle : ({ p with seqno := p.seqno + 1 } : TcpPacket).ackno ≤ s₃.maxseq := by
      by_contra hgt
      exact hrange ⟨hack, Or.inr (not_le.mp hgt)⟩
    have hs₃ : s₃.acks = .advanced :: s.acks := rfl
    obtain ⟨hzero, k, hk⟩ := processAck_goes hle h
    refine Or.inr (Or.inl ⟨hzero, k + 1, ?_⟩)
    rw [hk, hs₃, List.replicate_succ', List.append_assoc]
    rfl
  · refine Or.inl (SameAcks.trans ?_ (step6_same h))
    exact ⟨rfl, rfl, rfl⟩

lemma recvSlow_goes (h : recvSlow c now p s = some t) : Goes c s t := by
  unfold recvSlow at h
  split at h
  · exact Or.inl (recvListen_same h)
  · exact recvSynSent_goes h
  · split at h
    · exact Or.inl (Option.some.inj h ▸ (Sends.refl s).2)
    · exact recvSegment_goes h
  · exact recvSegment_goes h

/-- What `recv` notes before header prediction makes no difference to it. -/
lemma predictsAck_congr (h₁ : s'.state = s.state) (h₂ : s'.needfin = s.needfin)
    (h₃ : p.has TH_SYN = false → s'.recent = s.recent) (h₄ : s'.rq = s.rq)
    (h₅ : s'.tSeqno = s.tSeqno) (h₆ : s'.maxseq = s.maxseq) (h₇ : s'.highestAck = s.highestAck)
    (h₈ : s'.window = s.window) (h₉ : s'.fastrecov = s.fastrecov) :
    predictsAck c p s' = predictsAck c p s := by
  have hsyn : p.flags &&& (TH_SYN ||| TH_FIN ||| TH_ACK) = TH_ACK → p.has TH_SYN = false := by
    intro hflags
    have hbit : (p.flags.testBit 1 && (TH_SYN ||| TH_FIN ||| TH_ACK).testBit 1) =
        TH_ACK.testBit 1 := by rw [← Nat.testBit_and, hflags]
    have h₁ : p.flags.testBit 1 = false := by
      simpa [TH_SYN, TH_FIN, TH_ACK, Nat.testBit] using hbit
    simpa [TcpPacket.has] using (and_TH_SYN _).mpr h₁
  cases hs : p.has TH_SYN with
  | false =>
    have hok : predictOk c p s' = predictOk c p s := by
      unfold predictOk rcvNxt
      rw [h₁, h₂, h₃ hs, h₄, h₅, h₆]
    unfold predictsAck
    rw [h₆, h₇, h₈, h₉, hok]
  | true =>
    have hno : ¬p.flags &&& (TH_SYN ||| TH_FIN ||| TH_ACK) = TH_ACK := fun hflags => by
      rw [hsyn hflags] at hs
      exact Bool.noConfusion hs
    simp [predictsAck, predictOk, hno]

/-- Only header prediction moves `highest_ack_` without ending the count. -/
lemma recv_goes (hfast : predictsAck c p s → s.dupacks = 0) (h : recv c now p s = some t) :
    Goes c s t := by
  unfold recv at h
  extract_lets s₁ datalen s₂ s₃ s₄ _ s₅ at h
  have hs₃ : SameAcks s s₃ ∧ predictsAck c p s₃ = predictsAck c p s := by
    unfold s₃ s₂
    split
    · exact ⟨⟨rfl, rfl, rfl⟩, predictsAck_congr rfl rfl (fun _ => rfl) rfl rfl rfl rfl rfl rfl⟩
    · refine ⟨⟨rfl, rfl, rfl⟩, predictsAck_congr rfl rfl (fun hsyn => ?_) rfl rfl rfl rfl rfl rfl⟩
      exact if_neg (by simp [hsyn])
  have hs₄ : SameAcks s s₄ := hs₃.1.trans (Sends.predicted p).2
  split at h
  · have hs₁ : SameAcks s s₁ := ⟨rfl, rfl, rfl⟩
    exact Or.inl (hs₁.trans (Sends.dropafterack h).2)
  split at h
  · exact Or.inl (Option.some.inj h ▸ ⟨rfl, rfl, rfl⟩)
  split at h
  · rename_i hpredicts
    have hzero := hfast (hs₃.2 ▸ hpredicts)
    obtain ⟨k, hk⟩ := newack_acks c now p s₄
    have hack : Restarts s (newack c now p s₄) :=
      ⟨hs₄.dupacks.trans hzero, k, by rw [hk, hs₄.acks]⟩
    exact Or.inr (Or.inl (hack.same (Sends.sendMuch h).2))
  split at h
  · have hs₅ : SameAcks s s₅ := hs₄.trans ⟨rfl, rfl, rfl⟩
    split at h
    · exact Or.inl (hs₅.trans (Sends.sendMuch h).2)
    · exact Or.inl (Option.some.inj h ▸ hs₅)
  · exact (recvSlow_goes h).of_same hs₄

lemma advanceBytes_goes {nb : ℤ} (h : advanceBytes c now s nb = some t) : Goes c s t := by
  unfold advanceBytes at h
  have hopen : ((reset c s).bind fun s => some (connect c now { s with curseq := c.iss + nb })) =
      some t → Goes c s t := by
    intro h
    obtain ⟨s', hs', ht⟩ := Option.bind_eq_some_iff.mp h
    refine Or.inr (Or.inl ((restarts_reset hs').same ?_))
    have hsyn : SameAcks s' { s' with curseq := c.iss + nb, state := .synSent } := ⟨rfl, rfl, rfl⟩
    exact Option.some.inj ht ▸ hsyn.trans ((Sends.foutput c.iss).2.trans ⟨rfl, rfl, rfl⟩)
  split at h
  · exact hopen h
  · exact hopen h
  · refine Or.inl (SameAcks.trans ?_ (Sends.sendMuch h).2)
    exact ⟨rfl, rfl, rfl⟩
  · exact Or.inl (Option.some.inj h ▸ ⟨rfl, rfl, rfl⟩)
  · exact Or.inl (Option.some.inj h ▸ ⟨rfl, rfl, rfl⟩)
  · exact Or.inl (Option.some.inj h ▸ ⟨rfl, rfl, rfl⟩)

/-- Header prediction does not take an ACK while duplicates are counted. -/
def RestartsCount (c : FullTcpConfig κ) (s : FullTcpAgent κ) : TcpEvent → Prop
  | .recv p => predictsAck c p s → s.dupacks = 0
  | _ => True

lemma step_goes {e : ℚ × TcpEvent} (he : RestartsCount c s e.2) (hstep : step c s e = some (t, ())) :
    Goes c s t := by
  obtain ⟨now, e⟩ := e
  obtain ⟨t', hres, ht⟩ := Option.map_eq_some_iff.mp hstep
  obtain rfl : t' = t := congrArg Prod.fst ht
  cases e with
  | recv p => exact recv_goes he hres
  | timeout timer =>
    dsimp only at hres
    split at hres
    · rcases timeout_sends hres with hs | hs
      · exact Or.inl hs.2
      · have hzero : Restarts s { s with dupacks := 0 } := ⟨rfl, 0, rfl⟩
        exact Or.inr (Or.inl (hzero.same hs.2))
    · exact absurd hres (by simp)
  | sendmsg nb m d =>
    dsimp only at hres
    unfold sendmsg at hres
    extract_lets s₁ at hres
    split at hres
    · refine (advanceBytes_goes hres).of_same ?_
      exact ⟨rfl, rfl, rfl⟩
    · refine (advanceBytes_goes hres).of_same ?_
      exact ⟨rfl, rfl, rfl⟩
  | close =>
    have hclose : SameAcks s { s with state := closesTo s.state } := ⟨rfl, rfl, rfl⟩
    exact Or.inl (hclose.trans (usrclosed_sends hres).2)
  | listen => exact Or.inl (Option.some.inj hres ▸ ⟨rfl, rfl, rfl⟩)

/-- An agent with a window of two segments. -/
def sender : FullTcpAgent Unit :=
  init tclDefaults ReassemblyQueue.blank 536 ⟨1, 2, 2, 3, 0, ()⟩

/-- An ACK without data. -/
def ackEvent (ackno : ℤ) : ℚ × TcpEvent :=
  (1, .recv (segment 1 ackno TH_ACK 0))

/-- Two duplicates, and an ACK of the segment that they asked for. -/
def predictedAfterTwo : List (ℚ × TcpEvent) :=
  [(0, .listen), (0, .recv (segment 0 0 TH_SYN 0)), ackEvent 1, (1, .sendmsg 10000 false false),
    ackEvent 1, ackEvent 1, ackEvent 537]

end FullTcpAgent

end NetworkSimulator
