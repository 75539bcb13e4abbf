import NetworkSimulator.Library.Runs
import NetworkSimulator.Mac.Handlers

/-!
# Pending frames of the MAC

A frame that waits to be sent has a timer running for it, unless the defer timer goes off for a CTS while the medium
is busy: `deferHandler` then drops the CTS and starts nothing for the packet behind it.
-/

namespace NetworkSimulator

open Library

namespace Mac80211
variable {cfg : MacConfig} {s t : Mac80211} {p : MacFrame}

def Pending (s : Mac80211) : Prop := s.pktTx.isSome ∨ s.pktRTS.isSome ∨ s.pktCTRL.isSome

def Attended (s : Mac80211) : Prop := s.mhDefer.busy ∨ s.mhBackoff.busy ∨ s.mhSend.busy

instance : Decidable s.Pending := inferInstanceAs (Decidable (_ ∨ _ ∨ _))

instance : Decidable s.Attended := inferInstanceAs (Decidable (_ ∨ _ ∨ _))

structure Attending (s : Mac80211) : Prop where
  pending : s.Pending → s.Attended
  sending : s.txState ≠ .idle → s.mhSend.busy

lemma attending_init (random : ℕ → ℕ) : Attending (init cfg random) where
  pending h := by simp [Pending, init] at h
  sending h := absurd rfl h

lemma Attending.settle (h : Attending s) {x : MacState}
    (ht : t = { s with rxState := x, mhBackoff := settled cfg { s with rxState := x } }) : Attending t := by
  subst ht
  refine ⟨fun hp => ?_, h.sending⟩
  rcases h.pending hp with hd | hb | hs
  · exact .inl hd
  · exact .inr (.inl (by rw [settled_busy]; exact hb))
  · exact .inr (.inr hs)

/-! ## Starting timers -/

lemma startBackoff_attended {difs : ℚ} (h : s.startBackoff cfg difs = some t) : t.mhBackoff.busy := by
  obtain ⟨-, rfl⟩ := startBackoff_some h
  rfl

lemma contend_attended (h : s.contend cfg = some t) : t.mhDefer.busy ∨ t.mhBackoff.busy := by
  rcases contend_some h with ⟨-, hb⟩ | ⟨-, -, rfl⟩
  · exact .inr (startBackoff_attended hb)
  · exact .inl rfl

lemma send_attended (h : s.send cfg p = some t) : t.mhDefer.busy ∨ t.mhBackoff.busy := by
  obtain ⟨-, -, hcase⟩ := send_some h
  rcases hcase with ⟨hb, rfl⟩ | ⟨-, -, hd, rfl⟩ | ⟨-, -, -, hc⟩ | ⟨-, -, hb⟩
  · exact .inr hb
  · exact .inl hd
  · exact contend_attended hc
  · exact .inr (startBackoff_attended hb)

lemma startBackoff_frame {difs : ℚ} (h : s.startBackoff cfg difs = some t) :
    t.txState = s.txState ∧ t.mhSend = s.mhSend := by
  obtain ⟨-, rfl⟩ := startBackoff_some h
  exact ⟨rfl, rfl⟩

lemma contend_frame (h : s.contend cfg = some t) : t.txState = s.txState ∧ t.mhSend = s.mhSend := by
  rcases contend_some h with ⟨-, hb⟩ | ⟨-, -, rfl⟩
  · exact startBackoff_frame hb
  · exact ⟨rfl, rfl⟩

lemma send_frame (h : s.send cfg p = some t) : t.txState = s.txState ∧ t.mhSend = s.mhSend := by
  obtain ⟨-, -, hcase⟩ := send_some h
  rcases hcase with ⟨-, rfl⟩ | ⟨-, -, -, rfl⟩ | ⟨-, -, -, hc⟩ | ⟨-, -, hb⟩
  · exact ⟨rfl, rfl⟩
  · exact ⟨rfl, rfl⟩
  · have hframe := contend_frame hc
    exact ⟨hframe.1, hframe.2⟩
  · have hframe := startBackoff_frame hb
    exact ⟨hframe.1, hframe.2⟩

lemma txNext_attended (h : s.txNext cfg = some t) (hp : t.Pending) : t.mhDefer.busy ∨ t.mhBackoff.busy := by
  cases txNext_some h with
  | control hc ht =>
    obtain ⟨-, -, rfl⟩ := startDefer_some ht
    exact .inl rfl
  | rtsWaits hc hr hb => exact .inr hb
  | rts hc hr hb ht => exact contend_attended ht
  | dataWaits hc hr htx hb => exact .inr hb
  | small hc hr htx hb hsize ht => exact contend_attended ht
  | big hc hr htx hb hsize ht =>
    obtain ⟨-, -, rfl⟩ := startDefer_some ht
    exact .inl rfl
  | nothing hc hr htx hcall => simp [Pending, hc, hr, htx] at hp
  | called hc hr htx hcall hreply => simp [Pending, called, hc, hr, htx] at hp
  | reply hc hr htx hcall hreply ht => exact send_attended ht

lemma Attending.of_txResume (h : s.txResume cfg = some t) : Attending t := by
  obtain ⟨-, -, u, hu, rfl⟩ := txResume_some h
  refine ⟨fun hp => ?_, fun hne => absurd rfl hne⟩
  rcases txNext_attended hu hp with hd | hb
  · exact .inl hd
  · exact .inr (.inl (by rw [settled_busy]; exact hb))

/-! ## Sending -/

lemma transmit_attending {time : ℚ} (h : s.transmit p time = some t) : Attending t := by
  obtain ⟨-, -, -, -, rfl⟩ := transmit_some h
  exact ⟨fun _ => .inr (.inr rfl), fun _ => rfl⟩

lemma startBackoff_attending {difs : ℚ} (h : s.startBackoff cfg difs = some t)
    (hsend : s.txState ≠ .idle → s.mhSend.busy) : Attending t := by
  refine ⟨fun _ => .inr (.inl (startBackoff_attended h)), ?_⟩
  obtain ⟨-, rfl⟩ := startBackoff_some h
  exact hsend

lemma Attempt.attending (h : Attempt cfg s t) (hsend : s.txState ≠ .idle → s.mhSend.busy)
    (hc : s.pktCTRL = none ∨ s.txState ≠ .idle) : Attending t := by
  cases h with
  | nothing hr hp =>
    refine ⟨fun hpending => ?_, hsend⟩
    rcases hc with hc | hx
    · simp [Pending, hr, hp, hc] at hpending
    · exact .inr (.inr (hsend hx))
  | rtsWaits hr hidle ht => exact startBackoff_attending ht hsend
  | rts hr hidle hu ht => exact transmit_attending ht
  | dataWaits hr hp hidle hu ht =>
    obtain ⟨q, -, -, ⟨-, rfl⟩ | ⟨-, rfl⟩⟩ := sendRTS_some hu
    · exact startBackoff_attending ht hsend
    · exact startBackoff_attending ht hsend
  | data hr hp hidle hu ht => exact transmit_attending ht

/-- The defer timer goes off for a CTS while the medium is busy, and no timer is left for the packet behind it. -/
def DropsCTS (s : Mac80211) (ev : MacEvent) : Prop :=
  ev.input = .fire .defer ∧ (∃ p ∈ s.pktCTRL, p.kind = .cts) ∧ (s.pktTx.isSome ∨ s.pktRTS.isSome) ∧
    ¬(isIdle { s with now := ev.time } : Bool) ∧ ¬s.mhBackoff.busy ∧ ¬s.mhSend.busy

instance (s : Mac80211) (ev : MacEvent) : Decidable (s.DropsCTS ev) := inferInstanceAs (Decidable (_ ∧ _))

lemma deferHandler_attending (h : deferHandler cfg { s with mhDefer := .free } = some t) (hs : Attending s)
    (hkept : ∀ p, s.pktCTRL = some p → p.kind = .cts → (s.pktTx.isSome ∨ s.pktRTS.isSome) → ¬s.isIdle →
      s.mhBackoff.busy ∨ s.mhSend.busy) : Attending t := by
  obtain ⟨-, hcase⟩ := deferHandler_some h
  cases hcase with
  | dropped hc hk htx hidle =>
    refine ⟨fun hp => ?_, hs.sending⟩
    have hp : s.pktTx.isSome ∨ s.pktRTS.isSome := by simpa [Pending] using hp
    exact .inr (hkept _ hc hk hp hidle)
  | cts hc hk hidle hu ht => exact transmit_attending ht
  | ack hc hk htx hu ht => exact transmit_attending ht
  | attempt hc hb ht =>
    refine ht.attending hs.sending (hc.imp_right fun hx => ?_)
    rcases hx with hx | hx
    · exact fun he => absurd (hx.symm.trans he) (by decide)
    · exact fun he => absurd (hx.symm.trans he) (by decide)

lemma backoffHandler_attending (h : backoffHandler cfg { s with mhBackoff := .free } = some t) (hs : Attending s) :
    Attending t := by
  rcases backoffHandler_some h with ⟨-, hbusy, rfl⟩ | ⟨hc, -, ha⟩
  · exact ⟨fun _ => hbusy.elim (.inr ∘ .inr) .inl, hs.sending⟩
  · exact ha.attending hs.sending (.inl hc)

lemma navHandler_attending (h : s.navHandler cfg = some t) (hs : Attending s) : Attending t := by
  unfold navHandler at h
  split_ifs at h with hpaused
  · obtain ⟨b, hb, rfl⟩ := Option.map_eq_some_iff.mp h
    obtain ⟨hbusy, -, -⟩ := BackoffTimer.resume_eq_some hb
    refine ⟨fun _ => .inr (.inl ?_), hs.sending⟩
    obtain ⟨-, -, rfl⟩ := BackoffTimer.resume_eq_some hb
    exact hbusy
  · exact Option.some.inj h ▸ hs

/-! ## Receiving -/

lemma Attending.dedup (hs : Attending s) (p : MacFrame) : Attending (s.dedup cfg p) := by
  unfold Mac80211.dedup
  split_ifs
  all_goals exact ⟨hs.pending, hs.sending⟩

lemma Attending.heard (hs : Attending s) (p : MacFrame) : Attending (heard cfg s p) := by
  unfold Mac80211.heard
  split_ifs
  · exact ⟨hs.pending, hs.sending⟩
  · exact hs

lemma Received.attending (h : Received cfg s p t) (hs : Attending s) : Attending t := by
  have hheard : Attending (Mac80211.heard cfg s p) := hs.heard p
  cases h with
  | ignored hp => exact ⟨hheard.pending, hheard.sending⟩
  | rts hra hk ht =>
    cases ht with
    | ignored hx => exact ⟨hheard.pending, hheard.sending⟩
    | answered hx hc hd ht =>
      have hnext := Attending.of_txResume ht
      exact ⟨hnext.pending, hnext.sending⟩
  | cts hra hk ht =>
    cases ht with
    | ignored hx => exact ⟨hheard.pending, hheard.sending⟩
    | cleared hx hr hp hb ht =>
      have hnext := Attending.of_txResume ht
      exact ⟨hnext.pending, hnext.sending⟩
  | ack hra hk ht =>
    cases ht with
    | ignored hx => exact ⟨hheard.pending, hheard.sending⟩
    | done hx hp hb hu ht =>
      have hnext := Attending.of_txResume ht
      exact ⟨hnext.pending, hnext.sending⟩
  | data hra hk ht =>
    cases ht with
    | ignored hra hx => exact ⟨hheard.pending, hheard.sending⟩
    | afterCTS hra hsize hx hc hb ht => exact (Attending.of_txResume ht).dedup _
    | ackWaits hra hsize hc hb =>
      have hwait : Attending { Mac80211.heard cfg s p with pktCTRL := some (ackFrame cfg p.ta) } :=
        ⟨fun _ => .inr (.inr hb), fun _ => hb⟩
      exact hwait.dedup _
    | answered hra hsize hc hb ht => exact (Attending.of_txResume ht).dedup _
    | broadcast hra => exact hheard.dedup _
  | beacon hra hk =>
    unfold recvBEACON
    split_ifs
    all_goals exact ⟨hheard.pending, hheard.sending⟩

lemma recvTimer_attending (h : s.recvTimer cfg = some t) (hs : Attending s) : Attending t := by
  obtain ⟨p, u, -, hu, ht⟩ := recvTimer_some h
  have hnext : Attending u := by
    cases hu with
    | active ha => exact ⟨hs.pending, hs.sending⟩
    | collided ha hx => exact ⟨hs.pending, hs.sending⟩
    | errored ha hx he => exact ⟨hs.pending, hs.sending⟩
    | intact ha hx he ht => exact ht.attending hs
  have hfree : Attending { u with pktRx := none } := ⟨hnext.pending, hnext.sending⟩
  exact hfree.settle (rxResume_some ht).2.2

lemma recv_attending (h : s.recv cfg p = some t) (hs : Attending s) : Attending t := by
  have hcolliding : Attending (colliding cfg s) := by
    unfold colliding
    split_ifs
    · exact Attending.settle hs rfl
    · exact hs
  cases recv_some h with
  | started hx hr =>
    have hnext : Attending { s with rxState := .recv, mhBackoff := settled cfg { s with rxState := .recv } } :=
      hs.settle rfl
    exact ⟨hnext.pending, hnext.sending⟩
  | captured hx hp hratio => exact ⟨hs.pending, hs.sending⟩
  | replaced hx hp hratio hr hlater => exact ⟨hcolliding.pending, hcolliding.sending⟩
  | outlasted hx hp hratio hr hlater => exact ⟨hcolliding.pending, hcolliding.sending⟩

/-! ## Runs -/

lemma handle_attending {input : MacInput} (h : s.handle cfg input = some t) (hs : Attending s)
    (hkept : input = .fire .defer → ∀ p, s.pktCTRL = some p → p.kind = .cts →
      (s.pktTx.isSome ∨ s.pktRTS.isSome) → ¬s.isIdle → s.mhBackoff.busy ∨ s.mhSend.busy) : Attending t := by
  cases input with
  | send p =>
    refine ⟨fun _ => (send_attended h).elim .inl (.inr ∘ .inl), ?_⟩
    obtain ⟨hx, hm⟩ := send_frame h
    rw [hx, hm]
    exact hs.sending
  | recv p => exact recv_attending h hs
  | fire timer =>
    cases timer with
    | interface =>
      obtain rfl := Option.some.inj h
      exact ⟨hs.pending, hs.sending⟩
    | nav => exact navHandler_attending h ⟨hs.pending, hs.sending⟩
    | recv => exact recvTimer_attending h ⟨hs.pending, hs.sending⟩
    | send =>
      obtain ⟨u, -, hu⟩ := sendTimer_some h
      exact .of_txResume hu
    | defer => exact deferHandler_attending h hs (hkept rfl)
    | backoff => exact backoffHandler_attending h hs

lemma step_attending {ev : MacEvent} {o : List MacOutput} (hs : Attending s) (hkept : ¬DropsCTS s ev)
    (h : step cfg s ev = some (t, o)) : Attending t := by
  obtain ⟨u, hu, hpair⟩ := Option.map_eq_some_iff.mp h
  obtain ⟨rfl, -⟩ := Prod.mk.inj hpair
  refine handle_attending hu ⟨hs.pending, hs.sending⟩ fun hinput p hp hk hwait hidle => ?_
  by_contra hfree
  push Not at hfree
  exact hkept ⟨hinput, ⟨p, hp, hk⟩, hwait, hidle, hfree.1, hfree.2⟩

/-- As long as no CTS is dropped in front of a packet, every pending frame has a timer. -/
theorem pending_run (random : ℕ → ℕ) {evs : List MacEvent} {os : List (List MacOutput)}
    (hkept : EachStep (step cfg) (fun s ev => ¬DropsCTS s ev) (init cfg random) evs)
    (hrun : run (step cfg) (init cfg random) evs = some (t, os)) : t.Pending → t.Attended :=
  (hkept.invariant (fun (_ : Mac80211) _ _ _ hs hk h => step_attending hs hk h) (attending_init random) hrun).pending

/-- Node 2 asks for node 1, whose upper layer has a packet 3 μs later; then node 3 starts to send before the CTS. -/
def strandingRun : List MacEvent :=
  [⟨0, .recv (rtsFrame { MacConfig.default with index := 2 } 1 (1000 / 1000000)), none⟩,
    ⟨352 / 1000000, .fire .recv, none⟩,
    ⟨355 / 1000000, .send ⟨.data, 2, 1, 0, 0, 1, 100, 0, false, true, 0, 0⟩, none⟩,
    ⟨357 / 1000000, .recv ⟨.data, 2, 3, 314, 1, 2, 158, 1264 / 1000000, false, false, 1, 10⟩, none⟩,
    ⟨362 / 1000000, .fire .defer, none⟩]

theorem packet_stranded : ∃ t os,
    EachStep (step .default) Possible (init .default fun _ => 0) strandingRun ∧
      run (step .default) (init .default fun _ => 0) strandingRun = some (t, os) ∧ t.Pending ∧ ¬t.Attended :=
  run_guarded_of (fun (t : Mac80211) _ => t.Pending ∧ ¬t.Attended) (by decide +kernel)

/-- A packet is handed down and sent after its DIFS. -/
def sendingRun : List MacEvent :=
  [⟨0, .send ⟨.data, 2, 1, 0, 0, 1, 100, 0, false, true, 0, 0⟩, none⟩, ⟨50 / 1000000, .fire .backoff, none⟩]

theorem pending_run_sending : ∃ t os,
    run (step .default) (init .default fun _ => 0) sendingRun = some (t, os) ∧ t.Pending ∧ t.Attended := by
  have hguarded : ((run (guarded (step .default) fun s ev => ¬DropsCTS s ev) (init .default fun _ => 0)
      sendingRun).map fun r => decide r.1.Pending) = some true := by decide +kernel
  obtain ⟨t, os, hkept, hrun, hp⟩ := run_guarded_of (fun (t : Mac80211) _ => t.Pending) hguarded
  exact ⟨t, os, hrun, hp, pending_run (fun _ => 0) hkept hrun hp⟩

end Mac80211

end NetworkSimulator
