import NetworkSimulator.Library.StableOrder
import NetworkSimulator.Mac.SenderOrder

/-!
# Duplicates in the MAC

A sender and a receiver with a channel that loses and delays frames. The receiver knows a duplicate by the last
sequence number it has from the sender, where 0 stands for none.
-/

namespace NetworkSimulator

open Library

/-- A frame that is passed to the upper layer. -/
def MacOutput.delivery : MacOutput → Option MacFrame
  | .passUp p => some p
  | _ => none

def deliveries (out : List MacOutput) : List MacFrame := out.filterMap MacOutput.delivery

namespace Mac80211
variable {cfg : MacConfig} {s t : Mac80211} {p : MacFrame}

/-- What the sending side leaves as it is. -/
structure SameReception (s t : Mac80211) : Prop where
  cache : t.cache = s.cache
  pktRx : t.pktRx = s.pktRx
  pktCTRL : t.pktCTRL = s.pktCTRL
  out : deliveries t.out = deliveries s.out

lemma SameReception.trans {u : Mac80211} (h : SameReception s t) (h' : SameReception t u) : SameReception s u where
  cache := h'.cache.trans h.cache
  pktRx := h'.pktRx.trans h.pktRx
  pktCTRL := h'.pktCTRL.trans h.pktCTRL
  out := h'.out.trans h.out

lemma startBackoff_sameReception {difs : ℚ} (h : s.startBackoff cfg difs = some t) : SameReception s t := by
  obtain ⟨-, rfl⟩ := startBackoff_some h
  exact ⟨rfl, rfl, rfl, rfl⟩

lemma startDefer_sameReception {time : ℚ} (h : s.startDefer time = some t) : SameReception s t := by
  obtain ⟨-, -, rfl⟩ := startDefer_some h
  exact ⟨rfl, rfl, rfl, rfl⟩

lemma contend_sameReception (h : s.contend cfg = some t) : SameReception s t := by
  rcases contend_some h with ⟨-, hb⟩ | ⟨-, -, rfl⟩
  · exact startBackoff_sameReception hb
  · exact ⟨rfl, rfl, rfl, rfl⟩

lemma send_sameReception (h : s.send cfg p = some t) : SameReception s t := by
  have hqueued : SameReception s (queued cfg s p) := ⟨rfl, rfl, rfl, rfl⟩
  obtain ⟨-, -, hcase⟩ := send_some h
  rcases hcase with ⟨-, rfl⟩ | ⟨-, -, -, rfl⟩ | ⟨-, -, -, hc⟩ | ⟨-, -, hb⟩
  · exact hqueued
  · exact hqueued
  · exact hqueued.trans (contend_sameReception hc)
  · exact hqueued.trans (startBackoff_sameReception hb)

lemma txResume_sameReception (h : s.txResume cfg = some t) : SameReception s t := by
  obtain ⟨-, -, u, hu, rfl⟩ := txResume_some h
  have hnext : SameReception s u := by
    cases txNext_some hu with
    | control hc ht => exact startDefer_sameReception ht
    | rtsWaits hc hr hb => exact ⟨rfl, rfl, rfl, rfl⟩
    | rts hc hr hb ht => exact contend_sameReception ht
    | dataWaits hc hr hp hb => exact ⟨rfl, rfl, rfl, rfl⟩
    | small hc hr hp hb hsize ht => exact contend_sameReception ht
    | big hc hr hp hb hsize ht => exact startDefer_sameReception ht
    | nothing hc hr hp hcall => exact ⟨rfl, rfl, rfl, rfl⟩
    | called hc hr hp hcall hreply => exact ⟨rfl, rfl, rfl, rfl⟩
    | reply hc hr hp hcall hreply ht =>
      have hsend := send_sameReception ht
      exact ⟨hsend.cache, hsend.pktRx, hsend.pktCTRL, hsend.out⟩
  exact ⟨hnext.cache, hnext.pktRx, hnext.pktCTRL, hnext.out⟩

lemma deliveries_discarded (q : MacFrame) (out : List MacOutput) :
    deliveries (discarded cfg q :: out) = deliveries out := by
  unfold discarded
  split_ifs
  all_goals rfl

/-! ## The receiver -/

/-- Whether there is an acknowledgement to be sent. -/
def HasACK (s : Mac80211) : Prop := ∃ c ∈ s.pktCTRL, c.kind = .ack

/-- Whether `recvDATA` answers a frame that comes in as a whole. -/
def Answers (cfg : MacConfig) (s : Mac80211) (p : MacFrame) : Prop :=
  p.size ≥ cfg.rtsThreshold ∧ s.txState = .cts ∨ p.size < cfg.rtsThreshold ∧ s.pktCTRL = none

/-- Whether the frame in reception comes in undamaged and is answered with an ACK. -/
structure Acknowledges (cfg : MacConfig) (s : Mac80211) (p : MacFrame) : Prop where
  quiet : ¬s.txActive
  receiving : s.rxState = .recv
  intact : ¬p.error
  data : p.kind = .data
  mine : p.ra = cfg.index
  unicast : p.ra ≠ MAC_BROADCAST
  answers : Answers cfg s p

/-- Whether the filter takes a frame for the last one from its sender. -/
def Repeats (s : Mac80211) (p : MacFrame) : Prop := s.cache p.ta ≠ 0 ∧ s.cache p.ta = p.scontrol

instance (s : Mac80211) (p : MacFrame) : Decidable (Answers cfg s p) := inferInstanceAs (Decidable (_ ∨ _))

lemma acknowledges_iff : Acknowledges cfg s p ↔ (¬s.txActive ∧ s.rxState = .recv ∧ ¬p.error) ∧
    (p.kind = .data ∧ p.ra = cfg.index ∧ p.ra ≠ MAC_BROADCAST) ∧ Answers cfg s p :=
  ⟨fun h => ⟨⟨h.quiet, h.receiving, h.intact⟩, ⟨h.data, h.mine, h.unicast⟩, h.answers⟩,
    fun ⟨⟨hq, hr, hi⟩, ⟨hd, hm, hu⟩, ha⟩ => ⟨hq, hr, hi, hd, hm, hu, ha⟩⟩

instance (s : Mac80211) (p : MacFrame) : Decidable (Acknowledges cfg s p) := decidable_of_iff' _ acknowledges_iff

instance (s : Mac80211) : Decidable s.HasACK := inferInstanceAs (Decidable (∃ _ ∈ _, _))

instance (s : Mac80211) (p : MacFrame) : Decidable (s.Repeats p) := inferInstanceAs (Decidable (_ ∧ _))

lemma deliveries_dedup (hra : p.ra ≠ MAC_BROADCAST) (hta : p.ta < cfg.cacheNodeCount) :
    deliveries (s.dedup cfg p).out = (if s.Repeats p then [] else [p]) ++ deliveries s.out := by
  unfold dedup
  rw [if_pos hra, if_pos hta]
  by_cases hrep : s.Repeats p
  · rw [if_pos hrep, if_pos (show s.cache p.ta ≠ 0 ∧ s.cache p.ta = p.scontrol from hrep)]
    exact deliveries_discarded p s.out
  · rw [if_neg hrep, if_neg (show ¬(s.cache p.ta ≠ 0 ∧ s.cache p.ta = p.scontrol) from hrep)]
    rfl

/-- The rest of what the filter does. -/
lemma dedup_frame : (s.dedup cfg p).pktCTRL = s.pktCTRL ∧
    ∀ q ∈ deliveries (s.dedup cfg p).out, q = p ∨ q ∈ deliveries s.out := by
  have hdiscard : deliveries (s.discard cfg p).out = deliveries s.out := deliveries_discarded p s.out
  have hup : ∀ q ∈ deliveries (.passUp p :: s.out), q = p ∨ q ∈ deliveries s.out := fun q hq => List.mem_cons.mp hq
  unfold dedup
  split_ifs
  · exact ⟨rfl, fun q hq => .inr (hdiscard ▸ hq)⟩
  all_goals exact ⟨rfl, hup⟩

lemma HasACK.of_eq (h : t.pktCTRL = s.pktCTRL) (ht : t.HasACK) : s.HasACK := by
  obtain ⟨c, hc, hk⟩ := ht
  exact ⟨c, h ▸ hc, hk⟩

/-- What the end of a reception leads to: the frame is acknowledged and goes through the filter, or there is no
new ACK and at most a broadcast is passed up. -/
structure Filtered (cfg : MacConfig) (s t : Mac80211) (p : MacFrame) : Prop where
  before : ¬s.HasACK
  after : t.HasACK
  delivered : p.ta < cfg.cacheNodeCount → deliveries t.out = if s.Repeats p then [] else [stripped cfg p]
  only : ∀ q ∈ deliveries t.out, q = stripped cfg p

structure Unanswered (s t : Mac80211) : Prop where
  after : t.HasACK → s.HasACK
  broadcast : ∀ q ∈ deliveries t.out, q.ra = MAC_BROADCAST

lemma Unanswered.of_same (h : SameReception s t) (ho : deliveries s.out = []) : Unanswered s t where
  after := HasACK.of_eq h.pktCTRL
  broadcast q hq := by simp [h.out, ho] at hq

/-- The filter behind an acknowledgement. -/
lemma filtered_dedup {u : Mac80211} (hra : p.ra ≠ MAC_BROADCAST) (hs : ¬s.HasACK) (hu : u.HasACK)
    (hcache : u.cache = s.cache) (ho : deliveries u.out = []) : Filtered cfg s (u.dedup cfg (stripped cfg p)) p where
  before := hs
  after := by
    obtain ⟨c, hc, hk⟩ := hu
    exact ⟨c, dedup_frame.1.symm ▸ hc, hk⟩
  delivered hta := by
    have hrep : u.Repeats (stripped cfg p) ↔ s.Repeats p := by
      unfold Repeats stripped
      rw [hcache]
    rw [deliveries_dedup (p := stripped cfg p) hra hta, ho, List.append_nil]
    exact if_congr hrep rfl rfl
  only q hq := by
    rcases dedup_frame.2 q hq with rfl | hq
    · rfl
    · simp [ho] at hq

lemma receivedDATA_outcome (h : ReceivedDATA cfg s p t) (ho : deliveries s.out = [])
    (hclear : s.txState = .cts → ∀ c ∈ s.pktCTRL, c.kind = .cts) :
    p.ra ≠ MAC_BROADCAST ∧ Answers cfg s p ∧ Filtered cfg s t p ∨ Unanswered s t := by
  cases h with
  | ignored hra hx =>
    refine .inr ⟨id, fun q hq => ?_⟩
    have hq : q ∈ deliveries (discarded cfg (stripped cfg p) :: s.out) := hq
    simp [deliveries_discarded, ho] at hq
  | afterCTS hra hsize hx hc hs ht =>
    have hsame := txResume_sameReception ht
    refine .inl ⟨hra, .inl ⟨hsize, hx⟩, filtered_dedup hra ?_ ?_ hsame.cache (hsame.out.trans ho)⟩
    · rintro ⟨c, hc', hk⟩
      exact absurd ((hclear hx c hc').symm.trans hk) (by decide)
    · exact ⟨_, hsame.pktCTRL, rfl⟩
  | ackWaits hra hsize hc hs =>
    refine .inl ⟨hra, .inr ⟨hsize, hc⟩, filtered_dedup hra ?_ ⟨_, rfl, rfl⟩ rfl ho⟩
    rintro ⟨c, hc', -⟩
    simp [hc] at hc'
  | answered hra hsize hc hs ht =>
    have hsame := txResume_sameReception ht
    refine .inl ⟨hra, .inr ⟨hsize, hc⟩, filtered_dedup hra ?_ ⟨_, hsame.pktCTRL, rfl⟩ hsame.cache (hsame.out.trans ho)⟩
    rintro ⟨c, hc', -⟩
    simp [hc] at hc'
  | broadcast hra =>
    refine .inr ⟨HasACK.of_eq dedup_frame.1, fun q hq => ?_⟩
    rcases dedup_frame.2 q hq with rfl | hq
    · exact hra
    · simp [ho] at hq

lemma heard_sameReception : SameReception s (heard cfg s p) := by
  unfold heard
  split_ifs
  · exact ⟨rfl, rfl, rfl, rfl⟩
  · exact ⟨rfl, rfl, rfl, rfl⟩

lemma deliveries_cons {o : MacOutput} (ho : o.delivery = none) (out : List MacOutput) :
    deliveries (o :: out) = deliveries out := List.filterMap_cons_none ho

lemma received_outcome (h : Received cfg s p t) (ho : deliveries s.out = [])
    (hclear : s.txState = .cts → ∀ c ∈ s.pktCTRL, c.kind = .cts) :
    p.kind = .data ∧ p.ra = cfg.index ∧ Answers cfg s p ∧ Filtered cfg s t p ∨ Unanswered s t := by
  have hheard : SameReception s (heard cfg s p) := heard_sameReception
  have ho' := hheard.out.trans ho
  have hdiscard : Unanswered s ((heard cfg s p).discard cfg p) := by
    refine .of_same ⟨hheard.cache, hheard.pktRx, hheard.pktCTRL, ?_⟩ ho
    exact (deliveries_discarded p _).trans hheard.out
  have hlogged : ∀ {u v : Mac80211}, SameReception u v → (u.HasACK → s.HasACK) → deliveries u.out = [] →
      Unanswered s (v.emit (.logged p)) := by
    intro u v hsame hack hout
    refine ⟨fun h => hack (HasACK.of_eq hsame.pktCTRL h), fun q hq => ?_⟩
    have hq : q ∈ deliveries (.logged p :: v.out) := hq
    simp [deliveries_cons (show (MacOutput.logged p).delivery = none from rfl), hsame.out, hout] at hq
  have hack : (heard cfg s p).HasACK → s.HasACK := HasACK.of_eq hheard.pktCTRL
  cases h with
  | ignored hp => exact .inr hdiscard
  | rts hra hk ht =>
    cases ht with
    | ignored hx => exact .inr hdiscard
    | answered hx hc hd ht =>
      refine .inr (hlogged (txResume_sameReception ht) ?_ ho')
      rintro ⟨c, hc', hk'⟩
      obtain rfl := Option.some.inj hc'
      cases hk'
  | cts hra hk ht =>
    cases ht with
    | ignored hx => exact .inr hdiscard
    | cleared hx hr hp hs ht => exact .inr (hlogged (txResume_sameReception ht) hack ho')
  | ack hra hk ht =>
    cases ht with
    | ignored hx => exact .inr hdiscard
    | done hx hp hs hu ht =>
      exact .inr (hlogged ((startBackoff_sameReception hu).trans (txResume_sameReception ht)) hack ho')
  | data hra hk ht =>
    have hstate : (heard cfg s p).txState = s.txState := congrArg Sender.txState sender_heard.1
    have hclear' : (heard cfg s p).txState = .cts → ∀ c ∈ (heard cfg s p).pktCTRL, c.kind = .cts := by
      rw [hstate, hheard.pktCTRL]
      exact hclear
    rcases receivedDATA_outcome ht ho' hclear' with ⟨hra', hans, hf⟩ | hu
    · refine .inl ⟨hk, hra.resolve_right hra', ?_, ?_⟩
      · unfold Answers at hans ⊢
        rwa [hstate, hheard.pktCTRL] at hans
      · refine ⟨fun h => hf.before ?_, hf.after, fun hta => ?_, hf.only⟩
        · exact HasACK.of_eq hheard.pktCTRL.symm h
        · rw [hf.delivered hta]
          refine if_congr ?_ rfl rfl
          unfold Repeats
          rw [hheard.cache]
    · exact .inr ⟨fun h => hack (hu.after h), hu.broadcast⟩
  | beacon hra hk =>
    unfold recvBEACON
    split_ifs
    · exact .inr hdiscard
    · exact .inr (hlogged ⟨rfl, rfl, rfl, rfl⟩ hack ho')

lemma recvTimer_outcome (h : s.recvTimer cfg = some t) (ho : deliveries s.out = [])
    (hclear : s.txState = .cts → ∀ c ∈ s.pktCTRL, c.kind = .cts) (hindex : cfg.index ≠ MAC_BROADCAST) :
    t.pktRx = none ∧ ∃ p, s.pktRx = some p ∧ (Acknowledges cfg s p ∧ Filtered cfg s t p ∨ Unanswered s t) := by
  obtain ⟨p, u, hp, hu, ht⟩ := recvTimer_some h
  obtain ⟨-, -, rfl⟩ := rxResume_some ht
  refine ⟨rfl, p, hp, ?_⟩
  have hfreed : deliveries (.freed p :: s.out) = [] := (deliveries_cons rfl _).trans ho
  cases hu with
  | active ha =>
    refine .inr ⟨id, fun q hq => ?_⟩
    have hq : q ∈ deliveries (.freed p :: s.out) := hq
    simp [hfreed] at hq
  | collided ha hx =>
    refine .inr ⟨id, fun q hq => ?_⟩
    have hq : q ∈ deliveries (discarded cfg p :: s.out) := hq
    simp [deliveries_discarded, ho] at hq
  | errored ha hx he =>
    refine .inr ⟨id, fun q hq => ?_⟩
    have hq : q ∈ deliveries (.freed p :: s.out) := hq
    simp [hfreed] at hq
  | intact ha hx he hr =>
    rcases received_outcome hr ho hclear with ⟨hk, hra, hans, hf⟩ | hu
    · exact .inl ⟨⟨ha, hx, he, hk, hra, hra ▸ hindex, hans⟩, hf.before, hf.after, hf.delivered, hf.only⟩
    · exact .inr ⟨hu.after, hu.broadcast⟩

/-! ## The other events at the receiver -/

/-- The same frame, which may have been damaged since. -/
def SameFrame (p q : MacFrame) : Prop := q = { p with error := q.error }

/-- The frame in reception stays, and nothing is passed up. -/
structure KeepsReception (s t : Mac80211) : Prop where
  pktRx : ∀ q, t.pktRx = some q → ∃ p, s.pktRx = some p ∧ SameFrame p q
  out : deliveries t.out = deliveries s.out

lemma SameFrame.refl (p : MacFrame) : SameFrame p p := rfl

lemma SameFrame.trans {p q r : MacFrame} (h : SameFrame p q) (h' : SameFrame q r) : SameFrame p r := by
  unfold SameFrame at h h' ⊢
  rw [h', h]

lemma SameReception.keeps (h : SameReception s t) : KeepsReception s t where
  pktRx q hq := ⟨q, h.pktRx ▸ hq, .refl q⟩
  out := h.out

lemma KeepsReception.trans {u : Mac80211} (h : KeepsReception s t) (h' : KeepsReception t u) : KeepsReception s u where
  pktRx q hq := by
    obtain ⟨p, hp, hpq⟩ := h'.pktRx q hq
    obtain ⟨r, hr, hrp⟩ := h.pktRx p hp
    exact ⟨r, hr, hrp.trans hpq⟩
  out := h'.out.trans h.out

lemma setTxState_keeps {x : MacState} (h : s.setTxState cfg x = some t) : KeepsReception s t := by
  obtain rfl := setTxState_some h
  exact ⟨fun q hq => ⟨q, hq, .refl q⟩, rfl⟩

lemma transmit_keeps {time : ℚ} (h : s.transmit p time = some t) : KeepsReception s t := by
  obtain ⟨-, -, -, -, rfl⟩ := transmit_some h
  refine ⟨fun q hq => ?_, rfl⟩
  have hq : s.spoilt = some q := hq
  unfold spoilt at hq
  split_ifs at hq with hx
  · exact ⟨q, hq, .refl q⟩
  · obtain ⟨r, hr, rfl⟩ := Option.map_eq_some_iff.mp hq
    exact ⟨r, hr, rfl⟩

lemma sendRTS_keeps {dst : ℕ} (h : s.sendRTS cfg dst = some t) : KeepsReception s t := by
  obtain ⟨-, -, -, ⟨-, rfl⟩ | ⟨-, rfl⟩⟩ := sendRTS_some h
  · exact ⟨fun q hq => ⟨q, hq, .refl q⟩, rfl⟩
  · exact ⟨fun q hq => ⟨q, hq, .refl q⟩, rfl⟩

lemma attempt_keeps (h : Attempt cfg s t) : KeepsReception s t := by
  cases h with
  | nothing hr hp => exact ⟨fun q hq => ⟨q, hq, .refl q⟩, rfl⟩
  | rtsWaits hr hidle ht =>
    have hsame := startBackoff_sameReception ht
    exact ⟨fun q hq => ⟨q, hsame.pktRx ▸ hq, .refl q⟩, hsame.out⟩
  | rts hr hidle hu ht => exact (setTxState_keeps hu).trans (transmit_keeps ht)
  | dataWaits hr hp hidle hu ht =>
    have hsame := startBackoff_sameReception ht
    have hkeeps := sendRTS_keeps hu
    exact ⟨fun q hq => hkeeps.pktRx q (hsame.pktRx ▸ hq), hsame.out.trans hkeeps.out⟩
  | data hr hp hidle hu ht => exact (setTxState_keeps hu).trans (transmit_keeps ht)

lemma deferred_keeps (h : Deferred cfg s t) : KeepsReception s t := by
  cases h with
  | dropped hc hk htx hidle => exact ⟨fun q hq => ⟨q, hq, .refl q⟩, deliveries_discarded _ _⟩
  | cts hc hk hidle hu ht => exact (setTxState_keeps hu).trans (transmit_keeps ht)
  | ack hc hk htx hu ht => exact (setTxState_keeps hu).trans (transmit_keeps ht)
  | attempt hc hb ht => exact attempt_keeps ht

lemma deliveries_failures (out : List MacOutput) : deliveries (failures cfg p ++ out) = deliveries out := by
  unfold failures
  split_ifs
  · exact (deliveries_discarded _ _).trans (deliveries_cons rfl _)
  · exact deliveries_discarded _ _

lemma expired_keeps (h : Expired cfg s t) : KeepsReception s t := by
  cases h with
  | rts hx ht =>
    obtain ⟨p, rts, -, -, -, hcase⟩ := retransmitRTS_some ht
    cases hcase with
    | failed hlimit =>
      exact ⟨fun q hq => ⟨q, hq, .refl q⟩, (deliveries_failures _).trans (deliveries_discarded _ _)⟩
    | again hlimit hb =>
      have hsame := startBackoff_sameReception hb
      exact ⟨fun q hq => ⟨q, hsame.pktRx ▸ hq, .refl q⟩, hsame.out⟩
  | data hx ht =>
    obtain ⟨p, -, -, -, hcase⟩ := retransmitDATA_some ht
    cases hcase with
    | broadcast hra hb =>
      have hsame := startBackoff_sameReception hb
      exact ⟨fun q hq => ⟨q, hsame.pktRx ▸ hq, .refl q⟩, hsame.out.trans (deliveries_cons rfl _)⟩
    | shortFailed hra hsize hlimit => exact ⟨fun q hq => ⟨q, hq, .refl q⟩, deliveries_failures _⟩
    | shortAgain hra hsize hlimit hu hb =>
      have hsame := startBackoff_sameReception hb
      have hkeeps := sendRTS_keeps hu
      exact ⟨fun q hq => hkeeps.pktRx q (hsame.pktRx ▸ hq), hsame.out.trans hkeeps.out⟩
    | longFailed hra hsize hlimit => exact ⟨fun q hq => ⟨q, hq, .refl q⟩, deliveries_failures _⟩
    | longAgain hra hsize hlimit hu hb =>
      have hsame := startBackoff_sameReception hb
      have hkeeps := sendRTS_keeps hu
      exact ⟨fun q hq => hkeeps.pktRx q (hsame.pktRx ▸ hq), hsame.out.trans hkeeps.out⟩
  | control hx hc => exact ⟨fun q hq => ⟨q, hq, .refl q⟩, deliveries_cons rfl _⟩
  | idle hx => exact ⟨fun q hq => ⟨q, hq, .refl q⟩, rfl⟩

/-- A first bit starts a reception, or leaves the one that is going on. -/
lemma recv_reception (h : s.recv cfg p = some t) :
    (∀ q, t.pktRx = some q → SameFrame p q ∨ ∃ r, s.pktRx = some r ∧ SameFrame r q) ∧
      deliveries t.out = deliveries s.out := by
  have hsame : SameFrame p (s.arriving p) := by
    unfold arriving
    split_ifs
    · rfl
    · exact .refl p
  have hcolliding : (colliding cfg s).pktRx = s.pktRx := by
    unfold colliding
    split_ifs
    all_goals rfl
  cases recv_some h with
  | started hx hr =>
    refine ⟨fun q hq => .inl ?_, rfl⟩
    obtain rfl := Option.some.inj hq
    exact hsame
  | captured hx hp hratio => exact ⟨fun q hq => .inr ⟨q, hq, .refl q⟩, deliveries_cons rfl _⟩
  | replaced hx hp hratio hr hlater =>
    refine ⟨fun q hq => .inl ?_, deliveries_discarded _ _⟩
    obtain rfl := Option.some.inj hq
    exact hsame
  | outlasted hx hp hratio hr hlater =>
    exact ⟨fun q hq => .inr ⟨q, hcolliding ▸ hq, .refl q⟩, deliveries_discarded _ _⟩

lemma handle_reception {i : MacInput} (h : s.handle cfg i = some t) (hi : i ≠ .fire .recv) :
    (∀ q, t.pktRx = some q →
      (∃ p, i = .recv p ∧ SameFrame p q) ∨ ∃ r, s.pktRx = some r ∧ SameFrame r q) ∧
        deliveries t.out = deliveries s.out := by
  have hkeep : ∀ {u : Mac80211}, u.pktRx = s.pktRx → deliveries u.out = deliveries s.out → KeepsReception u t →
      (∀ q, t.pktRx = some q → (∃ p, i = .recv p ∧ SameFrame p q) ∨ ∃ r, s.pktRx = some r ∧ SameFrame r q) ∧
        deliveries t.out = deliveries s.out := by
    intro u hrx hout hk
    refine ⟨fun q hq => .inr ?_, hk.out.trans hout⟩
    obtain ⟨p, hp, hpq⟩ := hk.pktRx q hq
    exact ⟨p, hrx ▸ hp, hpq⟩
  cases i with
  | send p => exact hkeep rfl rfl (send_sameReception h).keeps
  | recv p =>
    obtain ⟨hrx, hout⟩ := recv_reception h
    exact ⟨fun q hq => (hrx q hq).imp_left fun hpq => ⟨p, rfl, hpq⟩, hout⟩
  | fire timer =>
    cases timer with
    | interface =>
      obtain rfl := Option.some.inj h
      exact hkeep (u := s) rfl rfl ⟨fun q hq => ⟨q, hq, .refl q⟩, rfl⟩
    | nav =>
      have h : navHandler cfg { s with mhNav := .free } = some t := h
      refine hkeep (u := s) rfl rfl ?_
      unfold navHandler at h
      split_ifs at h
      · obtain ⟨b, -, rfl⟩ := Option.map_eq_some_iff.mp h
        exact ⟨fun q hq => ⟨q, hq, .refl q⟩, rfl⟩
      · obtain rfl := Option.some.inj h
        exact ⟨fun q hq => ⟨q, hq, .refl q⟩, rfl⟩
    | recv => exact absurd rfl hi
    | send =>
      obtain ⟨u, hu, ht⟩ := sendTimer_some h
      exact hkeep (u := { s with mhSend := .free }) rfl rfl ((expired_keeps hu).trans (txResume_sameReception ht).keeps)
    | defer => exact hkeep (u := { s with mhDefer := .free }) rfl rfl (deferred_keeps (deferHandler_some h).2)
    | backoff =>
      rcases backoffHandler_some h with ⟨-, -, rfl⟩ | ⟨-, -, ha⟩
      · exact hkeep (u := s) rfl rfl ⟨fun q hq => ⟨q, hq, .refl q⟩, rfl⟩
      · exact hkeep (u := { s with mhBackoff := .free }) rfl rfl (attempt_keeps ha)

end Mac80211

/-- Sender and receiver, the sender's frames for the receiver that are on their way, the packets the sender has
taken over, and those the receiver has acknowledged and passed up, the latest first. -/
structure MacLink where
  a : Mac80211
  b : Mac80211
  air : List MacFrame
  handed : List ℕ
  acked : List ℕ
  passed : List ℕ

/-- Frames are lost before one arrives, with some power and perhaps damaged. -/
inductive MacLinkEvent
  | sender (ev : MacEvent)
  | receiver (ev : MacEvent)
  | arrive (lost : ℕ) (time : ℚ) (error : Bool) (rxPr cpThresh : ℚ)

namespace MacLink
variable {cfgA cfgB : MacConfig} {w w' : MacLink} {s t : Mac80211} {o : List MacOutput}

/-- A DATA frame of the sender for the receiver alone. -/
def Addressed (cfgA cfgB : MacConfig) (p : MacFrame) : Prop :=
  p.kind = .data ∧ p.ta = cfgA.index ∧ p.ra = cfgB.index

instance (cfgA cfgB : MacConfig) (p : MacFrame) : Decidable (Addressed cfgA cfgB p) :=
  inferInstanceAs (Decidable (_ ∧ _))

def init (cfgA cfgB : MacConfig) (randomA randomB : ℕ → ℕ) : MacLink where
  a := .init cfgA randomA
  b := .init cfgB randomB
  air := []
  handed := []
  acked := []
  passed := []

/-- After a step of the sender; a new packet has a new sequence number. -/
def sent (cfgA cfgB : MacConfig) (w : MacLink) (t : Mac80211) (o : List MacOutput) : MacLink :=
  { w with
    a := t
    air := w.air ++ (o.filterMap MacOutput.frame).filter (Addressed cfgA cfgB ·)
    handed := if t.staSeqno = w.a.staSeqno then w.handed else w.handed ++ (t.pktTx.map (·.uid)).toList }

/-- After a step of the receiver; a new ACK is for the frame that was in reception. -/
def received (cfgA cfgB : MacConfig) (w : MacLink) (t : Mac80211) (o : List MacOutput) : MacLink :=
  { w with
    b := t
    acked :=
      if t.HasACK ∧ ¬w.b.HasACK then ((w.b.pktRx.filter (Addressed cfgA cfgB ·)).map (·.uid)).toList ++ w.acked
      else w.acked
    passed := ((deliveries o).filter (Addressed cfgA cfgB ·)).map (·.uid) ++ w.passed }

/-- The first bit of a frame as the receiver gets it. -/
def arrival (p : MacFrame) (time : ℚ) (error : Bool) (rxPr cpThresh : ℚ) : MacEvent :=
  ⟨time, .recv { p with error := error, rxPr := rxPr, cpThresh := cpThresh }, none⟩

def step (cfgA cfgB : MacConfig) (w : MacLink) : MacLinkEvent → Option (MacLink × Unit)
  | .sender ev => (w.a.step cfgA ev).map fun r => (w.sent cfgA cfgB r.1 r.2, ())
  | .receiver ev => (w.b.step cfgB ev).map fun r => (w.received cfgA cfgB r.1 r.2, ())
  | .arrive lost time error rxPr cpThresh =>
    match w.air.drop lost with
    | [] => none
    | p :: air => (w.b.step cfgB (arrival p time error rxPr cpThresh)).map fun r =>
        ({ w.received cfgA cfgB r.1 r.2 with air := air }, ())

/-- Packets have the sender's address and no uid twice, and the sender's frames come to the receiver through
the air. -/
def Regular (cfgA cfgB : MacConfig) (w : MacLink) : MacLinkEvent → Prop
  | .sender ev => w.a.Possible ev ∧ ∀ p ∈ ev.handed, p.ta = cfgA.index ∧ p.uid ∉ w.handed
  | .receiver ev => w.b.Possible ev ∧ ∀ p, ev.input = .recv p → ¬Addressed cfgA cfgB p
  | .arrive lost time error rxPr cpThresh =>
    ∀ p ∈ (w.air.drop lost).head?, w.b.Possible (arrival p time error rxPr cpThresh)

/-- When the receiver acknowledges a packet, the filter takes it for the last one it has acknowledged exactly if it
is the same packet. -/
def Distinguishes (cfgA cfgB : MacConfig) (w : MacLink) : MacLinkEvent → Prop
  | .receiver ev =>
    ev.input = .fire .recv → ∀ p ∈ w.b.pktRx, Addressed cfgA cfgB p → w.b.Acknowledges cfgB p →
      (w.b.Repeats p ↔ w.acked.head? = some p.uid)
  | _ => True

instance (cfgA cfgB : MacConfig) (w : MacLink) : ∀ ev, Decidable (Regular cfgA cfgB w ev)
  | .sender _ => inferInstanceAs (Decidable (_ ∧ ∀ _ ∈ _, _))
  | .receiver ⟨_, .recv p, _⟩ =>
    decidable_of_iff (_ ∧ ¬Addressed cfgA cfgB p) (and_congr_right' (by simp))
  | .receiver ⟨_, .send _, _⟩ => decidable_of_iff _ (and_iff_left (by simp)).symm
  | .receiver ⟨_, .fire _, _⟩ => decidable_of_iff _ (and_iff_left (by simp)).symm
  | .arrive _ _ _ _ _ => inferInstanceAs (Decidable (∀ _ ∈ _, _))

instance (cfgA cfgB : MacConfig) (w : MacLink) : ∀ ev, Decidable (Distinguishes cfgA cfgB w ev)
  | .sender _ => .isTrue trivial
  | .receiver _ => inferInstanceAs (Decidable (_ → ∀ _ ∈ _, _))
  | .arrive _ _ _ _ _ => .isTrue trivial

structure Filtering (cfgA cfgB : MacConfig) (w : MacLink) : Prop where
  orderA : Sender.Orderly cfgA w.a.sender
  orderB : Sender.Orderly cfgB w.b.sender
  current : ∀ p ∈ w.a.pktTx, ∀ u ∈ w.handed, NotAfter w.handed u p.uid
  held : ∀ p ∈ w.a.pktTx, p.uid ∈ w.handed
  air : ∀ p ∈ w.air, p.uid ∈ w.handed
  sorted : w.air.Pairwise fun p q => NotAfter w.handed p.uid q.uid
  reception : ∀ p ∈ w.b.pktRx, Addressed cfgA cfgB p →
    p.uid ∈ w.handed ∧ ∀ q ∈ w.air, NotAfter w.handed p.uid q.uid
  last : ∀ u ∈ w.acked.head?, u ∈ w.handed ∧ (∀ q ∈ w.air, NotAfter w.handed u q.uid) ∧
    ∀ p ∈ w.b.pktRx, Addressed cfgA cfgB p → NotAfter w.handed u p.uid
  earlier : ∀ u ∈ w.passed, ∃ v ∈ w.acked.head?, NotAfter w.handed u v
  nodup : w.passed.Nodup
  acked : ∀ u ∈ w.acked, u ∈ w.passed

lemma filtering_init (randomA randomB : ℕ → ℕ) : Filtering cfgA cfgB (init cfgA cfgB randomA randomB) where
  orderA := Mac80211.orderly_init randomA
  orderB := Mac80211.orderly_init randomB
  current p hp := by simp [init, Mac80211.init] at hp
  held p hp := by simp [init, Mac80211.init] at hp
  air p hp := by simp [init] at hp
  sorted := .nil
  reception p hp := by simp [init, Mac80211.init] at hp
  last u hu := by simp [init] at hu
  earlier u hu := by simp [init] at hu
  nodup := .nil
  acked u hu := by simp [init] at hu

/-! ## The sender's steps -/

/-- Frames of the packet in line are added behind the others. -/
lemma Filtering.transmits (h : Filtering cfgA cfgB w) {frames : List MacFrame}
    (hframes : ∀ q ∈ frames, w.a.pktTx = some q) :
    (∀ q ∈ w.air ++ frames, q.uid ∈ w.handed) ∧
      (w.air ++ frames).Pairwise (fun p q => NotAfter w.handed p.uid q.uid) ∧
      ∀ u ∈ w.handed, (∀ q ∈ w.air, NotAfter w.handed u q.uid) → ∀ q ∈ w.air ++ frames, NotAfter w.handed u q.uid := by
  refine ⟨fun q hq => ?_, List.pairwise_append.mpr ⟨h.sorted, ?_, fun q hq r hr => ?_⟩, fun u hu hair q hq => ?_⟩
  · rcases List.mem_append.mp hq with hq | hq
    · exact h.air q hq
    · exact h.held q (hframes q hq)
  · apply List.pairwise_of_forall_mem_list
    intro q hq r hr
    exact h.current r (hframes r hr) _ (h.held q (hframes q hq))
  · exact h.current r (hframes r hr) _ (h.air q hq)
  · rcases List.mem_append.mp hq with hq | hq
    · exact hair q hq
    · exact h.current q (hframes q hq) u hu

lemma Filtering.sent (h : Filtering cfgA cfgB w) {ev : MacEvent} (hreg : Regular cfgA cfgB w (.sender ev))
    (hstep : w.a.step cfgA ev = some (t, o)) : Filtering cfgA cfgB (w.sent cfgA cfgB t o) := by
  have hmove := Mac80211.step_move hreg.1.fires hstep
  obtain ⟨hframes, hfollows⟩ := hmove.current h.orderA
  have hdata : ∀ q ∈ (o.filterMap MacOutput.frame).filter (Addressed cfgA cfgB ·), w.a.pktTx = some q ∧
      t.staSeqno = w.a.staSeqno := by
    intro q hq
    obtain ⟨hq, haddressed⟩ := List.mem_filter.mp hq
    refine hframes q ?_ (of_decide_eq_true haddressed).1
    simpa [report, List.filterMap_reverse] using hq
  have horder := hmove.orderly h.orderA
  unfold MacLink.sent
  rcases hfollows with ⟨hseq, htx⟩ | ⟨hnew, p, hfrom, htx⟩
  · have hseq : t.staSeqno = w.a.staSeqno := hseq
    have hkept : ∀ p ∈ t.pktTx, p ∈ w.a.pktTx := by
      intro p hp
      rcases htx with htx | htx
      · have htx : t.pktTx = w.a.pktTx := htx
        rwa [htx] at hp
      · have htx : t.pktTx = none := htx
        simp [htx] at hp
    obtain ⟨hair, hsorted, hafter⟩ := h.transmits fun q hq => (hdata q hq).1
    rw [if_pos hseq]
    refine ⟨horder, h.orderB, fun p hp => h.current p (hkept p hp), fun p hp => h.held p (hkept p hp), hair, hsorted,
      fun p hp haddressed => ?_, fun u hu => ?_, h.earlier, h.nodup, h.acked⟩
    · obtain ⟨hmem, hle⟩ := h.reception p hp haddressed
      exact ⟨hmem, hafter _ hmem hle⟩
    · obtain ⟨hmem, hle, hrx⟩ := h.last u hu
      exact ⟨hmem, hafter _ hmem hle, hrx⟩
  · have hnew : t.staSeqno ≠ w.a.staSeqno := hnew
    have htx : t.pktTx = some { Mac80211.dataFrame cfgA p with scontrol := w.a.staSeqno } := htx
    have hfresh : p.uid ∉ w.handed := (hreg.2 p (MacEvent.mem_handed hfrom)).2
    have hnone : (o.filterMap MacOutput.frame).filter (Addressed cfgA cfgB ·) = [] := by
      rw [List.eq_nil_iff_forall_not_mem]
      exact fun q hq => hnew (hdata q hq).2
    have huids : (t.pktTx.map (·.uid)).toList = [p.uid] := by rw [htx]; rfl
    rw [if_neg hnew, hnone, List.append_nil, huids]
    refine ⟨horder, h.orderB, fun q hq u hu => ?_, fun q hq => ?_, fun q hq => List.mem_append_left _ (h.air q hq),
      h.sorted.imp fun hle => hle.append _, fun q hq haddressed => ?_, fun u hu => ?_, fun u hu => ?_, h.nodup, h.acked⟩
    · obtain rfl := Option.some.inj (htx.symm.trans hq)
      exact notAfter_last hu hfresh
    · obtain rfl := Option.some.inj (htx.symm.trans hq)
      exact List.mem_append_right _ (List.mem_singleton_self _)
    · obtain ⟨hmem, hle⟩ := h.reception q hq haddressed
      exact ⟨List.mem_append_left _ hmem, fun r hr => (hle r hr).append _⟩
    · obtain ⟨hmem, hle, hrx⟩ := h.last u hu
      exact ⟨List.mem_append_left _ hmem, fun r hr => (hle r hr).append _, fun r hr ha => (hrx r hr ha).append _⟩
    · obtain ⟨v, hv, hle⟩ := h.earlier u hu
      exact ⟨v, hv, hle.append _⟩

/-! ## The receiver's steps -/

lemma SameFrame.addressed {p q : MacFrame} (h : Mac80211.SameFrame p q) (hq : Addressed cfgA cfgB q) :
    Addressed cfgA cfgB p ∧ q.uid = p.uid := by
  unfold Mac80211.SameFrame at h
  rw [h] at hq
  refine ⟨hq, ?_⟩
  rw [h]

/-- No reception ends: nothing is acknowledged or passed up, and only a new frame comes into reception. -/
lemma Filtering.listens (h : Filtering cfgA cfgB w) {air : List MacFrame} (hsub : air.Sublist w.air)
    (horder : Sender.Orderly cfgB t.sender) (hack : t.HasACK → w.b.HasACK) (hout : deliveries o = [])
    (hrx : ∀ q ∈ t.pktRx, Addressed cfgA cfgB q →
      (∃ p ∈ w.air, p.uid = q.uid ∧ ∀ r ∈ air, NotAfter w.handed p.uid r.uid) ∨
        ∃ p ∈ w.b.pktRx, Addressed cfgA cfgB p ∧ p.uid = q.uid) :
    Filtering cfgA cfgB { w.received cfgA cfgB t o with air := air } := by
  have hnoack : ¬(t.HasACK ∧ ¬w.b.HasACK) := fun hnew => hnew.2 (hack hnew.1)
  unfold MacLink.received
  rw [if_neg hnoack, hout]
  refine ⟨h.orderA, horder, h.current, h.held, fun p hp => h.air p (hsub.subset hp), h.sorted.sublist hsub,
    fun q hq haddressed => ?_, fun u hu => ?_, h.earlier, h.nodup, h.acked⟩
  · rcases hrx q hq haddressed with ⟨p, hp, huid, hle⟩ | ⟨p, hp, haddressed', huid⟩
    · rw [← huid]
      exact ⟨h.air p hp, hle⟩
    · obtain ⟨hmem, hle⟩ := h.reception p hp haddressed'
      rw [← huid]
      exact ⟨hmem, fun r hr => hle r (hsub.subset hr)⟩
  · obtain ⟨hmem, hle, hrx'⟩ := h.last u hu
    refine ⟨hmem, fun r hr => hle r (hsub.subset hr), fun q hq haddressed => ?_⟩
    rcases hrx q hq haddressed with ⟨p, hp, huid, -⟩ | ⟨p, hp, haddressed', huid⟩
    · rw [← huid]
      exact hle p hp
    · rw [← huid]
      exact hrx' p hp haddressed'

/-- A reception ends without an ACK for the sender. -/
lemma Filtering.passes (h : Filtering cfgA cfgB w) (horder : Sender.Orderly cfgB t.sender) (hnone : t.pktRx = none)
    (hacked : (w.received cfgA cfgB t o).acked = w.acked) (hpassed : (w.received cfgA cfgB t o).passed = w.passed) :
    Filtering cfgA cfgB (w.received cfgA cfgB t o) where
  orderA := h.orderA
  orderB := horder
  current := h.current
  held := h.held
  air := h.air
  sorted := h.sorted
  reception q hq := by simp [MacLink.received, hnone] at hq
  last u hu := by
    rw [hacked] at hu
    obtain ⟨hmem, hle, -⟩ := h.last u hu
    exact ⟨hmem, hle, fun q hq => by simp [MacLink.received, hnone] at hq⟩
  earlier u hu := by
    rw [hpassed] at hu
    rw [hacked]
    exact h.earlier u hu
  nodup := hpassed ▸ h.nodup
  acked u hu := by
    rw [hacked] at hu
    rw [hpassed]
    exact h.acked u hu

/-- A packet of the sender is acknowledged and goes through the filter. -/
lemma Filtering.acknowledges (h : Filtering cfgA cfgB w) (horder : Sender.Orderly cfgB t.sender) {p : MacFrame}
    (hp : w.b.pktRx = some p) (hnone : t.pktRx = none) (haddressed : Addressed cfgA cfgB p)
    (hdist : w.b.Repeats p ↔ w.acked.head? = some p.uid)
    (hacked : (w.received cfgA cfgB t o).acked = p.uid :: w.acked)
    (hpassed : (w.received cfgA cfgB t o).passed = if w.b.Repeats p then w.passed else p.uid :: w.passed) :
    Filtering cfgA cfgB (w.received cfgA cfgB t o) := by
  obtain ⟨hmem, hle⟩ := h.reception p hp haddressed
  have hlast : ∀ u ∈ w.passed, NotAfter w.handed u p.uid := by
    intro u hu
    obtain ⟨v, hv, hle⟩ := h.earlier u hu
    exact hle.trans ((h.last v hv).2.2 p hp haddressed)
  have hknown : w.b.Repeats p → p.uid ∈ w.passed := fun hrep => h.acked _ (List.mem_of_mem_head? (hdist.mp hrep))
  have hnew : ¬w.b.Repeats p → p.uid ∉ w.passed := by
    intro hrep hin
    obtain ⟨v, hv, hle'⟩ := h.earlier p.uid hin
    obtain rfl := hle'.antisymm ((h.last v hv).2.2 p hp haddressed)
    exact hrep (hdist.mpr hv)
  refine ⟨h.orderA, horder, h.current, h.held, h.air, h.sorted, fun q hq => ?_, fun u hu => ?_, fun u hu => ?_, ?_,
    fun u hu => ?_⟩
  · simp [MacLink.received, hnone] at hq
  · rw [hacked] at hu
    obtain rfl : p.uid = u := Option.some.inj hu
    exact ⟨hmem, hle, fun q hq => by simp [MacLink.received, hnone] at hq⟩
  · rw [hacked]
    refine ⟨p.uid, rfl, ?_⟩
    rw [hpassed] at hu
    split_ifs at hu with hrep
    · exact hlast u hu
    · rcases List.mem_cons.mp hu with rfl | hu
      · exact .refl hmem
      · exact hlast u hu
  · rw [hpassed]
    split_ifs with hrep
    · exact h.nodup
    · exact List.nodup_cons.mpr ⟨hnew hrep, h.nodup⟩
  · rw [hpassed]
    rw [hacked] at hu
    have hbefore : u = p.uid ∨ u ∈ w.passed := (List.mem_cons.mp hu).imp_right (h.acked u)
    split_ifs with hrep
    · rcases hbefore with rfl | hin
      · exact hknown hrep
      · exact hin
    · exact List.mem_cons.mpr hbefore

lemma Filtering.finishes (h : Filtering cfgA cfgB w) (hA : cfgA.index < cfgB.cacheNodeCount)
    (hB : cfgB.index ≠ MAC_BROADCAST) (horder : Sender.Orderly cfgB t.sender) {p : MacFrame} (hp : w.b.pktRx = some p)
    (hnone : t.pktRx = none) (ho : deliveries o = (deliveries t.out).reverse)
    (hdist : Addressed cfgA cfgB p → w.b.Acknowledges cfgB p → (w.b.Repeats p ↔ w.acked.head? = some p.uid))
    (hcase : w.b.Acknowledges cfgB p ∧ Mac80211.Filtered cfgB w.b t p ∨ Mac80211.Unanswered w.b t) :
    Filtering cfgA cfgB (w.received cfgA cfgB t o) := by
  rcases hcase with ⟨hacks, hf⟩ | hu
  · have hacked : (w.received cfgA cfgB t o).acked =
        ((w.b.pktRx.filter (Addressed cfgA cfgB ·)).map (·.uid)).toList ++ w.acked := if_pos ⟨hf.after, hf.before⟩
    rw [hp] at hacked
    by_cases haddressed : Addressed cfgA cfgB p
    · have hstripped : Addressed cfgA cfgB (Mac80211.stripped cfgB p) := haddressed
      refine h.acknowledges horder hp hnone haddressed (hdist haddressed hacks) ?_ ?_
      · have hfilter : Option.filter (Addressed cfgA cfgB ·) (some p) = some p :=
          Option.filter_some_pos (p := (Addressed cfgA cfgB ·)) (decide_eq_true haddressed)
        rw [hacked, hfilter]
        rfl
      · have hfilter : List.filter (Addressed cfgA cfgB ·) [Mac80211.stripped cfgB p] = [Mac80211.stripped cfgB p] :=
          List.filter_cons_of_pos (p := (Addressed cfgA cfgB ·)) (decide_eq_true hstripped)
        have hdelivered := hf.delivered (haddressed.2.1 ▸ hA)
        unfold MacLink.received
        dsimp only
        rw [ho, hdelivered]
        split_ifs
        · rfl
        · rw [List.reverse_singleton, hfilter]
          rfl
    · have hstripped : ¬Addressed cfgA cfgB (Mac80211.stripped cfgB p) := haddressed
      refine h.passes horder hnone ?_ ?_
      · have hfilter : Option.filter (Addressed cfgA cfgB ·) (some p) = none :=
          Option.filter_some_neg (p := (Addressed cfgA cfgB ·)) (decide_eq_false haddressed)
        rw [hacked, hfilter]
        rfl
      · have hnil : (deliveries o).filter (Addressed cfgA cfgB ·) = [] := by
          apply List.filter_eq_nil_iff.mpr
          intro q hq
          rw [ho] at hq
          rw [hf.only q (List.mem_reverse.mp hq)]
          simpa using hstripped
        unfold MacLink.received
        dsimp only
        rw [hnil]
        rfl
  · have hnoack : ¬(t.HasACK ∧ ¬w.b.HasACK) := fun hnew => hnew.2 (hu.after hnew.1)
    refine h.passes horder hnone (if_neg hnoack) ?_
    have hnil : (deliveries o).filter (Addressed cfgA cfgB ·) = [] := by
      apply List.filter_eq_nil_iff.mpr
      intro q hq haddressed
      rw [ho] at hq
      exact hB ((of_decide_eq_true haddressed).2.2.symm.trans (hu.broadcast q (List.mem_reverse.mp hq)))
    unfold MacLink.received
    dsimp only
    rw [hnil]
    rfl

lemma deliveries_reverse (out : List MacOutput) : deliveries out.reverse = (deliveries out).reverse :=
  List.filterMap_reverse

/-- An event that does not end the reception. -/
lemma Filtering.keepsOn (h : Filtering cfgA cfgB w) {air : List MacFrame} (hsub : air.Sublist w.air) {ev : MacEvent}
    (hfires : ∀ timer, ev.input = .fire timer → w.b.due timer = some ev.time)
    (hstep : w.b.step cfgB ev = some (t, o)) (hi : ev.input ≠ .fire .recv)
    (hnew : ∀ p, ev.input = .recv p → Addressed cfgA cfgB p →
      ∃ q ∈ w.air, q.uid = p.uid ∧ ∀ r ∈ air, NotAfter w.handed q.uid r.uid) :
    Filtering cfgA cfgB { w.received cfgA cfgB t o with air := air } := by
  have hmove := Mac80211.step_move hfires hstep
  obtain ⟨u, hu, hpair⟩ := Option.map_eq_some_iff.mp hstep
  obtain ⟨rfl, rfl⟩ := Prod.mk.inj hpair
  obtain ⟨hrx, hout⟩ := Mac80211.handle_reception hu hi
  refine h.listens hsub (hmove.orderly h.orderB) ?_ ?_ fun q hq haddressed => ?_
  · rintro ⟨c, hc, hk⟩
    rcases hmove.pktCTRL hi with hsame | hnone
    · exact ⟨c, hsame.symm.trans hc, hk⟩
    · exact absurd (hnone.symm.trans hc) (by simp)
  · rw [deliveries_reverse, hout]
    rfl
  · rcases hrx q hq with ⟨p, hp, hpq⟩ | ⟨r, hr, hrq⟩
    · obtain ⟨hpa, huid⟩ := SameFrame.addressed hpq haddressed
      obtain ⟨q', hq', huid', hle⟩ := hnew p hp hpa
      exact .inl ⟨q', hq', huid'.trans huid.symm, hle⟩
    · obtain ⟨hra, huid⟩ := SameFrame.addressed hrq haddressed
      exact .inr ⟨r, hr, hra, huid.symm⟩

lemma Filtering.receives (h : Filtering cfgA cfgB w) (hA : cfgA.index < cfgB.cacheNodeCount)
    (hB : cfgB.index ≠ MAC_BROADCAST) {ev : MacEvent} (hreg : Regular cfgA cfgB w (.receiver ev))
    (hdist : Distinguishes cfgA cfgB w (.receiver ev)) (hstep : w.b.step cfgB ev = some (t, o)) :
    Filtering cfgA cfgB (w.received cfgA cfgB t o) := by
  by_cases hi : ev.input = .fire .recv
  · have horder := (Mac80211.step_move hreg.1.fires hstep).orderly h.orderB
    obtain ⟨u, hu, hpair⟩ := Option.map_eq_some_iff.mp hstep
    obtain ⟨rfl, rfl⟩ := Prod.mk.inj hpair
    rw [hi] at hu
    obtain ⟨hnone, p, hp, hcase⟩ := Mac80211.recvTimer_outcome hu rfl h.orderB.clear hB
    refine h.finishes hA hB horder hp hnone (deliveries_reverse _) (hdist hi p hp) ?_
    rcases hcase with ⟨hacks, hf⟩ | hun
    · exact .inl ⟨⟨hacks.quiet, hacks.receiving, hacks.intact, hacks.data, hacks.mine, hacks.unicast, hacks.answers⟩,
        hf.before, hf.after, hf.delivered, hf.only⟩
    · exact .inr ⟨hun.after, hun.broadcast⟩
  · exact h.keepsOn (List.Sublist.refl _) hreg.1.fires hstep hi fun p hp ha => absurd ha (hreg.2 p hp)

lemma Filtering.arrives (h : Filtering cfgA cfgB w) {lost : ℕ} {p : MacFrame} {air : List MacFrame}
    (hdrop : w.air.drop lost = p :: air) {time rxPr cpThresh : ℚ} {error : Bool}
    (hstep : w.b.step cfgB (arrival p time error rxPr cpThresh) = some (t, o)) :
    Filtering cfgA cfgB { w.received cfgA cfgB t o with air := air } := by
  have hsub : (p :: air).Sublist w.air := hdrop ▸ List.drop_sublist lost w.air
  have hsorted := h.sorted.sublist hsub
  refine h.keepsOn ((List.sublist_cons_self p air).trans hsub) (fun timer ht => by simp [arrival] at ht) hstep
    (by simp [arrival]) fun q hq ha => ?_
  obtain rfl := MacInput.recv.inj hq
  exact ⟨p, hsub.subset (List.mem_cons_self ..), rfl, (List.pairwise_cons.mp hsorted).1⟩

/-! ## Runs -/

lemma filtering_step (hA : cfgA.index < cfgB.cacheNodeCount) (hB : cfgB.index ≠ MAC_BROADCAST) {ev : MacLinkEvent}
    {u : Unit} (h : Filtering cfgA cfgB w)
    (hok : Regular cfgA cfgB w ev ∧ Distinguishes cfgA cfgB w ev)
    (hstep : w.step cfgA cfgB ev = some (w', u)) : Filtering cfgA cfgB w' := by
  cases ev with
  | sender ev =>
    obtain ⟨⟨t, o⟩, hs, hpair⟩ := Option.map_eq_some_iff.mp hstep
    obtain ⟨rfl, -⟩ := Prod.mk.inj hpair
    exact h.sent hok.1 hs
  | receiver ev =>
    obtain ⟨⟨t, o⟩, hs, hpair⟩ := Option.map_eq_some_iff.mp hstep
    obtain ⟨rfl, -⟩ := Prod.mk.inj hpair
    exact h.receives hA hB hok.1 hok.2 hs
  | arrive lost time error rxPr cpThresh =>
    unfold step at hstep
    dsimp only at hstep
    cases hdrop : w.air.drop lost with
    | nil => simp [hdrop] at hstep
    | cons p air =>
      rw [hdrop] at hstep
      obtain ⟨⟨t, o⟩, hs, hpair⟩ := Option.map_eq_some_iff.mp hstep
      obtain ⟨rfl, -⟩ := Prod.mk.inj hpair
      exact h.arrives hdrop hs

/-- The sender is node 1, the receiver node 2; nothing has to wait for a CTS. -/
def linkConfig (index : ℕ) : MacConfig := { MacConfig.default with index := index, rtsThreshold := 3000 }

/-- What the upper layer of node 1 has for a node. -/
def packetFor (ra uid : ℕ) : MacFrame := ⟨.data, ra, 1, 0, 0, uid, 100, 0, false, true, 0, 0⟩

/-- From a time on the packet in line is sent and received, and its ACK gets lost. -/
def unheardACK (us : ℕ) : List MacLinkEvent :=
  [.sender ⟨sec (us + 50), .fire .backoff, none⟩,
    .arrive 0 (sec (us + 51)) false 1 10,
    .sender ⟨sec (us + 1314), .fire .interface, none⟩,
    .receiver ⟨sec (us + 1315), .fire .recv, none⟩,
    .receiver ⟨sec (us + 1325), .fire .defer, none⟩,
    .receiver ⟨sec (us + 1629), .fire .interface, none⟩,
    .receiver ⟨sec (us + 1629), .fire .send, none⟩,
    .sender ⟨sec (us + 1632), .fire .send, none⟩]

/-- The `n`th packet of the sender, from 0 on. -/
def numbered (ra n : ℕ) : MacFrame :=
  { Mac80211.dataFrame (linkConfig 1) (packetFor ra n) with scontrol := (n + 1) % 2 ^ 16 }

/-- The sender after `n` broadcasts, which waits for its DIFS with the next packet. -/
def waiting (n ra : ℕ) : Mac80211 :=
  { Mac80211.init (linkConfig 1) fun _ => 0 with
    now := sec (1314 * n)
    pktTx := some (numbered ra n)
    callback := true
    staSeqno := (n + 2) % 2 ^ 16
    mhBackoff := ⟨true, false, sec (1314 * n), 0, 50 / 1000000⟩
    out := if n = 0 then [] else [.callback, .freed (numbered MAC_BROADCAST (n - 1))] }

/-- It transmits the next broadcast, or has just done so. -/
def transmitting (n : ℕ) (active : Bool) : Mac80211 :=
  { Mac80211.init (linkConfig 1) fun _ => 0 with
    now := sec (if active then 1314 * n + 50 else 1314 * n + 1314)
    txState := .send
    txActive := active
    pktTx := some (numbered MAC_BROADCAST n)
    callback := true
    staSeqno := (n + 2) % 2 ^ 16
    mhIF := if active then ⟨true, sec (1314 * n + 50), 1264 / 1000000⟩ else .free
    mhSend := ⟨true, sec (1314 * n + 50), 1264 / 1000000⟩
    out := if active then [.transmit (numbered MAC_BROADCAST n)] else [] }

/-- The sender in such a state, and nothing has come to the receiver. -/
def line (a : Mac80211) (n : ℕ) : MacLink where
  a := a
  b := .init (linkConfig 2) fun _ => 0
  air := []
  handed := List.range (n + 1)
  acked := []
  passed := []

def broadcastCycle (n ra : ℕ) : List MacLinkEvent :=
  [.sender ⟨sec (1314 * n + 50), .fire .backoff, none⟩,
    .sender ⟨sec (1314 * n + 1314), .fire .interface, none⟩,
    .sender ⟨sec (1314 * n + 1314), .fire .send, some (packetFor ra (n + 1))⟩]

lemma difs_linkConfig : (linkConfig 1).difs = 50 / 1000000 := by decide +kernel

lemma numbered_txtime (n : ℕ) : (numbered MAC_BROADCAST n).txtime = 1264 / 1000000 := by
  show (linkConfig 1).txtime 158 1000000 = 1264 / 1000000
  decide +kernel

lemma packetFor_small (ra n : ℕ) :
    (packetFor ra n).size + (linkConfig 1).hdrLen11 < (linkConfig 1).rtsThreshold := by
  show 158 < 3000
  decide

lemma init_send : (Mac80211.init (linkConfig 1) fun _ => 0).step (linkConfig 1)
    ⟨0, .send (packetFor MAC_BROADCAST 0), none⟩ = some (waiting 0 MAC_BROADCAST, []) := by
  have hfix : (linkConfig 1).bugFixTimer = true := rfl
  have hdifs : (0 : ℚ) ≤ 50 / 1000000 := by norm_num
  simp [Mac80211.step, Mac80211.handle, Mac80211.init, Mac80211.send, Mac80211.sendDATA, Mac80211.sendRTS,
    Mac80211.number, Mac80211.access, Mac80211.contend, Mac80211.startBackoff, Mac80211.isIdle, waiting, asserting,
    packetFor_small, BackoffTimer.free, BackoffTimer.start, MacTimer.free, difs_linkConfig, hfix, hdifs, sec]
  simp [numbered, Mac80211.dataFrame]

lemma waiting_backoff (n : ℕ) :
    (waiting n MAC_BROADCAST).step (linkConfig 1) ⟨sec (1314 * n + 50), .fire .backoff, none⟩ =
      some (transmitting n true, [.transmit (numbered MAC_BROADCAST n)]) := by
  have hnow := (Mac80211.sec_nonneg (1314 * n + 50)).not_gt
  have hra : (numbered MAC_BROADCAST n).ra = MAC_BROADCAST := rfl
  have hkind : (numbered MAC_BROADCAST n).kind = .data := rfl
  simp [Mac80211.step, Mac80211.handle, Mac80211.fire, Mac80211.backoffHandler, waiting, transmitting, Mac80211.init,
    Mac80211.checkPktRTS, Mac80211.checkPktTx, asserting, BackoffTimer.free, MacTimer.free, Mac80211.isIdle, hnow,
    Mac80211.setTxState, Mac80211.checkBackoffTimer, Mac80211.transmit, MacTimer.start, Mac80211.emit, numbered_txtime,
    hkind, hra]
  norm_num

lemma transmitting_interface (n : ℕ) :
    (transmitting n true).step (linkConfig 1) ⟨sec (1314 * n + 1314), .fire .interface, none⟩ =
      some (transmitting n false, []) := rfl

lemma transmitting_send (n ra : ℕ) :
    (transmitting n false).step (linkConfig 1) ⟨sec (1314 * n + 1314), .fire .send, some (packetFor ra (n + 1))⟩ =
      some (waiting (n + 1) ra, [.freed (numbered MAC_BROADCAST n), .callback]) := by
  have hnow := Mac80211.sec_nonneg (1314 * n + 1314)
  have htime : sec (1314 * (n + 1)) = sec (1314 * n + 1314) := rfl
  have hra : (numbered MAC_BROADCAST n).ra = MAC_BROADCAST := rfl
  have hdifs : (0 : ℚ) ≤ 50 / 1000000 := by norm_num
  simp [Mac80211.step, Mac80211.handle, Mac80211.fire, Mac80211.sendTimer, waiting, transmitting, Mac80211.init,
    Mac80211.retransmitDATA, asserting, BackoffTimer.free, MacTimer.free, Mac80211.isIdle, hnow, Mac80211.setTxState,
    Mac80211.checkBackoffTimer, Mac80211.emit, Mac80211.txResume, Mac80211.txNext, hra, Mac80211.rstCw,
    Mac80211.startBackoff, BackoffTimer.start, BackoffTimer.resume, packetFor_small, difs_linkConfig, Mac80211.send,
    Mac80211.sendDATA, Mac80211.sendRTS, Mac80211.number, Mac80211.access, hdifs, hnow.not_gt, htime]
  simp [numbered, Mac80211.dataFrame]

lemma step_sender {ev : MacEvent} (hreg : Regular cfgA cfgB w (.sender ev)) (hstep : w.a.step cfgA ev = some (t, o)) :
    guarded (step cfgA cfgB) (Regular cfgA cfgB) w (.sender ev) = some (w.sent cfgA cfgB t o, ()) := by
  rw [guarded, if_pos hreg, step, hstep]
  rfl

lemma line_backoff (n : ℕ) :
    guarded (step (linkConfig 1) (linkConfig 2)) (Regular (linkConfig 1) (linkConfig 2))
        (line (waiting n MAC_BROADCAST) n) (.sender ⟨sec (1314 * n + 50), .fire .backoff, none⟩) =
      some (line (transmitting n true) n, ()) := by
  have hreg : Regular (linkConfig 1) (linkConfig 2) (line (waiting n MAC_BROADCAST) n)
      (.sender ⟨sec (1314 * n + 50), .fire .backoff, none⟩) := by
    refine ⟨Mac80211.possible_iff.mpr ?_, fun p hp => absurd hp List.not_mem_nil⟩
    simp [line, waiting, Mac80211.due, Mac80211.init, MacTimer.free, BackoffTimer.due, Mac80211.inputPossible, sec]
    exact ⟨by linarith, by linarith, by linarith⟩
  have hother : ¬Addressed (linkConfig 1) (linkConfig 2) (numbered MAC_BROADCAST n) :=
    fun ha => absurd ha.2.2 (by decide : MAC_BROADCAST ≠ 2)
  rw [step_sender hreg (waiting_backoff n)]
  simp [sent, line, waiting, transmitting, MacOutput.frame, hother]

lemma line_interface (n : ℕ) :
    guarded (step (linkConfig 1) (linkConfig 2)) (Regular (linkConfig 1) (linkConfig 2))
        (line (transmitting n true) n) (.sender ⟨sec (1314 * n + 1314), .fire .interface, none⟩) =
      some (line (transmitting n false) n, ()) := by
  have hreg : Regular (linkConfig 1) (linkConfig 2) (line (transmitting n true) n)
      (.sender ⟨sec (1314 * n + 1314), .fire .interface, none⟩) := by
    refine ⟨Mac80211.possible_iff.mpr ?_, fun p hp => absurd hp List.not_mem_nil⟩
    simp [line, transmitting, Mac80211.due, Mac80211.init, MacTimer.free, BackoffTimer.free, MacTimer.due,
      Mac80211.inputPossible, sec]
    exact ⟨by linarith, by linarith, by linarith⟩
  rw [step_sender hreg (transmitting_interface n)]
  simp [sent, line, transmitting]

lemma line_send (n ra : ℕ) :
    guarded (step (linkConfig 1) (linkConfig 2)) (Regular (linkConfig 1) (linkConfig 2))
        (line (transmitting n false) n) (.sender ⟨sec (1314 * n + 1314), .fire .send, some (packetFor ra (n + 1))⟩) =
      some (line (waiting (n + 1) ra) (n + 1), ()) := by
  have hreg : Regular (linkConfig 1) (linkConfig 2) (line (transmitting n false) n)
      (.sender ⟨sec (1314 * n + 1314), .fire .send, some (packetFor ra (n + 1))⟩) := by
    refine ⟨Mac80211.possible_iff.mpr ?_, fun p hp => ?_⟩
    · simp [line, transmitting, Mac80211.due, Mac80211.init, MacTimer.free, BackoffTimer.free, MacTimer.due,
        Mac80211.inputPossible, sec]
      exact ⟨by linarith, by linarith⟩
    · obtain rfl := List.mem_singleton.mp hp
      simp [packetFor, line, linkConfig]
  have hnew : (waiting (n + 1) ra).staSeqno ≠ (line (transmitting n false) n).a.staSeqno := by
    show (n + 1 + 2) % 2 ^ 16 ≠ (n + 2) % 2 ^ 16
    omega
  rw [step_sender hreg (transmitting_send n ra), sent, if_neg hnew]
  simp [line, waiting, MacOutput.frame, numbered, Mac80211.dataFrame, packetFor, List.range_succ]

lemma run_broadcastCycle (n ra : ℕ) :
    run (guarded (step (linkConfig 1) (linkConfig 2)) (Regular (linkConfig 1) (linkConfig 2)))
        (line (waiting n MAC_BROADCAST) n) (broadcastCycle n ra) =
      some (line (waiting (n + 1) ra) (n + 1), [(), (), ()]) := by
  rw [broadcastCycle, run_cons_of_step (line_backoff n), run_cons_of_step (line_interface n),
    run_cons_of_step (line_send n ra)]
  rfl

lemma run_broadcastCycles (n : ℕ) : ∃ outs,
    run (guarded (step (linkConfig 1) (linkConfig 2)) (Regular (linkConfig 1) (linkConfig 2)))
        (line (waiting 0 MAC_BROADCAST) 0) ((List.range n).flatMap (broadcastCycle · MAC_BROADCAST)) =
      some (line (waiting n MAC_BROADCAST) n, outs) := by
  induction n with
  | zero => exact ⟨[], rfl⟩
  | succ n ih =>
    obtain ⟨outs, hrun⟩ := ih
    refine ⟨outs ++ [(), (), ()], ?_⟩
    rw [List.range_succ, List.flatMap_append, run_append_of_run hrun, List.flatMap_singleton, run_broadcastCycle]
    rfl

/-- After 65535 broadcasts a packet has the number 0, which stands for none. -/
def wrappedRun : List MacLinkEvent :=
  [.sender ⟨0, .send (packetFor MAC_BROADCAST 0), none⟩] ++
    (List.range 65534).flatMap (broadcastCycle · MAC_BROADCAST) ++ broadcastCycle 65534 2 ++
    (unheardACK (1314 * 65535) ++ unheardACK (1314 * 65535 + 1632))

end MacLink

end NetworkSimulator
