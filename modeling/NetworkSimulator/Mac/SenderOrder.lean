import NetworkSimulator.Library.Runs
import NetworkSimulator.Mac.Sender

/-!
# The order of the sending side

How the frames, the transmit state and the timers of the sending side belong together in every run.
-/

namespace NetworkSimulator

open Library

namespace Sender
variable {cfg : MacConfig} {s t : Sender} {p : MacFrame}

/-- The frames fit together: an RTS belongs to a packet that needs one, and a packet to a caller. -/
structure Stocked (cfg : MacConfig) (s : Sender) : Prop where
  announced : ∀ r ∈ s.pktRTS, r.kind = .rts ∧ ∃ p ∈ s.pktTx, ¬Small cfg p
  framed : ∀ p ∈ s.pktTx, p.kind = .data
  called : s.pktTx.isSome → s.callback

structure Orderly (cfg : MacConfig) (s : Sender) : Prop extends Stocked cfg s where
  sending : s.sending ↔ s.txState ≠ .idle
  proper : s.txState ≠ .recv ∧ s.txState ≠ .coll
  rts : s.txState = .rts → s.pktRTS.isSome
  data : s.txState = .send → s.pktTx.isSome ∧ s.pktRTS = none
  control : s.txState = .cts ∨ s.txState = .ack → s.pktCTRL.isSome
  clear : s.txState = .cts → ∀ c ∈ s.pktCTRL, c.kind = .cts
  quiet : s.txState = .rts ∨ s.txState = .send → ¬s.backingOff
  resting : s.deferring → s.txState = .idle
  both : s.deferring → s.backingOff → s.pktCTRL.isSome
  reason : s.deferring → s.pktCTRL.isSome ∨ s.pktTx.isSome
  answered : s.pktCTRL.isSome → s.deferring ∨ s.sending

lemma Stocked.rts_tx (h : Stocked cfg s) (hr : s.pktRTS.isSome) : s.pktTx.isSome := by
  obtain ⟨r, hr⟩ := Option.isSome_iff_exists.mp hr
  obtain ⟨-, p, hp, -⟩ := h.announced r hr
  exact Option.isSome_iff_exists.mpr ⟨p, hp⟩

lemma Stocked.empty (hp : s.pktTx = none) (hr : s.pktRTS = none) : Stocked cfg s where
  announced r h := by simp [hr] at h
  framed q h := by simp [hp] at h
  called h := by simp [hp] at h

lemma Stocked.queued (p : MacFrame) : Stocked cfg (s.queued cfg p) where
  announced := by
    intro r hr
    simp only [Sender.queued, rtsFor] at hr
    split_ifs at hr with hsmall
    · cases hr
    · obtain rfl := Option.some.inj hr
      exact ⟨rfl, _, rfl, hsmall⟩
  framed := by
    rintro q hq
    obtain rfl := Option.some.inj hq
    rfl
  called _ := rfl

lemma Stocked.contend (h : Stocked cfg s) : Stocked cfg (s.contend cfg) := by
  unfold Sender.contend
  split_ifs
  · exact ⟨h.announced, h.framed, h.called⟩
  · exact ⟨h.announced, h.framed, h.called⟩

lemma Accepts.stocked (h : Accepts cfg s p t) : Stocked cfg t := by
  have hq : Stocked cfg (s.queued cfg p) := .queued p
  cases h with
  | waits hp hr ht => exact hq
  | contends hp hr hb hd hx => exact hq.contend
  | backs hp hr hb => exact ⟨hq.announced, hq.framed, hq.called⟩

/-- With no frame under way the timers are in order when the packets are. -/
lemma Stocked.orderly (h : Stocked cfg s) (hx : s.txState = .idle) (hs : ¬s.sending)
    (hboth : s.deferring → s.backingOff → s.pktCTRL.isSome) (hreason : s.deferring → s.pktCTRL.isSome ∨ s.pktTx.isSome)
    (hanswered : s.pktCTRL.isSome → s.deferring) : Orderly cfg s where
  toStocked := h
  sending := by simp [hs, hx]
  proper := by simp [hx]
  rts hr := absurd (hx.symm.trans hr) (by decide)
  data hd := absurd (hx.symm.trans hd) (by decide)
  control hc := by simp [hx] at hc
  clear hc := absurd (hx.symm.trans hc) (by decide)
  quiet hq := by simp [hx] at hq
  resting _ := hx
  both := hboth
  reason := hreason
  answered hc := .inl (hanswered hc)

lemma Accepts.timers (h : Accepts cfg s p t) :
    t.txState = s.txState ∧ t.sending = s.sending ∧ t.pktCTRL = s.pktCTRL ∧ t.pktTx.isSome ∧
      (s.deferring → t.deferring) ∧ (¬s.deferring → t.deferring → ¬t.backingOff) := by
  cases h with
  | waits hp hr ht => exact ⟨rfl, rfl, rfl, rfl, id, fun hd hd' => absurd hd' hd⟩
  | contends hp hr hb hd hx =>
    unfold Sender.contend
    split_ifs
    · exact ⟨rfl, rfl, rfl, rfl, id, fun hd hd' => absurd hd' hd⟩
    · exact ⟨rfl, rfl, rfl, rfl, fun _ => rfl, fun _ _ => hb⟩
  | backs hp hr hb => exact ⟨rfl, rfl, rfl, rfl, id, fun hd hd' => absurd hd' hd⟩

lemma Resumes.orderly {q : Option MacFrame} (h : Resumes cfg q s t) (hstock : Stocked cfg s) (hs : ¬s.sending)
    (hd : ¬s.deferring) :
    Orderly cfg t := by
  cases h with
  | control hc =>
    exact Stocked.orderly ⟨hstock.announced, hstock.framed, hstock.called⟩ rfl hs (fun _ _ => hc) (fun _ => .inl hc)
      fun _ => rfl
  | waits hc hp hb =>
    exact Stocked.orderly ⟨hstock.announced, hstock.framed, hstock.called⟩ rfl hs (fun h => absurd h hd)
      (fun h => absurd h hd) fun h => by simp [hc] at h
  | contends hc hp hb =>
    have htx : s.pktTx.isSome := by
      rcases hp with hr | ⟨p, hp, -⟩
      · exact hstock.rts_tx hr
      · exact Option.isSome_iff_exists.mpr ⟨p, hp⟩
    have hnext := hstock.contend
    unfold Sender.contend at hnext ⊢
    split_ifs at hnext ⊢
    · exact Stocked.orderly ⟨hnext.announced, hnext.framed, hnext.called⟩ rfl hs (fun h => absurd h hd)
        (fun h => absurd h hd) fun h => by simp [hc] at h
    · exact Stocked.orderly ⟨hnext.announced, hnext.framed, hnext.called⟩ rfl hs (fun _ h => absurd h hb)
        (fun _ => .inr htx) fun h => by simp [hc] at h
  | big hc hr hp hsize hb =>
    exact Stocked.orderly ⟨hstock.announced, hstock.framed, hstock.called⟩ rfl hs (fun _ h => absurd h hb)
      (fun _ => .inr (Option.isSome_iff_exists.mpr ⟨_, hp⟩)) fun _ => rfl
  | rests hc hr hp hcall =>
    exact Stocked.orderly ⟨hstock.announced, hstock.framed, hstock.called⟩ rfl hs (fun h => absurd h hd)
      (fun h => absurd h hd) fun h => by simp [hc] at h
  | called hc hr hp hcall =>
    refine Stocked.orderly ⟨hstock.announced, hstock.framed, fun h => ?_⟩ rfl hs (fun h => absurd h hd)
      (fun h => absurd h hd) fun h => by simp [hc] at h
    simp [hp] at h
  | reply hc hr hp hcall hq ht =>
    obtain ⟨-, hsend, hctrl, htx, -, hdefer⟩ := ht.timers
    have hnext := ht.stocked
    refine Stocked.orderly ⟨hnext.announced, hnext.framed, hnext.called⟩ rfl (fun h => hs (hsend ▸ h))
      (fun h h' => absurd h' (hdefer hd h)) (fun _ => .inr htx) fun h => ?_
    have hnone := hctrl.trans hc
    simp [hnone] at h

lemma Accepts.orderly (h : Accepts cfg s p t) (hs : Orderly cfg s) : Orderly cfg t := by
  have hnext := h.stocked
  have hempty : s.pktTx = none ∧ s.pktRTS = none := by
    cases h with
    | waits hp hr ht => exact ⟨hp, hr⟩
    | contends hp hr hb hd hx => exact ⟨hp, hr⟩
    | backs hp hr hb => exact ⟨hp, hr⟩
  have hx : ¬(s.txState = .rts ∨ s.txState = .send) := by
    rintro (hx | hx)
    · simpa [hempty.2] using hs.rts hx
    · simpa [hempty.1] using (hs.data hx).1
  have hctrl : s.deferring → s.pktCTRL.isSome := fun hd => by simpa [hempty.1] using hs.reason hd
  obtain ⟨htx, hsend, hc, hp, -, hdefer⟩ := h.timers
  refine ⟨hnext, by rw [hsend, htx]; exact hs.sending, by rw [htx]; exact hs.proper, fun hr => ?_,
    fun hr => ?_, ?_, ?_, ?_, ?_, ?_, fun _ => .inr hp, ?_⟩
  · exact absurd (.inl (htx ▸ hr)) hx
  · exact absurd (.inr (htx ▸ hr)) hx
  · rw [htx, hc]
    exact hs.control
  · rw [htx, hc]
    exact hs.clear
  · rw [htx]
    exact fun h => absurd h hx
  · intro hd
    rw [htx]
    cases h with
    | waits hp hr ht => exact hs.resting hd
    | contends hp hr hb hd' hx => exact hx
    | backs hp hr hb => exact hs.resting hd
  · intro hd hb
    rw [hc]
    by_cases hd' : s.deferring
    · exact hctrl hd'
    · exact absurd hb (hdefer hd' hd)
  · rw [hc, hsend]
    intro hc'
    rcases hs.answered hc' with hd | hsending
    · refine .inl ?_
      cases h with
      | waits hp hr ht => exact hd
      | contends hp hr hb hd' hx => exact absurd hd hd'
      | backs hp hr hb => exact hd
    · exact .inr hsending

/-- A frame goes out: only the send timer is left. -/
lemma Stocked.sends (h : Stocked cfg s) {x : MacState} (hx : x ≠ .idle ∧ x ≠ .recv ∧ x ≠ .coll) (hd : ¬s.deferring)
    (hrts : x = .rts → s.pktRTS.isSome) (hdata : x = .send → s.pktTx.isSome ∧ s.pktRTS = none)
    (hctrl : x = .cts ∨ x = .ack → s.pktCTRL.isSome) (hclear : x = .cts → ∀ c ∈ s.pktCTRL, c.kind = .cts)
    (hb : x = .rts ∨ x = .send → ¬s.backingOff) :
    Orderly cfg { s with txState := x, sending := true } where
  toStocked := ⟨h.announced, h.framed, h.called⟩
  sending := by simp [hx.1]
  proper := hx.2
  rts := hrts
  data := hdata
  control := hctrl
  clear := hclear
  quiet := hb
  resting h := absurd h hd
  both h := absurd h hd
  reason h := absurd h hd
  answered _ := .inr rfl

lemma Attempts.orderly {frames : List MacFrame} (h : Attempts s cfg frames t) (hs : Stocked cfg s)
    (hd : ¬s.deferring) (hb : ¬s.backingOff) (hx : s.txState = .idle) (hsend : ¬s.sending) (hc : s.pktCTRL = none) :
    Orderly cfg t := by
  have hnone : s.pktCTRL.isSome → s.deferring := fun h => by simp [hc] at h
  cases h with
  | nothing hr hp => exact hs.orderly hx hsend (fun h => absurd h hd) (fun h => absurd h hd) hnone
  | rtsWaits hr =>
    exact Stocked.orderly ⟨hs.announced, hs.framed, hs.called⟩ hx hsend (fun h => absurd h hd)
      (fun h => absurd h hd) hnone
  | rts hr hx hsend =>
    exact hs.sends (by decide) hd (fun _ => by simp [hr]) (fun h => absurd h (by decide)) (by simp) (by simp)
      fun _ => hb
  | dataWaits hr hp =>
    refine Stocked.orderly ⟨fun r hr' => ?_, hs.framed, hs.called⟩ hx hsend (fun h => absurd h hd)
      (fun h => absurd h hd) hnone
    simp only [rtsFor] at hr'
    split_ifs at hr' with hsmall
    · cases hr'
    · obtain rfl := Option.some.inj hr'
      exact ⟨rfl, _, hp, hsmall⟩
  | data hr hp hx hsend =>
    exact hs.sends (by decide) hd (fun h => absurd h (by decide)) (fun _ => ⟨by simp [hp], hr⟩) (by simp) (by simp)
      fun _ => hb

lemma Expires.stocked {failed : List MacFrame} (h : Expires cfg s failed t) (hs : Stocked cfg s) : Stocked cfg t := by
  have hagain : ∀ {p : MacFrame}, s.pktTx = some p → ∀ r ∈ rtsFor cfg p,
      r.kind = .rts ∧ ∃ p ∈ s.pktTx, ¬Small cfg p := by
    intro p hp r hr
    simp only [rtsFor] at hr
    split_ifs at hr with hsmall
    · cases hr
    · obtain rfl := Option.some.inj hr
      exact ⟨rfl, _, hp, hsmall⟩
  cases h with
  | rtsFailed hx hr hp hb hlimit => exact .empty rfl rfl
  | rtsAgain hx hr hp hb hlimit => exact ⟨hs.announced, hs.framed, hs.called⟩
  | broadcast hx hr hp hb hra => exact .empty rfl hr
  | shortFailed hx hr hp hb hra hsize hlimit =>
    exact .empty rfl hr
  | shortAgain hx hr hp hb hra hsize hlimit => exact ⟨hagain hp, hs.framed, hs.called⟩
  | longFailed hx hr hp hb hra hsize hlimit =>
    exact .empty rfl hr
  | longAgain hx hr hp hb hra hsize hlimit => exact ⟨hagain hp, hs.framed, hs.called⟩
  | control hx hc => exact ⟨hs.announced, hs.framed, hs.called⟩
  | idle hx => exact hs

lemma Expires.timers {failed : List MacFrame} (h : Expires cfg s failed t) :
    t.sending = s.sending ∧ t.deferring = s.deferring := by
  cases h
  all_goals exact ⟨rfl, rfl⟩

lemma Orderly.idle_of_backoff (hs : Orderly cfg s) (hb : s.backingOff) (hc : s.pktCTRL = none) :
    s.txState = .idle := by
  have hproper := hs.proper
  have hquiet : ¬(s.txState = .rts ∨ s.txState = .send) := fun hx => hs.quiet hx hb
  have hctrl : ¬(s.txState = .cts ∨ s.txState = .ack) := fun hx => by simpa [hc] using hs.control hx
  cases hx : s.txState with
  | idle => rfl
  | recv => exact absurd hx hproper.1
  | coll => exact absurd hx hproper.2
  | rts => exact absurd (.inl hx) hquiet
  | cts => exact absurd (.inl hx) hctrl
  | ack => exact absurd (.inr hx) hctrl
  | send => exact absurd (.inr hx) hquiet

/-- Every move keeps the order. -/
theorem Move.orderly {q : Option MacFrame} {i : MacInput} {r : Report} (h : Move cfg q s i r t) (hs : Orderly cfg s) :
    Orderly cfg t := by
  have hstock := hs.toStocked
  cases h with
  | stays hi => exact hs
  | accepts ht => exact ht.orderly hs
  | answersRTS hx hsend hc hk ht =>
    exact ht.orderly ⟨hstock.announced, hstock.framed, hstock.called⟩ hsend (by simp)
  | cleared hx hr hp hsend hd ht =>
    exact ht.orderly ⟨by simp, hstock.framed, hstock.called⟩ (by simp) hd
  | afterCTS hx hc hsend hd hk ht =>
    exact ht.orderly ⟨hstock.announced, hstock.framed, hstock.called⟩ (by simp) hd
  | ackWaits hc hsend hk =>
    have hnone : ¬(s.txState = .cts ∨ s.txState = .ack) := fun hx => by simpa [hc] using hs.control hx
    exact ⟨⟨hstock.announced, hstock.framed, hstock.called⟩, hs.sending, hs.proper, hs.rts, hs.data, fun _ => rfl,
      fun hx => absurd (.inl hx) hnone, hs.quiet, hs.resting, fun _ _ => rfl, fun _ => .inl rfl, fun _ => .inr hsend⟩
  | acks hc hsend hd hk ht => exact ht.orderly ⟨hstock.announced, hstock.framed, hstock.called⟩ hsend hd
  | acked hx hp hsend hd hb ht =>
    exact ht.orderly (.empty rfl (hs.data hx).2) (by simp) hd
  | expires hsend hd hu ht =>
    obtain ⟨hsend', hd'⟩ := hu.timers
    exact ht.orderly (hu.stocked ⟨hstock.announced, hstock.framed, hstock.called⟩) (by simp [hsend'])
      (by simpa [hd'] using hd)
  | dropsCTS hd hc hk =>
    have hx := hs.resting hd
    have hsend : ¬s.sending := fun h => hs.sending.mp h hx
    exact Stocked.orderly ⟨hstock.announced, hstock.framed, hstock.called⟩ hx hsend (by simp) (by simp) (by simp)
  | sendsCTS hd hc hk hx hsend =>
    refine Stocked.sends (s := { s with deferring := false }) ⟨hstock.announced, hstock.framed, hstock.called⟩
      (by decide) (by simp) (by simp) (by simp) (fun _ => by simp [hc]) (fun _ c' hc' => ?_) (by simp)
    obtain rfl := Option.some.inj (hc.symm.trans hc')
    exact hk
  | sendsACK hd hc hk hsend =>
    exact Stocked.sends (s := { s with deferring := false }) ⟨hstock.announced, hstock.framed, hstock.called⟩
      (by decide) (by simp) (by simp) (by simp) (fun _ => by simp [hc]) (by simp) (by simp)
  | defers hd hc hb ht =>
    have hx := hs.resting hd
    have hc : s.pktCTRL = none := by
      rcases hc with hc | hc | hc
      · exact hc
      · exact absurd (hx.symm.trans hc) (by decide)
      · exact absurd (hx.symm.trans hc) (by decide)
    exact ht.orderly ⟨hstock.announced, hstock.framed, hstock.called⟩ (by simp) hb hx
      (fun h => hs.sending.mp h hx) hc
  | backsOff hb hc ht =>
    have hd : ¬s.deferring := fun hd => by simpa [hc] using hs.both hd hb
    have hx := hs.idle_of_backoff hb hc
    exact ht.orderly ⟨hstock.announced, hstock.framed, hstock.called⟩ hd (by simp) hx
      (fun h => hs.sending.mp h hx) hc
  | yields hb hc ht =>
    exact ⟨⟨hstock.announced, hstock.framed, hstock.called⟩, hs.sending, hs.proper, hs.rts, hs.data, hs.control,
      hs.clear, fun _ => by simp, hs.resting, fun _ h => by simp at h, hs.reason, hs.answered⟩

/-! ## The packet in line -/

lemma Accepts.packet (h : Accepts cfg s p t) :
    t.staSeqno ≠ s.staSeqno ∧ t.ssrc = s.ssrc ∧ t.slrc = s.slrc ∧
      t.pktTx = some { Mac80211.dataFrame cfg p with scontrol := s.staSeqno } := by
  have hnew : (s.staSeqno + 1) % 2 ^ 16 ≠ s.staSeqno := by omega
  cases h with
  | waits hp hr ht => exact ⟨hnew, rfl, rfl, rfl⟩
  | contends hp hr hb hd hx =>
    unfold Sender.contend
    split_ifs
    · exact ⟨hnew, rfl, rfl, rfl⟩
    · exact ⟨hnew, rfl, rfl, rfl⟩
  | backs hp hr hb => exact ⟨hnew, rfl, rfl, rfl⟩

/-- `tx_resume` keeps the packet or takes a new one. -/
lemma Resumes.packet {q : Option MacFrame} (h : Resumes cfg q s t) :
    t.ssrc = s.ssrc ∧ t.slrc = s.slrc ∧ t.txState = .idle ∧
      (t.staSeqno = s.staSeqno ∧ t.pktTx = s.pktTx ∨
        s.pktTx = none ∧ t.staSeqno ≠ s.staSeqno ∧
          ∃ p ∈ q, t.pktTx = some { Mac80211.dataFrame cfg p with scontrol := s.staSeqno }) := by
  cases h with
  | control hc => exact ⟨rfl, rfl, rfl, .inl ⟨rfl, rfl⟩⟩
  | waits hc hp hb => exact ⟨rfl, rfl, rfl, .inl ⟨rfl, rfl⟩⟩
  | contends hc hp hb =>
    unfold Sender.contend
    split_ifs
    · exact ⟨rfl, rfl, rfl, .inl ⟨rfl, rfl⟩⟩
    · exact ⟨rfl, rfl, rfl, .inl ⟨rfl, rfl⟩⟩
  | big hc hr hp hsize hb => exact ⟨rfl, rfl, rfl, .inl ⟨rfl, rfl⟩⟩
  | rests hc hr hp hcall => exact ⟨rfl, rfl, rfl, .inl ⟨rfl, rfl⟩⟩
  | called hc hr hp hcall => exact ⟨rfl, rfl, rfl, .inl ⟨rfl, rfl⟩⟩
  | reply hc hr hp hcall hq ht =>
    obtain ⟨hnew, hs, hl, htx⟩ := ht.packet
    exact ⟨hs, hl, rfl, .inr ⟨hp, hnew, _, hq, htx⟩⟩

lemma Resumes.pktCTRL {q : Option MacFrame} (h : Resumes cfg q s t) : t.pktCTRL = s.pktCTRL := by
  cases h with
  | contends hc hp hb =>
    unfold Sender.contend
    split_ifs
    · rfl
    · rfl
  | reply hc hr hp hcall hq ht => exact ht.timers.2.2.1
  | control hc => rfl
  | waits hc hp hb => rfl
  | big hc hr hp hsize hb => rfl
  | rests hc hr hp hcall => rfl
  | called hc hr hp hcall => rfl

/-- A control frame comes into line only when a frame has been received. -/
lemma Move.pktCTRL {q : Option MacFrame} {i : MacInput} {r : Report} (h : Move cfg q s i r t) (hi : i ≠ .fire .recv) :
    t.pktCTRL = s.pktCTRL ∨ t.pktCTRL = none := by
  cases h with
  | stays hi => exact .inl rfl
  | accepts ht => exact .inl ht.timers.2.2.1
  | answersRTS hx hs hc hk ht => exact absurd rfl hi
  | cleared hx hr hp hs hd ht => exact absurd rfl hi
  | afterCTS hx hc hs hd hk ht => exact absurd rfl hi
  | ackWaits hc hs hk => exact absurd rfl hi
  | acks hc hs hd hk ht => exact absurd rfl hi
  | acked hx hp hs hd hb ht => exact absurd rfl hi
  | expires hs hd hu ht =>
    rw [ht.pktCTRL]
    cases hu
    case control => exact .inr rfl
    all_goals exact .inl rfl
  | dropsCTS hd hc hk => exact .inr rfl
  | sendsCTS hd hc hk hx hs => exact .inl rfl
  | sendsACK hd hc hk hs => exact .inl rfl
  | defers hd hc hb ht =>
    cases ht
    all_goals exact .inl rfl
  | backsOff hb hc ht =>
    cases ht
    all_goals exact .inl rfl
  | yields hb hc ht => exact .inl rfl

lemma Attempts.current {frames : List MacFrame} (h : Attempts s cfg frames t) (hs : Stocked cfg s) :
    (∀ p ∈ frames, p.kind = .data → s.pktTx = some p) ∧ t.staSeqno = s.staSeqno ∧ t.pktTx = s.pktTx := by
  cases h with
  | nothing hr hp => exact ⟨by simp, rfl, rfl⟩
  | rtsWaits hr => exact ⟨by simp, rfl, rfl⟩
  | dataWaits hr hp => exact ⟨by simp, rfl, rfl⟩
  | rts hr hx hsend =>
    refine ⟨fun p hp hk => ?_, rfl, rfl⟩
    obtain rfl := List.mem_singleton.mp hp
    exact absurd ((hs.announced p hr).1.symm.trans hk) (by decide)
  | data hr hp hx hsend =>
    refine ⟨fun p hp' _ => ?_, rfl, rfl⟩
    obtain rfl := List.mem_singleton.mp hp'
    exact hp

lemma Expires.packet {failed : List MacFrame} (h : Expires cfg s failed t) :
    t.staSeqno = s.staSeqno ∧ (t.pktTx = s.pktTx ∨ t.pktTx = none) := by
  cases h with
  | rtsFailed hx hr hp hb hlimit => exact ⟨rfl, .inr rfl⟩
  | rtsAgain hx hr hp hb hlimit => exact ⟨rfl, .inl rfl⟩
  | broadcast hx hr hp hb hra => exact ⟨rfl, .inr rfl⟩
  | shortFailed hx hr hp hb hra hsize hlimit => exact ⟨rfl, .inr rfl⟩
  | shortAgain hx hr hp hb hra hsize hlimit => exact ⟨rfl, .inl rfl⟩
  | longFailed hx hr hp hb hra hsize hlimit => exact ⟨rfl, .inr rfl⟩
  | longAgain hx hr hp hb hra hsize hlimit => exact ⟨rfl, .inl rfl⟩
  | control hx hc => exact ⟨rfl, .inl rfl⟩
  | idle hx => exact ⟨rfl, .inl rfl⟩

/-- What becomes of the packet in line: it stays or leaves, or a new one comes with its own number. -/
def Follows (cfg : MacConfig) (q : Option MacFrame) (i : MacInput) (s t : Sender) : Prop :=
  t.staSeqno = s.staSeqno ∧ (t.pktTx = s.pktTx ∨ t.pktTx = none) ∨
    t.staSeqno ≠ s.staSeqno ∧ ∃ p, (q = some p ∨ i = .send p) ∧
      t.pktTx = some { Mac80211.dataFrame cfg p with scontrol := s.staSeqno }

lemma Resumes.follows {q : Option MacFrame} {i : MacInput} {u : Sender} (h : Resumes cfg q u t)
    (hseq : u.staSeqno = s.staSeqno) (htx : u.pktTx = s.pktTx ∨ u.pktTx = none) : Follows cfg q i s t := by
  obtain ⟨-, -, -, ⟨hsame, hp⟩ | ⟨-, hnew, p, hq, hp⟩⟩ := h.packet
  · refine .inl ⟨hsame.trans hseq, ?_⟩
    rwa [hp]
  · rw [hseq] at hnew hp
    exact .inr ⟨hnew, p, .inl hq, hp⟩

/-- A DATA frame that goes out is the packet in line. -/
theorem Move.current {q : Option MacFrame} {i : MacInput} {r : Report} (h : Move cfg q s i r t)
    (hs : Orderly cfg s) :
    (∀ p ∈ r.frames, p.kind = .data → s.pktTx = some p ∧ t.staSeqno = s.staSeqno) ∧ Follows cfg q i s t := by
  cases h with
  | stays hi => exact ⟨by simp [Report.none], .inl ⟨rfl, .inl rfl⟩⟩
  | accepts ht =>
    obtain ⟨hnew, -, -, hp⟩ := ht.packet
    exact ⟨by simp [Report.none], .inr ⟨hnew, _, .inr rfl, hp⟩⟩
  | answersRTS hx hsend hc hk ht => exact ⟨by simp [Report.none], ht.follows rfl (.inl rfl)⟩
  | cleared hx hr hp hsend hd ht => exact ⟨by simp, ht.follows rfl (.inl rfl)⟩
  | afterCTS hx hc hsend hd hk ht => exact ⟨by simp [Report.none], ht.follows rfl (.inl rfl)⟩
  | ackWaits hc hsend hk => exact ⟨by simp [Report.none], .inl ⟨rfl, .inl rfl⟩⟩
  | acks hc hsend hd hk ht => exact ⟨by simp [Report.none], ht.follows rfl (.inl rfl)⟩
  | acked hx hp hsend hd hb ht => exact ⟨by simp [Report.none], ht.follows rfl (.inr rfl)⟩
  | expires hsend hd hu ht => exact ⟨by simp, ht.follows hu.packet.1 hu.packet.2⟩
  | dropsCTS hd hc hk => exact ⟨by simp [Report.none], .inl ⟨rfl, .inl rfl⟩⟩
  | sendsCTS hd hc hk hx hsend =>
    refine ⟨fun p hp hk' => ?_, .inl ⟨rfl, .inl rfl⟩⟩
    obtain rfl := List.mem_singleton.mp hp
    exact absurd (hk.symm.trans hk') (by decide)
  | sendsACK hd hc hk hsend =>
    refine ⟨fun p hp hk' => ?_, .inl ⟨rfl, .inl rfl⟩⟩
    obtain rfl := List.mem_singleton.mp hp
    exact absurd (hk.symm.trans hk') (by decide)
  | defers hd hc hb ht =>
    obtain ⟨hframes, hseq, hp⟩ := ht.current ⟨hs.announced, hs.framed, hs.called⟩
    exact ⟨fun p hp' hk => ⟨hframes p hp' hk, hseq⟩, .inl ⟨hseq, .inl hp⟩⟩
  | backsOff hb hc ht =>
    obtain ⟨hframes, hseq, hp⟩ := ht.current ⟨hs.announced, hs.framed, hs.called⟩
    exact ⟨fun p hp' hk => ⟨hframes p hp' hk, hseq⟩, .inl ⟨hseq, .inl hp⟩⟩
  | yields hb hc ht => exact ⟨by simp [Report.none], .inl ⟨rfl, .inl rfl⟩⟩

end Sender

namespace Mac80211
variable {cfg : MacConfig}

lemma orderly_init (random : ℕ → ℕ) : Sender.Orderly cfg (init cfg random).sender :=
  Sender.Stocked.orderly (.empty rfl rfl) rfl Bool.false_ne_true (fun h => by cases h) (fun h => by cases h)
    fun h => by cases h

/-- The sending side is in order after every run in which the timers go off when they are due. -/
theorem orderly_run {t : Mac80211} (random : ℕ → ℕ) {evs : List MacEvent} {os : List (List MacOutput)}
    (hposs : EachStep (step cfg) Possible (init cfg random) evs)
    (hrun : run (step cfg) (init cfg random) evs = some (t, os)) : Sender.Orderly cfg t.sender :=
  hposs.invariant (fun (_ : Mac80211) _ _ _ hs hp h => (step_move hp.fires h).orderly hs) (orderly_init random) hrun

end Mac80211

end NetworkSimulator
