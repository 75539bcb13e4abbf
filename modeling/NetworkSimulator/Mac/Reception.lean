import NetworkSimulator.Mac.Backoff

/-!
# Reception in the MAC

The MAC remembers one frame at a time. Of the other frames on the air those that last longer take its place, and those
that are too weak to disturb it are kept as a NAV value.
-/

namespace NetworkSimulator

open Library

namespace Mac80211
variable {cfg : MacConfig} {s t u v : Mac80211} {p : MacFrame}

/-! ## What the sending side leaves alone -/

structure SameReceiver (s t : Mac80211) : Prop where
  now : t.now = s.now
  nav : t.nav = s.nav
  rxState : t.rxState = s.rxState
  pktRx : t.pktRx = s.pktRx
  mhRecv : t.mhRecv = s.mhRecv
  txActive : t.txActive = s.txActive
  mhIF : t.mhIF = s.mhIF
  sent : (report t.out).frames = (report s.out).frames

lemma SameReceiver.refl (s : Mac80211) : SameReceiver s s := ⟨rfl, rfl, rfl, rfl, rfl, rfl, rfl, rfl⟩

lemma SameReceiver.trans (h : SameReceiver s t) (h' : SameReceiver t u) : SameReceiver s u where
  now := h'.now.trans h.now
  nav := h'.nav.trans h.nav
  rxState := h'.rxState.trans h.rxState
  pktRx := h'.pktRx.trans h.pktRx
  mhRecv := h'.mhRecv.trans h.mhRecv
  txActive := h'.txActive.trans h.txActive
  mhIF := h'.mhIF.trans h.mhIF
  sent := h'.sent.trans h.sent

/-- Behind a change that the receiver does not see. -/
lemma SameReceiver.after (h : SameReceiver t u) (h' : SameReceiver s t) : SameReceiver s u := h'.trans h

lemma startBackoff_receiver {difs : ℚ} (h : s.startBackoff cfg difs = some t) : SameReceiver s t := by
  obtain ⟨-, rfl⟩ := startBackoff_some h
  exact ⟨rfl, rfl, rfl, rfl, rfl, rfl, rfl, rfl⟩

lemma startDefer_receiver {time : ℚ} (h : s.startDefer time = some t) : SameReceiver s t := by
  obtain ⟨-, -, rfl⟩ := startDefer_some h
  exact ⟨rfl, rfl, rfl, rfl, rfl, rfl, rfl, rfl⟩

lemma contend_receiver (h : s.contend cfg = some t) : SameReceiver s t := by
  rcases contend_some h with ⟨-, hb⟩ | ⟨-, -, rfl⟩
  · exact startBackoff_receiver hb
  · exact ⟨rfl, rfl, rfl, rfl, rfl, rfl, rfl, rfl⟩

lemma setTxState_receiver {x : MacState} (h : s.setTxState cfg x = some t) : SameReceiver s t := by
  obtain rfl := setTxState_some h
  exact ⟨rfl, rfl, rfl, rfl, rfl, rfl, rfl, rfl⟩

lemma sendRTS_receiver {dst : ℕ} (h : s.sendRTS cfg dst = some t) : SameReceiver s t := by
  obtain ⟨-, -, -, ⟨-, rfl⟩ | ⟨-, rfl⟩⟩ := sendRTS_some h
  all_goals exact ⟨rfl, rfl, rfl, rfl, rfl, rfl, rfl, rfl⟩

lemma send_receiver (h : s.send cfg p = some t) : SameReceiver s t := by
  have hqueued : SameReceiver s (queued cfg s p) := ⟨rfl, rfl, rfl, rfl, rfl, rfl, rfl, rfl⟩
  obtain ⟨-, -, hcase⟩ := send_some h
  rcases hcase with ⟨-, rfl⟩ | ⟨-, -, -, rfl⟩ | ⟨-, -, -, hc⟩ | ⟨-, -, hb⟩
  · exact hqueued
  · exact hqueued
  · exact hqueued.trans (contend_receiver hc)
  · exact hqueued.trans (startBackoff_receiver hb)

lemma txNext_receiver (h : s.txNext cfg = some t) : SameReceiver s t := by
  have hcalled : SameReceiver s s.called := ⟨rfl, rfl, rfl, rfl, rfl, rfl, rfl, rfl⟩
  cases txNext_some h with
  | control hc ht => exact startDefer_receiver ht
  | rtsWaits hc hr hb => exact .refl s
  | rts hc hr hb ht => exact contend_receiver ht
  | dataWaits hc hr hp hb => exact .refl s
  | small hc hr hp hb hsize ht => exact contend_receiver ht
  | big hc hr hp hb hsize ht => exact startDefer_receiver ht
  | nothing hc hr hp hcall => exact .refl s
  | called hc hr hp hcall hreply => exact hcalled
  | reply hc hr hp hcall hreply ht =>
    have hsend := send_receiver ht
    exact hcalled.trans ⟨hsend.now, hsend.nav, hsend.rxState, hsend.pktRx, hsend.mhRecv, hsend.txActive, hsend.mhIF,
      hsend.sent⟩

lemma txResume_receiver (h : s.txResume cfg = some t) : SameReceiver s t := by
  obtain ⟨-, -, u, hu, rfl⟩ := txResume_some h
  exact (txNext_receiver hu).trans ⟨rfl, rfl, rfl, rfl, rfl, rfl, rfl, rfl⟩

lemma incCw_receiver : SameReceiver s (s.incCw cfg) := ⟨rfl, rfl, rfl, rfl, rfl, rfl, rfl, rfl⟩

lemma expired_receiver (h : Expired cfg s t) : SameReceiver s t := by
  have hfrom : ∀ {w : Mac80211} {difs : ℚ}, SameReceiver s w → (w.incCw cfg).startBackoff cfg difs = some t →
      SameReceiver s t :=
    fun hw ht => (hw.trans incCw_receiver).trans (startBackoff_receiver ht)
  cases h with
  | rts hx ht =>
    obtain ⟨q, rts, -, -, -, hcase⟩ := retransmitRTS_some ht
    cases hcase with
    | failed hlimit =>
      refine ⟨rfl, rfl, rfl, rfl, rfl, rfl, rfl, ?_⟩
      rw [report_failures, report_discarded]
    | again hlimit hb =>
      exact ((startBackoff_receiver hb).after incCw_receiver).after ⟨rfl, rfl, rfl, rfl, rfl, rfl, rfl, rfl⟩
  | data hx ht =>
    obtain ⟨q, -, -, -, hcase⟩ := retransmitDATA_some ht
    cases hcase with
    | broadcast hra hb => exact (startBackoff_receiver hb).after ⟨rfl, rfl, rfl, rfl, rfl, rfl, rfl, rfl⟩
    | shortFailed hra hsize hlimit =>
      refine ⟨rfl, rfl, rfl, rfl, rfl, rfl, rfl, ?_⟩
      rw [report_failures]
    | shortAgain hra hsize hlimit hu hb =>
      have hrts : SameReceiver s _ := (sendRTS_receiver hu).after ⟨rfl, rfl, rfl, rfl, rfl, rfl, rfl, rfl⟩
      exact hfrom hrts hb
    | longFailed hra hsize hlimit =>
      refine ⟨rfl, rfl, rfl, rfl, rfl, rfl, rfl, ?_⟩
      rw [report_failures]
    | longAgain hra hsize hlimit hu hb =>
      have hrts : SameReceiver s _ := (sendRTS_receiver hu).after ⟨rfl, rfl, rfl, rfl, rfl, rfl, rfl, rfl⟩
      exact hfrom hrts hb
  | control hx hc => exact ⟨rfl, rfl, rfl, rfl, rfl, rfl, rfl, rfl⟩
  | idle hx => exact .refl s

lemma sendTimer_receiver (h : s.sendTimer cfg = some t) : SameReceiver s t := by
  obtain ⟨u, hu, ht⟩ := sendTimer_some h
  exact (expired_receiver hu).trans (txResume_receiver ht)

/-! ## Transmissions -/

/-- An event of the sending side leaves the receiver alone, or sends a frame and spoils what is being received. -/
inductive Transmits (s t : Mac80211) : Prop
  | quiet (h : SameReceiver s t)
  | sends (p : MacFrame) (hnow : t.now = s.now) (hnav : t.nav = s.nav) (hrx : t.rxState = s.rxState)
      (hr : t.mhRecv = s.mhRecv) (hp : t.pktRx = s.spoilt) (ha : t.txActive) (hfree : ¬s.mhIF.busy)
      (hpos : 0 ≤ p.txtime) (hif : t.mhIF = ⟨true, s.now, p.txtime⟩)
      (hsent : (report t.out).frames = p :: (report s.out).frames)

lemma transmit_txtime {time : ℚ} (h : s.transmit p time = some t) : 0 ≤ p.txtime := by
  unfold transmit at h
  dsimp only at h
  obtain ⟨u, -, hrest⟩ := Option.bind_eq_some_iff.mp h
  obtain ⟨tSend, -, hrest⟩ := Option.bind_eq_some_iff.mp hrest
  obtain ⟨tIF, hif, -⟩ := Option.map_eq_some_iff.mp hrest
  exact (MacTimer.start_eq_some hif).2.1

lemma Transmits.of_transmit {x : MacState} {time : ℚ} (hu : s.setTxState cfg x = some u)
    (ht : u.transmit p time = some t) : Transmits s t := by
  have hpos := transmit_txtime ht
  obtain ⟨-, hfree, -, -, rfl⟩ := transmit_some ht
  obtain rfl := setTxState_some hu
  exact .sends p rfl rfl rfl rfl rfl rfl hfree hpos rfl rfl

lemma attempt_transmits (h : Attempt cfg s t) : Transmits s t := by
  cases h with
  | nothing hr hp => exact .quiet (.refl s)
  | rtsWaits hr hidle ht => exact .quiet (incCw_receiver.trans (startBackoff_receiver ht))
  | rts hr hidle hu ht => exact .of_transmit hu ht
  | dataWaits hr hp hidle hu ht =>
    exact .quiet (((sendRTS_receiver hu).trans incCw_receiver).trans (startBackoff_receiver ht))
  | data hr hp hidle hu ht => exact .of_transmit hu ht

lemma deferHandler_transmits (h : s.deferHandler cfg = some t) : Transmits s t := by
  cases (deferHandler_some h).2 with
  | dropped hc hk htx hidle =>
    exact .quiet ⟨rfl, rfl, rfl, rfl, rfl, rfl, rfl, congrArg Report.frames (report_discarded _ s.out)⟩
  | cts hc hk hidle hu ht => exact .of_transmit hu ht
  | ack hc hk htx hu ht => exact .of_transmit hu ht
  | attempt hc hb ht => exact attempt_transmits ht

lemma backoffHandler_transmits (h : s.backoffHandler cfg = some t) : Transmits s t := by
  rcases backoffHandler_some h with ⟨-, -, rfl⟩ | ⟨-, -, ha⟩
  · exact .quiet (.refl _)
  · exact attempt_transmits ha

lemma navHandler_receiver (h : s.navHandler cfg = some t) : SameReceiver s t := by
  unfold navHandler at h
  split_ifs at h
  · obtain ⟨b, -, rfl⟩ := Option.map_eq_some_iff.mp h
    exact ⟨rfl, rfl, rfl, rfl, rfl, rfl, rfl, rfl⟩
  · obtain rfl := Option.some.inj h
    exact .refl s

/-! ## Receptions -/

/-- A frame is listened to: the NAV may grow. -/
structure Listens (s t : Mac80211) : Prop where
  now : t.now = s.now
  nav : s.nav ≤ t.nav
  rxState : t.rxState = s.rxState
  mhRecv : t.mhRecv = s.mhRecv
  txActive : t.txActive = s.txActive
  mhIF : t.mhIF = s.mhIF
  sent : (report t.out).frames = (report s.out).frames

lemma Listens.trans (h : Listens s t) (h' : SameReceiver t u) : Listens s u where
  now := h'.now.trans h.now
  nav := h.nav.trans h'.nav.ge
  rxState := h'.rxState.trans h.rxState
  mhRecv := h'.mhRecv.trans h.mhRecv
  txActive := h'.txActive.trans h.txActive
  mhIF := h'.mhIF.trans h.mhIF
  sent := h'.sent.trans h.sent

lemma SameReceiver.discard (q : MacFrame) : SameReceiver s (s.discard cfg q) :=
  ⟨rfl, rfl, rfl, rfl, rfl, rfl, rfl, congrArg Report.frames (report_discarded q s.out)⟩

lemma SameReceiver.dedup (q : MacFrame) : SameReceiver s (s.dedup cfg q) := by
  have hsent : (report (s.dedup cfg q).out).frames = (report s.out).frames := congrArg Report.frames report_dedup
  unfold Mac80211.dedup at hsent ⊢
  split_ifs at hsent ⊢
  all_goals exact ⟨rfl, rfl, rfl, rfl, rfl, rfl, rfl, hsent⟩

lemma SameReceiver.logged (q : MacFrame) : SameReceiver s (s.emit (.logged q)) := by
  refine ⟨rfl, rfl, rfl, rfl, rfl, rfl, rfl, ?_⟩
  rfl

lemma heard_listens : Listens s (heard cfg s p) := by
  unfold heard
  split_ifs
  · exact ⟨rfl, le_max_left _ _, rfl, rfl, rfl, rfl, rfl⟩
  · exact ⟨rfl, le_rfl, rfl, rfl, rfl, rfl, rfl⟩

lemma received_listens (h : Received cfg s p t) : Listens s t := by
  have hheard : Listens s (heard cfg s p) := heard_listens
  cases h with
  | ignored hp => exact hheard.trans (.discard p)
  | rts hra hk ht =>
    cases ht with
    | ignored hx => exact hheard.trans (.discard p)
    | answered hx hc hd ht =>
      exact (hheard.trans ((txResume_receiver ht).after ⟨rfl, rfl, rfl, rfl, rfl, rfl, rfl, rfl⟩)).trans (.logged p)
  | cts hra hk ht =>
    cases ht with
    | ignored hx => exact hheard.trans (.discard p)
    | cleared hx hr hp hs ht =>
      exact (hheard.trans ((txResume_receiver ht).after ⟨rfl, rfl, rfl, rfl, rfl, rfl, rfl, rfl⟩)).trans (.logged p)
  | ack hra hk ht =>
    cases ht with
    | ignored hx => exact hheard.trans (.discard p)
    | done hx hp hs hu ht =>
      have hstart : SameReceiver (heard cfg s p) _ :=
        (startBackoff_receiver hu).after ⟨rfl, rfl, rfl, rfl, rfl, rfl, rfl, rfl⟩
      exact ((hheard.trans hstart).trans (txResume_receiver ht)).trans (.logged p)
  | data hra hk ht =>
    cases ht with
    | ignored hra' hx => exact hheard.trans (.discard _)
    | afterCTS hra' hsize hx hc hs ht =>
      exact (hheard.trans ((txResume_receiver ht).after ⟨rfl, rfl, rfl, rfl, rfl, rfl, rfl, rfl⟩)).trans (.dedup _)
    | ackWaits hra' hsize hc hs =>
      have hctrl : SameReceiver (heard cfg s p) { heard cfg s p with pktCTRL := some (ackFrame cfg p.ta) } :=
        ⟨rfl, rfl, rfl, rfl, rfl, rfl, rfl, rfl⟩
      exact (hheard.trans hctrl).trans (.dedup _)
    | answered hra' hsize hc hs ht =>
      exact (hheard.trans ((txResume_receiver ht).after ⟨rfl, rfl, rfl, rfl, rfl, rfl, rfl, rfl⟩)).trans (.dedup _)
    | broadcast hra' => exact hheard.trans (.dedup _)
  | beacon hra hk =>
    unfold recvBEACON
    split_ifs
    · exact hheard.trans (.discard p)
    · exact hheard.trans (.logged p)

lemma waitEifs_listens : Listens s (waitEifs cfg s) := ⟨rfl, le_max_left _ _, rfl, rfl, rfl, rfl, rfl⟩

/-! ## What is on the air -/

/-- A frame as it came, apart from the mark of an error. -/
def core (p : MacFrame) : MacFrame := { p with error := false }

/-- Whether a frame is weaker than the one in reception by the capture threshold. -/
def weaker (s : Mac80211) (p : MacFrame) : Bool :=
  match s.pktRx with
  | some old => old.rxPr / p.rxPr ≥ p.cpThresh
  | none => false

/-- The frame that the end of the reception processes as intact. -/
def intact (s : Mac80211) : Option MacFrame :=
  if ¬s.txActive ∧ s.rxState = .recv then s.pktRx.filter (¬·.error) else none

/-- The frames that an event gives back. -/
def returned (out : List MacOutput) : List MacFrame :=
  out.filterMap fun o => match o with
    | .freed p => some p
    | .dropped p => some p
    | _ => none

/-- A frame that has come, its first and its last bit, and whether it was weaker than the frame in reception. -/
structure Heard where
  frame : MacFrame
  start : ℚ
  ends : ℚ
  weaker : Bool

/-- The frames that have come, the times of the own transmissions, and the frames freed by the receiver and processed
as intact, the latest first. -/
structure Air where
  heard : List Heard
  sent : List (ℚ × ℚ)
  freed : List MacFrame
  intact : List MacFrame

def transmitted (g : Air) (time : ℚ) (o : List MacOutput) : Air :=
  { g with sent := (o.filterMap MacOutput.frame).map (fun f => (time, time + f.txtime)) ++ g.sent }

/-- The air after an event. -/
def Air.next (g : Air) (s : Mac80211) (ev : MacEvent) (o : List MacOutput) : Air :=
  match ev.input with
  | .recv p => { transmitted g ev.time o with
      heard := ⟨p, ev.time, ev.time + p.txtime, s.weaker p⟩ :: g.heard
      freed := returned o ++ g.freed }
  | .fire .recv =>
    match s.intact with
    | some p => { transmitted g ev.time o with intact := p :: g.intact }
    | none => { transmitted g ev.time o with freed := returned o ++ g.freed }
  | _ => transmitted g ev.time o

def aired (cfg : MacConfig) (s : Mac80211 × Air) (ev : MacEvent) : Option ((Mac80211 × Air) × List MacOutput) :=
  (step cfg s.1 ev).map fun r => ((r.1, s.2.next s.1 ev r.2), r.2)

/-- Two periods have a time in common. -/
def Overlap (start ends start' ends' : ℚ) : Prop := start < ends' ∧ start' < ends

/-- A frame has come without a collision as far as the others are too weak, and without a transmission of the own. -/
structure Clean (g : Air) (p : MacFrame) (ends : ℚ) (alone quiet : Prop) : Prop where
  found : ∃ l r l', g.heard = l ++ r :: l' ∧ core r.frame = core p ∧ r.ends = ends ∧
    (alone → ∀ q ∈ l ++ l', Overlap q.start q.ends r.start r.ends → q.weaker) ∧
    (quiet → ∀ x ∈ g.sent, ¬Overlap x.1 x.2 r.start r.ends)

structure Receiving (s : Mac80211) (g : Air) : Prop where
  rest : s.rxState = .idle → s.pktRx = none ∧ ¬s.mhRecv.busy
  busy : s.rxState ≠ .idle → (s.rxState = .recv ∨ s.rxState = .coll) ∧ s.mhRecv.busy
  active : s.txActive = s.mhIF.busy
  sent : ∀ x ∈ g.sent, x.2 ≤ if s.mhIF.busy then s.mhIF.due else s.now
  weak : ∀ q ∈ g.heard, q.weaker → q.ends ≤ s.nav
  strong : ∀ q ∈ g.heard, ¬q.weaker → q.ends ≤ if s.mhRecv.busy then s.mhRecv.due else s.now
  current : ∀ p ∈ s.pktRx, Clean g p s.mhRecv.due (s.rxState = .recv) (¬p.error)
  account : (g.heard.map (core ·.frame)).Perm (g.freed.map core ++ g.intact.map core ++ (s.pktRx.map core).toList)

variable {g : Air} {ev : MacEvent}

lemma receiving_init (random : ℕ → ℕ) : Receiving (init cfg random) ⟨[], [], [], []⟩ where
  rest _ := ⟨rfl, by simp [init, MacTimer.free]⟩
  busy h := absurd rfl h
  active := rfl
  sent x hx := by simp at hx
  weak q hq := by simp at hq
  strong q hq := by simp at hq
  current p hp := by simp [init] at hp
  account := by simp [init]

lemma Receiving.atTime (h : Receiving s g) (hlater : s.now ≤ ev.time) : Receiving (s.atTime ev) g where
  rest := h.rest
  busy := h.busy
  active := h.active
  sent x hx := by
    have hle := h.sent x hx
    change x.2 ≤ if s.mhIF.busy then s.mhIF.due else ev.time
    split_ifs at hle ⊢
    · exact hle
    · exact hle.trans hlater
  weak := h.weak
  strong q hq hw := by
    have hle := h.strong q hq hw
    change q.ends ≤ if s.mhRecv.busy then s.mhRecv.due else ev.time
    split_ifs at hle ⊢
    · exact hle
    · exact hle.trans hlater
  current := h.current
  account := h.account

/-- Nothing happens to the receiver. -/
lemma Receiving.quiet (h : Receiving s g) (hsame : SameReceiver s t) : Receiving t g where
  rest := by
    rw [hsame.rxState, hsame.pktRx, hsame.mhRecv]
    exact h.rest
  busy := by
    rw [hsame.rxState, hsame.mhRecv]
    exact h.busy
  active := by
    rw [hsame.txActive, hsame.mhIF]
    exact h.active
  sent := by
    rw [hsame.mhIF, hsame.now]
    exact h.sent
  weak := by
    rw [hsame.nav]
    exact h.weak
  strong := by
    rw [hsame.mhRecv, hsame.now]
    exact h.strong
  current := by
    rw [hsame.pktRx, hsame.mhRecv, hsame.rxState]
    exact h.current
  account := by
    rw [hsame.pktRx]
    exact h.account

lemma core_error (p : MacFrame) : core { p with error := true } = core p := rfl

/-- A frame is sent, which spoils the one in reception. -/
lemma Receiving.transmits (h : Receiving s g) (ht : Transmits s t) (hout : s.out = []) :
    Receiving t (transmitted g s.now t.out.reverse) := by
  cases ht with
  | quiet hsame =>
    have hframes : t.out.reverse.filterMap MacOutput.frame = [] := by
      have hsent : t.out.filterMap MacOutput.frame = s.out.filterMap MacOutput.frame := hsame.sent
      rw [List.filterMap_reverse, hsent, hout]
      rfl
    unfold transmitted
    rw [hframes]
    exact h.quiet hsame
  | sends p hnow hnav hrx hr hp ha hfree hpos hif hsent =>
    have hframes : t.out.reverse.filterMap MacOutput.frame = [p] := by
      have hsent : t.out.filterMap MacOutput.frame = p :: s.out.filterMap MacOutput.frame := hsent
      rw [List.filterMap_reverse, hsent, hout]
      rfl
    have hbusy : t.mhIF.busy := by rw [hif]
    have hcore : t.pktRx.map core = s.pktRx.map core := by
      rw [hp]
      unfold spoilt
      split_ifs
      · rfl
      · cases s.pktRx
        all_goals rfl
    unfold transmitted
    rw [hframes]
    refine ⟨?_, ?_, ?_, fun x hx => ?_, ?_, ?_, fun q hq => ?_, ?_⟩
    · rw [hrx, hr, hp]
      intro hidle
      obtain ⟨hnone, hb⟩ := h.rest hidle
      refine ⟨?_, hb⟩
      unfold spoilt
      rw [if_pos hidle, hnone]
    · rw [hrx, hr]
      exact h.busy
    · rw [ha, hbusy]
    · rw [if_pos hbusy, hif]
      change x.2 ≤ s.now + p.txtime
      rcases List.mem_append.mp hx with hx | hx
      · obtain rfl := List.mem_singleton.mp hx
        exact le_rfl
      · have hle := h.sent x hx
        rw [if_neg hfree] at hle
        linarith
    · rw [hnav]
      exact h.weak
    · rw [hr, hnow]
      exact h.strong
    · -- the mark of the error is all that counts
      rw [hp] at hq
      unfold spoilt at hq
      split_ifs at hq with hidle
      · simp [(h.rest hidle).1] at hq
      · obtain ⟨q', hq', rfl⟩ := Option.map_eq_some_iff.mp hq
        obtain ⟨l, r, l', hheard, hcore', hends, halone, -⟩ := (h.current q' hq').found
        refine ⟨l, r, l', hheard, hcore', ?_, ?_, fun hquiet => absurd rfl hquiet⟩
        · rw [hr]
          exact hends
        · rw [hrx]
          exact halone
    · rw [hcore]
      exact h.account

/-! ## Arrivals -/

lemma arriving_core : core (s.arriving p) = core p ∧ (s.arriving p).txtime = p.txtime ∧
    (s.arriving p).rxPr = p.rxPr ∧ (s.arriving p).cpThresh = p.cpThresh := by
  unfold arriving
  split_ifs
  · exact ⟨rfl, rfl, rfl, rfl⟩
  · exact ⟨rfl, rfl, rfl, rfl⟩

/-- A frame without an error has come while the node did not send. -/
lemma arriving_quiet (h : ¬(s.arriving p).error) : ¬s.txActive := by
  intro ha
  unfold arriving at h
  by_cases he : p.error
  · rw [if_neg (by simp [he])] at h
    exact h he
  · rw [if_pos ⟨ha, he⟩] at h
    exact h rfl

lemma returned_discarded (q : MacFrame) (out : List MacOutput) :
    returned (discarded cfg q :: out) = q :: returned out := by
  unfold discarded
  split_ifs
  all_goals rfl

/-- The 16-bit microseconds of a time that fits into them. -/
lemma le_sec_usec {time : ℚ} (hpos : 0 ≤ time) (hfits : time + 1 / 2000000 < 65536 / 1000000) :
    time ≤ sec (usec time) + 1 / 2000000 := by
  have hfloor : ⌊time * 1000000 + 1 / 2⌋ < 65536 := by
    refine Int.floor_lt.mpr ?_
    norm_num
    linarith
  have hnear := (abs_le.mp (abs_sec_usec_sub_le (by linarith) hfloor)).1
  linarith

/-- The NAV of a captured frame lasts as long as the frame if its 16 bits do not overflow. -/
def Covered (cfg : MacConfig) (s : Mac80211) (ev : MacEvent) : Prop :=
  ∀ p, ev.input = .recv p → s.weaker p → cfg.eifs + p.txtime + 1 / 2000000 < 65536 / 1000000

/-- The transmission times of the frames are positive. -/
def Lasting (ev : MacEvent) : Prop := ∀ p, ev.input = .recv p → 0 < p.txtime

/-- The air with one more frame on it. -/
def Air.hears (g : Air) (s : Mac80211) (p : MacFrame) (freed : List MacFrame) : Air :=
  { g with heard := ⟨p, s.now, s.now + p.txtime, s.weaker p⟩ :: g.heard, freed := freed ++ g.freed }

/-- The frame in reception goes on beside one that has come. -/
lemma Clean.hears {q : MacFrame} {ends : ℚ} {alone quiet alone' : Prop} {freed : List MacFrame}
    (h : Clean g q ends alone quiet) (halone : alone' → alone ∧ s.weaker p) :
    Clean (g.hears s p freed) q ends alone' quiet := by
  obtain ⟨l, r, l', hheard, hcore, hends, halone', hquiet⟩ := h.found
  refine ⟨⟨p, s.now, s.now + p.txtime, s.weaker p⟩ :: l, r, l', ?_, hcore, hends, fun ha q hq hover => ?_, hquiet⟩
  · unfold Air.hears
    rw [hheard]
    rfl
  · rcases List.mem_cons.mp hq with rfl | hq
    · exact (halone ha).2
    · exact halone' (halone ha).1 q hq hover

/-- The frame that has come is the one in reception. -/
lemma Receiving.starts (h : Receiving s g) {alone : Prop} {freed : List MacFrame}
    (halone : alone → ¬s.mhRecv.busy) :
    Clean (g.hears s p freed) (s.arriving p) (s.now + p.txtime) alone (¬(s.arriving p).error) := by
  refine ⟨[], ⟨p, s.now, s.now + p.txtime, s.weaker p⟩, g.heard, rfl, arriving_core.1.symm, rfl,
    fun ha q hq hover => ?_, fun hquiet x hx hover => ?_⟩
  · by_contra hw
    have hle := h.strong q hq hw
    rw [if_neg (halone ha)] at hle
    exact absurd hover.2 (not_lt.mpr hle)
  · have hfree : ¬s.mhIF.busy := h.active ▸ arriving_quiet hquiet
    have hle := h.sent x hx
    rw [if_neg hfree] at hle
    exact absurd hover.2 (not_lt.mpr hle)

lemma weaker_of_some {old : MacFrame} (hp : s.pktRx = some old) :
    s.weaker p ↔ old.rxPr / (s.arriving p).rxPr ≥ (s.arriving p).cpThresh := by
  obtain ⟨-, -, hpr, hthresh⟩ := arriving_core (s := s) (p := p)
  unfold weaker
  rw [hp, hpr, hthresh]
  exact decide_eq_true_iff

lemma colliding_rxState (hx : s.rxState = .recv ∨ s.rxState = .coll) : (colliding cfg s).rxState = .coll := by
  unfold colliding
  rcases hx with hx | hx
  · rw [if_pos hx]
  · rw [if_neg (by simp [hx]), hx]

lemma colliding_same (cfg : MacConfig) (s : Mac80211) : (colliding cfg s).now = s.now ∧ (colliding cfg s).nav = s.nav ∧
    (colliding cfg s).txActive = s.txActive ∧ (colliding cfg s).mhIF = s.mhIF ∧ (colliding cfg s).mhRecv = s.mhRecv ∧
    (colliding cfg s).pktRx = s.pktRx := by
  unfold colliding
  split_ifs
  all_goals exact ⟨rfl, rfl, rfl, rfl, rfl, rfl⟩

/-- The account with a frame that has come and, in front of the others freed, one that is given back. -/
lemma Receiving.accounts (h : Receiving s g) {freed : List MacFrame} {rx : Option MacFrame}
    (hperm : (core p :: (s.pktRx.map core).toList).Perm (freed.map core ++ (rx.map core).toList)) :
    ((g.hears s p freed).heard.map (core ·.frame)).Perm
      ((g.hears s p freed).freed.map core ++ g.intact.map core ++ (rx.map core).toList) := by
  have hcons := (h.account.cons (core p)).trans List.perm_middle.symm
  change (core p :: g.heard.map (core ·.frame)).Perm
    ((freed ++ g.freed).map core ++ g.intact.map core ++ (rx.map core).toList)
  have hnew := hcons.trans (hperm.append_left (g.freed.map core ++ g.intact.map core))
  refine hnew.trans ?_
  rw [List.map_append]
  simp only [List.append_assoc]
  rw [← List.append_assoc (g.freed.map core), ← List.append_assoc (g.freed.map core)]
  exact List.perm_append_comm_assoc _ _ _

lemma Receiving.arrives (h : Receiving s g) (ht : FirstBit cfg s (s.arriving p) t) (hout : s.out = [])
    (heifs : 1 / 2000000 ≤ cfg.eifs) (hpos : 0 < p.txtime)
    (hcover : s.weaker p → cfg.eifs + p.txtime + 1 / 2000000 < 65536 / 1000000) :
    Receiving t (g.hears s p (returned t.out)) := by
  obtain ⟨hcore, htime, -, -⟩ := arriving_core (s := s) (p := p)
  cases ht with
  | started hx hr =>
    obtain ⟨hnone, hfree⟩ := h.rest hx
    have hweak : s.weaker p = false := by rw [weaker, hnone]
    have hdue : MacTimer.due ⟨true, s.now, (s.arriving p).txtime⟩ = s.now + p.txtime := by rw [htime]; rfl
    refine ⟨fun hx' => absurd hx' (by simp), fun _ => ⟨.inl rfl, rfl⟩, h.active, h.sent, fun q hq hw => ?_,
      fun q hq hw => ?_, fun q hq => ?_, ?_⟩
    · rcases List.mem_cons.mp hq with rfl | hq
      · exact absurd (hweak.symm.trans hw) (by simp)
      · exact h.weak q hq hw
    · rw [if_pos rfl]
      change q.ends ≤ MacTimer.due ⟨true, s.now, (s.arriving p).txtime⟩
      rw [hdue]
      rcases List.mem_cons.mp hq with rfl | hq
      · exact le_rfl
      · have hle := h.strong q hq hw
        rw [if_neg hfree] at hle
        linarith
    · obtain rfl := Option.some.inj hq
      change Clean _ _ (MacTimer.due ⟨true, s.now, (s.arriving p).txtime⟩) _ _
      rw [hdue]
      exact h.starts fun _ => hfree
    · refine h.accounts ?_
      rw [hnone, hout, ← hcore]
      exact List.Perm.refl _
  | captured hx hp hratio =>
    have hw := (weaker_of_some hp).mpr hratio
    refine ⟨h.rest, h.busy, h.active, h.sent, fun q hq hw' => ?_, fun q hq hw' => ?_, fun q hq => ?_, ?_⟩
    · rcases List.mem_cons.mp hq with rfl | hq
      · have hle := le_sec_usec (add_nonneg (by linarith) hpos.le) (hcover hw)
        refine le_trans ?_ (le_max_right _ _)
        rw [htime]
        change s.now + p.txtime ≤ _
        linarith
      · exact (h.weak q hq hw').trans (le_max_left _ _)
    · rcases List.mem_cons.mp hq with rfl | hq
      · exact absurd hw hw'
      · exact h.strong q hq hw'
    · exact (h.current q hq).hears fun halone => ⟨halone, hw⟩
    · refine h.accounts ?_
      change List.Perm _ ((s.arriving p :: returned s.out).map core ++ _)
      rw [hout, ← hcore]
      exact List.Perm.refl _
  | @replaced old hx hp hratio hr hlater =>
    obtain ⟨hnow, hnav, hactive, hif, -, -⟩ := colliding_same cfg s
    have hw : ¬s.weaker p := fun hw => hratio ((weaker_of_some hp).mp hw)
    have hdue : MacTimer.due ⟨true, s.now, (s.arriving p).txtime⟩ = s.now + p.txtime := by rw [htime]; rfl
    have hlater : s.mhRecv.due < s.now + p.txtime := by
      rw [htime] at hlater
      unfold MacTimer.expire at hlater
      unfold MacTimer.due
      linarith
    have hcoll : (colliding cfg s).rxState = .coll := colliding_rxState hx
    refine ⟨fun hx' => ?_, fun _ => ⟨.inr hcoll, rfl⟩, ?_, ?_, fun q hq hw' => ?_, fun q hq hw' => ?_,
      fun q hq => ?_, ?_⟩
    · exact absurd (hcoll.symm.trans hx') (by decide)
    · change (colliding cfg s).txActive = (colliding cfg s).mhIF.busy
      rw [hactive, hif]
      exact h.active
    · change ∀ x ∈ g.sent, x.2 ≤ if (colliding cfg s).mhIF.busy then (colliding cfg s).mhIF.due else (colliding cfg s).now
      rw [hif, hnow]
      exact h.sent
    · change q.ends ≤ (colliding cfg s).nav
      rw [hnav]
      rcases List.mem_cons.mp hq with rfl | hq
      · exact absurd hw' hw
      · exact h.weak q hq hw'
    · rw [if_pos rfl]
      change q.ends ≤ MacTimer.due ⟨true, s.now, (s.arriving p).txtime⟩
      rw [hdue]
      rcases List.mem_cons.mp hq with rfl | hq
      · exact le_rfl
      · have hle := h.strong q hq hw'
        rw [if_pos hr] at hle
        exact hle.trans hlater.le
    · obtain rfl := Option.some.inj hq
      change Clean _ _ (MacTimer.due ⟨true, s.now, (s.arriving p).txtime⟩) ((colliding cfg s).rxState = .recv) _
      rw [hdue]
      exact h.starts fun halone => absurd (hcoll.symm.trans halone) (by decide)
    · refine h.accounts ?_
      change List.Perm _ ((returned (discarded cfg old :: s.out)).map core ++ _)
      rw [returned_discarded, hout, hp, ← hcore]
      exact List.Perm.swap _ _ _
  | @outlasted old hx hp hratio hr hlater =>
    obtain ⟨hnow, hnav, hactive, hif, hrecv, hrx⟩ := colliding_same cfg s
    have hw : ¬s.weaker p := fun hw => hratio ((weaker_of_some hp).mp hw)
    have hlater : s.now + p.txtime ≤ s.mhRecv.due := by
      rw [htime] at hlater
      unfold MacTimer.expire at hlater
      unfold MacTimer.due
      linarith
    have hcoll : (colliding cfg s).rxState = .coll := colliding_rxState hx
    refine ⟨fun hx' => ?_, fun _ => ⟨.inr hcoll, ?_⟩, ?_, ?_, fun q hq hw' => ?_, fun q hq hw' => ?_, fun q hq => ?_, ?_⟩
    · exact absurd (hcoll.symm.trans hx') (by decide)
    · change (colliding cfg s).mhRecv.busy
      rw [hrecv]
      exact hr
    · change (colliding cfg s).txActive = (colliding cfg s).mhIF.busy
      rw [hactive, hif]
      exact h.active
    · change ∀ x ∈ g.sent, x.2 ≤ if (colliding cfg s).mhIF.busy then (colliding cfg s).mhIF.due else (colliding cfg s).now
      rw [hif, hnow]
      exact h.sent
    · change q.ends ≤ (colliding cfg s).nav
      rw [hnav]
      rcases List.mem_cons.mp hq with rfl | hq
      · exact absurd hw' hw
      · exact h.weak q hq hw'
    · change q.ends ≤ if (colliding cfg s).mhRecv.busy then (colliding cfg s).mhRecv.due else (colliding cfg s).now
      rw [hrecv, if_pos hr]
      rcases List.mem_cons.mp hq with rfl | hq
      · exact hlater
      · have hle := h.strong q hq hw'
        rwa [if_pos hr] at hle
    · have hq : (colliding cfg s).pktRx = some q := hq
      change Clean _ _ (colliding cfg s).mhRecv.due ((colliding cfg s).rxState = .recv) _
      rw [hrx] at hq
      rw [hrecv]
      exact (h.current q hq).hears fun halone => absurd (hcoll.symm.trans halone) (by decide)
    · change List.Perm _ (_ ++ ((colliding cfg s).pktRx.map core).toList)
      rw [hrx]
      refine h.accounts ?_
      change List.Perm _ ((returned (discarded cfg (s.arriving p) :: s.out)).map core ++ _)
      rw [returned_discarded, hout, ← hcore]
      exact List.Perm.refl _

/-! ## The end of a reception -/

/-- The reception is over. -/
structure Ends (s t : Mac80211) : Prop where
  now : t.now = s.now
  nav : s.nav ≤ t.nav
  rxState : t.rxState = .idle
  pktRx : t.pktRx = none
  free : ¬t.mhRecv.busy
  txActive : t.txActive = s.txActive
  mhIF : t.mhIF = s.mhIF
  sent : (report t.out).frames = (report s.out).frames

lemma recvTimer_ends (h : s.recvTimer cfg = some t) :
    Ends s t ∧ ∃ p, s.pktRx = some p ∧ (s.intact = none → returned t.out = p :: returned s.out) := by
  obtain ⟨p, u, hp, hu, ht⟩ := recvTimer_some h
  obtain ⟨-, hfree, rfl⟩ := rxResume_some ht
  have hends : Listens s u → Ends s { u with
      pktRx := none
      rxState := .idle
      mhBackoff := settled cfg { u with pktRx := none, rxState := .idle } } :=
    fun hl => ⟨hl.now, hl.nav, rfl, rfl, hfree, hl.txActive, hl.mhIF, hl.sent⟩
  cases hu with
  | active ha =>
    exact ⟨hends ⟨rfl, le_rfl, rfl, rfl, rfl, rfl, rfl⟩, p, hp, fun _ => rfl⟩
  | collided ha hx =>
    have hdiscard : Listens s (s.discard cfg p) :=
      ⟨rfl, le_rfl, rfl, rfl, rfl, rfl, congrArg Report.frames (report_discarded p s.out)⟩
    have heifs : Listens (s.discard cfg p) (waitEifs cfg (s.discard cfg p)) := waitEifs_listens
    exact ⟨hends ⟨rfl, heifs.nav, rfl, rfl, rfl, rfl, hdiscard.sent⟩, p, hp, fun _ => returned_discarded p s.out⟩
  | errored ha hx he => exact ⟨hends ⟨rfl, le_max_left _ _, rfl, rfl, rfl, rfl, rfl⟩, p, hp, fun _ => rfl⟩
  | intact ha hx he hr =>
    refine ⟨hends (received_listens hr), p, hp, fun hnot => ?_⟩
    unfold intact at hnot
    rw [if_pos ⟨ha, hx⟩, hp] at hnot
    simp [he] at hnot

lemma Receiving.ends (h : Receiving s g) (hb : s.mhRecv.busy) (hdue : s.mhRecv.due = s.now) (ht : Ends s t) :
    (∀ p ∈ s.pktRx, ∀ freed, freed = [p] →
      Receiving t { g with freed := freed ++ g.freed }) ∧
    (∀ p ∈ s.pktRx, Receiving t { g with intact := p :: g.intact }) := by
  have hkeep : ∀ g' : Air, g'.heard = g.heard → g'.sent = g.sent →
      (g.heard.map (core ·.frame)).Perm (g'.freed.map core ++ g'.intact.map core) → Receiving t g' := by
    intro g' hheard hsent hperm
    refine ⟨fun _ => ⟨ht.pktRx, ht.free⟩, fun hx => absurd ht.rxState hx, ?_, ?_, fun q hq hw => ?_, fun q hq hw => ?_,
      fun q hq => ?_, ?_⟩
    · rw [ht.txActive, ht.mhIF]
      exact h.active
    · rw [hsent, ht.mhIF, ht.now]
      exact h.sent
    · rw [hheard] at hq
      exact (h.weak q hq hw).trans ht.nav
    · rw [hheard] at hq
      have hle := h.strong q hq hw
      rw [if_pos hb, hdue] at hle
      rw [if_neg ht.free, ht.now]
      exact hle
    · simp [ht.pktRx] at hq
    · rw [hheard, ht.pktRx]
      simpa using hperm
  constructor
  · rintro p hp _ rfl
    refine hkeep _ rfl rfl ?_
    have hacc := h.account
    rw [Option.mem_def.mp hp] at hacc
    refine hacc.trans ?_
    change (g.freed.map core ++ g.intact.map core ++ [core p]).Perm
      (core p :: (g.freed.map core ++ g.intact.map core))
    exact List.perm_append_singleton _ _
  · intro p hp
    refine hkeep _ rfl rfl ?_
    have hacc := h.account
    rw [Option.mem_def.mp hp] at hacc
    refine hacc.trans ?_
    change (g.freed.map core ++ g.intact.map core ++ [core p]).Perm
      (g.freed.map core ++ core p :: g.intact.map core)
    refine (List.perm_append_singleton _ _).trans ?_
    exact List.perm_middle.symm

/-! ## What the sender gives back -/

/-- The frames that a node holds to send them. -/
def Holds (s : Mac80211) (p : MacFrame) : Prop := s.pktTx = some p ∨ s.pktRTS = some p ∨ s.pktCTRL = some p

/-- Everything that is given back is one of some frames, perhaps without its MAC header. -/
def Gives (cfg : MacConfig) (held : MacFrame → Prop) (out : List MacOutput) : Prop :=
  ∀ q ∈ returned out, ∃ p, held p ∧ (q = p ∨ q = stripped cfg p)

variable {held : MacFrame → Prop} {out : List MacOutput}

lemma Gives.nil : Gives cfg held [] := by
  intro q hq
  cases hq

lemma Gives.cons (h : Gives cfg held out) {q : MacFrame} (hp : held p) (hq : q = p ∨ q = stripped cfg p) :
    Gives cfg held (discarded cfg q :: out) := by
  intro r hr
  rw [returned_discarded] at hr
  rcases List.mem_cons.mp hr with rfl | hr
  · exact ⟨p, hp, hq⟩
  · exact h r hr

lemma Gives.freed (h : Gives cfg held out) (hp : held p) : Gives cfg held (.freed p :: out) := by
  intro r hr
  rcases List.mem_cons.mp hr with rfl | hr
  · exact ⟨_, hp, .inl rfl⟩
  · exact h r hr

lemma Gives.failures (h : Gives cfg held out) (hp : held p) : Gives cfg held (failures cfg p ++ out) := by
  unfold Mac80211.failures
  split_ifs
  · have hfailed : Gives cfg held (.xmitFailed (stripped cfg p) :: out) := h
    exact hfailed.cons hp (.inr rfl)
  · exact h.cons hp (.inl rfl)

lemma txResume_returned (h : s.txResume cfg = some t) : returned t.out = returned s.out := by
  obtain ⟨-, -, u, hu, rfl⟩ := txResume_some h
  change returned u.out = _
  cases txNext_some hu with
  | control hc ht => rw [(sender_startDefer ht).2]
  | rtsWaits hc hr hb => rfl
  | rts hc hr hb ht => rw [(sender_contend ht).2]
  | dataWaits hc hr hp hb => rfl
  | small hc hr hp hb hsize ht => rw [(sender_contend ht).2]
  | big hc hr hp hb hsize ht => rw [(sender_startDefer ht).2]
  | nothing hc hr hp hcall => rfl
  | called hc hr hp hcall hreply => rfl
  | reply hc hr hp hcall hreply ht =>
    rw [(sender_send ht).2]
    rfl

lemma Gives.resumes (ht : s.txResume cfg = some t) (h : Gives cfg held s.out) : Gives cfg held t.out := by
  unfold Gives
  rw [txResume_returned ht]
  exact h

lemma expired_gives (h : Expired cfg s t) (hs : Gives cfg held s.out) (hheld : ∀ q, s.Holds q → held q) :
    Gives cfg held t.out := by
  cases h with
  | rts hx ht =>
    obtain ⟨q, rts, hq, hr, -, hcase⟩ := retransmitRTS_some ht
    cases hcase with
    | failed hlimit =>
      exact (hs.cons (hheld _ (.inr (.inl hr))) (.inl rfl)).failures (hheld _ (.inl hq))
    | again hlimit hb =>
      rw [(sender_startBackoff hb).2]
      exact hs
  | data hx ht =>
    obtain ⟨q, hq, -, -, hcase⟩ := retransmitDATA_some ht
    have hsent : ∀ {w u : Mac80211} {dst : ℕ}, w.sendRTS cfg dst = some u → w.out = s.out → u.out = s.out := by
      intro w u dst hu hw
      obtain ⟨-, -, -, ⟨-, rfl⟩ | ⟨-, rfl⟩⟩ := sendRTS_some hu
      all_goals exact hw
    cases hcase with
    | broadcast hra hb =>
      rw [(sender_startBackoff hb).2]
      exact hs.freed (hheld _ (.inl hq))
    | shortFailed hra hsize hlimit => exact hs.failures (hheld _ (.inl hq))
    | shortAgain hra hsize hlimit hu hb =>
      rw [(sender_startBackoff hb).2, incCw, hsent hu rfl]
      exact hs
    | longFailed hra hsize hlimit => exact hs.failures (hheld _ (.inl hq))
    | longAgain hra hsize hlimit hu hb =>
      rw [(sender_startBackoff hb).2, incCw, hsent hu rfl]
      exact hs
  | control hx hc => exact hs.freed (hheld _ (.inr (.inr hc)))
  | idle hx => exact hs

lemma attempt_gives (h : Attempt cfg s t) (hs : Gives cfg held s.out) : Gives cfg held t.out := by
  have hsent : ∀ {u w : Mac80211} {q : MacFrame} {x : MacState} {time : ℚ}, s.setTxState cfg x = some u →
      u.transmit q time = some w → Gives cfg held w.out := by
    intro u w q x time hu hw
    rw [(sender_transmit hw).2.2, (sender_setTxState hu).2]
    exact hs
  cases h with
  | nothing hr hp => exact hs
  | rtsWaits hr hidle ht =>
    rw [(sender_startBackoff ht).2]
    exact hs
  | rts hr hidle hu ht => exact hsent hu ht
  | dataWaits hr hp hidle hu ht =>
    rw [(sender_startBackoff ht).2, incCw, (sender_sendRTS hp hu).2.2]
    exact hs
  | data hr hp hidle hu ht => exact hsent hu ht

lemma deferHandler_gives (h : s.deferHandler cfg = some t) (hs : Gives cfg held s.out)
    (hheld : ∀ q, s.Holds q → held q) : Gives cfg held t.out := by
  cases (deferHandler_some h).2 with
  | dropped hc hk htx hidle => exact hs.cons (hheld _ (.inr (.inr hc))) (.inl rfl)
  | cts hc hk hidle hu ht =>
    rw [(sender_transmit ht).2.2, (sender_setTxState hu).2]
    exact hs
  | ack hc hk htx hu ht =>
    rw [(sender_transmit ht).2.2, (sender_setTxState hu).2]
    exact hs
  | attempt hc hb ht => exact attempt_gives ht hs

lemma received_gives (h : Received cfg s p t) (hs : Gives cfg held s.out) (hheld : ∀ q, s.Holds q → held q)
    (hp : held p) : Gives cfg held t.out := by
  have hheard : Gives cfg held (heard cfg s p).out := out_heard.symm ▸ hs
  have hsame : ∀ q, (heard cfg s p).Holds q → held q := by
    intro q hq
    refine hheld q ?_
    unfold heard at hq
    split_ifs at hq
    · exact hq
    · exact hq
  have hlogged : ∀ {w : Mac80211}, Gives cfg held w.out → Gives cfg held (w.emit (.logged p)).out := fun hw => hw
  have hdedup : ∀ {w : Mac80211}, Gives cfg held w.out → Gives cfg held (w.dedup cfg (stripped cfg p)).out := by
    intro w hw
    unfold dedup
    split_ifs
    · exact hw.cons hp (.inr rfl)
    all_goals exact hw
  cases h with
  | ignored hra => exact hheard.cons hp (.inl rfl)
  | rts hra hk ht =>
    cases ht with
    | ignored hx => exact hheard.cons hp (.inl rfl)
    | answered hx hc hd ht => exact hlogged (Gives.resumes ht hheard)
  | cts hra hk ht =>
    cases ht with
    | ignored hx => exact hheard.cons hp (.inl rfl)
    | cleared hx hr hq hs ht =>
      have hfreed := hheard.freed (hsame _ (.inr (.inl hr)))
      exact hlogged (Gives.resumes ht hfreed)
  | ack hra hk ht =>
    cases ht with
    | ignored hx => exact hheard.cons hp (.inl rfl)
    | done hx hq hs hu ht =>
      have hfreed := hheard.freed (hsame _ (.inl hq))
      refine hlogged (Gives.resumes ht ?_)
      rw [(sender_startBackoff hu).2]
      exact hfreed
  | data hra hk ht =>
    cases ht with
    | ignored hra' hx => exact hheard.cons hp (.inr rfl)
    | afterCTS hra' hsize hx hc hs ht =>
      have hfreed := hheard.freed (hsame _ (.inr (.inr hc)))
      exact hdedup (Gives.resumes ht hfreed)
    | ackWaits hra' hsize hc hs => exact hdedup hheard
    | answered hra' hsize hc hs ht => exact hdedup (Gives.resumes ht hheard)
    | broadcast hra' => exact hdedup hheard
  | beacon hra hk =>
    unfold recvBEACON
    split_ifs
    · exact hheard.cons hp (.inl rfl)
    · exact hheard

lemma recvTimer_gives (h : s.recvTimer cfg = some t) (hs : Gives cfg held s.out)
    (hheld : ∀ q, s.Holds q ∨ s.pktRx = some q → held q) : Gives cfg held t.out := by
  obtain ⟨p, u, hp, hu, ht⟩ := recvTimer_some h
  obtain ⟨-, -, rfl⟩ := rxResume_some ht
  have hrx := hheld p (.inr hp)
  change Gives cfg held u.out
  cases hu with
  | active ha => exact hs.freed hrx
  | collided ha hx => exact hs.cons hrx (.inl rfl)
  | errored ha hx he => exact hs.freed hrx
  | intact ha hx he hr => exact received_gives hr hs (fun q hq => hheld q (.inl hq)) hrx

/-! ## Runs -/

lemma receiving_step {o : List MacOutput} (hs : Receiving s g) (heifs : 1 / 2000000 ≤ cfg.eifs)
    (hp : s.Possible ev ∧ Lasting ev ∧ Covered cfg s ev) (h : step cfg s ev = some (t, o)) :
    Receiving t (g.next s ev o) := by
  obtain ⟨w, hw, hpair⟩ := Option.map_eq_some_iff.mp h
  obtain ⟨rfl, rfl⟩ := Prod.mk.inj hpair
  have hs' : Receiving (s.atTime ev) g := hs.atTime hp.1.later
  unfold Air.next
  have hnone : ∀ {u : Mac80211}, (report u.out).frames = [] → transmitted g ev.time u.out.reverse = g := by
    intro u hu
    have hframes : u.out.filterMap MacOutput.frame = [] := hu
    unfold transmitted
    rw [List.filterMap_reverse, hframes]
    rfl
  cases hinput : ev.input with
  | send p =>
    rw [hinput] at hw
    exact hs'.transmits (.quiet (send_receiver hw)) rfl
  | recv p =>
    rw [hinput] at hw
    have hbit := recv_some hw
    have harrives := hs'.arrives hbit rfl heifs (hp.2.1 p hinput) (hp.2.2 p hinput)
    have hout : w.out.reverse = w.out ∧ (report w.out).frames = [] := by
      cases hbit with
      | started hx hr => exact ⟨rfl, rfl⟩
      | captured hx hq hratio => exact ⟨rfl, rfl⟩
      | replaced hx hq hratio hr hlater => exact ⟨rfl, congrArg Report.frames (report_discarded _ [])⟩
      | outlasted hx hq hratio hr hlater => exact ⟨rfl, congrArg Report.frames (report_discarded _ [])⟩
    dsimp only
    rw [hnone hout.2, hout.1]
    exact harrives
  | fire timer =>
    rw [hinput] at hw
    cases timer with
    | interface =>
      obtain rfl := Option.some.inj hw
      have hdue := hp.1.fires .interface hinput
      refine ⟨hs'.rest, hs'.busy, rfl, fun x hx => ?_, hs'.weak, hs'.strong, hs'.current, hs'.account⟩
      have hle := hs.sent x hx
      simp only [due] at hdue
      split_ifs at hdue with hb
      rw [if_pos hb, Option.some.inj hdue] at hle
      exact hle
    | nav =>
      have hfree := hs'.quiet (t := { s.atTime ev with mhNav := .free }) ⟨rfl, rfl, rfl, rfl, rfl, rfl, rfl, rfl⟩
      exact hfree.transmits (.quiet (navHandler_receiver hw)) rfl
    | send =>
      have hfree := hs'.quiet (t := { s.atTime ev with mhSend := .free }) ⟨rfl, rfl, rfl, rfl, rfl, rfl, rfl, rfl⟩
      exact hfree.transmits (.quiet (sendTimer_receiver hw)) rfl
    | defer =>
      have hfree := hs'.quiet (t := { s.atTime ev with mhDefer := .free }) ⟨rfl, rfl, rfl, rfl, rfl, rfl, rfl, rfl⟩
      exact hfree.transmits (deferHandler_transmits hw) rfl
    | backoff =>
      have hfree := hs'.quiet (t := { s.atTime ev with mhBackoff := .free }) ⟨rfl, rfl, rfl, rfl, rfl, rfl, rfl, rfl⟩
      exact hfree.transmits (backoffHandler_transmits hw) rfl
    | recv =>
      obtain ⟨hends, p, hrx, hreturned⟩ := recvTimer_ends hw
      have hends : Ends (s.atTime ev) w :=
        ⟨hends.now, hends.nav, hends.rxState, hends.pktRx, hends.free, hends.txActive, hends.mhIF, hends.sent⟩
      have hdue := hp.1.fires .recv hinput
      simp only [due] at hdue
      split_ifs at hdue with hb
      obtain ⟨hfreed, hintact⟩ := hs'.ends hb (Option.some.inj hdue) hends
      dsimp only
      rw [hnone hends.sent]
      cases hcase : s.intact with
      | some q =>
        have hq : q = p := by
          have hmem : q ∈ s.pktRx := by
            unfold intact at hcase
            split_ifs at hcase
            exact (Option.mem_filter_iff.mp hcase).1
          exact Option.some.inj (hmem.symm.trans hrx)
        rw [hq]
        exact hintact p hrx
      | none =>
        have hone : returned w.out = [p] := hreturned hcase
        have hreverse : returned w.out.reverse = [p] := by
          have hmap : returned w.out.reverse = (returned w.out).reverse := List.filterMap_reverse
          rw [hmap, hone]
          rfl
        exact hfreed p hrx _ hreverse

/-- While a frame is on the air the medium is not idle. -/
lemma Receiving.not_idle (h : Receiving s g) {q : Heard} (hq : q ∈ g.heard) {time : ℚ} (hnow : s.now ≤ time)
    (htime : time < q.ends) : ¬isIdle { s with now := time } := by
  intro hidle
  obtain ⟨hrx, -, hnav⟩ := isIdle_iff.mp hidle
  by_cases hw : q.weaker
  · exact hnav (htime.trans_le (h.weak q hq hw))
  · have hle := h.strong q hq hw
    rw [if_neg (h.rest hrx).2] at hle
    linarith

/-- Beside a frame that ends at a time there was no transmission of the own, and no other frame but those that were
weaker by the capture threshold than the frame in reception when they came. -/
def Undisturbed (g : Air) (p : MacFrame) (ends : ℚ) : Prop :=
  ∃ l r l', g.heard = l ++ r :: l' ∧ core r.frame = core p ∧ r.ends = ends ∧
    (∀ q ∈ l ++ l', Overlap q.start q.ends r.start r.ends → q.weaker) ∧
    ∀ x ∈ g.sent, ¬Overlap x.1 x.2 r.start r.ends

lemma Receiving.undisturbed (h : Receiving s g) (hdue : s.due .recv = some ev.time) (hp : s.intact = some p) :
    Undisturbed g p ev.time := by
  unfold intact at hp
  split_ifs at hp with ha
  obtain ⟨hrx, he⟩ := Option.mem_filter_iff.mp hp
  have hends : s.mhRecv.due = ev.time := by
    simp only [due] at hdue
    split_ifs at hdue
    exact Option.some.inj hdue
  obtain ⟨l, r, l', hheard, hcore, hr, halone, hquiet⟩ := (h.current p hrx).found
  exact ⟨l, r, l', hheard, hcore, hr.trans hends, halone ha.2, hquiet (by simpa using he)⟩

lemma step_gives {o : List MacOutput} (h : step cfg s ev = some (t, o)) (hi : ∀ p, ev.input ≠ .recv p) :
    Gives cfg (fun p => s.Holds p ∨ ev.input = .fire .recv ∧ s.pktRx = some p) o := by
  obtain ⟨w, hw, hpair⟩ := Option.map_eq_some_iff.mp h
  obtain ⟨rfl, rfl⟩ := Prod.mk.inj hpair
  suffices hout : Gives cfg (fun p => s.Holds p ∨ ev.input = .fire .recv ∧ s.pktRx = some p) w.out by
    intro q hq
    have hmap : returned w.out.reverse = (returned w.out).reverse := List.filterMap_reverse
    rw [hmap] at hq
    exact hout q (List.mem_reverse.mp hq)
  cases hinput : ev.input with
  | send p =>
    rw [hinput] at hw
    rw [(sender_send hw).2]
    exact .nil
  | recv p => exact absurd hinput (hi p)
  | fire timer =>
    rw [hinput] at hw
    cases timer with
    | interface =>
      obtain rfl := Option.some.inj hw
      exact .nil
    | nav =>
      have hw : navHandler cfg { s.atTime ev with mhNav := .free } = some w := hw
      unfold navHandler at hw
      split_ifs at hw
      · obtain ⟨b, -, rfl⟩ := Option.map_eq_some_iff.mp hw
        exact .nil
      · obtain rfl := Option.some.inj hw
        exact .nil
    | send =>
      obtain ⟨u, hu, ht⟩ := sendTimer_some hw
      exact Gives.resumes ht (expired_gives hu .nil fun q hq => .inl hq)
    | defer => exact deferHandler_gives hw .nil fun q hq => .inl hq
    | backoff =>
      rcases backoffHandler_some hw with ⟨-, -, rfl⟩ | ⟨-, -, ha⟩
      · exact .nil
      · exact attempt_gives ha .nil
    | recv =>
      refine recvTimer_gives hw .nil fun q hq => ?_
      rcases hq with hq | hq
      · exact .inl hq
      · exact .inr ⟨rfl, hq⟩

/-- Reception is sound in every run in which the NAV of each captured frame fits into its 16 bits. -/
theorem reception_run (heifs : 1 / 2000000 ≤ cfg.eifs) (random : ℕ → ℕ) {evs : List MacEvent} {s t : Mac80211 × Air}
    {os : List (List MacOutput)} {o : List MacOutput}
    (hposs : EachStep (aired cfg) (fun s ev => s.1.Possible ev ∧ Lasting ev ∧ Covered cfg s.1 ev)
      (init cfg random, ⟨[], [], [], []⟩) (evs ++ [ev]))
    (hrun : run (aired cfg) (init cfg random, ⟨[], [], [], []⟩) evs = some (s, os))
    (hstep : aired cfg s ev = some (t, o)) :
    (∀ q ∈ t.2.heard, ∀ time, t.1.now ≤ time → time < q.ends → ¬isIdle { t.1 with now := time }) ∧
      (ev.input = .fire .recv → ∀ p, s.1.intact = some p → Undisturbed s.2 p ev.time) ∧
      (t.2.heard.map (core ·.frame)).Perm
        (t.2.freed.map core ++ t.2.intact.map core ++ (t.1.pktRx.map core).toList) ∧
      ((∀ p, ev.input ≠ .recv p) →
        Gives cfg (fun p => s.1.Holds p ∨ ev.input = .fire .recv ∧ s.1.pktRx = some p) o) := by
  have hkeep : ∀ s ev t o, Receiving s.1 s.2 → s.1.Possible ev ∧ Lasting ev ∧ Covered cfg s.1 ev →
      aired cfg s ev = some (t, o) → Receiving t.1 t.2 := by
    intro s ev t o hs hp h
    obtain ⟨⟨w, o'⟩, hw, hpair⟩ := Option.map_eq_some_iff.mp h
    obtain ⟨rfl, -⟩ := Prod.mk.inj hpair
    exact receiving_step hs heifs hp hw
  have hs : Receiving s.1 s.2 := hposs.left.invariant hkeep (receiving_init random) hrun
  have hp := (hposs.right hrun).1
  have ht := hkeep s ev t o hs hp hstep
  refine ⟨fun q hq time hnow htime => ht.not_idle hq hnow htime,
    fun hi p hintact => hs.undisturbed (hp.1.fires .recv hi) hintact, ht.account, fun hi => ?_⟩
  obtain ⟨⟨w, o'⟩, hw, hpair⟩ := Option.map_eq_some_iff.mp hstep
  obtain ⟨-, rfl⟩ := Prod.mk.inj hpair
  exact step_gives hw hi

instance : ∀ ev, Decidable (Lasting ev)
  | ⟨_, .recv p, _⟩ => decidable_of_iff (0 < p.txtime) (by simp [Lasting])
  | ⟨_, .send _, _⟩ => .isTrue (by simp [Lasting])
  | ⟨_, .fire _, _⟩ => .isTrue (by simp [Lasting])

instance (s : Mac80211) : ∀ ev, Decidable (Covered cfg s ev)
  | ⟨_, .recv p, _⟩ => decidable_of_iff
      (s.weaker p → cfg.eifs + p.txtime + 1 / 2000000 < 65536 / 1000000) (by simp [Covered])
  | ⟨_, .send _, _⟩ => .isTrue (by simp [Covered])
  | ⟨_, .fire _, _⟩ => .isTrue (by simp [Covered])

/-- A frame for another node of a length in microseconds, received with a power. -/
def frameFor3 (us : ℕ) (rxPr : ℚ) : MacFrame := ⟨.data, 3, 2, 0, 1, 2, 100, sec us, false, false, rxPr, 10⟩

/-- A weak frame comes during a strong one. -/
theorem reception_run_captured : ∃ s t os o,
    run (aired .default) (init .default fun _ => 0, ⟨[], [], [], []⟩)
        [⟨0, .recv (frameFor3 100 1), none⟩, ⟨sec 10, .recv (frameFor3 200 (1 / 100)), none⟩] = some (s, os) ∧
      aired .default s ⟨sec 100, .fire .recv, none⟩ = some (t, o) ∧
      (∀ q ∈ t.2.heard, ∀ time, t.1.now ≤ time → time < q.ends → ¬isIdle { t.1 with now := time }) ∧
      (∀ p, s.1.intact = some p → Undisturbed s.2 p (sec 100)) ∧
      (t.2.heard.map (core ·.frame)).Perm
        (t.2.freed.map core ++ t.2.intact.map core ++ (t.1.pktRx.map core).toList) ∧
      Gives .default (fun p => s.1.Holds p ∨ s.1.pktRx = some p) o := by
  have hguarded : ((run (guarded (aired .default) fun s ev => s.1.Possible ev ∧ Lasting ev ∧ Covered .default s.1 ev)
      (init .default fun _ => 0, ⟨[], [], [], []⟩)
      ([⟨0, .recv (frameFor3 100 1), none⟩, ⟨sec 10, .recv (frameFor3 200 (1 / 100)), none⟩] ++
        [⟨sec 100, .fire .recv, none⟩])).map fun _ => decide True) = some true := by
    decide +kernel
  obtain ⟨⟨s, os⟩, hrun⟩ := Option.isSome_iff_exists.mp (show (run (aired .default)
    (init .default fun _ => 0, ⟨[], [], [], []⟩)
    [⟨0, .recv (frameFor3 100 1), none⟩, ⟨sec 10, .recv (frameFor3 200 (1 / 100)), none⟩]).isSome by decide +kernel)
  obtain ⟨t', os', hposs, hwhole, -⟩ := run_guarded_of (fun _ _ => True) hguarded
  rw [run_append_of_run hrun] at hwhole
  obtain ⟨⟨w, os''⟩, hlast, -⟩ := Option.map_eq_some_iff.mp hwhole
  obtain ⟨t, o, -, hstep, -, -⟩ := run_cons_inv hlast
  obtain ⟨hbusy, hintact, haccount, hgives⟩ := reception_run (by decide +kernel) (fun _ => 0) hposs hrun hstep
  refine ⟨s, t, os, o, hrun, hstep, hbusy, hintact rfl, haccount, fun q hq => ?_⟩
  obtain ⟨p, hp, hpq⟩ := hgives (by simp) q hq
  exact ⟨p, hp.imp_right And.right, hpq⟩

/-- The weak frame lasts 65200 microseconds: with an EIFS of 364 its NAV is 28. -/
def wrappedCapture : List MacEvent :=
  [⟨0, .recv (frameFor3 100 1), none⟩, ⟨sec 10, .recv (frameFor3 65200 (1 / 100)), none⟩, ⟨sec 38, .fire .nav, none⟩,
    ⟨sec 100, .fire .recv, none⟩]

theorem idle_during_captured_frame : ∃ t os,
    EachStep (aired .default) (fun s ev => s.1.Possible ev ∧ Lasting ev) (init .default fun _ => 0, ⟨[], [], [], []⟩)
        wrappedCapture ∧
      run (aired .default) (init .default fun _ => 0, ⟨[], [], [], []⟩) wrappedCapture = some (t, os) ∧
      ¬∀ q ∈ t.2.heard, ∀ time, t.1.now ≤ time → time < q.ends → ¬isIdle { t.1 with now := time } := by
  obtain ⟨t, os, hok, hrun, q, hq, hends, hidle⟩ : ∃ t os,
      EachStep (aired .default) (fun s ev => s.1.Possible ev ∧ Lasting ev)
          (init .default fun _ => 0, ⟨[], [], [], []⟩) wrappedCapture ∧
        run (aired .default) (init .default fun _ => 0, ⟨[], [], [], []⟩) wrappedCapture = some (t, os) ∧
        ∃ q ∈ t.2.heard, t.1.now < q.ends ∧ t.1.isIdle :=
    run_guarded_of (fun (t : Mac80211 × Air) _ => ∃ q ∈ t.2.heard, t.1.now < q.ends ∧ t.1.isIdle) (by decide +kernel)
  exact ⟨t, os, hok, hrun, fun hall => hall q hq t.1.now le_rfl hends hidle⟩

end Mac80211

end NetworkSimulator
