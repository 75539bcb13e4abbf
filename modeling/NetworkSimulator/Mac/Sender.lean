import NetworkSimulator.Mac.Handlers

/-!
# The sending side of the MAC

What the MAC does with the packets it has to send, without times: the frames it holds, its transmit state, the
counters and which of the three timers of the sending side are running. Every event is one of the moves below.
-/

namespace NetworkSimulator

/-- The packets to be sent, the transmit state, the counters, and which of `mhSend_`, `mhDefer_` and `mhBackoff_`
are busy. -/
structure Sender where
  txState : MacState
  pktTx : Option MacFrame
  pktRTS : Option MacFrame
  pktCTRL : Option MacFrame
  callback : Bool
  ssrc : ℕ
  slrc : ℕ
  staSeqno : ℕ
  sending : Bool
  deferring : Bool
  backingOff : Bool

/-- The frames sent, the packets given up and the CTS taken in an event. -/
structure Report where
  frames : List MacFrame
  failed : List MacFrame
  cleared : List MacFrame

namespace MacOutput

def frame : MacOutput → Option MacFrame
  | .transmit p => some p
  | _ => none

def failure : MacOutput → Option MacFrame
  | .xmitFailed p => some p
  | _ => none

def clearance : MacOutput → Option MacFrame
  | .logged p => if p.kind = .cts then some p else none
  | _ => none

end MacOutput

def report (out : List MacOutput) : Report where
  frames := out.filterMap MacOutput.frame
  failed := out.filterMap MacOutput.failure
  cleared := out.filterMap MacOutput.clearance

/-- An event without anything to report. -/
def Report.none : Report := ⟨[], [], []⟩

namespace Sender

/-- Whether a packet is sent without an RTS. -/
def Small (cfg : MacConfig) (p : MacFrame) : Prop := p.size < cfg.rtsThreshold ∨ p.ra = MAC_BROADCAST

instance (cfg : MacConfig) (p : MacFrame) : Decidable (Small cfg p) := inferInstanceAs (Decidable (_ ∨ _))

/-- The RTS of a packet, if it needs one. -/
def rtsFor (cfg : MacConfig) (p : MacFrame) : Option MacFrame :=
  if Small cfg p then none else some (Mac80211.rtsFrame cfg p.ra p.txtime)

def contend (cfg : MacConfig) (s : Sender) : Sender :=
  if cfg.bugFixTimer then { s with backingOff := true } else { s with deferring := true }

/-- A packet from above is in line. -/
def queued (cfg : MacConfig) (s : Sender) (p : MacFrame) : Sender :=
  { s with
    callback := true
    pktTx := some { Mac80211.dataFrame cfg p with scontrol := s.staSeqno }
    pktRTS := rtsFor cfg (Mac80211.dataFrame cfg p)
    staSeqno := (s.staSeqno + 1) % 2 ^ 16 }

/-- A packet is taken from above. -/
inductive Accepts (cfg : MacConfig) (s : Sender) (p : MacFrame) : Sender → Prop
  | waits (hp : s.pktTx = none) (hr : s.pktRTS = none) (ht : s.backingOff ∨ s.deferring) :
      Accepts cfg s p (s.queued cfg p)
  | contends (hp : s.pktTx = none) (hr : s.pktRTS = none) (hb : ¬s.backingOff) (hd : ¬s.deferring)
      (hx : s.txState = .idle) : Accepts cfg s p ((s.queued cfg p).contend cfg)
  | backs (hp : s.pktTx = none) (hr : s.pktRTS = none) (hb : ¬s.backingOff) :
      Accepts cfg s p { s.queued cfg p with backingOff := true }

/-- `tx_resume`, with what the upper layer sends if it is called back. -/
inductive Resumes (cfg : MacConfig) (q : Option MacFrame) (s : Sender) : Sender → Prop
  | control (hc : s.pktCTRL.isSome) : Resumes cfg q s { s with txState := .idle, deferring := true }
  | waits (hc : s.pktCTRL = none) (hp : s.pktRTS.isSome ∨ s.pktTx.isSome) (hb : s.backingOff) :
      Resumes cfg q s { s with txState := .idle }
  | contends (hc : s.pktCTRL = none) (hp : s.pktRTS.isSome ∨ ∃ p ∈ s.pktTx, Small cfg p) (hb : ¬s.backingOff) :
      Resumes cfg q s { s.contend cfg with txState := .idle }
  | big {p : MacFrame} (hc : s.pktCTRL = none) (hr : s.pktRTS = none) (hp : s.pktTx = some p) (hsize : ¬Small cfg p)
      (hb : ¬s.backingOff) : Resumes cfg q s { s with txState := .idle, deferring := true }
  | rests (hc : s.pktCTRL = none) (hr : s.pktRTS = none) (hp : s.pktTx = none) (hcall : ¬s.callback) :
      Resumes cfg q s { s with txState := .idle }
  | called (hc : s.pktCTRL = none) (hr : s.pktRTS = none) (hp : s.pktTx = none) (hcall : s.callback) :
      Resumes cfg q s { s with txState := .idle, callback := false }
  | reply {t : Sender} {p : MacFrame} (hc : s.pktCTRL = none) (hr : s.pktRTS = none) (hp : s.pktTx = none)
      (hcall : s.callback) (hq : q = some p) (ht : Accepts cfg { s with callback := false } p t) :
      Resumes cfg q s { t with txState := .idle }

/-- `check_pktRTS` and `check_pktTx`, with the frames they send. -/
inductive Attempts (s : Sender) (cfg : MacConfig) : List MacFrame → Sender → Prop
  | nothing (hr : s.pktRTS = none) (hp : s.pktTx = none) : Attempts s cfg [] s
  | rtsWaits (hr : s.pktRTS.isSome) : Attempts s cfg [] { s with backingOff := true }
  | rts {p : MacFrame} (hr : s.pktRTS = some p) (hx : s.txState = .idle) (hs : ¬s.sending) :
      Attempts s cfg [p] { s with txState := .rts, sending := true }
  | dataWaits {p : MacFrame} (hr : s.pktRTS = none) (hp : s.pktTx = some p) :
      Attempts s cfg [] { s with pktRTS := rtsFor cfg p, backingOff := true }
  | data {p : MacFrame} (hr : s.pktRTS = none) (hp : s.pktTx = some p) (hx : s.txState = .idle) (hs : ¬s.sending) :
      Attempts s cfg [p] { s with txState := .send, sending := true }

/-- The end of the send timer, up to `tx_resume`, with the packet that is given up. -/
inductive Expires (cfg : MacConfig) (s : Sender) : List MacFrame → Sender → Prop
  | rtsFailed {p : MacFrame} (hx : s.txState = .rts) (hr : s.pktRTS.isSome) (hp : s.pktTx = some p)
      (hb : ¬s.backingOff) (hlimit : s.ssrc + 1 ≥ cfg.shortRetryLimit) :
      Expires cfg s (if p.xmitFailure then [Mac80211.stripped cfg p] else [])
        { s with ssrc := 0, pktTx := none, pktRTS := none }
  | rtsAgain (hx : s.txState = .rts) (hr : s.pktRTS.isSome) (hp : s.pktTx.isSome) (hb : ¬s.backingOff)
      (hlimit : s.ssrc + 1 < cfg.shortRetryLimit) :
      Expires cfg s [] { s with ssrc := s.ssrc + 1, backingOff := true }
  | broadcast {p : MacFrame} (hx : s.txState = .send) (hr : s.pktRTS = none) (hp : s.pktTx = some p)
      (hb : ¬s.backingOff) (hra : p.ra = MAC_BROADCAST) :
      Expires cfg s [] { s with pktTx := none, backingOff := true }
  | shortFailed {p : MacFrame} (hx : s.txState = .send) (hr : s.pktRTS = none) (hp : s.pktTx = some p)
      (hb : ¬s.backingOff) (hra : p.ra ≠ MAC_BROADCAST) (hsize : p.size ≤ cfg.rtsThreshold)
      (hlimit : s.ssrc + 1 ≥ cfg.shortRetryLimit) :
      Expires cfg s (if p.xmitFailure then [Mac80211.stripped cfg p] else []) { s with ssrc := 0, pktTx := none }
  | shortAgain {p : MacFrame} (hx : s.txState = .send) (hr : s.pktRTS = none) (hp : s.pktTx = some p)
      (hb : ¬s.backingOff) (hra : p.ra ≠ MAC_BROADCAST) (hsize : p.size ≤ cfg.rtsThreshold)
      (hlimit : s.ssrc + 1 < cfg.shortRetryLimit) :
      Expires cfg s [] { s with ssrc := s.ssrc + 1, pktRTS := rtsFor cfg p, backingOff := true }
  | longFailed {p : MacFrame} (hx : s.txState = .send) (hr : s.pktRTS = none) (hp : s.pktTx = some p)
      (hb : ¬s.backingOff) (hra : p.ra ≠ MAC_BROADCAST) (hsize : ¬p.size ≤ cfg.rtsThreshold)
      (hlimit : s.slrc + 1 ≥ cfg.longRetryLimit) :
      Expires cfg s (if p.xmitFailure then [Mac80211.stripped cfg p] else []) { s with slrc := 0, pktTx := none }
  | longAgain {p : MacFrame} (hx : s.txState = .send) (hr : s.pktRTS = none) (hp : s.pktTx = some p)
      (hb : ¬s.backingOff) (hra : p.ra ≠ MAC_BROADCAST) (hsize : ¬p.size ≤ cfg.rtsThreshold)
      (hlimit : s.slrc + 1 < cfg.longRetryLimit) :
      Expires cfg s [] { s with slrc := s.slrc + 1, pktRTS := rtsFor cfg p, backingOff := true }
  | control (hx : s.txState = .cts ∨ s.txState = .ack) (hc : s.pktCTRL.isSome) :
      Expires cfg s [] { s with pktCTRL := none }
  | idle (hx : s.txState = .idle) : Expires cfg s [] s

/-- What an event does on the sending side, with what the upper layer sends if it is called back. -/
inductive Move (cfg : MacConfig) (q : Option MacFrame) (s : Sender) : MacInput → Report → Sender → Prop
  | stays {i : MacInput} (hi : i ≠ .fire .send) : Move cfg q s i .none s
  | accepts {t : Sender} {p : MacFrame} (ht : Accepts cfg s p t) : Move cfg q s (.send p) .none t
  | answersRTS {t : Sender} {c : MacFrame} (hx : s.txState = .idle) (hs : ¬s.sending) (hc : s.pktCTRL = none)
      (hk : c.kind = .cts) (ht : Resumes cfg q { s with pktCTRL := some c, deferring := false } t) :
      Move cfg q s (.fire .recv) .none t
  | cleared {t : Sender} {c : MacFrame} (hx : s.txState = .rts) (hr : s.pktRTS.isSome) (hp : s.pktTx.isSome)
      (hs : s.sending) (hd : ¬s.deferring)
      (ht : Resumes cfg q { s with pktRTS := none, ssrc := 0, sending := false } t) :
      Move cfg q s (.fire .recv) ⟨[], [], [c]⟩ t
  | afterCTS {t : Sender} {c : MacFrame} (hx : s.txState = .cts) (hc : s.pktCTRL.isSome) (hs : s.sending)
      (hd : ¬s.deferring) (hk : c.kind = .ack)
      (ht : Resumes cfg q { s with pktCTRL := some c, sending := false } t) : Move cfg q s (.fire .recv) .none t
  | ackWaits {c : MacFrame} (hc : s.pktCTRL = none) (hs : s.sending) (hk : c.kind = .ack) :
      Move cfg q s (.fire .recv) .none { s with pktCTRL := some c }
  | acks {t : Sender} {c : MacFrame} (hc : s.pktCTRL = none) (hs : ¬s.sending) (hd : ¬s.deferring)
      (hk : c.kind = .ack) (ht : Resumes cfg q { s with pktCTRL := some c } t) : Move cfg q s (.fire .recv) .none t
  | acked {t : Sender} {p : MacFrame} (hx : s.txState = .send) (hp : s.pktTx = some p) (hs : s.sending)
      (hd : ¬s.deferring) (hb : ¬s.backingOff)
      (ht : Resumes cfg q { s with
        ssrc := if p.size ≤ cfg.rtsThreshold then 0 else s.ssrc
        slrc := if p.size ≤ cfg.rtsThreshold then s.slrc else 0
        pktTx := none
        sending := false
        backingOff := true } t) : Move cfg q s (.fire .recv) .none t
  | expires {u t : Sender} {failed : List MacFrame} (hs : s.sending) (hd : ¬s.deferring)
      (hu : Expires cfg { s with sending := false } failed u) (ht : Resumes cfg q u t) :
      Move cfg q s (.fire .send) ⟨[], failed, []⟩ t
  | dropsCTS {c : MacFrame} (hd : s.deferring) (hc : s.pktCTRL = some c) (hk : c.kind = .cts) :
      Move cfg q s (.fire .defer) .none { s with deferring := false, pktCTRL := none }
  | sendsCTS {c : MacFrame} (hd : s.deferring) (hc : s.pktCTRL = some c) (hk : c.kind = .cts)
      (hx : s.txState = .idle) (hs : ¬s.sending) :
      Move cfg q s (.fire .defer) ⟨[c], [], []⟩ { s with deferring := false, txState := .cts, sending := true }
  | sendsACK {c : MacFrame} (hd : s.deferring) (hc : s.pktCTRL = some c) (hk : c.kind = .ack) (hs : ¬s.sending) :
      Move cfg q s (.fire .defer) ⟨[c], [], []⟩ { s with deferring := false, txState := .ack, sending := true }
  | defers {t : Sender} {frames : List MacFrame} (hd : s.deferring)
      (hc : s.pktCTRL = none ∨ s.txState = .cts ∨ s.txState = .ack) (hb : ¬s.backingOff)
      (ht : Attempts { s with deferring := false } cfg frames t) : Move cfg q s (.fire .defer) ⟨frames, [], []⟩ t
  | backsOff {t : Sender} {frames : List MacFrame} (hb : s.backingOff) (hc : s.pktCTRL = none)
      (ht : Attempts { s with backingOff := false } cfg frames t) : Move cfg q s (.fire .backoff) ⟨frames, [], []⟩ t
  | yields (hb : s.backingOff) (hc : s.pktCTRL.isSome) (ht : s.sending ∨ s.deferring) :
      Move cfg q s (.fire .backoff) .none { s with backingOff := false }

end Sender

namespace Mac80211
variable {cfg : MacConfig} {s t : Mac80211} {p : MacFrame} {x : MacState}

/-- The sending side of a state. -/
def sender (s : Mac80211) : Sender where
  txState := s.txState
  pktTx := s.pktTx
  pktRTS := s.pktRTS
  pktCTRL := s.pktCTRL
  callback := s.callback
  ssrc := s.ssrc
  slrc := s.slrc
  staSeqno := s.staSeqno
  sending := s.mhSend.busy
  deferring := s.mhDefer.busy
  backingOff := s.mhBackoff.busy

open Sender (Accepts Resumes Attempts Expires Move)

/-! ## The functions on the sending side -/

lemma isIdle_txState (h : s.isIdle) : s.txState = .idle := by
  have hidle : s.rxState = .idle ∧ s.txState = .idle ∧ ¬s.nav > s.now := of_decide_eq_true h
  exact hidle.2.1

lemma sender_setTxState (h : s.setTxState cfg x = some t) :
    t.sender = { s.sender with txState := x } ∧ t.out = s.out := by
  obtain rfl := setTxState_some h
  refine ⟨?_, rfl⟩
  unfold sender
  rw [settled_busy]

lemma sender_startBackoff {difs : ℚ} (h : s.startBackoff cfg difs = some t) :
    t.sender = { s.sender with backingOff := true } ∧ t.out = s.out := by
  obtain ⟨-, rfl⟩ := startBackoff_some h
  exact ⟨rfl, rfl⟩

lemma sender_startDefer {time : ℚ} (h : s.startDefer time = some t) :
    t.sender = { s.sender with deferring := true } ∧ t.out = s.out := by
  obtain ⟨-, -, rfl⟩ := startDefer_some h
  exact ⟨rfl, rfl⟩

lemma sender_contend (h : s.contend cfg = some t) : t.sender = s.sender.contend cfg ∧ t.out = s.out := by
  unfold Sender.contend
  rcases contend_some h with ⟨hfix, hb⟩ | ⟨hfix, -, rfl⟩
  · rw [if_pos hfix]
    exact sender_startBackoff hb
  · rw [if_neg hfix]
    exact ⟨rfl, rfl⟩

lemma sender_queued : (queued cfg s p).sender = s.sender.queued cfg p := rfl

lemma sender_send (h : s.send cfg p = some t) : Accepts cfg s.sender p t.sender ∧ t.out = s.out := by
  obtain ⟨hp, hr, hcase⟩ := send_some h
  rcases hcase with ⟨hb, rfl⟩ | ⟨-, -, hd, rfl⟩ | ⟨hb, hidle, hd, hc⟩ | ⟨hb, -, hc⟩
  · exact ⟨.waits hp hr (.inl hb), rfl⟩
  · exact ⟨.waits hp hr (.inr hd), rfl⟩
  · obtain ⟨hs, ho⟩ := sender_contend hc
    rw [hs, ho, sender_queued]
    exact ⟨.contends hp hr hb hd (isIdle_txState hidle), rfl⟩
  · obtain ⟨hs, ho⟩ := sender_startBackoff hc
    rw [hs, ho, sender_queued]
    exact ⟨.backs hp hr hb, rfl⟩

lemma sender_sendRTS (hp : s.pktTx = some p) (h : s.sendRTS cfg p.ra = some t) :
    s.pktRTS = none ∧ t.sender = { s.sender with pktRTS := Sender.rtsFor cfg p } ∧ t.out = s.out := by
  obtain ⟨q, hq, hr, hcase⟩ := sendRTS_some h
  obtain rfl : q = p := Option.some.inj (hq.symm.trans hp)
  refine ⟨hr, ?_⟩
  unfold Sender.rtsFor
  rcases hcase with ⟨hsmall, rfl⟩ | ⟨hbig, rfl⟩
  · rw [if_pos (show Sender.Small cfg q from hsmall), ← hr]
    exact ⟨rfl, rfl⟩
  · rw [if_neg (show ¬Sender.Small cfg q from hbig)]
    exact ⟨rfl, rfl⟩

lemma sender_txResume (h : s.txResume cfg = some t) :
    ¬s.mhSend.busy ∧ ¬s.mhDefer.busy ∧ Resumes cfg s.reply s.sender t.sender ∧ report t.out = report s.out := by
  obtain ⟨hs, hd, u, hu, rfl⟩ := txResume_some h
  refine ⟨hs, hd, ?_⟩
  have hidle : ∀ v : Mac80211, ({ v with
      txState := .idle, mhBackoff := settled cfg { v with txState := .idle } } : Mac80211).sender =
        { v.sender with txState := .idle } := by
    intro v
    unfold sender
    rw [settled_busy]
  rw [hidle]
  change Resumes cfg s.reply s.sender _ ∧ report u.out = _
  cases txNext_some hu with
  | control hc ht =>
    obtain ⟨hv, ho⟩ := sender_startDefer ht
    rw [hv, ho]
    exact ⟨.control hc, rfl⟩
  | rtsWaits hc hr hb => exact ⟨.waits hc (.inl hr) hb, rfl⟩
  | rts hc hr hb ht =>
    obtain ⟨hv, ho⟩ := sender_contend ht
    rw [hv, ho]
    exact ⟨.contends hc (.inl hr) hb, rfl⟩
  | dataWaits hc hr hp hb => exact ⟨.waits hc (.inr hp) hb, rfl⟩
  | small hc hr hp hb hsize ht =>
    obtain ⟨hv, ho⟩ := sender_contend ht
    rw [hv, ho]
    exact ⟨.contends hc (.inr ⟨_, hp, hsize⟩) hb, rfl⟩
  | big hc hr hp hb hsize ht =>
    obtain ⟨hv, ho⟩ := sender_startDefer ht
    rw [hv, ho]
    exact ⟨.big hc hr hp hsize hb, rfl⟩
  | nothing hc hr hp hcall => exact ⟨.rests hc hr hp hcall, rfl⟩
  | called hc hr hp hcall hreply => exact ⟨.called hc hr hp hcall, rfl⟩
  | reply hc hr hp hcall hreply ht =>
    obtain ⟨hv, ho⟩ := sender_send ht
    rw [ho]
    exact ⟨.reply hc hr hp hcall hreply hv, rfl⟩

lemma sender_transmit {time : ℚ} (h : s.transmit p time = some t) :
    ¬s.mhSend.busy ∧ t.sender = { s.sender with sending := true } ∧ t.out = .transmit p :: s.out := by
  obtain ⟨hs, -, -, -, rfl⟩ := transmit_some h
  exact ⟨hs, rfl, rfl⟩

lemma sender_attempt (h : Attempt cfg s t) (ho : s.out = []) :
    ∃ frames, Attempts s.sender cfg frames t.sender ∧ report t.out = ⟨frames, [], []⟩ := by
  cases h with
  | nothing hr hp => exact ⟨[], .nothing hr hp, by rw [ho]; rfl⟩
  | rtsWaits hr hidle ht =>
    obtain ⟨hv, hout⟩ := sender_startBackoff ht
    rw [hv, hout]
    exact ⟨[], .rtsWaits hr, by rw [incCw, ho]; rfl⟩
  | rts hr hidle hu ht =>
    obtain ⟨hs, hv, hout⟩ := sender_transmit ht
    obtain ⟨hv', hout'⟩ := sender_setTxState hu
    have hs' : ¬s.sender.sending := by
      have hsame : s.sender.sending = ({ s.sender with txState := .rts } : Sender).sending := rfl
      rw [hsame, ← hv']
      exact hs
    rw [hv, hv', hout, hout', ho]
    exact ⟨_, .rts hr (isIdle_txState hidle) hs', rfl⟩
  | dataWaits hr hp hidle hu ht =>
    obtain ⟨hv, hout⟩ := sender_startBackoff ht
    obtain ⟨-, hv', hout'⟩ := sender_sendRTS hp hu
    have hsender : (incCw cfg _ : Mac80211).sender = _ := hv'
    rw [hv, hsender, hout]
    refine ⟨[], .dataWaits hr hp, ?_⟩
    rw [incCw, hout', ho]
    rfl
  | data hr hp hidle hu ht =>
    obtain ⟨hs, hv, hout⟩ := sender_transmit ht
    obtain ⟨hv', hout'⟩ := sender_setTxState hu
    have hs' : ¬s.sender.sending := by
      have hsame : s.sender.sending = ({ s.sender with txState := .send } : Sender).sending := rfl
      rw [hsame, ← hv']
      exact hs
    rw [hv, hv', hout, hout', ho]
    exact ⟨_, .data hr hp (isIdle_txState hidle) hs', rfl⟩

lemma report_discarded (q : MacFrame) (out : List MacOutput) : report (discarded cfg q :: out) = report out := by
  unfold discarded
  split_ifs
  all_goals rfl

lemma report_logged (hk : p.kind ≠ .cts) (out : List MacOutput) : report (.logged p :: out) = report out := by
  have hc : (MacOutput.logged p).clearance = none := if_neg hk
  simp only [report, List.filterMap_cons, hc]
  rfl

lemma report_clearance (hk : p.kind = .cts) (out : List MacOutput) :
    report (.logged p :: out) = { report out with cleared := p :: (report out).cleared } := by
  have hc : (MacOutput.logged p).clearance = some p := if_pos hk
  simp only [report, List.filterMap_cons, hc]
  rfl

lemma report_failures (out : List MacOutput) :
    report (failures cfg p ++ out) =
      { report out with failed := (if p.xmitFailure then [stripped cfg p] else []) ++ (report out).failed } := by
  unfold failures
  by_cases hx : p.xmitFailure
  · rw [if_pos hx, if_pos hx, List.cons_append, report_discarded]
    rfl
  · rw [if_neg hx, if_neg hx, List.cons_append, report_discarded]
    rfl

lemma startBackoff_same {difs : ℚ} (h : s.startBackoff cfg difs = some t) :
    t.mhDefer = s.mhDefer ∧ t.reply = s.reply := by
  obtain ⟨-, rfl⟩ := startBackoff_some h
  exact ⟨rfl, rfl⟩

lemma sendRTS_same {dst : ℕ} (h : s.sendRTS cfg dst = some t) : t.mhDefer = s.mhDefer ∧ t.reply = s.reply := by
  obtain ⟨-, -, -, ⟨-, rfl⟩ | ⟨-, rfl⟩⟩ := sendRTS_some h
  · exact ⟨rfl, rfl⟩
  · exact ⟨rfl, rfl⟩

lemma expired_same (h : Expired cfg s t) : t.mhDefer = s.mhDefer ∧ t.reply = s.reply := by
  cases h with
  | rts hx ht =>
    obtain ⟨q, rts, -, -, -, hcase⟩ := retransmitRTS_some ht
    cases hcase with
    | failed hlimit => exact ⟨rfl, rfl⟩
    | again hlimit hb =>
      have hframe := startBackoff_same hb
      exact hframe
  | data hx ht =>
    obtain ⟨q, -, -, -, hcase⟩ := retransmitDATA_some ht
    cases hcase with
    | broadcast hra hb =>
      have hframe := startBackoff_same hb
      exact hframe
    | shortFailed hra hsize hlimit => exact ⟨rfl, rfl⟩
    | shortAgain hra hsize hlimit hu hb =>
      obtain ⟨hd, hq⟩ := sendRTS_same hu
      obtain ⟨hd', hq'⟩ := startBackoff_same hb
      exact ⟨hd'.trans hd, hq'.trans hq⟩
    | longFailed hra hsize hlimit => exact ⟨rfl, rfl⟩
    | longAgain hra hsize hlimit hu hb =>
      obtain ⟨hd, hq⟩ := sendRTS_same hu
      obtain ⟨hd', hq'⟩ := startBackoff_same hb
      exact ⟨hd'.trans hd, hq'.trans hq⟩
  | control hx hc => exact ⟨rfl, rfl⟩
  | idle hx => exact ⟨rfl, rfl⟩

lemma sender_expired (h : Expired cfg s t) (ho : s.out = []) :
    ∃ failed, Expires cfg s.sender failed t.sender ∧ report t.out = ⟨[], failed, []⟩ := by
  cases h with
  | rts hx ht =>
    obtain ⟨q, rts, hp, hr, hb, hcase⟩ := retransmitRTS_some ht
    have hr' : s.pktRTS.isSome := by simp [hr]
    have hp' : s.pktTx.isSome := by simp [hp]
    cases hcase with
    | failed hlimit =>
      refine ⟨_, .rtsFailed hx hr' hp hb hlimit, ?_⟩
      rw [report_failures, report_discarded, ho]
      simp [report]
    | again hlimit hb' =>
      obtain ⟨hv, hout⟩ := sender_startBackoff hb'
      rw [hv, hout]
      exact ⟨[], .rtsAgain hx hr' hp' hb hlimit, by rw [incCw, ho]; rfl⟩
  | data hx ht =>
    obtain ⟨q, hp, hr, hb, hcase⟩ := retransmitDATA_some ht
    cases hcase with
    | broadcast hra hb' =>
      obtain ⟨hv, hout⟩ := sender_startBackoff hb'
      rw [hv, hout]
      exact ⟨[], .broadcast hx hr hp hb hra, by rw [ho]; rfl⟩
    | shortFailed hra hsize hlimit =>
      refine ⟨_, .shortFailed hx hr hp hb hra hsize hlimit, ?_⟩
      rw [report_failures, ho]
      simp [report]
    | shortAgain hra hsize hlimit hu hb' =>
      obtain ⟨hv, hout⟩ := sender_startBackoff hb'
      obtain ⟨-, hv', hout'⟩ := sender_sendRTS (s := { s with ssrc := s.ssrc + 1 }) hp hu
      have hsender : (incCw cfg _ : Mac80211).sender = _ := hv'
      rw [hv, hsender, hout]
      refine ⟨[], .shortAgain hx hr hp hb hra hsize hlimit, ?_⟩
      rw [incCw, hout', ho]
      rfl
    | longFailed hra hsize hlimit =>
      refine ⟨_, .longFailed hx hr hp hb hra hsize hlimit, ?_⟩
      rw [report_failures, ho]
      simp [report]
    | longAgain hra hsize hlimit hu hb' =>
      obtain ⟨hv, hout⟩ := sender_startBackoff hb'
      obtain ⟨-, hv', hout'⟩ := sender_sendRTS (s := { s with slrc := s.slrc + 1 }) hp hu
      have hsender : (incCw cfg _ : Mac80211).sender = _ := hv'
      rw [hv, hsender, hout]
      refine ⟨[], .longAgain hx hr hp hb hra hsize hlimit, ?_⟩
      rw [incCw, hout', ho]
      rfl
  | control hx hc => exact ⟨[], .control hx (by simp [sender, hc]), by rw [ho]; rfl⟩
  | idle hx => exact ⟨[], .idle hx, by rw [ho]; rfl⟩

/-! ## The handlers as moves -/

lemma move_deferHandler (h : deferHandler cfg { s with mhDefer := .free } = some t) (hd : s.mhDefer.busy)
    (ho : s.out = []) : Move cfg s.reply s.sender (.fire .defer) (report t.out) t.sender := by
  obtain ⟨-, hcase⟩ := deferHandler_some h
  cases hcase with
  | dropped hc hk htx hidle =>
    rw [report_discarded]
    change Move cfg s.reply s.sender _ (report s.out) _
    rw [ho]
    exact .dropsCTS hd hc hk
  | cts hc hk hidle hu ht =>
    obtain ⟨hs, hv, hout⟩ := sender_transmit ht
    obtain ⟨hv', hout'⟩ := sender_setTxState hu
    have hs' : ¬s.sender.sending := fun hsend => hs ((congrArg Sender.sending hv').trans hsend)
    rw [hv, hv', hout, hout', ho]
    exact .sendsCTS hd hc hk (isIdle_txState hidle) hs'
  | ack hc hk htx hu ht =>
    obtain ⟨hs, hv, hout⟩ := sender_transmit ht
    obtain ⟨hv', hout'⟩ := sender_setTxState hu
    have hs' : ¬s.sender.sending := fun hsend => hs ((congrArg Sender.sending hv').trans hsend)
    rw [hv, hv', hout, hout', ho]
    exact .sendsACK hd hc hk hs'
  | attempt hc hb ht =>
    obtain ⟨frames, ha, hr⟩ := sender_attempt ht ho
    rw [hr]
    exact .defers hd hc hb ha

lemma move_backoffHandler (h : backoffHandler cfg { s with mhBackoff := .free } = some t) (hb : s.mhBackoff.busy)
    (ho : s.out = []) : Move cfg s.reply s.sender (.fire .backoff) (report t.out) t.sender := by
  rcases backoffHandler_some h with ⟨hc, hbusy, rfl⟩ | ⟨hc, -, ha⟩
  · change Move cfg s.reply s.sender _ (report s.out) _
    rw [ho]
    exact .yields hb hc hbusy
  · obtain ⟨frames, ha, hr⟩ := sender_attempt ha ho
    rw [hr]
    exact .backsOff hb hc ha

lemma move_sendTimer (h : sendTimer cfg { s with mhSend := .free } = some t) (hs : s.mhSend.busy) (ho : s.out = []) :
    Move cfg s.reply s.sender (.fire .send) (report t.out) t.sender := by
  obtain ⟨u, hu, ht⟩ := sendTimer_some h
  obtain ⟨failed, he, hr⟩ := sender_expired hu ho
  obtain ⟨-, hd, hresume, hr'⟩ := sender_txResume ht
  rw [hr', hr]
  obtain ⟨hdefer, hreply⟩ := expired_same hu
  rw [hdefer] at hd
  rw [hreply] at hresume
  exact .expires hs hd he hresume

lemma sender_heard : (heard cfg s p).sender = s.sender ∧ (heard cfg s p).reply = s.reply := by
  unfold heard
  split_ifs
  all_goals exact ⟨rfl, rfl⟩

lemma out_heard : (heard cfg s p).out = s.out := by
  unfold heard
  split_ifs
  all_goals rfl

lemma sender_dedup : (s.dedup cfg p).sender = s.sender := by
  unfold dedup
  split_ifs
  all_goals rfl

lemma report_dedup : report (s.dedup cfg p).out = report s.out := by
  unfold dedup
  split_ifs
  · exact report_discarded p s.out
  all_goals rfl

lemma move_receivedRTS (h : ReceivedRTS cfg s p t) (hk : p.kind = .rts) (ho : s.out = []) :
    Move cfg s.reply s.sender (.fire .recv) (report t.out) t.sender := by
  cases h with
  | ignored hx =>
    change Move cfg s.reply s.sender _ (report (discarded cfg p :: s.out)) s.sender
    rw [report_discarded, ho]
    exact .stays nofun
  | answered hx hc hd ht =>
    obtain ⟨hs, -, hresume, hr⟩ := sender_txResume ht
    rw [emit, report_logged (by simp [hk]), hr]
    change Move cfg s.reply s.sender _ (report s.out) _
    rw [ho]
    refine .answersRTS (c := ctsFrame cfg p.ta p.duration) hx hs hc rfl ?_
    rcases hd with ⟨-, rfl⟩ | ⟨hfree, rfl⟩
    · exact hresume
    · have hfree : s.mhDefer.busy = false := by simpa using hfree
      simp only [sender, hfree] at hresume ⊢
      exact hresume

lemma move_receivedCTS (h : ReceivedCTS cfg s p t) (hk : p.kind = .cts) (ho : s.out = []) :
    Move cfg s.reply s.sender (.fire .recv) (report t.out) t.sender := by
  cases h with
  | ignored hx =>
    change Move cfg s.reply s.sender _ (report (discarded cfg p :: s.out)) s.sender
    rw [report_discarded, ho]
    exact .stays nofun
  | cleared hx hr hp hs ht =>
    obtain ⟨-, hd, hresume, hrep⟩ := sender_txResume ht
    rw [emit, report_clearance hk, hrep]
    change Move cfg s.reply s.sender _ { report s.out with cleared := p :: (report s.out).cleared } _
    rw [ho]
    exact .cleared hx (by simp [sender, hr]) hp hs hd hresume

lemma move_receivedACK (h : ReceivedACK cfg s p t) (hk : p.kind = .ack) (ho : s.out = []) :
    Move cfg s.reply s.sender (.fire .recv) (report t.out) t.sender := by
  cases h with
  | ignored hx =>
    change Move cfg s.reply s.sender _ (report (discarded cfg p :: s.out)) s.sender
    rw [report_discarded, ho]
    exact .stays nofun
  | done hx hp hs hu ht =>
    obtain ⟨-, hd, hresume, hrep⟩ := sender_txResume ht
    obtain ⟨hb, -⟩ := startBackoff_some hu
    obtain ⟨hv, hout⟩ := sender_startBackoff hu
    rw [emit, report_logged (by simp [hk]), hrep, hout]
    change Move cfg s.reply s.sender _ (report s.out) _
    rw [ho]
    obtain ⟨hdefer, hreply⟩ := startBackoff_same hu
    rw [hdefer] at hd
    rw [hv, hreply] at hresume
    exact .acked hx hp hs hd hb hresume

lemma move_receivedDATA (h : ReceivedDATA cfg s p t) (ho : s.out = []) :
    Move cfg s.reply s.sender (.fire .recv) (report t.out) t.sender := by
  cases h with
  | ignored hra hx =>
    change Move cfg s.reply s.sender _ (report (discarded cfg (stripped cfg p) :: s.out)) s.sender
    rw [report_discarded, ho]
    exact .stays nofun
  | afterCTS hra hsize hx hc hs ht =>
    obtain ⟨-, hd, hresume, hrep⟩ := sender_txResume ht
    rw [sender_dedup, report_dedup, hrep]
    change Move cfg s.reply s.sender _ (report s.out) _
    rw [ho]
    exact .afterCTS hx (by simp [sender, hc]) hs hd rfl hresume
  | ackWaits hra hsize hc hs =>
    rw [sender_dedup, report_dedup]
    change Move cfg s.reply s.sender _ (report s.out) _
    rw [ho]
    exact .ackWaits hc hs rfl
  | answered hra hsize hc hs ht =>
    obtain ⟨-, hd, hresume, hrep⟩ := sender_txResume ht
    rw [sender_dedup, report_dedup, hrep]
    change Move cfg s.reply s.sender _ (report s.out) _
    rw [ho]
    exact .acks hc hs hd rfl hresume
  | broadcast hra =>
    rw [sender_dedup, report_dedup, ho]
    exact .stays nofun

lemma move_received (h : Received cfg s p t) (ho : s.out = []) :
    Move cfg s.reply s.sender (.fire .recv) (report t.out) t.sender := by
  have ho' : (heard cfg s p).out = [] := out_heard.trans ho
  have hheard : (heard cfg s p).sender = s.sender ∧ (heard cfg s p).reply = s.reply := sender_heard
  rw [← hheard.1, ← hheard.2]
  cases h with
  | ignored hp =>
    change Move cfg _ _ _ (report (discarded cfg p :: (heard cfg s p).out)) (heard cfg s p).sender
    rw [report_discarded, ho']
    exact .stays nofun
  | rts hra hk ht => exact move_receivedRTS ht hk ho'
  | cts hra hk ht => exact move_receivedCTS ht hk ho'
  | ack hra hk ht => exact move_receivedACK ht hk ho'
  | data hra hk ht => exact move_receivedDATA ht ho'
  | beacon hra hk =>
    unfold recvBEACON
    split_ifs
    · change Move cfg _ _ _ (report (discarded cfg p :: (heard cfg s p).out)) (heard cfg s p).sender
      rw [report_discarded, ho']
      exact .stays nofun
    · change Move cfg _ _ _ (report (.logged p :: (heard cfg s p).out)) (heard cfg s p).sender
      rw [report_logged (by simp [hk]), ho']
      exact .stays nofun

lemma move_recvTimer (h : s.recvTimer cfg = some t) (ho : s.out = []) :
    Move cfg s.reply s.sender (.fire .recv) (report t.out) t.sender := by
  obtain ⟨p, u, -, hu, ht⟩ := recvTimer_some h
  have hsame : t.sender = u.sender ∧ t.out = u.out := by
    obtain ⟨-, -, rfl⟩ := rxResume_some ht
    refine ⟨?_, rfl⟩
    unfold sender
    rw [settled_busy]
  rw [hsame.1, hsame.2]
  cases hu with
  | active ha =>
    change Move cfg s.reply s.sender _ (report s.out) s.sender
    rw [ho]
    exact .stays nofun
  | collided ha hx =>
    change Move cfg s.reply s.sender _ (report (discarded cfg p :: s.out)) s.sender
    rw [report_discarded, ho]
    exact .stays nofun
  | errored ha hx he =>
    change Move cfg s.reply s.sender _ (report s.out) s.sender
    rw [ho]
    exact .stays nofun
  | intact ha hx he hr => exact move_received hr ho

lemma move_recv {q : MacFrame} (h : s.recv cfg p = some t) (ho : s.out = []) :
    Move cfg s.reply s.sender (.recv q) (report t.out) t.sender := by
  have hcolliding : (colliding cfg s).sender = s.sender := by
    unfold colliding
    split_ifs
    · unfold sender
      rw [settled_busy]
    · rfl
  have hsame : t.sender = s.sender ∧ report t.out = report s.out := by
    cases recv_some h with
    | started hx hr =>
      refine ⟨?_, rfl⟩
      unfold sender
      rw [settled_busy]
    | captured hx hp hratio => exact ⟨rfl, rfl⟩
    | replaced hx hp hratio hr hlater => exact ⟨hcolliding, report_discarded _ _⟩
    | outlasted hx hp hratio hr hlater => exact ⟨hcolliding, report_discarded _ _⟩
  rw [hsame.1, hsame.2, ho]
  exact .stays nofun

lemma move_navHandler (h : s.navHandler cfg = some t) (ho : s.out = []) :
    Move cfg s.reply s.sender (.fire .nav) (report t.out) t.sender := by
  unfold navHandler at h
  split_ifs at h with hpaused
  · obtain ⟨b, hb, rfl⟩ := Option.map_eq_some_iff.mp h
    obtain ⟨-, -, rfl⟩ := BackoffTimer.resume_eq_some hb
    change Move cfg s.reply s.sender _ (report s.out) s.sender
    rw [ho]
    exact .stays nofun
  · obtain rfl := Option.some.inj h
    rw [ho]
    exact .stays nofun

lemma due_send_busy {time : ℚ} (h : s.due .send = some time) : s.mhSend.busy := by
  simp only [due] at h
  split_ifs at h with hb
  exact hb

lemma due_defer_busy {time : ℚ} (h : s.due .defer = some time) : s.mhDefer.busy := by
  simp only [due] at h
  split_ifs at h with hb
  exact hb

lemma due_backoff_busy {time : ℚ} (h : s.due .backoff = some time) : s.mhBackoff.busy ∧ ¬s.mhBackoff.paused := by
  simp only [due] at h
  split_ifs at h with hb
  exact hb

/-- Every event is a move of the sending side. -/
theorem step_move {ev : MacEvent} {o : List MacOutput}
    (hfires : ∀ timer, ev.input = .fire timer → s.due timer = some ev.time) (h : step cfg s ev = some (t, o)) :
    Move cfg ev.reply s.sender ev.input (report o.reverse) t.sender := by
  obtain ⟨u, hu, hpair⟩ := Option.map_eq_some_iff.mp h
  obtain ⟨rfl, rfl⟩ := Prod.mk.inj hpair
  rw [List.reverse_reverse]
  let s₀ : Mac80211 := { s with now := ev.time, reply := ev.reply, out := [] }
  have hsender : s.sender = s₀.sender := rfl
  rw [hsender]
  cases hinput : ev.input with
  | send p =>
    rw [hinput] at hu
    obtain ⟨ha, ho⟩ := sender_send hu
    rw [ho]
    exact .accepts ha
  | recv p =>
    rw [hinput] at hu
    exact move_recv hu rfl
  | fire timer =>
    rw [hinput] at hu
    cases timer with
    | interface =>
      obtain rfl := Option.some.inj hu
      exact .stays nofun
    | nav => exact move_navHandler (s := { s₀ with mhNav := .free }) hu rfl
    | recv => exact move_recvTimer (s := { s₀ with mhRecv := .free }) hu rfl
    | send => exact move_sendTimer (s := s₀) hu (due_send_busy (hfires _ hinput)) rfl
    | defer => exact move_deferHandler (s := s₀) hu (due_defer_busy (hfires _ hinput)) rfl
    | backoff => exact move_backoffHandler (s := s₀) hu (due_backoff_busy (hfires _ hinput)).1 rfl

end Mac80211

end NetworkSimulator
