import NetworkSimulator.Mac.SenderOrder

/-!
# The backoff of the MAC

The backoff timer counts down while the medium is idle. An event may start it, pause it or resume it, and the slots
it has counted follow from the times at which the medium became idle and busy.
-/

namespace NetworkSimulator

open Library

namespace Mac80211
variable {cfg : MacConfig} {s t u v : Mac80211} {p : MacFrame}

/-! ## What an event does with the timer -/

/-- The backoff timer is counting down. -/
def Running (s : Mac80211) : Prop := s.mhBackoff.busy ∧ ¬s.mhBackoff.paused

/-- The backoff timer as `pause` leaves it. -/
def halted (cfg : MacConfig) (s : Mac80211) : BackoffTimer :=
  { s.mhBackoff with
    paused := true
    rtime := s.mhBackoff.rtime - s.mhBackoff.slotsPassed cfg.slotTime s.now * cfg.slotTime
    difsWait := 0 }

/-- From the state at the time of an event to the state after it. -/
inductive Turn (cfg : MacConfig) (s t : Mac80211) : Prop
  | off (hs : ¬s.mhBackoff.busy) (ht : t.mhBackoff = s.mhBackoff)
  | begun {d : ℚ} (hs : ¬s.mhBackoff.busy)
      (ht : t.mhBackoff = ⟨true, !t.isIdle, t.now, (s.random 0 % t.cw : ℕ) * cfg.slotTime, d⟩)
      (hd : t.isIdle → d = cfg.difs)
  | kept (hs : s.mhBackoff.busy) (ht : t.mhBackoff = s.mhBackoff) (hrun : ¬s.mhBackoff.paused → t.isIdle)
      (hpause : s.mhBackoff.paused → t.isIdle → s.isIdle ∧ t.mhNav = s.mhNav)
  | paused (hs : s.Running) (hidle : s.isIdle) (ht : t.mhBackoff = halted cfg s) (hbusy : ¬t.isIdle)
  | resumed (hs : s.mhBackoff.busy) (hp : s.mhBackoff.paused) (hidle : t.isIdle)
      (ht : t.mhBackoff = { s.mhBackoff with paused := false, stime := t.now, difsWait := cfg.difs })

/-- What holds of the timer when an event comes. -/
structure Poised (s : Mac80211) : Prop where
  running : s.Running → s.isIdle
  owned : s.mhBackoff.paused → s.mhBackoff.busy

/-- While the NAV is in the future its timer runs up to it. -/
structure NavTimed (s : Mac80211) : Prop where
  due : s.mhNav.busy → s.mhNav.due = s.nav
  busy : s.nav > s.now → s.mhNav.busy

/-- What an event does with the timer, the time and the NAV. -/
structure Turns (cfg : MacConfig) (s t : Mac80211) : Prop where
  turn : Turn cfg s t
  now : t.now = s.now
  nav : NavTimed s → NavTimed t

lemma isIdle_iff : s.isIdle ↔ s.rxState = .idle ∧ s.txState = .idle ∧ ¬s.nav > s.now := by
  unfold isIdle
  exact decide_eq_true_iff

lemma not_isIdle_of_rx (h : s.rxState ≠ .idle) : ¬s.isIdle := fun hidle => h (isIdle_iff.mp hidle).1

lemma not_isIdle_of_tx (h : s.txState ≠ .idle) : ¬s.isIdle := fun hidle => h (isIdle_iff.mp hidle).2.1

lemma Poised.halts (h : Poised s) (hidle : ¬s.isIdle) (hb : s.mhBackoff.busy) : s.mhBackoff.paused := by
  by_contra hp
  exact hidle (h.running ⟨hb, hp⟩)

/-- Nothing has happened to the timer and the medium. -/
lemma Turn.same (hs : Poised s) (ht : t.mhBackoff = s.mhBackoff) (hidle : t.isIdle = s.isIdle)
    (hnav : t.mhNav = s.mhNav) : Turn cfg s t := by
  by_cases hb : s.mhBackoff.busy
  · exact .kept hb ht (fun hp => hidle ▸ hs.running ⟨hb, hp⟩) fun _ hi => ⟨hidle ▸ hi, hnav⟩
  · exact .off hb ht

/-- The medium is busy before and after. -/
lemma Turn.occupied (hs : Poised s) (ht : t.mhBackoff = s.mhBackoff) (hidle : ¬s.isIdle) (hidle' : ¬t.isIdle) :
    Turn cfg s t := by
  by_cases hb : s.mhBackoff.busy
  · exact .kept hb ht (fun hp => absurd (hs.halts hidle hb) hp) fun _ hi => absurd hi hidle'
  · exact .off hb ht

/-- The medium becomes busy, or is still busy. -/
lemma Turn.leaves (hs : Poised s) (hv : v.mhBackoff = s.mhBackoff ∧ v.now = s.now) (hidle : ¬v.isIdle)
    (ht : t.mhBackoff = settled cfg v) (hidle' : ¬t.isIdle) : Turn cfg s t := by
  unfold settled at ht
  rw [if_neg hidle, hv.1, hv.2] at ht
  by_cases hb : s.mhBackoff.busy
  · by_cases hp : s.mhBackoff.paused
    · rw [if_neg (by simp [hp])] at ht
      exact .kept hb ht (absurd hp) fun _ hi => absurd hi hidle'
    · rw [if_pos ⟨hb, hp⟩] at ht
      exact .paused ⟨hb, hp⟩ (hs.running ⟨hb, hp⟩) ht hidle'
  · rw [if_neg (by simp [hb])] at ht
    exact .off hb ht

/-- On a busy medium the timer is started at most. -/
structure Draws (cfg : MacConfig) (s t : Mac80211) : Prop where
  now : t.now = s.now
  rxState : t.rxState = s.rxState
  nav : NavTimed s → NavTimed t
  timer : t.mhBackoff = s.mhBackoff ∨ ¬s.mhBackoff.busy ∧
    ∃ difs, t.mhBackoff = ⟨true, true, s.now, (s.random 0 % t.cw : ℕ) * cfg.slotTime, difs⟩

/-- The timer and the medium are left alone before something is drawn. -/
structure Calm (s t : Mac80211) : Prop where
  now : t.now = s.now
  rxState : t.rxState = s.rxState
  txState : t.txState = s.txState
  nav : NavTimed s → NavTimed t
  timer : t.mhBackoff = s.mhBackoff
  random : t.random = s.random

lemma Calm.draws (h : Calm s u) (h' : Draws cfg u t) : Draws cfg s t where
  now := h'.now.trans h.now
  rxState := h'.rxState.trans h.rxState
  nav hn := h'.nav (h.nav hn)
  timer := by
    have hturn := h'.timer
    rwa [h.timer, h.now, h.random] at hturn

/-- `checkBackoffTimer` after the medium has been busy. -/
lemma Draws.settles (h : Draws cfg s u) (hs : Poised s) (hidle : ¬s.isIdle)
    (hv : v.mhBackoff = u.mhBackoff ∧ v.now = u.now ∧ v.cw = u.cw) :
    Turn cfg s { v with mhBackoff := settled cfg v } := by
  rcases h.timer with hsame | ⟨hfree, difs, hbegun⟩
  · rw [← hv.1] at hsame
    by_cases hb : s.mhBackoff.busy
    · have hp := hs.halts hidle hb
      by_cases hi : v.isIdle
      · refine .resumed hb hp hi ?_
        change settled cfg v = _
        unfold settled
        rw [if_pos hi, hsame, if_pos hp]
      · refine .kept hb ?_ (absurd hp) fun _ hi' => absurd hi' hi
        change settled cfg v = _
        unfold settled
        rw [if_neg hi, hsame, if_neg (by simp [hp])]
    · refine .off hb ?_
      have hp : ¬s.mhBackoff.paused := fun hp => hb (hs.owned hp)
      change settled cfg v = _
      unfold settled
      rw [hsame, if_neg hp, if_neg (fun hrun : s.mhBackoff.busy ∧ _ => hb hrun.1), ite_self]
  · rw [← hv.1, ← hv.2.2] at hbegun
    by_cases hi : v.isIdle
    · refine .begun (d := cfg.difs) hfree ?_ fun _ => rfl
      change settled cfg v = ⟨true, !v.isIdle, v.now, _, _⟩
      unfold settled
      rw [if_pos hi, hbegun, hi]
      rfl
    · refine .begun (d := difs) hfree ?_ fun hi' => absurd hi' hi
      have hidle' : v.isIdle = false := by simpa using hi
      change settled cfg v = ⟨true, !v.isIdle, v.now, _, _⟩
      unfold settled
      rw [if_neg hi, hbegun, hidle', hv.2.1, h.now]
      rfl

/-! ## The functions -/

lemma NavTimed.of_same (h : NavTimed s) (hnow : t.now = s.now) (hnav : t.nav = s.nav) (htimer : t.mhNav = s.mhNav) :
    NavTimed t where
  due hb := by
    rw [htimer] at hb ⊢
    rw [hnav]
    exact h.due hb
  busy hlater := by
    rw [hnow, hnav] at hlater
    rw [htimer]
    exact h.busy hlater

/-- `set_nav`. -/
lemma NavTimed.set (h : NavTimed s) (us : ℕ) :
    NavTimed { s with nav := max s.nav (s.now + sec us), mhNav := s.navTimer us } := by
  unfold navTimer
  by_cases hlater : s.now + sec us > s.nav
  · rw [if_pos hlater, max_eq_right hlater.le]
    exact ⟨fun _ => rfl, fun _ => rfl⟩
  · rw [if_neg hlater, max_eq_left (not_lt.mp hlater)]
    exact ⟨h.due, h.busy⟩

lemma Draws.of_same (hnow : t.now = s.now) (hrx : t.rxState = s.rxState) (hnav : t.nav = s.nav)
    (htimer : t.mhNav = s.mhNav) (hb : t.mhBackoff = s.mhBackoff) : Draws cfg s t :=
  ⟨hnow, hrx, fun hn => hn.of_same hnow hnav htimer, .inl hb⟩

lemma startBackoff_draws {difs : ℚ} (h : s.startBackoff cfg difs = some t) (hidle : ¬s.isIdle) :
    Draws cfg s t ∧ t.txState = s.txState := by
  obtain ⟨hb, rfl⟩ := startBackoff_some h
  have hbusy : s.isIdle = false := by simpa using hidle
  refine ⟨⟨rfl, rfl, fun hn => ⟨hn.due, hn.busy⟩, .inr ⟨hb, difs, ?_⟩⟩, rfl⟩
  dsimp only
  rw [hbusy]
  rfl

lemma startDefer_draws {time : ℚ} (h : s.startDefer time = some t) : Draws cfg s t ∧ t.txState = s.txState := by
  obtain ⟨-, -, rfl⟩ := startDefer_some h
  exact ⟨.of_same rfl rfl rfl rfl rfl, rfl⟩

lemma contend_draws (h : s.contend cfg = some t) (hidle : ¬s.isIdle) : Draws cfg s t ∧ t.txState = s.txState := by
  rcases contend_some h with ⟨-, hb⟩ | ⟨-, -, rfl⟩
  · exact startBackoff_draws hb hidle
  · exact ⟨.of_same rfl rfl rfl rfl rfl, rfl⟩

lemma send_draws (h : s.send cfg p = some t) (hidle : ¬s.isIdle) : Draws cfg s t ∧ t.txState = s.txState := by
  have hcalm : Calm s (queued cfg s p) := ⟨rfl, rfl, rfl, fun hn => ⟨hn.due, hn.busy⟩, rfl, rfl⟩
  obtain ⟨-, -, hcase⟩ := send_some h
  rcases hcase with ⟨-, rfl⟩ | ⟨-, hi, -⟩ | ⟨-, hi, -⟩ | ⟨-, -, hb⟩
  · exact ⟨.of_same rfl rfl rfl rfl rfl, rfl⟩
  · exact absurd hi hidle
  · exact absurd hi hidle
  · obtain ⟨hd, hx⟩ := startBackoff_draws hb hidle
    exact ⟨hcalm.draws hd, hx⟩

lemma txNext_draws (h : s.txNext cfg = some t) (hidle : ¬s.isIdle) : Draws cfg s t ∧ t.txState = s.txState := by
  cases txNext_some h with
  | control hc ht => exact startDefer_draws ht
  | rtsWaits hc hr hb => exact ⟨.of_same rfl rfl rfl rfl rfl, rfl⟩
  | rts hc hr hb ht => exact contend_draws ht hidle
  | dataWaits hc hr hp hb => exact ⟨.of_same rfl rfl rfl rfl rfl, rfl⟩
  | small hc hr hp hb hsize ht => exact contend_draws ht hidle
  | big hc hr hp hb hsize ht => exact startDefer_draws ht
  | nothing hc hr hp hcall => exact ⟨.of_same rfl rfl rfl rfl rfl, rfl⟩
  | called hc hr hp hcall hreply => exact ⟨.of_same rfl rfl rfl rfl rfl, rfl⟩
  | reply hc hr hp hcall hreply ht =>
    have hcalm : Calm s { s.called with reply := none } := ⟨rfl, rfl, rfl, fun hn => ⟨hn.due, hn.busy⟩, rfl, rfl⟩
    obtain ⟨hd, hx⟩ := send_draws ht hidle
    exact ⟨hcalm.draws hd, hx⟩

/-- With the timer busy `tx_resume` leaves it to the medium. -/
lemma txNext_busy (h : s.txNext cfg = some t) (hb : s.mhBackoff.busy) :
    t.now = s.now ∧ t.rxState = s.rxState ∧ t.nav = s.nav ∧ t.mhNav = s.mhNav ∧ t.mhBackoff = s.mhBackoff ∧
      t.cw = s.cw := by
  cases txNext_some h with
  | control hc ht =>
    obtain ⟨-, -, rfl⟩ := startDefer_some ht
    exact ⟨rfl, rfl, rfl, rfl, rfl, rfl⟩
  | rtsWaits hc hr hb' => exact ⟨rfl, rfl, rfl, rfl, rfl, rfl⟩
  | rts hc hr hb' ht => exact absurd hb hb'
  | dataWaits hc hr hp hb' => exact ⟨rfl, rfl, rfl, rfl, rfl, rfl⟩
  | small hc hr hp hb' hsize ht => exact absurd hb hb'
  | big hc hr hp hb' hsize ht => exact absurd hb hb'
  | nothing hc hr hp hcall => exact ⟨rfl, rfl, rfl, rfl, rfl, rfl⟩
  | called hc hr hp hcall hreply => exact ⟨rfl, rfl, rfl, rfl, rfl, rfl⟩
  | reply hc hr hp hcall hreply ht =>
    obtain ⟨-, -, hcase⟩ := send_some ht
    rcases hcase with ⟨-, rfl⟩ | ⟨hb', -⟩ | ⟨hb', -⟩ | ⟨hb', -⟩
    · exact ⟨rfl, rfl, rfl, rfl, rfl, rfl⟩
    all_goals exact absurd hb hb'

/-- What has been drawn stays through `tx_resume`. -/
lemma Draws.resumes (h : Draws cfg s u) (hb : u.mhBackoff.busy) (hv : u.txNext cfg = some v) : Draws cfg s v := by
  obtain ⟨hnow, hrx, hnav, htimer, hbackoff, hcw⟩ := txNext_busy hv hb
  refine ⟨hnow.trans h.now, hrx.trans h.rxState, fun hn => (h.nav hn).of_same hnow hnav htimer, ?_⟩
  rw [hbackoff, hcw]
  exact h.timer

/-- Up to its last step `tx_resume` starts the timer at most. -/
lemma Draws.next (h : Draws cfg s u) (hcalm : u.mhBackoff.busy ∨ Calm s u) (hidle : ¬u.isIdle)
    (hv : u.txNext cfg = some v) : Draws cfg s v := by
  rcases hcalm with hb | hcalm
  · exact h.resumes hb hv
  · exact hcalm.draws (txNext_draws hv hidle).1

/-- `tx_resume` with a frame in reception. -/
lemma Draws.txResume (h : Draws cfg s u) (hs : Poised s) (hrx : s.rxState ≠ .idle)
    (hcalm : u.mhBackoff.busy ∨ Calm s u) (ht : u.txResume cfg = some t) : Draws cfg s t := by
  obtain ⟨-, -, v, hv, rfl⟩ := txResume_some ht
  have hidle : ¬u.isIdle := not_isIdle_of_rx (h.rxState ▸ hrx)
  have hd := h.next hcalm hidle hv
  have hidle' : ¬isIdle { v with txState := .idle } := not_isIdle_of_rx (hd.rxState ▸ hrx)
  refine ⟨hd.now, hd.rxState, fun hn => (hd.nav hn).of_same rfl rfl rfl, ?_⟩
  have hhalted : ¬(v.mhBackoff.busy ∧ ¬v.mhBackoff.paused) := by
    rintro ⟨hb, hp⟩
    rcases hd.timer with hsame | ⟨-, difs, hbegun⟩
    · rw [hsame] at hb hp
      exact hp (hs.halts (not_isIdle_of_rx hrx) hb)
    · simp [hbegun] at hp
  have hsettled : settled cfg { v with txState := .idle } = v.mhBackoff := by
    unfold settled
    rw [if_neg hidle', if_neg hhalted]
  dsimp only
  rw [hsettled]
  exact hd.timer

/-- `tx_resume` after a transmission. -/
lemma Draws.txResume_turn (h : Draws cfg s u) (hs : Poised s) (hx : s.txState ≠ .idle) (hux : u.txState = s.txState)
    (hcalm : u.mhBackoff.busy ∨ Calm s u) (ht : u.txResume cfg = some t) :
    Turns cfg s t := by
  obtain ⟨-, -, v, hv, rfl⟩ := txResume_some ht
  have hd := h.next hcalm (not_isIdle_of_tx (hux ▸ hx)) hv
  exact ⟨hd.settles (v := { v with txState := .idle }) hs (not_isIdle_of_tx hx) ⟨rfl, rfl, rfl⟩, hd.now,
    fun hn => (hd.nav hn).of_same rfl rfl rfl⟩

/-! ## The handlers -/

lemma Calm.to_draws (h : Calm s t) : Draws cfg s t := ⟨h.now, h.rxState, h.nav, .inl h.timer⟩

lemma Calm.starts {difs : ℚ} (h : Calm s u) (hx : s.txState ≠ .idle) (ht : u.startBackoff cfg difs = some t) :
    Draws cfg s t ∧ t.txState = s.txState ∧ (t.mhBackoff.busy ∨ Calm s t) := by
  obtain ⟨hd, htx⟩ := startBackoff_draws ht (not_isIdle_of_tx (h.txState ▸ hx))
  refine ⟨h.draws hd, htx.trans h.txState, .inl ?_⟩
  obtain ⟨-, rfl⟩ := startBackoff_some ht
  rfl

lemma Calm.sendRTS {dst : ℕ} (h : Calm s u) (ht : u.sendRTS cfg dst = some t) : Calm s (t.incCw cfg) := by
  obtain ⟨-, -, -, ⟨-, rfl⟩ | ⟨-, rfl⟩⟩ := sendRTS_some ht
  all_goals exact ⟨h.now, h.rxState, h.txState, fun hn => ⟨(h.nav hn).due, (h.nav hn).busy⟩, h.timer, h.random⟩

lemma expired_draws (h : Expired cfg s t) (hx : s.txState ≠ .idle) :
    Draws cfg s t ∧ t.txState = s.txState ∧ (t.mhBackoff.busy ∨ Calm s t) := by
  have hcalm : ∀ {w : Mac80211}, w.now = s.now ∧ w.rxState = s.rxState ∧ w.txState = s.txState →
      w.nav = s.nav ∧ w.mhNav = s.mhNav → w.mhBackoff = s.mhBackoff ∧ w.random = s.random → Calm s w :=
    fun hw hn hb => ⟨hw.1, hw.2.1, hw.2.2, fun hnav => hnav.of_same hw.1 hn.1 hn.2, hb.1, hb.2⟩
  have hfailed : ∀ {w : Mac80211}, Calm s w → Draws cfg s w ∧ w.txState = s.txState ∧ (w.mhBackoff.busy ∨ Calm s w) :=
    fun hw => ⟨hw.to_draws, hw.txState, .inr hw⟩
  cases h with
  | rts hrts ht =>
    obtain ⟨q, rts, -, -, -, hcase⟩ := retransmitRTS_some ht
    cases hcase with
    | failed hlimit => exact hfailed (hcalm ⟨rfl, rfl, rfl⟩ ⟨rfl, rfl⟩ ⟨rfl, rfl⟩)
    | again hlimit hb =>
      have hbefore : Calm s (incCw cfg { s with ssrc := s.ssrc + 1 }) :=
        hcalm ⟨rfl, rfl, rfl⟩ ⟨rfl, rfl⟩ ⟨rfl, rfl⟩
      exact hbefore.starts hx hb
  | data hdata ht =>
    obtain ⟨q, -, -, -, hcase⟩ := retransmitDATA_some ht
    cases hcase with
    | broadcast hra hb =>
      have hbefore : Calm s { s with cw := cfg.cwMin, pktTx := none, out := .freed q :: s.out } :=
        hcalm ⟨rfl, rfl, rfl⟩ ⟨rfl, rfl⟩ ⟨rfl, rfl⟩
      exact hbefore.starts hx hb
    | shortFailed hra hsize hlimit => exact hfailed (hcalm ⟨rfl, rfl, rfl⟩ ⟨rfl, rfl⟩ ⟨rfl, rfl⟩)
    | shortAgain hra hsize hlimit hu hb =>
      have hbefore : Calm s { s with ssrc := s.ssrc + 1 } := hcalm ⟨rfl, rfl, rfl⟩ ⟨rfl, rfl⟩ ⟨rfl, rfl⟩
      exact (hbefore.sendRTS hu).starts hx hb
    | longFailed hra hsize hlimit => exact hfailed (hcalm ⟨rfl, rfl, rfl⟩ ⟨rfl, rfl⟩ ⟨rfl, rfl⟩)
    | longAgain hra hsize hlimit hu hb =>
      have hbefore : Calm s { s with slrc := s.slrc + 1 } := hcalm ⟨rfl, rfl, rfl⟩ ⟨rfl, rfl⟩ ⟨rfl, rfl⟩
      exact (hbefore.sendRTS hu).starts hx hb
  | control hctrl hc => exact hfailed (hcalm ⟨rfl, rfl, rfl⟩ ⟨rfl, rfl⟩ ⟨rfl, rfl⟩)
  | idle hidle => exact absurd hidle hx

lemma sendTimer_turn (h : s.sendTimer cfg = some t) (hs : Poised s) (hx : s.txState ≠ .idle) :
    Turns cfg s t := by
  obtain ⟨u, hu, ht⟩ := sendTimer_some h
  obtain ⟨hd, htx, hcalm⟩ := expired_draws hu hx
  exact hd.txResume_turn hs hx htx hcalm ht

lemma Draws.frame (h : Draws cfg s t) (hnow : v.now = t.now) (hrx : v.rxState = t.rxState) (hnav : v.nav = t.nav)
    (htimer : v.mhNav = t.mhNav) (hb : v.mhBackoff = t.mhBackoff) (hcw : v.cw = t.cw) : Draws cfg s v where
  now := hnow.trans h.now
  rxState := hrx.trans h.rxState
  nav hn := (h.nav hn).of_same hnow hnav htimer
  timer := by
    rw [hb, hcw]
    exact h.timer

lemma Draws.dedup (h : Draws cfg s t) (q : MacFrame) : Draws cfg s (t.dedup cfg q) := by
  unfold Mac80211.dedup
  split_ifs
  all_goals exact h.frame rfl rfl rfl rfl rfl rfl

lemma calm_heard : Calm s (heard cfg s p) := by
  unfold heard
  split_ifs
  · exact ⟨rfl, rfl, rfl, fun hn => hn.set _, rfl, rfl⟩
  · exact ⟨rfl, rfl, rfl, id, rfl, rfl⟩

/-- A reception ends: `tx_resume` may be called, with the frames and the other timers changed. -/
lemma Calm.answers (h : Calm s u) (hs : Poised s) (hrx : s.rxState ≠ .idle) (ht : v.txResume cfg = some t)
    (hnow : v.now = u.now) (hvrx : v.rxState = u.rxState) (hvtx : v.txState = u.txState) (hnav : v.nav = u.nav)
    (htimer : v.mhNav = u.mhNav) (hb : v.mhBackoff = u.mhBackoff) (hrandom : v.random = u.random) :
    Draws cfg s t := by
  have hcalm : Calm s v := ⟨hnow.trans h.now, hvrx.trans h.rxState, hvtx.trans h.txState,
    fun hn => (h.nav hn).of_same hnow hnav htimer, hb.trans h.timer, hrandom.trans h.random⟩
  exact hcalm.to_draws.txResume hs hrx (.inr hcalm) ht

lemma received_draws (h : Received cfg s p t) (hs : Poised s) (hrx : s.rxState ≠ .idle) : Draws cfg s t := by
  have hheard : Calm s (heard cfg s p) := calm_heard
  have hsame : Draws cfg s (heard cfg s p) := hheard.to_draws
  have hdropped : Draws cfg s ((heard cfg s p).discard cfg p) := hsame.frame rfl rfl rfl rfl rfl rfl
  cases h with
  | ignored hp => exact hdropped
  | rts hra hk ht =>
    cases ht with
    | ignored hx => exact hdropped
    | answered hx hc hd ht =>
      have hd := hheard.answers hs hrx ht rfl rfl rfl rfl rfl rfl rfl
      exact hd.frame rfl rfl rfl rfl rfl rfl
  | cts hra hk ht =>
    cases ht with
    | ignored hx => exact hdropped
    | cleared hx hr hp hsend ht =>
      have hd := hheard.answers hs hrx ht rfl rfl rfl rfl rfl rfl rfl
      exact hd.frame rfl rfl rfl rfl rfl rfl
  | ack hra hk ht =>
    cases ht with
    | ignored hx => exact hdropped
    | @done u v tx hx hp hsend hu ht =>
      have hbefore : Calm s (acknowledged cfg (heard cfg s p) tx) := ⟨hheard.now, hheard.rxState, hheard.txState,
        fun hn => ⟨(hheard.nav hn).due, (hheard.nav hn).busy⟩, hheard.timer, hheard.random⟩
      have hd := hbefore.draws (startBackoff_draws hu (not_isIdle_of_rx (hbefore.rxState ▸ hrx))).1
      have hb : u.mhBackoff.busy := by
        obtain ⟨-, rfl⟩ := startBackoff_some hu
        rfl
      exact (hd.txResume hs hrx (.inl hb) ht).frame rfl rfl rfl rfl rfl rfl
  | data hra hk ht =>
    cases ht with
    | ignored hra' hx => exact hsame.frame rfl rfl rfl rfl rfl rfl
    | afterCTS hra' hsize hx hc hsend ht =>
      have hd := hheard.answers hs hrx ht rfl rfl rfl rfl rfl rfl rfl
      exact hd.dedup _
    | ackWaits hra' hsize hc hsend =>
      have hd : Draws cfg s { heard cfg s p with pktCTRL := some (ackFrame cfg p.ta) } :=
        hsame.frame rfl rfl rfl rfl rfl rfl
      exact hd.dedup _
    | answered hra' hsize hc hsend ht =>
      have hd := hheard.answers hs hrx ht rfl rfl rfl rfl rfl rfl rfl
      exact hd.dedup _
    | broadcast hra' => exact hsame.dedup _
  | beacon hra hk =>
    unfold recvBEACON
    split_ifs
    · exact hdropped
    · exact hsame.frame rfl rfl rfl rfl rfl rfl

lemma NavTimed.waitEifs {o : MacOutput} (h : NavTimed s) : NavTimed (waitEifs cfg (s.emit o)) :=
  NavTimed.set (s := s.emit o) (h.of_same rfl rfl rfl) _

lemma recvTimer_rxState (h : s.recvTimer cfg = some t) : s.rxState ≠ .idle := by
  obtain ⟨p, hp, hrest⟩ := Option.bind_eq_some_iff.mp h
  rw [asserting_eq_some] at hrest
  rcases hrest.1 with hx | hx
  · simp [hx]
  · simp [hx]

lemma recvTimer_turn (h : s.recvTimer cfg = some t) (hs : Poised s) :
    Turns cfg s t := by
  have hrx := recvTimer_rxState h
  obtain ⟨p, u, hp, hu, ht⟩ := recvTimer_some h
  have hd : Draws cfg s u := by
    cases hu with
    | active ha => exact .of_same rfl rfl rfl rfl rfl
    | collided ha hx => exact ⟨rfl, rfl, fun hn => hn.waitEifs, .inl rfl⟩
    | errored ha hx he => exact ⟨rfl, rfl, fun hn => hn.waitEifs, .inl rfl⟩
    | intact ha hx he hr => exact received_draws hr hs hrx
  obtain ⟨-, -, rfl⟩ := rxResume_some ht
  refine ⟨?_, hd.now, fun hn => (hd.nav hn).of_same rfl rfl rfl⟩
  exact hd.settles (v := { u with pktRx := none, rxState := .idle }) hs (not_isIdle_of_rx hrx) ⟨rfl, rfl, rfl⟩

lemma transmit_medium {time : ℚ} (h : s.transmit p time = some t) :
    t.now = s.now ∧ t.rxState = s.rxState ∧ t.txState = s.txState ∧ t.nav = s.nav ∧ t.mhNav = s.mhNav ∧
      t.mhBackoff = s.mhBackoff := by
  obtain ⟨-, -, -, -, rfl⟩ := transmit_some h
  exact ⟨rfl, rfl, rfl, rfl, rfl, rfl⟩

/-- A frame is sent. -/
lemma Turns.sends {x : MacState} {time : ℚ} (hs : Poised s) (hx : x ≠ .idle) (hu : s.setTxState cfg x = some u)
    (ht : u.transmit p time = some t) : Turns cfg s t := by
  obtain rfl := setTxState_some hu
  obtain ⟨hnow, -, htx, hnav, htimer, hb⟩ := transmit_medium ht
  refine ⟨?_, hnow, fun hn => hn.of_same hnow hnav htimer⟩
  exact .leaves (v := { s with txState := x }) hs ⟨rfl, rfl⟩ (not_isIdle_of_tx hx) hb (not_isIdle_of_tx (htx ▸ hx))

lemma Calm.begins {difs : ℚ} (h : Calm s u) (hidle : ¬u.isIdle)
    (ht : u.startBackoff cfg difs = some t) : Turns cfg s t := by
  obtain ⟨hb, rfl⟩ := startBackoff_some ht
  refine ⟨.begun (d := difs) (h.timer ▸ hb) ?_ fun hi => absurd hi hidle, h.now,
    fun hn => (h.nav hn).of_same rfl rfl rfl⟩
  rw [h.random]
  rfl

lemma attempt_turn (h : Attempt cfg s t) (hs : Poised s) (hb : ¬s.mhBackoff.busy) :
    Turns cfg s t := by
  have hcw : Calm s (s.incCw cfg) := ⟨rfl, rfl, rfl, fun hn => hn.of_same rfl rfl rfl, rfl, rfl⟩
  cases h with
  | nothing hr hp => exact ⟨.off hb rfl, rfl, id⟩
  | rtsWaits hr hidle ht => exact hcw.begins hidle ht
  | rts hr hidle hu ht => exact .sends hs (by decide) hu ht
  | dataWaits hr hp hidle hu ht =>
    have hsame : Calm s s := ⟨rfl, rfl, rfl, id, rfl, rfl⟩
    have hcalm : Calm s (incCw cfg _) := hsame.sendRTS hu
    refine hcalm.begins ?_ ht
    obtain ⟨-, -, -, ⟨-, rfl⟩ | ⟨-, rfl⟩⟩ := sendRTS_some hu
    · exact hidle
    · exact hidle
  | data hr hp hidle hu ht => exact .sends hs (by decide) hu ht

lemma deferHandler_turn (h : s.deferHandler cfg = some t) (hs : Poised s) :
    Turns cfg s t := by
  cases (deferHandler_some h).2 with
  | dropped hc hk htx hidle => exact ⟨.same hs rfl rfl rfl, rfl, fun hn => hn.of_same rfl rfl rfl⟩
  | cts hc hk hidle hu ht => exact .sends hs (by decide) hu ht
  | ack hc hk htx hu ht => exact .sends hs (by decide) hu ht
  | attempt hc hb ht => exact attempt_turn ht hs hb

lemma backoffHandler_turn (h : s.backoffHandler cfg = some t) (hs : Poised s) (hb : ¬s.mhBackoff.busy) :
    Turns cfg s t := by
  rcases backoffHandler_some h with ⟨-, -, rfl⟩ | ⟨-, -, ha⟩
  · exact ⟨.off hb rfl, rfl, id⟩
  · exact attempt_turn ha hs hb

lemma recv_turn (h : s.recv cfg p = some t) (hs : Poised s) :
    Turns cfg s t := by
  have hcolliding : s.rxState = .recv ∨ s.rxState = .coll → ∀ {w : Mac80211}, w.rxState = (colliding cfg s).rxState →
      w.now = s.now ∧ w.nav = s.nav ∧ w.mhNav = s.mhNav → w.mhBackoff = (colliding cfg s).mhBackoff →
      Turns cfg s w := by
    intro hx w hrx hv hb
    refine ⟨?_, hv.1, fun hn => hn.of_same hv.1 hv.2.1 hv.2.2⟩
    unfold colliding at hrx hb
    rcases hx with hx | hx
    · rw [if_pos hx] at hrx hb
      exact .leaves (v := { s with rxState := .coll }) hs ⟨rfl, rfl⟩ (not_isIdle_of_rx (by simp)) hb
        (not_isIdle_of_rx (by simp [hrx]))
    · rw [if_neg (by simp [hx])] at hrx hb
      exact .occupied hs hb (not_isIdle_of_rx (by simp [hx])) (not_isIdle_of_rx (by simp [hrx, hx]))
  cases recv_some h with
  | started hx hr =>
    refine ⟨?_, rfl, fun hn => hn.of_same rfl rfl rfl⟩
    exact .leaves (v := { s with rxState := .recv }) hs ⟨rfl, rfl⟩ (not_isIdle_of_rx (by simp)) rfl
      (not_isIdle_of_rx (by simp))
  | captured hx hp hratio => exact ⟨.occupied hs rfl (not_isIdle_of_rx hx) (not_isIdle_of_rx hx), rfl,
      fun hn => (hn.set (usec (cfg.eifs + (s.arriving p).txtime))).of_same rfl rfl rfl⟩
  | replaced hx hp hratio hr hlater =>
    refine hcolliding hx rfl ?_ rfl
    unfold colliding
    split_ifs
    all_goals exact ⟨rfl, rfl, rfl⟩
  | outlasted hx hp hratio hr hlater =>
    refine hcolliding hx rfl ?_ rfl
    unfold colliding
    split_ifs
    all_goals exact ⟨rfl, rfl, rfl⟩

lemma send_turn (h : s.send cfg p = some t) (hs : Poised s) :
    Turns cfg s t := by
  have hcalm : Calm s (queued cfg s p) := ⟨rfl, rfl, rfl, fun hn => hn.of_same rfl rfl rfl, rfl, rfl⟩
  have hidleSame : (queued cfg s p).isIdle = s.isIdle := rfl
  obtain ⟨-, -, hcase⟩ := send_some h
  rcases hcase with ⟨-, rfl⟩ | ⟨-, -, -, rfl⟩ | ⟨hb, hidle, -, hc⟩ | ⟨-, hidle, hb⟩
  · exact ⟨.same hs rfl rfl rfl, rfl, hcalm.nav⟩
  · exact ⟨.same hs rfl rfl rfl, rfl, hcalm.nav⟩
  · rcases contend_some hc with ⟨-, ht⟩ | ⟨-, -, rfl⟩
    · obtain ⟨-, rfl⟩ := startBackoff_some ht
      exact ⟨.begun (d := cfg.difs) hb rfl fun _ => rfl, rfl, fun hn => (hcalm.nav hn).of_same rfl rfl rfl⟩
    · exact ⟨.off hb rfl, rfl, fun hn => (hcalm.nav hn).of_same rfl rfl rfl⟩
  · exact hcalm.begins hidle hb

lemma navHandler_turn (h : s.navHandler cfg = some t) (hs : Poised s) : Turns cfg s t := by
  unfold navHandler at h
  by_cases hresume : s.isIdle ∧ s.mhBackoff.paused
  · rw [if_pos hresume] at h
    obtain ⟨b, hb, rfl⟩ := Option.map_eq_some_iff.mp h
    obtain ⟨hbusy, hp, rfl⟩ := BackoffTimer.resume_eq_some hb
    exact ⟨.resumed hbusy hp hresume.1 rfl, rfl, fun hn => hn.of_same rfl rfl rfl⟩
  · rw [if_neg hresume] at h
    obtain rfl := Option.some.inj h
    exact ⟨.same hs rfl rfl rfl, rfl, id⟩

/-- When the timer of the NAV goes off, a timer that is still paused has a busy medium. -/
lemma navHandler_paused (h : s.navHandler cfg = some t) (hp : t.mhBackoff.paused) : ¬t.isIdle := by
  unfold navHandler at h
  by_cases hresume : s.isIdle ∧ s.mhBackoff.paused
  · rw [if_pos hresume] at h
    obtain ⟨b, hb, rfl⟩ := Option.map_eq_some_iff.mp h
    obtain ⟨-, -, rfl⟩ := BackoffTimer.resume_eq_some hb
    cases hp
  · rw [if_neg hresume] at h
    obtain rfl := Option.some.inj h
    exact fun hi => hresume ⟨hi, hp⟩

/-- Another timer has been freed at the start. -/
lemma Turns.start (h : Turns cfg s t) (hnow : s.now = v.now) (hnav : s.nav = v.nav ∧ s.mhNav = v.mhNav)
    (hidle : s.isIdle = v.isIdle) (hb : s.mhBackoff = v.mhBackoff) (hrandom : s.random = v.random) :
    Turns cfg v t := by
  refine ⟨?_, h.now.trans hnow, fun hn => h.nav (hn.of_same hnow hnav.1 hnav.2)⟩
  cases h.turn with
  | off hs ht => exact .off (hb ▸ hs) (hb ▸ ht)
  | begun hs ht hd => exact .begun (hb ▸ hs) (hrandom ▸ ht) hd
  | kept hs ht hrun hpause =>
    rw [hb] at hs ht hrun hpause
    exact .kept hs ht hrun fun hp hi => ⟨hidle ▸ (hpause hp hi).1, (hpause hp hi).2.trans hnav.2⟩
  | paused hs hi ht hi' =>
    have hrun : v.Running := by
      unfold Running at hs ⊢
      rwa [hb] at hs
    refine .paused hrun (hidle ▸ hi) (ht.trans ?_) hi'
    unfold halted
    rw [hb, hnow]
  | resumed hs hp hi ht =>
    rw [hb] at hs hp ht
    exact .resumed hs hp hi ht

/-! ## What the timer has counted -/

/-- The slots drawn, those counted in earlier idle periods, and when the idle period of now began, with the time in
it that does not count. -/
structure IdleWatch where
  drawn : ℕ
  counted : ℕ
  since : ℚ
  wait : ℚ

/-- The full slots of an idle period up to a time. -/
def fullSlots (cfg : MacConfig) (g : IdleWatch) (now : ℚ) : ℕ := ⌊(now - (g.since + g.wait)) / cfg.slotTime⌋.toNat

/-- What someone with an eye on the medium notes after an event. The first DIFS of an idle period does not count; in
the period in which the timer is started on an idle medium it is some other time. -/
def watch (cfg : MacConfig) (startWait : ℚ) (g : IdleWatch) (s : Mac80211) (i : MacInput) (t : Mac80211) :
    IdleWatch :=
  if t.mhBackoff.busy ∧ (¬s.mhBackoff.busy ∨ i = .fire .backoff) then
    ⟨s.random 0 % t.cw, 0, t.now, if s.isIdle then startWait else cfg.difs⟩
  else if s.isIdle ∧ ¬t.isIdle then { g with counted := g.counted + fullSlots cfg g t.now }
  else if ¬s.isIdle ∧ t.isIdle then { g with since := t.now, wait := cfg.difs }
  else g

def watched (cfg : MacConfig) (startWait : ℚ) (s : Mac80211 × IdleWatch) (ev : MacEvent) :
    Option ((Mac80211 × IdleWatch) × List MacOutput) :=
  (step cfg s.1 ev).map fun r => ((r.1, watch cfg startWait s.2 s.1 ev.input r.1), r.2)

/-- How the timer, the medium and what has been noted of it belong together. -/
structure Paced (cfg : MacConfig) (s : Mac80211) (g : IdleWatch) : Prop where
  free : ¬s.mhBackoff.busy → s.mhBackoff = .free
  running : s.Running → s.isIdle
  waiting : s.mhBackoff.paused → s.isIdle → s.mhNav.busy ∧ s.mhNav.due = s.now ∧ g.since = s.now
  nav : NavTimed s
  slots : s.mhBackoff.busy → ∃ m : ℕ, s.mhBackoff.rtime = m * cfg.slotTime ∧ g.counted + m = g.drawn
  since : s.Running → s.mhBackoff.stime = g.since ∧ s.mhBackoff.difsWait = cfg.difs
  wait : s.mhBackoff.busy → g.wait = cfg.difs

lemma paced_init (random : ℕ → ℕ) : Paced cfg (init cfg random) ⟨0, 0, 0, 0⟩ where
  free _ := rfl
  running h := absurd h.1 (by simp [init, BackoffTimer.free])
  waiting h := absurd h (by simp [init, BackoffTimer.free])
  nav := ⟨fun h => absurd h (by simp [init, MacTimer.free]), fun h => absurd h (by simp [init])⟩
  slots h := absurd h (by simp [init, BackoffTimer.free])
  since h := absurd h.1 (by simp [init, BackoffTimer.free])
  wait h := absurd h (by simp [init, BackoffTimer.free])

variable {g : IdleWatch} {ev : MacEvent}

lemma Paced.owned (h : Paced cfg s g) (hp : s.mhBackoff.paused) : s.mhBackoff.busy := by
  by_contra hb
  rw [h.free hb] at hp
  cases hp

/-- The state when an event comes. -/
def atTime (s : Mac80211) (ev : MacEvent) : Mac80211 := { s with now := ev.time, reply := ev.reply, out := [] }

lemma isIdle_atTime (hp : s.Possible ev) (h : s.isIdle) : (s.atTime ev).isIdle := by
  obtain ⟨hrx, htx, hnav⟩ := isIdle_iff.mp h
  exact isIdle_iff.mpr ⟨hrx, htx, fun hlater => hnav (hp.later.trans_lt hlater)⟩

lemma NavTimed.atTime (h : NavTimed s) (hp : s.Possible ev) : NavTimed (s.atTime ev) where
  due := h.due
  busy hlater := h.busy (hp.later.trans_lt hlater)

lemma Paced.poised (h : Paced cfg s g) (hp : s.Possible ev) : Poised (s.atTime ev) where
  running hrun := isIdle_atTime hp (h.running hrun)
  owned := h.owned

/-- A medium that becomes idle as time passes does so at the end of the NAV. -/
lemma Paced.ending (h : Paced cfg s g) (hp : s.Possible ev) (hpaused : s.mhBackoff.paused)
    (hidle : (s.atTime ev).isIdle) : s.mhNav.busy ∧ s.mhNav.due = ev.time ∧ (s.isIdle → g.since = ev.time) := by
  have hearly : s.mhNav.busy → ev.time ≤ s.mhNav.due := by
    intro hb
    refine hp.early .nav _ ?_
    simp [due, hb]
  by_cases hi : s.isIdle
  · obtain ⟨hb, hdue, hsince⟩ := h.waiting hpaused hi
    have hnow : ev.time = s.now := le_antisymm (hdue ▸ hearly hb) hp.later
    exact ⟨hb, hdue.trans hnow.symm, fun _ => hsince.trans hnow.symm⟩
  · obtain ⟨hrx, htx, hnav⟩ := isIdle_iff.mp hidle
    have hlater : s.nav > s.now := by
      by_contra hnot
      exact hi (isIdle_iff.mpr ⟨hrx, htx, hnot⟩)
    have hb := h.nav.busy hlater
    have hdue := h.nav.due hb
    exact ⟨hb, le_antisymm (hdue ▸ not_lt.mp hnav) (hearly hb), fun hidle' => absurd hidle' hi⟩

/-! ## Runs -/

/-- A timer that is free has nothing to keep. -/
lemma Paced.of_free (hfree : t.mhBackoff = .free) (hnav : NavTimed t) : Paced cfg t g := by
  have hb : ¬t.mhBackoff.busy := by simp [hfree, BackoffTimer.free]
  have hp : ¬t.mhBackoff.paused := by simp [hfree, BackoffTimer.free]
  exact ⟨fun _ => hfree, fun h => absurd h.1 hb, fun h => absurd h hp, hnav, fun h => absurd h hb,
    fun h => absurd h.1 hb, fun h => absurd h hb⟩

/-- The timer has been started. -/
lemma Paced.begun {difs : ℚ} {k : ℕ} (ht : t.mhBackoff = ⟨true, !t.isIdle, t.now, k * cfg.slotTime, difs⟩)
    (hd : t.isIdle → difs = cfg.difs) (hnav : NavTimed t) (hg : g = ⟨k, 0, t.now, cfg.difs⟩) : Paced cfg t g := by
  have hrun : t.Running → t.isIdle := fun h => by simpa [ht] using h.2
  refine ⟨fun h => absurd (by simp [ht]) h, hrun, fun h hi => ?_, hnav, fun _ => ⟨k, by rw [ht], by simp [hg]⟩,
    fun h => ?_, fun _ => by rw [hg]⟩
  · simp [ht, hi] at h
  · rw [ht, hg]
    exact ⟨rfl, hd (hrun h)⟩

/-- What is noted when the timer was running before and is busy after. -/
lemma watch_of_idle {i : MacInput} {startWait : ℚ} (hb : s.mhBackoff.busy) (hi : i ≠ .fire .backoff)
    (hidle : s.isIdle) : watch cfg startWait g s i t =
      if t.isIdle then g else { g with counted := g.counted + fullSlots cfg g t.now } := by
  unfold watch
  rw [if_neg (by tauto)]
  by_cases hi' : t.isIdle
  · rw [if_pos hi', if_neg (by simp [hi']), if_neg (by simp [hidle])]
  · rw [if_neg hi', if_pos ⟨hidle, hi'⟩]

lemma watch_of_occupied {i : MacInput} {startWait : ℚ} (hb : s.mhBackoff.busy) (hi : i ≠ .fire .backoff)
    (hidle : ¬s.isIdle) : watch cfg startWait g s i t =
      if t.isIdle then { g with since := t.now, wait := cfg.difs } else g := by
  unfold watch
  rw [if_neg (by tauto), if_neg (by tauto)]
  by_cases hi' : t.isIdle
  · rw [if_pos hi', if_pos ⟨hidle, hi'⟩]
  · rw [if_neg hi', if_neg (by tauto)]

/-- Less than a DIFS has no slots. -/
lemma fullSlots_eq_zero (hslot : 0 < cfg.slotTime) {now : ℚ} (h : now ≤ g.since + g.wait) : fullSlots cfg g now = 0 := by
  unfold fullSlots
  refine Int.toNat_of_nonpos (Int.floor_nonpos ?_)
  exact div_nonpos_of_nonpos_of_nonneg (by linarith) hslot.le

/-- The timer is paused before and after, or has just been resumed. -/
lemma Paced.watch_paused (h : Paced cfg s g) (hslot : 0 < cfg.slotTime) (hdifs : 0 ≤ cfg.difs) (hp : s.Possible ev)
    (hi : ev.input ≠ .fire .backoff) (hpaused : s.mhBackoff.paused) (hnow : t.now = ev.time) :
    (watch cfg cfg.difs g s ev.input t).drawn = g.drawn ∧ (watch cfg cfg.difs g s ev.input t).counted = g.counted ∧
      (watch cfg cfg.difs g s ev.input t).wait = cfg.difs ∧
      (t.isIdle → (s.isIdle → g.since = ev.time) → (watch cfg cfg.difs g s ev.input t).since = ev.time) := by
  have hb := h.owned hpaused
  have hwait := h.wait hb
  by_cases hidle : s.isIdle
  · rw [watch_of_idle hb hi hidle]
    by_cases hi' : t.isIdle
    · rw [if_pos hi']
      exact ⟨rfl, rfl, hwait, fun _ hs => hs hidle⟩
    · rw [if_neg hi']
      obtain ⟨-, -, hsince⟩ := h.ending hp hpaused (isIdle_atTime hp hidle)
      refine ⟨rfl, ?_, hwait, fun h => absurd h hi'⟩
      dsimp only
      rw [fullSlots_eq_zero hslot (by rw [hnow, hsince hidle, hwait]; linarith), Nat.add_zero]
  · rw [watch_of_occupied hb hi hidle]
    by_cases hi' : t.isIdle
    · rw [if_pos hi']
      exact ⟨rfl, rfl, rfl, fun _ _ => hnow⟩
    · rw [if_neg hi']
      exact ⟨rfl, rfl, hwait, fun h => absurd h hi'⟩

/-- The slots that `pause` takes away are those of the idle period. -/
lemma Paced.halts (h : Paced cfg s g) (hslot : 0 < cfg.slotTime) (hp : s.Possible ev) (hrun : s.Running) :
    s.mhBackoff.slotsPassed cfg.slotTime ev.time = fullSlots cfg g ev.time ∧
      ∃ m : ℕ, s.mhBackoff.rtime - fullSlots cfg g ev.time * cfg.slotTime = m * cfg.slotTime ∧
        g.counted + fullSlots cfg g ev.time + m = g.drawn := by
  obtain ⟨hstime, hdifs⟩ := h.since hrun
  have hpassed : s.mhBackoff.slotsPassed cfg.slotTime ev.time = fullSlots cfg g ev.time := by
    unfold BackoffTimer.slotsPassed fullSlots
    rw [hstime, hdifs, h.wait hrun.1]
  refine ⟨hpassed, ?_⟩
  obtain ⟨m, hm, hsum⟩ := h.slots hrun.1
  have hearly : ev.time ≤ s.mhBackoff.due := by
    refine hp.early .backoff _ ?_
    exact if_pos hrun
  have hle := BackoffTimer.slotsPassed_mul_le hslot (by rw [hm]; positivity) hearly
  rw [hpassed, hm] at hle
  have hcount : fullSlots cfg g ev.time ≤ m := by
    have hcast := le_of_mul_le_mul_right hle hslot
    exact_mod_cast hcast
  refine ⟨m - fullSlots cfg g ev.time, ?_, by omega⟩
  rw [hm, Nat.cast_sub hcount]
  ring

lemma Paced.next (h : Paced cfg s g) (hslot : 0 < cfg.slotTime) (hdifs : 0 ≤ cfg.difs) (hp : s.Possible ev)
    (hi : ev.input ≠ .fire .backoff) (hturn : Turn cfg u t) (hu : u.mhBackoff = s.mhBackoff ∧ u.now = ev.time)
    (hidle : u.isIdle = (s.atTime ev).isIdle) (hrandom : u.random = s.random) (hnow : t.now = ev.time)
    (hnav : NavTimed t) (hend : u.mhNav = s.mhNav ∨ (t.mhBackoff.paused → ¬t.isIdle)) :
    Paced cfg t (watch cfg cfg.difs g s ev.input t) := by
  cases hturn with
  | off hs ht =>
    rw [hu.1] at hs ht
    exact .of_free (ht.trans (h.free hs)) hnav
  | begun hs ht hd =>
    rw [hu.1] at hs
    rw [hrandom] at ht
    refine .begun ht hd hnav ?_
    unfold watch
    rw [if_pos ⟨by simp [ht], .inl hs⟩, ite_self]
  | kept hs ht hrun hpause =>
    rw [hu.1] at hs ht hrun hpause
    by_cases hpaused : s.mhBackoff.paused
    · obtain ⟨hdrawn, hcounted, hwait, hsince⟩ := h.watch_paused hslot hdifs hp hi hpaused hnow
      have hstill : ¬t.Running := fun hr => hr.2 (ht ▸ hpaused)
      refine ⟨fun hb => absurd (ht ▸ hs) hb, fun hr => absurd hr hstill, fun hp' hi' => ?_, hnav, fun _ => ?_,
        fun hr => absurd hr hstill, fun _ => hwait⟩
      · obtain ⟨hi₀, hsame⟩ := hpause hpaused hi'
        obtain ⟨hb, hdue, hs'⟩ := h.ending hp hpaused (hidle ▸ hi₀)
        rcases hend with hend | hend
        · rw [hsame, hend, hnow]
          exact ⟨hb, hdue, hsince hi' hs'⟩
        · exact absurd hi' (hend hp')
      · rw [ht, hdrawn, hcounted]
        exact h.slots hs
    · have hi' := hrun hpaused
      have hsame : watch cfg cfg.difs g s ev.input t = g := by
        rw [watch_of_idle hs hi (h.running ⟨hs, hpaused⟩), if_pos hi']
      rw [hsame]
      refine ⟨fun hb => absurd (ht ▸ hs) hb, fun _ => hi', fun hp' => absurd (ht ▸ hp') hpaused, hnav, fun _ => ?_,
        fun _ => ?_, fun _ => h.wait hs⟩
      · rw [ht]
        exact h.slots hs
      · rw [ht]
        exact h.since ⟨hs, hpaused⟩
  | paused hs hi₀ ht hbusy =>
    have hrun : s.Running := by
      unfold Running at hs ⊢
      rwa [hu.1] at hs
    obtain ⟨hpassed, m, hm, hsum⟩ := h.halts hslot hp hrun
    have hb : t.mhBackoff.busy := by
      rw [ht]
      exact hs.1
    have hpaused : t.mhBackoff.paused := by
      rw [ht]
      rfl
    rw [watch_of_idle hrun.1 hi (h.running hrun), if_neg hbusy, hnow]
    refine ⟨fun hb' => absurd hb hb', fun hr => absurd hpaused hr.2, fun _ hi' => absurd hi' hbusy, hnav,
      fun _ => ⟨m, ?_, hsum⟩, fun hr => absurd hpaused hr.2, fun _ => h.wait hrun.1⟩
    rw [← hm, ht, ← hpassed]
    unfold halted
    rw [hu.1, hu.2]
  | resumed hs hpaused hi' ht =>
    rw [hu.1] at hs hpaused ht
    obtain ⟨hdrawn, hcounted, hwait, hsince⟩ := h.watch_paused hslot hdifs hp hi hpaused hnow
    have hrunning : ¬t.mhBackoff.paused := by simp [ht]
    refine ⟨fun hb => absurd (by simp [ht, hs]) hb, fun _ => hi', fun hp' => absurd hp' hrunning, hnav, fun _ => ?_,
      fun _ => ?_, fun _ => hwait⟩
    · rw [ht, hdrawn, hcounted]
      exact h.slots hs
    · have hend : s.isIdle → g.since = ev.time := fun hidle' =>
        (h.ending hp hpaused (isIdle_atTime hp hidle')).2.2 hidle'
      rw [ht, hsince hi' hend, hnow]
      exact ⟨rfl, rfl⟩

/-- The timer goes off, and may be started again. -/
lemma Paced.fired (hi : ev.input = .fire .backoff)
    (hturns : Turns cfg { s.atTime ev with mhBackoff := .free } t) (hnav : NavTimed t) :
    Paced cfg t (watch cfg cfg.difs g s ev.input t) := by
  have hfree : ¬(BackoffTimer.free).busy := by decide
  cases hturns.turn with
  | off hs ht => exact .of_free ht hnav
  | begun hs ht hd =>
    refine .begun ht hd hnav ?_
    unfold watch
    rw [if_pos ⟨by simp [ht], .inr hi⟩, ite_self]
    rfl
  | kept hs ht hrun hpause => exact absurd hs hfree
  | paused hs hi' ht hbusy => exact absurd hs.1 hfree
  | resumed hs hp hi' ht => exact absurd hs hfree

/-- The state of the timers in which an event is handled. -/
lemma step_turns {o : List MacOutput} (hs : Paced cfg s g) (horder : Sender.Orderly cfg s.sender) (hp : s.Possible ev)
    (h : step cfg s ev = some (t, o)) (hi : ev.input ≠ .fire .backoff) :
    ∃ u : Mac80211, Turns cfg u t ∧ u.mhBackoff = s.mhBackoff ∧ u.now = ev.time ∧ u.isIdle = (s.atTime ev).isIdle ∧
      u.random = s.random ∧ NavTimed u ∧ (u.mhNav = s.mhNav ∨ (t.mhBackoff.paused → ¬t.isIdle)) := by
  obtain ⟨w, hw, hpair⟩ := Option.map_eq_some_iff.mp h
  obtain ⟨rfl, rfl⟩ := Prod.mk.inj hpair
  have hpoised := hs.poised hp
  have hnav := hs.nav.atTime hp
  have hfrom : Turns cfg (s.atTime ev) w → ∃ u : Mac80211, Turns cfg u w ∧ u.mhBackoff = s.mhBackoff ∧
      u.now = ev.time ∧ u.isIdle = (s.atTime ev).isIdle ∧ u.random = s.random ∧ NavTimed u ∧
      (u.mhNav = s.mhNav ∨ (w.mhBackoff.paused → ¬w.isIdle)) :=
    fun ht => ⟨s.atTime ev, ht, rfl, rfl, rfl, rfl, hnav, .inl rfl⟩
  cases hinput : ev.input with
  | send p =>
    rw [hinput] at hw
    exact hfrom (send_turn hw hpoised)
  | recv p =>
    rw [hinput] at hw
    exact hfrom (recv_turn hw hpoised)
  | fire timer =>
    rw [hinput] at hw
    have hpoised' : ∀ {v : Mac80211}, v.mhBackoff = s.mhBackoff → v.isIdle = (s.atTime ev).isIdle → Poised v := by
      intro v hb hidle
      refine ⟨fun hr => hidle ▸ hpoised.running ?_, fun hp' => hb ▸ hpoised.owned (hb ▸ hp')⟩
      unfold Running at hr ⊢
      rwa [hb] at hr
    cases timer with
    | interface =>
      obtain rfl := Option.some.inj hw
      exact hfrom ⟨.same hpoised rfl rfl rfl, rfl, fun hn => hn.of_same rfl rfl rfl⟩
    | nav =>
      have hw : navHandler cfg { s.atTime ev with mhNav := .free } = some w := hw
      have hdue := hp.fires .nav hinput
      have hended : ¬s.nav > ev.time := by
        simp only [due] at hdue
        split_ifs at hdue with hb
        rw [← Option.some.inj hdue, hs.nav.due hb]
        exact lt_irrefl _
      have hnav' : NavTimed { s.atTime ev with mhNav := .free } :=
        ⟨fun hb => absurd hb (by simp [MacTimer.free]), fun hlater => absurd hlater hended⟩
      exact ⟨_, navHandler_turn hw (hpoised' rfl rfl), rfl, rfl, rfl, rfl, hnav', .inr (navHandler_paused hw)⟩
    | recv =>
      have hw : recvTimer cfg { s.atTime ev with mhRecv := .free } = some w := hw
      exact hfrom ((recvTimer_turn hw (hpoised' rfl rfl)).start rfl ⟨rfl, rfl⟩ rfl rfl rfl)
    | send =>
      have hw : sendTimer cfg { s.atTime ev with mhSend := .free } = some w := hw
      have hx : s.txState ≠ .idle := horder.sending.mp (due_send_busy (hp.fires .send hinput))
      exact hfrom ((sendTimer_turn hw (hpoised' rfl rfl) hx).start rfl ⟨rfl, rfl⟩ rfl rfl rfl)
    | defer =>
      have hw : deferHandler cfg { s.atTime ev with mhDefer := .free } = some w := hw
      exact hfrom ((deferHandler_turn hw (hpoised' rfl rfl)).start rfl ⟨rfl, rfl⟩ rfl rfl rfl)
    | backoff => exact absurd hinput hi

lemma paced_step {o : List MacOutput} (hslot : 0 < cfg.slotTime) (hdifs : 0 ≤ cfg.difs) (hs : Paced cfg s g)
    (horder : Sender.Orderly cfg s.sender) (hp : s.Possible ev) (h : step cfg s ev = some (t, o)) :
    Paced cfg t (watch cfg cfg.difs g s ev.input t) := by
  by_cases hi : ev.input = .fire .backoff
  · obtain ⟨w, hw, hpair⟩ := Option.map_eq_some_iff.mp h
    obtain ⟨rfl, rfl⟩ := Prod.mk.inj hpair
    rw [hi] at hw
    have hw : backoffHandler cfg { s.atTime ev with mhBackoff := .free } = some w := hw
    have hpoised : Poised { s.atTime ev with mhBackoff := .free } :=
      ⟨fun hr => absurd hr.1 (by simp [BackoffTimer.free]), fun hp' => absurd hp' (by simp [BackoffTimer.free])⟩
    have hturns := backoffHandler_turn hw hpoised (by simp [BackoffTimer.free])
    exact .fired hi hturns (hturns.nav ((hs.nav.atTime hp).of_same rfl rfl rfl))
  · obtain ⟨u, hturns, hb, hnow, hidle, hrandom, hnav, hend⟩ := step_turns hs horder hp h hi
    exact hs.next hslot hdifs hp hi hturns.turn ⟨hb, hnow⟩ hidle hrandom (hturns.now.trans hnow) (hturns.nav hnav) hend

structure Counting (cfg : MacConfig) (s : Mac80211 × IdleWatch) : Prop where
  orderly : Sender.Orderly cfg s.1.sender
  paced : Paced cfg s.1 s.2

lemma counting_step {s t : Mac80211 × IdleWatch} {o : List MacOutput} (hslot : 0 < cfg.slotTime) (hdifs : 0 ≤ cfg.difs)
    (hs : Counting cfg s) (hp : s.1.Possible ev) (h : watched cfg cfg.difs s ev = some (t, o)) : Counting cfg t := by
  obtain ⟨⟨w, o'⟩, hw, hpair⟩ := Option.map_eq_some_iff.mp h
  obtain ⟨rfl, -⟩ := Prod.mk.inj hpair
  exact ⟨(step_move hp.fires hw).orderly hs.orderly, paced_step hslot hdifs hs.paced hs.orderly hp hw⟩

/-- The slots of the last idle period are those that were left. -/
lemma Paced.counts (h : Paced cfg s g) (hslot : 0 < cfg.slotTime) (hdue : s.due .backoff = some ev.time) :
    g.counted + fullSlots cfg g ev.time = g.drawn := by
  have hrun := due_backoff_busy hdue
  obtain ⟨m, hm, hsum⟩ := h.slots hrun.1
  obtain ⟨hstime, hdifs⟩ := h.since hrun
  have htime : g.since + cfg.difs + m * cfg.slotTime = ev.time := by
    simp only [due] at hdue
    rw [if_pos hrun] at hdue
    rw [← Option.some.inj hdue, BackoffTimer.due, hstime, hdifs, hm]
  have hslots : fullSlots cfg g ev.time = m := by
    have hcount : (ev.time - (g.since + g.wait)) / cfg.slotTime = m := by
      rw [div_eq_iff hslot.ne', h.wait hrun.1, ← htime]
      ring
    unfold fullSlots
    rw [hcount, Int.floor_natCast, Int.toNat_natCast]
  rw [hslots, hsum]

/-- In every run the backoff counts the full slots of idle periods behind their first DIFS. -/
theorem backoff_run (hslot : 0 < cfg.slotTime) (hsifs : 0 ≤ cfg.sifs) (random : ℕ → ℕ) {evs : List MacEvent}
    {s t : Mac80211 × IdleWatch} {os : List (List MacOutput)} {o : List MacOutput}
    (hposs : EachStep (watched cfg cfg.difs) (fun s ev => s.1.Possible ev) (init cfg random, ⟨0, 0, 0, 0⟩)
      (evs ++ [ev]))
    (hrun : run (watched cfg cfg.difs) (init cfg random, ⟨0, 0, 0, 0⟩) evs = some (s, os))
    (hstep : watched cfg cfg.difs s ev = some (t, o)) :
    (t.1.mhBackoff.busy → ¬t.1.mhBackoff.paused → t.1.isIdle) ∧
      (t.1.mhBackoff.busy → t.1.mhBackoff.paused → ¬t.1.isIdle ∨ t.1.mhNav.busy ∧ t.1.mhNav.due = t.1.now) ∧
      (∃ m : ℕ, t.1.mhBackoff.rtime = m * cfg.slotTime) ∧
      (ev.input = .fire .backoff → s.2.counted + fullSlots cfg s.2 ev.time = s.2.drawn) := by
  have hdifs : 0 ≤ cfg.difs := by
    unfold MacConfig.difs
    positivity
  have hinit : Counting cfg (init cfg random, ⟨0, 0, 0, 0⟩) := ⟨orderly_init random, paced_init random⟩
  have hs : Counting cfg s :=
    hposs.left.invariant (fun _ _ _ _ hs hp h => counting_step hslot hdifs hs hp h) hinit hrun
  have hp := (hposs.right hrun).1
  have ht := (counting_step hslot hdifs hs hp hstep).paced
  refine ⟨fun hb hr => ht.running ⟨hb, hr⟩, fun _ hpaused => ?_, ?_, fun hi => ?_⟩
  · by_cases hidle : t.1.isIdle
    · obtain ⟨hb, hdue, -⟩ := ht.waiting hpaused hidle
      exact .inr ⟨hb, hdue⟩
    · exact .inl hidle
  · by_cases hb : t.1.mhBackoff.busy
    · obtain ⟨m, hm, -⟩ := ht.slots hb
      exact ⟨m, hm⟩
    · exact ⟨0, by simp [ht.free hb, BackoffTimer.free]⟩
  · exact hs.paced.counts hslot (hp.fires .backoff hi)

/-- A packet of the upper layer for node 2. -/
def packet142 : MacFrame := ⟨.data, 2, 1, 0, 0, 1, 142, 0, false, true, 0, 0⟩

/-- A DATA frame for a node that takes 100 microseconds. -/
def dataFor (ra : ℕ) : MacFrame := ⟨.data, ra, 2, 0, 1, 2, 100, sec 100, false, false, 1, 10⟩

/-- A packet draws three slots, and a frame for another node comes in the second. -/
def interruptedBackoff : List MacEvent :=
  [⟨0, .send packet142, none⟩, ⟨sec 80, .recv (dataFor 3), none⟩, ⟨sec 180, .fire .recv, none⟩,
    ⟨sec 180, .fire .nav, none⟩]

theorem backoff_run_interrupted : ∃ s t os o,
    run (watched .default MacConfig.default.difs) (init .default fun _ => 3, ⟨0, 0, 0, 0⟩) interruptedBackoff =
        some (s, os) ∧
      watched .default MacConfig.default.difs s ⟨sec 270, .fire .backoff, none⟩ = some (t, o) ∧
      (t.1.mhBackoff.busy → ¬t.1.mhBackoff.paused → t.1.isIdle) ∧
      (t.1.mhBackoff.busy → t.1.mhBackoff.paused → ¬t.1.isIdle ∨ t.1.mhNav.busy ∧ t.1.mhNav.due = t.1.now) ∧
      (∃ m : ℕ, t.1.mhBackoff.rtime = m * MacConfig.default.slotTime) ∧
      s.2.counted + fullSlots .default s.2 (sec 270) = s.2.drawn := by
  have hguarded : ((run (guarded (watched .default MacConfig.default.difs) fun s ev => s.1.Possible ev)
      (init .default fun _ => 3, ⟨0, 0, 0, 0⟩)
      (interruptedBackoff ++ [⟨sec 270, .fire .backoff, none⟩])).map fun _ => decide True) = some true := by
    decide +kernel
  obtain ⟨⟨s, os⟩, hrun⟩ := Option.isSome_iff_exists.mp (show (run (watched .default MacConfig.default.difs)
    (init .default fun _ => 3, ⟨0, 0, 0, 0⟩) interruptedBackoff).isSome by decide +kernel)
  obtain ⟨t', os', hposs, hwhole, -⟩ := run_guarded_of (fun _ _ => True) hguarded
  rw [run_append_of_run hrun] at hwhole
  obtain ⟨⟨w, os''⟩, hlast, -⟩ := Option.map_eq_some_iff.mp hwhole
  obtain ⟨t, o, -, hstep, -, -⟩ := run_cons_inv hlast
  obtain ⟨hrunning, hpaused, hslots, hcount⟩ :=
    backoff_run (by decide +kernel) (by decide +kernel) (fun _ => 3) hposs hrun hstep
  exact ⟨s, t, os, o, hrun, hstep, hrunning, hpaused, hslots, hcount rfl⟩

/-- The DIFS of a timer that is started on an idle medium is two and a half slots of idle time. -/
theorem idle_slots_uncounted : ∃ s t os o,
    EachStep (watched .default 0) (fun s ev => s.1.Possible ev) (init .default fun _ => 0, ⟨0, 0, 0, 0⟩)
        [⟨0, .send packet142, none⟩, ⟨sec 50, .fire .backoff, none⟩] ∧
      run (watched .default 0) (init .default fun _ => 0, ⟨0, 0, 0, 0⟩) [⟨0, .send packet142, none⟩] = some (s, os) ∧
      watched .default 0 s ⟨sec 50, .fire .backoff, none⟩ = some (t, o) ∧
      ¬s.2.counted + fullSlots .default s.2 (sec 50) = s.2.drawn := by
  have hguarded : ((run (guarded (watched .default 0) fun s ev => s.1.Possible ev)
      (init .default fun _ => 0, ⟨0, 0, 0, 0⟩)
      [⟨0, .send packet142, none⟩, ⟨sec 50, .fire .backoff, none⟩]).map fun _ => decide True) = some true := by
    decide +kernel
  have hfirst : ((run (watched .default 0) (init .default fun _ => 0, ⟨0, 0, 0, 0⟩)
      [⟨0, .send packet142, none⟩]).map fun r =>
        decide (¬r.1.2.counted + fullSlots .default r.1.2 (sec 50) = r.1.2.drawn)) = some true := by decide +kernel
  obtain ⟨⟨s, os⟩, hrun, hcount⟩ := Option.map_eq_some_iff.mp hfirst
  obtain ⟨t', os', hposs, hwhole, -⟩ := run_guarded_of (fun _ _ => True) hguarded
  rw [← List.singleton_append, run_append_of_run hrun] at hwhole
  obtain ⟨⟨w, os''⟩, hlast, -⟩ := Option.map_eq_some_iff.mp hwhole
  obtain ⟨t, o, -, hstep, -, -⟩ := run_cons_inv hlast
  exact ⟨s, t, os, o, hposs, hrun, hstep, of_decide_eq_true hcount⟩

end Mac80211

end NetworkSimulator
