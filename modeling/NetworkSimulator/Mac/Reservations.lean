import NetworkSimulator.Mac.Handlers

/-!
# What the frames of one exchange reserve

The durations in the RTS, the CTS and the packet of one exchange against the time at which its ACK ends. They have
16 bits, so they agree exactly as long as what follows the RTS fits into 65535 microseconds.
-/

namespace NetworkSimulator

/-- The frames of an exchange without propagation delay, and when its RTS starts. -/
structure Exchange where
  start : ℚ
  rts : MacFrame
  cts : MacFrame
  data : MacFrame
  ack : MacFrame

namespace Exchange
variable (cfg : MacConfig) (e : Exchange)

def rtsEnd : ℚ := e.start + e.rts.txtime

def ctsStart : ℚ := e.rtsEnd + cfg.sifs

def ctsEnd : ℚ := e.ctsStart cfg + e.cts.txtime

def dataEnd : ℚ := e.ctsEnd cfg + cfg.sifs + e.data.txtime

def ackEnd : ℚ := e.dataEnd cfg + cfg.sifs + e.ack.txtime

end Exchange

namespace Mac80211

/-- A station that has nothing reserved receives a frame for another one as a whole. -/
structure Overhears (cfg : MacConfig) (p : MacFrame) (time : ℚ) (v w : Mac80211) : Prop where
  third : p.ra ≠ cfg.index
  unicast : p.ra ≠ MAC_BROADCAST
  now : v.now = time
  free : v.nav ≤ time
  receives : v.receive cfg p = some w

/-- The frames that a station sends for a packet and those that its peer sends back. -/
def exchange (cfg : MacConfig) (s r : Mac80211) (start : ℚ) (p : MacFrame) : Option Exchange :=
  let peer : MacConfig := { cfg with index := p.ra }
  (s.sendDATA cfg p).bind fun s => (s.sendRTS cfg p.ra).bind fun s =>
    s.pktTx.bind fun data => s.pktRTS.bind fun rts =>
      (r.sendCTS peer rts.ta rts.duration).bind fun r => r.pktCTRL.bind fun cts =>
        r.freeCTRL.bind fun r => (r.sendACK peer data.ta).bind fun r =>
          r.pktCTRL.map fun ack => ⟨start, rts, cts, data, ack⟩

end Mac80211

/-- Whoever hears one of the frames waits for the end of the ACK, and the station that sends the CTS waits for the
packet. -/
structure Exchange.Agrees (cfg : MacConfig) (e : Exchange) : Prop where
  rts : ∀ k v w, Mac80211.Overhears { cfg with index := k } e.rts e.rtsEnd v w →
    |w.nav - e.ackEnd cfg| ≤ 2 / 1000000
  cts : ∀ k v w, Mac80211.Overhears { cfg with index := k } e.cts (e.ctsEnd cfg) v w →
    |w.nav - e.ackEnd cfg| ≤ 2 / 1000000
  data : ∀ k v w, Mac80211.Overhears { cfg with index := k } e.data (e.dataEnd cfg) v w →
    |w.nav - e.ackEnd cfg| ≤ 2 / 1000000
  timeout : ∀ (r w : Mac80211) (done : Bool), r.now = e.ctsStart cfg → r.pktCTRL = some e.cts → r.isIdle →
    r.checkPktCTRL { cfg with index := e.data.ra } = some (w, done) → e.dataEnd cfg ≤ w.mhSend.due

namespace Mac80211
variable {cfg : MacConfig} {s r v w : Mac80211} {p : MacFrame} {start time : ℚ} {e : Exchange}

/-- What is left of an exchange when its RTS ends. -/
def remaining (cfg : MacConfig) (p : MacFrame) : ℚ :=
  cfg.sifs + cfg.ctsTime + cfg.sifs + (dataFrame cfg p).txtime + cfg.sifs + cfg.ackTime

/-- The exchange of a packet. -/
def exchanged (cfg : MacConfig) (start : ℚ) (p : MacFrame) : Exchange where
  start := start
  rts := rtsFrame cfg p.ra (dataFrame cfg p).txtime
  cts := ctsFrame cfg cfg.index (usec (remaining cfg p))
  data := dataFrame cfg p
  ack := ackFrame cfg p.ta

lemma exchange_some (h : exchange cfg s r start p = some e) :
    p.ra ≠ MAC_BROADCAST ∧ e = exchanged cfg start p := by
  unfold exchange at h
  obtain ⟨t, ht, h⟩ := Option.bind_eq_some_iff.mp h
  obtain ⟨-, rfl⟩ := sendDATA_some ht
  obtain ⟨u, hu, h⟩ := Option.bind_eq_some_iff.mp h
  obtain ⟨data, hdata, h⟩ := Option.bind_eq_some_iff.mp h
  obtain ⟨rts, hrts, h⟩ := Option.bind_eq_some_iff.mp h
  obtain ⟨q, hq, hnone, hcase⟩ := sendRTS_some hu
  obtain rfl : dataFrame cfg p = q := Option.some.inj hq
  rcases hcase with ⟨-, rfl⟩ | ⟨hbig, rfl⟩
  · rw [hnone] at hrts
    cases hrts
  · obtain rfl : dataFrame cfg p = data := Option.some.inj hdata
    obtain rfl := Option.some.inj hrts
    obtain ⟨t, ht, h⟩ := Option.bind_eq_some_iff.mp h
    obtain ⟨-, rfl⟩ := sendCTS_some ht
    obtain ⟨cts, hcts, h⟩ := Option.bind_eq_some_iff.mp h
    obtain rfl := Option.some.inj hcts
    obtain ⟨u, hu, h⟩ := Option.bind_eq_some_iff.mp h
    obtain ⟨t, ht, h⟩ := Option.bind_eq_some_iff.mp h
    obtain ⟨-, rfl⟩ := sendACK_some ht
    obtain ⟨ack, hack, rfl⟩ := Option.map_eq_some_iff.mp h
    obtain rfl := Option.some.inj hack
    exact ⟨fun hra => hbig (.inr hra), rfl⟩

lemma ackEnd_sub_rtsEnd : (exchanged cfg start p).ackEnd cfg - (exchanged cfg start p).rtsEnd = remaining cfg p := by
  change start + cfg.rtsTime + cfg.sifs + cfg.ctsTime + cfg.sifs + (dataFrame cfg p).txtime + cfg.sifs +
    cfg.ackTime - (start + cfg.rtsTime) = _
  unfold remaining
  ring

lemma ackEnd_sub_ctsEnd : (exchanged cfg start p).ackEnd cfg - (exchanged cfg start p).ctsEnd cfg =
    remaining cfg p - cfg.sifs - cfg.ctsTime := by
  change start + cfg.rtsTime + cfg.sifs + cfg.ctsTime + cfg.sifs + (dataFrame cfg p).txtime + cfg.sifs +
    cfg.ackTime - (start + cfg.rtsTime + cfg.sifs + cfg.ctsTime) = _
  unfold remaining
  ring

lemma ackEnd_sub_dataEnd : (exchanged cfg start p).ackEnd cfg - (exchanged cfg start p).dataEnd cfg =
    cfg.ackTime + cfg.sifs := by
  unfold Exchange.ackEnd
  change _ + cfg.sifs + cfg.ackTime - _ = _
  ring

lemma Overhears.nav_eq (h : Overhears cfg p time v w) : w.nav = time + sec p.duration := by
  have hreceive := h.receives
  rw [receive, if_pos h.third, setNav_eq, Option.bind_some, if_pos ⟨h.third, h.unicast⟩] at hreceive
  obtain rfl := Option.some.inj hreceive
  change max v.nav (v.now + sec p.duration) = _
  rw [h.now, max_eq_right]
  have hle := h.free
  have hpos := sec_nonneg p.duration
  linarith

lemma Overhears.nav_sub (h : Overhears cfg p time v w) (ends : ℚ) :
    w.nav - ends = sec p.duration - (ends - time) := by
  rw [h.nav_eq]
  ring

/-- There is always a station to hear a frame. -/
lemma exists_overhears (cfg : MacConfig) (hcast : p.ra ≠ MAC_BROADCAST) (time : ℚ) :
    ∃ k v w, Overhears { cfg with index := k } p time v w := by
  have hne : p.ra ≠ p.ra + 1 := by omega
  let cfg' : MacConfig := { cfg with index := p.ra + 1 }
  let v : Mac80211 := { init cfg (fun _ => 0) with now := time, nav := time }
  have hreceive : ∃ w, v.receive cfg' p = some w := by
    rw [receive, if_pos hne, setNav_eq, Option.bind_some, if_pos ⟨hne, hcast⟩]
    exact ⟨_, rfl⟩
  obtain ⟨w, hw⟩ := hreceive
  exact ⟨p.ra + 1, v, w, hne, hcast, rfl, le_rfl, hw⟩

/-- The time for which `checkPktCTRL` waits after a CTS. -/
lemma checkPktCTRL_cts {done : Bool} (hc : s.pktCTRL = some p) (hk : p.kind = .cts) (hidle : s.isIdle)
    (h : s.checkPktCTRL cfg = some (w, done)) :
    w.mhSend = ⟨true, s.now, cfg.ctsTime + DSSS_MaxPropagationDelay + sec p.duration + DSSS_MaxPropagationDelay
      - cfg.sifs - cfg.ackTime⟩ := by
  have htx : s.txState = .idle := by
    simp only [isIdle, decide_eq_true_eq] at hidle
    exact hidle.2.1
  unfold checkPktCTRL at h
  simp only [hc, hk, htx, hidle] at h
  rw [if_neg (by decide), if_neg (by simp)] at h
  obtain ⟨t, ht, h⟩ := Option.bind_eq_some_iff.mp h
  obtain ⟨u, hu, h⟩ := Option.map_eq_some_iff.mp h
  obtain ⟨rfl, -⟩ := Prod.mk.inj h
  obtain ⟨-, -, -, -, rfl⟩ := transmit_some hu
  rw [setTxState_some ht]

lemma txtime_nonneg {psz : ℕ} {drt : ℚ} (hplcp : 0 < cfg.plcpDataRate) (hdrt : 0 < drt)
    (hpsz : cfg.plcpHdrLen ≤ psz) : 0 ≤ cfg.txtime psz drt := by
  have hle : (cfg.plcpHdrLen : ℚ) ≤ psz := by exact_mod_cast hpsz
  have hbits : (0 : ℚ) ≤ (((psz : ℕ) : ℤ) - cfg.plcpHdrLen) * 8 := by
    push_cast
    linarith
  unfold MacConfig.txtime
  positivity

section Agreement
variable (hplcp : 0 < cfg.plcpDataRate) (hbasic : 0 < cfg.basicRate) (hdata : 0 < cfg.dataRate) (hsifs : 0 < cfg.sifs)
include hplcp hbasic

lemma ctsTime_nonneg : 0 ≤ cfg.ctsTime := txtime_nonneg hplcp hbasic (Nat.le_add_right _ _)

lemma ackTime_nonneg : 0 ≤ cfg.ackTime := txtime_nonneg hplcp hbasic (Nat.le_add_right _ _)

include hdata

lemma dataFrame_txtime_nonneg (p : MacFrame) : 0 ≤ (dataFrame cfg p).txtime := by
  refine txtime_nonneg hplcp ?_ ?_
  · split_ifs
    · exact hdata
    · exact hbasic
  · unfold MacConfig.hdrLen11
    omega

include hsifs

/-- As long as the rest of the exchange fits, three roundings add up to less than two microseconds. -/
lemma agrees_of_fits (h : exchange cfg s r start p = some e) (hfits : ⌊remaining cfg p * 1000000 + 1 / 2⌋ < 65536) :
    e.Agrees cfg := by
  obtain ⟨-, rfl⟩ := exchange_some h
  have hcts := ctsTime_nonneg hplcp hbasic
  have hack := ackTime_nonneg hplcp hbasic
  have htx := dataFrame_txtime_nonneg hplcp hbasic hdata p
  have hrest : remaining cfg p =
      cfg.sifs + cfg.ctsTime + cfg.sifs + (dataFrame cfg p).txtime + cfg.sifs + cfg.ackTime := rfl
  have hnearRts : |sec (usec (remaining cfg p)) - remaining cfg p| ≤ 1 / 2000000 :=
    abs_sec_usec_sub_le (by linarith) hfits
  obtain ⟨hlo, hhi⟩ := abs_le.mp hnearRts
  -- The CTS takes its duration from the rounded one of the RTS.
  let left : ℚ := sec (usec (remaining cfg p)) - cfg.sifs - cfg.ctsTime
  have hleft : left = sec (usec (remaining cfg p)) - cfg.sifs - cfg.ctsTime := rfl
  have hbound : sec (usec (remaining cfg p)) ≤ 65535 / 1000000 := sec_usec_le
  have hnearCts : |sec (usec left) - left| ≤ 1 / 2000000 := by
    refine abs_sec_usec_sub_le (by linarith) (Int.floor_lt.mpr ?_)
    push_cast
    linarith
  obtain ⟨hclo, hchi⟩ := abs_le.mp hnearCts
  have hnearData : |sec (usec (cfg.ackTime + cfg.sifs)) - (cfg.ackTime + cfg.sifs)| ≤ 1 / 2000000 :=
    abs_sec_usec_sub_le (by linarith) ((Int.floor_mono (by linarith)).trans_lt hfits)
  refine ⟨?_, ?_, ?_, ?_⟩
  · intro k v w hv
    rw [hv.nav_sub, ackEnd_sub_rtsEnd]
    exact hnearRts.trans (by norm_num)
  · intro k v w hv
    rw [hv.nav_sub, ackEnd_sub_ctsEnd]
    change |sec (usec left) - _| ≤ _
    rw [abs_le]
    constructor
    · linarith
    · linarith
  · intro k v w hv
    have hduration : (dataFrame cfg p).duration = usec (cfg.ackTime + cfg.sifs) := if_pos hv.unicast
    rw [hv.nav_sub, ackEnd_sub_dataEnd]
    change |sec (dataFrame cfg p).duration - _| ≤ _
    rw [hduration]
    exact hnearData.trans (by norm_num)
  · intro r w done hnow hc hidle hw
    rw [checkPktCTRL_cts hc rfl hidle hw]
    change (exchanged cfg start p).ctsStart cfg + cfg.ctsTime + cfg.sifs + (dataFrame cfg p).txtime ≤
      r.now + (cfg.ctsTime + DSSS_MaxPropagationDelay + sec (usec left) + DSSS_MaxPropagationDelay - cfg.sifs
        - cfg.ackTime)
    rw [hnow]
    unfold DSSS_MaxPropagationDelay
    linarith

end Agreement

/-- The RTS alone tells that the rest of the exchange fits. -/
lemma fits_of_agrees (h : exchange cfg s r start p = some e) (hagrees : e.Agrees cfg) :
    ⌊remaining cfg p * 1000000 + 1 / 2⌋ < 65536 := by
  obtain ⟨hra, rfl⟩ := exchange_some h
  have hunicast : (exchanged cfg start p).rts.ra ≠ MAC_BROADCAST := hra
  obtain ⟨k, v, w, hv⟩ := exists_overhears cfg hunicast (exchanged cfg start p).rtsEnd
  have hnear := hagrees.rts k v w hv
  rw [hv.nav_sub, ackEnd_sub_rtsEnd] at hnear
  by_contra hlarge
  have hwraps : sec (usec (remaining cfg p)) ≤ remaining cfg p - 65535 / 1000000 :=
    sec_usec_le_of_overflow (not_lt.mp hlarge)
  have hlo : -(2 / 1000000) ≤ sec (usec (remaining cfg p)) - remaining cfg p := (abs_le.mp hnear).1
  linarith

/-- The frames of an exchange agree with the end of its ACK exactly if the rest of the exchange after the RTS,
rounded to microseconds, fits into the 16 bits of the RTS. -/
theorem reservations_agree_iff (hplcp : 0 < cfg.plcpDataRate) (hbasic : 0 < cfg.basicRate) (hdata : 0 < cfg.dataRate)
    (hsifs : 0 < cfg.sifs) (h : exchange cfg s r start p = some e) :
    e.Agrees cfg ↔ ⌊remaining cfg p * 1000000 + 1 / 2⌋ < 65536 :=
  ⟨fits_of_agrees h, agrees_of_fits hplcp hbasic hdata hsifs h⟩

/-- A packet for node 2 of a number of bytes. -/
def packetOf (size : ℕ) : MacFrame := ⟨.data, 2, 1, 0, 0, 1, size, 0, false, false, 1, 10⟩

theorem reservations_agree_default :
    ∃ e, exchange .default (init .default fun _ => 0) (init .default fun _ => 0) 0 (packetOf 1000) = some e ∧
      e.Agrees .default := by
  have hexchange : exchange .default (init .default fun _ => 0) (init .default fun _ => 0) 0 (packetOf 1000) =
      some (exchanged .default 0 (packetOf 1000)) := rfl
  have hfits : ⌊remaining .default (packetOf 1000) * 1000000 + 1 / 2⌋ < 65536 := by decide +kernel
  exact ⟨_, hexchange, (reservations_agree_iff (by decide +kernel) (by decide +kernel) (by decide +kernel)
    (by decide +kernel) hexchange).mpr hfits⟩

/-- At 1 Mb/s a packet of 8192 bytes takes 66 milliseconds: the RTS reserves 1102 microseconds of the 66638 that are
left. -/
theorem long_packet_reserves_little :
    ∃ e, exchange .default (init .default fun _ => 0) (init .default fun _ => 0) 0 (packetOf 8192) = some e ∧
      e.rts.duration = 1102 ∧ e.ackEnd .default - e.rtsEnd = 66638 / 1000000 ∧ ¬e.Agrees .default := by
  have hexchange : exchange .default (init .default fun _ => 0) (init .default fun _ => 0) 0 (packetOf 8192) =
      some (exchanged .default 0 (packetOf 8192)) := rfl
  refine ⟨_, hexchange, by decide +kernel, by decide +kernel, fun hagrees => ?_⟩
  have hlarge : ¬⌊remaining .default (packetOf 8192) * 1000000 + 1 / 2⌋ < 65536 := by decide +kernel
  exact hlarge (fits_of_agrees hexchange hagrees)

end Mac80211

end NetworkSimulator
