import NetworkSimulator.Mac.SenderOrder

/-!
# Retransmission in the MAC

How often the frames of one packet are sent. `RetransmitDATA` takes a packet of exactly `RTSThreshold_` bytes for a
short one and counts with `ssrc_`, but it is sent after an RTS, and the CTS resets `ssrc_`.
-/

namespace NetworkSimulator

open Library

/-- The DATA frames of the packet in line, and the RTS since it came or since the last CTS. -/
structure Tally where
  data : ℕ
  rts : ℕ

namespace Sender
variable {cfg : MacConfig} {s t : Sender} {p : MacFrame} {k : Tally} {r : Report} {q : Option MacFrame} {i : MacInput}

/-- The tally after a move; a new packet has a new sequence number. -/
def tally (k : Tally) (s t : Sender) (r : Report) : Tally :=
  if t.staSeqno = s.staSeqno then
    ⟨k.data + r.frames.countP (·.kind = .data),
      if r.cleared = [] then k.rts + r.frames.countP (·.kind = .rts) else 0⟩
  else ⟨0, 0⟩

/-- What the counters say about the DATA frames of a packet. -/
def counter (cfg : MacConfig) (s : Sender) (p : MacFrame) : ℕ :=
  if p.ra = MAC_BROADCAST then 0 else if p.size ≤ cfg.rtsThreshold then s.ssrc else s.slrc

/-- A frame of the kind that is being sent counts although its time has not run out. -/
def underWay (s : Sender) (x : MacState) : ℕ := if s.txState = x then 1 else 0

/-- Whether a packet with its MAC header is not exactly as long as the threshold. -/
def OffThreshold (cfg : MacConfig) (p : MacFrame) : Prop :=
  p.ra ≠ MAC_BROADCAST → p.size = cfg.rtsThreshold → cfg.shortRetryLimit = 1

instance (cfg : MacConfig) (p : MacFrame) : Decidable (OffThreshold cfg p) := inferInstanceAs (Decidable (_ → _))

structure Counted (cfg : MacConfig) (s : Sender) (k : Tally) : Prop where
  short : s.ssrc < cfg.shortRetryLimit
  long : s.slrc < cfg.longRetryLimit
  data_le : k.data ≤ max cfg.shortRetryLimit cfg.longRetryLimit
  rts_le : k.rts ≤ cfg.shortRetryLimit
  off : ∀ p ∈ s.pktTx, OffThreshold cfg p
  rts : ∀ p ∈ s.pktTx, k.rts ≤ s.ssrc + s.underWay .rts
  data : ∀ p ∈ s.pktTx, k.data ≤ counter cfg s p + s.underWay .send

/-- The packet is given up, and the upper layer hears of it once. -/
structure GivesUp (cfg : MacConfig) (p : MacFrame) (s t : Sender) (r : Report) : Prop where
  failed : r.failed = if p.xmitFailure then [Mac80211.stripped cfg p] else []
  gone : t.pktTx = none ∨ t.staSeqno ≠ s.staSeqno

/-- The packet stays in line. -/
structure Retries (p : MacFrame) (s t : Sender) (r : Report) : Prop where
  failed : r.failed = []
  kept : t.pktTx = some p ∧ t.staSeqno = s.staSeqno

lemma counter_lt (h : Counted cfg s k) (p : MacFrame) :
    counter cfg s p < max cfg.shortRetryLimit cfg.longRetryLimit := by
  have hs := h.short
  have hl := h.long
  unfold counter
  split_ifs
  all_goals omega

lemma underWay_le (s : Sender) (x : MacState) : s.underWay x ≤ 1 := by
  unfold underWay
  split_ifs
  · exact le_rfl
  · exact Nat.zero_le 1

lemma underWay_pos {x : MacState} (hx : s.txState = x) : s.underWay x = 1 := if_pos hx

lemma underWay_zero {x : MacState} (hx : s.txState ≠ x) : s.underWay x = 0 := if_neg hx

/-! ## Resuming -/

/-- Counting for a packet that has just come. -/
lemma Counted.fresh (hs : s.ssrc < cfg.shortRetryLimit) (hl : s.slrc < cfg.longRetryLimit)
    (hoff : ∀ p ∈ s.pktTx, OffThreshold cfg p) : Counted cfg s ⟨0, 0⟩ where
  short := hs
  long := hl
  data_le := Nat.zero_le _
  rts_le := Nat.zero_le _
  off := hoff
  rts _ _ := Nat.zero_le _
  data _ _ := Nat.zero_le _

/-- What has to be known before `tx_resume`. -/
structure Settled (cfg : MacConfig) (s : Sender) (k : Tally) : Prop where
  short : s.ssrc < cfg.shortRetryLimit
  long : s.slrc < cfg.longRetryLimit
  data_le : k.data ≤ max cfg.shortRetryLimit cfg.longRetryLimit
  rts_le : k.rts ≤ cfg.shortRetryLimit
  off : ∀ p ∈ s.pktTx, OffThreshold cfg p
  rts : ∀ p ∈ s.pktTx, k.rts ≤ s.ssrc
  data : ∀ p ∈ s.pktTx, k.data ≤ counter cfg s p

lemma Resumes.counted (h : Resumes cfg q s t) (hs : Settled cfg s k)
    (hq : ∀ p ∈ q, OffThreshold cfg (Mac80211.dataFrame cfg p)) :
    Counted cfg t (if t.staSeqno = s.staSeqno then k else ⟨0, 0⟩) := by
  obtain ⟨hssrc, hslrc, hx, hcase⟩ := h.packet
  rcases hcase with ⟨hsame, htx⟩ | ⟨-, hnew, p, hp, htx⟩
  · rw [if_pos hsame]
    refine ⟨hssrc ▸ hs.short, hslrc ▸ hs.long, hs.data_le, hs.rts_le, htx ▸ hs.off, fun p hp => ?_, fun p hp => ?_⟩
    · rw [htx] at hp
      rw [hssrc]
      exact Nat.le_add_right_of_le (hs.rts p hp)
    · rw [htx] at hp
      have hcounter : counter cfg t p = counter cfg s p := by rw [counter, counter, hssrc, hslrc]
      rw [hcounter]
      exact Nat.le_add_right_of_le (hs.data p hp)
  · rw [if_neg hnew]
    refine .fresh (hssrc ▸ hs.short) (hslrc ▸ hs.long) fun p' hp' => ?_
    obtain rfl := Option.some.inj (htx.symm.trans hp')
    exact hq p hp

/-- Between the frames nothing is under way. -/
lemma Counted.settled (h : Counted cfg s k) (hr : s.txState ≠ .rts) (hd : s.txState ≠ .send) : Settled cfg s k where
  short := h.short
  long := h.long
  data_le := h.data_le
  rts_le := h.rts_le
  off := h.off
  rts p hp := by simpa [underWay_zero hr] using h.rts p hp
  data p hp := by simpa [underWay_zero hd] using h.data p hp

/-- With the packet gone only the limits matter. -/
lemma Counted.gone (h : Counted cfg s k) {u : Sender} (hp : u.pktTx = none) (hs : u.ssrc ≤ s.ssrc)
    (hl : u.slrc ≤ s.slrc) : Settled cfg u k where
  short := hs.trans_lt h.short
  long := hl.trans_lt h.long
  data_le := h.data_le
  rts_le := h.rts_le
  off p h := by simp [hp] at h
  rts p h := by simp [hp] at h
  data p h := by simp [hp] at h

/-! ## One move -/

lemma tally_quiet (k : Tally) (s t : Sender) (failed : List MacFrame) :
    tally k s t ⟨[], failed, []⟩ = if t.staSeqno = s.staSeqno then k else ⟨0, 0⟩ := rfl

lemma Expires.settled {failed : List MacFrame} (h : Expires cfg s failed t) (hk : Counted cfg s k) :
    Settled cfg t k ∧ t.staSeqno = s.staSeqno := by
  cases h with
  | rtsFailed hx hr hp hb hlimit => exact ⟨hk.gone rfl (Nat.zero_le _) le_rfl, rfl⟩
  | rtsAgain hx hr hp hb hlimit =>
    refine ⟨⟨hlimit, hk.long, hk.data_le, hk.rts_le, hk.off, fun p hp => ?_, fun p hp => ?_⟩, rfl⟩
    · have hle := hk.rts p hp
      rwa [underWay_pos hx] at hle
    · have hle := hk.data p hp
      rw [underWay_zero (by simp [hx])] at hle
      refine hle.trans ?_
      unfold counter
      dsimp only
      split_ifs
      all_goals omega
  | broadcast hx hr hp hb hra => exact ⟨hk.gone rfl le_rfl le_rfl, rfl⟩
  | shortFailed hx hr hp hb hra hsize hlimit => exact ⟨hk.gone rfl (Nat.zero_le _) le_rfl, rfl⟩
  | @shortAgain p hx hr hp hb hra hsize hlimit =>
    refine ⟨⟨hlimit, hk.long, hk.data_le, hk.rts_le, hk.off, fun p' hp' => ?_, fun p' hp' => ?_⟩, rfl⟩
    · have hle := hk.rts p' hp'
      rw [underWay_zero (by simp [hx])] at hle
      exact Nat.le_succ_of_le hle
    · obtain rfl : p = p' := Option.some.inj (hp.symm.trans hp')
      have hle := hk.data p hp'
      rw [underWay_pos hx, counter, if_neg hra, if_pos hsize] at hle
      rwa [counter, if_neg hra, if_pos hsize]
  | longFailed hx hr hp hb hra hsize hlimit => exact ⟨hk.gone rfl le_rfl (Nat.zero_le _), rfl⟩
  | @longAgain p hx hr hp hb hra hsize hlimit =>
    refine ⟨⟨hk.short, hlimit, hk.data_le, hk.rts_le, hk.off, fun p' hp' => ?_, fun p' hp' => ?_⟩, rfl⟩
    · have hle := hk.rts p' hp'
      rwa [underWay_zero (by simp [hx])] at hle
    · obtain rfl : p = p' := Option.some.inj (hp.symm.trans hp')
      have hle := hk.data p hp'
      rw [underWay_pos hx, counter, if_neg hra, if_neg hsize] at hle
      rwa [counter, if_neg hra, if_neg hsize]
  | control hx hc =>
    have hne : s.txState ≠ .rts ∧ s.txState ≠ .send := by
      rcases hx with hx | hx
      · exact ⟨fun h => absurd (hx.symm.trans h) (by decide), fun h => absurd (hx.symm.trans h) (by decide)⟩
      · exact ⟨fun h => absurd (hx.symm.trans h) (by decide), fun h => absurd (hx.symm.trans h) (by decide)⟩
    have hset := hk.settled hne.1 hne.2
    exact ⟨⟨hset.short, hset.long, hset.data_le, hset.rts_le, hset.off, hset.rts, hset.data⟩, rfl⟩
  | idle hx =>
    have hset := hk.settled (by simp [hx]) (by simp [hx])
    exact ⟨⟨hset.short, hset.long, hset.data_le, hset.rts_le, hset.off, hset.rts, hset.data⟩, rfl⟩

/-- A control frame changes nothing that is counted. -/
lemma Counted.control (hk : Counted cfg s k) {x : MacState} {c : MacFrame} (hx : s.txState = .idle)
    (hc : c.kind = .cts ∨ c.kind = .ack) :
    Counted cfg { s with deferring := false, txState := x, sending := true }
      (tally k s { s with deferring := false, txState := x, sending := true } ⟨[c], [], []⟩) := by
  have htally : tally k s { s with deferring := false, txState := x, sending := true } ⟨[c], [], []⟩ = k := by
    rcases hc with hc | hc
    · simp [tally, hc]
    · simp [tally, hc]
  have hset := hk.settled (by simp [hx]) (by simp [hx])
  rw [htally]
  exact ⟨hk.short, hk.long, hk.data_le, hk.rts_le, hk.off, fun p hp => Nat.le_add_right_of_le (hset.rts p hp),
    fun p hp => Nat.le_add_right_of_le (hset.data p hp)⟩

lemma Attempts.counted {frames : List MacFrame} (h : Attempts s cfg frames t) (hk : Counted cfg s k)
    (hstock : Stocked cfg s) (hx : s.txState = .idle) : Counted cfg t (tally k s t ⟨frames, [], []⟩) := by
  have hset := hk.settled (by simp [hx]) (by simp [hx])
  cases h with
  | nothing hr hp =>
    rw [tally_quiet, if_pos rfl]
    exact hk
  | rtsWaits hr =>
    rw [tally_quiet, if_pos rfl]
    exact ⟨hk.short, hk.long, hk.data_le, hk.rts_le, hk.off, hk.rts, hk.data⟩
  | dataWaits hr hp =>
    rw [tally_quiet, if_pos rfl]
    exact ⟨hk.short, hk.long, hk.data_le, hk.rts_le, hk.off, hk.rts, hk.data⟩
  | @rts p hr hx hsend =>
    have hkind := (hstock.announced p hr).1
    have htally : tally k s { s with txState := .rts, sending := true } ⟨[p], [], []⟩ = ⟨k.data, k.rts + 1⟩ := by
      simp [tally, hkind]
    obtain ⟨tx, htx⟩ := Option.isSome_iff_exists.mp (hstock.rts_tx (by simp [hr]))
    rw [htally]
    exact ⟨hk.short, hk.long, hk.data_le, (hset.rts tx htx).trans_lt hk.short, hk.off,
      fun p hp => Nat.add_le_add_right (hset.rts p hp) 1, fun p hp => Nat.le_add_right_of_le (hset.data p hp)⟩
  | @data p hr hp hx hsend =>
    have hkind := hstock.framed p hp
    have htally : tally k s { s with txState := .send, sending := true } ⟨[p], [], []⟩ = ⟨k.data + 1, k.rts⟩ := by
      simp [tally, hkind]
    rw [htally]
    exact ⟨hk.short, hk.long, (hset.data p hp).trans_lt (counter_lt hk p), hk.rts_le, hk.off,
      fun p hp => Nat.le_add_right_of_le (hset.rts p hp), fun p hp => Nat.add_le_add_right (hset.data p hp) 1⟩

/-- The tally and the counters go together in every move. -/
theorem Move.counted (h : Move cfg q s i r t) (hs : Orderly cfg s) (hk : Counted cfg s k)
    (hq : ∀ p ∈ q, OffThreshold cfg (Mac80211.dataFrame cfg p))
    (hi : ∀ p, i = .send p → OffThreshold cfg (Mac80211.dataFrame cfg p)) : Counted cfg t (tally k s t r) := by
  have hidle (hx : s.txState = .idle) : Settled cfg s k :=
    hk.settled (fun h => absurd (hx.symm.trans h) (by decide)) fun h => absurd (hx.symm.trans h) (by decide)
  cases h with
  | stays hi =>
    rw [Report.none, tally_quiet, if_pos rfl]
    exact hk
  | accepts ht =>
    obtain ⟨hnew, hssrc, hslrc, htx⟩ := ht.packet
    rw [tally, if_neg hnew]
    refine .fresh (hssrc ▸ hk.short) (hslrc ▸ hk.long) fun p' hp' => ?_
    obtain rfl := Option.some.inj (htx.symm.trans hp')
    exact hi _ rfl
  | answersRTS hx hsend hc hkind ht =>
    have hset := hidle hx
    rw [Report.none, tally_quiet]
    exact ht.counted ⟨hset.short, hset.long, hset.data_le, hset.rts_le, hset.off, hset.rts, hset.data⟩ hq
  | @cleared t c hx hr hp hsend hd ht =>
    have hle : ∀ p ∈ s.pktTx, k.data ≤ counter cfg { s with ssrc := 0 } p := by
      intro p hp
      have hle := hk.data p hp
      rw [underWay_zero (by simp [hx])] at hle
      obtain ⟨rts, hrts⟩ := Option.isSome_iff_exists.mp hr
      obtain ⟨-, p', hp', hbig⟩ := hs.announced rts hrts
      obtain rfl : p = p' := Option.some.inj (hp.symm.trans hp')
      have hshort := hk.short
      have hoff := hk.off p hp
      unfold Small at hbig
      unfold counter at hle ⊢
      unfold OffThreshold at hoff
      split_ifs at hle ⊢ with hra hsize
      · exact hle
      · have hlimit := hoff hra (by omega)
        dsimp only
        omega
      · exact hle
    have hset : Settled cfg { s with pktRTS := none, ssrc := 0, sending := false } ⟨k.data, 0⟩ :=
      ⟨(Nat.zero_le _).trans_lt hk.short, hk.long, hk.data_le, Nat.zero_le _, hk.off, fun _ _ => le_rfl, hle⟩
    exact ht.counted hset hq
  | afterCTS hx hc hsend hd hkind ht =>
    have hset := hk.settled (by simp [hx]) (by simp [hx])
    rw [Report.none, tally_quiet]
    exact ht.counted ⟨hset.short, hset.long, hset.data_le, hset.rts_le, hset.off, hset.rts, hset.data⟩ hq
  | ackWaits hc hsend hkind =>
    rw [Report.none, tally_quiet, if_pos rfl]
    exact ⟨hk.short, hk.long, hk.data_le, hk.rts_le, hk.off, hk.rts, hk.data⟩
  | acks hc hsend hd hkind ht =>
    have hset := hidle (not_not.mp (mt hs.sending.mpr hsend))
    rw [Report.none, tally_quiet]
    exact ht.counted ⟨hset.short, hset.long, hset.data_le, hset.rts_le, hset.off, hset.rts, hset.data⟩ hq
  | acked hx hp hsend hd hb ht =>
    rw [Report.none, tally_quiet]
    refine ht.counted (hk.gone rfl ?_ ?_) hq
    · dsimp only
      split_ifs
      · exact Nat.zero_le _
      · exact le_rfl
    · dsimp only
      split_ifs
      · exact le_rfl
      · exact Nat.zero_le _
  | expires hsend hd hu ht =>
    obtain ⟨hset, hseq⟩ := hu.settled ⟨hk.short, hk.long, hk.data_le, hk.rts_le, hk.off, hk.rts, hk.data⟩
    rw [tally_quiet]
    have hnext := ht.counted hset hq
    rwa [hseq] at hnext
  | dropsCTS hd hc hkind =>
    rw [Report.none, tally_quiet, if_pos rfl]
    exact ⟨hk.short, hk.long, hk.data_le, hk.rts_le, hk.off, hk.rts, hk.data⟩
  | sendsCTS hd hc hkind hx hsend =>
    exact hk.control hx (.inl hkind)
  | sendsACK hd hc hkind hsend => exact hk.control (hs.resting hd) (.inr hkind)
  | defers hd hc hb ht =>
    exact ht.counted ⟨hk.short, hk.long, hk.data_le, hk.rts_le, hk.off, hk.rts, hk.data⟩
      ⟨hs.announced, hs.framed, hs.called⟩ (hs.resting hd)
  | backsOff hb hc ht =>
    exact ht.counted ⟨hk.short, hk.long, hk.data_le, hk.rts_le, hk.off, hk.rts, hk.data⟩
      ⟨hs.announced, hs.framed, hs.called⟩ (hs.idle_of_backoff hb hc)
  | yields hb hc ht =>
    rw [Report.none, tally_quiet, if_pos rfl]
    exact ⟨hk.short, hk.long, hk.data_le, hk.rts_le, hk.off, hk.rts, hk.data⟩

/-- How an event ends the wait for an answer to the packet in line. -/
structure Concludes (cfg : MacConfig) (s : Sender) (k : Tally) (i : MacInput) (r : Report) (t : Sender) : Prop where
  unanswered : i = .fire .send → s.txState = .rts ∨ s.txState = .send → ∀ p ∈ s.pktTx, p.ra ≠ MAC_BROADCAST →
    Retries p s t r ∧ (s.txState = .rts → k.rts < cfg.shortRetryLimit) ∧
        (s.txState = .send → k.data < max cfg.shortRetryLimit cfg.longRetryLimit) ∨
      GivesUp cfg p s t r
  silent : r.failed ≠ [] →
    i = .fire .send ∧ (s.txState = .rts ∨ s.txState = .send) ∧ ∃ p ∈ s.pktTx, p.ra ≠ MAC_BROADCAST

lemma Concludes.other (hi : i ≠ .fire .send) (hr : r.failed = []) : Concludes cfg s k i r t :=
  ⟨fun h => absurd h hi, fun h => absurd hr h⟩

lemma Resumes.gone (h : Resumes cfg q s t) (hp : s.pktTx = none) : t.pktTx = none ∨ t.staSeqno ≠ s.staSeqno := by
  obtain ⟨-, -, -, ⟨-, htx⟩ | ⟨-, hnew, -⟩⟩ := h.packet
  · exact .inl (htx.trans hp)
  · exact .inr hnew

lemma Resumes.kept (h : Resumes cfg q s t) (hp : s.pktTx = some p) :
    t.pktTx = some p ∧ t.staSeqno = s.staSeqno := by
  obtain ⟨-, -, -, ⟨hseq, htx⟩ | ⟨hnone, -⟩⟩ := h.packet
  · exact ⟨htx.trans hp, hseq⟩
  · simp [hp] at hnone

/-- When no answer comes the packet is tried again below the limits and given up at them. -/
theorem Move.concludes (h : Move cfg q s i r t) (hs : Orderly cfg s) (hk : Counted cfg s k) :
    Concludes cfg s k i r t := by
  cases h with
  | stays hi => exact .other hi rfl
  | accepts ht => exact .other nofun rfl
  | answersRTS hx hsend hc hkind ht => exact .other nofun rfl
  | cleared hx hr hp hsend hd ht => exact .other nofun rfl
  | afterCTS hx hc hsend hd hkind ht => exact .other nofun rfl
  | ackWaits hc hsend hkind => exact .other nofun rfl
  | acks hc hsend hd hkind ht => exact .other nofun rfl
  | acked hx hp hsend hd hb ht => exact .other nofun rfl
  | dropsCTS hd hc hkind => exact .other nofun rfl
  | sendsCTS hd hc hkind hx hsend => exact .other nofun rfl
  | sendsACK hd hc hkind hsend => exact .other nofun rfl
  | defers hd hc hb ht => exact .other nofun rfl
  | backsOff hb hc ht => exact .other nofun rfl
  | yields hb hc ht => exact .other nofun rfl
  | expires hsend hd hu ht =>
    cases hu with
    | @rtsFailed p hx hr hp hb hlimit =>
      obtain ⟨rts, hrts⟩ := Option.isSome_iff_exists.mp hr
      obtain ⟨-, p', hp', hbig⟩ := hs.announced rts hrts
      obtain rfl : p = p' := Option.some.inj (hp.symm.trans hp')
      refine ⟨fun _ _ p' hp' _ => ?_, fun _ => ⟨rfl, .inl hx, p, hp, fun hra => hbig (.inr hra)⟩⟩
      obtain rfl : p = p' := Option.some.inj (hp.symm.trans hp')
      exact .inr ⟨rfl, ht.gone rfl⟩
    | rtsAgain hx hr hp hb hlimit =>
      refine ⟨fun _ _ p hp _ => .inl ⟨⟨rfl, ht.kept hp⟩, fun _ => ?_, fun h => ?_⟩, fun h => absurd rfl h⟩
      · have hle := hk.rts p hp
        rw [underWay_pos (s := s) hx] at hle
        exact hle.trans_lt hlimit
      · exact absurd (hx.symm.trans h) (by decide)
    | @broadcast p hx hr hp hb hra =>
      refine ⟨fun _ _ p' hp' hra' => ?_, fun h => absurd rfl h⟩
      obtain rfl : p = p' := Option.some.inj (hp.symm.trans hp')
      exact absurd hra hra'
    | @shortFailed p hx hr hp hb hra hsize hlimit =>
      refine ⟨fun _ _ p' hp' _ => ?_, fun _ => ⟨rfl, .inr hx, p, hp, hra⟩⟩
      obtain rfl : p = p' := Option.some.inj (hp.symm.trans hp')
      exact .inr ⟨rfl, ht.gone rfl⟩
    | @shortAgain p hx hr hp hb hra hsize hlimit =>
      refine ⟨fun _ _ p' hp' _ => .inl ⟨⟨rfl, ht.kept hp'⟩, fun h => ?_, fun _ => ?_⟩, fun h => absurd rfl h⟩
      · exact absurd (hx.symm.trans h) (by decide)
      · obtain rfl : p = p' := Option.some.inj (hp.symm.trans hp')
        have hle := hk.data p hp
        rw [underWay_pos (s := s) hx, counter, if_neg hra, if_pos hsize] at hle
        exact (hle.trans_lt hlimit).trans_le (le_max_left _ _)
    | @longFailed p hx hr hp hb hra hsize hlimit =>
      refine ⟨fun _ _ p' hp' _ => ?_, fun _ => ⟨rfl, .inr hx, p, hp, hra⟩⟩
      obtain rfl : p = p' := Option.some.inj (hp.symm.trans hp')
      exact .inr ⟨rfl, ht.gone rfl⟩
    | @longAgain p hx hr hp hb hra hsize hlimit =>
      refine ⟨fun _ _ p' hp' _ => .inl ⟨⟨rfl, ht.kept hp'⟩, fun h => ?_, fun _ => ?_⟩, fun h => absurd rfl h⟩
      · exact absurd (hx.symm.trans h) (by decide)
      · obtain rfl : p = p' := Option.some.inj (hp.symm.trans hp')
        have hle := hk.data p hp
        rw [underWay_pos (s := s) hx, counter, if_neg hra, if_neg hsize] at hle
        exact (hle.trans_lt hlimit).trans_le (le_max_right _ _)
    | control hx hc =>
      refine ⟨fun _ h => ?_, fun h => absurd rfl h⟩
      rcases hx with hx | hx
      · simp [show s.txState = .cts from hx] at h
      · simp [show s.txState = .ack from hx] at h
    | idle hx =>
      refine ⟨fun _ h => ?_, fun h => absurd rfl h⟩
      simp [show s.txState = .idle from hx] at h

end Sender

namespace Mac80211
variable {cfg : MacConfig}

/-- The MAC, and beside it the tally of the packet in line. -/
def tallied (cfg : MacConfig) (s : Mac80211 × Tally) (ev : MacEvent) :
    Option ((Mac80211 × Tally) × List MacOutput) :=
  (step cfg s.1 ev).map fun r => ((r.1, Sender.tally s.2 s.1.sender r.1.sender (report r.2.reverse)), r.2)

/-- No packet for one node is exactly as long as the threshold. -/
def AvoidsThreshold (cfg : MacConfig) (ev : MacEvent) : Prop :=
  ∀ p ∈ ev.handed, Sender.OffThreshold cfg (dataFrame cfg p)

instance (cfg : MacConfig) (ev : MacEvent) : Decidable (AvoidsThreshold cfg ev) :=
  inferInstanceAs (Decidable (∀ _ ∈ _, _))

structure Accounted (cfg : MacConfig) (s : Mac80211 × Tally) : Prop where
  orderly : Sender.Orderly cfg s.1.sender
  counted : Sender.Counted cfg s.1.sender s.2

lemma tallied_step {s t : Mac80211 × Tally} {ev : MacEvent} {o : List MacOutput} (hs : Accounted cfg s)
    (hp : Possible s.1 ev ∧ AvoidsThreshold cfg ev) (h : tallied cfg s ev = some (t, o)) :
    Accounted cfg t ∧ Sender.Concludes cfg s.1.sender s.2 ev.input (report o.reverse) t.1.sender := by
  obtain ⟨⟨u, o'⟩, hu, hpair⟩ := Option.map_eq_some_iff.mp h
  obtain ⟨rfl, rfl⟩ := Prod.mk.inj hpair
  have hmove := step_move hp.1.fires hu
  exact ⟨⟨hmove.orderly hs.orderly, hmove.counted hs.orderly hs.counted (fun p h => hp.2 p (MacEvent.mem_handed (.inl h)))
    fun p h => hp.2 p (MacEvent.mem_handed (.inr h))⟩, hmove.concludes hs.orderly hs.counted⟩

/-- Retransmission is bounded in every run in which no packet is exactly as long as the threshold. -/
theorem retries_run (hS : 1 ≤ cfg.shortRetryLimit) (hL : 1 ≤ cfg.longRetryLimit) (random : ℕ → ℕ)
    {evs : List MacEvent} {ev : MacEvent} {s t : Mac80211 × Tally} {os : List (List MacOutput)} {o : List MacOutput}
    (hposs : EachStep (tallied cfg) (fun s ev => Possible s.1 ev ∧ AvoidsThreshold cfg ev)
      (init cfg random, ⟨0, 0⟩) (evs ++ [ev]))
    (hrun : run (tallied cfg) (init cfg random, ⟨0, 0⟩) evs = some (s, os)) (hstep : tallied cfg s ev = some (t, o)) :
    t.2.data ≤ max cfg.shortRetryLimit cfg.longRetryLimit ∧ t.2.rts ≤ cfg.shortRetryLimit ∧
      Sender.Concludes cfg s.1.sender s.2 ev.input (report o.reverse) t.1.sender := by
  have hinit : Accounted cfg (init cfg random, ⟨0, 0⟩) :=
    ⟨orderly_init random, .fresh hS hL (by simp [init, sender])⟩
  have hs : Accounted cfg s := hposs.left.invariant (fun _ _ _ _ hs hp h => (tallied_step hs hp h).1) hinit hrun
  obtain ⟨ht, hconcludes⟩ := tallied_step hs (hposs.right hrun).1 hstep
  exact ⟨ht.counted.data_le, ht.counted.rts_le, hconcludes⟩

def packet200 : MacFrame := ⟨.data, 2, 1, 0, 0, 1, 142, 0, false, true, 0, 0⟩

/-- The first packet of a node after its DIFS, with the default threshold. -/
theorem retries_run_first : ∃ s t os o,
    run (tallied .default) (init .default fun _ => 0, ⟨0, 0⟩) [⟨0, .send packet200, none⟩] = some (s, os) ∧
      tallied .default s ⟨50 / 1000000, .fire .backoff, none⟩ = some (t, o) ∧ t.2.data ≤ 7 ∧ t.2.rts ≤ 7 ∧
      Sender.Concludes .default s.1.sender s.2 (.fire .backoff) (report o.reverse) t.1.sender := by
  obtain ⟨⟨s, os⟩, hrun⟩ := Option.isSome_iff_exists.mp (show (run (tallied .default)
    (init .default fun _ => 0, ⟨0, 0⟩) [⟨0, .send packet200, none⟩]).isSome by decide +kernel)
  have hguarded : ((run (guarded (tallied .default) fun s ev => Possible s.1 ev ∧ AvoidsThreshold .default ev)
      (init .default fun _ => 0, ⟨0, 0⟩)
      ([⟨0, .send packet200, none⟩] ++ [⟨50 / 1000000, .fire .backoff, none⟩])).map fun _ => decide True) =
        some true := by decide +kernel
  obtain ⟨t, os', hposs, hwhole, -⟩ := run_guarded_of (fun _ _ => True) hguarded
  rw [run_append_of_run hrun] at hwhole
  obtain ⟨⟨t', os''⟩, hlast, -⟩ := Option.map_eq_some_iff.mp hwhole
  obtain ⟨u, o, -, hstep, -, -⟩ := run_cons_inv hlast
  exact ⟨s, u, os, o, hrun, hstep, retries_run (by decide) (by decide) (fun _ => 0) hposs hrun hstep⟩

/-- The limits are 2 and 1, and a packet has exactly 200 bytes with its header. -/
def thresholdConfig : MacConfig :=
  { MacConfig.default with rtsThreshold := 200, shortRetryLimit := 2, longRetryLimit := 1 }

/-- From a time on an RTS is sent and answered, the DATA frame is sent and its ACK does not come. -/
def unansweredCycle (us : ℕ) : List MacEvent :=
  [⟨sec (us + 50), .fire .backoff, none⟩,
    ⟨sec (us + 402), .fire .interface, none⟩,
    ⟨sec (us + 412), .recv (ctsFrame thresholdConfig 1 2000), none⟩,
    ⟨sec (us + 716), .fire .recv, none⟩,
    ⟨sec (us + 726), .fire .defer, none⟩,
    ⟨sec (us + 2326), .fire .interface, none⟩,
    ⟨sec (us + 2644), .fire .send, none⟩]

theorem retransmitted_beyond_limits : ∃ s os,
    EachStep (tallied thresholdConfig) (fun s ev => Possible s.1 ev) (init thresholdConfig fun _ => 0, ⟨0, 0⟩)
        (⟨0, .send packet200, none⟩ :: unansweredCycle 0 ++ unansweredCycle 2644 ++ unansweredCycle 5288) ∧
      run (tallied thresholdConfig) (init thresholdConfig fun _ => 0, ⟨0, 0⟩)
        (⟨0, .send packet200, none⟩ :: unansweredCycle 0 ++ unansweredCycle 2644 ++ unansweredCycle 5288) =
          some (s, os) ∧
      ¬s.2.data ≤ max thresholdConfig.shortRetryLimit thresholdConfig.longRetryLimit :=
  run_guarded_of (fun (s : Mac80211 × Tally) _ =>
    ¬s.2.data ≤ max thresholdConfig.shortRetryLimit thresholdConfig.longRetryLimit) (by decide +kernel)

end Mac80211

end NetworkSimulator
