import NetworkSimulator.Imep.InOrder

/-!
# Deliveries

The order of issue is kept by an object that comes in and by the timer that gives up holes, and so by every
event. What is asked of an object depends on the last packet that was handed up and on what waits.
-/

namespace NetworkSimulator.Imep

open Library DstQueue

/-- Packet `n` is treated as what it is when `L` was the last one to be handed up: it is not so old that it
looks new, the link does not count as one without a delivery, and no packet after 255 is looked for. -/
structure Passes (L n : ℕ) (W : List (Txent ℕ)) : Prop where
  recent : n ≤ L → (L - n) % 256 ≤ 128
  valid : L % 256 = 0 → L < n ∧ ∀ u ∈ W, n < u.pkt
  wrap : n = L + 1 ∨ L % 256 = 0 → ¬Crosses n W

/-- The packets to be looked at are those that wait. -/
lemma crosses_iff {m : ℕ} {W : List (Txent ℕ)} :
    Crosses m W ↔ ∃ v ∈ W, m < v.pkt ∧ v.pkt % 256 = 0 ∧ ∀ k < v.pkt - m, ∃ u ∈ W, u.pkt = m + k + 1 := by
  constructor
  · rintro ⟨w, hle, hw, hall⟩
    obtain ⟨v, hv, hpkt⟩ := hall (w + 1) (by omega) le_rfl
    refine ⟨v, hv, by omega, by omega, fun k hk => ?_⟩
    exact hall (m + k + 1) (by omega) (by omega)
  · rintro ⟨v, hv, hlt, hz, hall⟩
    refine ⟨v.pkt - 1, by omega, by omega, fun i h₁ h₂ => ?_⟩
    obtain ⟨u, hu, hpkt⟩ := hall (i - m - 1) (by omega)
    exact ⟨u, hu, by omega⟩

instance (m : ℕ) (W : List (Txent ℕ)) : Decidable (Crosses m W) := decidable_of_iff' _ crosses_iff

instance (L n : ℕ) (W : List (Txent ℕ)) : Decidable (Passes L n W) :=
  decidable_of_iff ((n ≤ L → (L - n) % 256 ≤ 128) ∧ (L % 256 = 0 → L < n ∧ ∀ u ∈ W, n < u.pkt) ∧
      (n = L + 1 ∨ L % 256 = 0 → ¬Crosses n W))
    ⟨fun h => ⟨h.1, h.2.1, h.2.2⟩, fun h => ⟨h.recent, h.valid, h.wrap⟩⟩

lemma Passes.nil {L n : ℕ} {W : List (Txent ℕ)} (h : Passes L n W) : Passes L n [] :=
  ⟨h.recent, fun hz => ⟨(h.valid hz).1, by simp⟩, fun hn hc => h.wrap hn (hc.mono (by simp))⟩

namespace Agent

variable {s s' t : Agent ℕ} {x y : ℤ} {now : ℚ} {L n : ℕ}

lemma last_raises (h : Raises x s s') : last x s' = last x s := by rw [last, last, h.handed]

lemma Raises.passes {W : List (Txent ℕ)} (h : Raises x s s') (hw : W = waiting x s) (hp : Passes L n W) :
    Passes L n (waiting x s') := by
  subst hw
  rcases h.waiting with hw | hw
  · rw [hw]
    exact hp
  · rw [hw]
    exact hp.nil

lemma handed_eq_nil (h : last x s = none) : handed x s.calls = [] := List.getLast?_eq_none_iff.mp h

/-- A packet that is later than all that have been handed up, and earlier than all that wait. -/
lemma Ordered.ahead (h : Ordered x s) (hz : s.lastSeq x = 0)
    (hpass : ∀ L ∈ last x s, Passes L n (waiting x s)) :
    (∀ m ∈ handed x s.calls, m < n) ∧ Window n (waiting x s) ∧ ¬Crosses n (waiting x s) := by
  cases hl : last x s with
  | none =>
    have hnil := handed_eq_nil hl
    rw [hnil, (h.fresh hnil).2]
    refine ⟨by simp, Window.nil, fun ⟨w, hw, _, hall⟩ => ?_⟩
    obtain ⟨t, ht, -⟩ := hall (n + 1) (Nat.lt_succ_self n) (by omega)
    cases ht
  | some L =>
    have hzero : L % 256 = 0 := by rw [← h.lastSeq L hl, hz]
    have hp := hpass L hl
    obtain ⟨hlt, hall⟩ := hp.valid hzero
    exact ⟨fun m hm => lt_of_le_of_lt (le_last h.increasing hl m hm) hlt, (h.window L hl).advance hlt.le hall,
      hp.wrap (.inr hzero)⟩

/-- An object of `x` comes in. -/
lemma object_spec {ob : ObjectBlock ℕ} (h : Ordered x s) (hup : s.status x ≠ LINK_DOWN)
    (hseq : ob.sequence = ob.pkt % 256) (hnear : ∀ L ∈ last x s, ob.pkt < L + 64)
    (hpass : ∀ L ∈ last x s, Passes L ob.pkt (waiting x s)) : Ordered x (s.imep_object_input now x ob) := by
  unfold imep_object_input
  extract_lets s₁ s₂ s₃
  have hr : Raises x s s₁ := raises_ack_object
  have h₁ : Ordered x s₁ := h.frame hr.toFrame hr.stays
  have hup₁ : s₁.status x ≠ LINK_DOWN := hr.stays hup
  have hnear₁ : ∀ L ∈ last x s₁, ob.pkt < L + 64 := by
    rw [last_raises hr]
    exact hnear
  have hpass₁ : ∀ L ∈ last x s₁, Passes L ob.pkt (waiting x s₁) := by
    rw [last_raises hr]
    exact fun L hL => hr.passes rfl (hpass L hL)
  have hfuel : ∀ t : Agent ℕ, (waiting x t).length ≤ t.incomingQ.size := fun t => size_entry_le x t.incomingQ
  by_cases hz : s₁.lastSeq x = 0
  · -- the object counts as the first one
    have hs₂ : s₂ = s₁.setLink x fun l => { l with lastSeq := (ob.sequence + 255) % 256 } := if_pos hz
    have hup₂ : s₂.status x ≠ LINK_DOWN := by
      rw [hs₂, status_lastSeq]
      exact hup₁
    have hlast₂ : s₂.lastSeq x = (ob.sequence + 255) % 256 := by
      have hself : (s₁.setLink x fun l => { l with lastSeq := (ob.sequence + 255) % 256 }).findLink x =
          (s₁.findLink x).map fun l => { l with lastSeq := (ob.sequence + 255) % 256 } :=
        findLink_setLink_self fun _ => rfl
      obtain ⟨l, hl⟩ := Option.isSome_iff_exists.mp (findLink_isSome_of_status hup₁)
      rw [hs₂, lastSeq_eq, hself, hl]
      rfl
    have hreg : reg ob.sequence (s₂.lastSeq x) = 1 := by
      rw [hlast₂, hseq]
      unfold reg
      rw [Int.bmod_def]
      split_ifs <;> omega
    obtain ⟨hlt, hwin, hcross⟩ := h₁.ahead hz hpass₁
    have hcalls₂ : s₂.calls = s₁.calls := by rw [hs₂, calls_setLink]
    have hq₂ : s₂.incomingQ = s₁.incomingQ := by rw [hs₂, incomingQ_setLink]
    have hstand : Stand x ob.pkt s₃ := by
      have hs₃ : s₃ = ({ s₂ with incomingQ := s₂.incomingQ }.setLink x fun l => { l with lastSeq := ob.sequence }).call
          (.imep_object_process x ob.pkt) := if_pos hreg
      have ha₂ : Apart s₂.incomingQ := by
        rw [hq₂]
        exact h₁.apart
      have hinc₂ : (handed x s₂.calls).Pairwise (· < ·) := by
        rw [hcalls₂]
        exact h₁.increasing
      have hlt₂ : ∀ m ∈ handed x s₂.calls, m < ob.pkt := by
        rw [hcalls₂]
        exact hlt
      have hwin₂ : Window ob.pkt (entry x s₂.incomingQ).txents := by
        rw [hq₂]
        exact hwin
      rw [hs₃]
      exact handUp ha₂ hinc₂ hlt₂ hup₂ (fun _ _ => hseq) hwin₂
    have hq₃ : s₃.incomingQ = s₁.incomingQ := by
      dsimp only [s₃]
      rw [if_pos hreg, incomingQ_setLink, incomingQ_call, hq₂]
    rw [if_neg (by omega)]
    exact hstand.ordered (hfuel s₃) (by rw [waiting, hq₃]; exact hcross)
  · obtain ⟨L, hL⟩ : ∃ L, last x s₁ = some L := by
      refine last_of_handed fun hnil => hz (h₁.fresh hnil).1
    have hs₂ : s₂ = s₁ := if_neg hz
    have hreg : reg ob.sequence (s₂.lastSeq x) = Int.bmod (ob.pkt - L) 256 := by
      rw [hs₂, h₁.lastSeq L hL, hseq, reg_eq]
    have hn := hnear₁ L hL
    have hp := hpass₁ L hL
    rcases lt_trichotomy ob.pkt (L + 1) with hold | hnext | hlater
    · have hle : reg ob.sequence (s₂.lastSeq x) ≤ 0 := by
        have hrec := hp.recent (by omega)
        rw [hreg, Int.bmod_def]
        split_ifs <;> omega
      rw [if_pos hle, hs₂]
      exact h₁
    · have hone : reg ob.sequence (s₂.lastSeq x) = 1 := by
        rw [hreg, bmod_small (by omega) (by omega)]
        omega
      rw [if_neg (by omega)]
      have hs₃ : s₃ = ({ s₁ with incomingQ := s₁.incomingQ }.setLink x fun l => { l with lastSeq := ob.sequence }).call
          (.imep_object_process x ob.pkt) := by
        dsimp only [s₃]
        rw [if_pos hone, hs₂]
        rfl
      have hwin : Window ob.pkt (waiting x s₁) := by
        refine (h₁.window L hL).advance (by omega) fun u hu => ?_
        have ha := (h₁.window L hL).ahead u hu
        have hne := h₁.next L hL u hu
        omega
      have hstand : Stand x ob.pkt s₃ := by
        rw [hs₃]
        refine handUp h₁.apart h₁.increasing (fun m hm => ?_) hup₁ (fun _ _ => hseq) hwin
        have hle := le_last h₁.increasing hL m hm
        omega
      refine hstand.ordered (hfuel s₃) ?_
      rw [hs₃]
      exact hp.wrap (.inl hnext)
    · have hgt : reg ob.sequence (s₂.lastSeq x) = ob.pkt - L := by
        rw [hreg, bmod_small (by omega) (by omega)]
      rw [if_neg (by omega)]
      have hs₃ : s₃ = { s₁ with incomingQ := s₁.incomingQ.addEntry x (now + MAX_RETRANS_TIME) ob.sequence ob.pkt } := by
        dsimp only [s₃]
        rw [if_neg (by omega), hs₂]
      have hadd := Dstent.addEntry_window (d := entry x s₁.incomingQ) (e := now + MAX_RETRANS_TIME) (h₁.window L hL)
        (show L < ob.pkt by omega) hn
      have hwait : waiting x s₃ =
          ((entry x s₁.incomingQ).addEntry (now + MAX_RETRANS_TIME) (ob.pkt % 256) ob.pkt).txents := by
        rw [hs₃, waiting, entry_addEntry_self, hseq]
      have hstand : Stand x L s₃ := by
        refine ⟨?_, ?_, ?_, ?_, ?_, ?_⟩
        · rw [hs₃]
          exact apart_addEntry h₁.apart _ _ _ _
        · rw [hs₃]
          exact h₁.increasing
        · rw [hs₃]
          exact hL
        · rw [hs₃]
          exact hup₁
        · rw [hs₃]
          exact h₁.lastSeq L hL
        · rw [hwait]
          exact hadd.1
      refine hstand.ordered (hfuel s₃) fun hcross => ?_
      obtain ⟨w, hw, -, hall⟩ := hcross
      obtain ⟨u, hu, hpkt⟩ := hall (L + 1) (Nat.lt_succ_self L) (by omega)
      rw [hwait] at hu
      rcases hadd.2 u hu with heq | hu
      · omega
      · exact h₁.next L hL u hu hpkt

/-! ### Holes that are given up -/

/-- Between two packets that `getNextPacket` hands out, when `L` was the last one to be handed up. -/
structure Mid (now : ℚ) (L : ℕ) (d : Dstent ℕ) : Prop where
  /-- Only packets in front of one that is due are left to the next turn. -/
  next : ∀ t ∈ d.txents, t.pkt = L + 1 → d.seqno = ILLEGAL_SEQ ∧ ∃ u ∈ d.txents, u.expire ≤ now
  chain : d.seqno ≠ ILLEGAL_SEQ → ∃ p, d.seqno = p % 256 ∧ p ≤ L ∧ L < p + 64
  wrap : ∀ u ∈ d.txents, u.expire ≤ now → ¬Crosses u.pkt d.txents

lemma Mid.turn {d d' : Dstent ℕ} (h : Mid now L d) (ht : Turn now d d' none) : Mid now L d' := by
  cases ht with
  | skipped => exact h
  | held _ => exact ⟨fun u hu hpkt => ⟨rfl, (h.next u hu hpkt).2⟩, fun hne => absurd rfl hne, h.wrap⟩

/-- When no packet is handed out any more, none is the next one. -/
lemma Mid.done {d : Dstent ℕ} (h : Mid now L d) (hheld : d.txents = [] ∨ d.Held now) :
    ∀ u ∈ d.txents, u.pkt ≠ L + 1 := by
  intro u hu hpkt
  obtain ⟨hseq, v, hv, hexp⟩ := h.next u hu hpkt
  rcases hheld with hnil | ⟨-, hall⟩ | ⟨-, -, -, -, hne, -⟩
  · rw [hnil] at hu
    cases hu
  · exact absurd (hall v hv) (not_lt.mpr hexp)
  · exact hne hseq

/-- The chain that is being pulled does not come to a packet that is not due. -/
lemma Mid.not_chain {d : Dstent ℕ} {t : Txent ℕ} {ts : List (Txent ℕ)} (h : Mid now L d) (hw : Window L d.txents)
    (htx : d.txents = t :: ts) (hseq : d.seqno ≠ ILLEGAL_SEQ) : t.seqno ≠ (d.seqno + 1) % 256 := by
  intro heq
  have ht : t ∈ d.txents := by
    rw [htx]
    exact List.mem_cons_self
  obtain ⟨p, hp, hle, hlt⟩ := h.chain hseq
  have hs := hw.seqno t ht
  have ha := hw.ahead t ht
  have hn := hw.near t ht
  exact hseq (h.next t ht (by omega)).1

/-- A packet that has been pulled is handed up, and then those that follow it. -/
lemma Mid.pulled {d d' : Dstent ℕ} {t : Txent ℕ} {ts front : List (Txent ℕ)} {seqno : ℕ} (h : Mid now L d)
    (hw : Window L d.txents) (htx : d.txents = t :: ts) (hp : d.Pulled now t seqno) (hseq : d'.seqno = seqno)
    (hsplit : ts = front ++ d'.txents) (hrun : ∀ i, t.pkt < i → i ≤ t.pkt + n → ∃ u ∈ front, u.pkt = i)
    (hfront : ∀ u ∈ front, u.pkt ≤ t.pkt + n)
    (hwrap : ∀ u ∈ d'.txents, u.pkt = t.pkt + n + 1 → (t.pkt + n) % 256 = 255) : Mid now (t.pkt + n) d' := by
  have htmem : t ∈ d.txents := by
    rw [htx]
    exact List.mem_cons_self
  have hsub : ∀ u ∈ ts, u ∈ d.txents := by
    rw [htx]
    exact fun u hu => List.mem_cons_of_mem t hu
  -- after a packet that is due, the next one has been handed up
  have hcross : ∀ u ∈ d.txents, u.expire ≤ now → t.pkt ≤ u.pkt → u.pkt ≤ t.pkt + n →
      ∀ v ∈ d'.txents, v.pkt ≠ t.pkt + n + 1 := by
    intro u hu hexp h₁ h₂ v hv hpkt
    have hc : Crosses u.pkt ts := by
      rw [hsplit]
      exact crosses_of_front hrun hv hpkt (hwrap v hv hpkt) h₁ h₂
    exact h.wrap u hu hexp (hc.mono hsub)
  have hkeep : ∀ u ∈ d'.txents, u ∈ ts := by
    rw [hsplit]
    exact fun u hu => List.mem_append_right front hu
  have hmono : ∀ u ∈ d'.txents, u.expire ≤ now → ¬Crosses u.pkt d'.txents := fun u hu hexp hc =>
    h.wrap u (hsub u (hkeep u hu)) hexp (hc.mono fun v hv => hsub v (hkeep v hv))
  rcases hp with ⟨hexp, hs⟩ | ⟨-, hne, hs, -⟩ | ⟨hgt, -, hs, u, hu, hexp⟩
  · refine ⟨fun v hv hpkt => absurd hpkt (hcross t htmem hexp le_rfl (Nat.le_add_right _ n) v hv), fun _ => ?_, hmono⟩
    refine ⟨t.pkt, by rw [hseq, hs, hw.seqno t htmem], Nat.le_add_right _ n, ?_⟩
    by_cases hn : n = 0
    · omega
    · obtain ⟨u, hu, hpkt⟩ := hrun (t.pkt + n) (by omega) le_rfl
      have hnear := hw.near u (hsub u (by rw [hsplit]; exact List.mem_append_left _ hu))
      have ha := hw.ahead t htmem
      omega
  · exact absurd hs (h.not_chain hw htx hne)
  · refine ⟨fun v hv hpkt => ⟨hseq.trans hs, ?_⟩, fun hne => absurd (hseq.trans hs) hne, hmono⟩
    have huts : u ∈ ts := by
      rw [htx] at hu
      rcases List.mem_cons.mp hu with rfl | hu
      · exact absurd hexp (not_le.mpr hgt)
      · exact hu
    have hlt : t.pkt ≤ u.pkt := by
      have hsorted := hw.sorted
      rw [htx] at hsorted
      exact (List.rel_of_pairwise_cons hsorted huts).le
    rw [hsplit] at huts
    rcases List.mem_append.mp huts with hmem | hmem
    · exact absurd hpkt (hcross u hu hexp hlt (hfront u hmem) v hv)
    · exact ⟨u, hmem, hexp⟩

/-- What holds for neighbour `x` while holes are given up. -/
def Retiring (x : ℤ) (now : ℚ) (s : Agent ℕ) : Prop :=
  (Ordered x s ∧ handed x s.calls = []) ∨ ∃ L, Stand x L s ∧ Mid now L (entry x s.incomingQ)

lemma Retiring.other (h : Retiring x now s) (hr : Raises x s s')
    (ht : Turn now (entry x s.incomingQ) (entry x s'.incomingQ) none) : Retiring x now s' := by
  rcases h with ⟨h, hnil⟩ | ⟨L, h, hm⟩
  · exact .inl ⟨h.frame hr.toFrame hr.stays, by rw [hr.handed, hnil]⟩
  · exact .inr ⟨L, h.raises hr, hm.turn ht⟩

lemma Retiring.apart (h : Retiring x now s) : Apart s.incomingQ := by
  rcases h with ⟨h, -⟩ | ⟨L, h, -⟩
  · exact h.apart
  · exact h.apart

/-- What the loop of `handlerIncomingTimer` does with a packet. -/
def retired (s : Agent ℕ) (q : DstQueue ℕ) (y : ℤ) (t : Txent ℕ) : Agent ℕ :=
  ((({ s with incomingQ := q }.call (.rtNotifyLinkDN y)).call (.rtNotifyLinkUP y)).setLink y
    fun l => { l with lastSeq := t.seqno % 256 }).call (.imep_object_process y t.pkt)

lemma retired_other {q : DstQueue ℕ} {u : Txent ℕ} (ha : Apart s.incomingQ)
    (hq : s.incomingQ.getNextPacket now = (q, some (y, u))) (hx : x ≠ y) (fuel : ℕ) :
    Raises x s ((retired s q y u).deliver y fuel) ∧
      Turn now (entry x s.incomingQ) (entry x ((retired s q y u).deliver y fuel).incomingQ) none := by
  obtain ⟨hips, hturn⟩ := getNextPacket_some ha hq
  have ht := hturn x
  rw [if_neg hx] at ht
  have htx : (entry x q).txents = waiting x s := by
    unfold waiting
    generalize entry x q = d at ht
    cases ht with
    | skipped => rfl
    | held _ => rfl
  have hqr : Raises x s { s with incomingQ := q } := raises_queue htx fun ha => by
    unfold Apart
    rw [hips]
    exact ha
  have hr : Raises x s (retired s q y u) :=
    (((hqr.trans (raises_call rfl)).trans (raises_call rfl)).trans (raises_lastSeq_of_ne hx _)).trans
      (raises_process_of_ne hx u.pkt)
  obtain ⟨hd, he⟩ : Raises x (retired s q y u) ((retired s q y u).deliver y fuel) ∧
      entry x ((retired s q y u).deliver y fuel).incomingQ = entry x q := deliver_of_ne hx
  refine ⟨hr.trans hd, ?_⟩
  rw [he]
  exact ht

lemma retired_self {q : DstQueue ℕ} {u : Txent ℕ} {fuel : ℕ} (h : Retiring x now s)
    (hq : s.incomingQ.getNextPacket now = (q, some (x, u))) (hfuel : q.size ≤ fuel) :
    Retiring x now ((retired s q x u).deliver x fuel) := by
  have ha := h.apart
  obtain ⟨hips, hturn⟩ := getNextPacket_some ha hq
  have ht := hturn x
  rw [if_pos rfl] at ht
  obtain ⟨ts, seqno, htx, hp, hd⟩ : ∃ ts seqno, (entry x s.incomingQ).txents = u :: ts ∧
      (entry x s.incomingQ).Pulled now u seqno ∧
      entry x q = { entry x s.incomingQ with seqno := seqno, txents := ts } := by
    generalize entry x q = d at ht
    cases ht with
    | pulled htx hp => exact ⟨_, _, htx, hp, rfl⟩
  rcases h with ⟨h, hnil⟩ | ⟨L, h, hm⟩
  · have hw := (h.fresh hnil).2
    rw [waiting, htx] at hw
    cases hw
  · have hr : Raises x s ((s.call (.rtNotifyLinkDN x)).call (.rtNotifyLinkUP x)) :=
      (raises_call rfl).trans (raises_call rfl)
    have hs := h.raises hr
    have hw := h.window
    have humem : u ∈ waiting x s := by
      rw [waiting, htx]
      exact List.mem_cons_self
    have hwin : Window u.pkt (entry x q).txents := by
      rw [hd]
      rw [waiting, htx] at hw
      exact hw.after_head
    have hapart : Apart q := by
      unfold Apart
      rw [hips]
      exact ha
    have hstand : Stand x u.pkt (retired s q x u) := by
      refine handUp (s := (s.call (.rtNotifyLinkDN x)).call (.rtNotifyLinkUP x)) hapart hs.increasing (fun m hm => ?_)
        hs.up (fun l _ => ?_) hwin
      · exact lt_of_le_of_lt (le_last hs.increasing hs.last m hm) (hw.ahead u humem)
      · rw [hw.seqno u humem, Nat.mod_mod]
    have hlen : (waiting x (retired s q x u)).length ≤ fuel := (size_entry_le x q).trans hfuel
    obtain ⟨n, front, hs', hsplit, hrun, hle, hseq, hwrap⟩ := hstand.deliver hlen
    refine .inr ⟨u.pkt + n, hs', hm.pulled hw htx hp (hseq.trans ?_) ?_ hrun hle hwrap⟩
    · change (entry x q).seqno = seqno
      rw [hd]
    · change (entry x q).txents = _ at hsplit
      rw [hd] at hsplit
      exact hsplit

/-- The timer gives up holes until no packet is due, and leaves none behind that is the next one. -/
lemma ordered_retireHoles {fuel : ℕ} (h : Retiring x now s) (hfuel : s.incomingQ.size < fuel)
    (hs : s.retireHoles now fuel = some s') : Ordered x s' := by
  induction fuel generalizing s with
  | zero => exact absurd hfuel (Nat.not_lt_zero _)
  | succ fuel ih =>
    unfold retireHoles at hs
    split at hs
    next q hq =>
      obtain rfl := Option.some.inj hs
      obtain ⟨hips, hall⟩ := getNextPacket_none hq
      obtain ⟨hturn, hheld⟩ := hall x
      have htx : (entry x q).txents = waiting x s := by
        unfold waiting
        generalize entry x q = d at hturn
        cases hturn with
        | skipped => rfl
        | held _ => rfl
      have hr : Raises x s { s with incomingQ := q } := raises_queue htx fun ha => by
        unfold Apart
        rw [hips]
        exact ha
      rcases h with ⟨h, -⟩ | ⟨L, h, hm⟩
      · exact h.frame hr.toFrame hr.stays
      · refine (h.raises hr).toOrdered ?_
        change ∀ u ∈ (entry x q).txents, u.pkt ≠ L + 1
        rw [htx]
        exact hm.done hheld
    next q y u hq =>
      split_ifs at hs
      have hsize := DstQueue.size_getNextPacket hq
      refine ih (s := (retired s q y u).deliver y (retired s q y u).incomingQ.size) ?_ ?_ hs
      · by_cases hx : x = y
        · subst hx
          exact retired_self h hq le_rfl
        · obtain ⟨hr, ht⟩ := retired_other h.apart hq hx (retired s q y u).incomingQ.size
          exact h.other hr ht
      · refine lt_of_le_of_lt size_deliver ?_
        change q.size < fuel
        omega

lemma ordered_incoming (h : Ordered x s) (hi : s.incomingQ.Idle)
    (hc : ∀ u ∈ waiting x s, u.expire ≤ now → ¬Crosses u.pkt (waiting x s)) (hs : s.handlerIncomingTimer now = some s') :
    Ordered x s' := by
  simp only [handlerIncomingTimer, Option.bind_eq_bind, Option.bind_eq_some_iff] at hs
  obtain ⟨t, ht, hs⟩ := hs
  split_ifs at hs
  obtain rfl := Option.some.inj hs
  refine ordered_retireHoles ?_ (Nat.lt_succ_self _) ht
  cases hl : last x s with
  | none => exact .inl ⟨h, handed_eq_nil hl⟩
  | some L =>
    have hidle : (entry x s.incomingQ).seqno = ILLEGAL_SEQ := by
      unfold entry
      cases hf : s.incomingQ.findEntry x with
      | none => rfl
      | some d => exact hi d (List.mem_of_find?_eq_some hf)
    exact .inr ⟨L, h.stand hl, fun u hu hpkt => absurd hpkt (h.next L hl u hu), fun hne => absurd hidle hne, hc⟩

/-! ### Runs -/

lemma raises_ack_input {p : Incoming ℕ} : Raises x s (s.imep_ack_input now p) := by
  unfold imep_ack_input
  exact List.foldlRecOn (motive := Raises x s) _ _ raises_refl fun t ht _ _ => ht.trans raises_ack

lemma raises_hello_input {p : Incoming ℕ} : Raises x s (s.imep_hello_input now p) := by
  unfold imep_hello_input
  split_ifs
  · exact raises_bi
  · exact raises_refl

/-- The link to `x` is not declared down. -/
def StaysUp (x : ℤ) (s : Agent ℕ) (e : Event ℕ) : Prop :=
  ∀ r ∈ s.step e, s.status x ≠ LINK_DOWN → r.1.status x ≠ LINK_DOWN

/-- The objects of `x` carry the numbers of their issue, and fewer than 64 have not been handed up. -/
def Numbering (x : ℤ) (s : Agent ℕ) : Event ℕ → Prop
  | .recv _ p => p.saddr = x → ∀ ob ∈ p.object, ob.sequence = ob.pkt % 256 ∧ ∀ L ∈ last x s, ob.pkt < L + 64
  | _ => True

/-- None of the slips of the code is met. -/
def Unslipped (x : ℤ) (s : Agent ℕ) : Event ℕ → Prop
  | .recv _ p => p.saddr = x → ∀ ob ∈ p.object, ∀ L ∈ last x s, Passes L ob.pkt (waiting x s)
  | .incomingTimer now => ∀ u ∈ waiting x s, u.expire ≤ now → ¬Crosses u.pkt (waiting x s)
  | _ => True

instance (x : ℤ) (s : Agent ℕ) (e : Event ℕ) : Decidable (StaysUp x s e) :=
  inferInstanceAs (Decidable (∀ r ∈ s.step e, s.status x ≠ LINK_DOWN → r.1.status x ≠ LINK_DOWN))

instance (x : ℤ) (s : Agent ℕ) : ∀ e, Decidable (Numbering x s e)
  | .recv _ p =>
    inferInstanceAs (Decidable (p.saddr = x → ∀ ob ∈ p.object, ob.sequence = ob.pkt % 256 ∧
      ∀ L ∈ last x s, ob.pkt < L + 64))
  | .aggregateObject _ _ | .beaconTimer _ | .rexmitTimer _ | .incomingTimer _ | .undeliverable _ _ =>
    inferInstanceAs (Decidable True)

instance (x : ℤ) (s : Agent ℕ) : ∀ e, Decidable (Unslipped x s e)
  | .recv _ p =>
    inferInstanceAs (Decidable (p.saddr = x → ∀ ob ∈ p.object, ∀ L ∈ last x s, Passes L ob.pkt (waiting x s)))
  | .incomingTimer now =>
    inferInstanceAs (Decidable (∀ u ∈ waiting x s, u.expire ≤ now → ¬Crosses u.pkt (waiting x s)))
  | .aggregateObject _ _ | .beaconTimer _ | .rexmitTimer _ | .undeliverable _ _ => inferInstanceAs (Decidable True)

lemma ordered_recv {p : Incoming ℕ} (h : Ordered x s) (hn : Numbering x s (.recv now p))
    (hp : Unslipped x s (.recv now p)) : Ordered x (s.recv_incoming now p) := by
  unfold recv_incoming
  extract_lets s₁ s₂ s₃
  have hr₁ : Raises x s s₁ := raises_in
  have hr₂ : Raises x s₁ s₂ := raises_ack_input
  have hr₃ : Raises x s₁ s₃ := hr₂.trans raises_hello_input
  have hr := hr₁.trans hr₃
  have h₃ : Ordered x s₃ := h.frame hr.toFrame hr.stays
  split_ifs
  · have hr' : Raises x s (s₁.call (.sendHello p.saddr)) := hr₁.trans (raises_call rfl)
    exact h.frame hr'.toFrame hr'.stays
  · split
    · exact h₃
    next ob hob =>
      by_cases hx : x = p.saddr
      · subst hx
        obtain ⟨hseq, hnear⟩ := hn rfl ob hob
        refine object_spec h₃ (hr₃.stays status_in_self) hseq ?_ ?_
        · rw [last_raises hr]
          exact hnear
        · rw [last_raises hr]
          exact fun L hL => hr.passes rfl (hp rfl ob hob L hL)
      · have hr' : Raises x s₃ (s₃.imep_object_input now p.saddr ob) := raises_object_of_ne hx
        exact h₃.frame hr'.toFrame hr'.stays

lemma step_ordered {e : Event ℕ} {o : Unit} (h : Ordered x s) (hi : s.incomingQ.Idle) (hup : StaysUp x s e)
    (hn : Numbering x s e) (hp : Unslipped x s e) (hs : s.step e = some (s', o)) : Ordered x s' := by
  have hstay : s.status x ≠ LINK_DOWN → s'.status x ≠ LINK_DOWN := hup (s', o) hs
  cases e with
  | recv now p =>
    obtain ⟨rfl, -⟩ := Prod.mk.inj (Option.some.inj hs)
    exact ordered_recv h hn hp
  | aggregateObject now found =>
    obtain ⟨rfl, -⟩ := Prod.mk.inj (Option.some.inj hs)
    exact h.frame raises_aggregate.toFrame hstay
  | beaconTimer now =>
    obtain ⟨rfl, -⟩ := Prod.mk.inj (Option.some.inj hs)
    exact h.frame lowers_beacon.toFrame hstay
  | rexmitTimer now =>
    obtain ⟨rfl, -⟩ := Prod.mk.inj (Option.some.inj hs)
    exact h.frame lowers_rexmit.toFrame hstay
  | incomingTimer now =>
    obtain ⟨t, ht, he⟩ := Option.map_eq_some_iff.mp hs
    obtain ⟨rfl, -⟩ := Prod.mk.inj he
    exact ordered_incoming h hi hp ht
  | undeliverable inet nextHop =>
    obtain ⟨rfl, -⟩ := Prod.mk.inj (Option.some.inj hs)
    unfold imepPacketUndeliverable at hstay ⊢
    split_ifs at hstay ⊢
    · exact h.frame lowers_down.toFrame hstay
    · exact h

lemma start_ordered (ipaddr x : ℤ) : Ordered x ({ ipaddr } : Agent ℕ) where
  apart := List.nodup_nil
  increasing := List.Pairwise.nil
  fresh _ := ⟨rfl, rfl⟩
  up L hL := by cases hL
  lastSeq L hL := by cases hL
  window L hL := by cases hL
  next L hL := by cases hL

/-- The objects of a neighbour whose link is not declared down are handed up in the order of issue, each at
most once, and none waits after its predecessor, as long as none of the slips is met. -/
theorem resequencing_run {ipaddr x : ℤ} {es : List (Event ℕ)} {t : Agent ℕ} {os : List Unit}
    (h : run step { ipaddr } es = some (t, os)) (hup : EachStep step (StaysUp x) { ipaddr } es)
    (hn : EachStep step (Numbering x) { ipaddr } es) (hp : EachStep step (Unslipped x) { ipaddr } es) :
    (handed x t.calls).Pairwise (· < ·) ∧ ∀ u ∈ waiting x t, ∀ n ∈ handed x t.calls, u.pkt ≠ n + 1 := by
  have hend := EachStep.invariant (fun s e s' o (hs : Ordered x s ∧ s.incomingQ.Idle) hP hstep =>
    ⟨step_ordered hs.1 hs.2 hP.1.1 hP.1.2 hP.2 hstep, step_idle hs.2 hstep⟩) ((hup.and hn).and hp)
    ⟨start_ordered ipaddr x, fun d hd => by cases hd⟩ h
  exact ⟨hend.1.increasing, hend.1.no_predecessor⟩

/-- The `n`-th packet of neighbour 2. -/
def issued (n : ℕ) : Event ℕ := .recv 0 { saddr := 2, object := some { sequence := n % 256, pkt := n } }

/-- One packet comes late and twice, and one does not come at all. -/
theorem resequencing_run_late :
    ∃ t : Agent ℕ, ∃ os, run step { ipaddr := 1 } [issued 1, issued 3, issued 2, issued 2, issued 5, .incomingTimer 2] =
        some (t, os) ∧ handed 2 t.calls = [1, 2, 3, 5] ∧
      (handed 2 t.calls).Pairwise (· < ·) ∧ ∀ u ∈ waiting 2 t, ∀ n ∈ handed 2 t.calls, u.pkt ≠ n + 1 := by
  obtain ⟨t, os, hP, hrun, hQ⟩ : ∃ t : Agent ℕ, ∃ os,
      EachStep step (fun s e => StaysUp 2 s e ∧ Numbering 2 s e ∧ Unslipped 2 s e) { ipaddr := 1 }
        [issued 1, issued 3, issued 2, issued 2, issued 5, .incomingTimer 2] ∧
      run step { ipaddr := 1 } [issued 1, issued 3, issued 2, issued 2, issued 5, .incomingTimer 2] = some (t, os) ∧
        handed 2 t.calls = [1, 2, 3, 5] :=
    run_guarded_of (fun (t : Agent ℕ) _ => handed 2 t.calls = [1, 2, 3, 5]) (by decide +kernel)
  have hup : EachStep step (StaysUp 2) _ _ := hP.gives (fun _ _ _ _ _ _ _ => trivial) (fun _ _ _ h => h.1) trivial
  have hn : EachStep step (Numbering 2) _ _ := hP.gives (fun _ _ _ _ _ _ _ => trivial) (fun _ _ _ h => h.2.1) trivial
  have hp : EachStep step (Unslipped 2) _ _ := hP.gives (fun _ _ _ _ _ _ _ => trivial) (fun _ _ _ h => h.2.2) trivial
  exact ⟨t, os, hrun, hQ, resequencing_run hrun hup hn hp⟩

/-- After packet 256, whose sequence number is 0, a second copy of packet 255 counts as a first object. -/
theorem resequencing_repeated :
    ∃ t : Agent ℕ, ∃ os, EachStep step (fun s e => StaysUp 2 s e ∧ Numbering 2 s e) { ipaddr := 1 }
        [issued 255, issued 256, issued 255] ∧
      run step { ipaddr := 1 } [issued 255, issued 256, issued 255] = some (t, os) ∧
      handed 2 t.calls = [255, 256, 255] ∧ ¬(handed 2 t.calls).Pairwise (· < ·) :=
  run_guarded_of (fun (t : Agent ℕ) _ => handed 2 t.calls = [255, 256, 255] ∧ ¬(handed 2 t.calls).Pairwise (· < ·))
    (by decide +kernel)

end Agent
end NetworkSimulator.Imep
