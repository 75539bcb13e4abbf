import NetworkSimulator.Satellite.HdlcBuffer
import Mathlib.Algebra.Order.Ring.Int
import Mathlib.Data.List.Basic

/-!
# HDLC delivers in order

The packets that an agent hands up are a prefix of those that its peer has accepted, in either mode. What is known
of one agent is stated against the packets the other one has accepted and the next packet that it waits for.
-/

namespace NetworkSimulator
open Library

variable {α : Type*} {cfg : HdlcConfig}

namespace ARQstate
variable {a a' : ARQstate α} {r : ARQstate α × List (HdlcOutput α)}

/-- The next packet in order. -/
def expected (cfg : HdlcConfig) (a : ARQstate α) : ℤ := if cfg.selRepeat then a.nextpkt else max 0 a.recvSeqno

lemma ackSeqno_le : a.ackSeqno cfg ≤ a.expected cfg := by
  unfold ackSeqno expected
  split
  · exact le_rfl
  · exact le_max_right _ _

lemma expected_newEntry : (newEntry cfg : ARQstate α).expected cfg = 0 := by
  unfold expected
  split <;> rfl

lemma Agrees.expected (h : a'.Agrees a) : a'.expected cfg = a.expected cfg := by
  unfold ARQstate.expected
  rw [h.nextpkt, h.recvSeqno]

/-- The slot of a packet is its own as long as the packets are less than a window apart. -/
lemma slot_inj {q q' : ℤ} (h : slot q = slot q') (hlt : q - q' < HDLC_MWS) (hlt' : q' - q < HDLC_MWS) : q = q' := by
  unfold slot HDLC_MWS at h
  unfold HDLC_MWS at hlt hlt'
  omega

/-- The sending side: `acc` has been accepted, and the peer waits for the packet `e`. -/
structure SendSide (a : ARQstate α) (acc : List α) (e : ℤ) : Prop where
  seqno : a.seqno = acc.length
  sendBuf : ∀ p ∈ a.sendBuf, 0 ≤ p.1 ∧ acc[p.1.toNat]? = some p.2
  high : a.highestAck + 1 ≤ e

/-- The receiving side: `ups` has been handed up of `acc`, and what is ahead is in its slot. -/
structure RecvSide (cfg : HdlcConfig) (a : ARQstate α) (acc ups : List α) : Prop where
  nonneg : 0 ≤ a.expected cfg
  length : a.expected cfg ≤ acc.length
  ups : ups = acc.take (a.expected cfg).toNat
  seen : cfg.selRepeat → ∀ k p, a.seen k = some p →
    ∃ q, a.nextpkt ≤ q ∧ q < a.nextpkt + HDLC_MWS ∧ q ≤ a.maxseen ∧ k = slot q ∧ acc[q.toNat]? = some p
  maxseen : cfg.selRepeat → a.nextpkt ≤ max 0 (a.maxseen + 1)

/-- A frame in flight from an agent with entry `a`; the other one has `high` as its highest acknowledgement. -/
def FrameSound (cfg : HdlcConfig) (a : ARQstate α) (acc : List α) (high : ℤ) : HdlcFrame α → Prop
  | .i rseq seq p => rseq ≤ a.expected cfg ∧ 0 ≤ seq ∧ acc[seq.toNat]? = some p ∧ seq ≤ a.highestAck + cfg.wnd
  | .s .rr rseq => rseq ≤ a.expected cfg
  | .s .srej seqno => seqno ≤ high + cfg.wnd
  | _ => True

variable {acc accP ups : List α} {e high : ℤ} {f : HdlcFrame α}

lemma get_of_prefix {acc' : List α} {k : ℕ} {p : α} (hacc : acc <+: acc') (hk : acc[k]? = some p) :
    acc'[k]? = some p := by
  obtain ⟨hlt, rfl⟩ := List.getElem?_eq_some_iff.mp hk
  exact List.prefix_iff_getElem?.mp hacc k hlt

lemma FrameSound.mono {acc' : List α} {high' : ℤ} (hf : a.FrameSound cfg acc high f)
    (hexp : a.expected cfg ≤ a'.expected cfg) (hhigh : a.highestAck ≤ a'.highestAck) (hacc : acc <+: acc')
    (hpeer : high ≤ high') : a'.FrameSound cfg acc' high' f := by
  cases f with
  | i rseq seq p =>
    obtain ⟨hr, hpos, hp, hwnd⟩ := hf
    exact ⟨hr.trans hexp, hpos, get_of_prefix hacc hp, by omega⟩
  | s stype seq =>
    cases stype with
    | rr => exact le_trans hf hexp
    | srej =>
      have : seq ≤ high + cfg.wnd := hf
      show seq ≤ high' + cfg.wnd
      omega
    | rej => trivial
    | rnr => trivial
  | u => trivial

lemma SendSide.congr (h : a.SendSide acc e) (hs : a'.seqno = a.seqno) (hh : a'.highestAck = a.highestAck)
    (hb : a'.sendBuf = a.sendBuf) : a'.SendSide acc e :=
  ⟨hs.trans h.seqno, by rw [hb]; exact h.sendBuf, hh ▸ h.high⟩

lemma SendSide.mono {e' : ℤ} (h : a.SendSide acc e) (he : e ≤ e') : a.SendSide acc e' :=
  ⟨h.seqno, h.sendBuf, h.high.trans he⟩

lemma RecvSide.congr (h : a.RecvSide cfg acc ups) (hr : a'.recvSeqno = a.recvSeqno) (hn : a'.nextpkt = a.nextpkt)
    (hm : a'.maxseen = a.maxseen) (hs : a'.seen = a.seen) : a'.RecvSide cfg acc ups := by
  have hexp : a'.expected cfg = a.expected cfg := by
    unfold expected
    rw [hr, hn]
  refine ⟨hexp ▸ h.nonneg, hexp ▸ h.length, hexp ▸ h.ups, ?_, ?_⟩
  · rw [hs, hn, hm]
    exact h.seen
  · rw [hn, hm]
    exact h.maxseen

lemma RecvSide.mono {acc' : List α} (h : a.RecvSide cfg acc ups) (hacc : acc <+: acc') : a.RecvSide cfg acc' ups where
  nonneg := h.nonneg
  length := h.length.trans (by exact_mod_cast hacc.length_le)
  ups := by
    have hlen := h.length
    rw [h.ups]
    obtain ⟨t, rfl⟩ := hacc
    rw [List.take_append_of_le_length (by omega)]
  seen hsel k p hk := by
    obtain ⟨q, h₁, h₂, h₃, h₄, h₅⟩ := h.seen hsel k p hk
    exact ⟨q, h₁, h₂, h₃, h₄, get_of_prefix hacc h₅⟩
  maxseen := h.maxseen

/-- A handler keeps both sides and sends only sound frames. `acc` is what this agent has accepted, `accP` what its
peer has. -/
structure Moves (cfg : HdlcConfig) (acc accP ups : List α) (e high : ℤ) (a : ARQstate α)
    (r : ARQstate α × List (HdlcOutput α)) : Prop where
  send : r.1.SendSide acc e
  recv : r.1.RecvSide cfg accP (ups ++ r.2.filterMap HdlcOutput.up)
  expected : a.expected cfg ≤ r.1.expected cfg
  highest : a.highestAck ≤ r.1.highestAck
  frames : ∀ f, .sendDown f ∈ r.2 → r.1.FrameSound cfg acc high f

lemma Acknowledges.up {o : HdlcOutput α} (ho : a.Acknowledges cfg o) : o.up = none := by
  rcases ho with ⟨p, -, -, rfl⟩ | rfl <;> rfl

lemma Sends.sentUp (h : a.Sends cfg r) : r.2.filterMap HdlcOutput.up = [] :=
  List.filterMap_eq_nil_iff.mpr fun o ho => (h.outputs o ho).up

lemma Acknowledges.sound (h : a.SendSide acc e) (ho : a.Acknowledges cfg (.sendDown f)) :
    a.FrameSound cfg acc high f := by
  rcases ho with ⟨p, hp, hwnd, heq⟩ | heq
  · obtain rfl := HdlcOutput.sendDown.inj heq
    obtain ⟨hpos, hget⟩ := h.sendBuf p hp
    exact ⟨ackSeqno_le, hpos, hget, hwnd⟩
  · obtain rfl := HdlcOutput.sendDown.inj heq
    exact ackSeqno_le

lemma Sends.moves (h : a.Sends cfg r) (hsend : a.SendSide acc e) (hrecv : a.RecvSide cfg accP ups) :
    Moves cfg acc accP ups e high a r where
  send := hsend.congr h.agrees.seqno h.agrees.highestAck h.agrees.sendBuf
  recv := by
    rw [h.sentUp, List.append_nil]
    exact hrecv.congr h.agrees.recvSeqno h.agrees.nextpkt h.agrees.maxseen h.agrees.seen
  expected := h.agrees.expected.ge
  highest := h.agrees.highestAck.ge
  frames f hf := ((h.outputs _ hf).sound hsend).mono h.agrees.expected.ge h.agrees.highestAck.ge
    (List.prefix_refl acc) le_rfl

/-- One handler after another. -/
lemma Moves.trans {r' : ARQstate α × List (HdlcOutput α)} (h : Moves cfg acc accP ups e high a r)
    (h' : Moves cfg acc accP (ups ++ r.2.filterMap HdlcOutput.up) e high r.1 r') :
    Moves cfg acc accP ups e high a (r'.1, r.2 ++ r'.2) where
  send := h'.send
  recv := by
    rw [List.filterMap_append, ← List.append_assoc]
    exact h'.recv
  expected := h.expected.trans h'.expected
  highest := h.highest.trans h'.highest
  frames f hf := by
    rcases List.mem_append.mp hf with hf | hf
    · exact (h.frames f hf).mono h'.expected h'.highest (List.prefix_refl acc) le_rfl
    · exact h'.frames f hf

/-- The outputs may be extended by what concerns the frame that has come in. -/
lemma Moves.snoc {o : HdlcOutput α} (h : Moves cfg acc accP ups e high a r) (hup : o.up = none)
    (hdown : ∀ f, o ≠ .sendDown f) : Moves cfg acc accP ups e high a (r.1, r.2 ++ [o]) where
  send := h.send
  recv := by
    rw [List.filterMap_append, List.filterMap_cons, hup, List.filterMap_nil, List.append_nil]
    exact h.recv
  expected := h.expected
  highest := h.highest
  frames f hf := by
    rcases List.mem_append.mp hf with hf | hf
    · exact h.frames f hf
    · exact absurd (List.mem_singleton.mp hf).symm (hdown f)

/-- A change that neither side sees. -/
lemma Moves.start (hsend : a'.SendSide acc e) (hrecv : a'.RecvSide cfg accP ups) (hexp : a.expected cfg ≤ a'.expected cfg)
    (hhigh : a.highestAck ≤ a'.highestAck) : Moves cfg acc accP ups e high a (a', []) :=
  ⟨hsend, by simpa using hrecv, hexp, hhigh, nofun⟩

/-! ### Receiving -/

/-- Packets in order leave the slots. -/
lemma deliverLoop_moves (n : ℕ) (hsel : cfg.selRepeat) (hsend : a.SendSide acc e) (hrecv : a.RecvSide cfg accP ups) :
    Moves cfg acc accP ups e high a (deliverLoop n a) := by
  induction n generalizing a ups with
  | zero => exact Moves.start hsend hrecv le_rfl le_rfl
  | succ n ih =>
    unfold deliverLoop
    split
    next => exact Moves.start hsend hrecv le_rfl le_rfl
    next p hp =>
      obtain ⟨q, hq, hlt, hseen, hslot, hget⟩ := hrecv.seen hsel _ p hp
      obtain rfl : q = a.nextpkt := slot_inj hslot.symm (by unfold HDLC_MWS at *; omega) (by unfold HDLC_MWS; omega)
      have hexp : a.expected cfg = a.nextpkt := if_pos hsel
      have hnonneg := hrecv.nonneg
      have hups := hrecv.ups
      rw [hexp] at hnonneg hups
      obtain ⟨hlen, -⟩ := List.getElem?_eq_some_iff.mp hget
      set a₁ : ARQstate α :=
        { a with seen := Function.update a.seen (slot a.nextpkt) none, nextpkt := a.nextpkt + 1 } with ha₁
      have hexp₁ : a₁.expected cfg = a.nextpkt + 1 := if_pos hsel
      have hrecv₁ : a₁.RecvSide cfg accP (ups ++ [p]) := by
        refine ⟨by omega, by omega, ?_, fun _ k p' hk => ?_, fun _ => ?_⟩
        · have htoNat : (a.nextpkt + 1).toNat = a.nextpkt.toNat + 1 := by omega
          rw [hexp₁, htoNat, List.take_add_one, hget, ← hups]
          rfl
        · by_cases hkslot : k = slot a.nextpkt
          · subst hkslot
            simp [ha₁] at hk
          · have hk' : a.seen k = some p' := by simpa [ha₁, hkslot] using hk
            obtain ⟨q', hq', hlt', hseen', rfl, hget'⟩ := hrecv.seen hsel k p' hk'
            have hne : q' ≠ a.nextpkt := fun heq => hkslot (by rw [heq])
            exact ⟨q', by show a.nextpkt + 1 ≤ q'; omega, by show q' < a.nextpkt + 1 + _; omega, hseen', rfl, hget'⟩
        · show a.nextpkt + 1 ≤ max 0 (a.maxseen + 1)
          omega
      have hrest := ih (hsend.congr rfl rfl rfl : a₁.SendSide acc e) hrecv₁
      refine ⟨hrest.send, ?_, ?_, hrest.highest, fun f hf => ?_⟩
      · have hrecv₂ := hrest.recv
        rw [List.append_assoc] at hrecv₂
        exact hrecv₂
      · have hexp₂ := hrest.expected
        rw [hexp₁] at hexp₂
        rw [hexp]
        exact (by omega : a.nextpkt ≤ a.nextpkt + 1).trans hexp₂
      · rcases List.mem_cons.mp hf with hf | hf
        · cases hf
        · exact hrest.frames f hf

lemma selectiveRepeatMode_moves {seq : ℤ} {p : α} (hsel : cfg.selRepeat) (hsend : a.SendSide acc e)
    (hrecv : a.RecvSide cfg accP ups) (hpos : 0 ≤ seq) (hget : accP[seq.toNat]? = some p)
    (hwnd : seq < a.nextpkt + HDLC_MWS) (hsrej : seq ≤ high + cfg.wnd) :
    Moves cfg acc accP ups e high a (a.selectiveRepeatMode cfg seq p) := by
  unfold selectiveRepeatMode
  extract_lets justMarked srejs a₁ r r₁ r₂
  have hsrejs : ∀ o ∈ srejs, ∃ i, i < seq ∧ o = .sendDown (.s .srej i) := by
    intro o ho
    obtain ⟨k, hk, rfl⟩ := List.mem_map.mp ho
    rw [List.mem_range] at hk
    exact ⟨_, by omega, rfl⟩
  have hmax := hrecv.maxseen hsel
  have h₁ : a₁.SendSide acc e ∧ a₁.RecvSide cfg accP ups ∧ a₁.nextpkt = a.nextpkt ∧ a₁.highestAck = a.highestAck ∧
      seq ≤ a₁.maxseen := by
    dsimp only [a₁]
    split
    next hmark =>
      refine ⟨hsend.congr rfl rfl rfl, ⟨hrecv.nonneg, hrecv.length, hrecv.ups, fun _ k p' hk => ?_, fun _ => ?_⟩, rfl, rfl,
        le_rfl⟩
      · by_cases hk' : k = slot seq
        · subst hk'
          have hp : p = p' := by simpa [setSeen] using hk
          exact ⟨seq, by show a.nextpkt ≤ seq; omega, hwnd, le_rfl, rfl, hp ▸ hget⟩
        · obtain ⟨q, hq, hlt, hseen, rfl, hget'⟩ := hrecv.seen hsel k p' (by simpa [setSeen, hk'] using hk)
          exact ⟨q, hq, hlt, hseen.trans (le_of_lt hmark), rfl, hget'⟩
      · show a.nextpkt ≤ max 0 (seq + 1)
        omega
    next hmark => exact ⟨hsend, hrecv, rfl, rfl, not_lt.mp hmark⟩
  obtain ⟨hsend₁, hrecv₁, hnext₁, hhigh₁, hseq₁⟩ := h₁
  have hexp₁ : a.expected cfg ≤ a₁.expected cfg := by
    unfold expected
    rw [if_pos hsel, if_pos hsel, hnext₁]
  have hstart : Moves cfg acc accP ups e high a (a₁, srejs) := by
    refine ⟨hsend₁, ?_, hexp₁, hhigh₁.ge, fun f hf => ?_⟩
    · have hups : srejs.filterMap HdlcOutput.up = [] := by
        refine List.filterMap_eq_nil_iff.mpr fun o ho => ?_
        obtain ⟨i, -, rfl⟩ := hsrejs o ho
        rfl
      rwa [hups, List.append_nil]
    · obtain ⟨i, hi, hf⟩ := hsrejs _ hf
      obtain rfl := HdlcOutput.sendDown.inj hf
      show i ≤ high + cfg.wnd
      omega
  split
  · have hack : Moves cfg acc accP _ e high a₁ r := (ack_sends a₁).moves hsend₁ hstart.recv
    exact (hstart.trans hack).snoc rfl nofun
  next hnew =>
    have hsend₂ : (a₁.setSeen seq p).SendSide acc e := hsend₁.congr rfl rfl rfl
    have hrecv₂ : (a₁.setSeen seq p).RecvSide cfg accP ups := by
      refine ⟨hrecv₁.nonneg, hrecv₁.length, hrecv₁.ups, fun _ k p' hk => ?_, hrecv₁.maxseen⟩
      by_cases hk' : k = slot seq
      · subst hk'
        have hp : p = p' := by simpa [setSeen] using hk
        exact ⟨seq, by show a₁.nextpkt ≤ seq; omega, by show seq < a₁.nextpkt + _; omega, hseq₁, rfl, hp ▸ hget⟩
      · exact hrecv₁.seen hsel k p' (by simpa [setSeen, hk'] using hk)
    have hdeliver : Moves cfg acc accP ups e high (a₁.setSeen seq p) r₁ := deliverLoop_moves _ hsel hsend₂ hrecv₂
    have hmid : Moves cfg acc accP ups e high a (r₁.1, srejs ++ r₁.2) := by
      refine hstart.trans ⟨hdeliver.send, ?_, hdeliver.expected, hdeliver.highest, hdeliver.frames⟩
      have hups : srejs.filterMap HdlcOutput.up = [] := by
        refine List.filterMap_eq_nil_iff.mpr fun o ho => ?_
        obtain ⟨i, -, rfl⟩ := hsrejs o ho
        rfl
      rw [hups, List.append_nil]
      exact hdeliver.recv
    exact hmid.trans ((ack_sends r₁.1).moves hmid.send hmid.recv)

lemma goBackNMode_moves {seq : ℤ} {p : α} (hsel : ¬cfg.selRepeat) (hsend : a.SendSide acc e)
    (hrecv : a.RecvSide cfg accP ups) (hpos : 0 ≤ seq) (hget : accP[seq.toNat]? = some p)
    (hstep : a.goBackNMode cfg seq p = some r) : Moves cfg acc accP ups e high a r := by
  unfold goBackNMode at hstep
  split at hstep
  next hseq =>
    extract_lets a₁ r₁ at hstep
    have hexp : a.expected cfg = seq := by
      unfold expected
      rw [if_neg hsel, ← hseq, max_eq_right hpos]
    have hexp₁ : a₁.expected cfg = seq + 1 := by
      unfold expected
      rw [if_neg hsel, max_eq_right (by show 0 ≤ a.recvSeqno + 1; omega)]
      show a.recvSeqno + 1 = seq + 1
      omega
    have hsend₁ : a₁.SendSide acc e := hsend.congr rfl rfl rfl
    have hrecv₁ : a₁.RecvSide cfg accP (ups ++ [p]) := by
      obtain ⟨hlen, -⟩ := List.getElem?_eq_some_iff.mp hget
      refine ⟨by omega, by omega, ?_, fun h => absurd h hsel, fun h => absurd h hsel⟩
      have hups := hrecv.ups
      have htoNat : (seq + 1).toNat = seq.toNat + 1 := by omega
      rw [hexp] at hups
      rw [hexp₁, htoNat, List.take_add_one, hget, ← hups]
      rfl
    have hle : a.expected cfg ≤ a₁.expected cfg := by omega
    split at hstep
    · split at hstep
      · obtain rfl := Option.some.inj hstep
        exact ⟨hsend₁, hrecv₁, hle, le_rfl, fun f hf => nomatch List.mem_singleton.mp hf⟩
      · split at hstep
        · cases hstep
        · obtain rfl := Option.some.inj hstep
          exact ⟨hsend₁.congr rfl rfl rfl, hrecv₁.congr rfl rfl rfl rfl, hle, le_rfl,
            fun f hf => nomatch List.mem_singleton.mp hf⟩
    · obtain rfl := Option.some.inj hstep
      have hack : Moves cfg acc accP (ups ++ [p]) e high a₁ r₁ := (ack_sends a₁).moves hsend₁ hrecv₁
      have hnone : r₁.2.filterMap HdlcOutput.up = [] := (ack_sends a₁).sentUp
      refine ⟨hack.send, ?_, hle.trans hack.expected, hack.highest, fun f hf => ?_⟩
      · have hrecv₂ := hack.recv
        rw [hnone, List.append_nil] at hrecv₂
        rw [List.filterMap_append, hnone]
        exact hrecv₂
      · rcases List.mem_append.mp hf with hf | hf
        · exact hack.frames f hf
        · exact nomatch List.mem_singleton.mp hf
  next =>
    split at hstep
    · split at hstep
      · obtain rfl := Option.some.inj hstep
        exact (Moves.start hsend hrecv le_rfl le_rfl).snoc rfl nofun
      · obtain rfl := Option.some.inj hstep
        refine ⟨hsend.congr rfl rfl rfl, ?_, le_rfl, le_rfl, fun f hf => ?_⟩
        · show RecvSide cfg _ accP (ups ++ [])
          rw [List.append_nil]
          exact hrecv.congr rfl rfl rfl rfl
        · rcases List.mem_cons.mp hf with hf | hf
          · obtain rfl := HdlcOutput.sendDown.inj hf
            trivial
          · exact nomatch List.mem_singleton.mp hf
    · obtain rfl := Option.some.inj hstep
      exact ((ack_sends a).moves hsend hrecv).snoc rfl nofun

/-! ### Acknowledgements -/

lemma SendSide.removePkt {seqno : ℤ} (h : a.SendSide acc e) (hseq : seqno + 1 ≤ e) : (a.removePkt seqno).SendSide acc e :=
  ⟨h.seqno, fun p hp => h.sendBuf p (List.mem_of_mem_eraseP hp), hseq⟩

lemma handlePiggyAck_keeps {rseq : ℤ} (hsend : a.SendSide acc e) (hrecv : a.RecvSide cfg accP ups) (hrseq : rseq ≤ e)
    (hstep : a.handlePiggyAck rseq = some a') : Moves cfg acc accP ups e high a (a', []) := by
  unfold handlePiggyAck at hstep
  dsimp only at hstep
  split at hstep
  next hnew =>
    obtain ⟨p, -, rfl⟩ := Option.map_eq_some_iff.mp hstep
    have hremoved := hsend.removePkt (show rseq - 1 + 1 ≤ e by omega)
    split <;>
      exact Moves.start (hremoved.congr rfl rfl rfl) (hrecv.congr rfl rfl rfl rfl) le_rfl (le_of_lt hnew)
  next =>
    obtain rfl := Option.some.inj hstep
    exact Moves.start (hsend.congr rfl rfl rfl) (hrecv.congr rfl rfl rfl rfl) le_rfl le_rfl

lemma takeRR_moves {seqno : ℤ} (hsend : a.SendSide acc e) (hrecv : a.RecvSide cfg accP ups) (hseq : seqno + 1 ≤ e) :
    Moves cfg acc accP ups e high a (a.takeRR seqno) := by
  unfold takeRR
  split
  next hnew =>
    have hremoved : Moves cfg acc accP ups e high a
        (if (getPkt a.sendBuf seqno).isSome then a.removePkt seqno else a, []) := by
      split
      · exact Moves.start (hsend.removePkt hseq) (hrecv.congr rfl rfl rfl rfl) le_rfl (le_of_lt hnew)
      · exact Moves.start hsend hrecv le_rfl le_rfl
    dsimp only
    generalize (if (getPkt a.sendBuf seqno).isSome then a.removePkt seqno else a) = a₁ at hremoved ⊢
    have hrecv₁ : a₁.RecvSide cfg accP ups := by simpa using hremoved.recv
    split <;>
      exact Moves.start (hremoved.send.congr rfl rfl rfl) (hrecv₁.congr rfl rfl rfl rfl) hremoved.expected hremoved.highest
  next => exact (Moves.start hsend hrecv le_rfl le_rfl).snoc rfl nofun

/-- A change of other fields before more is sent. -/
lemma Moves.sendMuch {r₁ : ARQstate α × List (HdlcOutput α)} (h : Moves cfg acc accP ups e high a r)
    (hstep : a'.sendMuch cfg = some r₁) (hsame : a'.Agrees r.1) : Moves cfg acc accP ups e high a (r₁.1, r.2 ++ r₁.2) := by
  have hsent : Moves cfg acc accP (ups ++ r.2.filterMap HdlcOutput.up) e high r.1 r₁ := by
    have hsends := sendMuch_sends hstep
    exact Sends.moves ⟨hsends.agrees.trans hsame, fun o ho => (hsends.outputs o ho).congr hsame⟩ h.send h.recv
  exact h.trans hsent

lemma handleRR_moves {rseq : ℤ} (hsend : a.SendSide acc e) (hrecv : a.RecvSide cfg accP ups) (hrseq : rseq ≤ e)
    (hstep : a.handleRR cfg rseq = some r) : Moves cfg acc accP ups e high a r := by
  unfold handleRR at hstep
  split at hstep
  · obtain rfl := Option.some.inj hstep
    exact Moves.start hsend hrecv le_rfl le_rfl
  · obtain ⟨r₁, hmuch, rfl⟩ := Option.map_eq_some_iff.mp hstep
    have htake : Moves cfg acc accP ups e high a (a.takeRR (rseq - 1)) := takeRR_moves hsend hrecv (by omega)
    have hfree : Moves cfg acc accP ups e high a ((a.takeRR (rseq - 1)).1, (a.takeRR (rseq - 1)).2 ++ [.free]) :=
      htake.snoc rfl nofun
    have hmoves := hfree.sendMuch hmuch ⟨rfl, rfl, rfl, rfl, rfl, rfl, rfl, rfl⟩
    rwa [List.append_assoc] at hmoves

lemma handleREJ_moves {seqno : ℤ} (hsend : a.SendSide acc e) (hrecv : a.RecvSide cfg accP ups)
    (hstep : a.handleREJ cfg seqno = some r) : Moves cfg acc accP ups e high a r := by
  unfold handleREJ at hstep
  split at hstep
  · obtain rfl := Option.some.inj hstep
    exact Moves.start hsend hrecv le_rfl le_rfl
  · obtain ⟨r₁, hmuch, rfl⟩ := Option.map_eq_some_iff.mp hstep
    have hmoves := (Moves.start hsend hrecv le_rfl le_rfl : Moves cfg acc accP ups e high a (a, [])).sendMuch
      hmuch ⟨rfl, rfl, rfl, rfl, rfl, rfl, rfl, rfl⟩
    exact hmoves.snoc rfl nofun

lemma handleSREJ_moves {seqno : ℤ} (hsend : a.SendSide acc e) (hrecv : a.RecvSide cfg accP ups)
    (hwnd : seqno ≤ a.highestAck + cfg.wnd) (hstep : a.handleSREJ cfg seqno = some r) :
    Moves cfg acc accP ups e high a r := by
  unfold handleSREJ at hstep
  split at hstep
  · obtain rfl := Option.some.inj hstep
    exact Moves.start hsend hrecv le_rfl le_rfl
  · obtain ⟨p, hp, rfl⟩ := Option.map_eq_some_iff.mp hstep
    obtain ⟨hmem, heq⟩ := mem_of_getPkt hp
    have hsends : a.Sends cfg (a.output cfg p seqno) := output_sends seqno hmem (heq.trans_le hwnd)
    exact (hsends.moves hsend hrecv).snoc rfl nofun

/-! ### A frame with data, and the timers -/

lemma recvIframe_moves {rseq seq : ℤ} {p : α} (hwindow : cfg.wnd ≤ HDLC_MWS) (hsend : a.SendSide acc e)
    (hrecv : a.RecvSide cfg accP ups) (hrseq : rseq ≤ e) (hpos : 0 ≤ seq) (hget : accP[seq.toNat]? = some p)
    (hseq : seq ≤ high + cfg.wnd) (hhigh : high + 1 ≤ a.expected cfg) (hstep : a.recvIframe cfg rseq seq p = some r) :
    Moves cfg acc accP ups e high a r := by
  unfold recvIframe at hstep
  split at hstep
  · obtain rfl := Option.some.inj hstep
    exact Moves.start hsend hrecv le_rfl le_rfl
  extract_lets a₁ at hstep
  have h₁ : Moves cfg acc accP ups e high a (a₁, []) := by
    dsimp only [a₁]
    split
    · exact Moves.start (hsend.congr rfl rfl rfl) (hrecv.congr rfl rfl rfl rfl) le_rfl le_rfl
    · exact Moves.start hsend hrecv le_rfl le_rfl
  have hrecv₁ : a₁.RecvSide cfg accP ups := by simpa using h₁.recv
  obtain ⟨a₂, hpiggy, hstep⟩ := Option.bind_eq_some_iff.mp hstep
  have h₂ : Moves cfg acc accP ups e high a (a₂, []) := by
    split at hpiggy
    · exact h₁.trans (handlePiggyAck_keeps h₁.send h₁.recv hrseq hpiggy)
    · obtain rfl := Option.some.inj hpiggy
      exact h₁
  have hrecv₂ : a₂.RecvSide cfg accP ups := by simpa using h₂.recv
  extract_lets a₃ at hstep
  have h₃ : Moves cfg acc accP ups e high a (a₃, []) := by
    dsimp only [a₃]
    split
    next hfirst =>
      have hexp : ({ a₂ with recvSeqno := 0 } : ARQstate α).expected cfg = a₂.expected cfg := by
        unfold expected
        rw [hfirst.2]
        rfl
      refine Moves.start (h₂.send.congr rfl rfl rfl) ?_ (hexp ▸ h₂.expected) h₂.highest
      exact ⟨hexp ▸ hrecv₂.nonneg, hexp ▸ hrecv₂.length, hexp ▸ hrecv₂.ups, hrecv₂.seen, hrecv₂.maxseen⟩
    next => exact h₂
  have hrecv₃ : a₃.RecvSide cfg accP ups := by simpa using h₃.recv
  obtain ⟨r₄, hmode, hstep⟩ := Option.bind_eq_some_iff.mp hstep
  have h₄ : Moves cfg acc accP ups e high a r₄ := by
    split at hmode
    next hsel =>
      obtain rfl := Option.some.inj hmode
      have hnext : a₃.expected cfg = a₃.nextpkt := if_pos hsel
      have hexp₃ := h₃.expected
      exact h₃.trans (selectiveRepeatMode_moves hsel h₃.send h₃.recv hpos hget (by dsimp only at *; omega) hseq)
    next hsel => exact h₃.trans (goBackNMode_moves hsel h₃.send h₃.recv hpos hget hmode)
  split at hstep
  · obtain ⟨r₅, hmuch, rfl⟩ := Option.map_eq_some_iff.mp hstep
    exact h₄.sendMuch hmuch (Agrees.refl _)
  · obtain rfl := Option.some.inj hstep
    exact h₄

lemma delayTimeout_moves (hsend : a.SendSide acc e) (hrecv : a.RecvSide cfg accP ups) :
    Moves cfg acc accP ups e high a (a.delayTimeout cfg) := by
  unfold delayTimeout
  extract_lets a₁ r₁
  have h₁ : Moves cfg acc accP ups e high a (a₁, []) :=
    Moves.start (hsend.congr rfl rfl rfl) (hrecv.congr rfl rfl rfl rfl) le_rfl le_rfl
  split
  · exact h₁
  · have hack : Moves cfg acc accP ups e high a r₁ := h₁.trans ((ack_sends a₁).moves h₁.send h₁.recv)
    exact ⟨hack.send.congr rfl rfl rfl, hack.recv.congr rfl rfl rfl rfl, hack.expected, hack.highest, hack.frames⟩

lemma timeout_moves {outs : List (HdlcOutput α)} (hsend : a.SendSide acc e) (hrecv : a.RecvSide cfg accP ups)
    (hstep : a.timeout cfg = some (some a', outs)) : Moves cfg acc accP ups e high a (a', outs) := by
  unfold timeout at hstep
  extract_lets a₁ at hstep
  have h₁ : Moves cfg acc accP ups e high a (a₁, []) :=
    Moves.start (hsend.congr rfl rfl rfl) (hrecv.congr rfl rfl rfl rfl) le_rfl le_rfl
  split at hstep
  · cases hstep
  · split at hstep
    · obtain ⟨p, -, heq⟩ := Option.map_eq_some_iff.mp hstep
      obtain ⟨ha', rfl⟩ := Prod.mk.inj heq
      obtain rfl := Option.some.inj ha'
      refine ⟨h₁.send.congr rfl rfl rfl, ?_, le_rfl, le_rfl, fun f hf => ?_⟩
      · show RecvSide cfg _ accP (ups ++ [])
        rw [List.append_nil]
        exact hrecv.congr rfl rfl rfl rfl
      · obtain rfl := HdlcOutput.sendDown.inj (List.mem_singleton.mp hf)
        trivial
    · split at hstep
      · obtain ⟨ha', rfl⟩ := Prod.mk.inj (Option.some.inj hstep)
        obtain rfl := Option.some.inj ha'
        exact Moves.start (hsend.congr rfl rfl rfl) (hrecv.congr rfl rfl rfl rfl) le_rfl le_rfl
      · obtain ⟨r₂, hmuch, heq⟩ := Option.map_eq_some_iff.mp hstep
        obtain ⟨ha', rfl⟩ := Prod.mk.inj heq
        obtain rfl := Option.some.inj ha'
        exact h₁.sendMuch hmuch ⟨rfl, rfl, rfl, rfl, rfl, rfl, rfl, rfl⟩

end ARQstate

namespace HdlcPeer
variable {h h' : HdlcPeer α} {out : List (HdlcFrame α)} {accP : List α} {e high : ℤ} {a : ARQstate α}
  {r : ARQstate α × List (HdlcOutput α)}

/-- A step of an agent keeps both sides, only adds to what it has accepted, and sends only sound frames. -/
structure Steps (cfg : HdlcConfig) (accP : List α) (e high : ℤ) (h h' : HdlcPeer α) (out : List (HdlcFrame α)) :
    Prop where
  send : (h'.state cfg).SendSide h'.accepted e
  recv : (h'.state cfg).RecvSide cfg accP h'.sentUp
  expected : (h.state cfg).expected cfg ≤ (h'.state cfg).expected cfg
  highest : (h.state cfg).highestAck ≤ (h'.state cfg).highestAck
  accepted : h.accepted <+: h'.accepted
  frames : ∀ f ∈ out, (h'.state cfg).FrameSound cfg h'.accepted high f

lemma Steps.of_moves (hmoves : ARQstate.Moves cfg h.accepted accP h.sentUp e high (h.state cfg) r)
    (hfinish : h.finish (some r.1, r.2) = (h', out)) : Steps cfg accP e high h h' out := by
  obtain ⟨rfl, rfl⟩ := Prod.mk.inj hfinish
  refine ⟨hmoves.send, hmoves.recv, hmoves.expected, hmoves.highest, List.prefix_refl _, fun f hf => ?_⟩
  obtain ⟨o, ho, hof⟩ := List.mem_filterMap.mp hf
  cases o with
  | sendDown f' =>
    obtain rfl := Option.some.inj hof
    exact hmoves.frames f' ho
  | sendUp p => cases hof
  | drop => cases hof
  | free => cases hof

lemma state_eq (hentry : h.arq = some a) : h.state cfg = a := by
  unfold state
  rw [hentry]
  rfl

lemma inSendBuffer_send {acc : List α} {q : α} (hsend : a.SendSide acc e) :
    (a.inSendBuffer cfg q).1.SendSide (if (a.inSendBuffer cfg q).2 then acc ++ [q] else acc) e := by
  unfold ARQstate.inSendBuffer
  split
  · exact hsend
  · have hseqno := hsend.seqno
    refine ⟨?_, fun p hp => ?_, hsend.high⟩
    · show a.seqno + 1 = ((acc ++ [q]).length : ℤ)
      rw [List.length_append, hseqno]
      rfl
    · rw [if_pos rfl]
      rcases List.mem_append.mp hp with hp | hp
      · obtain ⟨hpos, hget⟩ := hsend.sendBuf p hp
        exact ⟨hpos, ARQstate.get_of_prefix (List.prefix_append acc [q]) hget⟩
      · obtain rfl := List.mem_singleton.mp hp
        refine ⟨by show 0 ≤ a.seqno; omega, ?_⟩
        show (acc ++ [q])[a.seqno.toNat]? = some q
        rw [hseqno, Int.toNat_natCast, List.getElem?_concat_length]

lemma inSendBuffer_recv {acc : List α} {ups : List α} {q : α} (hrecv : a.RecvSide cfg acc ups) :
    (a.inSendBuffer cfg q).1.RecvSide cfg acc ups ∧ (a.inSendBuffer cfg q).1.expected cfg = a.expected cfg ∧
      (a.inSendBuffer cfg q).1.highestAck = a.highestAck := by
  unfold ARQstate.inSendBuffer
  split
  · exact ⟨hrecv, rfl, rfl⟩
  · exact ⟨hrecv.congr rfl rfl rfl rfl, rfl, rfl⟩

lemma recvOutgoing_steps {p : α} (hsend : (h.state cfg).SendSide h.accepted e)
    (hrecv : (h.state cfg).RecvSide cfg accP h.sentUp) (hstep : h.recvOutgoing cfg p = some (h', out)) :
    Steps cfg accP e high h h' out := by
  unfold recvOutgoing at hstep
  extract_lets a connect a₁ outs r h₁ at hstep
  have ha₁ : a₁.SendSide h.accepted e ∧ a₁.RecvSide cfg accP h.sentUp ∧ a₁.expected cfg = a.expected cfg ∧
      a₁.highestAck = a.highestAck := by
    dsimp only [a₁]
    split
    · exact ⟨hsend.congr rfl rfl rfl, hrecv.congr rfl rfl rfl rfl, rfl, rfl⟩
    · exact ⟨hsend, hrecv, rfl, rfl⟩
  obtain ⟨hsend₁, hrecv₁, hexp₁, hhigh₁⟩ := ha₁
  obtain ⟨hrecv₂, hexp₂, hhigh₂⟩ := inSendBuffer_recv (q := p) hrecv₁
  have hsend₂ : r.1.SendSide h₁.accepted e := inSendBuffer_send hsend₁
  have hmoves : ARQstate.Moves cfg h₁.accepted accP h₁.sentUp e high (h₁.state cfg) (r.1, outs) := by
    refine ⟨hsend₂, ?_, (hexp₂.trans hexp₁).ge, (hhigh₂.trans hhigh₁).ge, fun f hf => ?_⟩
    · have hups : outs.filterMap HdlcOutput.up = [] := by
        dsimp only [outs]
        split <;> rfl
      rw [hups, List.append_nil]
      exact hrecv₂
    · dsimp only [outs] at hf
      split at hf
      · obtain rfl := HdlcOutput.sendDown.inj (List.mem_singleton.mp hf)
        trivial
      · cases hf
  have hacc : h.accepted <+: h₁.accepted := by
    dsimp only [h₁]
    split
    · exact List.prefix_append h.accepted [p]
    · exact List.prefix_refl h.accepted
  have hsteps : Steps cfg accP e high h₁ h' out := by
    split at hstep
    · obtain ⟨r₂, hmuch, hfinish⟩ := Option.map_eq_some_iff.mp hstep
      exact Steps.of_moves (hmoves.sendMuch hmuch (ARQstate.Agrees.refl _)) hfinish
    · exact Steps.of_moves hmoves (Option.some.inj hstep)
  exact ⟨hsteps.send, hsteps.recv, hsteps.expected, hsteps.highest, hacc.trans hsteps.accepted, hsteps.frames⟩

lemma act_steps {ev : HdlcEvent α} (hreset : ¬h.ActResets cfg ev) (hsend : (h.state cfg).SendSide h.accepted e)
    (hrecv : (h.state cfg).RecvSide cfg accP h.sentUp) (hstep : h.act cfg ev = some (h', out)) :
    Steps cfg accP e high h h' out := by
  rcases act_cases hreset hstep with ⟨p, hp⟩ | ⟨rfl, rfl⟩ | ⟨a, r, hentry, hr, hfinish⟩
  · exact recvOutgoing_steps hsend hrecv hp
  · exact ⟨hsend, hrecv, le_rfl, le_rfl, List.prefix_refl _, nofun⟩
  · refine Steps.of_moves ?_ hfinish
    rw [state_eq hentry] at hsend hrecv ⊢
    cases hr with
    | rtx hlimit hr => exact ARQstate.timeout_moves hsend hrecv hr
    | delay => exact ARQstate.delayTimeout_moves hsend hrecv

/-- `aP` is the entry of the peer, which has sent the frame. -/
lemma recvIncoming_steps {f : HdlcFrame α} {aP : ARQstate α} (hwindow : cfg.wnd ≤ HDLC_MWS) (hreset : ¬h.FrameResets f)
    (hsend : (h.state cfg).SendSide h.accepted (aP.expected cfg)) (hrecv : (h.state cfg).RecvSide cfg accP h.sentUp)
    (hpeer : aP.highestAck + 1 ≤ (h.state cfg).expected cfg)
    (hf : aP.FrameSound cfg accP (h.state cfg).highestAck f) (hstep : h.recvIncoming cfg f = some (h', out)) :
    Steps cfg accP (aP.expected cfg) aP.highestAck h h' out := by
  rcases recvIncoming_cases hreset hstep with ⟨rfl, rfl⟩ | ⟨hnone, hfinish⟩ | ⟨a, r, hentry, hr, hfinish⟩
  · exact ⟨hsend, hrecv, le_rfl, le_rfl, List.prefix_refl _, nofun⟩
  · refine Steps.of_moves (r := (.newEntry cfg, [.sendDown (.u .ua), .free])) ?_ hfinish
    have hnew : h.state cfg = .newEntry cfg := by
      unfold state
      rw [hnone]
      rfl
    rw [hnew] at hsend hrecv ⊢
    refine ⟨hsend, ?_, le_rfl, le_rfl, fun f hf => ?_⟩
    · show ARQstate.RecvSide cfg _ accP (h.sentUp ++ [])
      rwa [List.append_nil]
    · rcases List.mem_cons.mp hf with hf | hf
      · obtain rfl := HdlcOutput.sendDown.inj hf
        trivial
      · exact nomatch List.mem_singleton.mp hf
  · refine Steps.of_moves ?_ hfinish
    rw [state_eq hentry] at hsend hrecv hpeer hf ⊢
    cases hr with
    | iframe hr =>
      obtain ⟨hrseq, hpos, hget, hseq⟩ := hf
      exact ARQstate.recvIframe_moves hwindow hsend hrecv hrseq hpos hget hseq hpeer hr
    | rr hr => exact ARQstate.handleRR_moves hsend hrecv hf hr
    | rej hr => exact ARQstate.handleREJ_moves hsend hrecv hr
    | rnr => exact ARQstate.Moves.start hsend hrecv le_rfl le_rfl
    | srej hr => exact ARQstate.handleSREJ_moves hsend hrecv hf hr
    | connected hr =>
      have hmoves : ARQstate.Moves cfg h.accepted accP h.sentUp (aP.expected cfg) aP.highestAck a
          (({ a with sabmeReq := .connected } : ARQstate α).cancelRtxTimer, []) :=
        ARQstate.Moves.start (hsend.congr rfl rfl rfl) (hrecv.congr rfl rfl rfl rfl) le_rfl le_rfl
      exact (hmoves.sendMuch hr (ARQstate.Agrees.refl _)).snoc rfl nofun
    | ua => exact (ARQstate.Moves.start hsend hrecv le_rfl le_rfl).snoc rfl nofun

end HdlcPeer

namespace Station

lemma peer_peer (n : Station) : n.peer.peer = n := by
  cases n <;> rfl

lemma peer_ne (n : Station) : n.peer ≠ n := by
  cases n <;> decide

lemma eq_or_peer (n m : Station) : m = n ∨ m = n.peer := by
  cases n <;> cases m <;> decide

end Station

/-! ### Runs -/

namespace HdlcNetwork
variable {w : HdlcNetwork α} {n : Station} {σ : Station → HdlcPeer α}

/-- Both sides of both agents. -/
def BothSides (cfg : HdlcConfig) (σ : Station → HdlcPeer α) : Prop :=
  ∀ n, ((σ n).state cfg).SendSide (σ n).accepted (((σ n.peer).state cfg).expected cfg) ∧
    ((σ n).state cfg).RecvSide cfg (σ n.peer).accepted (σ n).sentUp

/-- A frame to `n` against its sender. -/
def InFlight (cfg : HdlcConfig) (σ : Station → HdlcPeer α) (n : Station) (f : HdlcFrame α) : Prop :=
  ((σ n.peer).state cfg).FrameSound cfg (σ n.peer).accepted ((σ n).state cfg).highestAck f

lemma keeps_of_steps {h : HdlcPeer α} {out : List (HdlcFrame α)} (hσ : BothSides cfg σ)
    (hsteps : HdlcPeer.Steps cfg (σ n.peer).accepted (((σ n.peer).state cfg).expected cfg)
      ((σ n.peer).state cfg).highestAck (σ n) h out) :
    Network.Keeps (BothSides cfg) (InFlight cfg) σ n h (out.map fun f => (n.peer, f)) := by
  have hself : Function.update σ n h n = h := Function.update_self _ _ _
  have hpeer : Function.update σ n h n.peer = σ n.peer := Function.update_of_ne n.peer_ne _ _
  refine ⟨fun m => ?_, fun m f hf => ?_, fun p hp => ?_⟩
  · rcases n.eq_or_peer m with rfl | rfl
    · rw [hself, hpeer]
      exact ⟨hsteps.send, hsteps.recv⟩
    · have hold := hσ n.peer
      rw [n.peer_peer] at hold
      rw [n.peer_peer, hself, hpeer]
      exact ⟨hold.1.mono hsteps.expected, hold.2.mono hsteps.accepted⟩
  · unfold InFlight at hf ⊢
    rcases n.eq_or_peer m with rfl | rfl
    · rw [hself, hpeer]
      exact hf.mono le_rfl le_rfl (List.prefix_refl _) hsteps.highest
    · rw [n.peer_peer] at hf
      rw [n.peer_peer, hself, hpeer]
      exact hf.mono hsteps.expected hsteps.highest hsteps.accepted le_rfl
  · obtain ⟨f, hf, rfl⟩ := List.mem_map.mp hp
    unfold InFlight
    dsimp only
    rw [n.peer_peer, hself, hpeer]
    exact hsteps.frames f hf

/-- As long as no connection is reset, the packets that an agent hands up are a prefix of those that its peer has
accepted, whatever frames are lost and whenever frames arrive and timers expire. -/
theorem delivery_run (hwindow : cfg.wnd ≤ HDLC_MWS) {evs : List (NetworkEvent Station (HdlcEvent α) Unit)}
    {os : List Unit} (hcalm : EachStep (Network.step (hdlcHandlers cfg)) (NoReset cfg) init evs)
    (hrun : run (Network.step (hdlcHandlers cfg)) init evs = some (w, os)) (n : Station) :
    (w.node n).sentUp <+: (w.node n.peer).accepted := by
  have hinit : Network.Holds (BothSides cfg) (InFlight cfg) (init : HdlcNetwork α) := by
    have hexp : ∀ n, (((init : HdlcNetwork α).node n).state cfg).expected cfg = 0 := fun _ => ARQstate.expected_newEntry
    refine ⟨fun n => ⟨⟨rfl, nofun, ?_⟩, ⟨?_, ?_, ?_, nofun, fun _ => ?_⟩⟩, nofun⟩
    · rw [hexp]
      exact le_rfl
    · rw [hexp]
    · rw [hexp]
      exact le_rfl
    · rw [hexp]
      rfl
    · exact le_max_left _ _
  have hw : Network.Holds (BothSides cfg) (InFlight cfg) w := by
    refine Network.Holds.run (fun w n ev h out hw hP hact => ?_) (fun w n f k x h out hw hP hk hreceive => ?_)
      hinit hcalm hrun
    · obtain ⟨⟨h₁, out₁⟩, hstep, heq⟩ := Option.map_eq_some_iff.mp hact
      obtain ⟨rfl, rfl⟩ := Prod.mk.inj heq
      exact keeps_of_steps hw.nodes (HdlcPeer.act_steps hP (hw.nodes n).1 (hw.nodes n).2 hstep)
    · obtain ⟨⟨h₁, out₁⟩, hstep, heq⟩ := Option.map_eq_some_iff.mp hreceive
      obtain ⟨rfl, rfl⟩ := Prod.mk.inj heq
      have hhigh := (hw.nodes n.peer).1.high
      rw [n.peer_peer] at hhigh
      exact keeps_of_steps hw.nodes (HdlcPeer.recvIncoming_steps hwindow (hP n f hk) (hw.nodes n).1 (hw.nodes n).2 hhigh
        (hw.flight (n, f) (List.mem_of_getElem? hk)) hstep)
  rw [(hw.nodes n).2.ups]
  exact List.take_prefix _ _

theorem delivery_run_firstAckLost : ∃ w os,
    run (Network.step (hdlcHandlers ⟨4, 8, 3, true, false, 0⟩)) init firstAckLost = some (w, os) ∧
      (w.node .two).sentUp <+: (w.node .one).accepted := by
  have hrun : ∃ w os, run (Network.step (hdlcHandlers ⟨4, 8, 3, true, false, 0⟩)) init firstAckLost = some (w, os) :=
    ⟨_, _, rfl⟩
  obtain ⟨w, os, hrun⟩ := hrun
  refine ⟨w, os, hrun, delivery_run (by decide) ?_ hrun .two⟩
  refine ⟨id, fun w o h => ?_⟩
  cases h
  refine ⟨fun n f hk => ?_, fun w o h => ?_⟩
  · cases hk
    exact fun hreset => hreset rfl
  cases h
  refine ⟨fun n f hk => ?_, fun w o h => ?_⟩
  · cases hk
    rintro ⟨a, ⟨⟩, hdisc, -⟩
    cases hdisc
  cases h
  refine ⟨fun n f hk => ?_, fun w o h => ⟨trivial, fun w' o h' => ⟨id, fun w'' o h'' => ?_⟩⟩⟩
  · cases hk
    exact id
  cases h
  cases h'
  cases h''
  refine ⟨fun n f hk => ?_, fun w o h => ⟨fun n f hk => ?_, fun _ _ _ => trivial⟩⟩
  · cases hk
    exact id
  · cases h
    cases hk
    exact id

end HdlcNetwork

end NetworkSimulator
