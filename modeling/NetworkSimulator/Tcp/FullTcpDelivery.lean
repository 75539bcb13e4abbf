import NetworkSimulator.Tcp.FullTcpSends
import NetworkSimulator.Tcp.ReassemblyFlags

/-!
# Delivery of the byte stream

The bytes that `recv` passes to `recvBytes` are those in front of `rcv_nxt_`, whichever of its paths
they take: header prediction, the in-order path or the reassembly queue. The FIN takes one sequence
number more. Data on a SYN is the exception: `rcv_nxt_` starts behind it and it is never delivered.
-/

namespace NetworkSimulator
open Library

lemma clearFlags_testBit (f b i : ℕ) :
    (clearFlags f b).testBit i = (f.testBit i && !b.testBit i) := by
  rw [clearFlags, Nat.testBit_xor, Nat.testBit_and]
  cases f.testBit i <;> cases b.testBit i <;> rfl

lemma and_TH_SYN (f : ℕ) : f &&& TH_SYN = 0 ↔ f.testBit 1 = false := by
  have hbit : TH_SYN = 2 ^ 1 := rfl
  rw [hbit, Nat.and_two_pow]
  cases f.testBit 1 <;> simp

namespace ReassemblyQueue
variable {F : ℤ} {rq : ReassemblyQueue}

/-- The queue of a receiver that still waits for the end of a stream at `F`. -/
def Waits (F : ℤ) (rq : ReassemblyQueue) : Prop :=
  rq.rcvNxt ≤ F ∧ ∃ bs, Holds rq bs ∧
    (∀ b ∈ bs, rq.rcvNxt < b.start ∧ b.stop ≤ F ∧ (b.start = b.stop → b.start = F)) ∧
    ∀ b ∈ bs, b.flags.testBit 0 → b.stop = F

/-- A segment of the stream that ends at `F`, without what was received before. -/
structure Fresh (F rcvNxt : ℤ) (g : Blk) : Prop where
  trimmed : rcvNxt ≤ g.start
  ordered : g.start ≤ g.stop
  before : g.stop ≤ F
  fin : g.flags.testBit 0 → g.stop = F
  empty : g.start = g.stop → g.flags.testBit 0

/-- `reass` never goes back, and a FIN comes out only at the end of the stream. -/
lemma Waits.reass {g : Blk} {state : TcpState} (h : Waits F rq) (hg : Fresh F rq.rcvNxt g)
    (hstate : state.haveRcvdSyn ∧ state ≠ .synReceived) :
    ∃ rq' flags, rq.reass state g.start (g.stop - g.start) g.flags = some (rq', flags) ∧
      Waits F rq' ∧ rq.rcvNxt ≤ rq'.rcvNxt ∧ (flags.testBit 0 → rq'.rcvNxt = F) := by
  obtain ⟨hle, _, ⟨fifo, lifo, free, hq, rfl⟩, hbs, hfin⟩ := h
  have hfits : Fits rq fifo g.start g.stop := by
    refine ⟨hg.ordered, fun he a ha => ?_, fun a ha he => ?_⟩
    · have hend := hg.fin (hg.empty he)
      have hstop : rq.endseq a ≤ F := (hbs (rq.blk a) (List.mem_map_of_mem ha)).2.1
      omega
    · have hend : rq.startseq a = F := (hbs (rq.blk a) (List.mem_map_of_mem ha)).2.2 he
      have hstop := hg.before
      omega
  obtain ⟨res, hadd, hres⟩ := add_spec g.flags 0 hq hfits
  have hs : Holds rq (fifo.map rq.blk) := ⟨fifo, lifo, free, hq, rfl⟩
  generalize fifo.map rq.blk = bs at hs hbs hfin hres
  have hempty : g.start = g.stop → g.flags &&& TH_FIN ≠ 0 := fun he => by
    rw [Ne, and_TH_FIN, Bool.not_eq_false]
    exact hg.empty he
  have hstop : (Blk.mergedIn bs g).stop ≤ F :=
    Blk.mergedIn_stop_le hg.before fun b hb => (hbs b hb).2.1
  have hlong := Blk.le_mergedIn_stop bs g
  -- a FIN on the new block is the one at `F`
  have hmerged : (Blk.mergedIn bs g).flags.testBit 0 → (Blk.mergedIn bs g).stop = F := by
    intro hm
    rcases Blk.testBit_mergedIn hm with hf | ⟨b, hb, hf⟩
    · have := hg.fin hf
      omega
    · have := hfin b (List.mem_of_mem_filter hb) hf
      have := Blk.stop_le_mergedIn hb
      omega
  rcases hg.trimmed.eq_or_lt with hfill | hlt
  · obtain ⟨rq', flags, hcall, hs', hrcv, hflags, hafter⟩ :=
      reass_hole hs (fun b hb => (hbs b hb).1) hg.ordered hadd hres hstate hfill.symm hempty
    refine ⟨rq', flags, hcall, ⟨hrcv.trans_le hstop, _, hs', fun b hb => ?_, fun b hb => ?_⟩, ?_, ?_⟩
    · rw [hrcv]
      exact ⟨hafter b hb, (hbs b (List.mem_of_mem_filter hb)).2⟩
    · exact hfin b (List.mem_of_mem_filter hb)
    · rw [hrcv, hfill]
      exact hg.ordered.trans hlong
    · rw [hrcv, hflags, hres.flags]
      exact hmerged
  · obtain ⟨rq', hcall, hs', hrcv, hstart⟩ :=
      reass_behind state (fun b hb => (hbs b hb).1) hadd hres hlt hempty
    refine ⟨rq', 0, hcall, ⟨hrcv.trans_le hle, _, hs', fun b hb => ?_, fun b hb hf => ?_⟩, hrcv.ge,
      by simp⟩
    · rw [hrcv]
      refine ⟨hstart b hb, ?_⟩
      rcases Blk.mem_addSeg hb with rfl | ⟨hb, -⟩
      · refine ⟨hstop, fun he => ?_⟩
        have h₁ := Blk.mergedIn_start_le bs g
        have h₂ := hg.ordered
        have h₃ := hg.fin (hg.empty (by omega))
        omega
      · exact (hbs b hb).2
    · rcases Blk.mem_addSeg hb with rfl | ⟨hb, -⟩
      · exact hmerged hf
      · exact hfin b hb hf

/-- Nothing waits behind the end of the stream. -/
lemma Waits.empty_of_end (h : Waits F rq) (hend : rq.rcvNxt = F) : rq.empty := by
  obtain ⟨-, bs, hs, hbs, -⟩ := h
  have hnil : bs = [] := by
    refine List.eq_nil_iff_forall_not_mem.mpr fun b hb => ?_
    have h₁ := (hbs b hb).1
    have h₂ := (hbs b hb).2.1
    have h₃ := hs.start_le_stop hb
    omega
  subst hnil
  obtain ⟨fifo, lifo, free, hq, hmap⟩ := hs
  obtain rfl : fifo = [] := List.map_eq_nil_iff.mp hmap
  rw [empty, hq.onFifo.head_eq]
  rfl

/-- The queue is empty, so `rcv_nxt_` may go ahead. -/
lemma Waits.advance (h : Waits F rq) (hempty : rq.empty) {x : ℤ} (hx : x ≤ F) :
    Waits F { rq with rcvNxt := x } := by
  obtain ⟨-, bs, ⟨fifo, lifo, free, hq, hmap⟩, -⟩ := h
  have hnil : fifo = [] := by
    have hhead : rq.head = none := by simpa [empty] using hempty
    exact hq.onFifo.nil_iff.mp hhead
  refine ⟨hx, [], ⟨fifo, lifo, free, ⟨hq.toShape, hq.same, hq.gapped, hq.total_eq⟩, by simp [hnil]⟩,
    by simp, by simp⟩

end ReassemblyQueue

/-- A segment of a peer whose FIN, if it ever sends one, stands at `F`. -/
structure OfStream (F : ℤ) (p : TcpPacket) : Prop where
  size : p.hlen ≤ p.size
  before : p.hlen < p.size → p.seqno + (if p.has TH_SYN then 1 else 0) + (p.size - p.hlen) ≤ F
  fin : p.has TH_FIN → p.seqno + (if p.has TH_SYN then 1 else 0) + (p.size - p.hlen) = F

/-- A SYN carries no data. -/
def SynEmpty (p : TcpPacket) : Prop := p.has TH_SYN → p.size = p.hlen

namespace FullTcpAgent
open ReassemblyQueue

variable {κ : Type*} {c : FullTcpConfig κ} {now : ℚ} {s s' t : FullTcpAgent κ} {F : ℤ}
  {p : TcpPacket} {tiflags : ℕ} {datalen : ℤ} {needoutput : Bool}

/-- What is left of a segment belongs to the stream and is new; the size of the packet is right
unless the stream ends here. -/
structure Incoming (F rcvNxt : ℤ) (p : TcpPacket) (datalen : ℤ) : Prop where
  fresh : Fresh F rcvNxt ⟨⟨p.seqno, p.seqno + datalen⟩, p.flags⟩
  size : p.size - p.hlen = datalen ∨ rcvNxt = F

lemma has_TH_FIN (p : TcpPacket) : p.has TH_FIN = p.flags.testBit 0 := by
  rw [TcpPacket.has]
  cases h : p.flags.testBit 0
  · simpa using (and_TH_FIN _).mpr h
  · simpa using fun h' => by rw [(and_TH_FIN _).mp h'] at h; exact Bool.noConfusion h

/-- A segment passes as it is, is a duplicate altogether, or starts at `rcv_nxt_` afterwards. -/
lemma trim_cases (rcvNxt : ℤ) (p : TcpPacket) :
    (trim rcvNxt p = ⟨p, p.flags, p.size - p.hlen, false⟩ ∧
      (rcvNxt ≤ p.seqno ∨ p.has TH_SYN = false ∧ p.size - p.hlen ≤ 0)) ∨
    (trim rcvNxt p).datalen = 0 ∧ (trim rcvNxt p).tiflags &&& TH_FIN = 0 ∨
    ∃ syn k : ℤ, syn = (if p.has TH_SYN then 1 else 0) ∧ p.seqno + syn + k = rcvNxt ∧ 0 < syn + k ∧
      k ≤ p.size - p.hlen ∧ (k = p.size - p.hlen → p.flags.testBit 0) ∧
      trim rcvNxt p = ⟨{ p with seqno := rcvNxt, size := p.size - syn - k },
        clearFlags p.flags TH_SYN, p.size - p.hlen - k, false⟩ := by
  by_cases htrim : rcvNxt - p.seqno > 0 ∧ (p.has TH_SYN ∨ p.size - p.hlen > 0)
  · right
    -- what is cut off behind the SYN
    obtain ⟨syn, hsyn⟩ : ∃ syn : ℤ, syn = if p.has TH_SYN then 1 else 0 := ⟨_, rfl⟩
    obtain ⟨k, hk⟩ : ∃ k, k = rcvNxt - p.seqno - syn := ⟨_, rfl⟩
    have htodrop : (if p.has TH_SYN then rcvNxt - p.seqno - 1 else rcvNxt - p.seqno) = k := by
      rw [hk, hsyn]
      split <;> simp
    have hpacket : (if p.has TH_SYN then { p with seqno := p.seqno + 1, size := p.size - 1 } else p) =
        { p with seqno := p.seqno + syn, size := p.size - syn } := by
      rw [hsyn]
      split <;> simp
    have hFIN : clearFlags p.flags TH_SYN &&& TH_FIN = 0 ↔ p.flags.testBit 0 = false := by
      rw [and_TH_FIN, clearFlags_testBit]
      simp [TH_SYN, Nat.testBit]
    unfold trim
    simp only [if_pos htrim, htodrop, hpacket, hFIN]
    by_cases hdup : k > p.size - p.hlen ∨ k = p.size - p.hlen ∧ p.flags.testBit 0 = false
    · left
      simp only [hdup, decide_true, if_true, sub_self, true_and]
      rw [and_TH_FIN, clearFlags_testBit]
      simp [TH_FIN, Nat.testBit]
    · right
      refine ⟨syn, k, hsyn, by omega, by omega, by omega, fun he => ?_, ?_⟩
      · by_contra hno
        exact hdup (Or.inr ⟨he, by simpa using hno⟩)
      · have hseqno : p.seqno + syn + k = rcvNxt := by omega
        simp only [hdup, decide_false, Bool.false_eq_true, if_false, hseqno]
  · left
    refine ⟨if_neg htrim, ?_⟩
    by_contra hno
    rw [not_or, not_and_or] at hno
    exact htrim ⟨by omega, hno.2.imp (by simp) (by omega)⟩

lemma trim_incoming {rcvNxt : ℤ} (hp : OfStream F p) (hsyn : SynEmpty p)
    (hle : rcvNxt ≤ F ∨ p.has TH_FIN = false) (hclear : (trim rcvNxt p).tiflags &&& TH_SYN = 0)
    (hnew : (trim rcvNxt p).datalen > 0 ∨ (trim rcvNxt p).tiflags &&& TH_FIN ≠ 0) :
    Incoming F rcvNxt (trim rcvNxt p).packet (trim rcvNxt p).datalen := by
  obtain ⟨hsize, hbefore, hfin⟩ := hp
  rw [has_TH_FIN] at hfin hle
  rcases trim_cases rcvNxt p with ⟨htrim, hpass⟩ | ⟨hdata, hflag⟩ |
    ⟨syn, k, hsynval, hseqno, hpos, hk, hall, htrim⟩
  · rw [htrim] at hclear hnew ⊢
    have hno : p.has TH_SYN = false := by simpa [TcpPacket.has] using hclear
    rw [Ne, and_TH_FIN, Bool.not_eq_false] at hnew
    rw [hno] at hbefore hfin
    simp only [Bool.false_eq_true, if_false, add_zero] at hbefore hfin
    dsimp only at hnew ⊢
    refine ⟨⟨?_, ?_, ?_, hfin, fun he => ?_⟩, Or.inl rfl⟩
    · rcases hpass with hpass | ⟨-, hpass⟩
      · exact hpass
      · have hflag := hnew.resolve_left (by omega)
        have := hfin hflag
        have := hle.resolve_right (by simp [hflag])
        dsimp only
        omega
    · dsimp only
      omega
    · rcases hnew with hnew | hnew
      · exact hbefore (by omega)
      · exact (hfin hnew).le
    · exact hnew.resolve_left (by dsimp only at he; omega)
  · exact absurd hflag (hnew.resolve_left (by omega))
  · rw [htrim]
    rw [← hsynval] at hbefore hfin
    have hsize' : p.has TH_SYN → syn = 1 ∧ p.size = p.hlen := fun h => by
      rw [hsynval, if_pos h]
      exact ⟨rfl, hsyn h⟩
    have hnosyn : p.has TH_SYN = false → syn = 0 := fun h => by rw [hsynval, h]; rfl
    refine ⟨⟨le_rfl, ?_, ?_, fun hf => ?_, fun he => ?_⟩, ?_⟩
    · dsimp only
      omega
    · rcases lt_or_eq_of_le hsize with hlt | heq
      · have := hbefore hlt
        dsimp only
        omega
      · cases hs : p.has TH_SYN with
        | true =>
          obtain ⟨h₁, -⟩ := hsize' hs
          have := hfin (hall (by omega))
          dsimp only
          omega
        | false =>
          have := hnosyn hs
          omega
    · have := hfin hf
      dsimp only
      omega
    · exact hall (by dsimp only at he; omega)
    · cases hs : p.has TH_SYN with
      | true =>
        obtain ⟨h₁, h₂⟩ := hsize' hs
        have := hfin (hall (by omega))
        exact Or.inr (by omega)
      | false =>
        have := hnosyn hs
        exact Or.inl (by dsimp only; omega)

/-- The FIN of the peer is counted in `rcv_nxt_`. -/
def finCounted (state : TcpState) : Bool :=
  state = .closeWait ∨ state = .closing ∨ state = .lastAck ∨ state = .closed

/-- A connection with a peer whose stream ends at `F`. -/
structure Delivers (F : ℤ) (s : FullTcpAgent κ) : Prop where
  synced : s.state ≠ .listen ∧ s.state ≠ .synSent
  waits : finCounted s.state = false → Waits F s.rq
  ended : finCounted s.state → s.rcvNxt = F + 1
  sum : s.delivered.sum = s.rcvNxt - (s.irs + 1) - if finCounted s.state then 1 else 0

lemma Delivers.rcvNxt_le (h : Delivers F s) : s.rcvNxt ≤ F + 1 := by
  cases hf : finCounted s.state with
  | true => exact (h.ended hf).le
  | false => exact (h.waits hf).1.trans (by omega)

/-- A step that leaves the receiving side alone and counts no FIN. -/
lemma Delivers.congr (h : Delivers F s) (hrq : t.rq = s.rq) (hirs : t.irs = s.irs)
    (hdel : t.delivered = s.delivered) (hstate : t.state ≠ .listen ∧ t.state ≠ .synSent)
    (hfin : finCounted t.state = finCounted s.state) : Delivers F t := by
  have hrcv : t.rcvNxt = s.rcvNxt := congrArg (·.rcvNxt) hrq
  refine ⟨hstate, fun hf => ?_, fun hf => ?_, ?_⟩
  · rw [hrq]
    exact h.waits (hfin ▸ hf)
  · rw [hrcv]
    exact h.ended (hfin ▸ hf)
  · rw [hdel, hrcv, hirs, hfin]
    exact h.sum

lemma Delivers.same (h : Delivers F s) (hs : SameReceiver s t) : Delivers F t := by
  rcases hs.state with hstate | ⟨hstate, hclose⟩
  · exact h.congr hs.rq hs.irs hs.delivered (hstate ▸ h.synced) (congrArg _ hstate)
  · refine h.congr hs.rq hs.irs hs.delivered (by simp [hstate]) ?_
    have hsynced := h.synced
    rw [hstate]
    cases hstate' : s.state <;> simp_all [TcpState.upToEstablished, finCounted]

lemma SameReceiver.rcvNxt (h : SameReceiver s t) : t.rcvNxt = s.rcvNxt :=
  congrArg (·.rcvNxt) h.rq

/-- The stream has gone on, or the agent has been reset at the end of the connection. -/
def IsReset (s : FullTcpAgent κ) : Prop := s.state = .closed ∧ s.irs = -1 ∧ s.rcvNxt = -1

def Continues (F : ℤ) (s t : FullTcpAgent κ) : Prop :=
  IsReset t ∨ Delivers F t ∧ s.rcvNxt ≤ t.rcvNxt

lemma Delivers.continues (h : Delivers F s) (hs : SameReceiver s t) : Continues F s t :=
  Or.inr ⟨h.same hs, hs.rcvNxt.ge⟩

lemma Continues.of_le (h : Continues F s' t) (hle : s.rcvNxt ≤ s'.rcvNxt) : Continues F s t :=
  h.imp_right fun ⟨ht, hle'⟩ => ⟨ht, hle.trans hle'⟩

lemma Delivers.usrclosed (h : Delivers F s) (hres : usrclosed c now s = some t) :
    Continues F s t := by
  have hu : Delivers F { s with state := closesTo s.state } := by
    have hsynced := h.synced
    refine h.congr rfl rfl rfl ?_ ?_
    · cases hstate : s.state <;> simp_all [closesTo]
    · cases hstate : s.state <;> simp_all [closesTo, finCounted]
  exact (hu.continues (usrclosed_sends hres).1).of_le le_rfl

/-- The end of `recv`: the agent sends, and closes when the peer has. -/
lemma Delivers.finishRecv (h : Delivers F s) (hres : finishRecv c now needoutput s = some t) :
    Continues F s t := by
  unfold FullTcpAgent.finishRecv at hres
  obtain ⟨s', hs', hres⟩ := Option.bind_eq_some_iff.mp hres
  have hsends : Sends s s' := by
    split at hs'
    · exact Sends.sendMuch hs'
    · split at hs'
      · exact Sends.sendMuch hs'
      · exact Option.some.inj hs' ▸ Sends.refl s
  have h' := h.same hsends.1
  split at hres
  · exact (h'.usrclosed hres).of_le hsends.1.rcvNxt.ge
  · exact Option.some.inj hres ▸ h.continues hsends.1

/-- The FIN is counted at the end of the stream. -/
lemma Delivers.finReceived (h : Delivers F s) (hno : finCounted s.state = false)
    (hend : s.rcvNxt = F) : Delivers F (finReceived s) ∧ s.rcvNxt ≤ (finReceived s).rcvNxt := by
  obtain ⟨⟨hlisten, hsent⟩, -, -, hsum⟩ := h
  have hrcv : (FullTcpAgent.finReceived s).rcvNxt = F + 1 ∧
      (FullTcpAgent.finReceived s).irs = s.irs ∧
      (FullTcpAgent.finReceived s).delivered = s.delivered ∧
      finCounted (FullTcpAgent.finReceived s).state := by
    unfold FullTcpAgent.finReceived
    cases hstate : s.state <;>
      simp_all [finCounted, TcpState.haveRcvdFin, cancelTimers, FullTcpAgent.rcvNxt]
  obtain ⟨hnxt, hirs, hdel, hfin⟩ := hrcv
  refine ⟨⟨?_, fun hf => ?_, fun _ => hnxt, ?_⟩, by omega⟩
  · constructor
    · rintro hstate
      rw [hstate] at hfin
      exact absurd hfin (by decide)
    · rintro hstate
      rw [hstate] at hfin
      exact absurd hfin (by decide)
  · rw [hfin] at hf
    exact absurd hf (by decide)
  · rw [hno] at hsum
    simp only [Bool.false_eq_true, if_false] at hsum
    rw [hdel, hirs, hfin, if_pos rfl]
    omega

/-- In-order data is delivered while nothing is queued. -/
lemma Delivers.deliver {d : ℤ} (h : Delivers F s) (hno : finCounted s.state = false)
    (hempty : s.rq.empty) (hle : s.rcvNxt + d ≤ F)
    (hrq : t.rq = { s.rq with rcvNxt := s.rcvNxt + d }) (hirs : t.irs = s.irs)
    (hdel : t.delivered.sum = d + s.delivered.sum) (hstate : t.state = s.state) : Delivers F t := by
  have hsum := h.sum
  have hrcv : t.rcvNxt = s.rcvNxt + d := congrArg (·.rcvNxt) hrq
  refine ⟨hstate ▸ h.synced, fun _ => ?_, fun hf => ?_, ?_⟩
  · rw [hrq]
    exact (h.waits hno).advance hempty hle
  · rw [hstate, hno] at hf
    exact absurd hf (by decide)
  · rw [hno] at hsum
    rw [hstate, hno, hdel, hirs, hrcv]
    simp only [Bool.false_eq_true, if_false] at hsum ⊢
    omega

/-- Unless the FIN has been received, what is left of a segment is new. -/
def Takes (F : ℤ) (s : FullTcpAgent κ) (p : TcpPacket) (tiflags : ℕ) (datalen : ℤ) : Prop :=
  s.state.haveRcvdFin = false → datalen > 0 ∨ tiflags &&& TH_FIN ≠ 0 → Incoming F s.rcvNxt p datalen

lemma Takes.congr (h : Takes F s p tiflags datalen) (hrcv : t.rcvNxt = s.rcvNxt)
    (hstate : t.state.haveRcvdFin = false → s.state.haveRcvdFin = false) :
    Takes F t p tiflags datalen := by
  intro hf hnew
  rw [hrcv]
  exact h (hstate hf) hnew

lemma Takes.same (h : Takes F s p tiflags datalen) (hs : SameReceiver s t) :
    Takes F t p tiflags datalen := by
  refine h.congr hs.rcvNxt fun hf => ?_
  rcases hs.state with hstate | ⟨-, hclose⟩
  · rwa [← hstate]
  · cases hstate : s.state <;> simp_all [TcpState.upToEstablished, TcpState.haveRcvdFin]

/-- Data of the stream: what comes in order is delivered, and a FIN comes out at the end. -/
lemma Delivers.dodata (h : Delivers F s) (hin : Takes F s p tiflags datalen)
    (horder : s.state = .synReceived → p.seqno = s.rcvNxt ∧ s.rq.empty)
    {f : ℕ} {n : Bool} (hres : dodata c p tiflags datalen needoutput s = some (t, f, n)) :
    Delivers F t ∧ s.rcvNxt ≤ t.rcvNxt ∧
      (f &&& TH_FIN ≠ 0 → finCounted t.state = false ∧ t.rcvNxt = F) := by
  unfold FullTcpAgent.dodata at hres
  split at hres
  · rename_i hnew
    obtain ⟨hfresh, hsize⟩ := hin (by simpa using hnew.2) hnew.1
    have hstop := hfresh.ordered.trans hfresh.before
    have hstart := hfresh.trimmed
    dsimp only at hstop hstart
    -- in LAST_ACK everything has been received before
    have hno : finCounted s.state = false := by
      by_contra hf
      have := h.ended (by simpa using hf)
      have := hfresh.ordered
      have := hfresh.before
      dsimp only at *
      omega
    have hwaits := h.waits hno
    have hsum := h.sum
    rw [hno] at hsum
    split at hres
    · rename_i hord
      obtain ⟨hseq, hempty⟩ := hord
      simp only [Option.some.injEq, Prod.mk.injEq] at hres
      obtain ⟨rfl, rfl, rfl⟩ := hres
      have hle : s.rcvNxt + datalen ≤ F := hseq ▸ hfresh.before
      have hpos : 0 ≤ datalen := by
        have := hfresh.ordered
        dsimp only at this
        omega
      have hlist : (if datalen ≠ 0 then datalen :: s.delivered else s.delivered).sum =
          datalen + s.delivered.sum := by
        split
        · rw [List.sum_cons]
        · omega
      refine ⟨h.deliver hno hempty hle rfl rfl hlist rfl, ?_, fun hf => ?_⟩
      · simp only [rcvNxt]
        omega
      · refine ⟨hno, ?_⟩
        rw [Ne, and_TH_FIN, Bool.not_eq_false, Nat.testBit_and] at hf
        have := hfresh.fin (Bool.and_eq_true_iff.mp hf).1
        simp only [rcvNxt] at hseq this ⊢
        omega
    · rename_i hord
      -- the packet that has lost a byte with its SYN is in order
      have hsize' : p.size - p.hlen = datalen := by
        refine hsize.resolve_right fun hend => hord ?_
        exact ⟨by omega, hwaits.empty_of_end hend⟩
      have hsyn : s.state.haveRcvdSyn ∧ s.state ≠ .synReceived := by
        refine ⟨?_, fun hstate => hord (horder hstate)⟩
        have hsynced := h.synced
        cases hstate : s.state <;> simp_all [TcpState.haveRcvdSyn, finCounted]
      obtain ⟨rq, flags, hcall, hwaits', hle, hfin⟩ := hwaits.reass hfresh hsyn
      rw [show p.seqno + datalen - p.seqno = p.size - p.hlen by omega] at hcall
      dsimp only at hcall
      rw [hcall] at hres
      simp only [Option.map_some, Option.some.injEq, Prod.mk.injEq] at hres
      obtain ⟨rfl, rfl, rfl⟩ := hres
      have hlist : (if rq.rcvNxt > s.rcvNxt then (rq.rcvNxt - s.rcvNxt) :: s.delivered
          else s.delivered).sum = rq.rcvNxt - s.rcvNxt + s.delivered.sum := by
        split
        · rw [List.sum_cons]
        · simp only [rcvNxt] at *
          omega
      refine ⟨⟨h.synced, fun _ => hwaits', fun hf => ?_, ?_⟩, hle, fun hf => ⟨hno, ?_⟩⟩
      · exact absurd hf (by simp [hno])
      · dsimp only at hlist ⊢
        rw [hlist, hno]
        simp only [rcvNxt, Bool.false_eq_true, if_false] at hsum ⊢
        omega
      · rw [Ne, and_TH_FIN, Bool.not_eq_false] at hf
        exact hfin hf
  · simp only [Option.some.injEq, Prod.mk.injEq] at hres
    obtain ⟨rfl, rfl, rfl⟩ := hres
    refine ⟨h, le_rfl, fun hf => absurd ?_ hf⟩
    rw [and_TH_FIN, clearFlags_testBit]
    simp [TH_FIN, Nat.testBit]

/-- From `step6` on. -/
lemma Delivers.step6 (h : Delivers F s) (hin : Takes F s p tiflags datalen)
    (horder : s.state = .synReceived → p.seqno = s.rcvNxt ∧ s.rq.empty)
    (hres : step6 c now p tiflags datalen needoutput s = some t) : Continues F s t := by
  obtain ⟨⟨s', f, n⟩, hs', hres⟩ := Option.bind_eq_some_iff.mp hres
  obtain ⟨h', hle, hfin⟩ := h.dodata hin horder hs'
  dsimp only at hres
  split at hres
  · rename_i hf
    obtain ⟨hfin', hle'⟩ := h'.finReceived (hfin hf).1 (hfin hf).2
    exact (hfin'.finishRecv hres).of_le (hle.trans hle')
  · exact (h'.finishRecv hres).of_le hle

lemma SameReceiver.ne_synReceived (h : SameReceiver s t) (hs : s.state ≠ .synReceived) :
    t.state ≠ .synReceived := by
  rcases h.state with hstate | ⟨hstate, -⟩
  · rwa [hstate]
  · simp [hstate]

lemma isReset_reset (hstate : s.state = .closed) (hres : reset c s = some t) : IsReset t := by
  obtain ⟨rq, -, rfl⟩ := Option.map_eq_some_iff.mp hres
  exact ⟨hstate, rfl, rfl⟩

/-- From `process_ACK` on. -/
lemma Delivers.processAck (h : Delivers F s) (hin : Takes F s p tiflags datalen)
    (hstate : s.state ≠ .synReceived) (hres : processAck c now p tiflags datalen s = some t) :
    Continues F s t := by
  unfold FullTcpAgent.processAck at hres
  split at hres
  · exact h.continues (Sends.dropafterack hres).1
  extract_lets s₁ n at hres
  have hs₁ : SameReceiver s s₁ := by
    have hnew : SameReceiver s { newack c now p s with dupacks := 0 } :=
      ⟨rfl, rfl, rfl, Or.inl rfl⟩
    exact hnew.trans (ackReceived_sends p tiflags).1
  have h₁ := h.same hs₁
  have hin₁ := hin.same hs₁
  have hle := hs₁.rcvNxt.ge
  split at hres
  · exact (h₁.step6 hin₁ (absurd · (hs₁.ne_synReceived hstate)) hres).of_le hle
  · split at hres
    · rename_i hfin _
      have h₂ : Delivers F (cancelTimers { s₁ with state := .finWait2 }) :=
        h₁.congr rfl rfl rfl (by simp [cancelTimers]) (by simp [cancelTimers, hfin, finCounted])
      have hin₂ : Takes F (cancelTimers { s₁ with state := .finWait2 }) p tiflags datalen :=
        hin₁.congr rfl fun _ => by simp [hfin, TcpState.haveRcvdFin]
      exact (h₂.step6 hin₂ (by simp [cancelTimers]) hres).of_le hle
    · rename_i hfin _
      have h₂ : Delivers F (cancelTimers { s₁ with state := .closed }) :=
        h₁.congr rfl rfl rfl (by simp [cancelTimers]) (by simp [cancelTimers, hfin, finCounted])
      have hin₂ : Takes F (cancelTimers { s₁ with state := .closed }) p tiflags datalen :=
        hin₁.congr rfl fun hf => by simp [cancelTimers, TcpState.haveRcvdFin] at hf
      exact (h₂.step6 hin₂ (by simp [cancelTimers]) hres).of_le hle
    · exact Or.inl (isReset_reset rfl hres)
    · exact (h₁.step6 hin₁ (absurd · (hs₁.ne_synReceived hstate)) hres).of_le hle

lemma Delivers.recvAck {dupseg : Bool} (h : Delivers F s) (hin : Takes F s p tiflags datalen)
    (hstate : s.state ≠ .synReceived)
    (hres : recvAck c now p tiflags datalen dupseg s = some t) : Continues F s t := by
  have hstep : ∀ u, SameReceiver s u → FullTcpAgent.step6 c now p tiflags datalen false u = some t →
      Continues F s t := fun u hu hu' =>
    ((h.same hu).step6 (hin.same hu) (absurd · (hu.ne_synReceived hstate)) hu').of_le hu.rcvNxt.ge
  have hsend : ∀ u, SameReceiver s u → SameReceiver u t → Continues F s t := fun u hu hu' =>
    h.continues (hu.trans hu')
  unfold FullTcpAgent.recvAck at hres
  extract_lets s₁ s₂ s₃ at hres
  have hs₁ : SameReceiver s s₁ := ⟨rfl, rfl, rfl, Or.inl rfl⟩
  have hs₂ : SameReceiver s s₂ := ⟨rfl, rfl, rfl, Or.inl rfl⟩
  split at hres
  · split at hres
    · split at hres
      · refine hstep _ ?_ hres
        exact ⟨rfl, rfl, rfl, Or.inl rfl⟩
      · split at hres
        · refine hsend { s₂ with acks := .dupackAction s₂.highestAck :: s₂.acks }
            ⟨rfl, rfl, rfl, Or.inl rfl⟩ ?_
          exact Option.some.inj hres ▸ dupackAction_sends.1
        · split at hres
          · exact hsend (extraAck c s₂) ⟨rfl, rfl, rfl, Or.inl rfl⟩ (Sends.sendMuch hres).1
          · exact hstep _ hs₂ hres
    · refine hstep s₃ ?_ hres
      unfold s₃
      split
      · exact ⟨rfl, rfl, rfl, Or.inl rfl⟩
      · exact hs₁
  · exact ((h.same hs₁).processAck (hin.same hs₁) hstate hres).of_le le_rfl

lemma Delivers.recvTrimmed {dupseg : Bool} (h : Delivers F s)
    (hin : tiflags &&& TH_SYN = 0 → Takes F s p tiflags datalen)
    (hres : recvTrimmed c now p tiflags datalen dupseg s = some t) : Continues F s t := by
  unfold FullTcpAgent.recvTrimmed at hres
  split at hres
  · exact h.continues (Option.some.inj hres ▸ (Sends.dropwithreset _ _ _).1)
  rename_i hclear
  have hin' := hin (by simpa using hclear)
  split at hres
  · exact h.continues (Option.some.inj hres ▸ ⟨rfl, rfl, rfl, Or.inl rfl⟩)
  split at hres
  · rename_i hstate
    extract_lets marked s₁ cwnd at hres
    split at hres
    · exact h.continues (Option.some.inj hres ▸ (Sends.dropwithreset _ _ _).1)
    split at hres
    · have hs : SameReceiver s (cancelRtxTimer { s with ecnSynNext := false }) :=
        ⟨rfl, rfl, rfl, Or.inl rfl⟩
      have hs₁ : SameReceiver s s₁ := hs.trans (Sends.foutput _).1
      exact h.continues (Option.some.inj hres ▸ hs₁.trans ⟨rfl, rfl, rfl, Or.inl rfl⟩)
    · -- the handshake is over
      have hnext : ∀ u : FullTcpAgent κ, u.rq = s.rq → u.irs = s.irs → u.delivered = s.delivered →
          u.state = (if s.needfin then .finWait1 else .established) →
          FullTcpAgent.recvAck c now p tiflags datalen dupseg u = some t → Continues F s t := by
        intro u hrq hirs hdel hu hres
        have hrcv : u.rcvNxt = s.rcvNxt := congrArg (·.rcvNxt) hrq
        have hor : u.state = .finWait1 ∨ u.state = .established := by
          rw [hu]
          split
          · exact Or.inl rfl
          · exact Or.inr rfl
        have h' : Delivers F u := by
          refine h.congr hrq hirs hdel ?_ ?_
          · rcases hor with hu | hu <;> simp [hu]
          · rcases hor with hu | hu <;> simp [hu, hstate, finCounted]
        have hin'' : Takes F u p tiflags datalen :=
          hin'.congr hrcv fun _ => by simp [hstate, TcpState.haveRcvdFin]
        have hne : u.state ≠ .synReceived := by rcases hor with hu | hu <;> simp [hu]
        exact (h'.recvAck hin'' hne hres).of_le hrcv.ge
      refine hnext _ ?_ ?_ ?_ ?_ hres <;> rfl
  · rename_i hstate
    exact h.recvAck hin' hstate hres

lemma Delivers.recvSegment (h : Delivers F s) (hp : OfStream F p) (hsyn : SynEmpty p)
    (hlast : s.state = .lastAck → p.has TH_FIN = false)
    (hres : recvSegment c now p s = some t) : Continues F s t := by
  unfold FullTcpAgent.recvSegment at hres
  extract_lets stale s₁ r fresh at hres
  split at hres
  · exact h.continues (Sends.dropafterack hres).1
  -- a state that takes data has not counted the FIN, but for LAST_ACK
  have hin : r.tiflags &&& TH_SYN = 0 → Takes F s r.packet r.tiflags r.datalen := by
    intro hclear hfin hnew
    refine trim_incoming hp hsyn ?_ hclear hnew
    by_cases hstate : s.state = .lastAck
    · exact Or.inr (hlast hstate)
    · refine Or.inl (h.waits ?_).1
      cases hs : s.state <;> simp_all [finCounted, TcpState.haveRcvdFin]
  have hs : ∀ u, SameReceiver s u → FullTcpAgent.recvTrimmed c now r.packet r.tiflags r.datalen
      r.dupseg u = some t → Continues F s t := fun u hu hres =>
    ((h.same hu).recvTrimmed (fun hclear => (hin hclear).same hu) hres).of_le hu.rcvNxt.ge
  refine hs _ ?_ hres
  exact ⟨rfl, rfl, rfl, Or.inl rfl⟩

lemma predictsData_spec (h : predictsData c p s = true) :
    s.state = .established ∧ p.has TH_SYN = false ∧ p.has TH_FIN = false ∧ p.seqno = s.rcvNxt ∧
      p.size - p.hlen ≠ 0 ∧ s.rq.empty := by
  simp only [predictsData, predictOk, decide_eq_true_eq] at h
  obtain ⟨-, ⟨hstate, hflags, -, -, hseq, -⟩, hdata, -, hempty⟩ := h
  have hbit : ∀ i, (p.flags.testBit i && (TH_SYN ||| TH_FIN ||| TH_ACK).testBit i) =
      TH_ACK.testBit i := fun i => by rw [← Nat.testBit_and, hflags]
  refine ⟨hstate, ?_, ?_, hseq, hdata, hempty⟩
  · have h₁ : p.flags.testBit 1 = false := by simpa [TH_SYN, TH_FIN, TH_ACK, Nat.testBit] using hbit 1
    simpa [TcpPacket.has] using (and_TH_SYN _).mpr h₁
  · have h₀ : p.flags.testBit 0 = false := by simpa [TH_SYN, TH_FIN, TH_ACK, Nat.testBit] using hbit 0
    rw [has_TH_FIN, h₀]

/-- A segment arrives. -/
lemma Delivers.recv (h : Delivers F s) (hp : OfStream F p) (hsyn : SynEmpty p)
    (hres : recv c now p s = some t) : Continues F s t := by
  unfold FullTcpAgent.recv at hres
  extract_lets s₁ datalen s₂ s₃ s₄ _ s₅ at hres
  have hs₃ : SameReceiver s s₃ := by
    unfold s₃ s₂
    split
    · exact ⟨rfl, rfl, rfl, Or.inl rfl⟩
    · exact ⟨rfl, rfl, rfl, Or.inl rfl⟩
  have hs₄ : SameReceiver s s₄ := hs₃.trans (Sends.predicted p).1
  have h₄ := h.same hs₄
  split at hres
  · have hs₁ : SameReceiver s s₁ := ⟨rfl, rfl, rfl, Or.inl rfl⟩
    exact h.continues (hs₁.trans (Sends.dropafterack hres).1)
  split at hres
  · exact h.continues (Option.some.inj hres ▸ ⟨rfl, rfl, rfl, Or.inl rfl⟩)
  split at hres
  · have hack : SameReceiver s₄ (newack c now p s₄) := ⟨rfl, rfl, rfl, Or.inl rfl⟩
    exact h.continues ((hs₄.trans hack).trans (Sends.sendMuch hres).1)
  split at hres
  · rename_i hpredicts
    obtain ⟨hstate, hnosyn, -, hseq, hdata, hempty⟩ := predictsData_spec hpredicts
    have hsize := hp.size
    have hbefore := hp.before (by omega)
    rw [hnosyn] at hbefore
    simp only [Bool.false_eq_true, if_false, add_zero] at hbefore
    have hs : SameReceiver s₃ s₄ := (Sends.predicted p).1
    have hno : finCounted s₄.state = false := by
      rcases hs.state with hs | ⟨hs, -⟩
      · rw [hs, hstate]
        rfl
      · rw [hs]
        rfl
    have hle : s₄.rcvNxt + datalen ≤ F := by
      rw [hs.rcvNxt, ← hseq]
      exact hbefore
    have h₅ : Delivers F s₅ :=
      h₄.deliver hno (hs.rq ▸ hempty) hle rfl rfl (List.sum_cons ..) rfl
    have hgrow : s.rcvNxt ≤ s₅.rcvNxt := by
      have h₀ := hs₄.rcvNxt
      have h₁ : s₅.rcvNxt = s₄.rcvNxt + datalen := rfl
      omega
    split at hres
    · exact (h₅.continues (Sends.sendMuch hres).1).of_le hgrow
    · exact Option.some.inj hres ▸ Or.inr ⟨h₅, hgrow⟩
  · -- behind header prediction
    have hsynced := h₄.synced
    have hslow : (s₄.state = .lastAck → p.has TH_FIN = false) →
        FullTcpAgent.recvSegment c now p s₄ = some t → Continues F s t := fun hlast hres =>
      (h₄.recvSegment hp hsyn hlast hres).of_le hs₄.rcvNxt.ge
    unfold recvSlow at hres
    split at hres
    · rename_i hstate
      exact absurd hstate hsynced.1
    · rename_i hstate
      exact absurd hstate hsynced.2
    · split at hres
      · exact Option.some.inj hres ▸ h.continues hs₄
      · rename_i hfin
        exact hslow (fun _ => by simpa using hfin) hres
    · rename_i hlast
      exact hslow (fun hstate => absurd hstate hlast) hres

/-- An agent that waits for the SYN of its peer. -/
structure Waiting (s : FullTcpAgent κ) : Prop where
  state : s.state = .listen ∨ s.state = .synSent
  queue : ReassemblyQueue.Holds s.rq []
  delivered : s.delivered = []

/-- The SYN is accepted: the stream starts behind it. -/
lemma Waiting.accept (hs : Waiting s) (hp : OfStream F p) (hsyn : SynEmpty p) (hhas : p.has TH_SYN)
    (hF : p.seqno < F) (hf : tiflags &&& TH_FIN ≠ 0 → p.has TH_FIN)
    (hrq : t.rq = { s.rq with rcvNxt := p.seqno + (p.size - p.hlen) + 1 }) (hirs : t.irs = p.seqno)
    (hdel : t.delivered = s.delivered)
    (hstate : t.state = .synReceived ∨ t.state = .established ∨ t.state = .finWait1) :
    Delivers F t ∧ Takes F t { p with seqno := p.seqno + 1 } tiflags (p.size - p.hlen) ∧
      p.seqno + 1 = t.rcvNxt ∧ t.rq.empty := by
  have hsize := hsyn hhas
  have hrcv : t.rcvNxt = p.seqno + 1 := by
    have : t.rcvNxt = p.seqno + (p.size - p.hlen) + 1 := congrArg (·.rcvNxt) hrq
    omega
  have hno : finCounted t.state = false := by
    rcases hstate with h | h | h <;> rw [h] <;> rfl
  have hq : ReassemblyQueue.Holds t.rq [] := by
    obtain ⟨fifo, lifo, free, hq, hmap⟩ := hs.queue
    rw [hrq]
    exact ⟨fifo, lifo, free, ⟨hq.toShape, hq.same, hq.gapped, hq.total_eq⟩, hmap⟩
  have hwaits : Waits F t.rq := ⟨by simp only [rcvNxt] at hrcv; omega, [], hq, by simp, by simp⟩
  refine ⟨⟨?_, fun _ => hwaits, fun h => ?_, ?_⟩, fun _ hnew => ?_, hrcv.symm, ?_⟩
  · rcases hstate with h | h | h <;> simp [h]
  · rw [hno] at h
    exact absurd h (by decide)
  · rw [hdel, hs.delivered, hno, hirs, hrcv]
    simp
  · have hfin := hf (hnew.resolve_left (by omega))
    have hend := hp.fin hfin
    rw [if_pos hhas] at hend
    rw [has_TH_FIN] at hfin
    refine ⟨⟨hrcv.le, ?_, ?_, fun _ => ?_, fun _ => hfin⟩, Or.inl rfl⟩
    · dsimp only
      omega
    · dsimp only
      omega
    · dsimp only
      omega
  · obtain ⟨fifo, lifo, free, hq, hmap⟩ := hq
    obtain rfl : fifo = [] := List.map_eq_nil_iff.mp hmap
    rw [ReassemblyQueue.empty, hq.onFifo.head_eq]
    rfl

lemma dropwithreset_state : (dropwithreset c now p tiflags datalen s).state = s.state := by
  unfold dropwithreset
  split <;> rfl

lemma Continues.ends (h : Continues F s t) : IsReset t ∨ Delivers F t := h.imp_right And.left

lemma Waiting.recvListen (hs : Waiting s) (hp : OfStream F p) (hsyn : SynEmpty p)
    (hF : p.seqno < F) (hres : recvListen c now p s = some t) (hleft : t.state ≠ s.state) :
    IsReset t ∨ Delivers F t := by
  unfold FullTcpAgent.recvListen at hres
  extract_lets datalen s₁ _ s₂ at hres
  split at hres
  · exact absurd (Option.some.inj hres ▸ dropwithreset_state) hleft
  split at hres
  · exact absurd (Option.some.inj hres ▸ rfl) hleft
  · rename_i hhas
    obtain ⟨h₂, hin, hseq, hempty⟩ := hs.accept (t := s₂) hp hsyn (by simpa using hhas) hF
      (fun h => decide_eq_true h) rfl rfl rfl (Or.inl rfl)
    exact (h₂.step6 hin (fun _ => ⟨hseq, hempty⟩) hres).ends

lemma Waiting.recvSynSent (hs : Waiting s) (hp : OfStream F p) (hsyn : SynEmpty p)
    (hF : p.seqno < F) (hres : recvSynSent c now p s = some t) (hleft : t.state ≠ s.state) :
    IsReset t ∨ Delivers F t := by
  unfold FullTcpAgent.recvSynSent at hres
  extract_lets datalen _ s₁ marked f _ s₂ s₃ s₄ at hres
  split at hres
  · exact absurd (Option.some.inj hres ▸ dropwithreset_state) hleft
  split at hres
  · exact absurd (Option.some.inj hres ▸ rfl) hleft
  rename_i hhas
  split at hres
  · exact absurd (Option.some.inj hres ▸ rfl) hleft
  split at hres
  · have hf : f &&& TH_FIN ≠ 0 → p.has TH_FIN := by
      rw [Ne, and_TH_FIN, Bool.not_eq_false, has_TH_FIN]
      unfold f
      split
      · rw [clearFlags_testBit]
        exact fun h => (Bool.and_eq_true_iff.mp h).1
      · exact id
    have hstate : s₃.state = .established ∨ s₃.state = .finWait1 := by
      by_cases hfin : s₁.needfin = true
      · exact Or.inr (if_pos hfin)
      · exact Or.inl (if_neg hfin)
    obtain ⟨h₃, hin, -, -⟩ := hs.accept (t := s₃) hp hsyn (by simpa using hhas) hF hf rfl rfl rfl
      (Or.inr hstate)
    have hne : s₃.state ≠ .synReceived := by rcases hstate with h | h <;> simp [h]
    exact (h₃.processAck hin hne hres).ends
  · obtain ⟨h₄, hin, hseq, hempty⟩ := hs.accept (t := s₄) hp hsyn (by simpa using hhas) hF
      (fun h => decide_eq_true h) rfl rfl rfl (Or.inl rfl)
    exact (h₄.step6 hin (fun _ => ⟨hseq, hempty⟩) hres).ends

/-- Whoever waits for a SYN and has left this state has accepted one. -/
lemma Waiting.recv (hs : Waiting s) (hp : OfStream F p) (hsyn : SynEmpty p) (hF : p.seqno < F)
    (hres : recv c now p s = some t) (hleft : t.state ≠ s.state) : IsReset t ∨ Delivers F t := by
  unfold FullTcpAgent.recv at hres
  extract_lets s₁ datalen s₂ s₃ s₄ _ s₅ at hres
  have hstate₁ : s₁.state = s.state := rfl
  have hs₃ : s₃.state = s.state ∧ s₃.rq = s.rq ∧ s₃.delivered = s.delivered := by
    unfold s₃ s₂
    split <;> exact ⟨rfl, rfl, rfl⟩
  have hne : ∀ x, x ≠ .listen → x ≠ .synSent → s.state ≠ x := by
    rintro x h₁ h₂ rfl
    rcases hs.state with h | h
    · exact h₁ h
    · exact h₂ h
  have hpredict : predictOk c p s₃ = false := by
    rw [predictOk, hs₃.1]
    simp [hne .established]
  have hs₄ : s₄ = s₃ := by simp [s₄, predicted, hpredict]
  have hw : Waiting s₄ := by
    rw [hs₄]
    exact ⟨hs₃.1 ▸ hs.state, hs₃.2.1 ▸ hs.queue, hs₃.2.2.trans hs.delivered⟩
  have hleft₄ : t.state ≠ s₄.state := by rwa [hs₄, hs₃.1]
  rw [if_neg fun h => hne .closed (by simp) (by simp) h.1,
    if_neg (hne .closed (by simp) (by simp)), if_neg (by simp [predictsAck, hpredict]),
    if_neg (by simp [predictsData, hpredict])] at hres
  change recvSlow c now p s₄ = some t at hres
  unfold recvSlow at hres
  rcases hw.state with h | h
  · rw [h] at hres
    exact hw.recvListen hp hsyn hF hres hleft₄
  · rw [h] at hres
    exact hw.recvSynSent hp hsyn hF hres hleft₄

/-- What a connection sees: segments of the peer's stream, timers and requests of the user that do not
begin another connection. -/
def OfConnection (F : ℤ) (s : FullTcpAgent κ) : TcpEvent → Prop
  | .recv p => OfStream F p
  | .timeout _ => True
  | .sendmsg _ _ _ => s.state ≠ .closed
  | .close => True
  | .listen => False

/-- A segment with a SYN carries no data. -/
def NoSynData : TcpEvent → Prop
  | .recv p => SynEmpty p
  | _ => True

/-- The bytes passed to `recvBytes` are those in front of `rcv_nxt_`, without the SYN and the FIN. -/
def Exact (s : FullTcpAgent κ) : Prop :=
  s.delivered.sum = s.rcvNxt - (s.irs + 1) - if finCounted s.state then 1 else 0

lemma Delivers.advanceBytes {nb : ℤ} (h : Delivers F s) (hopen : s.state ≠ .closed)
    (hres : advanceBytes c now s nb = some t) : Continues F s t := by
  have hsynced := h.synced
  unfold FullTcpAgent.advanceBytes at hres
  split at hres
  · rename_i hstate
    exact absurd hstate hopen
  · rename_i hstate
    exact absurd hstate hsynced.1
  · have hs : ∀ u : FullTcpAgent κ, SameReceiver s u →
        FullTcpAgent.sendMuch c now u false c.maxburst = some t → Continues F s t :=
      fun u hu hres => h.continues (hu.trans (Sends.sendMuch hres).1)
    refine hs _ ?_ hres
    exact ⟨rfl, rfl, rfl, Or.inl rfl⟩
  · exact h.continues (Option.some.inj hres ▸ ⟨rfl, rfl, rfl, Or.inl rfl⟩)
  · exact h.continues (Option.some.inj hres ▸ ⟨rfl, rfl, rfl, Or.inl rfl⟩)
  · exact h.continues (Option.some.inj hres ▸ ⟨rfl, rfl, rfl, Or.inl rfl⟩)

lemma Delivers.sendmsg {nb : ℤ} {m d : Bool} (h : Delivers F s) (hopen : s.state ≠ .closed)
    (hres : sendmsg c now s nb m d = some t) : Continues F s t := by
  have hs : ∀ u : FullTcpAgent κ, SameReceiver s u → u.state = s.state → ∀ nb,
      FullTcpAgent.advanceBytes c now u nb = some t → Continues F s t := fun u hu hstate nb hres =>
    ((h.same hu).advanceBytes (hstate ▸ hopen) hres).of_le hu.rcvNxt.ge
  unfold FullTcpAgent.sendmsg at hres
  extract_lets s₁ at hres
  split at hres
  · refine hs _ ?_ ?_ _ hres
    · exact ⟨rfl, rfl, rfl, Or.inl rfl⟩
    · rfl
  · refine hs _ ?_ ?_ _ hres
    · exact ⟨rfl, rfl, rfl, Or.inl rfl⟩
    · rfl

lemma Delivers.step {e : ℚ × TcpEvent} (h : Delivers F s) (he : OfConnection F s e.2)
    (hsyn : NoSynData e.2) (hstep : step c s e = some (t, ())) : Continues F s t := by
  obtain ⟨now, e⟩ := e
  obtain ⟨t', hres, ht⟩ := Option.map_eq_some_iff.mp hstep
  obtain rfl : t' = t := congrArg Prod.fst ht
  cases e with
  | recv p => exact h.recv he hsyn hres
  | timeout timer =>
    dsimp only at hres
    split at hres
    · rcases timeout_sends hres with hs | hs
      · exact h.continues hs.1
      · have h₀ : SameReceiver s { s with dupacks := 0 } := ⟨rfl, rfl, rfl, Or.inl rfl⟩
        exact h.continues (h₀.trans hs.1)
    · exact absurd hres (by simp)
  | sendmsg nb m d => exact h.sendmsg he hres
  | close => exact h.usrclosed hres
  | listen => exact absurd he id

/-- After the end of the connection nothing more is received. -/
lemma IsReset.step {e : ℚ × TcpEvent} (h : IsReset s) (he : OfConnection F s e.2)
    (hstep : step c s e = some (t, ())) : IsReset t := by
  have hsame : SameReceiver s t → IsReset t := by
    intro hs
    refine ⟨?_, hs.irs.trans h.2.1, hs.rcvNxt.trans h.2.2⟩
    rcases hs.state with hstate | ⟨-, hclose⟩
    · exact hstate.trans h.1
    · rw [h.1] at hclose
      exact absurd hclose (by decide)
  obtain ⟨now, e⟩ := e
  obtain ⟨t', hres, ht⟩ := Option.map_eq_some_iff.mp hstep
  obtain rfl : t' = t := congrArg Prod.fst ht
  cases e with
  | recv p =>
    dsimp only at hres
    unfold recv at hres
    extract_lets s₁ at hres
    have hs₁ : SameReceiver s s₁ := ⟨rfl, rfl, rfl, Or.inl rfl⟩
    split at hres
    · exact hsame (hs₁.trans (Sends.dropafterack hres).1)
    · rw [if_pos (show s₁.state = .closed from h.1)] at hres
      exact hsame (Option.some.inj hres ▸ hs₁)
  | timeout timer =>
    dsimp only at hres
    split at hres
    · rcases timeout_sends hres with hs | hs
      · exact hsame hs.1
      · have h₀ : SameReceiver s { s with dupacks := 0 } := ⟨rfl, rfl, rfl, Or.inl rfl⟩
        exact hsame (h₀.trans hs.1)
    · exact absurd hres (by simp)
  | sendmsg nb m d => exact absurd h.1 he
  | close =>
    have hs := (usrclosed_sends hres).1
    have hstate : closesTo s.state = s.state := by
      rw [h.1]
      rfl
    rw [hstate] at hs
    exact hsame hs
  | listen => exact absurd he id

/-- The run of a connection. -/
lemma Delivers.run {es : List (ℚ × TcpEvent)} {os : List Unit} (h : IsReset s ∨ Delivers F s)
    (hes : EachStep (FullTcpAgent.step c) (fun s e => OfConnection F s e.2 ∧ NoSynData e.2) s es)
    (hrun : run (FullTcpAgent.step c) s es = some (t, os)) : Continues F s t := by
  refine hes.invariant (fun u e u' o hu he hstep => ?_) (h.imp_right fun h => ⟨h, le_rfl⟩) hrun
  rcases hu with hu | ⟨hu, hle⟩
  · exact Or.inl (hu.step he.1 hstep)
  · exact (hu.step he.1 he.2 hstep).of_le hle

/-- From the SYN of the peer on, as long as no SYN carries data, each byte in front of `rcv_nxt_` has
been delivered once and `rcv_nxt_` never goes back, until the agent is reset at the end. -/
theorem delivered_run {s₀ s₁ s₂ s₃ : FullTcpAgent κ} {es₁ es₂ : List (ℚ × TcpEvent)}
    {os₁ os₂ : List Unit} (hwait : Waiting s₀) (hp : OfStream F p) (hsyn : SynEmpty p)
    (hF : p.seqno < F) (hstart : FullTcpAgent.recv c now p s₀ = some s₁) (hleft : s₁.state ≠ s₀.state)
    (hes : EachStep (FullTcpAgent.step c) (fun s e => OfConnection F s e.2 ∧ NoSynData e.2) s₁
      (es₁ ++ es₂))
    (h₁ : Library.run (FullTcpAgent.step c) s₁ es₁ = some (s₂, os₁))
    (h₂ : Library.run (FullTcpAgent.step c) s₂ es₂ = some (s₃, os₂)) :
    IsReset s₃ ∨ Exact s₃ ∧ s₂.rcvNxt ≤ s₃.rcvNxt := by
  have hs₂ := Delivers.run (hwait.recv hp hsyn hF hstart hleft) hes.left h₁
  have hs₃ := Delivers.run (hs₂.imp_right And.left) (hes.right h₁) h₂
  exact hs₃.imp_right fun h => ⟨h.1.sum, h.2⟩

/-- A listening agent with the default values. -/
def listening : FullTcpAgent Unit :=
  (init tclDefaults ReassemblyQueue.blank 536 ⟨1, 20, 20, 3, 0, ()⟩).listen

/-- The segment of `datalen` bytes at `seqno`. -/
def segment (seqno ackno : ℤ) (flags : ℕ) (datalen : ℤ) : TcpPacket :=
  ⟨seqno, ackno, flags, datalen + 40, 40, 0, -1, -1, true, false, false, false, false⟩

/-- The ten bytes on the SYN are in front of `rcv_nxt_`, but nothing has been delivered, and after the
next ten bytes still only these have. -/
theorem syn_data_not_delivered :
    ∃ s t, recv tclDefaults 0 (segment 0 0 TH_SYN 10) listening = some s ∧
      recv tclDefaults 1 (segment 11 1 TH_ACK 10) s = some t ∧
      (s.rcvNxt = 11 ∧ s.delivered = [] ∧ ¬Exact s) ∧
      t.rcvNxt = 21 ∧ t.delivered = [10] ∧ ¬Exact t := by
  have hfirst : (recv tclDefaults 0 (segment 0 0 TH_SYN 10) listening).map
      (fun s => (s.rcvNxt, s.irs, s.delivered, s.state)) = some (11, 0, [], .synReceived) := by
    decide +kernel
  have hsecond : ((recv tclDefaults 0 (segment 0 0 TH_SYN 10) listening).bind
      (recv tclDefaults 1 (segment 11 1 TH_ACK 10))).map
      (fun s => (s.rcvNxt, s.irs, s.delivered, s.state)) = some (21, 0, [10], .established) := by
    decide +kernel
  obtain ⟨s, hs, hview⟩ := Option.map_eq_some_iff.mp hfirst
  rw [hs, Option.bind_some] at hsecond
  obtain ⟨t, ht, hview'⟩ := Option.map_eq_some_iff.mp hsecond
  simp only [Prod.mk.injEq] at hview hview'
  obtain ⟨hrcv, hirs, hdel, hstate⟩ := hview
  obtain ⟨hrcv', hirs', hdel', hstate'⟩ := hview'
  refine ⟨s, t, hs, ht, ⟨hrcv, hdel, ?_⟩, hrcv', hdel', ?_⟩
  · rw [Exact, hrcv, hirs, hdel, hstate]
    decide
  · rw [Exact, hrcv', hirs', hdel', hstate']
    decide

theorem delivered_run_one_segment :
    ∃ s₁ s₂, recv tclDefaults 0 (segment 0 0 TH_SYN 0) listening = some s₁ ∧
      run (step tclDefaults) s₁ [(1, .recv (segment 1 1 TH_ACK 10))] = some (s₂, [()]) ∧
      (IsReset s₂ ∨ Exact s₂ ∧ s₁.rcvNxt ≤ s₂.rcvNxt) := by
  have hfirst : (recv tclDefaults 0 (segment 0 0 TH_SYN 0) listening).map (·.state) =
      some .synReceived := by decide +kernel
  have hsecond : (((recv tclDefaults 0 (segment 0 0 TH_SYN 0) listening).bind fun s =>
      run (step tclDefaults) s [(1, .recv (segment 1 1 TH_ACK 10))])).map Prod.snd = some [()] := by
    decide +kernel
  obtain ⟨s₁, hs₁, hstate⟩ := Option.map_eq_some_iff.mp hfirst
  rw [hs₁, Option.bind_some] at hsecond
  obtain ⟨⟨s₂, os⟩, hs₂, hos⟩ := Option.map_eq_some_iff.mp hsecond
  obtain rfl : os = [()] := hos
  have hwait : Waiting listening := by
    obtain ⟨fifo, lifo, free, hq, hmap⟩ := holds_init cached_blank (-1)
    exact ⟨Or.inl rfl, ⟨fifo, lifo, free, hq, hmap⟩, rfl⟩
  have hes : EachStep (step tclDefaults) (fun s e => OfConnection 100 s e.2 ∧ NoSynData e.2) s₁
      ([] ++ [(1, .recv (segment 1 1 TH_ACK 10))]) :=
    ⟨⟨⟨by decide, by decide, by decide⟩, fun h => absurd h (by decide)⟩, fun _ _ _ => trivial⟩
  exact ⟨s₁, s₂, hs₁, hs₂, delivered_run hwait ⟨by decide, by decide, by decide⟩ (fun _ => rfl)
    (by decide) hs₁ (by rw [hstate]; decide) hes (run_nil _ _) hs₂⟩

end FullTcpAgent

end NetworkSimulator
