import NetworkSimulator.Satellite.Hdlc
import Mathlib.Data.List.Basic
import Mathlib.Order.Basic
import Mathlib.Tactic.Common

/-!
# The send buffer of HDLC

What the sending side of an agent keeps, whatever the peer and the link do.
-/

namespace NetworkSimulator
open Library

variable {α : Type*} {cfg : HdlcConfig}

lemma mem_of_getPkt {buffer : List (ℤ × α)} {n : ℤ} {f : ℤ × α} (h : getPkt buffer n = some f) :
    f ∈ buffer ∧ f.1 = n :=
  ⟨List.mem_of_find?_eq_some h, by simpa using List.find?_some h⟩

namespace ARQstate
variable {a a' : ARQstate α} {r : ARQstate α × List (HdlcOutput α)} {p : ℤ × α}

/-- Everything that sending a frame leaves as it is. -/
structure Agrees (a' a : ARQstate α) : Prop where
  seqno : a'.seqno = a.seqno
  highestAck : a'.highestAck = a.highestAck
  sendBuf : a'.sendBuf = a.sendBuf
  recvSeqno : a'.recvSeqno = a.recvSeqno
  nextpkt : a'.nextpkt = a.nextpkt
  maxseen : a'.maxseen = a.maxseen
  seen : a'.seen = a.seen
  sabmeReq : a'.sabmeReq = a.sabmeReq

lemma Agrees.refl (a : ARQstate α) : a.Agrees a := ⟨rfl, rfl, rfl, rfl, rfl, rfl, rfl, rfl⟩

lemma Agrees.trans {a₁ a₂ a₃ : ARQstate α} (h : a₁.Agrees a₂) (h' : a₂.Agrees a₃) : a₁.Agrees a₃ where
  seqno := h.seqno.trans h'.seqno
  highestAck := h.highestAck.trans h'.highestAck
  sendBuf := h.sendBuf.trans h'.sendBuf
  recvSeqno := h.recvSeqno.trans h'.recvSeqno
  nextpkt := h.nextpkt.trans h'.nextpkt
  maxseen := h.maxseen.trans h'.maxseen
  seen := h.seen.trans h'.seen
  sabmeReq := h.sabmeReq.trans h'.sabmeReq

lemma Agrees.ackSeqno (h : a'.Agrees a) : a'.ackSeqno cfg = a.ackSeqno cfg := by
  unfold ARQstate.ackSeqno
  rw [h.nextpkt, h.recvSeqno]

/-- The frames by which an agent acknowledges: packets of the buffer inside the window, and RR. -/
def Acknowledges (cfg : HdlcConfig) (a : ARQstate α) (o : HdlcOutput α) : Prop :=
  (∃ p ∈ a.sendBuf, p.1 ≤ a.highestAck + cfg.wnd ∧ o = .sendDown (.i (a.ackSeqno cfg) p.1 p.2)) ∨
    o = .sendDown (.s .rr (a.ackSeqno cfg))

/-- The function has sent such frames and done nothing else. -/
structure Sends (cfg : HdlcConfig) (a : ARQstate α) (r : ARQstate α × List (HdlcOutput α)) : Prop where
  agrees : r.1.Agrees a
  outputs : ∀ o ∈ r.2, a.Acknowledges cfg o

lemma Acknowledges.congr {o : HdlcOutput α} (h : a'.Agrees a) (ho : a'.Acknowledges cfg o) : a.Acknowledges cfg o := by
  unfold Acknowledges at ho ⊢
  rwa [h.sendBuf, h.highestAck, h.ackSeqno] at ho

lemma output_agrees (cfg : HdlcConfig) (p : ℤ × α) (seqno : ℤ) : (a.output cfg p seqno).1.Agrees a := by
  unfold output
  extract_lets _ force a₁ a₂
  have h₂ : a₂.Agrees a := by
    dsimp only [a₂]
    split
    · exact ⟨rfl, rfl, rfl, rfl, rfl, rfl, rfl, rfl⟩
    · split <;> exact ⟨rfl, rfl, rfl, rfl, rfl, rfl, rfl, rfl⟩
  refine Agrees.trans ?_ h₂
  dsimp only
  split
  · exact ⟨rfl, rfl, rfl, rfl, rfl, rfl, rfl, rfl⟩
  · exact Agrees.refl a₂

lemma output_sends (seqno : ℤ) (hp : p ∈ a.sendBuf) (hwnd : p.1 ≤ a.highestAck + cfg.wnd) :
    a.Sends cfg (a.output cfg p seqno) :=
  ⟨output_agrees cfg p seqno, fun _ ho => Or.inl ⟨p, hp, hwnd, List.mem_singleton.mp ho⟩⟩

lemma dataToSend_spec (h : a.dataToSend cfg = some p) :
    p ∈ a.sendBuf ∧ p.1 = a.tSeqno ∧ p.1 ≤ a.highestAck + cfg.wnd := by
  unfold dataToSend at h
  split at h
  next hwnd =>
    obtain ⟨hmem, heq⟩ := mem_of_getPkt h
    exact ⟨hmem, heq, heq.trans_le hwnd⟩
  next => cases h

lemma outputNext_sends (h : a.dataToSend cfg = some p) : a.Sends cfg (a.outputNext cfg p) := by
  obtain ⟨hmem, -, hwnd⟩ := dataToSend_spec h
  have hout := output_sends a.tSeqno hmem hwnd
  have hnext : (a.outputNext cfg p).1.Agrees (a.output cfg p a.tSeqno).1 :=
    ⟨rfl, rfl, rfl, rfl, rfl, rfl, rfl, rfl⟩
  exact ⟨hnext.trans hout.agrees, hout.outputs⟩

lemma sendLoop_sends (n : ℕ) (a : ARQstate α) : a.Sends cfg (sendLoop cfg n a) := by
  induction n generalizing a with
  | zero => exact ⟨Agrees.refl a, nofun⟩
  | succ n ih =>
    unfold sendLoop
    split
    · exact ⟨Agrees.refl a, nofun⟩
    next p hp =>
      have hnext := outputNext_sends hp
      have hrest := ih (a.outputNext cfg p).1
      refine ⟨hrest.agrees.trans hnext.agrees, fun o ho => ?_⟩
      rcases List.mem_append.mp ho with ho | ho
      · exact hnext.outputs o ho
      · exact (hrest.outputs o ho).congr hnext.agrees

lemma sendMuch_sends (h : a.sendMuch cfg = some r) : a.Sends cfg r := by
  unfold sendMuch at h
  split at h
  · obtain rfl := Option.some.inj h
    exact sendLoop_sends _ a
  · cases h

lemma ack_sends (a : ARQstate α) : a.Sends cfg (a.ack cfg) := by
  unfold ack
  split
  next p hp =>
    split at hp
    · exact outputNext_sends hp
    · cases hp
  next => exact ⟨Agrees.refl a, fun o ho => Or.inr (List.mem_singleton.mp ho)⟩

/-! ### The buffer -/

/-- The accepted packets with their sequence numbers. -/
def numbered (acc : List α) : List (ℤ × α) := acc.zipIdx.map fun x => ((x.2 : ℤ), x.1)

lemma length_numbered (acc : List α) : (numbered acc).length = acc.length := by
  rw [numbered, List.length_map, List.length_zipIdx]

lemma numbered_concat (acc : List α) (p : α) : numbered (acc ++ [p]) = numbered acc ++ [((acc.length : ℤ), p)] := by
  unfold numbered
  rw [List.zipIdx_append, List.map_append]
  simp

/-- The buffer holds exactly the packets from `highestAck + 1` on. -/
structure Exact (a : ARQstate α) (acc : List α) : Prop where
  seqno : a.seqno = acc.length
  low : -1 ≤ a.highestAck
  high : a.highestAck < a.seqno
  sendBuf : a.sendBuf = (numbered acc).drop (a.highestAck + 1).toNat

variable {acc : List α}

lemma Exact.congr (h : a.Exact acc) (hs : a'.seqno = a.seqno) (hh : a'.highestAck = a.highestAck)
    (hb : a'.sendBuf = a.sendBuf) : a'.Exact acc :=
  ⟨hs.trans h.seqno, hh ▸ h.low, by rw [hh, hs]; exact h.high, by rw [hb, hh, h.sendBuf]⟩

lemma Exact.agrees (h : a.Exact acc) (ha : a'.Agrees a) : a'.Exact acc :=
  h.congr ha.seqno ha.highestAck ha.sendBuf

lemma Exact.newEntry : (newEntry cfg : ARQstate α).Exact [] :=
  ⟨rfl, Int.le_refl _, by show (-1 : ℤ) < 0; decide, rfl⟩

/-- The number of packets in the buffer is that of the packets without acknowledgement. -/
lemma Exact.length (h : a.Exact acc) : (a.sendBuf.length : ℤ) = a.seqno - a.highestAck - 1 := by
  have hlow := h.low
  have hhigh := h.high
  rw [h.sendBuf, List.length_drop, length_numbered]
  have := h.seqno
  omega

lemma Exact.inSendBuffer {q : α} (h : a.Exact acc) :
    (a.inSendBuffer cfg q).1.Exact (if (a.inSendBuffer cfg q).2 then acc ++ [q] else acc) := by
  unfold ARQstate.inSendBuffer
  have hhigh := h.high
  have hseqno := h.seqno
  split
  · exact h
  · refine ⟨?_, h.low, ?_, ?_⟩
    · rw [if_pos rfl, List.length_append, hseqno]
      rfl
    · show a.highestAck < a.seqno + 1
      omega
    · show a.sendBuf ++ [(a.seqno, q)] = (numbered (acc ++ [q])).drop (a.highestAck + 1).toNat
      rw [numbered_concat, List.drop_append_of_le_length (by rw [length_numbered]; omega), h.sendBuf, hseqno]

/-- The acknowledgement of the first packet takes it out. -/
lemma Exact.removePkt (h : a.Exact acc) (hfound : (getPkt a.sendBuf (a.highestAck + 1)).isSome) :
    (a.removePkt (a.highestAck + 1)).Exact acc := by
  have hlow := h.low
  have hlt : (a.highestAck + 1).toNat < (numbered acc).length := by
    by_contra hge
    rw [h.sendBuf, List.drop_of_length_le (by omega)] at hfound
    cases hfound
  have hbuf := h.sendBuf
  rw [List.drop_eq_getElem_cons hlt] at hbuf
  have hfirst : (numbered acc)[(a.highestAck + 1).toNat].1 = a.highestAck + 1 := by
    simp only [numbered, List.getElem_map, List.getElem_zipIdx]
    omega
  rw [length_numbered] at hlt
  have hseqno := h.seqno
  refine ⟨h.seqno, by show -1 ≤ a.highestAck + 1; omega, by show a.highestAck + 1 < a.seqno; omega, ?_⟩
  show a.sendBuf.eraseP _ = _
  rw [hbuf, List.eraseP_cons_of_pos (by simpa using hfirst)]
  show _ = (numbered acc).drop (a.highestAck + 1 + 1).toNat
  congr 1
  omega

/-- What an acknowledgement that skips no packet does. -/
lemma Exact.handlePiggyAck {rseq : ℤ} (h : a.Exact acc) (hturn : rseq - 1 ≤ a.highestAck + 1)
    (hstep : a.handlePiggyAck rseq = some a') : a'.Exact acc := by
  unfold ARQstate.handlePiggyAck at hstep
  dsimp only at hstep
  split at hstep
  next hnew =>
    obtain ⟨p, hp, rfl⟩ := Option.map_eq_some_iff.mp hstep
    obtain hseq : rseq - 1 = a.highestAck + 1 := by omega
    rw [hseq] at hp ⊢
    have hexact := h.removePkt (by rw [hp]; rfl)
    split <;> exact hexact.congr rfl rfl rfl
  next =>
    obtain rfl := Option.some.inj hstep
    exact h.congr rfl rfl rfl

lemma Exact.takeRR {seqno : ℤ} (h : a.Exact acc) (hturn : seqno ≤ a.highestAck + 1) :
    (a.takeRR seqno).1.Exact acc := by
  unfold ARQstate.takeRR
  split
  next hnew =>
    obtain rfl : seqno = a.highestAck + 1 := by omega
    have hremoved : (if (getPkt a.sendBuf (a.highestAck + 1)).isSome then a.removePkt (a.highestAck + 1) else a).Exact
        acc := by
      split
      next hfound => exact h.removePkt hfound
      next => exact h
    dsimp only
    generalize (if (getPkt a.sendBuf (a.highestAck + 1)).isSome then a.removePkt (a.highestAck + 1) else a) = a₁
      at hremoved ⊢
    split <;> exact hremoved.congr rfl rfl rfl
  next => exact h

lemma Exact.handleRR {rseq : ℤ} (h : a.Exact acc) (hturn : rseq - 1 ≤ a.highestAck + 1)
    (hstep : a.handleRR cfg rseq = some r) : r.1.Exact acc := by
  unfold ARQstate.handleRR at hstep
  split at hstep
  · obtain rfl := Option.some.inj hstep
    exact h
  · obtain ⟨r₂, hmuch, rfl⟩ := Option.map_eq_some_iff.mp hstep
    have htaken : ({ (a.takeRR (rseq - 1)).1 with ntimeouts := 0 } : ARQstate α).Exact acc :=
      (h.takeRR hturn).congr rfl rfl rfl
    exact htaken.agrees (sendMuch_sends hmuch).agrees

/-! ### The other handlers -/

lemma deliverLoop_sender (n : ℕ) (a : ARQstate α) :
    (deliverLoop n a).1.seqno = a.seqno ∧ (deliverLoop n a).1.highestAck = a.highestAck ∧
      (deliverLoop n a).1.sendBuf = a.sendBuf := by
  induction n generalizing a with
  | zero => exact ⟨rfl, rfl, rfl⟩
  | succ n ih =>
    unfold deliverLoop
    split
    · exact ⟨rfl, rfl, rfl⟩
    · exact ih _

lemma Exact.selectiveRepeatMode {seq : ℤ} {q : α} (h : a.Exact acc) : (a.selectiveRepeatMode cfg seq q).1.Exact acc := by
  unfold ARQstate.selectiveRepeatMode
  extract_lets justMarked srejs a₁ r r₁ r₂
  have h₁ : a₁.Exact acc := by
    dsimp only [a₁]
    split
    · exact h.congr rfl rfl rfl
    · exact h
  split
  · exact h₁.agrees (ack_sends a₁).agrees
  · obtain ⟨hs, hh, hb⟩ := deliverLoop_sender HDLC_MWS (a₁.setSeen seq q)
    exact (h₁.congr hs hh hb).agrees (ack_sends r₁.1).agrees

lemma Exact.goBackNMode {seq : ℤ} {q : α} (h : a.Exact acc) (hstep : a.goBackNMode cfg seq q = some r) :
    r.1.Exact acc := by
  unfold ARQstate.goBackNMode at hstep
  split at hstep
  · extract_lets a₁ r₁ at hstep
    have h₁ : a₁.Exact acc := h.congr rfl rfl rfl
    split at hstep
    · split at hstep
      · obtain rfl := Option.some.inj hstep
        exact h₁
      · split at hstep
        · cases hstep
        · obtain rfl := Option.some.inj hstep
          exact h₁.congr rfl rfl rfl
    · obtain rfl := Option.some.inj hstep
      exact h₁.agrees (ack_sends a₁).agrees
  · split at hstep
    · split at hstep
      · obtain rfl := Option.some.inj hstep
        exact h
      · obtain rfl := Option.some.inj hstep
        exact h.congr rfl rfl rfl
    · obtain rfl := Option.some.inj hstep
      exact h.agrees (ack_sends a).agrees

lemma Exact.recvIframe {rseq seq : ℤ} {q : α} (h : a.Exact acc) (hturn : rseq - 1 ≤ a.highestAck + 1)
    (hstep : a.recvIframe cfg rseq seq q = some r) : r.1.Exact acc := by
  unfold ARQstate.recvIframe at hstep
  split at hstep
  · obtain rfl := Option.some.inj hstep
    exact h
  extract_lets a₁ at hstep
  have h₁ : a₁.Exact acc ∧ a₁.highestAck = a.highestAck := by
    dsimp only [a₁]
    split
    · exact ⟨h.congr rfl rfl rfl, rfl⟩
    · exact ⟨h, rfl⟩
  obtain ⟨a₂, hpiggy, hstep⟩ := Option.bind_eq_some_iff.mp hstep
  have h₂ : a₂.Exact acc := by
    split at hpiggy
    · exact h₁.1.handlePiggyAck (h₁.2 ▸ hturn) hpiggy
    · obtain rfl := Option.some.inj hpiggy
      exact h₁.1
  extract_lets a₃ at hstep
  have h₃ : a₃.Exact acc := by
    dsimp only [a₃]
    split
    · exact h₂.congr rfl rfl rfl
    · exact h₂
  obtain ⟨r₄, hmode, hstep⟩ := Option.bind_eq_some_iff.mp hstep
  have h₄ : r₄.1.Exact acc := by
    split at hmode
    · obtain rfl := Option.some.inj hmode
      exact h₃.selectiveRepeatMode
    · exact h₃.goBackNMode hmode
  split at hstep
  · obtain ⟨r₅, hmuch, rfl⟩ := Option.map_eq_some_iff.mp hstep
    exact h₄.agrees (sendMuch_sends hmuch).agrees
  · obtain rfl := Option.some.inj hstep
    exact h₄

lemma Exact.handleREJ {seqno : ℤ} (h : a.Exact acc) (hstep : a.handleREJ cfg seqno = some r) : r.1.Exact acc := by
  unfold ARQstate.handleREJ at hstep
  split at hstep
  · obtain rfl := Option.some.inj hstep
    exact h
  · obtain ⟨r₁, hmuch, rfl⟩ := Option.map_eq_some_iff.mp hstep
    have h₁ : ({ a with tSeqno := seqno } : ARQstate α).Exact acc := h.congr rfl rfl rfl
    exact h₁.agrees (sendMuch_sends hmuch).agrees

lemma Exact.handleSREJ {seqno : ℤ} (h : a.Exact acc) (hstep : a.handleSREJ cfg seqno = some r) : r.1.Exact acc := by
  unfold ARQstate.handleSREJ at hstep
  split at hstep
  · obtain rfl := Option.some.inj hstep
    exact h
  · obtain ⟨p, -, rfl⟩ := Option.map_eq_some_iff.mp hstep
    exact h.agrees (output_agrees cfg p seqno)

lemma Exact.delayTimeout (h : a.Exact acc) : (a.delayTimeout cfg).1.Exact acc := by
  unfold ARQstate.delayTimeout
  extract_lets a₁ r₁
  have h₁ : a₁.Exact acc := h.congr rfl rfl rfl
  split
  · exact h₁
  · have hack : r₁.1.Exact acc := h₁.agrees (ack_sends a₁).agrees
    exact hack.congr rfl rfl rfl

lemma Exact.timeout {outs : List (HdlcOutput α)} (h : a.Exact acc) (hstep : a.timeout cfg = some (some a', outs)) :
    a'.Exact acc := by
  unfold ARQstate.timeout at hstep
  extract_lets a₁ at hstep
  have h₁ : a₁.Exact acc := h.congr rfl rfl rfl
  split at hstep
  · cases hstep
  · split at hstep
    · obtain ⟨p, -, heq⟩ := Option.map_eq_some_iff.mp hstep
      obtain rfl := Option.some.inj (Prod.mk.inj heq).1
      exact h₁.congr rfl rfl rfl
    · split at hstep
      · obtain rfl := Option.some.inj (Prod.mk.inj (Option.some.inj hstep)).1
        exact h₁.congr rfl rfl rfl
      · obtain ⟨r₂, hmuch, heq⟩ := Option.map_eq_some_iff.mp hstep
        obtain rfl := Option.some.inj (Prod.mk.inj heq).1
        have h₂ : ({ a₁ with tSeqno := a₁.highestAck + 1 } : ARQstate α).Exact acc := h₁.congr rfl rfl rfl
        exact h₂.agrees (sendMuch_sends hmuch).agrees

end ARQstate

namespace HdlcPeer
variable {h h' : HdlcPeer α} {out : List (HdlcFrame α)}

/-- The entry as it is or will be created. -/
def state (cfg : HdlcConfig) (h : HdlcPeer α) : ARQstate α := h.arq.getD (.newEntry cfg)

/-- A timer that expires resets the connection. -/
def ActResets (cfg : HdlcConfig) (h : HdlcPeer α) : HdlcEvent α → Prop
  | .rtxTimer => ∃ a, h.arq = some a ∧ a.rtxTimer ∧ a.ntimeouts + 1 > cfg.maxTimeouts
  | .resetTimer => ∃ a, h.arq = some a ∧ a.resetTimer
  | _ => False

/-- A frame that arrives resets the connection. -/
def FrameResets (h : HdlcPeer α) : HdlcFrame α → Prop
  | .u .sabme => h.arq ≠ none
  | .u .ua => ∃ a, h.arq = some a ∧ a.disconnect ∧ ¬(a.tSeqno = 0 ∧ a.sabmeReq = .requested)
  | .u .disc => True
  | _ => False

/-- An acknowledgement that arrives is one for at most one more frame. -/
def AckedInTurn (h : HdlcPeer α) : HdlcFrame α → Prop
  | .i rseq _ _ => ∀ a, h.arq = some a → rseq - 1 ≤ a.highestAck + 1
  | .s .rr rseq => ∀ a, h.arq = some a → rseq - 1 ≤ a.highestAck + 1
  | _ => True

/-- What the entry says about the buffer, at an agent. -/
def Exact (cfg : HdlcConfig) (h : HdlcPeer α) : Prop := (h.state cfg).Exact h.accepted

lemma Exact.finish {r : Option (ARQstate α) × List (HdlcOutput α)} {a : ARQstate α} (hr : r.1 = some a)
    (ha : a.Exact h.accepted) : (h.finish r).1.Exact cfg := by
  unfold Exact state HdlcPeer.finish
  rw [hr]
  exact ha

lemma Exact.recvOutgoing {p : α} (hex : h.Exact cfg) (hstep : h.recvOutgoing cfg p = some (h', out)) : h'.Exact cfg := by
  unfold HdlcPeer.recvOutgoing at hstep
  extract_lets a connect a₁ outs r h₁ at hstep
  have ha₁ : a₁.Exact h.accepted := by
    dsimp only [a₁]
    split
    · exact ARQstate.Exact.congr hex rfl rfl rfl
    · exact hex
  have hr : r.1.Exact h₁.accepted := ha₁.inSendBuffer
  split at hstep
  · obtain ⟨r₂, hmuch, hfinish⟩ := Option.map_eq_some_iff.mp hstep
    obtain ⟨rfl, -⟩ := Prod.mk.inj hfinish
    exact Exact.finish rfl (hr.agrees (ARQstate.sendMuch_sends hmuch).agrees)
  · obtain ⟨rfl, -⟩ := Prod.mk.inj (Option.some.inj hstep)
    exact Exact.finish rfl hr

/-- What a frame does to an entry that is not reset. -/
inductive Handles (cfg : HdlcConfig) (a : ARQstate α) : HdlcFrame α → ARQstate α × List (HdlcOutput α) → Prop
  | iframe {rseq seq : ℤ} {p : α} {r : ARQstate α × List (HdlcOutput α)} (hr : a.recvIframe cfg rseq seq p = some r) :
    Handles cfg a (.i rseq seq p) r
  | rr {rseq : ℤ} {r : ARQstate α × List (HdlcOutput α)} (hr : a.handleRR cfg rseq = some r) :
    Handles cfg a (.s .rr rseq) r
  | rej {seqno : ℤ} {r : ARQstate α × List (HdlcOutput α)} (hr : a.handleREJ cfg seqno = some r) :
    Handles cfg a (.s .rej seqno) r
  | rnr {seqno : ℤ} : Handles cfg a (.s .rnr seqno) (a, [])
  | srej {seqno : ℤ} {r : ARQstate α × List (HdlcOutput α)} (hr : a.handleSREJ cfg seqno = some r) :
    Handles cfg a (.s .srej seqno) r
  | connected {r : ARQstate α × List (HdlcOutput α)}
    (hr : (({ a with sabmeReq := .connected } : ARQstate α).cancelRtxTimer.sendMuch cfg) = some r) :
    Handles cfg a (.u .ua) (r.1, r.2 ++ [.free])
  | ua : Handles cfg a (.u .ua) (a, [.free])

/-- What a timer does to an entry that is not reset. -/
inductive Expires (cfg : HdlcConfig) (a : ARQstate α) : ARQstate α × List (HdlcOutput α) → Prop
  | rtx {a' : ARQstate α} {outs : List (HdlcOutput α)} (hlimit : a.ntimeouts + 1 ≤ cfg.maxTimeouts)
    (hr : a.timeout cfg = some (some a', outs)) : Expires cfg a (a', outs)
  | delay : Expires cfg a (a.delayTimeout cfg)

lemma timeout_keeps {a : ARQstate α} {r : Option (ARQstate α) × List (HdlcOutput α)}
    (hlimit : a.ntimeouts + 1 ≤ cfg.maxTimeouts) (hstep : a.timeout cfg = some r) : ∃ a', r.1 = some a' := by
  unfold ARQstate.timeout at hstep
  extract_lets a₁ at hstep
  rw [if_neg (by show ¬a.ntimeouts + 1 > _; omega)] at hstep
  split at hstep
  · obtain ⟨p, -, rfl⟩ := Option.map_eq_some_iff.mp hstep
    exact ⟨_, rfl⟩
  · split at hstep
    · obtain rfl := Option.some.inj hstep
      exact ⟨_, rfl⟩
    · obtain ⟨r₂, -, rfl⟩ := Option.map_eq_some_iff.mp hstep
      exact ⟨_, rfl⟩

/-- Without a reset, a packet is offered, nothing happens, or a timer acts on the entry. -/
lemma act_cases {ev : HdlcEvent α} (hreset : ¬h.ActResets cfg ev) (hstep : h.act cfg ev = some (h', out)) :
    (∃ p, h.recvOutgoing cfg p = some (h', out)) ∨ h' = h ∧ out = [] ∨
      ∃ a r, h.arq = some a ∧ Expires cfg a r ∧ h.finish (some r.1, r.2) = (h', out) := by
  cases ev with
  | recvOutgoing p => exact Or.inl ⟨p, hstep⟩
  | rtxTimer =>
    cases hentry : h.arq with
    | none =>
      simp only [HdlcPeer.act, hentry, Option.some.injEq, Prod.mk.injEq] at hstep
      exact Or.inr (Or.inl ⟨hstep.1.symm, hstep.2.symm⟩)
    | some a =>
      simp only [HdlcPeer.act, hentry] at hstep
      split at hstep
      next hpend =>
        obtain ⟨⟨a', outs⟩, htimeout, hfinish⟩ := Option.map_eq_some_iff.mp hstep
        have hlimit : a.ntimeouts + 1 ≤ cfg.maxTimeouts := by
          by_contra hgt
          exact hreset ⟨a, hentry, hpend, by omega⟩
        obtain ⟨a', rfl⟩ := timeout_keeps hlimit htimeout
        exact Or.inr (Or.inr ⟨a, (a', outs), rfl, .rtx hlimit htimeout, hfinish⟩)
      next =>
        obtain ⟨rfl, rfl⟩ := Prod.mk.inj (Option.some.inj hstep)
        exact Or.inr (Or.inl ⟨rfl, rfl⟩)
  | delayTimer =>
    cases hentry : h.arq with
    | none =>
      simp only [HdlcPeer.act, hentry, Option.some.injEq, Prod.mk.injEq] at hstep
      exact Or.inr (Or.inl ⟨hstep.1.symm, hstep.2.symm⟩)
    | some a =>
      simp only [HdlcPeer.act, hentry] at hstep
      split at hstep
      · exact Or.inr (Or.inr ⟨a, _, rfl, .delay, Option.some.inj hstep⟩)
      · obtain ⟨rfl, rfl⟩ := Prod.mk.inj (Option.some.inj hstep)
        exact Or.inr (Or.inl ⟨rfl, rfl⟩)
  | resetTimer =>
    cases hentry : h.arq with
    | none =>
      simp only [HdlcPeer.act, hentry, Option.some.injEq, Prod.mk.injEq] at hstep
      exact Or.inr (Or.inl ⟨hstep.1.symm, hstep.2.symm⟩)
    | some a =>
      simp only [HdlcPeer.act, hentry] at hstep
      rw [if_neg (fun hpend => hreset ⟨a, hentry, hpend⟩)] at hstep
      obtain ⟨rfl, rfl⟩ := Prod.mk.inj (Option.some.inj hstep)
      exact Or.inr (Or.inl ⟨rfl, rfl⟩)

/-- Without a reset, a frame is ignored, creates the entry, or is handled by it. -/
lemma recvIncoming_cases {f : HdlcFrame α} (hreset : ¬h.FrameResets f) (hstep : h.recvIncoming cfg f = some (h', out)) :
    h' = h ∧ out = [] ∨
      h.arq = none ∧ h.finish (some (.newEntry cfg), [.sendDown (.u .ua), .free]) = (h', out) ∨
      ∃ a r, h.arq = some a ∧ Handles cfg a f r ∧ h.finish (some r.1, r.2) = (h', out) := by
  cases hentry : h.arq with
  | none =>
    cases f with
    | i rseq seq p =>
      simp only [HdlcPeer.recvIncoming, hentry, Option.some.injEq, Prod.mk.injEq] at hstep
      exact Or.inl ⟨hstep.1.symm, hstep.2.symm⟩
    | s stype seq =>
      simp only [HdlcPeer.recvIncoming, hentry, Option.some.injEq, Prod.mk.injEq] at hstep
      exact Or.inl ⟨hstep.1.symm, hstep.2.symm⟩
    | u utype =>
      cases utype with
      | sabme =>
        simp only [HdlcPeer.recvIncoming, hentry] at hstep
        exact Or.inr (Or.inl ⟨rfl, Option.some.inj hstep⟩)
      | disc => exact absurd trivial hreset
      | ua =>
        simp only [HdlcPeer.recvIncoming, hentry, Option.some.injEq, Prod.mk.injEq] at hstep
        exact Or.inl ⟨hstep.1.symm, hstep.2.symm⟩
  | some a =>
    refine Or.inr (Or.inr ?_)
    cases f with
    | i rseq seq p =>
      simp only [HdlcPeer.recvIncoming, hentry] at hstep
      obtain ⟨r, hr, hfinish⟩ := Option.map_eq_some_iff.mp hstep
      exact ⟨a, r, rfl, .iframe hr, hfinish⟩
    | s stype seq =>
      cases stype with
      | rr =>
        simp only [HdlcPeer.recvIncoming, hentry] at hstep
        obtain ⟨r, hr, hfinish⟩ := Option.map_eq_some_iff.mp hstep
        exact ⟨a, r, rfl, .rr hr, hfinish⟩
      | rej =>
        simp only [HdlcPeer.recvIncoming, hentry] at hstep
        obtain ⟨r, hr, hfinish⟩ := Option.map_eq_some_iff.mp hstep
        exact ⟨a, r, rfl, .rej hr, hfinish⟩
      | rnr =>
        simp only [HdlcPeer.recvIncoming, hentry] at hstep
        exact ⟨a, _, rfl, .rnr, Option.some.inj hstep⟩
      | srej =>
        simp only [HdlcPeer.recvIncoming, hentry] at hstep
        obtain ⟨r, hr, hfinish⟩ := Option.map_eq_some_iff.mp hstep
        exact ⟨a, r, rfl, .srej hr, hfinish⟩
    | u utype =>
      cases utype with
      | sabme => exact absurd (hentry.trans_ne (Option.some_ne_none a)) hreset
      | disc => exact absurd trivial hreset
      | ua =>
        simp only [HdlcPeer.recvIncoming, hentry] at hstep
        obtain ⟨r, hua, hfinish⟩ := Option.map_eq_some_iff.mp hstep
        unfold HdlcPeer.handleUA at hua
        split at hua
        · obtain ⟨r₁, hmuch, rfl⟩ := Option.map_eq_some_iff.mp hua
          exact ⟨a, _, rfl, .connected hmuch, hfinish⟩
        next hfirst =>
          rw [if_neg (fun hdisc => hreset ⟨a, hentry, hdisc, hfirst⟩)] at hua
          obtain rfl := Option.some.inj hua
          exact ⟨a, _, rfl, .ua, hfinish⟩

lemma Exact.entry {a : ARQstate α} (hex : h.Exact cfg) (hentry : h.arq = some a) : a.Exact h.accepted := by
  simpa [Exact, state, hentry] using hex

lemma Exact.act {ev : HdlcEvent α} (hex : h.Exact cfg) (hreset : ¬h.ActResets cfg ev)
    (hstep : h.act cfg ev = some (h', out)) : h'.Exact cfg := by
  rcases act_cases hreset hstep with ⟨p, hp⟩ | ⟨rfl, -⟩ | ⟨a, r, hentry, hr, hfinish⟩
  · exact hex.recvOutgoing hp
  · exact hex
  · obtain ⟨rfl, -⟩ := Prod.mk.inj hfinish
    refine Exact.finish rfl ?_
    cases hr with
    | rtx hlimit hr => exact (hex.entry hentry).timeout hr
    | delay => exact (hex.entry hentry).delayTimeout

lemma Exact.recvIncoming {f : HdlcFrame α} (hex : h.Exact cfg) (hreset : ¬h.FrameResets f) (hturn : h.AckedInTurn f)
    (hstep : h.recvIncoming cfg f = some (h', out)) : h'.Exact cfg := by
  rcases recvIncoming_cases hreset hstep with ⟨rfl, -⟩ | ⟨hnone, hfinish⟩ | ⟨a, r, hentry, hr, hfinish⟩
  · exact hex
  · obtain ⟨rfl, -⟩ := Prod.mk.inj hfinish
    exact Exact.finish rfl (by simpa [Exact, state, hnone] using hex)
  · obtain ⟨rfl, -⟩ := Prod.mk.inj hfinish
    have ha := hex.entry hentry
    refine Exact.finish rfl ?_
    cases hr with
    | iframe hr => exact ha.recvIframe (hturn a hentry) hr
    | rr hr => exact ha.handleRR (hturn a hentry) hr
    | rej hr => exact ha.handleREJ hr
    | rnr => exact ha
    | srej hr => exact ha.handleSREJ hr
    | connected hr =>
      have hconnected : (({ a with sabmeReq := .connected } : ARQstate α).cancelRtxTimer).Exact h.accepted :=
        ha.congr rfl rfl rfl
      exact hconnected.agrees (ARQstate.sendMuch_sends hr).agrees
    | ua => exact ha

end HdlcPeer

/-! ### Runs -/

namespace HdlcNetwork
variable {w w' : HdlcNetwork α}

/-- The step does not reset a connection. -/
def NoReset (cfg : HdlcConfig) (w : HdlcNetwork α) : NetworkEvent Station (HdlcEvent α) Unit → Prop
  | .act n ev => ¬(w.node n).ActResets cfg ev
  | .deliver k _ => ∀ n f, w.flight[k]? = some (n, f) → ¬(w.node n).FrameResets f
  | .lose _ => True

/-- An RR or a piggybacked acknowledgement that arrives does not skip a frame. -/
def NoSkip (w : HdlcNetwork α) : NetworkEvent Station (HdlcEvent α) Unit → Prop
  | .deliver k _ => ∀ n f, w.flight[k]? = some (n, f) → (w.node n).AckedInTurn f
  | _ => True

lemma keeps_exact {σ : Station → HdlcPeer α} {n : Station} {h : HdlcPeer α} {out : List (Station × HdlcFrame α)}
    (hσ : ∀ n, (σ n).Exact cfg) (hh : h.Exact cfg) :
    Network.Keeps (fun σ => ∀ n, (σ n).Exact cfg) (fun _ _ _ => True) σ n h out := by
  refine ⟨fun m => ?_, fun _ _ _ => trivial, fun _ _ => trivial⟩
  by_cases hm : m = n
  · subst hm
    rwa [Function.update_self]
  · rw [Function.update_of_ne hm]
    exact hσ m

/-- As long as no connection is reset and no acknowledgement skips a frame, the send buffer of an agent holds exactly
the accepted packets after `highestAck`, and a packet is refused only if there are `queueSize` of them. -/
theorem buffer_run {evs : List (NetworkEvent Station (HdlcEvent α) Unit)} {os : List Unit}
    (hcalm : EachStep (Network.step (hdlcHandlers cfg)) (fun w ev => NoReset cfg w ev ∧ NoSkip w ev) init evs)
    (hrun : run (Network.step (hdlcHandlers cfg)) init evs = some (w, os)) (n : Station) {a : ARQstate α}
    (ha : (w.node n).arq = some a) :
    a.Exact (w.node n).accepted ∧
      (a.seqno - a.highestAck - 1 < cfg.queueSize → ∀ p, (a.inSendBuffer cfg p).2 = true) := by
  have hinit : Network.Holds (fun σ => ∀ n, (σ n).Exact cfg) (fun _ _ _ => True) (init : HdlcNetwork α) :=
    ⟨fun _ => ARQstate.Exact.newEntry, fun _ _ => trivial⟩
  have hw : Network.Holds (fun σ => ∀ n, (σ n).Exact cfg) (fun _ _ _ => True) w := by
    refine Network.Holds.run (fun w n ev h' out hw hP hact => ?_) (fun w n f k x h' out hw hP hk hreceive => ?_)
      hinit hcalm hrun
    · obtain ⟨⟨h₁, out₁⟩, hstep, heq⟩ := Option.map_eq_some_iff.mp hact
      obtain ⟨rfl, -⟩ := Prod.mk.inj heq
      exact keeps_exact hw.nodes ((hw.nodes n).act hP.1 hstep)
    · obtain ⟨⟨h₁, out₁⟩, hstep, heq⟩ := Option.map_eq_some_iff.mp hreceive
      obtain ⟨rfl, -⟩ := Prod.mk.inj heq
      exact keeps_exact hw.nodes ((hw.nodes n).recvIncoming (hP.1 n f hk) (hP.2 n f hk) hstep)
  have hex := (hw.nodes n).entry ha
  refine ⟨hex, fun hroom p => ?_⟩
  unfold ARQstate.inSendBuffer
  rw [if_neg]
  rw [hex.length]
  omega

/-- A packet reaches the other agent over a new connection and is acknowledged. -/
def oneAcknowledged : List (NetworkEvent Station (HdlcEvent ℕ) Unit) :=
  [.act .one (.recvOutgoing 7), .deliver 0 (), .deliver 0 (), .deliver 0 (), .deliver 0 ()]

theorem buffer_run_oneAcknowledged : ∃ w os a,
    run (Network.step (hdlcHandlers ⟨4, 8, 3, true, false, 0⟩)) init oneAcknowledged = some (w, os) ∧
      (w.node .one).arq = some a ∧ a.Exact (w.node .one).accepted ∧
        (a.seqno - a.highestAck - 1 < 8 → ∀ p, (a.inSendBuffer ⟨4, 8, 3, true, false, 0⟩ p).2 = true) := by
  have hrun : ∃ w os a, run (Network.step (hdlcHandlers ⟨4, 8, 3, true, false, 0⟩)) init oneAcknowledged = some (w, os) ∧
      (w.node .one).arq = some a := ⟨_, _, _, rfl, rfl⟩
  obtain ⟨w, os, a, hrun, ha⟩ := hrun
  refine ⟨w, os, a, hrun, ha, buffer_run ?_ hrun .one ha⟩
  refine ⟨⟨id, trivial⟩, fun w o h => ?_⟩
  cases h
  refine ⟨⟨fun n f hk => ?_, fun n f hk => ?_⟩, fun w o h => ?_⟩
  · cases hk
    exact fun hreset => hreset rfl
  · cases hk
    trivial
  cases h
  refine ⟨⟨fun n f hk => ?_, fun n f hk => ?_⟩, fun w o h => ?_⟩
  · cases hk
    rintro ⟨a, ⟨⟩, hdisc, -⟩
    cases hdisc
  · cases hk
    trivial
  cases h
  refine ⟨⟨fun n f hk => ?_, fun n f hk => ?_⟩, fun w o h => ?_⟩
  · cases hk
    exact id
  · cases hk
    rintro a ⟨⟩
    decide
  cases h
  refine ⟨⟨fun n f hk => ?_, fun n f hk => ?_⟩, fun w o h => trivial⟩
  · cases hk
    exact id
  · cases hk
    rintro a ⟨⟩
    decide

/-- The RR for the first packet is lost. -/
def firstAckLost : List (NetworkEvent Station (HdlcEvent ℕ) Unit) :=
  [.act .one (.recvOutgoing 7), .deliver 0 (), .deliver 0 (), .deliver 0 (), .lose 0, .act .one (.recvOutgoing 8),
    .deliver 0 (), .deliver 0 ()]

/-- The RR for both packets takes out the second one only. -/
theorem lost_ack_keeps_packet : ∃ w os a,
    run (Network.step (hdlcHandlers ⟨4, 8, 3, false, false, 0⟩)) init firstAckLost = some (w, os) ∧
      (w.node .one).arq = some a ∧ a.highestAck = 1 ∧ a.seqno = 2 ∧ a.sendBuf = [(0, 7)] ∧
        ¬a.Exact (w.node .one).accepted := by
  have hshort : ∀ a : ARQstate ℕ, a.highestAck = 1 → a.seqno = 2 → a.sendBuf = [(0, 7)] → ∀ acc, ¬a.Exact acc := by
    intro a hhigh hseqno hbuf acc hex
    have := hex.length
    rw [hhigh, hseqno, hbuf] at this
    cases this
  exact ⟨_, _, _, rfl, rfl, rfl, rfl, rfl, hshort _ rfl rfl rfl _⟩

end HdlcNetwork

end NetworkSimulator
