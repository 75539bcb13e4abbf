import NetworkSimulator.Satellite.HdlcBuffer
import Mathlib.Data.List.Count

/-!
# What becomes of a received frame

A frame that comes in is dropped, freed, handed up or put into the receive buffer. Not every handler does one of
these, and some do two.
-/

namespace NetworkSimulator
open Library

variable {α : Type*} {cfg : HdlcConfig}

/-- The packet of an I-frame. -/
def HdlcFrame.packet : HdlcFrame α → Option α
  | .i _ _ p => some p
  | _ => none

namespace HdlcPeer

/-- `recvIncoming`, for the entry of the neighbour: the entry afterwards and everything done on the way. -/
def dispatch (cfg : HdlcConfig) : Option (ARQstate α) → HdlcFrame α →
    Option (Option (ARQstate α) × List (HdlcOutput α))
  | entry, .u .sabme => some (handleSABMErequest cfg entry)
  | none, .u .disc => none
  | none, _ => some (none, [])
  | some a, .i rseq seq p => (a.recvIframe cfg rseq seq p).map fun r => (some r.1, r.2)
  | some a, .s .rr seqno => (a.handleRR cfg seqno).map fun r => (some r.1, r.2)
  | some a, .s .rej seqno => (a.handleREJ cfg seqno).map fun r => (some r.1, r.2)
  | some a, .s .rnr _ => some (some a, [])
  | some a, .s .srej seqno => (a.handleSREJ cfg seqno).map fun r => (some r.1, r.2)
  | some a, .u .disc => some (none, a.reset cfg ++ [.sendDown (.u .ua), .free])
  | some a, .u _ => handleUA cfg a

lemma recvIncoming_eq (h : HdlcPeer α) (f : HdlcFrame α) :
    h.recvIncoming cfg f = (dispatch cfg h.arq f).map h.finish := by
  obtain ⟨entry, accepted, sentUp⟩ := h
  have hnone : HdlcPeer.finish ⟨none, accepted, sentUp⟩ (none, []) = (⟨none, accepted, sentUp⟩, []) := by
    simp [HdlcPeer.finish]
  cases f with
  | i rseq seq p =>
    cases entry with
    | none => exact congrArg some hnone.symm
    | some a =>
      rw [dispatch, Option.map_map]
      rfl
  | s stype seqno =>
    cases entry with
    | none => exact congrArg some hnone.symm
    | some a =>
      cases stype with
      | rnr => rfl
      | _ =>
        rw [dispatch, Option.map_map]
        rfl
  | u utype =>
    cases utype with
    | sabme => rfl
    | disc =>
      cases entry with
      | none => rfl
      | some a => rfl
    | ua =>
      cases entry with
      | none => exact congrArg some hnone.symm
      | some a => rfl

/-- The frame waits in `seen_`. -/
def Stored (entry : Option (ARQstate α)) (f : HdlcFrame α) : Prop :=
  ∃ a p n, entry = some a ∧ f.packet = some p ∧ a.seen n = some p

variable {a a' : ARQstate α} {r : ARQstate α × List (HdlcOutput α)} {f : HdlcFrame α} {p : α} {rseq seq : ℤ}

lemma not_stored_of_packet {entry : Option (ARQstate α)} (h : f.packet = none) : ¬Stored entry f := by
  rintro ⟨-, q, -, -, hq, -⟩
  rw [h] at hq
  cases hq

lemma stored_iff : Stored (some a) (.i rseq seq p) ↔ ∃ n, a.seen n = some p := by
  constructor
  · rintro ⟨_, _, n, ha, hq, hn⟩
    cases ha
    cases hq
    exact ⟨n, hn⟩
  · rintro ⟨n, hn⟩
    exact ⟨a, p, n, rfl, rfl, hn⟩

variable (cfg) in
lemma sendMuch_of_connected (h : a.sabmeReq = .connected) : ∃ r, a.sendMuch cfg = some r ∧ a.Sends cfg r := by
  have hmuch : a.sendMuch cfg = some _ := if_pos h
  exact ⟨_, hmuch, ARQstate.sendMuch_sends hmuch⟩

lemma takeRR_sabmeReq (seqno : ℤ) : (a.takeRR seqno).1.sabmeReq = a.sabmeReq := by
  unfold ARQstate.takeRR
  split
  · have hremoved : (if (getPkt a.sendBuf seqno).isSome then a.removePkt seqno else a).sabmeReq = a.sabmeReq := by
      split <;> rfl
    dsimp only
    generalize (if (getPkt a.sendBuf seqno).isSome then a.removePkt seqno else a) = a₁ at hremoved ⊢
    split <;> exact hremoved
  · rfl

lemma takeRR_snd (seqno : ℤ) : (a.takeRR seqno).2 = if a.highestAck < seqno then [] else [.drop] := by
  unfold ARQstate.takeRR
  by_cases hnew : seqno > a.highestAck
  · rw [if_pos hnew, if_pos hnew]
  · rw [if_neg hnew, if_neg hnew]

lemma deliverLoop_sabmeReq (n : ℕ) (a : ARQstate α) : (ARQstate.deliverLoop n a).1.sabmeReq = a.sabmeReq := by
  induction n generalizing a with
  | zero => rfl
  | succ n ih =>
    unfold ARQstate.deliverLoop
    split
    · rfl
    · exact ih _

/-- The receiving side of the entry is the same. -/
structure SameReceiver (a' a : ARQstate α) : Prop where
  sabmeReq : a'.sabmeReq = a.sabmeReq
  recvSeqno : a'.recvSeqno = a.recvSeqno
  seen : a'.seen = a.seen
  nextpkt : a'.nextpkt = a.nextpkt
  maxseen : a'.maxseen = a.maxseen
  delayTimer : a'.delayTimer = a.delayTimer
  save : a'.save = a.save

/-- An acknowledgement has to be an old one or that of a packet in the buffer. -/
lemma handlePiggyAck_spec :
    ((a.highestAck < rseq - 1 → (getPkt a.sendBuf (rseq - 1)).isSome) ∧
      ∃ a', a.handlePiggyAck rseq = some a' ∧ SameReceiver a' a) ∨
    (¬(a.highestAck < rseq - 1 → (getPkt a.sendBuf (rseq - 1)).isSome) ∧ a.handlePiggyAck rseq = none) := by
  unfold ARQstate.handlePiggyAck
  by_cases hnew : a.highestAck < rseq - 1
  · dsimp only
    rw [if_pos hnew]
    cases hpkt : getPkt a.sendBuf (rseq - 1) with
    | none => exact Or.inr ⟨fun h => absurd (h hnew) Bool.false_ne_true, rfl⟩
    | some q =>
      refine Or.inl ⟨fun _ => rfl, _, rfl, ?_⟩
      split <;> exact ⟨rfl, rfl, rfl, rfl, rfl, rfl, rfl⟩
  · dsimp only
    rw [if_neg hnew]
    exact Or.inl ⟨fun h => absurd h hnew, _, rfl, ⟨rfl, rfl, rfl, rfl, rfl, rfl, rfl⟩⟩

variable (a rseq) in
lemma piggy_spec :
    ((-1 < rseq → a.highestAck < rseq - 1 → (getPkt a.sendBuf (rseq - 1)).isSome) ∧
      ∃ a', (if rseq > -1 then a.handlePiggyAck rseq else some a) = some a' ∧ SameReceiver a' a) ∨
    (¬(-1 < rseq → a.highestAck < rseq - 1 → (getPkt a.sendBuf (rseq - 1)).isSome) ∧
      (if rseq > -1 then a.handlePiggyAck rseq else some a) = none) := by
  by_cases hrseq : rseq > -1
  · rw [if_pos hrseq]
    exact handlePiggyAck_spec.imp (And.imp_left fun h _ => h) (And.imp_left fun h h' => h (h' hrseq))
  · rw [if_neg hrseq]
    exact Or.inl ⟨fun h => absurd h hrseq, a, rfl, ⟨rfl, rfl, rfl, rfl, rfl, rfl, rfl⟩⟩

variable [DecidableEq α]

/-- What ends the frame's life here. -/
def disposes (f : HdlcFrame α) : HdlcOutput α → Bool
  | .drop => true
  | .free => true
  | .sendUp q => f.packet = some q
  | .sendDown _ => false

/-- One of the four happens to the frame, and none of them twice. -/
def DisposedOnce (cfg : HdlcConfig) (entry : Option (ARQstate α)) (f : HdlcFrame α) : Prop :=
  ∃ r, dispatch cfg entry f = some r ∧
    (r.2.countP (disposes f) = 1 ∧ ¬Stored r.1 f ∨ r.2.countP (disposes f) = 0 ∧ Stored r.1 f)

/-- The number of the next frame in order, which the first frame sets. -/
def nextSeqno (a : ARQstate α) (seq : ℤ) : ℤ := if seq = 0 ∧ a.recvSeqno = -1 then 0 else a.recvSeqno

/-- An I-frame comes over a connection, any acknowledgement in it is an old one or that of a packet in the buffer,
and no number that has been passed over arrives as the highest one. -/
structure OrderlyIframe (cfg : HdlcConfig) (a : ARQstate α) (rseq seq : ℤ) : Prop where
  connected : a.sabmeReq ≠ .requested
  acked : -1 < rseq → a.highestAck < rseq - 1 → (getPkt a.sendBuf (rseq - 1)).isSome
  sends : -1 < rseq → a.sabmeReq = .connected ∨ a.recvSeqno = -1
  selRepeat : cfg.selRepeat → ¬(a.maxseen < seq ∧ seq < a.nextpkt)
  save : cfg.selRepeat = false → cfg.delAck → seq = nextSeqno a seq → a.delayTimer = false → a.save = none

/-- Which frames are disposed of. -/
def Orderly (cfg : HdlcConfig) : Option (ARQstate α) → HdlcFrame α → Prop
  | _, .u .sabme => True
  | none, _ => False
  | some _, .u _ => True
  | some a, .i rseq seq _ => OrderlyIframe cfg a rseq seq
  | some a, .s .rr seqno => a.sabmeReq = .connected ∧ a.highestAck < seqno - 1
  | some a, .s .rej _ => a.sabmeReq = .connected
  | some _, .s .rnr _ => False
  | some a, .s .srej seqno => a.sabmeReq = .connected ∧ (getPkt a.sendBuf seqno).isSome

/-! ### Supervisory and unnumbered frames -/

lemma countP_sends (h : a.Sends cfg r) : r.2.countP (disposes f) = 0 := by
  rw [List.countP_eq_zero]
  intro o ho
  rcases h.outputs o ho with ⟨q, -, -, rfl⟩ | rfl <;> exact Bool.false_ne_true

lemma countP_reset (h : f.packet = none) : (a.reset cfg).countP (disposes f) = 0 := by
  rw [List.countP_eq_zero]
  intro o ho
  unfold ARQstate.reset at ho
  split at ho
  · obtain ⟨n, -, hn⟩ := List.mem_filterMap.mp ho
    obtain ⟨q, -, rfl⟩ := Option.map_eq_some_iff.mp hn
    simp [disposes, h]
  · cases ho

/-- A frame without a packet is disposed of by one free or drop. -/
lemma disposedOnce_iff_of_packet {entry : Option (ARQstate α)} (h : f.packet = none) :
    DisposedOnce cfg entry f ↔ ∃ r, dispatch cfg entry f = some r ∧ r.2.countP (disposes f) = 1 := by
  refine exists_congr fun r => and_congr_right fun _ => ?_
  have hno : ¬Stored r.1 f := not_stored_of_packet h
  simp [hno]

/-- An acknowledgement that has come before is dropped and freed. -/
lemma disposedOnce_rr {seqno : ℤ} :
    DisposedOnce cfg (some a) (.s .rr seqno) ↔ a.sabmeReq = .connected ∧ a.highestAck < seqno - 1 := by
  rw [disposedOnce_iff_of_packet rfl, dispatch, ARQstate.handleRR]
  by_cases hconn : a.sabmeReq = .connected
  · obtain ⟨r', hmuch, hsends⟩ := sendMuch_of_connected cfg
      (a := { (a.takeRR (seqno - 1)).1 with ntimeouts := 0 }) ((takeRR_sabmeReq _).trans hconn)
    rw [if_neg (not_not.mpr hconn)]
    dsimp only
    rw [hmuch, takeRR_snd]
    simp only [Option.map_some, Option.some.injEq, exists_eq_left', List.countP_append, List.countP_cons,
      countP_sends hsends, hconn, true_and]
    by_cases hnew : a.highestAck < seqno - 1
    · simp [hnew, disposes]
    · simp [hnew, disposes]
  · rw [if_pos hconn]
    simp [hconn]

lemma disposedOnce_rej {seqno : ℤ} : DisposedOnce cfg (some a) (.s .rej seqno) ↔ a.sabmeReq = .connected := by
  rw [disposedOnce_iff_of_packet rfl, dispatch, ARQstate.handleREJ]
  by_cases hconn : a.sabmeReq = .connected
  · obtain ⟨r', hmuch, hsends⟩ := sendMuch_of_connected cfg (a := { a with tSeqno := seqno }) hconn
    rw [if_neg (not_not.mpr hconn), hmuch]
    simp [countP_sends hsends, hconn, disposes]
  · rw [if_pos hconn]
    simp [hconn]

lemma disposedOnce_srej {seqno : ℤ} :
    DisposedOnce cfg (some a) (.s .srej seqno) ↔ a.sabmeReq = .connected ∧ (getPkt a.sendBuf seqno).isSome := by
  rw [disposedOnce_iff_of_packet rfl, dispatch, ARQstate.handleSREJ]
  by_cases hconn : a.sabmeReq = .connected
  · rw [if_neg (not_not.mpr hconn)]
    cases hpkt : getPkt a.sendBuf seqno with
    | none => simp
    | some q => simp [ARQstate.output, hconn, disposes]
  · rw [if_pos hconn]
    simp [hconn]

lemma disposedOnce_rnr {seqno : ℤ} : ¬DisposedOnce cfg (some a) (.s .rnr seqno) := by
  rw [disposedOnce_iff_of_packet rfl, dispatch]
  simp

lemma disposedOnce_sabme {entry : Option (ARQstate α)} : DisposedOnce cfg entry (.u .sabme) := by
  rw [disposedOnce_iff_of_packet rfl, dispatch.eq_def]
  refine ⟨_, rfl, ?_⟩
  cases entry with
  | none => rfl
  | some a =>
    change (a.reset cfg ++ _).countP _ = 1
    rw [List.countP_append, countP_reset rfl]
    rfl

lemma disposedOnce_disc : DisposedOnce cfg (some a) (.u .disc) := by
  rw [disposedOnce_iff_of_packet rfl, dispatch]
  refine ⟨_, rfl, ?_⟩
  rw [List.countP_append, countP_reset rfl]
  rfl

lemma disposedOnce_ua : DisposedOnce cfg (some a) (.u .ua) := by
  rw [disposedOnce_iff_of_packet rfl, dispatch, handleUA]
  · split
    · obtain ⟨r', hmuch, hsends⟩ := sendMuch_of_connected cfg
        (a := ({ a with sabmeReq := .connected } : ARQstate α).cancelRtxTimer) rfl
      exact ⟨_, by rw [hmuch]; rfl, by simp [countP_sends hsends, disposes]⟩
    · split
      · refine ⟨_, rfl, ?_⟩
        rw [List.countP_append, countP_reset rfl]
        rfl
      · exact ⟨_, rfl, rfl⟩
  all_goals simp

/-! ### Frames with data -/

/-- The frame is handed up or dropped once, or it waits. -/
def Once (p : α) (r : ARQstate α × List (HdlcOutput α)) : Prop :=
  r.2.countP (disposes (.i 0 0 p)) = 1 ∧ (∀ n, r.1.seen n ≠ some p) ∨
    r.2.countP (disposes (.i 0 0 p)) = 0 ∧ ∃ n, r.1.seen n = some p

lemma disposedOnce_i : DisposedOnce cfg (some a) (.i rseq seq p) ↔ ∃ r, a.recvIframe cfg rseq seq p = some r ∧ Once p r := by
  rw [DisposedOnce, dispatch]
  constructor
  · rintro ⟨r, hr, honce⟩
    obtain ⟨r', hr', rfl⟩ := Option.map_eq_some_iff.mp hr
    rw [stored_iff, not_exists] at honce
    exact ⟨r', hr', honce⟩
  · rintro ⟨r', hr', honce⟩
    refine ⟨(some r'.1, r'.2), by rw [hr']; rfl, ?_⟩
    rw [stored_iff, not_exists]
    exact honce

/-- Frames that are sent on the way do not count. -/
lemma Once.sends_iff {r' : ARQstate α × List (HdlcOutput α)} (h : r.1.Sends cfg r') :
    Once p (r'.1, r.2 ++ r'.2) ↔ Once p r := by
  unfold Once
  dsimp only
  rw [h.agrees.seen, List.countP_append, countP_sends h, Nat.add_zero]

lemma deliverLoop_absent (n : ℕ) (h : ∀ k, a.seen k ≠ some p) :
    (ARQstate.deliverLoop n a).2.countP (disposes (.i 0 0 p)) = 0 ∧
      ∀ k, (ARQstate.deliverLoop n a).1.seen k ≠ some p := by
  induction n generalizing a with
  | zero => exact ⟨rfl, h⟩
  | succ n ih =>
    unfold ARQstate.deliverLoop
    split
    · exact ⟨rfl, h⟩
    next q hq =>
      have hrest : ∀ k, Function.update a.seen (ARQstate.slot a.nextpkt) none k ≠ some p := by
        intro k
        rw [Function.update_apply]
        split
        · exact nofun
        · exact h k
      obtain ⟨hcount, hseen⟩ := ih (a := { a with
        seen := Function.update a.seen (ARQstate.slot a.nextpkt) none, nextpkt := a.nextpkt + 1 }) hrest
      refine ⟨?_, hseen⟩
      have hne : p ≠ q := fun heq => h _ (heq ▸ hq)
      rw [List.countP_cons_of_neg (by simpa [disposes, HdlcFrame.packet] using hne)]
      exact hcount

/-- A packet in one slot is handed up at most once. -/
lemma deliverLoop_once (n : ℕ) {k : ℕ} (h : ∀ m, a.seen m = some p ↔ m = k) : Once p (ARQstate.deliverLoop n a) := by
  induction n generalizing a with
  | zero => exact Or.inr ⟨rfl, k, (h k).mpr rfl⟩
  | succ n ih =>
    unfold ARQstate.deliverLoop
    split
    · exact Or.inr ⟨rfl, k, (h k).mpr rfl⟩
    next q hq =>
      by_cases hk : ARQstate.slot a.nextpkt = k
      · have hqp : q = p := Option.some.inj (hq.symm.trans ((h _).mpr hk))
        have hrest : ∀ m, Function.update a.seen (ARQstate.slot a.nextpkt) none m ≠ some p := by
          intro m
          rw [Function.update_apply]
          split
          · exact nofun
          next hne => exact fun hm => hne (((h m).mp hm).trans hk.symm)
        obtain ⟨hcount, hseen⟩ := deliverLoop_absent n (a := { a with
          seen := Function.update a.seen (ARQstate.slot a.nextpkt) none, nextpkt := a.nextpkt + 1 }) hrest
        refine Or.inl ⟨?_, hseen⟩
        rw [List.countP_cons_of_pos (by simp [disposes, HdlcFrame.packet, hqp]), hcount]
      · have hqp : p ≠ q := fun heq => hk ((h _).mp (heq ▸ hq))
        have hrest : ∀ m, Function.update a.seen (ARQstate.slot a.nextpkt) none m = some p ↔ m = k := by
          intro m
          rw [Function.update_apply]
          split
          next heq => exact iff_of_false nofun fun hm => hk (heq.symm.trans hm)
          · exact h m
        have honce := ih (a := { a with
          seen := Function.update a.seen (ARQstate.slot a.nextpkt) none, nextpkt := a.nextpkt + 1 }) hrest
        unfold Once at honce ⊢
        dsimp only
        rw [List.countP_cons_of_neg (by simpa [disposes, HdlcFrame.packet] using hqp)]
        exact honce

lemma countP_srejs (n : ℕ) (g : ℕ → HdlcFrame α) :
    ((List.range n).map fun k => HdlcOutput.sendDown (g k)).countP (disposes f) = 0 := by
  rw [List.countP_eq_zero]
  intro o ho
  obtain ⟨k, -, rfl⟩ := List.mem_map.mp ho
  exact Bool.false_ne_true

variable (cfg seq) in
/-- A frame that is new but behind the packets in order is put into the buffer before it is dropped. -/
lemma selectiveRepeatMode_spec (hfresh : ∀ k, a.seen k ≠ some p) :
    (a.selectiveRepeatMode cfg seq p).1.sabmeReq = a.sabmeReq ∧
      (Once p (a.selectiveRepeatMode cfg seq p) ↔ ¬(a.maxseen < seq ∧ seq < a.nextpkt)) := by
  unfold ARQstate.selectiveRepeatMode
  extract_lets justMarked srejs a₁ r r₁ r₂
  have hsrejs : srejs.countP (disposes (.i 0 0 p)) = 0 := countP_srejs _ _
  have h₁ : a₁.sabmeReq = a.sabmeReq ∧ a₁.nextpkt = a.nextpkt := by
    dsimp only [a₁]
    split <;> exact ⟨rfl, rfl⟩
  have hslot : ∀ b : ARQstate α, (b.setSeen seq p).seen (ARQstate.slot seq) = some p := fun b =>
    Function.update_self _ _ _
  split
  next hdrop =>
    have hack : a₁.Sends cfg (a₁.ack cfg) := ARQstate.ack_sends a₁
    refine ⟨hack.agrees.sabmeReq.trans h₁.1, ?_⟩
    have hcount : (srejs ++ r.2 ++ [HdlcOutput.drop]).countP (disposes (.i 0 0 p)) = 1 := by
      rw [List.countP_append, List.countP_append, hsrejs, countP_sends hack]
      rfl
    have honce : Once p (r.1, srejs ++ r.2 ++ [HdlcOutput.drop]) ↔ ∀ n, a₁.seen n ≠ some p := by
      unfold Once
      dsimp only
      rw [hcount, hack.agrees.seen]
      simp
    rw [honce]
    by_cases hmark : seq > a.maxseen
    · have hseen : a₁.seen (ARQstate.slot seq) = some p := by
        dsimp only [a₁]
        rw [if_pos hmark]
        exact hslot _
      have hold : seq < a.nextpkt := by
        rcases hdrop with hlt | ⟨-, hno⟩
        · exact h₁.2 ▸ hlt
        · exact absurd hmark hno
      exact iff_of_false (fun h => h _ hseen) (not_not.mpr ⟨hmark, hold⟩)
    · have hseen : a₁ = a := if_neg hmark
      rw [hseen]
      exact iff_of_true hfresh fun h => hmark h.1
  next hkeep =>
    rw [not_or] at hkeep
    have hack : r₁.1.Sends cfg (r₁.1.ack cfg) := ARQstate.ack_sends r₁.1
    refine ⟨hack.agrees.sabmeReq.trans ((deliverLoop_sabmeReq _ _).trans h₁.1), iff_of_true ?_ ?_⟩
    · have hplace : ∀ m, (a₁.setSeen seq p).seen m = some p ↔ m = ARQstate.slot seq := by
        intro m
        by_cases hm : m = ARQstate.slot seq
        · rw [hm]
          exact iff_of_true (hslot a₁) rfl
        · refine iff_of_false ?_ hm
          have hother : ∀ b : ARQstate α, (b.setSeen seq p).seen m = b.seen m := fun b =>
            Function.update_of_ne hm _ _
          rw [hother]
          dsimp only [a₁]
          split
          · rw [hother]
            exact hfresh m
          · exact hfresh m
      have honce : Once p r₁ := deliverLoop_once HDLC_MWS hplace
      have hloop : Once p (r₁.1, srejs ++ r₁.2) := by
        unfold Once at honce ⊢
        dsimp only
        rwa [List.countP_append, hsrejs, Nat.zero_add]
      exact (Once.sends_iff (r := (r₁.1, srejs ++ r₁.2)) hack).mpr hloop
    · exact fun h => hkeep.1 (h₁.2.symm ▸ h.2)

/-- Go-back-N ends every frame's life, unless it already has a packet to acknowledge without a timer for it. -/
lemma goBackNMode_spec (hfresh : ∀ k, a.seen k ≠ some p) :
    ((cfg.delAck → seq = a.recvSeqno → a.delayTimer = false → a.save = none) ∧
      ∃ r, a.goBackNMode cfg seq p = some r ∧ r.1.sabmeReq = a.sabmeReq ∧ Once p r) ∨
    (¬(cfg.delAck → seq = a.recvSeqno → a.delayTimer = false → a.save = none) ∧ a.goBackNMode cfg seq p = none) := by
  have hup : disposes (.i 0 0 p) (.sendUp p) = true := by simp [disposes, HdlcFrame.packet]
  have honce : ∀ (b : ARQstate α) (outs : List (HdlcOutput α)) (o : HdlcOutput α), (∀ k, b.seen k ≠ some p) →
      outs.countP (disposes (.i 0 0 p)) = 0 → disposes (.i 0 0 p) o = true → Once p (b, outs ++ [o]) := by
    intro b outs o hb houts ho
    refine Or.inl ⟨?_, hb⟩
    rw [List.countP_append, houts, Nat.zero_add, List.countP_singleton, if_pos ho]
  have hafter : ∀ b : ARQstate α, b.seen = a.seen → ∀ k, (b.ack cfg).1.seen k ≠ some p := by
    intro b hb k
    rw [(ARQstate.ack_sends b).agrees.seen, hb]
    exact hfresh k
  unfold ARQstate.goBackNMode
  by_cases hseq : seq = a.recvSeqno
  · rw [if_pos hseq]
    by_cases hdel : cfg.delAck = true
    · dsimp only
      rw [if_pos hdel]
      by_cases htimer : a.delayTimer = true
      · rw [if_pos htimer]
        refine Or.inl ⟨fun _ _ hno => ?_, _, rfl, rfl, honce _ [] _ hfresh rfl hup⟩
        rw [htimer] at hno
        cases hno
      · rw [if_neg htimer]
        have hno : a.delayTimer = false := Bool.eq_false_iff.mpr htimer
        cases hsave : a.save with
        | some q =>
          refine Or.inr ⟨fun h => ?_, rfl⟩
          cases h hdel hseq hno
        | none => exact Or.inl ⟨fun _ _ _ => rfl, _, rfl, rfl, honce _ [] _ hfresh rfl hup⟩
    · dsimp only
      rw [if_neg hdel]
      have hack : ARQstate.Sends cfg { a with sentREJ := false, recvSeqno := a.recvSeqno + 1 } _ := ARQstate.ack_sends _
      exact Or.inl ⟨fun h => absurd h hdel, _, rfl, hack.agrees.sabmeReq,
        honce _ _ _ (hafter _ rfl) (countP_sends hack) hup⟩
  · rw [if_neg hseq]
    refine Or.inl ⟨fun _ h => absurd h hseq, ?_⟩
    split
    · split
      · exact ⟨_, rfl, rfl, honce _ [] _ hfresh rfl rfl⟩
      · exact ⟨_, rfl, rfl, honce _ [_] _ hfresh rfl rfl⟩
    · have hack : a.Sends cfg (a.ack cfg) := ARQstate.ack_sends a
      exact ⟨_, rfl, hack.agrees.sabmeReq, honce _ _ _ (hafter _ rfl) (countP_sends hack) rfl⟩

variable (cfg seq) in
/-- The part of `recvIframe` for the data. -/
lemma mode_spec (hfresh : ∀ k, a.seen k ≠ some p) :
    ((cfg.selRepeat = false → cfg.delAck → seq = a.recvSeqno → a.delayTimer = false → a.save = none) ∧
      ∃ r, (if cfg.selRepeat then some (a.selectiveRepeatMode cfg seq p) else a.goBackNMode cfg seq p) = some r ∧
        r.1.sabmeReq = a.sabmeReq ∧ (Once p r ↔ (cfg.selRepeat → ¬(a.maxseen < seq ∧ seq < a.nextpkt)))) ∨
    (¬(cfg.selRepeat = false → cfg.delAck → seq = a.recvSeqno → a.delayTimer = false → a.save = none) ∧
      (if cfg.selRepeat then some (a.selectiveRepeatMode cfg seq p) else a.goBackNMode cfg seq p) = none) := by
  cases hsel : cfg.selRepeat with
  | true =>
    obtain ⟨hsabme, honce⟩ := selectiveRepeatMode_spec cfg seq hfresh
    exact Or.inl ⟨nofun, _, rfl, hsabme, honce.trans (by simp)⟩
  | false =>
    simp only [true_imp_iff, Bool.false_eq_true, if_false, false_imp_iff, iff_true]
    exact goBackNMode_spec hfresh

lemma disposedOnce_i_iff (hfresh : ∀ k, a.seen k ≠ some p) :
    DisposedOnce cfg (some a) (.i rseq seq p) ↔ OrderlyIframe cfg a rseq seq := by
  rw [disposedOnce_i]
  unfold ARQstate.recvIframe
  by_cases hreq : a.sabmeReq = .requested
  · rw [if_pos hreq]
    refine iff_of_false ?_ fun h => h.connected hreq
    rintro ⟨r, hr, honce⟩
    cases hr
    rcases honce with ⟨hcount, -⟩ | ⟨-, n, hn⟩
    · cases hcount
    · exact hfresh n hn
  rw [if_neg hreq]
  extract_lets a₁
  have h₁ : a₁.highestAck = a.highestAck ∧ a₁.sendBuf = a.sendBuf ∧ a₁.recvSeqno = a.recvSeqno ∧ a₁.seen = a.seen ∧
      a₁.nextpkt = a.nextpkt ∧ a₁.maxseen = a.maxseen ∧ a₁.delayTimer = a.delayTimer ∧ a₁.save = a.save := by
    dsimp only [a₁]
    split <;> exact ⟨rfl, rfl, rfl, rfl, rfl, rfl, rfl, rfl⟩
  have hconn : a₁.sabmeReq = .connected ↔ a.sabmeReq = .connected ∨ a.recvSeqno = -1 := by
    dsimp only [a₁]
    split
    next hfirst => exact iff_of_true rfl (Or.inr hfirst.1)
    next hfirst =>
      refine (or_iff_left_of_imp fun hseqno => ?_).symm
      cases hsabme : a.sabmeReq with
      | none => exact absurd ⟨hseqno, hsabme⟩ hfirst
      | requested => exact absurd hsabme hreq
      | connected => rfl
  obtain ⟨hhigh, hbuf, hrecv, hseen, hnext, hmax, htimer, hsave⟩ := h₁
  have hpiggy := piggy_spec a₁ rseq
  rw [hhigh, hbuf] at hpiggy
  rcases hpiggy with ⟨hacked, a₂, ha₂, h₂⟩ | ⟨hacked, hnone⟩
  · rw [ha₂, Option.bind_some]
    extract_lets a₃
    have h₃ : a₃.sabmeReq = a₁.sabmeReq ∧ a₃.recvSeqno = nextSeqno a seq ∧ a₃.seen = a.seen ∧ a₃.nextpkt = a.nextpkt ∧
        a₃.maxseen = a.maxseen ∧ a₃.delayTimer = a.delayTimer ∧ a₃.save = a.save := by
      rw [← hseen, ← hnext, ← hmax, ← htimer, ← hsave, nextSeqno, ← hrecv, ← h₂.sabmeReq, ← h₂.recvSeqno, ← h₂.seen,
        ← h₂.nextpkt, ← h₂.maxseen, ← h₂.delayTimer, ← h₂.save]
      dsimp only [a₃]
      split <;> exact ⟨rfl, rfl, rfl, rfl, rfl, rfl, rfl⟩
    obtain ⟨hsabme₃, hrecv₃, hseen₃, hnext₃, hmax₃, htimer₃, hsave₃⟩ := h₃
    have hmode := mode_spec cfg seq (a := a₃) (p := p) fun k => hseen₃ ▸ hfresh k
    rw [hrecv₃, hnext₃, hmax₃, htimer₃, hsave₃] at hmode
    rcases hmode with ⟨hsaved, r, hr, hsabme, honce⟩ | ⟨hsaved, hnone⟩
    · rw [hr, Option.bind_some]
      have hsends : r.1.sabmeReq = .connected ↔ a.sabmeReq = .connected ∨ a.recvSeqno = -1 := by
        rw [hsabme, hsabme₃, hconn]
      by_cases hrseq : rseq > -1
      · rw [if_pos hrseq]
        by_cases hmuch : r.1.sabmeReq = .connected
        · obtain ⟨r', hr', hsent⟩ := sendMuch_of_connected cfg hmuch
          rw [hr', Option.map_some]
          simp only [Option.some.injEq, exists_eq_left', Once.sends_iff hsent, honce]
          exact ⟨fun h => ⟨hreq, hacked, fun _ => hsends.mp hmuch, h, hsaved⟩, fun h => h.selRepeat⟩
        · have hnone : r.1.sendMuch cfg = none := if_neg hmuch
          rw [hnone, Option.map_none]
          exact iff_of_false (fun ⟨_, hr', _⟩ => Option.some_ne_none _ hr'.symm) fun h => hmuch (hsends.mpr (h.sends hrseq))
      · rw [if_neg hrseq]
        simp only [Option.some.injEq, exists_eq_left', honce]
        exact ⟨fun h => ⟨hreq, hacked, fun h => absurd h hrseq, h, hsaved⟩, fun h => h.selRepeat⟩
    · rw [hnone, Option.bind_none]
      exact iff_of_false (fun ⟨_, hr, _⟩ => Option.some_ne_none _ hr.symm) fun h => hsaved h.save
  · rw [hnone, Option.bind_none]
    exact iff_of_false (fun ⟨_, hr, _⟩ => Option.some_ne_none _ hr.symm) fun h => hacked h.acked

/-- A received frame is disposed of exactly once if and only if it is orderly. -/
theorem disposedOnce_iff_orderly (entry : Option (ARQstate α)) (f : HdlcFrame α) (hfresh : ¬Stored entry f) :
    DisposedOnce cfg entry f ↔ Orderly cfg entry f := by
  cases f with
  | i rseq seq p =>
    cases entry with
    | none =>
      refine iff_of_false ?_ id
      rintro ⟨r, hr, honce⟩
      cases hr
      rcases honce with ⟨hcount, -⟩ | ⟨-, hstored⟩
      · cases hcount
      · exact hfresh hstored
    | some a =>
      rw [stored_iff, not_exists] at hfresh
      exact disposedOnce_i_iff hfresh
  | s stype seqno =>
    cases entry with
    | none =>
      refine iff_of_false ?_ id
      rw [disposedOnce_iff_of_packet rfl]
      rintro ⟨r, hr, hcount⟩
      cases hr
      cases hcount
    | some a =>
      cases stype with
      | rr => exact disposedOnce_rr
      | rej => exact disposedOnce_rej
      | rnr => exact iff_of_false disposedOnce_rnr id
      | srej => exact disposedOnce_srej
  | u utype =>
    cases utype with
    | sabme => exact iff_of_true disposedOnce_sabme (by unfold Orderly; trivial)
    | disc =>
      cases entry with
      | none => exact iff_of_false (fun ⟨r, hr, _⟩ => by cases hr) id
      | some a => exact iff_of_true disposedOnce_disc trivial
    | ua =>
      cases entry with
      | none =>
        refine iff_of_false ?_ id
        rw [disposedOnce_iff_of_packet rfl]
        rintro ⟨r, hr, hcount⟩
        cases hr
        cases hcount
      | some a => exact iff_of_true disposedOnce_ua trivial

theorem disposedOnce_first_packet :
    DisposedOnce ⟨8, 50, 10, false, false, 0⟩ (some (.newEntry ⟨8, 50, 10, false, false, 0⟩)) (.i (-1) 0 'p') :=
  (disposedOnce_iff_orderly _ _ (by
    rw [stored_iff]
    rintro ⟨n, hn⟩
    cases hn)).mpr ⟨nofun, fun h => absurd h (by decide), fun h => absurd h (by decide), nofun, nofun⟩

/-- Without a state a frame is forgotten, an RNR always is, and an acknowledgement that comes again is dropped and
freed. -/
theorem not_disposedOnce :
    let cfg : HdlcConfig := ⟨8, 50, 10, false, false, 0⟩
    let a : ARQstate Char := { ARQstate.newEntry cfg with sabmeReq := .connected }
    ¬DisposedOnce cfg none (.i (-1) 0 'p') ∧ ¬DisposedOnce cfg (some a) (.s .rnr 0) ∧
      ¬DisposedOnce cfg (some a) (.s .rr 0) ∧
      (dispatch cfg none (.i (-1) 0 'p')).map Prod.snd = some [] ∧
      (dispatch cfg (some a) (.s .rnr 0)).map Prod.snd = some [] ∧
      (dispatch cfg (some a) (.s .rr 0)).map Prod.snd = some [.drop, .free] := by
  refine ⟨?_, disposedOnce_rnr, ?_, rfl, rfl, rfl⟩
  · rintro ⟨r, hr, honce⟩
    cases hr
    rcases honce with ⟨hcount, -⟩ | ⟨-, _, _, _, hentry, -⟩
    · cases hcount
    · cases hentry
  · rw [disposedOnce_rr]
    exact fun h => absurd h.2 (by decide)

end HdlcPeer
end NetworkSimulator
