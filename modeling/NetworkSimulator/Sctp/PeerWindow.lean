import Mathlib.Algebra.GroupWithZero.Nat
import NetworkSimulator.Sctp.Association
import NetworkSimulator.Sctp.SendBuffer
import NetworkSimulator.Library.Runs

/-!
# The peer's window

`uiPeerRwnd` is credited with a chunk that is marked for retransmission and debited when it is sent again. What
these credits and debits come to in a run, against the window that the peer has advertised.
-/

namespace NetworkSimulator
open Library

namespace SctpSender
variable {D : Type*}

/-- The part of the sender that the window depends on. -/
structure Core (D : Type*) where
  sendBuffer : List (SendBufferNode D)
  peerRwnd : ℕ
  sent : List (D × List DataChunk)
  outStreamMode : ℕ → StreamMode
  markedChunksPending : Bool

def core (s : SctpSender D) : Core D :=
  ⟨s.sendBuffer, s.peerRwnd, s.sent, s.outStreamMode, s.markedChunksPending⟩

/-- The lengths of the marked chunks. -/
def markedLengths (l : List (SendBufferNode D)) : List ℕ :=
  (l.filter fun n => n.markedForRtx ≠ .noRtx).map fun n => n.chunk.length

def markedBytes (s : SctpSender D) : ℕ := (markedLengths s.sendBuffer).sum

def bytesOf (packets : List (D × List DataChunk)) : ℕ :=
  (packets.map fun p => (p.2.map DataChunk.length).sum).sum

/-- The bytes that are sent between two states. -/
def debited (s t : SctpSender D) : ℕ := bytesOf (t.sent.take (t.sent.length - s.sent.length))

/-- The bytes of the chunks that fit into a packet of which `size` bytes are taken. -/
def firstPacket (c : SctpConfig) : ℕ → List ℕ → ℕ
  | _, [] => 0
  | size, n :: ns => if size + n > c.maxPayloadSize then 0 else n + firstPacket c (size + padded n) ns

variable {c : SctpConfig} {s t u : SctpSender D} {d : D} {i k : ℕ} {n : SendBufferNode D}
  {l l₁ l₂ : List (SendBufferNode D)} {f : SendBufferNode D → SendBufferNode D}

@[simp] lemma bytesOf_nil : bytesOf ([] : List (D × List DataChunk)) = 0 := rfl

@[simp] lemma bytesOf_cons (d : D) (packet : List DataChunk) (ps : List (D × List DataChunk)) :
    bytesOf ((d, packet) :: ps) = (packet.map DataChunk.length).sum + bytesOf ps := rfl

lemma bytesOf_append (ps qs : List (D × List DataChunk)) : bytesOf (ps ++ qs) = bytesOf ps + bytesOf qs := by
  unfold bytesOf
  rw [List.map_append, List.sum_append]

lemma debited_eq {ps : List (D × List DataChunk)} (h : t.sent = ps ++ s.sent) : debited s t = bytesOf ps := by
  unfold debited
  rw [h, List.length_append, Nat.add_sub_cancel, List.take_left]

@[simp] lemma markedLengths_nil : markedLengths ([] : List (SendBufferNode D)) = [] := rfl

lemma markedLengths_cons_marked (h : n.markedForRtx ≠ .noRtx) :
    markedLengths (n :: l) = n.chunk.length :: markedLengths l := by
  unfold markedLengths
  rw [List.filter_cons_of_pos (by simpa using h), List.map_cons]

lemma markedLengths_cons_unmarked (h : n.markedForRtx = .noRtx) : markedLengths (n :: l) = markedLengths l := by
  unfold markedLengths
  rw [List.filter_cons_of_neg (by simpa using h)]

@[simp] lemma markedLengths_append : markedLengths (l₁ ++ l₂) = markedLengths l₁ ++ markedLengths l₂ := by
  unfold markedLengths
  rw [List.filter_append, List.map_append]

lemma le_padded (n : ℕ) : n ≤ padded n := by
  unfold padded
  split <;> omega

lemma modify_append_cons (f : SendBufferNode D → SendBufferNode D) :
    (l₁ ++ n :: l₂).modify l₁.length f = l₁ ++ f n :: l₂ := by
  induction l₁ with
  | nil => rfl
  | cons m l₁ ih => simpa using ih

/-- What the books of the window say after `bytes` have been sent again. -/
structure Debited (s t : SctpSender D) (bytes : ℕ) : Prop where
  marked : bytes + markedBytes t = markedBytes s
  rwnd : bytes ≤ s.peerRwnd → t.peerRwnd + bytes = s.peerRwnd
  lt : t.peerRwnd < 2 ^ 32
  mode : t.outStreamMode = s.outStreamMode

lemma Debited.of_core (h : t.core = s.core) (hlt : s.peerRwnd < 2 ^ 32) : Debited s t 0 := by
  have hrwnd : t.peerRwnd = s.peerRwnd := congrArg Core.peerRwnd h
  refine ⟨?_, fun _ => hrwnd, hrwnd ▸ hlt, congrArg Core.outStreamMode h⟩
  rw [zero_add, markedBytes, markedBytes, show t.sendBuffer = s.sendBuffer from congrArg Core.sendBuffer h]

lemma Debited.trans {m m' : ℕ} (h : Debited s t m) (h' : Debited t u m') : Debited s u (m + m') := by
  refine ⟨?_, fun hle => ?_, h'.lt, h'.mode.trans h.mode⟩
  · rw [add_assoc, h'.marked, h.marked]
  · have hfirst := h.rwnd (by omega)
    have hsecond := h'.rwnd (by omega)
    omega

/-! ### What leaves the window alone -/

lemma core_forDests {g : D → SctpSender D → SctpSender D} (h : ∀ d s, (g d s).core = s.core) :
    (s.forDests g).core = s.core :=
  forDests_keeps (P := fun t => t.core = s.core) rfl fun d t ht => (h d t).trans ht

lemma core_forNodes {g : ℕ → SendBufferNode D → SctpSender D → SctpSender D} (h : ∀ i n s, (g i n s).core = s.core) :
    (s.forNodes g).core = s.core := by
  refine forLoop_keeps (P := fun t : SctpSender D => t.core = s.core) rfl fun i t _ _ ht => ?_
  unfold atNode
  split
  · exact (h _ _ _).trans ht
  · exact ht

lemma core_ite {p : Prop} [Decidable p] (ht : t.core = s.core) (hu : u.core = s.core) :
    (if p then t else u).core = s.core := by
  split
  · exact ht
  · exact hu

variable [DecidableEq D]

lemma core_noteFirst : (s.noteFirst i n).core = s.core := core_ite rfl rfl

lemma core_skipNode : (s.skipNode i n).core = s.core := core_ite (core_ite rfl rfl) rfl

lemma core_clearFirstOutstanding : s.clearFirstOutstanding.core = s.core := core_forDests fun _ _ => rfl

lemma core_countMarked (sign : ℤ) : (s.countMarked sign).core = s.core :=
  core_forNodes fun _ _ _ => core_ite rfl rfl

lemma core_cutWindow : (s.cutWindow c n).core = s.core := core_ite rfl rfl

lemma core_clearErrorCount : (s.clearErrorCount d).core = s.core := core_ite rfl rfl

lemma core_endRtt : (s.endRtt n).core = s.core := core_ite rfl rfl

lemma core_ackNode : (s.ackNode n).core = s.core := by
  unfold ackNode
  extract_lets s₁ s₂ s₃ s₄ s₅
  have h₂ : s₂.core = s.core := core_ite (core_ite rfl rfl) rfl
  have h₃ : s₃.core = s.core := (core_ite rfl rfl : s₃.core = s₂.core).trans h₂
  have h₄ : s₄.core = s.core := (core_ite core_endRtt rfl : s₄.core = s₃.core).trans h₃
  have h₅ : s₅.core = s.core := (core_ite rfl rfl : s₅.core = s₄.core).trans h₄
  refine Eq.trans ?_ h₅
  exact core_ite core_clearErrorCount rfl

lemma core_settleDest (chunk : SackChunk) (newCumAck : Bool) : (settleDest c chunk newCumAck d s).core = s.core := by
  unfold settleDest
  extract_lets s₁ s₂ s₃ s₄
  have h₁ : s₁.core = s.core := core_ite rfl rfl
  have h₂ : s₂.core = s.core := h₁
  have h₄ : s₄.core = s.core := (core_ite (core_ite rfl rfl) rfl : s₄.core = s₂.core).trans h₂
  refine Eq.trans ?_ h₄
  exact core_ite rfl rfl

/-! ### Retransmission -/

/-- The chunk is unmarked, and the window debited with its length. -/
lemma core_rtxNode : ∃ g : SendBufferNode D → SendBufferNode D, (∀ m, (g m).markedForRtx = .noRtx) ∧
    (s.rtxNode d i n).core = { s.core with
      sendBuffer := s.sendBuffer.modify i g
      peerRwnd := (s.peerRwnd + 2 ^ 32 - n.chunk.length) % 2 ^ 32 } := by
  unfold rtxNode
  extract_lets s₁ s₂ earlier s₃ s₄
  obtain ⟨g, h₁⟩ : ∃ g, s₁.core = { s.core with sendBuffer := s.sendBuffer.modify i g } := by
    by_cases hrtt : (s.dest n.dest).rtoPending ∧ 0 < n.txTimestamp
    · exact ⟨_, by simp only [s₁, if_pos hrtt]; rfl⟩
    · refine ⟨id, ?_⟩
      simp only [s₁, if_neg hrtt]
      rw [List.modify_id]
      rfl
  have h₃ : s₃.core = s₁.core := (core_ite rfl rfl : s₃.core = s₂.core).trans (core_ite rfl rfl)
  have hbuffer : s₃.sendBuffer = s.sendBuffer.modify i g := congrArg Core.sendBuffer (h₃.trans h₁)
  refine ⟨fun m => { g m with dest := d, numTxs := (g m).numTxs + 1, markedForRtx := .noRtx }, fun _ => rfl, ?_⟩
  have h₄ : s₄.core = { s₃.core with sendBuffer := s₃.sendBuffer.modify i fun m =>
      { m with dest := d, numTxs := m.numTxs + 1, markedForRtx := .noRtx } } := rfl
  rw [h₃, h₁, hbuffer, List.modify_modify_eq] at h₄
  have hrwnd : s₄.peerRwnd = s.peerRwnd := congrArg Core.peerRwnd h₄
  show { s₄.core with peerRwnd := (s₄.peerRwnd + 2 ^ 32 - n.chunk.length) % 2 ^ 32 } = _
  rw [h₄, hrwnd]
  rfl

lemma core_rtxPacket (packet : List DataChunk) :
    (s.rtxPacket c d packet).1.core = { s.core with sent := (d, packet) :: s.sent } := by
  unfold rtxPacket
  extract_lets s₁ s₂
  have h₂ : s₂.core = s₁.core := core_ite rfl rfl
  split
  · split
    · exact h₂
    · exact h₂
  · exact h₂

/-- A chunk is put into the packet. -/
lemma Debited.rtxNode (hbuf : s.sendBuffer = l₁ ++ n :: l₂) (hmark : n.markedForRtx ≠ .noRtx)
    (hlt : s.peerRwnd < 2 ^ 32) :
    (∃ m, (s.rtxNode d l₁.length n).sendBuffer = l₁ ++ m :: l₂ ∧ m.markedForRtx = .noRtx) ∧
      (s.rtxNode d l₁.length n).sent = s.sent ∧ Debited s (s.rtxNode d l₁.length n) n.chunk.length := by
  obtain ⟨g, hg, hcore⟩ := core_rtxNode (s := s) (d := d) (i := l₁.length) (n := n)
  have hbuffer : (s.rtxNode d l₁.length n).sendBuffer = l₁ ++ g n :: l₂ := by
    rw [show (s.rtxNode d l₁.length n).sendBuffer = s.sendBuffer.modify l₁.length g from
      congrArg Core.sendBuffer hcore, hbuf, modify_append_cons]
  have hrwnd : (s.rtxNode d l₁.length n).peerRwnd = (s.peerRwnd + 2 ^ 32 - n.chunk.length) % 2 ^ 32 :=
    congrArg Core.peerRwnd hcore
  refine ⟨⟨g n, hbuffer, hg n⟩, congrArg Core.sent hcore, ?_, fun hle => ?_, ?_, congrArg Core.outStreamMode hcore⟩
  · rw [markedBytes, markedBytes, hbuffer, hbuf, markedLengths_append, markedLengths_append,
      markedLengths_cons_marked hmark, markedLengths_cons_unmarked (hg n)]
    simp only [List.sum_append, List.sum_cons]
    omega
  · rw [hrwnd]
    omega
  · rw [hrwnd]
    exact Nat.mod_lt _ (by decide)

/-- The packet takes the marked chunks in order until one does not fit. -/
lemma fillPacket_debited {rtx : Option D} (packet : List DataChunk) (size : ℕ) (hbuf : s.sendBuffer = l₁ ++ l₂)
    (hlt : s.peerRwnd < 2 ^ 32) {packet' : List DataChunk} {size' j : ℕ}
    (h : fillPacket c rtx l₂.length l₁.length packet size s = some (t, packet', size', j)) :
    ∃ added, packet' = packet ++ added ∧ t.sent = s.sent ∧ t.sendBuffer.length = s.sendBuffer.length ∧
      j ≤ s.sendBuffer.length ∧ Debited s t (added.map DataChunk.length).sum ∧
      (added.map DataChunk.length).sum = firstPacket c size (markedLengths l₂) ∧
      size + (added.map DataChunk.length).sum ≤ size' ∧
      firstPacket c size' (markedLengths (t.sendBuffer.drop j)) = 0 := by
  induction l₂ generalizing s l₁ packet size with
  | nil =>
    obtain ⟨rfl, rfl, rfl, rfl⟩ : s = t ∧ packet = packet' ∧ size = size' ∧ l₁.length = j := by
      simpa [fillPacket] using h
    refine ⟨[], by simp, rfl, rfl, by simp [hbuf], Debited.of_core rfl hlt, rfl, le_rfl, ?_⟩
    simp [hbuf, firstPacket]
  | cons n l₂ ih =>
    have hget : s.sendBuffer[l₁.length]? = some n := by simp [hbuf]
    have hnote : (s.noteFirst l₁.length n).core = s.core := core_noteFirst
    have hbuf' : (s.noteFirst l₁.length n).sendBuffer = l₁ ++ n :: l₂ := (congrArg Core.sendBuffer hnote).trans hbuf
    have hsent' : (s.noteFirst l₁.length n).sent = s.sent := congrArg Core.sent hnote
    have hlt' : (s.noteFirst l₁.length n).peerRwnd < 2 ^ 32 := (congrArg Core.peerRwnd hnote).trans_lt hlt
    have hlen' : (s.noteFirst l₁.length n).sendBuffer.length = s.sendBuffer.length := by rw [hbuf', hbuf]
    rw [List.length_cons, fillPacket, hget] at h
    dsimp only at h
    by_cases hmark : n.markedForRtx ≠ .noRtx
    · rw [if_pos hmark] at h
      by_cases hfull : size + n.chunk.length > c.maxPayloadSize
      · rw [if_pos hfull] at h
        obtain ⟨rfl, rfl, rfl, rfl⟩ := by simpa using h
        refine ⟨[], by simp, hsent', hlen', by simp [hbuf], Debited.of_core hnote hlt, ?_, le_rfl, ?_⟩
        · rw [markedLengths_cons_marked hmark, firstPacket, if_pos hfull]
          rfl
        · rw [hbuf', List.drop_left, markedLengths_cons_marked hmark, firstPacket, if_pos hfull]
      · rw [if_neg hfull] at h
        obtain ⟨d, -, h⟩ := Option.bind_eq_some_iff.mp h
        obtain ⟨⟨m, hbuf₁, hm⟩, hsent₁, hdebit⟩ := Debited.rtxNode (d := d) hbuf' hmark hlt'
        have hsplit : l₁ ++ m :: l₂ = (l₁ ++ [m]) ++ l₂ := by simp
        obtain ⟨added, rfl, hsent, hlen, hj, hdebit', hsum, hsize, hrest⟩ := ih
          (packet ++ [n.chunk]) (size + padded n.chunk.length) (hbuf₁.trans hsplit) hdebit.lt (by simpa using h)
        have hlen₁ : ((s.noteFirst l₁.length n).rtxNode d l₁.length n).sendBuffer.length = s.sendBuffer.length := by
          rw [hbuf₁, hbuf]
          simp
        refine ⟨n.chunk :: added, by simp, hsent.trans (hsent₁.trans hsent'), hlen.trans hlen₁, hj.trans_eq hlen₁,
          ?_, ?_, ?_, hrest⟩
        · have := (Debited.of_core hnote hlt).trans (hdebit.trans hdebit')
          rwa [zero_add] at this
        · rw [markedLengths_cons_marked hmark, firstPacket, if_neg hfull, ← hsum]
          rfl
        · have := le_padded n.chunk.length
          simp only [List.map_cons, List.sum_cons]
          omega
    · rw [if_neg hmark] at h
      have hunmarked : n.markedForRtx = .noRtx := not_not.mp hmark
      have hskip : ((s.noteFirst l₁.length n).skipNode l₁.length n).core = s.core := core_skipNode.trans hnote
      have hbuf₁ : ((s.noteFirst l₁.length n).skipNode l₁.length n).sendBuffer = (l₁ ++ [n]) ++ l₂ := by
        refine (congrArg Core.sendBuffer hskip).trans ?_
        show s.sendBuffer = _
        rw [hbuf]
        simp
      have hlen₁ : ((s.noteFirst l₁.length n).skipNode l₁.length n).sendBuffer.length = s.sendBuffer.length := by
        rw [hbuf₁, hbuf]
        simp
      obtain ⟨added, rfl, hsent, hlen, hj, hdebit', hsum, hsize, hrest⟩ := ih packet size hbuf₁
        ((congrArg Core.peerRwnd hskip).trans_lt hlt) (by simpa using h)
      refine ⟨added, rfl, hsent.trans (congrArg Core.sent hskip), hlen.trans hlen₁, hj.trans_eq hlen₁, ?_, ?_, hsize,
        hrest⟩
      · have := (Debited.of_core hskip hlt).trans hdebit'
        rwa [zero_add] at this
      · rw [markedLengths_cons_unmarked hunmarked, hsum]

lemma rtxLoop_debited {rtx : Option D} {limit : RtxLimit} (fuel packets : ℕ) (hi : i ≤ s.sendBuffer.length)
    (hlt : s.peerRwnd < 2 ^ 32) (h : rtxLoop c limit rtx fuel i packets s = some t) :
    ∃ ps, t.sent = ps ++ s.sent ∧ Debited s t (bytesOf ps) ∧ (limit = .onePacket → bytesOf ps =
      if packets = 0 then firstPacket c 0 (markedLengths (s.sendBuffer.drop i)) else 0) := by
  induction fuel generalizing i packets s with
  | zero => cases h
  | succ fuel ih =>
    rw [rtxLoop] at h
    obtain ⟨go, hgo, h⟩ := Option.bind_eq_some_iff.mp h
    by_cases hgoes : go = true
    · rw [if_pos hgoes] at h
      obtain ⟨⟨u, packet, size, j⟩, hfill, h⟩ := Option.bind_eq_some_iff.mp h
      have hsplit : s.sendBuffer = s.sendBuffer.take i ++ s.sendBuffer.drop i := (List.take_append_drop i _).symm
      obtain ⟨added, hadded, hsent, hlen, hj, hdebit, hsum, hsize, hrest⟩ := fillPacket_debited [] 0 hsplit hlt
        (by rw [List.length_drop, List.length_take, Nat.min_eq_left hi]; exact hfill)
      rw [List.nil_append] at hadded
      subst hadded
      have hnone : limit = .onePacket → packets = 0 := by
        rintro rfl
        have := of_decide_eq_true (Option.some.inj hgo ▸ hgoes)
        omega
      dsimp only at h
      by_cases hfull : size > 0
      · rw [if_pos hfull] at h
        obtain ⟨d, -, h⟩ := Option.bind_eq_some_iff.mp h
        have hpacket : (u.rtxPacket c d packet).1.core = { u.core with sent := (d, packet) :: u.sent } :=
          core_rtxPacket _
        have hbuffer : (u.rtxPacket c d packet).1.sendBuffer = u.sendBuffer := congrArg Core.sendBuffer hpacket
        have hsent₁ : (u.rtxPacket c d packet).1.sent = [(d, packet)] ++ s.sent :=
          (congrArg Core.sent hpacket).trans (by rw [hsent]; rfl)
        have hdebit₁ : Debited s (u.rtxPacket c d packet).1 (bytesOf [(d, packet)]) := by
          refine ⟨?_, fun hle => ?_, ?_, (congrArg Core.outStreamMode hpacket).trans hdebit.mode⟩
          · rw [markedBytes, hbuffer]
            exact hdebit.marked
          · exact (congrArg (· + _) (congrArg Core.peerRwnd hpacket)).trans (hdebit.rwnd hle)
          · exact (congrArg Core.peerRwnd hpacket).trans_lt hdebit.lt
        by_cases hstop : (u.rtxPacket c d packet).2 = true
        · rw [if_pos hstop] at h
          obtain rfl := Option.some.inj h
          exact ⟨_, hsent₁, hdebit₁, fun hlimit => by rw [if_pos (hnone hlimit), ← hsum]; rfl⟩
        · rw [if_neg hstop] at h
          obtain ⟨ps, hsent', hdebit', hone⟩ := ih (packets + 1)
            (by rw [hbuffer, hlen]; exact hj)
            hdebit₁.lt h
          refine ⟨ps ++ [(d, packet)], by rw [hsent', hsent₁, List.append_assoc], ?_, fun hlimit => ?_⟩
          · rw [bytesOf_append, add_comm]
            exact hdebit₁.trans hdebit'
          · rw [bytesOf_append, hone hlimit, if_neg (Nat.succ_ne_zero _), if_pos (hnone hlimit), ← hsum, zero_add]
            rfl
      · rw [if_neg hfull] at h
        obtain rfl : size = 0 := Nat.eq_zero_of_not_pos hfull
        have hzero : (packet.map DataChunk.length).sum = 0 := by omega
        obtain ⟨ps, hsent', hdebit', hone⟩ := ih packets (by rw [hlen]; exact hj) hdebit.lt h
        refine ⟨ps, hsent'.trans (by rw [hsent]), ?_, fun hlimit => ?_⟩
        · have := hdebit.trans hdebit'
          rwa [hzero, zero_add] at this
        · rw [hone hlimit, if_pos (hnone hlimit), if_pos (hnone hlimit), hrest, ← hsum, hzero]
    · rw [if_neg hgoes] at h
      obtain rfl := Option.some.inj h
      refine ⟨[], rfl, Debited.of_core rfl hlt, fun hlimit => ?_⟩
      split
      next hzero =>
        subst hlimit
        have hdone : ¬(packets < 1 ∧ i < s.sendBuffer.length) := fun hyes =>
          hgoes ((Option.some.inj hgo).symm.trans (decide_eq_true hyes))
        rw [List.drop_eq_nil_of_le (by omega)]
        rfl
      next => rfl

/-- Retransmission takes from the window the bytes that it sends. -/
lemma rtxMarkedChunks_debited {limit : RtxLimit} (hlt : s.peerRwnd < 2 ^ 32)
    (h : s.rtxMarkedChunks c limit = some t) :
    Debited s t (debited s t) ∧
      (limit = .onePacket → debited s t = firstPacket c 0 (markedLengths s.sendBuffer)) := by
  unfold rtxMarkedChunks at h
  obtain ⟨rtx, -, h⟩ := Option.bind_eq_some_iff.mp h
  obtain ⟨u, hloop, rfl⟩ := Option.map_eq_some_iff.mp h
  have hclear : ({ s with burstLength := 0 }.clearFirstOutstanding.countMarked (-1)).core = s.core :=
    (core_countMarked (-1)).trans core_clearFirstOutstanding
  obtain ⟨ps, hsent, hdebit, hone⟩ := rtxLoop_debited _ 0 (Nat.zero_le _)
    ((congrArg Core.peerRwnd hclear).trans_lt hlt) hloop
  have hcount : (u.countMarked 1).core = u.core := core_countMarked 1
  have hbuffer := congrArg Core.sendBuffer hclear
  have hsent' : (u.countMarked 1).sent = ps ++ s.sent :=
    (congrArg Core.sent hcount).trans (hsent.trans (congrArg (ps ++ ·) (congrArg Core.sent hclear)))
  show Debited s _ (debited s (u.countMarked 1)) ∧ (limit = .onePacket → debited s (u.countMarked 1) = _)
  rw [debited_eq hsent']
  refine ⟨?_, fun hlimit => ?_⟩
  · have := (Debited.of_core hclear hlt).trans (hdebit.trans (Debited.of_core hcount hdebit.lt))
    rw [zero_add, add_zero] at this
    exact ⟨this.marked, this.rwnd, this.lt, this.mode⟩
  · rw [hone hlimit, if_pos rfl, List.drop_zero]
    exact congrArg (fun l => firstPacket c 0 (markedLengths l)) hbuffer

/-! ### Timeouts -/

/-- A timeout of `d` marks the chunk. -/
abbrev TimesOut (d : D) (n : SendBufferNode D) : Prop :=
  n.dest = d ∧ n.gapAcked = false ∧ n.advancedAcked = false

/-- No retransmission is left for the chunk. -/
abbrev GivenUp (s : SctpSender D) (n : SendBufferNode D) : Prop :=
  s.outStreamMode n.chunk.streamId = .unreliable ∧ n.numTxs > n.unrelRtxLimit

/-- What a timeout of `d` makes of a node. -/
def timedOut (s : SctpSender D) (d : D) (n : SendBufferNode D) : SendBufferNode D :=
  if TimesOut d n then
    if s.GivenUp n then { n with advancedAcked := true, markedForRtx := .noRtx, numMissingReports := 0 }
    else { n with markedForRtx := .timeoutRtx, numMissingReports := 0 }
  else n

/-- The bytes that a timeout of `d` credits, whether the chunks have been marked before or not. -/
def credited (d : D) (l : List (SendBufferNode D)) : ℕ :=
  ((l.filter fun n => TimesOut d n).map fun n => n.chunk.length).sum

/-- A chunk is marked by a timeout of `d`. -/
def newlyMarked (s : SctpSender D) (d : D) (l : List (SendBufferNode D)) : Bool :=
  l.any fun n => TimesOut d n ∧ ¬s.GivenUp n

/-- The bytes of the marked chunks that fit into the packet that is sent upon a timeout of `d`. -/
def rtxBytes (c : SctpConfig) (s : SctpSender D) (d : D) : ℕ :=
  if s.markedChunksPending || s.newlyMarked d s.sendBuffer then
    firstPacket c 0 (markedLengths (s.sendBuffer.map (s.timedOut d)))
  else 0

lemma core_markChunkForRtx (mark : MarkedForRtx) : (s.markChunkForRtx i mark n).core =
    if s.GivenUp n then
      { s.core with
        sendBuffer := s.sendBuffer.modify i fun n => { n with advancedAcked := true, markedForRtx := .noRtx }
        peerRwnd := (s.peerRwnd + n.chunk.length) % 2 ^ 32 }
    else
      { s.core with
        sendBuffer := s.sendBuffer.modify i fun n => { n with markedForRtx := mark }
        peerRwnd := (s.peerRwnd + n.chunk.length) % 2 ^ 32
        markedChunksPending := s.markedChunksPending || decide (mark ≠ .noRtx) } := by
  unfold markChunkForRtx
  extract_lets s₁
  have hcore : s₁.core = { s.core with
      sendBuffer := s.sendBuffer.modify i fun n => { n with markedForRtx := mark }
      peerRwnd := (s.peerRwnd + n.chunk.length) % 2 ^ 32 } := rfl
  have hbuffer : s₁.sendBuffer = s.sendBuffer.modify i fun n => { n with markedForRtx := mark } := rfl
  by_cases hgiven : s.GivenUp n
  · rw [if_pos (show s₁.GivenUp n from hgiven), if_pos hgiven]
    show { s₁.core with sendBuffer := s₁.sendBuffer.modify i fun n =>
      { n with advancedAcked := true, markedForRtx := .noRtx } } = _
    rw [hbuffer, List.modify_modify_eq, hcore]
    rfl
  · rw [if_neg (show ¬s₁.GivenUp n from hgiven), if_neg hgiven]
    by_cases hmark : mark = .noRtx
    · rw [if_neg (not_not_intro hmark), decide_eq_false (not_not_intro hmark), Bool.or_false, hcore]
      rfl
    · rw [if_pos hmark, decide_eq_true hmark, Bool.or_true]
      rfl

/-- The window and the marks while the loop of `TimeoutRtx` is at node `i`. -/
structure TimingOut (d : D) (s : SctpSender D) (i : ℕ) (t : SctpSender D) : Prop where
  buffer : t.sendBuffer = (s.sendBuffer.take i).map (s.timedOut d) ++ s.sendBuffer.drop i
  rwnd : t.peerRwnd = (s.peerRwnd + credited d (s.sendBuffer.take i)) % 2 ^ 32
  mode : t.outStreamMode = s.outStreamMode
  pending : t.markedChunksPending = (s.markedChunksPending || s.newlyMarked d (s.sendBuffer.take i))

lemma credited_concat :
    credited d (l ++ [n]) = credited d l + if TimesOut d n then n.chunk.length else 0 := by
  unfold credited
  rw [List.filter_append, List.map_append, List.sum_append]
  by_cases hout : TimesOut d n
  · rw [if_pos hout, List.filter_cons_of_pos (by simpa using hout)]
    rfl
  · rw [if_neg hout, List.filter_cons_of_neg (by simpa using hout)]
    rfl

lemma newlyMarked_concat :
    s.newlyMarked d (l ++ [n]) = (s.newlyMarked d l || decide (TimesOut d n ∧ ¬s.GivenUp n)) := by
  unfold newlyMarked
  rw [List.any_append, List.any_cons, List.any_nil, Bool.or_false]

lemma TimingOut.step (h : TimingOut d s i t) (hi : i < s.sendBuffer.length) :
    TimingOut d s (i + 1) (atNode (timeoutNode d) i t) := by
  obtain ⟨hbuffer, hrwnd, hmode, hpending⟩ := h
  have hlen : ((s.sendBuffer.take i).map (s.timedOut d)).length = i := by
    rw [List.length_map, List.length_take, Nat.min_eq_left hi.le]
  have hdrop : s.sendBuffer.drop i = s.sendBuffer[i] :: s.sendBuffer.drop (i + 1) := List.drop_eq_getElem_cons hi
  have htake : s.sendBuffer.take (i + 1) = s.sendBuffer.take i ++ [s.sendBuffer[i]] := List.take_succ_eq_append_getElem hi
  generalize s.sendBuffer[i] = n at hdrop htake
  rw [hdrop] at hbuffer
  have hget : t.sendBuffer[i]? = some n := by
    rw [hbuffer, List.getElem?_append_right hlen.le, hlen]
    simp
  have hgiven : t.GivenUp n ↔ s.GivenUp n := by
    unfold GivenUp
    rw [hmode]
  have hmod : ∀ g : SendBufferNode D → SendBufferNode D, t.sendBuffer.modify i g =
      (s.sendBuffer.take i).map (s.timedOut d) ++ g n :: s.sendBuffer.drop (i + 1) := by
    intro g
    have hmiddle : ((s.sendBuffer.take i).map (s.timedOut d) ++ n :: s.sendBuffer.drop (i + 1)).modify
        ((s.sendBuffer.take i).map (s.timedOut d)).length g = _ := modify_append_cons g
    rwa [hlen, ← hbuffer] at hmiddle
  unfold atNode
  rw [hget]
  show TimingOut d s (i + 1) (timeoutNode d i n t)
  unfold timeoutNode
  by_cases hout : TimesOut d n
  · rw [if_pos hout]
    have hcore := core_markChunkForRtx (s := t) (i := i) (n := n) .timeoutRtx
    have hcredit : (t.peerRwnd + n.chunk.length) % 2 ^ 32 =
        (s.peerRwnd + credited d (s.sendBuffer.take (i + 1))) % 2 ^ 32 := by
      rw [hrwnd, htake, credited_concat, if_pos hout, Nat.mod_add_mod, add_assoc]
    by_cases hgive : s.GivenUp n
    · rw [if_pos (hgiven.mpr hgive)] at hcore
      refine ⟨?_, (congrArg Core.peerRwnd hcore).trans hcredit, (congrArg Core.outStreamMode hcore).trans hmode, ?_⟩
      · refine (congrArg (List.modify · i _) (congrArg Core.sendBuffer hcore)).trans ?_
        show (t.sendBuffer.modify i _).modify i _ = _
        rw [List.modify_modify_eq, hmod, htake, List.map_append, List.append_assoc, List.map_singleton, timedOut,
          if_pos hout, if_pos hgive]
        rfl
      · refine (congrArg Core.markedChunksPending hcore).trans ?_
        show t.markedChunksPending = _
        rw [hpending, htake, newlyMarked_concat, decide_eq_false (fun h => h.2 hgive), Bool.or_false]
    · rw [if_neg (mt hgiven.mp hgive)] at hcore
      refine ⟨?_, (congrArg Core.peerRwnd hcore).trans hcredit, (congrArg Core.outStreamMode hcore).trans hmode, ?_⟩
      · refine (congrArg (List.modify · i _) (congrArg Core.sendBuffer hcore)).trans ?_
        show (t.sendBuffer.modify i _).modify i _ = _
        rw [List.modify_modify_eq, hmod, htake, List.map_append, List.append_assoc, List.map_singleton, timedOut,
          if_pos hout, if_neg hgive]
        rfl
      · refine (congrArg Core.markedChunksPending hcore).trans ?_
        show (t.markedChunksPending || true) = _
        rw [htake, newlyMarked_concat, show decide (TimesOut d n ∧ ¬s.GivenUp n) = true from
          decide_eq_true ⟨hout, hgive⟩, Bool.or_true, Bool.or_true, Bool.or_true]
  · rw [if_neg hout]
    refine ⟨?_, ?_, hmode, ?_⟩
    · rw [hbuffer, htake, List.map_append, List.append_assoc, List.map_singleton, timedOut, if_neg hout]
      rfl
    · rw [hrwnd, htake, credited_concat, if_neg hout, add_zero]
    · rw [hpending, htake, newlyMarked_concat, decide_eq_false (fun h => hout h.1), Bool.or_false]

lemma markTimedOut_spec (hlt : s.peerRwnd < 2 ^ 32) : TimingOut d s s.sendBuffer.length (s.markTimedOut d) := by
  unfold markTimedOut forNodes
  refine forLoop_invariant (P := TimingOut d s) (Nat.zero_le _) ?_ fun i t _ hi h => h.step hi
  exact ⟨by simp, (Nat.mod_eq_of_lt hlt).symm, rfl, (Bool.or_false _).symm⟩

/-- A timeout credits the window with all chunks of the destination and debits it with one packet. -/
lemma timeoutRtx_debited (hroom : s.peerRwnd + credited d s.sendBuffer < 2 ^ 32) (h : s.timeoutRtx c d = some t) :
    (s.markTimedOut d).peerRwnd = s.peerRwnd + credited d s.sendBuffer ∧
      debited (s.markTimedOut d) t = rtxBytes c s d ∧
      (rtxBytes c s d ≤ s.peerRwnd + credited d s.sendBuffer →
        t.peerRwnd + rtxBytes c s d = s.peerRwnd + credited d s.sendBuffer) := by
  have hlt : s.peerRwnd < 2 ^ 32 := by omega
  obtain ⟨hbuffer, hrwnd, -, hpending⟩ := markTimedOut_spec (d := d) hlt
  rw [List.take_length, List.drop_length, List.append_nil] at hbuffer
  rw [List.take_length, Nat.mod_eq_of_lt hroom] at hrwnd
  rw [List.take_length] at hpending
  refine ⟨hrwnd, ?_⟩
  unfold timeoutRtx at h
  dsimp only at h
  rw [hpending] at h
  unfold rtxBytes
  by_cases hany : (s.markedChunksPending || s.newlyMarked d s.sendBuffer) = true
  · rw [if_pos hany] at h ⊢
    obtain ⟨hdebit, hone⟩ := rtxMarkedChunks_debited (by omega) h
    rw [hone rfl, hbuffer] at hdebit ⊢
    refine ⟨rfl, fun hle => ?_⟩
    rw [← hrwnd]
    exact hdebit.rwnd (hrwnd ▸ hle)
  · rw [if_neg hany] at h ⊢
    obtain rfl := Option.some.inj h
    exact ⟨debited_eq (List.nil_append _).symm, fun _ => hrwnd⟩

end SctpSender

end NetworkSimulator
