import NetworkSimulator.Sctp.PeerWindow
import Mathlib.Algebra.Order.BigOperators.Group.List

/-!
# Runs of the peer's window

A SACK sets `uiPeerRwnd` anew, but only after it has been used for the chunks that are sent again; new data and
timeouts work on what is left of it until the next SACK.
-/

namespace NetworkSimulator
open Library

namespace SctpSender
variable {D : Type*} {c : SctpConfig} {s t u : SctpSender D} {d : D} {i k : ℕ} {n : SendBufferNode D}
  {l l₁ l₂ : List (SendBufferNode D)} {f : SendBufferNode D → SendBufferNode D} {chunk : SackChunk}
  {behind : ℕ → GapAckBlock} {newCumAck : Bool}

/-- What a node adds to the marked bytes. -/
def markedLength (n : SendBufferNode D) : ℕ := if n.markedForRtx = .noRtx then 0 else n.chunk.length

lemma markedLength_le : markedLength n ≤ n.chunk.length := by
  unfold markedLength
  split <;> omega

lemma markedBytes_eq : s.markedBytes = (s.sendBuffer.map markedLength).sum := by
  unfold markedBytes
  induction s.sendBuffer with
  | nil => rfl
  | cons n l ih =>
    rw [List.map_cons, List.sum_cons, ← ih, markedLength]
    by_cases hmark : n.markedForRtx = .noRtx
    · rw [if_pos hmark, zero_add, markedLengths_cons_unmarked hmark]
    · rw [if_neg hmark, markedLengths_cons_marked hmark, List.sum_cons]

def lengths (s : SctpSender D) : List ℕ := s.sendBuffer.map fun n => n.chunk.length

/-- The window is the same, no chunk is marked anew, and the lengths are the same. -/
structure Shrinks (s t : SctpSender D) : Prop where
  rwnd : t.peerRwnd = s.peerRwnd
  marked : t.markedBytes ≤ s.markedBytes
  lengths : t.lengths = s.lengths

lemma Shrinks.refl : Shrinks s s := ⟨rfl, le_rfl, rfl⟩

lemma Shrinks.trans (h : Shrinks s t) (h' : Shrinks t u) : Shrinks s u :=
  ⟨h'.rwnd.trans h.rwnd, h'.marked.trans h.marked, h'.lengths.trans h.lengths⟩

lemma Shrinks.of_core (h : t.core = s.core) : Shrinks s t := by
  have hbuffer : t.sendBuffer = s.sendBuffer := congrArg Core.sendBuffer h
  exact ⟨congrArg Core.peerRwnd h, by rw [markedBytes, markedBytes, hbuffer], by rw [SctpSender.lengths, hbuffer]; rfl⟩

lemma Shrinks.ite {p : Prop} [Decidable p] (ht : Shrinks s t) (hu : Shrinks s u) : Shrinks s (if p then t else u) := by
  split
  · exact ht
  · exact hu

lemma Shrinks.modifyNode (hchunk : ∀ n, (f n).chunk = n.chunk) (hmark : ∀ n, markedLength (f n) ≤ markedLength n) :
    Shrinks s (s.modifyNode i f) := by
  refine ⟨rfl, ?_, ?_⟩
  · rw [markedBytes_eq, markedBytes_eq]
    refine List.Forall₂.sum_le_sum ?_
    rw [List.forall₂_map_left_iff, List.forall₂_map_right_iff, List.forall₂_iff_get]
    refine ⟨List.length_modify _ _ _, fun j h₁ h₂ => ?_⟩
    simp only [SctpSender.modifyNode, List.get_eq_getElem, List.getElem_modify]
    split
    · exact hmark _
    · exact le_rfl
  · exact map_modify_same (g := fun n => n.chunk.length) (fun n => by rw [hchunk]) _

lemma Shrinks.atNode {g : ℕ → SendBufferNode D → SctpSender D → SctpSender D} (h : ∀ i n s, Shrinks s (g i n s)) :
    Shrinks s (atNode g i s) := by
  unfold SctpSender.atNode
  split
  · exact h _ _ _
  · exact Shrinks.refl

/-- The marked chunks are in the window, which has room for those from node `i` on. -/
structure Backed (s : SctpSender D) (i : ℕ) : Prop where
  marked : s.markedBytes ≤ s.peerRwnd
  room : s.peerRwnd + (s.lengths.drop i).sum < 2 ^ 32

lemma Backed.of_shrinks (h : Backed s i) (hs : Shrinks s t) : Backed t i :=
  ⟨hs.rwnd ▸ hs.marked.trans h.marked, by rw [hs.rwnd, hs.lengths]; exact h.room⟩

lemma Backed.next (h : Backed s i) : Backed s (i + 1) := by
  refine ⟨h.marked, lt_of_le_of_lt ?_ h.room⟩
  rw [← List.drop_drop]
  exact Nat.add_le_add_left (List.Sublist.sum_le_sum (List.drop_sublist 1 _) (by simp)) _

variable [DecidableEq D]

lemma Shrinks.unackNode : Shrinks s (unackNode i n s) :=
  Shrinks.ite (Shrinks.trans (Shrinks.modifyNode (f := fun n => { n with gapAcked := false }) (fun _ => rfl)
    fun _ => le_rfl) (Shrinks.of_core rfl)) Shrinks.refl

lemma Shrinks.gapAckNode : Shrinks s (gapAckNode newCumAck i n s) := by
  unfold SctpSender.gapAckNode
  extract_lets s₁ s₂ s₃ s₄ s₅ s₆ s₇ s₈
  have h₁ : Shrinks s s₁ := Shrinks.modifyNode (fun _ => rfl) fun _ => le_rfl
  have h₂ : Shrinks s s₂ := h₁.trans (Shrinks.of_core rfl)
  have h₃ : Shrinks s s₃ := h₂.trans (Shrinks.ite (Shrinks.of_core rfl) Shrinks.refl)
  have h₄ : Shrinks s s₄ := h₃.trans (Shrinks.ite (Shrinks.trans
    (Shrinks.modifyNode (f := fun n => { n with addedToPartialBytesAcked := true }) (fun _ => rfl) fun _ => le_rfl)
    (Shrinks.of_core rfl)) Shrinks.refl)
  have h₅ : Shrinks s s₅ := h₄.trans (Shrinks.of_core core_endRtt)
  have h₆ : Shrinks s s₆ := h₅.trans (Shrinks.ite (Shrinks.of_core rfl) Shrinks.refl)
  have h₇ : Shrinks s s₇ := h₆.trans (Shrinks.of_core rfl)
  have h₈ : Shrinks s s₈ := h₇.trans (Shrinks.ite (Shrinks.of_core core_clearErrorCount) Shrinks.refl)
  exact h₈.trans (Shrinks.modifyNode (fun _ => rfl) fun _ => Nat.zero_le _)

variable (chunk behind newCumAck) in
lemma Shrinks.gapAckLoop (k i processed highest : ℕ) :
    Shrinks s (gapAckLoop chunk behind newCumAck k i processed highest s).1 := by
  induction k generalizing i processed highest s with
  | zero => exact Shrinks.refl
  | succ k ih =>
    unfold SctpSender.gapAckLoop
    split
    · exact forLoop_keeps (P := Shrinks s) Shrinks.refl fun j t _ _ ht => ht.trans
        (Shrinks.atNode fun _ _ _ => Shrinks.unackNode)
    · split
      · exact Shrinks.refl
      next n _ =>
        have hnote : Shrinks s (s.noteFirst i n) := Shrinks.of_core core_noteFirst
        dsimp only
        split
        · exact (hnote.trans Shrinks.unackNode).trans (ih _ _ _)
        · split
          · exact (hnote.trans (Shrinks.ite Shrinks.gapAckNode Shrinks.refl)).trans (ih _ _ _)
          · exact (hnote.trans Shrinks.unackNode).trans (ih _ _ _)

/-- A missing report may mark the chunk. -/
lemma Backed.mark (h : Backed s i) (hn : s.sendBuffer[i]? = some n) (mark : MarkedForRtx) :
    Backed (s.markChunkForRtx i mark n) (i + 1) := by
  obtain ⟨hi, hni⟩ := List.getElem?_eq_some_iff.mp hn
  have hdrop : (s.lengths.drop i).sum = n.chunk.length + (s.lengths.drop (i + 1)).sum := by
    have hi' : i < s.lengths.length := by rwa [lengths, List.length_map]
    rw [List.drop_eq_getElem_cons hi', List.sum_cons]
    simp [lengths, hni]
  have hroom := h.room
  have hmarked := h.marked
  rw [hdrop] at hroom
  have hcore := core_markChunkForRtx (s := s) (i := i) (n := n) mark
  have hrwnd : (s.markChunkForRtx i mark n).peerRwnd = s.peerRwnd + n.chunk.length := by
    have : (s.markChunkForRtx i mark n).peerRwnd = (s.peerRwnd + n.chunk.length) % 2 ^ 32 := by
      refine (congrArg Core.peerRwnd hcore).trans ?_
      split <;> rfl
    rw [this, Nat.mod_eq_of_lt (by omega)]
  obtain ⟨g, hg, hbuffer⟩ : ∃ g : SendBufferNode D → SendBufferNode D, (∀ m, (g m).chunk = m.chunk) ∧
      (s.markChunkForRtx i mark n).sendBuffer = s.sendBuffer.modify i g := by
    by_cases hgive : s.GivenUp n
    · rw [if_pos hgive] at hcore
      refine ⟨_, ?_, congrArg Core.sendBuffer hcore⟩
      exact fun _ => rfl
    · rw [if_neg hgive] at hcore
      refine ⟨_, ?_, congrArg Core.sendBuffer hcore⟩
      exact fun _ => rfl
  have hlengths : (s.markChunkForRtx i mark n).lengths = s.lengths := by
    rw [lengths, hbuffer]
    exact map_modify_same (g := fun n => n.chunk.length) (fun m => by rw [hg]) _
  have hsplit : s.sendBuffer = s.sendBuffer.take i ++ n :: s.sendBuffer.drop (i + 1) := by
    rw [← hni, ← List.drop_eq_getElem_cons hi, List.take_append_drop]
  have hmodify : s.sendBuffer.modify i g = s.sendBuffer.take i ++ g n :: s.sendBuffer.drop (i + 1) := by
    have hmiddle : (s.sendBuffer.take i ++ n :: s.sendBuffer.drop (i + 1)).modify (s.sendBuffer.take i).length g = _ :=
      modify_append_cons g
    rwa [List.length_take, Nat.min_eq_left hi.le, ← hsplit] at hmiddle
  have hmore : (s.markChunkForRtx i mark n).markedBytes ≤ s.markedBytes + n.chunk.length := by
    have hle : markedLength (g n) ≤ n.chunk.length := markedLength_le.trans_eq (by rw [hg])
    rw [markedBytes_eq, markedBytes_eq, hbuffer, hmodify]
    nth_rewrite 3 [hsplit]
    simp only [List.map_append, List.map_cons, List.sum_append, List.sum_cons]
    omega
  exact ⟨by omega, by rw [hrwnd, hlengths]; omega⟩

lemma Backed.missingReport {highestSacked : ℕ} {r : SctpSender D × Bool} (h : Backed r.1 i) :
    Backed (missingReport c newCumAck highestSacked i r).1 (i + 1) := by
  unfold SctpSender.missingReport
  split
  · exact h.next
  next n hn =>
    split
    · have hreport : Shrinks r.1 (r.1.modifyNode i fun n => { n with numMissingReports := n.numMissingReports + 1 }) :=
        Shrinks.modifyNode (fun _ => rfl) fun _ => le_rfl
      dsimp only
      split
      · obtain ⟨n', hn', hlen⟩ : ∃ n' : SendBufferNode D, (r.1.modifyNode i fun n =>
            { n with numMissingReports := n.numMissingReports + 1 }).sendBuffer[i]? = some n' ∧
              n' = { n with numMissingReports := n.numMissingReports + 1 } := by
          refine ⟨_, ?_, rfl⟩
          show (r.1.sendBuffer.modify i _)[i]? = _
          rw [List.getElem?_modify_eq, hn]
          rfl
        subst hlen
        have hmark := (h.of_shrinks hreport).mark hn' .fastRtx
        exact hmark.of_shrinks (Shrinks.modifyNode (fun _ => rfl) fun _ => le_rfl)
      · exact (h.of_shrinks hreport).next
    · exact h.next

lemma dequeue_core (tsn : ℕ) (l : List (SendBufferNode D)) (hl : s.sendBuffer = l) :
    (dequeue tsn l s).core = { s.core with sendBuffer := l.dropWhile fun n => n.chunk.tsn ≤ tsn } := by
  induction l generalizing s with
  | nil =>
    rw [dequeue, List.dropWhile_nil, ← hl]
    rfl
  | cons n l ih =>
    rw [dequeue]
    by_cases hle : n.chunk.tsn ≤ tsn
    · rw [if_pos hle, List.dropWhile_cons_of_pos (by simpa using hle), ih rfl]
      exact congrArg (fun k : Core D => { k with sendBuffer := l.dropWhile fun n => n.chunk.tsn ≤ tsn }) core_ackNode
    · rw [if_neg hle, List.dropWhile_cons_of_neg (by simpa using hle), ← hl]
      rfl

/-- `ProcessSackChunk` up to the retransmissions, of a SACK that is not older than the cumulative ack point. -/
def readSack (c : SctpConfig) (s : SctpSender D) (chunk : SackChunk) (behind : ℕ → GapAckBlock) :
    SctpSender D × Bool :=
  let s := s.forDests fun d s => s.modifyDest d fun x =>
    { x with numNewlyAckedBytes := 0, firstOutstanding := none }
  let newCumAck : Bool := chunk.cumAck > s.cumAckPoint
  let s := if newCumAck then { s.sendBufferDequeueUpTo chunk.cumAck with cumAckPoint := chunk.cumAck } else s
  let r := if chunk.numGapAckBlocks ≠ 0 then s.processGapAckBlocks c chunk behind newCumAck else (s, false)
  ((r.1.forDests (settleDest c chunk newCumAck)).advancePeerAckPoint, r.2)

/-- The nodes that a SACK leaves in the send buffer. -/
def leftBy (s : SctpSender D) (chunk : SackChunk) : List (SendBufferNode D) :=
  if chunk.cumAck > s.cumAckPoint then s.sendBuffer.dropWhile fun n => n.chunk.tsn ≤ chunk.cumAck else s.sendBuffer

lemma Backed.processGapAckBlocks (h : Backed s 0) :
    Backed (s.processGapAckBlocks c chunk behind newCumAck).1 s.sendBuffer.length := by
  unfold SctpSender.processGapAckBlocks
  split
  next hnil =>
    rw [hnil]
    exact h
  · dsimp only
    have hclear : Shrinks s s.clearFirstOutstanding := Shrinks.of_core core_clearFirstOutstanding
    have hloop := hclear.trans (Shrinks.gapAckLoop chunk behind newCumAck
      s.clearFirstOutstanding.sendBuffer.length 0 0 s.clearFirstOutstanding.highestTsnNewlyAcked)
    have hlen := congrArg List.length hloop.lengths
    rw [lengths, lengths, List.length_map, List.length_map] at hlen
    rw [← hlen]
    exact forLoop_invariant (P := fun i (r : SctpSender D × Bool) => Backed r.1 i) (Nat.zero_le _)
      (h.of_shrinks hloop) fun i r _ _ hr => hr.missingReport

variable (behind) in
/-- The marked chunks that the SACK leaves are in the window, and those that it marks are, too. -/
lemma readSack_backed (hmarked : (markedLengths (s.leftBy chunk)).sum ≤ s.peerRwnd)
    (hroom : s.peerRwnd + ((s.leftBy chunk).map fun n => n.chunk.length).sum < 2 ^ 32) :
    ∃ i, Backed (readSack c s chunk behind).1 i := by
  unfold readSack
  extract_lets s₁ newCumAck s₀ s₂ r
  have h₁ : s₁.core = s.core := core_forDests fun _ _ => rfl
  have hpoint : s₁.cumAckPoint = s.cumAckPoint :=
    forDests_keeps (P := fun t => t.cumAckPoint = s.cumAckPoint) rfl fun _ _ ht => ht
  have h₂ : s₂.core = { s.core with sendBuffer := s.leftBy chunk } := by
    by_cases hnew : chunk.cumAck > s.cumAckPoint
    · have hnew' : newCumAck = true := decide_eq_true (hpoint ▸ hnew)
      have hs₂ : s₂.core = s₀.core := by
        simp only [s₂, if_pos hnew']
        rfl
      have hbuffer : s₁.sendBuffer = s.sendBuffer := congrArg Core.sendBuffer h₁
      have hdequeue : s₀.core = { s₁.core with
          sendBuffer := s₁.sendBuffer.dropWhile fun n => n.chunk.tsn ≤ chunk.cumAck } :=
        dequeue_core (s := { s₁ with assocErrorCount := 0 }) chunk.cumAck s₁.sendBuffer rfl
      rw [hs₂, hdequeue, h₁, hbuffer, leftBy, if_pos hnew]
    · have hnew' : ¬newCumAck = true := fun h => hnew (hpoint ▸ of_decide_eq_true h)
      simp only [s₂, if_neg hnew', leftBy, if_neg hnew]
      exact h₁
  have hbuffer : s₂.sendBuffer = s.leftBy chunk := congrArg Core.sendBuffer h₂
  have hrwnd : s₂.peerRwnd = s.peerRwnd := congrArg Core.peerRwnd h₂
  have hbacked : Backed s₂ 0 := by
    refine ⟨by rw [markedBytes, hbuffer, hrwnd]; exact hmarked, ?_⟩
    rw [hrwnd, List.drop_zero, lengths, hbuffer]
    exact hroom
  obtain ⟨i, hr⟩ : ∃ i, Backed r.1 i := by
    simp only [r]
    split
    · exact ⟨_, hbacked.processGapAckBlocks⟩
    · exact ⟨0, hbacked⟩
  have hsettle : (r.1.forDests (settleDest c chunk newCumAck)).core = r.1.core :=
    core_forDests fun _ _ => core_settleDest _ _
  exact ⟨i, hr.of_shrinks (Shrinks.of_core hsettle)⟩

lemma processSackChunk_eq (h : ¬chunk.cumAck < s.cumAckPoint) :
    s.processSackChunk c chunk behind =
      ((readSack c s chunk behind).1.rtxAfterSack c (readSack c s chunk behind).2).map fun t =>
        { t with peerRwnd := if t.totalOutstanding ≤ chunk.arwnd then chunk.arwnd - t.totalOutstanding else 0 } := by
  have hpoint : (s.forDests fun d s => s.modifyDest d fun x =>
      { x with numNewlyAckedBytes := 0, firstOutstanding := none }).cumAckPoint = s.cumAckPoint :=
    forDests_keeps (P := fun t => t.cumAckPoint = s.cumAckPoint) rfl fun _ _ ht => ht
  unfold processSackChunk
  dsimp only
  rw [if_neg (by rwa [hpoint])]
  rfl

lemma processSackChunk_old (h : chunk.cumAck < s.cumAckPoint) (ht : s.processSackChunk c chunk behind = some t) :
    t.core = s.core := by
  have hpoint : (s.forDests fun d s => s.modifyDest d fun x =>
      { x with numNewlyAckedBytes := 0, firstOutstanding := none }).cumAckPoint = s.cumAckPoint :=
    forDests_keeps (P := fun t => t.cumAckPoint = s.cumAckPoint) rfl fun _ _ ht => ht
  unfold processSackChunk at ht
  dsimp only at ht
  rw [if_pos (by rwa [hpoint])] at ht
  obtain rfl := Option.some.inj ht
  exact core_forDests fun _ _ => rfl

/-- What is sent again has been in the window, if all marked chunks are. -/
lemma rtxMarkedChunks_le {limit : RtxLimit} (h : Backed s i) (hbuffer : u.sendBuffer = s.sendBuffer)
    (hrwnd : u.peerRwnd = s.peerRwnd) (hsent : u.sent = s.sent) (ht : u.rtxMarkedChunks c limit = some t) :
    debited s t ≤ s.peerRwnd := by
  have hlt : s.peerRwnd < 2 ^ 32 := lt_of_le_of_lt (Nat.le_add_right _ _) h.room
  have hdebit := (rtxMarkedChunks_debited (hrwnd ▸ hlt) ht).1.marked
  have hmarked := h.marked
  rw [markedBytes, ← hbuffer] at hmarked
  rw [debited, ← hsent]
  change debited u t ≤ _
  rw [markedBytes, markedBytes] at hdebit
  omega

lemma Backed.rtxAfterSack {fastRtxNeeded : Bool} (h : Backed s i) (ht : s.rtxAfterSack c fastRtxNeeded = some t) :
    debited s t ≤ s.peerRwnd := by
  have hnone : ∀ {u : SctpSender D}, u.sent = s.sent → debited s u ≤ s.peerRwnd := fun hsent => by
    rw [debited_eq (s := s) (hsent.trans (List.nil_append _).symm)]
    exact Nat.zero_le _
  unfold SctpSender.rtxAfterSack at ht
  split at ht
  · unfold fastRtx at ht
    extract_lets s₁ s₂ at ht
    have h₂ : s₂.core = s.core := (core_forNodes fun _ _ _ => core_cutWindow).trans (core_forDests fun _ _ => rfl)
    split at ht
    · exact rtxMarkedChunks_le h (congrArg Core.sendBuffer h₂) (congrArg Core.peerRwnd h₂) (congrArg Core.sent h₂) ht
    · obtain rfl := Option.some.inj ht
      exact hnone (congrArg Core.sent h₂)
  · extract_lets s₁ at ht
    split at ht
    · exact rtxMarkedChunks_le (u := s₁) h rfl rfl rfl ht
    · obtain rfl := Option.some.inj ht
      exact hnone rfl

/-! ### New data -/

omit [DecidableEq D] in
lemma subPeerRwnd_le {n : ℕ} (h : n ≤ s.peerRwnd) : (s.subPeerRwnd n).peerRwnd ≤ s.peerRwnd := by
  have hsub : s.peerRwnd + 2 ^ 32 - n = s.peerRwnd - n + 2 ^ 32 := by omega
  unfold subPeerRwnd
  dsimp only
  rw [hsub, Nat.add_mod_right]
  exact (Nat.mod_le _ _).trans (Nat.sub_le _ _)

/-- A number is at least what it is as an `int`. -/
lemma bmod_le (n m : ℕ) : (n : ℤ).bmod m ≤ n := by
  have hmod : (n : ℤ) % m ≤ n := Int.ofNat_le.mpr (Nat.mod_le n m)
  rw [Int.bmod_def]
  split <;> omega

omit [DecidableEq D] in
/-- A chunk with new data is taken from the window only if it is there. -/
lemma takeFromWindow_le (size : ℕ) : (if (size : ℤ) ≤ (s.peerRwnd : ℤ).bmod (2 ^ 32) then s.subPeerRwnd size
    else { s with peerRwnd := 0 }).peerRwnd ≤ s.peerRwnd := by
  split
  next hle => exact subPeerRwnd_le (Int.ofNat_le.mp (hle.trans (bmod_le _ _)))
  next => exact Nat.zero_le _

lemma takeNewChunk_le (chunk : DataChunk) (size reliability : ℕ) (now : ℚ) :
    (s.takeNewChunk chunk size reliability now).peerRwnd ≤ s.peerRwnd := by
  have hadd : (s.addToSendBuffer chunk reliability s.newTxDest now).peerRwnd = s.peerRwnd := by
    unfold addToSendBuffer
    dsimp only
    split <;> rfl
  have htimer : ∀ {t : SctpSender D} {d : D} {p : Prop} [Decidable p],
      (if p then t.startT3RtxTimer d else t).peerRwnd = t.peerRwnd := by
    intro t d p _
    split <;> rfl
  unfold takeNewChunk
  exact htimer.trans_le ((takeFromWindow_le size).trans_eq hadd)

/-! ### Timeouts -/

lemma core_backOff {x : DataConfig} {closing : Bool} (h : s.backOff c x d = some (t, closing)) : t.core = s.core := by
  have hprimary : ∀ {u : SctpSender D} {p : Prop} [Decidable p], u.core = s.core →
      (if p then { u with primaryDest := u.newTxDest } else u).core = s.core := by
    intro u p _ hu
    exact core_ite hu hu
  unfold backOff at h
  extract_lets s₁ changePrimary s₂ s₃ failed at h
  have hfailed : ∀ u, failed = some u → u.core = s.core := by
    intro u hu
    simp only [failed] at hu
    split at hu
    · split at hu
      · obtain ⟨next, -, rfl⟩ := Option.map_eq_some_iff.mp hu
        rfl
      · exact Option.some.inj hu ▸ rfl
    · exact Option.some.inj hu ▸ rfl
  clear_value failed
  split at h
  · obtain ⟨u, hu, hclosing⟩ := Option.map_eq_some_iff.mp h
    split at hclosing
    · exact (Prod.mk.inj hclosing).1 ▸ hfailed u hu
    · exact (Prod.mk.inj hclosing).1 ▸ hprimary (hfailed u hu)
  · exact (Prod.mk.inj (Option.some.inj h)).1 ▸ hprimary rfl

lemma timedOut_of_core (h : t.core = s.core) : t.timedOut d = s.timedOut d := by
  have hmode : t.outStreamMode = s.outStreamMode := congrArg Core.outStreamMode h
  funext n
  unfold timedOut GivenUp
  rw [hmode]

lemma rtxBytes_of_core (h : t.core = s.core) : rtxBytes c t d = rtxBytes c s d := by
  have hbuffer : t.sendBuffer = s.sendBuffer := congrArg Core.sendBuffer h
  have hmode : t.outStreamMode = s.outStreamMode := congrArg Core.outStreamMode h
  have hpending : t.markedChunksPending = s.markedChunksPending := congrArg Core.markedChunksPending h
  have hnew : t.newlyMarked d = s.newlyMarked d := by
    funext l
    unfold newlyMarked GivenUp
    rw [hmode]
  unfold rtxBytes
  rw [timedOut_of_core h, hnew, hbuffer, hpending]

end SctpSender

namespace SctpAssociation
open SctpSender
variable {D : Type*} [DecidableEq D] {c : SctpConfig} {x : DataConfig} {a b b' : SctpAssociation D}
  {ev : AssociationEvent D}

/-- Only new data has been sent. -/
structure Lowered (a b : SctpAssociation D) : Prop where
  rwnd : b.sender.peerRwnd ≤ a.sender.peerRwnd
  arwnd : b.arwnd = a.arwnd

omit [DecidableEq D] in
lemma Lowered.refl : Lowered a a := ⟨le_rfl, rfl⟩

omit [DecidableEq D] in
lemma Lowered.trans (h : Lowered a b) (h' : Lowered b b') : Lowered a b' :=
  ⟨h'.rwnd.trans h.rwnd, h'.arwnd.trans h.arwnd⟩

omit [DecidableEq D] in
lemma genChunk_lowered (streamId length : ℕ) (unordered : Bool) :
    Lowered a (a.genChunk streamId length unordered).2 := by
  unfold genChunk
  dsimp only
  split <;> exact ⟨le_rfl, rfl⟩

/-- The chunk that is taken from the window is made first. -/
lemma Lowered.of_chunk {streamId length size reliability : ℕ} {unordered : Bool} {now : ℚ}
    {f : SctpAssociation D → SctpSender D → SctpAssociation D} (hsender : ∀ b s, (f b s).sender = s)
    (harwnd : ∀ b s, (f b s).arwnd = b.arwnd) {r : SctpAssociation D × DataChunk × ℕ}
    (h : (let (chunk, b) := a.genChunk streamId length unordered
      some (f b (b.sender.takeNewChunk chunk size reliability now), chunk, size)) = some r) : Lowered a r.1 := by
  have hg := genChunk_lowered (a := a) streamId length unordered
  dsimp only at h
  generalize a.genChunk streamId length unordered = g at h hg
  have htake := takeNewChunk_le (s := g.2.sender) g.1 size reliability now
  generalize g.2.sender.takeNewChunk g.1 size reliability now = s at h htake
  obtain rfl := Option.some.inj h
  exact ⟨(hsender _ s).symm ▸ htake.trans hg.rwnd, (harwnd _ s).trans hg.arwnd⟩

lemma genOneDataChunk_lowered {now : ℚ} {r : SctpAssociation D × DataChunk × ℕ}
    (h : a.genOneDataChunk x now = some r) : Lowered a r.1 := by
  unfold genOneDataChunk at h
  cases hsource : x.dataSource with
  | application =>
    rw [hsource] at h
    cases hbuffer : a.appLayerBuffer with
    | nil =>
      rw [hbuffer] at h
      cases h
    | cons msg msgs =>
      rw [hbuffer] at h
      exact Lowered.of_chunk (f := fun b s => { b with sender := s, appLayerBuffer := msgs }) (fun _ _ => rfl)
        (fun _ _ => rfl) h
  | infinite =>
    rw [hsource] at h
    exact Lowered.of_chunk (f := fun b s => { b with sender := s, nextStreamId := (b.nextStreamId + 1) % 2 ^ 16 })
      (fun _ _ => rfl) (fun _ _ => rfl) h

lemma genMultipleDataChunks_lowered {now : ℚ} (fuel total : ℕ) (packet : List DataChunk)
    {r : SctpAssociation D × List DataChunk} (h : genMultipleDataChunks c x now fuel total packet a = some r) :
    Lowered a r.1 := by
  induction fuel generalizing a total packet with
  | zero => cases h
  | succ fuel ih =>
    rw [genMultipleDataChunks] at h
    split at h
    · obtain ⟨r₁, hr₁, h⟩ := Option.bind_eq_some_iff.mp h
      exact (genOneDataChunk_lowered hr₁).trans (ih _ _ h)
    · exact Option.some.inj h ▸ Lowered.refl

lemma sendLoop_lowered {now : ℚ} (fuel : ℕ) (h : sendLoop c x now fuel a = some b) : Lowered a b := by
  induction fuel generalizing a with
  | zero => cases h
  | succ fuel ih =>
    rw [sendLoop] at h
    dsimp only at h
    split at h
    · split at h
      · split at h
        · exact Option.some.inj h ▸ ⟨le_rfl, rfl⟩
        · obtain ⟨r, hr, h⟩ := Option.bind_eq_some_iff.mp h
          have hpacket := genMultipleDataChunks_lowered _ _ _ hr
          have hsend : Lowered r.1 (r.1.sendPacket r.2) := ⟨le_rfl, rfl⟩
          refine Lowered.trans ?_ ((hpacket.trans hsend).trans (ih h))
          split <;> exact ⟨le_rfl, rfl⟩
      · split at h
        · obtain ⟨r, hr, h⟩ := Option.bind_eq_some_iff.mp h
          have hsend : Lowered r.1 (r.1.sendPacket [r.2.1]) := ⟨le_rfl, rfl⟩
          exact ((genOneDataChunk_lowered hr).trans hsend).trans (ih h)
        · exact Option.some.inj h ▸ Lowered.refl
    · exact Option.some.inj h ▸ Lowered.refl

lemma sendMuch_lowered {now : ℚ} (h : a.sendMuch c x now = some b) : Lowered a b := by
  obtain ⟨b', hloop, rfl⟩ := Option.map_eq_some_iff.mp h
  exact (sendLoop_lowered _ hloop).trans ⟨le_rfl, rfl⟩

/-! ### Events -/

/-- The sender before and after the retransmissions of an event. -/
def rtxStates (c : SctpConfig) (x : DataConfig) (a : SctpAssociation D) :
    AssociationEvent D → Option (SctpSender D × SctpSender D)
  | .timeout d =>
    if (a.sender.dest d).rtxTimerIsRunning then
      (a.sender.backOff c x d).bind fun r =>
        if r.2 then none else (r.1.timeoutRtx c d).map fun s => (r.1.markTimedOut d, s)
    else none
  | .sack chunk behind _ =>
    if chunk.cumAck < a.sender.cumAckPoint then none
    else ((readSack c a.sender chunk behind).1.rtxAfterSack c (readSack c a.sender chunk behind).2).map fun s =>
      ((readSack c a.sender chunk behind).1, s)
  | _ => none

/-- The sender before an event takes new data. -/
def beforeNewData (c : SctpConfig) (a : SctpAssociation D) : AssociationEvent D → Option (SctpSender D)
  | .established _ | .sendmsg _ _ => some a.sender
  | .sack chunk behind _ => a.sender.processSackChunk c chunk behind
  | .timeout _ => none

/-- The window is in the one that is advertised, and has had what is taken from it. -/
structure WindowKept (c : SctpConfig) (x : DataConfig) (a : SctpAssociation D) (ev : AssociationEvent D)
    (b : SctpAssociation D) : Prop where
  advertised : b.sender.peerRwnd ≤ b.arwnd
  rtx : a.closed = false → ∀ s t, a.rtxStates c x ev = some (s, t) → debited s t ≤ s.peerRwnd
  new : a.closed = false → ∀ s, a.beforeNewData c ev = some s → b.sender.peerRwnd ≤ s.peerRwnd

/-- The credit of the chunks that are marked when a SACK or a timeout has been dealt with is in the window, and not
in it twice. -/
def Balanced (c : SctpConfig) (x : DataConfig) (a : SctpAssociation D) : AssociationEvent D → Prop
  | .timeout d =>
    (a.sender.dest d).rtxTimerIsRunning ∧ (a.sender.backOff c x d).any (fun r => !r.2) →
      a.sender.peerRwnd + credited d a.sender.sendBuffer < 2 ^ 32 ∧
      rtxBytes c a.sender d ≤ a.sender.peerRwnd + credited d a.sender.sendBuffer ∧
      a.sender.peerRwnd + credited d a.sender.sendBuffer ≤ a.arwnd + rtxBytes c a.sender d
  | .sack chunk _ _ =>
    a.sender.cumAckPoint ≤ chunk.cumAck →
      (markedLengths (a.sender.leftBy chunk)).sum ≤ a.sender.peerRwnd ∧
      a.sender.peerRwnd + ((a.sender.leftBy chunk).map fun n => n.chunk.length).sum < 2 ^ 32
  | _ => True

instance (a : SctpAssociation D) : (ev : AssociationEvent D) → Decidable (a.Balanced c x ev)
  | .timeout _ => inferInstanceAs (Decidable (_ ∧ _ → _ ∧ _ ∧ _))
  | .sack _ _ _ => inferInstanceAs (Decidable (_ → _ ∧ _))
  | .established _ => .isTrue trivial
  | .sendmsg _ _ => .isTrue trivial

lemma timeout_kept {d : D} (hkept : a.sender.peerRwnd ≤ a.arwnd) (hbalanced : a.Balanced c x (.timeout d))
    (hrunning : (a.sender.dest d).rtxTimerIsRunning = true) (h : a.timeout c x d = some b) :
    WindowKept c x a (.timeout d) b := by
  obtain ⟨⟨r, closing⟩, hback, h⟩ := Option.bind_eq_some_iff.mp h
  have hcore := core_backOff hback
  have hrwnd : r.peerRwnd = a.sender.peerRwnd := congrArg Core.peerRwnd hcore
  have hbuffer : r.sendBuffer = a.sender.sendBuffer := congrArg Core.sendBuffer hcore
  have hstates : a.rtxStates c x (.timeout d) =
      if closing then none else (r.timeoutRtx c d).map fun s => (r.markTimedOut d, s) := by
    unfold rtxStates
    dsimp only
    rw [if_pos hrunning, hback]
    rfl
  cases closing with
  | true =>
    obtain rfl := Option.some.inj h
    refine ⟨hrwnd.trans_le hkept, fun _ s t hst => ?_, fun _ s hs => nomatch hs⟩
    rw [hstates] at hst
    cases hst
  | false =>
    obtain ⟨hroom, hle, hadvertised⟩ := hbalanced ⟨hrunning, by rw [hback]; rfl⟩
    rw [← hrwnd, ← hbuffer] at hroom hle hadvertised
    rw [← rtxBytes_of_core hcore] at hle hadvertised
    obtain ⟨u, hu, rfl⟩ := Option.map_eq_some_iff.mp h
    obtain ⟨hmark, hdebit, hrest⟩ := timeoutRtx_debited hroom hu
    have hrest := hrest hle
    refine ⟨?_, fun _ s t hst => ?_, fun _ s hs => nomatch hs⟩
    · show u.peerRwnd ≤ a.arwnd
      omega
    · rw [hstates] at hst
      obtain ⟨t', ht', heq⟩ := Option.map_eq_some_iff.mp hst
      obtain ⟨rfl, rfl⟩ := Prod.mk.inj heq
      obtain rfl := Option.some.inj (hu.symm.trans ht')
      rw [hdebit, hmark]
      exact hle

lemma sack_kept {chunk : SackChunk} {behind : ℕ → GapAckBlock} {now : ℚ} (hkept : a.sender.peerRwnd ≤ a.arwnd)
    (hbalanced : a.Balanced c x (.sack chunk behind now)) (h : a.recvSack c x chunk behind now = some b) :
    WindowKept c x a (.sack chunk behind now) b := by
  obtain ⟨s, hs, h⟩ := Option.bind_eq_some_iff.mp h
  have hlowered : b.sender.peerRwnd ≤ s.peerRwnd ∧
      b.arwnd = if chunk.cumAck < a.sender.cumAckPoint then a.arwnd else chunk.arwnd := by
    dsimp only at h
    split at h
    · obtain rfl := Option.some.inj h
      exact ⟨le_rfl, rfl⟩
    · exact ⟨(sendMuch_lowered h).rwnd, (sendMuch_lowered h).arwnd⟩
  have hnew : ∀ s', a.beforeNewData c (.sack chunk behind now) = some s' → b.sender.peerRwnd ≤ s'.peerRwnd := by
    intro s' hs'
    obtain rfl := Option.some.inj (hs.symm.trans hs')
    exact hlowered.1
  by_cases hold : chunk.cumAck < a.sender.cumAckPoint
  · have hrwnd : s.peerRwnd = a.sender.peerRwnd := congrArg Core.peerRwnd (processSackChunk_old hold hs)
    rw [if_pos hold] at hlowered
    refine ⟨?_, fun _ s' t hst => ?_, fun _ => hnew⟩
    · rw [hlowered.2]
      exact hlowered.1.trans (hrwnd.trans_le hkept)
    · change (if chunk.cumAck < a.sender.cumAckPoint then none else _) = _ at hst
      rw [if_pos hold] at hst
      cases hst
  · obtain ⟨hmarked, hroom⟩ := hbalanced (not_lt.mp hold)
    obtain ⟨i, hbacked⟩ := readSack_backed (c := c) behind hmarked hroom
    rw [processSackChunk_eq hold] at hs
    obtain ⟨t, ht, rfl⟩ := Option.map_eq_some_iff.mp hs
    rw [if_neg hold] at hlowered
    refine ⟨?_, fun _ s' t' hst => ?_, fun _ => hnew⟩
    · rw [hlowered.2]
      refine hlowered.1.trans ?_
      dsimp only
      split
      · exact Nat.sub_le _ _
      · exact Nat.zero_le _
    · change (if chunk.cumAck < a.sender.cumAckPoint then none else _) = _ at hst
      rw [if_neg hold] at hst
      obtain ⟨u, hu, heq⟩ := Option.map_eq_some_iff.mp hst
      obtain ⟨rfl, rfl⟩ := Prod.mk.inj heq
      exact hbacked.rtxAfterSack hu

lemma lowered_kept (hkept : a.sender.peerRwnd ≤ a.arwnd) (h : Lowered a b) (hrtx : a.rtxStates c x ev = none)
    (hnew : ∀ s, a.beforeNewData c ev = some s → s = a.sender) : WindowKept c x a ev b := by
  refine ⟨?_, fun _ s t hst => ?_, fun _ s hs => hnew s hs ▸ h.rwnd⟩
  · rw [h.arwnd]
    exact h.rwnd.trans hkept
  · rw [hrtx] at hst
    cases hst

/-- One event. -/
lemma step_kept (hkept : a.sender.peerRwnd ≤ a.arwnd) (hbalanced : a.Balanced c x ev)
    (h : a.step c x ev = some (b, ())) : WindowKept c x a ev b := by
  unfold SctpAssociation.step at h
  split at h
  next hclosed =>
    obtain ⟨rfl, -⟩ := Prod.mk.inj (Option.some.inj h)
    have hopen : ¬a.closed = false := by simp [hclosed]
    exact ⟨hkept, fun h => absurd h hopen, fun h => absurd h hopen⟩
  next =>
    cases ev with
    | established now =>
      obtain ⟨b', hb, heq⟩ := Option.map_eq_some_iff.mp h
      obtain ⟨rfl, -⟩ := Prod.mk.inj heq
      exact lowered_kept hkept (sendMuch_lowered hb) rfl fun s hs => (Option.some.inj hs).symm
    | sendmsg msgs now =>
      obtain ⟨b', hb, heq⟩ := Option.map_eq_some_iff.mp h
      obtain ⟨rfl, -⟩ := Prod.mk.inj heq
      unfold sendmsg at hb
      split at hb
      · cases hb
      · have hlowered := sendMuch_lowered hb
        exact lowered_kept hkept ⟨hlowered.rwnd, hlowered.arwnd⟩ rfl fun s hs => (Option.some.inj hs).symm
    | sack chunk behind now =>
      obtain ⟨b', hb, heq⟩ := Option.map_eq_some_iff.mp h
      obtain ⟨rfl, -⟩ := Prod.mk.inj heq
      exact sack_kept hkept hbalanced hb
    | timeout d =>
      dsimp only at h
      split at h
      next hrunning =>
        obtain ⟨b', hb, heq⟩ := Option.map_eq_some_iff.mp h
        obtain ⟨rfl, -⟩ := Prod.mk.inj heq
        exact timeout_kept hkept hbalanced hrunning hb
      next hstopped =>
        obtain ⟨rfl, -⟩ := Prod.mk.inj (Option.some.inj h)
        refine lowered_kept hkept Lowered.refl ?_ fun s hs => nomatch hs
        unfold rtxStates
        dsimp only
        rw [if_neg hstopped]

/-- An association with one destination behind the handshake, in which the peer has room for `chunks` packets. -/
def opened (chunks : ℕ) : SctpAssociation Unit where
  sender :=
    { sendBuffer := []
      destList := [()]
      dest := fun _ => ⟨3 * 1468, chunks * 1468, false, false, 0, 0, 0, .active, false, none, 0⟩
      primaryDest := ()
      newTxDest := ()
      cumAckPoint := 0
      advancedPeerAckPoint := 0
      highestTsnNewlyAcked := 0
      recover := 0
      peerRwnd := chunks * 1468
      assocErrorCount := 0
      applyMaxBurst := false
      markedChunksPending := false
      burstLength := 0
      outStreamMode := fun _ => .reliable
      sent := [] }
  appLayerBuffer := []
  nextTsn := 0
  nextStreamId := 0
  nextStreamSeqNum := fun _ => 0
  closed := false
  arwnd := chunks * 1468

def wholePackets : SctpConfig := ⟨1468, 1468, 3, 4, .on, .hop, true⟩

def endlessData : DataConfig := ⟨.infinite, 1468, 1, 4294967295, false, 5, 10, 5⟩

/-- A SACK with at most one gap ack block. -/
def sacked (tsn arwnd : ℕ) (gaps : List GapAckBlock) : AssociationEvent Unit :=
  .sack ⟨16 + 4 * gaps.length, tsn, arwnd, gaps.length, 0, gaps, []⟩ (fun _ => ⟨0, 0⟩) 1

end SctpAssociation

end NetworkSimulator
