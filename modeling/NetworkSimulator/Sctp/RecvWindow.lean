import Mathlib.Algebra.BigOperators.Group.List.Basic
import Mathlib.Algebra.GroupWithZero.Nat
import NetworkSimulator.Sctp.Receiver

/-!
# The receiver's window

`uiMyRwnd` is debited with a chunk that is taken and credited when the chunk is passed up. In between the chunk is in
the buffer of its stream, unless there is one with its stream sequence number already.
-/

namespace NetworkSimulator
open Library

namespace SctpReceiver
variable {s t : SctpReceiver} {i : ℕ} {stream : InStream} {chunk : DataChunk} {l : List DataChunk}

/-- The bytes of the chunks in a buffer. -/
def bytesIn (l : List DataChunk) : ℕ := (l.map DataChunk.length).sum

/-- The bytes of the chunks in the buffers of all streams. -/
def buffered (s : SctpReceiver) : ℕ := (s.inStreams.map fun stream => bytesIn stream.bufferedChunkList).sum

/-- A buffer is in the order of the stream sequence numbers. -/
def InOrder (l : List DataChunk) : Prop := l.Pairwise fun a b => a.streamSeqNum < b.streamSeqNum

/-- There is a chunk with the stream sequence number in the buffer of the stream. -/
def repeats (s : SctpReceiver) (chunk : DataChunk) : Bool :=
  s.inStreams[chunk.streamId]?.any fun stream =>
    stream.bufferedChunkList.any fun c => c.streamSeqNum = chunk.streamSeqNum

/-- The window with what is in the buffers, which are in order. -/
structure Books (total : ℕ) (s : SctpReceiver) : Prop where
  sum : s.myRwnd + s.buffered = total
  order : ∀ stream ∈ s.inStreams, InOrder stream.bufferedChunkList

@[simp] lemma bytesIn_nil : bytesIn [] = 0 := rfl

@[simp] lemma bytesIn_cons : bytesIn (chunk :: l) = chunk.length + bytesIn l := rfl

lemma bytesIn_append (l₁ l₂ : List DataChunk) : bytesIn (l₁ ++ l₂) = bytesIn l₁ + bytesIn l₂ := by
  unfold bytesIn
  rw [List.map_append, List.sum_append]

lemma Books.of_same {total : ℕ} (h : Books total s) (hrwnd : t.myRwnd = s.myRwnd) (hstreams : t.inStreams = s.inStreams) :
    Books total t :=
  ⟨by rw [hrwnd, buffered, hstreams]; exact h.sum, hstreams ▸ h.order⟩

/-- One buffer is replaced. -/
lemma buffered_set {stream' : InStream} (hi : s.inStreams[i]? = some stream)
    (hstreams : t.inStreams = s.inStreams.set i stream') :
    t.buffered + bytesIn stream.bufferedChunkList = s.buffered + bytesIn stream'.bufferedChunkList := by
  obtain ⟨hlt, rfl⟩ := List.getElem?_eq_some_iff.mp hi
  have hset := List.sum_set (s.inStreams.map fun stream => bytesIn stream.bufferedChunkList) i
    (bytesIn stream'.bufferedChunkList)
  have hold : s.buffered = ((s.inStreams.map fun stream => bytesIn stream.bufferedChunkList).take i).sum +
      (bytesIn s.inStreams[i].bufferedChunkList +
        ((s.inStreams.map fun stream => bytesIn stream.bufferedChunkList).drop (i + 1)).sum) := by
    have hdrop := List.drop_eq_getElem_cons (l := s.inStreams.map fun stream => bytesIn stream.bufferedChunkList)
      (i := i) (by rwa [List.length_map])
    rw [List.getElem_map] at hdrop
    rw [← List.sum_cons, ← hdrop, ← List.sum_append, List.take_append_drop]
    rfl
  have hnew : t.buffered = ((s.inStreams.map fun stream => bytesIn stream.bufferedChunkList).take i).sum +
      bytesIn stream'.bufferedChunkList +
        ((s.inStreams.map fun stream => bytesIn stream.bufferedChunkList).drop (i + 1)).sum := by
    rw [buffered, hstreams, List.map_set, hset, if_pos (by rwa [List.length_map])]
  omega

lemma order_set {stream' : InStream} (h : ∀ stream ∈ s.inStreams, InOrder stream.bufferedChunkList)
    (horder : InOrder stream'.bufferedChunkList) :
    ∀ stream ∈ s.inStreams.set i stream', InOrder stream.bufferedChunkList := by
  intro st hst
  rcases List.mem_or_eq_of_mem_set hst with hmem | rfl
  · exact h st hmem
  · exact horder

/-! ### Buffers -/

/-- A chunk whose number is there already is left out. -/
lemma insertInStreamBuffer_spec (h : InOrder l) :
    InOrder (insertInStreamBuffer chunk l) ∧
      (∀ c ∈ insertInStreamBuffer chunk l, c = chunk ∨ c ∈ l) ∧
      bytesIn (insertInStreamBuffer chunk l) =
        bytesIn l + if l.any fun c => c.streamSeqNum = chunk.streamSeqNum then 0 else chunk.length := by
  induction l with
  | nil => exact ⟨List.pairwise_singleton _ _, fun c hc => Or.inl (List.mem_singleton.mp hc), (Nat.add_comm _ _)⟩
  | cons c l ih =>
    obtain ⟨hc, hl⟩ := List.pairwise_cons.mp h
    obtain ⟨horder, hmem, hbytes⟩ := ih hl
    rw [insertInStreamBuffer]
    by_cases hle : chunk.streamSeqNum ≤ c.streamSeqNum
    · rw [if_pos hle]
      by_cases heq : c.streamSeqNum = chunk.streamSeqNum
      · rw [if_neg (not_not_intro heq)]
        exact ⟨h, fun c hc => Or.inr hc, by simp [heq]⟩
      · rw [if_pos heq]
        have hlt : chunk.streamSeqNum < c.streamSeqNum := lt_of_le_of_ne hle (Ne.symm heq)
        have hnone : ((c :: l).any fun c => c.streamSeqNum = chunk.streamSeqNum) = false := by
          rw [List.any_eq_false]
          intro c' hc'
          have : chunk.streamSeqNum < c'.streamSeqNum := by
            rcases List.mem_cons.mp hc' with rfl | hmem
            · exact hlt
            · exact hlt.trans (hc c' hmem)
          simpa using this.ne'
        refine ⟨List.pairwise_cons.mpr ⟨fun c' hc' => ?_, h⟩, fun c' hc' => ?_, ?_⟩
        · rcases List.mem_cons.mp hc' with rfl | hmem
          · exact hlt
          · exact hlt.trans (hc c' hmem)
        · exact List.mem_cons.mp hc'
        · rw [hnone, bytesIn_cons, Nat.add_comm]
          rfl
    · rw [if_neg hle]
      have hne : decide (c.streamSeqNum = chunk.streamSeqNum) = false := decide_eq_false (by omega)
      refine ⟨List.pairwise_cons.mpr ⟨fun c' hc' => ?_, horder⟩, fun c' hc' => ?_, ?_⟩
      · rcases hmem c' hc' with rfl | hin
        · omega
        · exact hc c' hin
      · rcases List.mem_cons.mp hc' with rfl | hin
        · exact Or.inr List.mem_cons_self
        · exact (hmem c' hin).imp_right (List.mem_cons_of_mem c)
      · rw [bytesIn_cons, bytesIn_cons, hbytes, List.any_cons, hne, Bool.false_or, Nat.add_assoc]

/-- What is passed up and what stays is what has been there. -/
lemma drain_append (cumAck : ℕ) (mode : StreamMode) (next : ℕ) (l : List DataChunk) :
    (drain cumAck mode next l).2.2 ++ (drain cumAck mode next l).2.1 = l := by
  induction l generalizing next with
  | nil => rfl
  | cons c l ih =>
    rw [drain]
    dsimp only
    split_ifs
    · exact congrArg (c :: ·) (ih _)
    · exact congrArg (c :: ·) (ih _)
    · rfl

lemma passAll_window (l : List DataChunk) :
    (l.foldl passToUpperLayer s).myRwnd = s.myRwnd + bytesIn l ∧
      (l.foldl passToUpperLayer s).inStreams = s.inStreams := by
  induction l generalizing s with
  | nil => exact ⟨rfl, rfl⟩
  | cons c l ih =>
    obtain ⟨hrwnd, hstreams⟩ := ih (s := s.passToUpperLayer c)
    refine ⟨hrwnd.trans ?_, hstreams⟩
    show s.myRwnd + c.length + bytesIn l = s.myRwnd + (c.length + bytesIn l)
    exact Nat.add_assoc _ _ _

lemma Books.updateStream {total : ℕ} (h : Books total s) : Books total (updateStream i s) := by
  unfold SctpReceiver.updateStream
  split
  · exact h
  next stream hi =>
    have hsplit := drain_append s.cumAck stream.mode stream.nextStreamSeqNum stream.bufferedChunkList
    generalize drain s.cumAck stream.mode stream.nextStreamSeqNum stream.bufferedChunkList = r at hsplit
    obtain ⟨hrwnd, hstreams⟩ := passAll_window (s := { s with
      inStreams := s.inStreams.set i ⟨stream.mode, r.1, r.2.1⟩ }) r.2.2
    have horder : InOrder r.2.1 := by
      have hold := h.order stream (List.mem_of_getElem? hi)
      rw [← hsplit] at hold
      exact (List.pairwise_append.mp hold).2.1
    have hbytes : bytesIn stream.bufferedChunkList = bytesIn r.2.2 + bytesIn r.2.1 := by
      rw [← bytesIn_append, hsplit]
    have hset := buffered_set hi hstreams
    have hsum := h.sum
    refine ⟨?_, hstreams ▸ order_set h.order horder⟩
    dsimp only at hrwnd hset ⊢
    omega

lemma Books.updateAllStreams {total : ℕ} (h : Books total s) : Books total s.updateAllStreams :=
  forLoop_keeps h fun _ _ _ _ ht => ht.updateStream

/-! ### Chunks -/

lemma Books.updateRecvTsnBlocks {total tsn : ℕ} (h : Books total s) (ht : s.updateRecvTsnBlocks tsn = some t) :
    Books total t := by
  obtain ⟨r, -, rfl⟩ := Option.map_eq_some_iff.mp ht
  exact h.of_same rfl rfl

lemma Books.forwardTsns {total tsn k : ℕ} (h : Books total s) (ht : forwardTsns tsn k s = some t) : Books total t := by
  induction k generalizing s tsn with
  | zero => exact Option.some.inj ht ▸ h
  | succ k ih =>
    rw [SctpReceiver.forwardTsns] at ht
    obtain ⟨u, hu, ht⟩ := Option.bind_eq_some_iff.mp ht
    refine ih ?_ ht
    split at hu
    · exact h.updateRecvTsnBlocks hu
    · exact Option.some.inj hu ▸ h

lemma Books.processForwardTsnChunk {total newCum : ℕ} (h : Books total s)
    (ht : s.processForwardTsnChunk newCum = some t) : Books total t := by
  obtain ⟨u, hu, rfl⟩ := Option.map_eq_some_iff.mp ht
  exact (h.forwardTsns hu).updateAllStreams

/-- The chunk is taken from the window and left out of the buffer. -/
def loses (s : SctpReceiver) (chunk : DataChunk) : Bool :=
  chunk.length ≤ s.myRwnd ∧ s.isDuplicate chunk.tsn = false ∧ chunk.unordered = false ∧ s.repeats chunk

/-- Passing a chunk on credits the window or fills a buffer, unless the chunk is left out. -/
lemma Books.passToStream {total : ℕ} (h : Books total s) (ht : s.passToStream chunk = some t) :
    Books (total + if chunk.unordered = false ∧ s.repeats chunk then 0 else chunk.length) t := by
  unfold SctpReceiver.passToStream at ht
  cases hun : chunk.unordered with
  | true =>
    rw [hun, if_pos rfl] at ht
    obtain rfl := Option.some.inj ht
    rw [if_neg (by simp)]
    refine ⟨?_, h.order⟩
    show s.myRwnd + chunk.length + s.buffered = _
    rw [← h.sum]
    omega
  | false =>
    rw [hun, if_neg (by decide)] at ht
    obtain ⟨stream, hi, rfl⟩ := Option.map_eq_some_iff.mp ht
    have hrepeats : s.repeats chunk = stream.bufferedChunkList.any fun c => c.streamSeqNum = chunk.streamSeqNum := by
      rw [repeats, hi]
      rfl
    have hold := h.order stream (List.mem_of_getElem? hi)
    have horder : InOrder (insertInStreamBuffer chunk stream.bufferedChunkList) := (insertInStreamBuffer_spec hold).1
    have hbytes : bytesIn (insertInStreamBuffer chunk stream.bufferedChunkList) = _ :=
      (insertInStreamBuffer_spec hold).2.2
    have hset := buffered_set (t := { s with
      inStreams := s.inStreams.set chunk.streamId (InStream.buffer stream chunk) }) hi rfl
    rw [← hrepeats] at hbytes
    refine ⟨?_, order_set h.order horder⟩
    have hsum := h.sum
    change _ = s.buffered + bytesIn (insertInStreamBuffer chunk stream.bufferedChunkList) at hset
    show s.myRwnd + _ = _
    cases hrep : s.repeats chunk with
    | true =>
      rw [hrep, if_pos rfl] at hbytes
      rw [if_pos ⟨rfl, rfl⟩]
      omega
    | false =>
      rw [hrep, if_neg (by decide)] at hbytes
      rw [if_neg (by simp)]
      omega

/-- The window with the buffers is what it was, but for the chunk that is left out. -/
lemma Books.processDataChunk {total : ℕ} (h : Books total s) (ht : s.processDataChunk chunk = some t) :
    ∃ total', Books total' t ∧ total' + (if s.loses chunk then chunk.length else 0) = total := by
  unfold SctpReceiver.processDataChunk at ht
  by_cases hroom : chunk.length ≤ s.myRwnd
  · rw [if_pos hroom] at ht
    dsimp only at ht
    have hhigh : (s.updateHighestTsn chunk.tsn).1.myRwnd = s.myRwnd ∧
        (s.updateHighestTsn chunk.tsn).1.inStreams = s.inStreams := by
      unfold updateHighestTsn
      split <;> exact ⟨rfl, rfl⟩
    generalize (s.updateHighestTsn chunk.tsn).1 = r at ht hhigh
    cases hdup : s.isDuplicate chunk.tsn with
    | true =>
      rw [hdup, if_pos rfl] at ht
      obtain rfl := Option.some.inj ht
      refine ⟨total, h.of_same hhigh.1 hhigh.2, ?_⟩
      rw [if_neg (by simp [loses, hdup])]
      rfl
    | false =>
      rw [hdup, if_neg (by decide)] at ht
      obtain ⟨u, hu, ht⟩ := Option.bind_eq_some_iff.mp ht
      obtain ⟨v, hv, rfl⟩ := Option.map_eq_some_iff.mp ht
      have htaken : Books (total - chunk.length) { r with myRwnd := r.myRwnd - chunk.length } := by
        refine ⟨?_, hhigh.2 ▸ h.order⟩
        show r.myRwnd - chunk.length + buffered _ = _
        rw [buffered, hhigh.1, show ({ r with myRwnd := r.myRwnd - chunk.length } : SctpReceiver).inStreams =
          s.inStreams from hhigh.2, ← h.sum]
        show s.myRwnd - chunk.length + s.buffered = _
        omega
      have hu' := htaken.updateRecvTsnBlocks hu
      have hstreams : u.inStreams = s.inStreams := by
        obtain ⟨p, -, rfl⟩ := Option.map_eq_some_iff.mp hu
        exact hhigh.2
      have hrep : u.repeats chunk = s.repeats chunk := by
        unfold repeats
        rw [hstreams]
      have hv' := hu'.passToStream hv
      rw [hrep] at hv'
      refine ⟨_, hv'.updateAllStreams, ?_⟩
      have hle : chunk.length ≤ total := by
        have := h.sum
        omega
      by_cases hlost : chunk.unordered = false ∧ s.repeats chunk = true
      · have hl : s.loses chunk = true := decide_eq_true ⟨hroom, hdup, hlost.1, hlost.2⟩
        rw [if_pos hlost, if_pos hl]
        omega
      · have hl : ¬s.loses chunk = true := fun hl => hlost (of_decide_eq_true hl).2.2
        rw [if_neg hlost, if_neg hl]
        omega
  · rw [if_neg hroom] at ht
    obtain rfl := Option.some.inj ht
    refine ⟨total, h.of_same rfl rfl, ?_⟩
    rw [if_neg fun hl => hroom (of_decide_eq_true hl).1]
    rfl

/-! ### Runs -/

/-- The window and the buffers make up the window that the association started with. -/
def Conserved (initialRwnd : ℕ) (s : SctpReceiver) (e : RecvEvent) : Prop :=
  ∀ t o, step s e = some (t, o) → t.myRwnd + t.buffered = initialRwnd

/-- An event that goes through loses no bytes. -/
def LosesNone (s : SctpReceiver) : RecvEvent → Prop
  | .data chunk => (s.processDataChunk chunk).isSome → s.loses chunk → chunk.length = 0
  | .forwardTsn _ => True

lemma Books.step {total : ℕ} {e : RecvEvent} {o : Bool} (h : Books total s)
    (hstep : SctpReceiver.step s e = some (t, o)) :
    ∃ total' ≤ total, Books total' t ∧ (LosesNone s e → total' = total) ∧ (total' = total → LosesNone s e) := by
  cases e with
  | data chunk =>
    obtain ⟨t', ht, heq⟩ := Option.map_eq_some_iff.mp hstep
    obtain ⟨rfl, -⟩ := Prod.mk.inj heq
    obtain ⟨total', hbooks, hsum⟩ := h.processDataChunk ht
    refine ⟨total', by omega, hbooks, fun hnone => ?_, fun heq _ hl => ?_⟩
    · have hnone := hnone (by rw [ht]; rfl)
      split at hsum
      next hl => have := hnone hl; omega
      next => omega
    · rw [if_pos hl] at hsum
      omega
  | forwardTsn newCum =>
    obtain ⟨t', ht, heq⟩ := Option.map_eq_some_iff.mp hstep
    obtain ⟨rfl, -⟩ := Prod.mk.inj heq
    exact ⟨total, le_rfl, h.processForwardTsnChunk ht, fun _ => rfl, fun _ => trivial⟩

lemma Books.conserved_iff {total : ℕ} {e : RecvEvent} (h : Books total s) : Conserved total s e ↔ LosesNone s e := by
  cases hstep : SctpReceiver.step s e with
  | none =>
    refine ⟨fun _ => ?_, fun _ t o ht => by rw [hstep] at ht; cases ht⟩
    cases e with
    | data chunk =>
      have hnone : s.processDataChunk chunk = none := Option.map_eq_none_iff.mp hstep
      intro hsome
      rw [hnone] at hsome
      cases hsome
    | forwardTsn _ => trivial
  | some r =>
    obtain ⟨t, o⟩ := r
    obtain ⟨total', -, hbooks, hto, hof⟩ := h.step hstep
    constructor
    · exact fun hc => hof (hbooks.sum.symm.trans (hc t o hstep))
    · intro hnone t' o' ht'
      obtain ⟨rfl, rfl⟩ := Prod.mk.inj (Option.some.inj (hstep.symm.trans ht'))
      rw [hbooks.sum, hto hnone]

lemma books_reset (initialRwnd : ℕ) {streams : List InStream} (h : ∀ stream ∈ streams, stream.bufferedChunkList = []) :
    Books initialRwnd (reset initialRwnd streams) := by
  constructor
  · have hzero : buffered (reset initialRwnd streams) = 0 := by
      refine List.sum_eq_zero fun n hn => ?_
      obtain ⟨stream, hst, rfl⟩ := List.mem_map.mp hn
      rw [h stream hst]
      rfl
    show initialRwnd + _ = _
    rw [hzero, Nat.add_zero]
  · intro stream hst
    rw [h stream hst]
    exact List.Pairwise.nil

/-- The window with the buffers never exceeds the window that the association started with, and it is that window as
long as no ordered chunk that is new comes while one with its stream sequence number is in the buffer. -/
theorem window_conserved_iff {initialRwnd : ℕ} {streams : List InStream} (es : List RecvEvent)
    (hempty : ∀ stream ∈ streams, stream.bufferedChunkList = []) :
    EachStep step (fun s e => ∀ t o, step s e = some (t, o) → t.myRwnd + t.buffered ≤ initialRwnd)
        (reset initialRwnd streams) es ∧
      (EachStep step (Conserved initialRwnd) (reset initialRwnd streams) es ↔
        EachStep step LosesNone (reset initialRwnd streams) es) := by
  have hstart := books_reset initialRwnd hempty
  constructor
  · have hall : EachStep step (fun _ _ => True) (reset initialRwnd streams) es :=
      EachStep.of_mem (Q := fun _ => True) fun _ _ => trivial
    have hstep : ∀ (s : SctpReceiver) (e : RecvEvent) (t : SctpReceiver) (o : Bool),
        (∃ total ≤ initialRwnd, Books total s) → True → step s e = some (t, o) →
          ∃ total ≤ initialRwnd, Books total t := by
      intro s e t o hs _ hstep
      obtain ⟨total, hle, hbooks⟩ := hs
      obtain ⟨total', hle', hbooks', -⟩ := hbooks.step hstep
      exact ⟨total', hle'.trans hle, hbooks'⟩
    refine hall.gives hstep (fun s e hs _ t o hstep => ?_) ⟨initialRwnd, le_rfl, hstart⟩
    · obtain ⟨total, hle, hbooks⟩ := hs
      obtain ⟨total', hle', hbooks', -⟩ := hbooks.step hstep
      exact hbooks'.sum.trans_le (hle'.trans hle)
  · refine EachStep.iff (fun s e hs => hs.conserved_iff) (fun s e t o hs hc hstep => ?_) hstart
    obtain ⟨total', -, hbooks, -⟩ := hs.step hstep
    exact hbooks.sum.symm.trans (hc t o hstep) ▸ hbooks

/-- A chunk is held until the one before it has come. -/
theorem window_conserved_late :
    EachStep step (fun s e => ∀ t o, step s e = some (t, o) → t.myRwnd + t.buffered ≤ 65536)
        (reset 65536 [⟨.reliable, 0, []⟩]) [.data ⟨116, false, 2, 0, 1⟩, .data ⟨116, false, 1, 0, 0⟩] ∧
      (EachStep step (Conserved 65536) (reset 65536 [⟨.reliable, 0, []⟩])
          [.data ⟨116, false, 2, 0, 1⟩, .data ⟨116, false, 1, 0, 0⟩] ↔
        EachStep step LosesNone (reset 65536 [⟨.reliable, 0, []⟩])
          [.data ⟨116, false, 2, 0, 1⟩, .data ⟨116, false, 1, 0, 0⟩]) :=
  window_conserved_iff _ (by decide)

/-- The second chunk with stream sequence number 1 is taken from the window and kept nowhere. -/
theorem repeated_number_lost :
    ¬EachStep step (Conserved 65536) (reset 65536 [⟨.reliable, 0, []⟩])
        [.data ⟨116, false, 2, 0, 1⟩, .data ⟨116, false, 3, 0, 1⟩] ∧
      ∃ s os, run step (reset 65536 [⟨.reliable, 0, []⟩])
          [.data ⟨116, false, 2, 0, 1⟩, .data ⟨116, false, 3, 0, 1⟩] = some (s, os) ∧
        s.myRwnd = 65304 ∧ s.buffered = 116 := by
  refine ⟨fun h => ?_, _, _, rfl, rfl, rfl⟩
  obtain ⟨-, h₁⟩ := h
  obtain ⟨h₂, -⟩ := h₁ _ _ rfl
  exact absurd (h₂ _ _ rfl) (by decide)

end SctpReceiver

end NetworkSimulator
