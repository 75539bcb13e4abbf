import NetworkSimulator.Sctp.Sender

/-!
# The SACK chunk

`GenChunk` writes the receiver's TSNs into a SACK chunk, as long as there is room, and `ProcessSackChunk`
reads it on the other side.
-/

namespace NetworkSimulator
open Library

structure GapAckBlock where
  startOffset : ℕ
  endOffset : ℕ
  deriving DecidableEq

/-- The header of a SACK chunk with the blocks and the duplicates that are really behind it. -/
structure SackChunk where
  length : ℕ
  cumAck : ℕ
  arwnd : ℕ
  numGapAckBlocks : ℕ
  numDupTsns : ℕ
  gapAckBlocks : List GapAckBlock
  dupTsns : List ℕ
  deriving DecidableEq

namespace SctpReceiver

/-- The gap ack blocks that fit into the chunk, and its size with them. The offsets are 16 bits wide. -/
def appendGapAckBlocks (maxDataSize cumAck : ℕ) : ℕ → List RecvTsnBlock → List GapAckBlock × ℕ
  | size, [] => ([], size)
  | size, b :: bs =>
    if size + 4 < maxDataSize then
      let r := appendGapAckBlocks maxDataSize cumAck (size + 4) bs
      (⟨(b.startTsn + 2 ^ 32 - cumAck) % 2 ^ 16, (b.endTsn + 2 ^ 32 - cumAck) % 2 ^ 16⟩ :: r.1, r.2)
    else ([], size)

/-- The duplicates that fit into the chunk, those that are left, and the size of the chunk. -/
def appendDupTsns (maxDataSize : ℕ) : ℕ → List ℕ → List ℕ × List ℕ × ℕ
  | size, [] => ([], [], size)
  | size, t :: ts =>
    if size + 4 < maxDataSize then
      let r := appendDupTsns maxDataSize (size + 4) ts
      (t :: r.1, r.2)
    else ([], t :: ts, size)

/-- `GenChunk(SCTP_CHUNK_SACK)`. -/
def genSack (maxDataSize : ℕ) (s : SctpReceiver) : SackChunk × SctpReceiver :=
  let blocks := appendGapAckBlocks maxDataSize s.cumAck 16 s.recvTsnBlockList
  let dups := appendDupTsns maxDataSize blocks.2 s.dupTsnList
  (⟨dups.2.2 % 2 ^ 16, s.cumAck, s.myRwnd, s.recvTsnBlockList.length % 2 ^ 16,
    s.dupTsnList.length % 2 ^ 16, blocks.1, dups.1⟩, { s with dupTsnList := dups.2.1 })

end SctpReceiver

namespace SctpSender
variable {D : Type*} [DecidableEq D] (c : SctpConfig) (s : SctpSender D)

/-- The chunk is missing at the receiver. -/
def unackNode (i : ℕ) (n : SendBufferNode D) (s : SctpSender D) : SctpSender D :=
  if n.gapAcked then
    (s.modifyNode i fun n => { n with gapAcked := false }).modifyDest n.dest fun x =>
      { x with outstandingBytes := x.outstandingBytes + n.chunk.length }
  else s

/-- The chunk is acked by a gap ack block, and has not been before. -/
def gapAckNode (newCumAck : Bool) (i : ℕ) (n : SendBufferNode D) (s : SctpSender D) : SctpSender D :=
  let s := s.modifyNode i fun n => { n with gapAcked := true }
  let s := { s with highestTsnNewlyAcked := max s.highestTsnNewlyAcked n.chunk.tsn }
  let s :=
    if n.advancedAcked = false then
      s.modifyDest n.dest fun x => { x with numNewlyAckedBytes := x.numNewlyAckedBytes + n.chunk.length }
    else s
  let s :=
    if (s.dest n.dest).cwnd > (s.dest n.dest).ssthresh ∧ newCumAck ∧
        n.addedToPartialBytesAcked = false then
      (s.modifyNode i fun n => { n with addedToPartialBytesAcked := true }).modifyDest n.dest fun x =>
        { x with partialBytesAcked := x.partialBytesAcked + n.chunk.length }
    else s
  let s := s.endRtt n
  let s :=
    if (s.dest n.dest).firstOutstanding = some i ∧ (s.dest n.dest).rtxTimerIsRunning then
      s.stopT3RtxTimer n.dest
    else s
  let s := { s with assocErrorCount := 0 }
  let s :=
    if (s.dest n.dest).errorCount ≠ 0 ∧ n.markedForRtx ≠ .timeoutRtx then s.clearErrorCount n.dest
    else s
  s.modifyNode i fun n => { n with markedForRtx := .noRtx }

/-- The first loop of `ProcessGapAckBlocks` from position `i` on, with the number of nodes ahead, the
blocks processed and the highest TSN sacked; when the blocks are used up, the rest is not acked.
`behind` is what stands in the memory behind the blocks that have been written. -/
def gapAckLoop (chunk : SackChunk) (behind : ℕ → GapAckBlock) (newCumAck : Bool) :
    ℕ → ℕ → ℕ → ℕ → SctpSender D → SctpSender D × ℕ
  | 0, _, _, highest, s => (s, highest)
  | k + 1, i, processed, highest, s =>
    if processed = chunk.numGapAckBlocks then (forLoop i (i + (k + 1)) (atNode unackNode) s, highest)
    else
      match s.sendBuffer[i]? with
      | none => (s, highest)
      | some n =>
        let s := s.noteFirst i n
        let block := (chunk.gapAckBlocks[processed]?).getD (behind processed)
        if n.chunk.tsn < chunk.cumAck + block.startOffset then
          gapAckLoop chunk behind newCumAck k (i + 1) processed highest (unackNode i n s)
        else if n.chunk.tsn ≤ chunk.cumAck + block.endOffset then
          let s := if n.gapAcked = false then gapAckNode newCumAck i n s else s
          gapAckLoop chunk behind newCumAck k (i + 1) processed (max highest n.chunk.tsn) s
        else gapAckLoop chunk behind newCumAck k (i + 1) (processed + 1) highest (unackNode i n s)

/-- The body of the loop over the missing reports; the result says whether a fast retransmit is needed. -/
def missingReport (newCumAck : Bool) (highestSacked i : ℕ) (r : SctpSender D × Bool) :
    SctpSender D × Bool :=
  match r.1.sendBuffer[i]? with
  | none => r
  | some n =>
    if n.gapAcked = false ∧ (n.chunk.tsn < r.1.highestTsnNewlyAcked ∨
        newCumAck ∧ r.1.highestTsnNewlyAcked ≤ r.1.recover ∧ n.chunk.tsn < highestSacked) then
      let s := r.1.modifyNode i fun n => { n with numMissingReports := n.numMissingReports + 1 }
      if n.numMissingReports + 1 ≥ c.fastRtxTrigger ∧ n.ineligibleForFastRtx = false ∧
          n.advancedAcked = false then
        ((s.markChunkForRtx i .fastRtx n).modifyNode i fun n => { n with ineligibleForFastRtx := true }, true)
      else (s, r.2)
    else r

def processGapAckBlocks (chunk : SackChunk) (behind : ℕ → GapAckBlock) (newCumAck : Bool) :
    SctpSender D × Bool :=
  if s.sendBuffer = [] then (s, false)
  else
    let s := s.clearFirstOutstanding
    let r := gapAckLoop chunk behind newCumAck s.sendBuffer.length 0 0 s.highestTsnNewlyAcked s
    forLoop 0 r.1.sendBuffer.length (missingReport c newCumAck r.2) (r.1, false)

/-- The loop of `ProcessSackChunk` over the destinations. -/
def settleDest (chunk : SackChunk) (newCumAck : Bool) (d : D) (s : SctpSender D) : SctpSender D :=
  let s :=
    if newCumAck ∧ (s.dest d).numNewlyAckedBytes > 0 ∧ chunk.cumAck ≥ s.recover then s.adjustCwnd c d
    else s
  let s := s.modifyDest d fun x =>
    { x with outstandingBytes := if x.numNewlyAckedBytes ≤ x.outstandingBytes
        then x.outstandingBytes - x.numNewlyAckedBytes else 0 }
  let s :=
    if (s.dest d).outstandingBytes = 0 then
      let s := s.modifyDest d fun x => { x with partialBytesAcked := 0 }
      if (s.dest d).rtxTimerIsRunning then s.stopT3RtxTimer d else s
    else s
  if (s.dest d).outstandingBytes > 0 ∧ (s.dest d).rtxTimerIsRunning = false then s.startT3RtxTimer d
  else s

/-- What `ProcessSackChunk` retransmits. -/
def rtxAfterSack (fastRtxNeeded : Bool) : Option (SctpSender D) :=
  if fastRtxNeeded then s.fastRtx c
  else
    let s := { s with markedChunksPending := s.anyMarkedChunks }
    if s.markedChunksPending then s.rtxMarkedChunks c .cwnd else some s

def processSackChunk (chunk : SackChunk) (behind : ℕ → GapAckBlock) : Option (SctpSender D) :=
  let s := s.forDests fun d s => s.modifyDest d fun x =>
    { x with numNewlyAckedBytes := 0, firstOutstanding := none }
  if chunk.cumAck < s.cumAckPoint then some s
  else
    let newCumAck : Bool := chunk.cumAck > s.cumAckPoint
    let s := if newCumAck then { s.sendBufferDequeueUpTo chunk.cumAck with cumAckPoint := chunk.cumAck } else s
    let r := if chunk.numGapAckBlocks ≠ 0 then s.processGapAckBlocks c chunk behind newCumAck else (s, false)
    let s := r.1.forDests (settleDest c chunk newCumAck)
    (s.advancePeerAckPoint.rtxAfterSack c r.2).map fun s =>
      { s with peerRwnd := if s.totalOutstanding ≤ chunk.arwnd then chunk.arwnd - s.totalOutstanding else 0 }

end SctpSender

end NetworkSimulator
