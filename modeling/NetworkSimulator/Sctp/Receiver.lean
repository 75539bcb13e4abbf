import NetworkSimulator.Library.Loops
import NetworkSimulator.Library.Runs

/-!
# The receiver of an SCTP association

`ProcessDataChunk` and `ProcessForwardTsnChunk` with the data that they keep: the cumulative ack, the
blocks of TSNs above it, the duplicates to report, the receiver window and the buffers of the streams.
-/

namespace NetworkSimulator
open Library

structure RecvTsnBlock where
  startTsn : ℕ
  endTsn : ℕ
  deriving DecidableEq

/-- The header of a DATA chunk. -/
structure DataChunk where
  length : ℕ
  unordered : Bool
  tsn : ℕ
  streamId : ℕ
  streamSeqNum : ℕ
  deriving DecidableEq

inductive StreamMode
  | reliable
  | unreliable
  deriving DecidableEq

structure InStream where
  mode : StreamMode
  nextStreamSeqNum : ℕ
  bufferedChunkList : List DataChunk
  deriving DecidableEq

structure SctpReceiver where
  myRwnd : ℕ
  cumAck : ℕ
  highestRecvTsn : ℕ
  recvTsnBlockList : List RecvTsnBlock
  dupTsnList : List ℕ
  inStreams : List InStream
  sackChunkNeeded : Bool
  /-- What has been passed to the upper layer, the latest first. -/
  delivered : List DataChunk
  deriving DecidableEq

namespace SctpReceiver
variable (s : SctpReceiver)

/-- `Reset()`, for the receiver. -/
def reset (initialRwnd : ℕ) (inStreams : List InStream) : SctpReceiver :=
  ⟨initialRwnd, 0, 0, [], [], inStreams, false, []⟩

/-- `UpdateHighestTsn` returns whether the TSN is a new highest one. -/
def updateHighestTsn (tsn : ℕ) : SctpReceiver × Bool :=
  if tsn > s.highestRecvTsn then ({ s with highestRecvTsn := tsn }, true) else (s, false)

/-- The search of `IsDuplicateChunk` through the blocks. -/
def inBlocks (tsn : ℕ) : List RecvTsnBlock → Bool
  | [] => false
  | b :: bs =>
    if b.startTsn ≤ tsn ∧ tsn ≤ b.endTsn then true
    else if b.endTsn > tsn then false
    else inBlocks tsn bs

def isDuplicateChunk (tsn : ℕ) : Bool :=
  if tsn ≤ s.cumAck then true
  else if ¬(s.cumAck < tsn ∧ tsn ≤ s.highestRecvTsn) then false
  else inBlocks tsn s.recvTsnBlockList

def insertDuplicateTsn (tsn : ℕ) : List ℕ → List ℕ
  | [] => [tsn]
  | t :: ts =>
    if tsn ≤ t then (if tsn ≠ t then tsn :: t :: ts else t :: ts)
    else t :: insertDuplicateTsn tsn ts

/-- `UpdateCumAck`; the blocks that it goes past stay in the list. -/
def updateCumAck (cumAck : ℕ) : List RecvTsnBlock → ℕ
  | [] => cumAck
  | b :: bs => if cumAck + 1 = b.startTsn then updateCumAck b.endTsn bs else cumAck

/-- The walk of `UpdateRecvTsnBlocks`: the blocks before the previous one, the previous one, the lower
end of the gap, and the blocks that are still ahead. The result is the cumulative ack with the blocks;
`none` is a write through the null `spPrevNode`. -/
def insertTsn (cumAck tsn : ℕ) (front : List RecvTsnBlock) (prev : Option RecvTsnBlock) (low : ℕ) :
    List RecvTsnBlock → Option (ℕ × List RecvTsnBlock)
  | [] =>
    if tsn = low then
      if tsn = cumAck + 1 then some (updateCumAck tsn (front ++ prev.toList), front ++ prev.toList)
      else some (cumAck, front ++ (prev.map fun p => { p with endTsn := p.endTsn + 1 }).toList)
    else some (cumAck, front ++ prev.toList ++ [⟨tsn, tsn⟩])
  | b :: bs =>
    let high := b.startTsn - 1
    if low ≤ tsn ∧ tsn ≤ high then
      if high - low + 1 > 1 then
        if tsn = high then
          let blocks := front ++ prev.toList ++ { b with startTsn := tsn } :: bs
          some (updateCumAck cumAck blocks, blocks)
        else if tsn = low then
          if tsn = cumAck + 1 then
            let blocks := front ++ prev.toList ++ b :: bs
            some (updateCumAck (cumAck + 1) blocks, blocks)
          else
            prev.map fun p =>
              let blocks := front ++ { p with endTsn := tsn } :: b :: bs
              (updateCumAck cumAck blocks, blocks)
        else some (cumAck, front ++ prev.toList ++ ⟨tsn, tsn⟩ :: b :: bs)
      else
        if low = cumAck + 1 then
          let blocks := front ++ prev.toList ++ bs
          some (updateCumAck b.endTsn blocks, blocks)
        else
          prev.map fun p =>
            let blocks := front ++ { p with endTsn := b.endTsn } :: bs
            (updateCumAck cumAck blocks, blocks)
    else insertTsn cumAck tsn (front ++ prev.toList) (some b) (b.endTsn + 1) bs

def updateRecvTsnBlocks (tsn : ℕ) : Option SctpReceiver :=
  (insertTsn s.cumAck tsn [] none (s.cumAck + 1) s.recvTsnBlockList).map fun r =>
    { s with cumAck := r.1, recvTsnBlockList := r.2 }

def passToUpperLayer (chunk : DataChunk) : SctpReceiver :=
  { s with myRwnd := s.myRwnd + chunk.length, delivered := chunk :: s.delivered }

def insertInStreamBuffer (chunk : DataChunk) : List DataChunk → List DataChunk
  | [] => [chunk]
  | c :: cs =>
    if chunk.streamSeqNum ≤ c.streamSeqNum then
      if c.streamSeqNum ≠ chunk.streamSeqNum then chunk :: c :: cs else c :: cs
    else c :: insertInStreamBuffer chunk cs

def InStream.buffer (stream : InStream) (chunk : DataChunk) : InStream :=
  { stream with bufferedChunkList := insertInStreamBuffer chunk stream.bufferedChunkList }

/-- `PassToStream`; `none` is an ordered chunk of a stream that the association does not have. -/
def passToStream (chunk : DataChunk) : Option SctpReceiver :=
  if chunk.unordered then some (s.passToUpperLayer chunk)
  else s.inStreams[chunk.streamId]?.map fun stream =>
    { s with inStreams := s.inStreams.set chunk.streamId (InStream.buffer stream chunk) }

/-- What `UpdateAllStreams` does with one stream: the next sequence number, the chunks that stay in the
buffer and those that are passed up. -/
def drain (cumAck : ℕ) (mode : StreamMode) (next : ℕ) :
    List DataChunk → ℕ × List DataChunk × List DataChunk
  | [] => (next, [], [])
  | c :: cs =>
    if mode = .unreliable ∧ c.tsn ≤ cumAck then
      let r := drain cumAck mode ((c.streamSeqNum + 1) % 2 ^ 16) cs
      (r.1, r.2.1, c :: r.2.2)
    else if c.streamSeqNum = next then
      let r := drain cumAck mode ((next + 1) % 2 ^ 16) cs
      (r.1, r.2.1, c :: r.2.2)
    else (next, c :: cs, [])

def updateStream (i : ℕ) (s : SctpReceiver) : SctpReceiver :=
  match s.inStreams[i]? with
  | none => s
  | some stream =>
    let r := drain s.cumAck stream.mode stream.nextStreamSeqNum stream.bufferedChunkList
    r.2.2.foldl passToUpperLayer { s with inStreams := s.inStreams.set i ⟨stream.mode, r.1, r.2.1⟩ }

def updateAllStreams : SctpReceiver :=
  forLoop 0 s.inStreams.length updateStream s

/-- What `ProcessDataChunk` takes for a duplicate: the TSN is no new highest one, and
`IsDuplicateChunk` says so. -/
def isDuplicate (tsn : ℕ) : Bool :=
  (s.updateHighestTsn tsn).2 ≠ true ∧ (s.updateHighestTsn tsn).1.isDuplicateChunk tsn

def processDataChunk (chunk : DataChunk) : Option SctpReceiver :=
  if chunk.length ≤ s.myRwnd then
    let r := (s.updateHighestTsn chunk.tsn).1
    if s.isDuplicate chunk.tsn then
      some { r with
        dupTsnList := insertDuplicateTsn chunk.tsn r.dupTsnList
        sackChunkNeeded := true }
    else
      let s := { r with myRwnd := r.myRwnd - chunk.length }
      (s.updateRecvTsnBlocks chunk.tsn).bind fun s => (s.passToStream chunk).map updateAllStreams
  else some { s with sackChunkNeeded := false }

/-- The loop of `ProcessForwardTsnChunk` over the TSNs from `tsn` on. -/
def forwardTsns : ℕ → ℕ → SctpReceiver → Option SctpReceiver
  | _, 0, s => some s
  | tsn, n + 1, s =>
    (if s.isDuplicateChunk tsn = false then s.updateRecvTsnBlocks tsn else some s).bind fun s =>
      forwardTsns (tsn + 1) n s

def processForwardTsnChunk (newCum : ℕ) : Option SctpReceiver :=
  (forwardTsns (s.cumAck + 1) (newCum - s.cumAck) s).map updateAllStreams

inductive RecvEvent
  | data (chunk : DataChunk)
  | forwardTsn (newCum : ℕ)

/-- One chunk; the output says whether it has been accepted. -/
def step (s : SctpReceiver) : RecvEvent → Option (SctpReceiver × Bool)
  | .data chunk => (s.processDataChunk chunk).map fun t => (t, chunk.length ≤ s.myRwnd)
  | .forwardTsn newCum => (s.processForwardTsnChunk newCum).map fun t => (t, true)

end SctpReceiver

end NetworkSimulator
