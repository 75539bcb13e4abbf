import Mathlib.Algebra.Ring.Int.Defs
import Mathlib.Data.Rat.Defs
import Mathlib.Logic.Function.Basic
import NetworkSimulator.Sctp.Receiver

/-!
# The sender of an SCTP association

The send buffer and the destinations with what a SACK does to them: the chunks that it acknowledges leave
the buffer, the gap acks are marked, the windows are adjusted, and what has been marked for retransmission
is sent again. `D` stands for the pointers to destinations, a pointer to a node of the send buffer is
its position. The round-trip times, which only set the timers, are left out.
-/

namespace NetworkSimulator
open Library

inductive MarkedForRtx
  | noRtx
  | fastRtx
  | timeoutRtx
  deriving DecidableEq

inductive DestStatus
  | inactive
  | possiblyFailed
  | active
  | unconfirmed
  deriving DecidableEq

inductive RtxToAlt
  | off
  | on
  | timeoutsOnly
  deriving DecidableEq

inductive DormantAction
  | hop
  | primary
  | lastDest
  deriving DecidableEq

inductive RtxLimit
  | onePacket
  | cwnd
  deriving DecidableEq

structure SendBufferNode (D : Type*) where
  chunk : DataChunk
  advancedAcked : Bool
  gapAcked : Bool
  addedToPartialBytesAcked : Bool
  numMissingReports : ℤ
  unrelRtxLimit : ℤ
  markedForRtx : MarkedForRtx
  ineligibleForFastRtx : Bool
  numTxs : ℤ
  txTimestamp : ℚ
  dest : D

structure SctpDest where
  cwnd : ℤ
  ssthresh : ℤ
  rtxTimerIsRunning : Bool
  rtoPending : Bool
  partialBytesAcked : ℤ
  outstandingBytes : ℤ
  errorCount : ℤ
  status : DestStatus
  ccApplied : Bool
  firstOutstanding : Option ℕ
  numNewlyAckedBytes : ℤ

/-- The values bound from Tcl, and the sizes computed from them. -/
structure SctpConfig where
  maxPayloadSize : ℕ
  maxDataSize : ℕ
  initialCwnd : ℤ
  fastRtxTrigger : ℤ
  rtxToAlt : RtxToAlt
  dormantAction : DormantAction
  useMaxBurst : Bool

def MAX_BURST : ℕ := 4

structure SctpSender (D : Type*) where
  sendBuffer : List (SendBufferNode D)
  destList : List D
  dest : D → SctpDest
  primaryDest : D
  newTxDest : D
  cumAckPoint : ℕ
  advancedPeerAckPoint : ℕ
  highestTsnNewlyAcked : ℕ
  recover : ℕ
  peerRwnd : ℕ
  assocErrorCount : ℤ
  applyMaxBurst : Bool
  markedChunksPending : Bool
  burstLength : ℕ
  outStreamMode : ℕ → StreamMode
  /-- The packets of `SendPacket`, the latest first. -/
  sent : List (D × List DataChunk)

namespace SctpSender
variable {D : Type*} [DecidableEq D] (c : SctpConfig) (s : SctpSender D)

def modifyDest (d : D) (f : SctpDest → SctpDest) : SctpSender D :=
  { s with dest := Function.update s.dest d (f (s.dest d)) }

def modifyNode (i : ℕ) (f : SendBufferNode D → SendBufferNode D) : SctpSender D :=
  { s with sendBuffer := s.sendBuffer.modify i f }

/-- A loop over `sDestList`. -/
def forDests (f : D → SctpSender D → SctpSender D) : SctpSender D :=
  s.destList.foldl (fun s d => f d s) s

/-- The body `f` of a loop over `sSendBuffer`, at the node in position `i`. -/
def atNode (f : ℕ → SendBufferNode D → SctpSender D → SctpSender D) (i : ℕ) (s : SctpSender D) :
    SctpSender D :=
  match s.sendBuffer[i]? with
  | some n => f i n s
  | none => s

def forNodes (f : ℕ → SendBufferNode D → SctpSender D → SctpSender D) : SctpSender D :=
  forLoop 0 s.sendBuffer.length (atNode f) s

def startT3RtxTimer (d : D) : SctpSender D :=
  s.modifyDest d fun x => { x with rtxTimerIsRunning := true }

def stopT3RtxTimer (d : D) : SctpSender D :=
  s.modifyDest d fun x => { x with rtxTimerIsRunning := false }

/-- `uiPeerRwnd` is a `u_int`. -/
def addPeerRwnd (n : ℕ) : SctpSender D :=
  { s with peerRwnd := (s.peerRwnd + n) % 2 ^ 32 }

def subPeerRwnd (n : ℕ) : SctpSender D :=
  { s with peerRwnd := (s.peerRwnd + 2 ^ 32 - n) % 2 ^ 32 }

/-- The error counter of a destination is cleared, and new data goes to the primary one again. -/
def clearErrorCount (d : D) : SctpSender D :=
  let s := s.modifyDest d fun x => { x with errorCount := 0, status := .active }
  if d = s.primaryDest ∧ s.newTxDest ≠ s.primaryDest then { s with newTxDest := s.primaryDest } else s

/-- The measurement of a round trip ends, and the timer of the destination with it. -/
def endRtt (n : SendBufferNode D) : SctpSender D :=
  if (s.dest n.dest).rtoPending ∧ 0 < n.txTimestamp ∧ n.numTxs = 1 ∧ n.advancedAcked = false then
    s.modifyDest n.dest fun x => { x with rtoPending := false }
  else s

/-- The body of `SendBufferDequeueUpTo`. -/
def ackNode (n : SendBufferNode D) : SctpSender D :=
  let s :=
    if n.gapAcked = false ∧ n.advancedAcked = false then
      let s := { s with highestTsnNewlyAcked := n.chunk.tsn }.modifyDest n.dest fun x =>
        { x with numNewlyAckedBytes := x.numNewlyAckedBytes + n.chunk.length }
      if (s.dest n.dest).cwnd > (s.dest n.dest).ssthresh ∧
          (s.dest n.dest).outstandingBytes ≥ (s.dest n.dest).cwnd then
        s.modifyDest n.dest fun x => { x with partialBytesAcked := x.partialBytesAcked + n.chunk.length }
      else s
    else s
  let s := if n.ineligibleForFastRtx then { s with applyMaxBurst := true } else s
  let s := if n.gapAcked = false then s.endRtt n else s
  let s := if (s.dest n.dest).rtxTimerIsRunning then s.stopT3RtxTimer n.dest else s
  if (s.dest n.dest).errorCount ≠ 0 ∧ n.markedForRtx ≠ .timeoutRtx ∧ n.gapAcked = false then
    s.clearErrorCount n.dest
  else s

/-- The loop of `SendBufferDequeueUpTo`, over the send buffer. -/
def dequeue (tsn : ℕ) : List (SendBufferNode D) → SctpSender D → SctpSender D
  | [], s => s
  | n :: ns, s => if n.chunk.tsn ≤ tsn then dequeue tsn ns { s.ackNode n with sendBuffer := ns } else s

def sendBufferDequeueUpTo (tsn : ℕ) : SctpSender D :=
  dequeue tsn s.sendBuffer { s with assocErrorCount := 0 }

def adjustCwnd (d : D) : SctpSender D :=
  s.modifyDest d fun x =>
    if x.cwnd ≤ x.ssthresh then
      if x.outstandingBytes ≥ x.cwnd then
        { x with cwnd := x.cwnd + min x.numNewlyAckedBytes c.maxDataSize }
      else x
    else if x.partialBytesAcked ≥ x.cwnd ∧ x.outstandingBytes ≥ x.cwnd then
      let partialBytes := if x.cwnd ≤ x.partialBytesAcked then x.partialBytesAcked - x.cwnd else 0
      { x with partialBytesAcked := partialBytes, cwnd := x.cwnd + c.maxDataSize }
    else x

/-- The loop of `AdvancePeerAckPoint`. -/
def ackedUpTo (point : ℕ) : List (SendBufferNode D) → ℕ
  | [] => point
  | n :: ns =>
    if n.advancedAcked = false ∧ n.gapAcked = false then point else ackedUpTo n.chunk.tsn ns

def advancePeerAckPoint : SctpSender D :=
  { s with advancedPeerAckPoint := ackedUpTo (max s.advancedPeerAckPoint s.cumAckPoint) s.sendBuffer }

def getHighestOutstandingTsn : ℕ :=
  match s.sendBuffer.reverse.find? fun n => n.markedForRtx = .noRtx with
  | some n => n.chunk.tsn
  | none => 0

def totalOutstanding : ℕ :=
  ((s.destList.map fun d => (s.dest d).outstandingBytes).sum % 2 ^ 32).toNat

def anyMarkedChunks : Bool :=
  s.sendBuffer.any fun n => n.markedForRtx ≠ .noRtx

def markChunkForRtx (i : ℕ) (mark : MarkedForRtx) (n : SendBufferNode D) : SctpSender D :=
  let s := (s.modifyNode i fun n => { n with markedForRtx := mark }).addPeerRwnd n.chunk.length
  if s.outStreamMode n.chunk.streamId = .unreliable ∧ n.numTxs > n.unrelRtxLimit then
    (s.modifyNode i fun n => { n with advancedAcked := true, markedForRtx := .noRtx }).modifyDest n.dest
      fun x => { x with outstandingBytes := x.outstandingBytes - n.chunk.length }
  else if mark ≠ .noRtx then { s with markedChunksPending := true }
  else s

/-- `GetNextDest`; `none` is its assertion that the destination is in the list. -/
def getNextDest (d : D) : Option D :=
  match s.destList.dropWhile (· ≠ d) with
  | [] => none
  | _ :: behind =>
    let others := behind ++ s.destList.takeWhile (· ≠ d)
    match others.find? fun d => (s.dest d).status ≠ .inactive with
    | some next => some next
    | none =>
      if (s.dest d).status = .inactive then
        match c.dormantAction with
        | .hop => some (others.headD d)
        | .primary => some s.primaryDest
        | .lastDest => some d
      else some d

def rtxDest (n : SendBufferNode D) : Option D :=
  match c.rtxToAlt with
  | .off => if (s.dest n.dest).status = .active then some n.dest else s.getNextDest c n.dest
  | .on => s.getNextDest c n.dest
  | .timeoutsOnly =>
    if n.markedForRtx = .fastRtx ∧ (s.dest n.dest).status = .active then some n.dest
    else s.getNextDest c n.dest

/-- The marked chunks count as outstanding again (1), or no longer (-1). -/
def countMarked (sign : ℤ) : SctpSender D :=
  s.forNodes fun _ n s =>
    if n.markedForRtx ≠ .noRtx then
      s.modifyDest n.dest fun x => { x with outstandingBytes := x.outstandingBytes + sign * n.chunk.length }
    else s

/-- If the node is the first outstanding one of its destination, the destination points to it. -/
def noteFirst (i : ℕ) (n : SendBufferNode D) : SctpSender D :=
  if (s.dest n.dest).firstOutstanding = none ∧ n.gapAcked = false ∧ n.advancedAcked = false then
    s.modifyDest n.dest fun x => { x with firstOutstanding := some i }
  else s

def clearFirstOutstanding : SctpSender D :=
  s.forDests fun d s => s.modifyDest d fun x => { x with firstOutstanding := none }

def padded (length : ℕ) : ℕ :=
  if length % 4 ≠ 0 then length + (4 - length % 4) else length

/-- A marked chunk is put into the packet to `d`. -/
def rtxNode (d : D) (i : ℕ) (n : SendBufferNode D) : SctpSender D :=
  let s :=
    if (s.dest n.dest).rtoPending ∧ 0 < n.txTimestamp then
      (s.modifyNode i fun n => { n with txTimestamp := 0 }).modifyDest n.dest fun x =>
        { x with rtoPending := false }
    else s
  let s :=
    if (s.dest n.dest).firstOutstanding = some i ∧ (s.dest n.dest).outstandingBytes > 0 then
      s.startT3RtxTimer n.dest
    else s
  let earlier : Bool :=
    match (s.dest d).firstOutstanding.bind (s.sendBuffer[·]?) with
    | none => true
    | some first => n.chunk.tsn < first.chunk.tsn
  let s :=
    if earlier then
      (s.modifyDest d fun x => { x with firstOutstanding := some i }).startT3RtxTimer d
    else s
  let s := s.modifyNode i fun n =>
    { n with dest := d, numTxs := n.numTxs + 1, markedForRtx := .noRtx }
  (s.modifyDest d fun x => { x with outstandingBytes := x.outstandingBytes + n.chunk.length }).subPeerRwnd
    n.chunk.length

/-- A chunk that has been given up was the first outstanding one. -/
def skipNode (i : ℕ) (n : SendBufferNode D) : SctpSender D :=
  if n.advancedAcked ∧ (s.dest n.dest).firstOutstanding = some i then
    if (s.dest n.dest).outstandingBytes > 0 then s.startT3RtxTimer n.dest else s.stopT3RtxTimer n.dest
  else s

/-- The inner loop of `RtxMarkedChunks` from position `i` on, with the number of nodes ahead, the packet so
far and its size; it ends at the first chunk that does not fit. `none` is a null `spRtxDest`. -/
def fillPacket (rtx : Option D) : ℕ → ℕ → List DataChunk → ℕ → SctpSender D →
    Option (SctpSender D × List DataChunk × ℕ × ℕ)
  | 0, i, packet, size, s => some (s, packet, size, i)
  | k + 1, i, packet, size, s =>
    match s.sendBuffer[i]? with
    | none => some (s, packet, size, i)
    | some n =>
      let s := s.noteFirst i n
      if n.markedForRtx ≠ .noRtx then
        if size + n.chunk.length > c.maxPayloadSize then some (s, packet, size, i)
        else
          rtx.bind fun d =>
            fillPacket rtx k (i + 1) (packet ++ [n.chunk]) (size + padded n.chunk.length) (s.rtxNode d i n)
      else fillPacket rtx k (i + 1) packet size (s.skipNode i n)

/-- A packet is sent, and the length of the burst counted; the result says whether to stop. -/
def rtxPacket (d : D) (packet : List DataChunk) : SctpSender D × Bool :=
  let s := { s with sent := (d, packet) :: s.sent }
  let s := if (s.dest d).rtxTimerIsRunning = false then s.startT3RtxTimer d else s
  if c.useMaxBurst ∧ s.applyMaxBurst then
    if s.burstLength ≥ MAX_BURST then
      ({ s with applyMaxBurst := false, burstLength := s.burstLength + 1 }, true)
    else ({ s with burstLength := s.burstLength + 1 }, false)
  else (s, false)

/-- The condition of the outer loop of `RtxMarkedChunks`; `none` is a null `spRtxDest`. -/
def rtxGoesOn (limit : RtxLimit) (rtx : Option D) (i packets : ℕ) : Option Bool :=
  match limit with
  | .onePacket => some (packets < 1 ∧ i < s.sendBuffer.length)
  | .cwnd => rtx.map fun d =>
      (s.dest d).outstandingBytes < (s.dest d).cwnd ∧ i < s.sendBuffer.length

/-- The outer loop of `RtxMarkedChunks`; without `fuel` it has no end. -/
def rtxLoop (limit : RtxLimit) (rtx : Option D) (fuel i packets : ℕ) (s : SctpSender D) :
    Option (SctpSender D) :=
  match fuel with
  | 0 => none
  | fuel + 1 =>
    (s.rtxGoesOn limit rtx i packets).bind fun go =>
      if go then
        (fillPacket c rtx (s.sendBuffer.length - i) i [] 0 s).bind fun r =>
          if r.2.2.1 > 0 then
            rtx.bind fun d =>
              let t := r.1.rtxPacket c d r.2.1
              if t.2 then some t.1 else rtxLoop limit rtx fuel r.2.2.2 (packets + 1) t.1
          else rtxLoop limit rtx fuel r.2.2.2 packets r.1
      else some s

/-- The destination for the retransmissions, that of the first marked chunk. -/
def firstRtxDest : Option (Option D) :=
  match s.sendBuffer.find? fun n => n.markedForRtx ≠ .noRtx with
  | some n => (s.rtxDest c n).map some
  | none => some none

def rtxMarkedChunks (limit : RtxLimit) : Option (SctpSender D) :=
  let s := { s with burstLength := 0 }.clearFirstOutstanding
  (s.firstRtxDest c).bind fun rtx =>
    (rtxLoop c limit rtx (s.sendBuffer.length + 2) 0 0 (s.countMarked (-1))).map fun s =>
      let s := s.countMarked 1
      { s with markedChunksPending := s.anyMarkedChunks }

/-- The body of the loop of `FastRtx`. -/
def cutWindow (n : SendBufferNode D) : SctpSender D :=
  if (n.markedForRtx ≠ .noRtx ∨ n.advancedAcked) ∧ (s.dest n.dest).ccApplied = false ∧
      n.chunk.tsn > s.recover then
    let s := s.modifyDest n.dest fun x =>
      let half := max (x.cwnd.tdiv 2) (c.initialCwnd * c.maxDataSize)
      { x with ssthresh := half, cwnd := half, partialBytesAcked := 0, ccApplied := true, rtoPending := false }
    { s with recover := s.getHighestOutstandingTsn }
  else s

def fastRtx : Option (SctpSender D) :=
  let s := s.forDests fun d s => s.modifyDest d fun x => { x with ccApplied := false }
  let s := s.forNodes fun _ n s => s.cutWindow c n
  if s.markedChunksPending then s.rtxMarkedChunks c .onePacket else some s

end SctpSender

end NetworkSimulator
