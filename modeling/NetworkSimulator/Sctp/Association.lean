import NetworkSimulator.Sctp.Sack

/-!
# The data phase of an SCTP association

What happens to the sender between the handshake and the close: data from the application is sent, SACKs arrive,
and the T3 timers of the destinations expire. The heartbeats and the times that set the timers are left out.
-/

namespace NetworkSimulator
open Library

inductive DataSource
  | application
  | infinite
  deriving DecidableEq

/-- A message of the application. -/
structure AppData where
  streamId : ℕ
  reliability : ℕ
  unordered : Bool
  numBytes : ℕ

/-- Further values bound from Tcl; those for the data are used when its source is infinite. -/
structure DataConfig where
  dataSource : DataSource
  dataChunkSize : ℕ
  numOutStreams : ℕ
  reliability : ℕ
  unordered : Bool
  pathMaxRetrans : ℕ
  associationMaxRetrans : ℕ
  changePrimaryThresh : ℕ

structure SctpAssociation (D : Type*) where
  sender : SctpSender D
  appLayerBuffer : List AppData
  nextTsn : ℕ
  nextStreamId : ℕ
  /-- `usNextStreamSeqNum` of each stream. -/
  nextStreamSeqNum : ℕ → ℕ
  closed : Bool
  /-- The window that the peer has advertised last. -/
  arwnd : ℕ

/-- `sizeof(SctpDataChunkHdr_S)` -/
def DATA_CHUNK_HDR_SIZE : ℕ := 16

namespace SctpSender
variable {D : Type*} [DecidableEq D] (c : SctpConfig) (x : DataConfig) (s : SctpSender D)

/-- The new node of `AddToSendBuffer`. -/
def addToSendBuffer (chunk : DataChunk) (reliability : ℕ) (d : D) (now : ℚ) : SctpSender D :=
  let pending := (s.dest d).rtoPending
  let s := if pending then s else s.modifyDest d fun y => { y with rtoPending := true }
  { s with
    sendBuffer := s.sendBuffer ++
      [⟨chunk, false, false, false, 0, reliability, .noRtx, false, 1, if pending then 0 else now, d⟩] }

/-- What `GenOneDataChunk` does with a chunk that takes `size` bytes. -/
def takeNewChunk (chunk : DataChunk) (size reliability : ℕ) (now : ℚ) : SctpSender D :=
  let d := s.newTxDest
  let s := (s.addToSendBuffer chunk reliability d now).modifyDest d fun y =>
    { y with outstandingBytes := y.outstandingBytes + chunk.length }
  -- the window is compared as an `int`
  let s := if (size : ℤ) ≤ (s.peerRwnd : ℤ).bmod (2 ^ 32) then s.subPeerRwnd size else { s with peerRwnd := 0 }
  if (s.dest d).rtxTimerIsRunning = false then s.startT3RtxTimer d else s

/-- What a timeout of the T3 timer does to the destination and the paths; the result says whether the association is
closed, and `none` is the assertion of `GetNextDest`. -/
def backOff (d : D) : Option (SctpSender D × Bool) :=
  let s := s.modifyDest d fun y =>
    let y : SctpDest := { y with rtxTimerIsRunning := false }
    let y : SctpDest :=
      if y.cwnd > c.maxDataSize then
        { y with
          ssthresh := max (y.cwnd.tdiv 2) (c.initialCwnd * c.maxDataSize)
          cwnd := c.maxDataSize
          partialBytesAcked := 0 }
      else y
    { y with rtoPending := false, errorCount := y.errorCount + 1 }
  let changePrimary (s : SctpSender D) : SctpSender D :=
    if (s.dest d).errorCount > x.changePrimaryThresh ∧ d = s.primaryDest then { s with primaryDest := s.newTxDest }
    else s
  if (s.dest d).status = .active then
    let s : SctpSender D := { s with assocErrorCount := s.assocErrorCount + 1 }
    let failed : Option (SctpSender D) :=
      if (s.dest d).errorCount > x.pathMaxRetrans then
        let s := s.modifyDest d fun y => { y with status := .inactive }
        if d = s.newTxDest then (s.getNextDest c d).map fun next => { s with newTxDest := next } else some s
      else some s
    failed.map fun (s : SctpSender D) =>
      if s.assocErrorCount > x.associationMaxRetrans then (s, true) else (changePrimary s, false)
  else some (changePrimary s, false)

/-- The body of the loop of `TimeoutRtx`. -/
def timeoutNode (d : D) (i : ℕ) (n : SendBufferNode D) (s : SctpSender D) : SctpSender D :=
  if n.dest = d ∧ n.gapAcked = false ∧ n.advancedAcked = false then
    (s.markChunkForRtx i .timeoutRtx n).modifyNode i fun n => { n with numMissingReports := 0 }
  else s

/-- The loop of `TimeoutRtx`. -/
def markTimedOut (d : D) : SctpSender D := s.forNodes (timeoutNode d)

def timeoutRtx (d : D) : Option (SctpSender D) :=
  let s := s.markTimedOut d
  if s.markedChunksPending then s.rtxMarkedChunks c .onePacket else some s

end SctpSender

namespace SctpAssociation
variable {D : Type*} [DecidableEq D] (c : SctpConfig) (x : DataConfig) (a : SctpAssociation D)

def getNextDataChunkSize : ℕ :=
  match x.dataSource with
  | .application =>
    match a.appLayerBuffer with
    | [] => 0
    | msg :: _ => SctpSender.padded (msg.numBytes + DATA_CHUNK_HDR_SIZE)
  | .infinite => SctpSender.padded x.dataChunkSize

def anyData : Bool :=
  match x.dataSource with
  | .application => !a.appLayerBuffer.isEmpty
  | .infinite => true

/-- The data chunk that `GenChunk` makes of a message, and the association behind it. -/
def genChunk (streamId length : ℕ) (unordered : Bool) : DataChunk × SctpAssociation D :=
  let tsn := a.nextTsn + 1
  -- `usLength` is 16 bits wide
  if unordered then (⟨length % 2 ^ 16, true, tsn, streamId, 0⟩, { a with nextTsn := tsn })
  else
    let ssn := a.nextStreamSeqNum streamId
    (⟨length % 2 ^ 16, false, tsn, streamId, ssn⟩,
      { a with
        nextTsn := tsn
        nextStreamSeqNum := Function.update a.nextStreamSeqNum streamId ((ssn + 1) % 2 ^ 16) })

/-- `GenOneDataChunk` with the chunk and the bytes that it takes; `none` is a missing message. -/
def genOneDataChunk (now : ℚ) : Option (SctpAssociation D × DataChunk × ℕ) :=
  match x.dataSource with
  | .application =>
    match a.appLayerBuffer with
    | [] => none
    | msg :: msgs =>
      let length := msg.numBytes + DATA_CHUNK_HDR_SIZE
      let size := SctpSender.padded length
      let (chunk, a) := a.genChunk msg.streamId length msg.unordered
      some ({ a with
        sender := a.sender.takeNewChunk chunk size msg.reliability now
        appLayerBuffer := msgs }, chunk, size)
  | .infinite =>
    let size := SctpSender.padded x.dataChunkSize
    let (chunk, a) := a.genChunk (a.nextStreamId % x.numOutStreams) x.dataChunkSize x.unordered
    some ({ a with
      sender := a.sender.takeNewChunk chunk size x.reliability now
      nextStreamId := (a.nextStreamId + 1) % 2 ^ 16 }, chunk, size)

/-- The loop of `GenMultipleDataChunks`, with the size of the packet; without `fuel` it has no end. -/
def genMultipleDataChunks (now : ℚ) :
    ℕ → ℕ → List DataChunk → SctpAssociation D → Option (SctpAssociation D × List DataChunk)
  | 0, _, _, _ => none
  | fuel + 1, total, packet, a =>
    if total + a.getNextDataChunkSize x ≤ c.maxDataSize ∧ a.getNextDataChunkSize x ≤ a.sender.peerRwnd ∧
        a.anyData x then
      (a.genOneDataChunk x now).bind fun r =>
        genMultipleDataChunks now fuel (total + r.2.2) (packet ++ [r.2.1]) r.1
    else some (a, packet)

/-- `SendPacket` to the destination for new data. -/
def sendPacket (packet : List DataChunk) : SctpAssociation D :=
  { a with sender := { a.sender with sent := (a.sender.newTxDest, packet) :: a.sender.sent } }

/-- The loop of `SendMuch`; without `fuel` it has no end. -/
def sendLoop (now : ℚ) : ℕ → SctpAssociation D → Option (SctpAssociation D)
  | 0, _ => none
  | fuel + 1, a =>
    let d := a.sender.dest a.sender.newTxDest
    if d.outstandingBytes < d.cwnd ∧ a.anyData x then
      if a.getNextDataChunkSize x ≤ a.sender.peerRwnd then
        let counts : Bool := c.useMaxBurst ∧ a.sender.applyMaxBurst
        if counts ∧ a.sender.burstLength ≥ MAX_BURST then
          some { a with sender := { a.sender with applyMaxBurst := false } }
        else
          let a : SctpAssociation D :=
            if counts then { a with sender := { a.sender with burstLength := a.sender.burstLength + 1 } } else a
          (a.genMultipleDataChunks c x now (c.maxDataSize + 1) 0 []).bind fun r =>
            sendLoop now fuel (r.1.sendPacket r.2)
      else if a.sender.totalOutstanding = 0 then
        (a.genOneDataChunk x now).bind fun r => sendLoop now fuel (r.1.sendPacket [r.2.1])
      else some a
    else some a

/-- `SendMuch`, with fuel for the bytes that the window of the destination still takes and for each message. -/
def sendMuch (now : ℚ) : Option (SctpAssociation D) :=
  let d := a.sender.dest a.sender.newTxDest
  (sendLoop c x now ((d.cwnd - d.outstandingBytes).toNat + a.appLayerBuffer.length + 1) a).map fun a =>
    { a with sender := { a.sender with burstLength := 0 } }

/-- `Close`, as far as the data goes. -/
def close : SctpAssociation D :=
  { a with sender := { a.sender with sendBuffer := [] }, appLayerBuffer := [], closed := true }

/-- `Timeout(SCTP_CHUNK_DATA)` -/
def timeout (d : D) : Option (SctpAssociation D) :=
  (a.sender.backOff c x d).bind fun r =>
    if r.2 then some { a with sender := r.1 }.close
    else (r.1.timeoutRtx c d).map fun s => { a with sender := s }

/-- A packet with a SACK arrives. -/
def recvSack (chunk : SackChunk) (behind : ℕ → GapAckBlock) (now : ℚ) : Option (SctpAssociation D) :=
  (a.sender.processSackChunk c chunk behind).bind fun s =>
    let a := { a with sender := s, arwnd := if chunk.cumAck < a.sender.cumAckPoint then a.arwnd else chunk.arwnd }
    if s.markedChunksPending then some a else a.sendMuch c x now

/-- `sendmsg`, with the message as one chunk or in fragments; `none` is an exit for a message that is too long. -/
def sendmsg (msgs : List AppData) (now : ℚ) : Option (SctpAssociation D) :=
  if msgs.getLast?.any fun msg => msg.numBytes + DATA_CHUNK_HDR_SIZE > c.maxDataSize then none
  else { a with appLayerBuffer := a.appLayerBuffer ++ msgs }.sendMuch c x now

end SctpAssociation

inductive AssociationEvent (D : Type*)
  /-- New data may be sent, after the handshake. -/
  | established (now : ℚ)
  | sendmsg (msgs : List AppData) (now : ℚ)
  /-- A SACK arrives, with what stands in the memory behind its blocks. -/
  | sack (chunk : SackChunk) (behind : ℕ → GapAckBlock) (now : ℚ)
  /-- The T3 timer of a destination expires. -/
  | timeout (d : D)

/-- Nothing happens to a closed association, and only a running timer expires. -/
def SctpAssociation.step {D : Type*} [DecidableEq D] (c : SctpConfig) (x : DataConfig) (a : SctpAssociation D)
    (ev : AssociationEvent D) : Option (SctpAssociation D × Unit) :=
  if a.closed then some (a, ())
  else
    match ev with
    | .established now => (a.sendMuch c x now).map fun a => (a, ())
    | .sendmsg msgs now => (a.sendmsg c x msgs now).map fun a => (a, ())
    | .sack chunk behind now => (a.recvSack c x chunk behind now).map fun a => (a, ())
    | .timeout d =>
      if (a.sender.dest d).rtxTimerIsRunning then (a.timeout c x d).map fun a => (a, ()) else some (a, ())

end NetworkSimulator
