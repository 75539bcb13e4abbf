import NetworkSimulator.Imep.DestQueue
import NetworkSimulator.Library.Runs

/-!
# The IMEP agent

The link records, the packets that wait for acknowledgements and the packets of neighbours that came
too early, with the routines that change them. The layout of control packets is outside this model: an
incoming packet is given by its blocks, and an object packet that is saved for retransmission by what
`findResponseList` finds in it.
-/

namespace NetworkSimulator.Imep

variable {π : Type*}

def BEACON_PERIOD : ℚ := 1
def MAX_BEACON_TIME : ℚ := BEACON_PERIOD * 3
def RETRANS_PERIOD : ℚ := 1 / 2
def MAX_REXMITS : ℕ := 2
def MAX_RETRANS_TIME : ℚ := RETRANS_PERIOD * (MAX_REXMITS + 1)

/-- The two bits of a link's status. -/
structure Status where
  linkIn : Bool
  linkOut : Bool
  deriving DecidableEq, Repr

def LINK_DOWN : Status := ⟨false, false⟩
def LINK_BI : Status := ⟨true, true⟩

structure Link where
  index : ℤ
  status : Status := LINK_DOWN
  /-- `lastSeqValid()` returns this field too. -/
  lastSeq : ℕ := 0
  inExpire : ℚ := -1
  outExpire : ℚ := -1
  deriving DecidableEq, Repr

/-- The bits whose times are over are cleared. -/
def Link.expired (now : ℚ) (l : Link) : Link :=
  { l with status := ⟨l.status.linkIn && !decide (l.inExpire < now), l.status.linkOut && !decide (l.outExpire < now)⟩ }

/-- A packet on the retransmission queue. Its response list is a piece of memory of which the first
`numResponses` words count. -/
structure Rexent where
  /-- Which packet it is. -/
  id : ℕ
  rexmitAt : ℚ
  rexmitsLeft : ℕ
  sequence : ℕ
  numResponses : ℕ
  response : ℕ → ℤ
  /-- Without a response list a packet is not saved. -/
  responses_pos : 0 < numResponses

/-- What is noted of a run: the calls that other components see, and what becomes of response lists. -/
inductive Call (π : Type*)
  | rtNotifyLinkUP (index : ℤ)
  | rtNotifyLinkDN (index : ℤ)
  | imep_object_process (src : ℤ) (p : π)
  | imepSetLinkDownStatus (index : ℤ)
  | createResponseList (id : ℕ) (responses : List ℤ)
  /-- An acknowledgement for this node is read. -/
  | imep_ack (saddr : ℤ) (seqno : ℕ)
  | purgeReXmitQ (index : ℤ)
  | sendHello (index : ℤ)
  | sendAck (index : ℤ) (seqno : ℕ)
  | imep_output (id : ℕ)
  deriving DecidableEq, Repr

structure Agent (π : Type*) where
  ipaddr : ℤ
  links : List Link := []
  rexmitq : List Rexent := []
  incomingQ : DstQueue π := []
  controlSequence : ℕ := 0
  calls : List (Call π) := []

/-- The object block of a packet that comes in. -/
structure ObjectBlock (π : Type*) where
  sequence : ℕ
  responses : List ℤ := []
  pkt : π

structure Incoming (π : Type*) where
  saddr : ℤ
  acks : List (ℤ × ℕ) := []
  hellos : List ℤ := []
  object : Option (ObjectBlock π) := none

inductive Event (π : Type*)
  | recv (now : ℚ) (p : Incoming π)
  /-- An object block is sent; `found` is what is read where a list of addresses was written. -/
  | aggregateObject (now : ℚ) (found : List ℤ → ℕ → ℤ)
  | beaconTimer (now : ℚ)
  | rexmitTimer (now : ℚ)
  | incomingTimer (now : ℚ)
  | undeliverable (inet : Bool) (nextHop : ℤ)

namespace Rexent

/-- Where the search of `index` in the response list ends. -/
def search (e : Rexent) (index : ℤ) : ℕ :=
  ((List.range e.numResponses).find? fun i => e.response i = index).getD e.numResponses

/-- `index` is taken off the response list, `none` when that was the last response. The test is made on
the word where the search has ended, which may be behind the list. -/
def removeResponse (e : Rexent) (index : ℤ) : Option Rexent :=
  if e.response (e.search index) ≠ index then some e
  else if h : e.numResponses = 1 then none
  else
    some { e with
      response := Function.update e.response (e.search index) (e.response (e.numResponses - 1))
      numResponses := e.numResponses - 1
      responses_pos := Nat.sub_pos_of_lt (by have := e.responses_pos; omega) }

end Rexent

/-- `ReXmitQ::insert`. -/
def insertRexent (e : Rexent) : List Rexent → List Rexent
  | [] => [e]
  | i :: is => if e.rexmitAt < i.rexmitAt then e :: i :: is else i :: insertRexent e is

namespace Agent

def call (s : Agent π) (c : Call π) : Agent π := { s with calls := s.calls ++ [c] }

def findLink (s : Agent π) (index : ℤ) : Option Link := s.links.find? fun l => l.index = index

/-- There is one record for each neighbour. -/
def setLink (s : Agent π) (index : ℤ) (f : Link → Link) : Agent π :=
  { s with links := s.links.map fun l => if l.index = index then f l else l }

/-- `imepGetLinkStatus`. -/
def status (s : Agent π) (index : ℤ) : Status :=
  match s.findLink index with
  | none => LINK_DOWN
  | some l => l.status

def lastSeq (s : Agent π) (index : ℤ) : ℕ :=
  match s.findLink index with
  | none => 0
  | some l => l.lastSeq

/-- The record that a first packet makes. -/
def newLink (s : Agent π) (index : ℤ) : Agent π :=
  if (s.findLink index).isNone then { s with links := { index } :: s.links } else s

/-- A bit is set in the status, and the routing agent is told when that makes the link bidirectional. -/
def setStatus (s : Agent π) (index : ℤ) (f : Status → Status) : Agent π :=
  let s' := s.setLink index fun l => { l with status := f l.status }
  if s.status index ≠ s'.status index ∧ s'.status index = LINK_BI then s'.call (.rtNotifyLinkUP index) else s'

def imepSetLinkInStatus (now : ℚ) (s : Agent π) (index : ℤ) : Agent π :=
  let s₁ := s.newLink index
  let s₂ := if s₁.status index = LINK_DOWN then
      (s₁.setLink index fun l => { l with lastSeq := 0, outExpire := -1 }).call (.sendHello index)
    else s₁
  (s₂.setStatus index fun st => { st with linkIn := true }).setLink index
    fun l => { l with inExpire := now + MAX_BEACON_TIME }

/-- The record exists: `imepSetLinkInStatus` is always called first. -/
def imepSetLinkOutStatus (now : ℚ) (s : Agent π) (index : ℤ) : Agent π :=
  (s.setStatus index fun st => { st with linkOut := true }).setLink index
    fun l => { l with outExpire := now + MAX_BEACON_TIME }

def imepSetLinkBiStatus (now : ℚ) (s : Agent π) (index : ℤ) : Agent π :=
  (s.imepSetLinkInStatus now index).imepSetLinkOutStatus now index

def purgeReXmitQ (s : Agent π) (index : ℤ) : Agent π :=
  let s₁ : Agent π := { s with rexmitq := s.rexmitq.filterMap fun e => e.removeResponse index }
  s₁.call (.purgeReXmitQ index)

/-- The status is not looked at before the routing agent is told. -/
def imepSetLinkDownStatus (s : Agent π) (index : ℤ) : Agent π :=
  let s₁ := s.call (.imepSetLinkDownStatus index)
  if (s₁.findLink index).isNone then s₁
  else
    let s₂ := s₁.setLink index fun l => { l with status := LINK_DOWN, inExpire := -1, outExpire := -1 }
    let s₃ := { s₂ with incomingQ := s₂.incomingQ.deleteDst index }
    (s₃.purgeReXmitQ index).call (.rtNotifyLinkDN index)

def deleteLink (s : Agent π) (index : ℤ) : Agent π :=
  { s with links := s.links.filter fun l => ¬l.index = index }

/-- One record of `purgeLink`. -/
def purgeOne (now : ℚ) (s : Agent π) (index : ℤ) : Agent π :=
  let s₁ := s.setLink index (Link.expired now)
  let s₂ := if s.status index = LINK_BI ∧ s₁.status index ≠ LINK_BI then s₁.imepSetLinkDownStatus index
    else s₁
  if s₂.status index = LINK_DOWN then s₂.deleteLink index else s₂

def purgeLink (now : ℚ) (s : Agent π) : Agent π := (s.links.map Link.index).foldl (purgeOne now) s

/-- The hellos that `handlerBeaconTimer` loads after the purge. -/
def handlerBeaconTimer (now : ℚ) (s : Agent π) : Agent π :=
  let s₁ := s.purgeLink now
  ((s₁.links.filter fun l => l.status.linkIn).map Link.index).foldl (fun s index => s.call (.sendHello index)) s₁

def biLinks (s : Agent π) : List ℤ := (s.links.filter fun l => l.status = LINK_BI).map Link.index

/-- `aggregateObjectBlock` with `createResponseList`; the number of responses has five bits. -/
def aggregateObjectBlock (now : ℚ) (s : Agent π) (found : List ℤ → ℕ → ℤ) : Agent π :=
  let responses := (List.range (s.biLinks.length % 32)).map (found s.biLinks)
  let s₁ : Agent π := { s with controlSequence := s.controlSequence + 1 }.call
    (.createResponseList (s.controlSequence + 1) responses)
  if h : 0 < s.biLinks.length % 32 then
    let sp : Rexent :=
      { id := s₁.controlSequence, rexmitAt := now + RETRANS_PERIOD, rexmitsLeft := MAX_REXMITS
        sequence := s₁.controlSequence % 256, numResponses := s.biLinks.length % 32
        response := found s.biLinks, responses_pos := h }
    { s₁ with rexmitq := insertRexent sp s₁.rexmitq }
  else s₁

/-- The loop of `handlerReXmitTimer` over the response list of packet `id`, which each call may change.
A packet that has been dropped has no responses left. -/
def punt (id : ℕ) : ℕ → ℕ → Agent π → Agent π
  | 0, _, s => s
  | fuel + 1, i, s =>
    match s.rexmitq.find? fun e => e.id = id with
    | none => s
    | some e => if i < e.numResponses then punt id fuel (i + 1) (s.imepSetLinkDownStatus (e.response i)) else s

def handlerReXmitTimer (now : ℚ) (s : Agent π) : Agent π :=
  match s.rexmitq with
  | [] => s
  | e :: es =>
    if e.rexmitsLeft = 0 then s.punt e.id e.numResponses 0
    else if e.rexmitAt ≤ now then
      let p := { e with rexmitAt := now + RETRANS_PERIOD, rexmitsLeft := e.rexmitsLeft - 1 }
      { s with rexmitq := insertRexent p es }.call (.imep_output e.id)
    else s

def removeObjectResponse (s : Agent π) (id : ℕ) (index : ℤ) : Agent π :=
  { s with rexmitq := s.rexmitq.filterMap fun e => if e.id = id then e.removeResponse index else some e }

def imepAck (now : ℚ) (saddr : ℤ) (s : Agent π) (ack : ℤ × ℕ) : Agent π :=
  if ack.1 = s.ipaddr then
    let s₁ := s.call (.imep_ack saddr ack.2)
    match s₁.rexmitq.find? fun e => e.sequence = ack.2 with
    | none => s₁
    | some e => (s₁.removeObjectResponse e.id saddr).imepSetLinkBiStatus now saddr
  else s

def imep_ack_input (now : ℚ) (s : Agent π) (p : Incoming π) : Agent π := p.acks.foldl (imepAck now p.saddr) s

def imep_hello_input (now : ℚ) (s : Agent π) (p : Incoming π) : Agent π :=
  if s.ipaddr ∈ p.hellos then s.imepSetLinkBiStatus now p.saddr else s

/-- A list of 31 responses is answered by everyone. -/
def imep_ack_object (s : Agent π) (saddr : ℤ) (ob : ObjectBlock π) : Agent π :=
  if ob.responses.length = 31 ∨ s.ipaddr ∈ ob.responses then s.call (.sendAck saddr ob.sequence) else s

/-- The loop that delivers the packets in sequence. `lastSeq() + 1` is an `int`, so it may be 256. -/
def deliver (index : ℤ) : ℕ → Agent π → Agent π
  | 0, s => s
  | fuel + 1, s =>
    match s.incomingQ.getPacket index (s.lastSeq index + 1) with
    | (_, none) => s
    | (q, some p) =>
      deliver index fuel (({ s with incomingQ := q }.setLink index
        fun l => { l with lastSeq := (l.lastSeq + 1) % 256 }).call (.imep_object_process index p))

/-- The first object sets `lastSeq()` to its predecessor; the assignment to `lastSeqValid()` before it is
overwritten. -/
def imep_object_input (now : ℚ) (s : Agent π) (saddr : ℤ) (ob : ObjectBlock π) : Agent π :=
  let s₁ := s.imep_ack_object saddr ob
  let s₂ := if s₁.lastSeq saddr = 0 then
      s₁.setLink saddr fun l => { l with lastSeq := (ob.sequence + 255) % 256 }
    else s₁
  if reg ob.sequence (s₂.lastSeq saddr) ≤ 0 then s₂
  else
    let s₃ := if reg ob.sequence (s₂.lastSeq saddr) = 1 then
        (s₂.call (.imep_object_process saddr ob.pkt)).setLink saddr fun l => { l with lastSeq := ob.sequence }
      else { s₂ with incomingQ := s₂.incomingQ.addEntry saddr (now + MAX_RETRANS_TIME) ob.sequence ob.pkt }
    s₃.deliver saddr s₃.incomingQ.size

/-- A packet without a block is a beacon. -/
def recv_incoming (now : ℚ) (s : Agent π) (p : Incoming π) : Agent π :=
  let s₁ := s.imepSetLinkInStatus now p.saddr
  if p.acks = [] ∧ p.hellos = [] ∧ p.object.isNone then s₁.call (.sendHello p.saddr)
  else
    let s₂ := s₁.imep_ack_input now p
    let s₃ := s₂.imep_hello_input now p
    match p.object with
    | none => s₃
    | some ob => s₃.imep_object_input now p.saddr ob

/-- The loop of `handlerIncomingTimer`. -/
def retireHoles (now : ℚ) : ℕ → Agent π → Option (Agent π)
  | 0, s => some s
  | fuel + 1, s =>
    match s.incomingQ.getNextPacket now with
    | (q, none) => some { s with incomingQ := q }
    | (q, some (index, t)) =>
      if (s.findLink index).isNone then none
      else
        let s₁ := (({ s with incomingQ := q }.call (.rtNotifyLinkDN index)).call (.rtNotifyLinkUP index)).setLink
          index fun l => { l with lastSeq := t.seqno % 256 }
        let s₂ := s₁.call (.imep_object_process index t.pkt)
        retireHoles now fuel (s₂.deliver index s₂.incomingQ.size)

/-- The loop ends at the latest when nothing waits, one call of `getNextPacket` after that. -/
def handlerIncomingTimer (now : ℚ) (s : Agent π) : Option (Agent π) := do
  let s' ← s.retireHoles now (s.incomingQ.size + 1)
  if ∀ expire ∈ s'.incomingQ.getNextExpire, expire > now then some s' else none

def imepPacketUndeliverable (s : Agent π) (inet : Bool) (nextHop : ℤ) : Agent π :=
  if inet then s.imepSetLinkDownStatus nextHop else s

def step (s : Agent π) : Event π → Option (Agent π × Unit)
  | .recv now p => some (s.recv_incoming now p, ())
  | .aggregateObject now found => some (s.aggregateObjectBlock now found, ())
  | .beaconTimer now => some (s.handlerBeaconTimer now, ())
  | .rexmitTimer now => some (s.handlerReXmitTimer now, ())
  | .incomingTimer now => (s.handlerIncomingTimer now).map fun s' => (s', ())
  | .undeliverable inet nextHop => some (s.imepPacketUndeliverable inet nextHop, ())

end Agent
end NetworkSimulator.Imep
