import NetworkSimulator.Library.Network
import NetworkSimulator.Sctp.Sender

/-!
# The handshake of an SCTP association

The four states of an agent and what `ProcessChunk`, `sendmsg` and the T1 timers do to them. The data that
flows once the association is established, and the times of the timers, are left out.
-/

namespace NetworkSimulator
open Library

/-- The states that are in use, after `Reset()`. -/
inductive SctpState
  | closed
  | established
  | cookieWait
  | cookieEchoed
  deriving DecidableEq

/-- The INIT chunk, which is used for INIT ACK too; the pair of unreliable streams follows it if there is
room in its length. -/
structure InitChunk where
  arwnd : ℕ
  numOutboundStreams : ℕ
  unrelStreams : Option (ℕ × ℕ)
  deriving DecidableEq

inductive ControlChunk
  | init (chunk : InitChunk)
  | initAck (chunk : InitChunk)
  | cookieEcho
  | cookieAck
  | hb (dest : ℕ)
  | hbAck (dest : ℕ)
  deriving DecidableEq

/-- Where the data of `sendmsg` comes from: an infinite source, an application that does not know of SCTP, or
one that gives the number of streams and of unreliable streams. -/
inductive MessageSource
  | infinite
  | unaware
  | aware (numStreams numUnreliable : ℕ)
  deriving DecidableEq

structure SctpEndpoint where
  state : SctpState
  t1InitTimer : Bool
  t1CookieTimer : Bool
  initTryCount : ℕ
  maxInitRetransmits : ℕ
  initialRwnd : ℕ
  numOutStreams : ℕ
  numUnrelStreams : ℕ
  peerRwnd : ℕ
  inStreams : List InStream
  destStatus : List DestStatus
  sendNewDataChunks : Bool
  deriving DecidableEq

def MAX_NUM_STREAMS : ℕ := 0xffff

namespace SctpEndpoint
variable (s : SctpEndpoint)

/-- `GenChunk` for INIT and INIT ACK. -/
def genInit : InitChunk :=
  ⟨s.initialRwnd, s.numOutStreams % 2 ^ 16,
    if s.numUnrelStreams > 0 then some (0, (s.numUnrelStreams - 1) % 2 ^ 16) else none⟩

/-- `ProcessInitChunk`: the streams of the peer are set up. -/
def processInitChunk (chunk : InitChunk) : SctpEndpoint :=
  { s with
    peerRwnd := chunk.arwnd
    inStreams := (List.range chunk.numOutboundStreams).map fun i =>
      ⟨if chunk.unrelStreams.any fun p => p.1 ≤ i ∧ i ≤ p.2 then .unreliable else .reliable, 0, []⟩ }

def processInitAckChunk (chunk : InitChunk) : SctpEndpoint :=
  { s.processInitChunk chunk with t1InitTimer := false }

def processCookieAckChunk : SctpEndpoint :=
  { s with t1CookieTimer := false }

/-- A chunk that is taken for an INIT ACK; in one of another kind `behind` stands in its place. -/
def asInitAck (behind : InitChunk) : ControlChunk → InitChunk
  | .init chunk => chunk
  | .initAck chunk => chunk
  | _ => behind

/-- A heartbeat comes back: the destination is active, and with the last one confirmed data may be sent. -/
def processHeartbeatAck (d : ℕ) : SctpEndpoint :=
  let t := { s with destStatus := s.destStatus.set d .active }
  if s.destStatus[d]? = some .unconfirmed ∧ ¬t.destStatus.any (· = .unconfirmed) then
    { t with sendNewDataChunks := true }
  else t

/-- `ProcessChunk`, with the chunks that it sends. -/
def processChunk (behind : InitChunk) (chunk : ControlChunk) : SctpEndpoint × List ControlChunk :=
  match s.state with
  | .closed =>
    match chunk with
    | .init chunk => (s.processInitChunk chunk, [.initAck s.genInit])
    | .cookieEcho => ({ s with state := .established }, [.cookieAck])
    | _ => (s, [])
  | .cookieWait =>
    let t := s.processInitAckChunk (asInitAck behind chunk)
    ({ t with t1CookieTimer := true, state := .cookieEchoed }, [.cookieEcho])
  | .cookieEchoed =>
    let t := s.processCookieAckChunk
    ({ t with
      state := .established
      destStatus := t.destStatus.map fun _ => .unconfirmed
      sendNewDataChunks := false }, (List.range t.destStatus.length).map .hb)
  | .established =>
    match chunk with
    | .hb d => (s, [.hbAck d])
    | .hbAck d => (s.processHeartbeatAck d, [])
    | .cookieEcho => (s, [.cookieAck])
    | _ => (s, [])

/-- `sendmsg` up to the data; `none` is one of its calls of `exit`. -/
def sendmsg (source : MessageSource) : Option (SctpEndpoint × List ControlChunk) :=
  let s : SctpEndpoint :=
    match source with
    | .infinite => s
    | .unaware => { s with numOutStreams := 1, numUnrelStreams := if s.numUnrelStreams > 0 then 1 else 0 }
    | .aware n u => { s with numOutStreams := n, numUnrelStreams := u }
  if source ≠ .infinite ∧ (s.numOutStreams > MAX_NUM_STREAMS ∨ s.numUnrelStreams > s.numOutStreams) then none
  else
    match s.state with
    | .closed => some ({ s with t1InitTimer := true, state := .cookieWait }, [.init s.genInit])
    | .established => if source = .infinite then none else some (s, [])
    | _ => some (s, [])

def close : SctpEndpoint :=
  { s with state := .closed, t1InitTimer := false, t1CookieTimer := false }

/-- `T1InitTimerExpiration` -/
def t1InitTimerExpiration : SctpEndpoint × List ControlChunk :=
  let s := { s with t1InitTimer := false, initTryCount := s.initTryCount + 1 }
  if s.initTryCount > s.maxInitRetransmits then (s.close, [])
  else ({ s with t1InitTimer := true }, [.init s.genInit])

/-- `T1CookieTimerExpiration` -/
def t1CookieTimerExpiration : SctpEndpoint × List ControlChunk :=
  let s := { s with t1CookieTimer := false, initTryCount := s.initTryCount + 1 }
  if s.initTryCount > s.maxInitRetransmits then (s.close, [])
  else ({ s with t1CookieTimer := true }, [.cookieEcho])

end SctpEndpoint

/-- The endpoint that calls `sendmsg`, and the other one. -/
inductive Side
  | initiator
  | responder
  deriving DecidableEq

def Side.peer : Side → Side
  | .initiator => .responder
  | .responder => .initiator

inductive SctpAction
  | sendmsg (source : MessageSource)
  | t1Init
  | t1Cookie

/-- Only the initiator calls `sendmsg`, and a timer expires only while it is pending. -/
def sctpAct (side : Side) (s : SctpEndpoint) : SctpAction → Option (SctpEndpoint × List ControlChunk)
  | .sendmsg source => if side = .initiator then s.sendmsg source else none
  | .t1Init => if s.t1InitTimer then some s.t1InitTimerExpiration else none
  | .t1Cookie => if s.t1CookieTimer then some s.t1CookieTimerExpiration else none

/-- What an endpoint sends goes to its peer. -/
def sctpHandlers : Handlers Side SctpEndpoint ControlChunk SctpAction InitChunk where
  act side s e := (sctpAct side s e).map fun r => (r.1, r.2.map fun chunk => (side.peer, chunk))
  receive side s chunk behind :=
    let r := s.processChunk behind chunk
    some (r.1, r.2.map fun chunk => (side.peer, chunk))

abbrev SctpNetwork := Network Side SctpEndpoint ControlChunk

abbrev SctpEvent := NetworkEvent Side SctpAction InitChunk

namespace SctpNetwork
variable {w w' : SctpNetwork} {ev : SctpEvent}

/-- After `Reset()` at both ends. -/
structure Initial (w : SctpNetwork) : Prop where
  closed : ∀ side, (w.node side).state = .closed
  t1Init : ∀ side, (w.node side).t1InitTimer = false
  t1Cookie : ∀ side, (w.node side).t1CookieTimer = false
  flight : w.flight = []

/-- The chunk that a step delivers to an endpoint. -/
def Delivers (w : SctpNetwork) (side : Side) (chunk : ControlChunk) : SctpEvent → Prop
  | .deliver k _ => w.flight[k]? = some (side, chunk)
  | _ => False

/-- The T1 timers expire below the retry limit. -/
def BelowLimit (w : SctpNetwork) : SctpEvent → Prop
  | .act side .t1Init => (w.node side).initTryCount < (w.node side).maxInitRetransmits
  | .act side .t1Cookie => (w.node side).initTryCount < (w.node side).maxInitRetransmits
  | _ => True

/-- No INIT ACK comes to an endpoint that waits for a COOKIE ACK. -/
def Regular (w : SctpNetwork) (ev : SctpEvent) : Prop :=
  BelowLimit w ev ∧ ∀ side chunk, Delivers w side (.initAck chunk) ev → (w.node side).state ≠ .cookieEchoed

end SctpNetwork

end NetworkSimulator
