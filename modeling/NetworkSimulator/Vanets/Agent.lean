import Mathlib.Algebra.Group.Nat.Defs
import Mathlib.Data.Int.Basic
import Mathlib.Data.List.Perm.Basic
import Mathlib.Tactic.Common
import NetworkSimulator.Library.Runs

/-!
# The XFXVanets agent

A vehicle keeps the data packets that it has no way to deliver in a buffer. It hands them over when it
hears the static node that they are for, or a vehicle that is nearer to it. Positions are outside the
model: a hello comes with the distances at that time.
-/

namespace NetworkSimulator.Vanets

def IP_HDR_LEN : ℕ := 20
def RT_PORT : ℕ := 255
def IP_BROADCAST : ℤ := -1

/-- What `hdr_xfx_reply::size` and `hdr_xfx_forward::size` return. -/
structure Sizes where
  reply : ℕ
  forward : ℕ

inductive PacketType
  | PT_XFXVanets
  | PT_TCP
  | PT_ACK
  | other
  deriving DecidableEq, Repr

inductive MsgType
  | XFX_MSG_HELLO_MOVEL
  | XFX_MSG_HELLO_STATIC
  | XFX_MSG_NORMAL
  | XFX_MSG_FORWARD
  | other
  deriving DecidableEq, Repr

/-- The header fields that a handover writes. -/
structure Header where
  ptype : PacketType := .other
  rpType : MsgType := .other
  iface : ℤ := 0
  error : ℤ := 0
  /-- Whether the address type is `NS_AF_NONE`. -/
  addrNone : Bool := false
  sport : ℕ := 0
  dport : ℕ := 0
  deriving DecidableEq, Repr

/-- A data packet. -/
structure Message where
  uid : ℕ
  size : ℕ := 0
  numForwards : ℕ := 0
  saddr : ℤ
  daddr : ℤ
  ttl : ℤ := 32
  header : Header := {}
  deriving DecidableEq, Repr

/-- A packet of the protocol, with the message inside if it is a FORWARD. -/
structure Control where
  type : MsgType
  saddr : ℤ
  daddr : ℤ := -1
  sport : ℕ := RT_PORT
  dport : ℕ := RT_PORT
  ttl : ℤ := 1
  size : ℕ := 0
  rpDst : ℤ := 0
  rpDstSeqno : ℤ := 0
  data : Option Message := none
  deriving DecidableEq, Repr

inductive Packet
  | data (m : Message)
  | control (c : Control)
  deriving DecidableEq, Repr

inductive DropReason
  | DROP_RTR_TTL
  | DROP_RTR_ROUTE_LOOP
  deriving DecidableEq, Repr

/-- What the agent does with a packet. -/
inductive Fate
  | schedule (p : Packet)
  | drop (p : Packet) (reason : DropReason)
  | free (p : Packet)
  deriving DecidableEq, Repr

structure Agent where
  index : ℤ
  seqno : ℤ := 1
  /-- The vehicles in reach, with their time to live. -/
  neighbors : List (ℤ × ℕ) := []
  bufferMsgs : List Message := []
  deriving DecidableEq, Repr

inductive Event
  | recv (m : Message) (hm : m.header.ptype ≠ .PT_XFXVanets)
  /-- A packet of the protocol; `mobile` is whether the node has kind 2. -/
  | control (c : Control) (mobile : Bool) (distance : ℤ → ℤ → ℤ)
  | idPurge
  | helloTimer (mobile : Bool)

namespace Agent

/-- A message whose header says that it is for the node that hears it. -/
def normal (m : Message) : Message :=
  { m with header := { ptype := .PT_XFXVanets, rpType := .XFX_MSG_NORMAL, iface := -2, error := 0
                       addrNone := true, sport := RT_PORT, dport := RT_PORT } }

/-- `sendMsgStNodo`: a message without time to live is not sent, and it is the hello that is dropped. -/
def sendMsgStNodo (s : Agent) (hello : Control) : Agent × List Fate :=
  let toDelete := s.bufferMsgs.filter fun m => m.daddr = hello.saddr
  ({ s with bufferMsgs := s.bufferMsgs.filter fun m => ¬m.daddr = hello.saddr },
    toDelete.map fun m =>
      if m.ttl ≥ 0 then .schedule (.data (normal m)) else .drop (.control hello) .DROP_RTR_TTL)

/-- `forward`: the packet that carries a message to `ip`. -/
def forward (s : Agent) (sizes : Sizes) (ip : ℤ) (m : Message) : Control :=
  { type := .XFX_MSG_FORWARD, saddr := s.index, daddr := ip, sport := RT_PORT, dport := RT_PORT, ttl := 30
    size := IP_HDR_LEN + sizes.forward, rpDst := s.index, rpDstSeqno := s.seqno, data := some m }

/-- The vehicle `ip` is nearer to where the message goes. -/
def Nearer (s : Agent) (ip : ℤ) (distance : ℤ → ℤ → ℤ) (m : Message) : Prop :=
  distance ip m.daddr ≠ -1 ∧
    (distance s.index m.daddr = -1 ∨ distance s.index m.daddr > distance ip m.daddr)
  deriving Decidable

def sendMsgMinorDistance (s : Agent) (sizes : Sizes) (ip : ℤ) (distance : ℤ → ℤ → ℤ) :
    Agent × List Fate :=
  let toDelete := s.bufferMsgs.filter fun m => s.Nearer ip distance m
  ({ s with bufferMsgs := s.bufferMsgs.filter fun m => ¬s.Nearer ip distance m },
    toDelete.map fun m => .schedule (.control (s.forward sizes ip m)))

/-- The entry of a vehicle that has been heard. -/
def hear (id : ℤ) : List (ℤ × ℕ) → List (ℤ × ℕ)
  | [] => [(id, 3)]
  | v :: vs => if v.1 = id then (id, 3) :: vs else v :: hear id vs

def recvHelloMsg (s : Agent) (sizes : Sizes) (c : Control) (distance : ℤ → ℤ → ℤ) : Agent × List Fate :=
  let r := { s with neighbors := hear c.rpDst s.neighbors }.sendMsgMinorDistance sizes c.rpDst distance
  (r.1, r.2 ++ [.free (.control c)])

def handleForward (s : Agent) (c : Control) : Agent :=
  { s with bufferMsgs := s.bufferMsgs ++ c.data.toList }

def recvXFX (s : Agent) (sizes : Sizes) (c : Control) (mobile : Bool) (distance : ℤ → ℤ → ℤ) :
    Option (Agent × List Fate) :=
  if c.sport = RT_PORT ∧ c.dport = RT_PORT then
    match c.type with
    | .XFX_MSG_HELLO_MOVEL => if mobile then some (s.recvHelloMsg sizes c distance) else some (s, [])
    | .XFX_MSG_HELLO_STATIC => some (s.sendMsgStNodo c)
    | .XFX_MSG_FORWARD => some (s.handleForward c, [])
    | _ => some (s, [])
  else none

/-- A data packet as `recv` leaves it. -/
def received (index : ℤ) (m : Message) : Message :=
  if m.saddr = index ∧ m.numForwards = 0 then
    if m.header.ptype ≠ .PT_TCP ∧ m.header.ptype ≠ .PT_ACK then { m with size := m.size + IP_HDR_LEN } else m
  else if m.saddr = index then m
  else { m with ttl := m.ttl - 1 }

/-- `recv` for a packet that is not one of the protocol. A packet that comes with no time to live
passes the test of the last branch. -/
def recv (s : Agent) (m : Message) : Agent × List Fate :=
  if m.saddr = s.index ∧ m.numForwards = 0 then
    ({ s with bufferMsgs := s.bufferMsgs ++ [received s.index m] }, [])
  else if m.saddr = s.index then (s, [.drop (.data (received s.index m)) .DROP_RTR_ROUTE_LOOP])
  else if (received s.index m).ttl = 0 then (s, [.drop (.data (received s.index m)) .DROP_RTR_TTL])
  else ({ s with bufferMsgs := s.bufferMsgs ++ [received s.index m] }, [])

/-- `id_purge`: an unsigned time to live is never below zero. -/
def idPurge (s : Agent) : Agent :=
  { s with neighbors := s.neighbors.map fun v => (v.1, (v.2 + (2 ^ 16 - 1)) % 2 ^ 16) }

def sendHello (s : Agent) (sizes : Sizes) (mobile : Bool) : Control :=
  { type := if mobile then .XFX_MSG_HELLO_MOVEL else .XFX_MSG_HELLO_STATIC, saddr := s.index
    daddr := IP_BROADCAST, sport := RT_PORT, dport := RT_PORT, ttl := 1, size := IP_HDR_LEN + sizes.reply
    rpDst := s.index, rpDstSeqno := s.seqno }

def step (sizes : Sizes) (s : Agent) : Event → Option (Agent × List Fate)
  | .recv m _ => some (s.recv m)
  | .control c mobile distance => s.recvXFX sizes { c with ttl := c.ttl - 1 } mobile distance
  | .idPurge => some (s.idPurge, [])
  | .helloTimer mobile => some (s, [.schedule (.control (s.sendHello sizes mobile))])

end Agent
end NetworkSimulator.Vanets
