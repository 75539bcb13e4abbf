import Mathlib.Algebra.Order.Field.Rat
import Mathlib.Data.List.Basic

/-!
# The WFRP routing agent

A sink sends beacons in rounds. A node keeps one route for each sink, with the sequence number of the
round and the hop count, and passes on each beacon that brings a new round. Data packets follow the
routes.
-/

namespace NetworkSimulator.Wfrp

def NETWORK_DIAMETER : ℤ := 64
def DEFAULT_BEACON_INTERVAL : ℚ := 10
def DEFAULT_ROUTE_EXPIRE : ℚ := 2 * DEFAULT_BEACON_INTERVAL
def IP_BROADCAST : ℤ := -1
def IP_HDR_LEN : ℕ := 20
def RT_PORT : ℕ := 255
def WFRP_BEACON : ℕ := 1
def WFRP_ERROR : ℕ := 2

inductive RouteState
  | ROUTE_FRESH
  | ROUTE_EXPIRED
  | ROUTE_FAILED
  deriving DecidableEq, Repr

inductive PacketType
  | PT_WFRP
  | PT_TCP
  | PT_ACK
  | other
  deriving DecidableEq, Repr

inductive AddrType
  | NS_AF_NONE
  | NS_AF_INET
  deriving DecidableEq, Repr

inductive Direction
  | DOWN
  | NONE
  | UP
  deriving DecidableEq, Repr

/-- `hdr_wfrp_beacon`, with a hop count of eight bits. -/
structure Beacon where
  hops : ℕ := 0
  id : ℕ := 0
  src : ℤ := 0
  posx : ℕ := 0
  posy : ℕ := 0
  deriving DecidableEq, Repr

/-- The headers of a packet. The beacon is there whatever the type of the packet is. -/
structure Packet where
  ptype : PacketType := .other
  size : ℕ := 0
  numForwards : ℕ := 0
  prevHop : ℤ := 0
  nextHop : ℤ := 0
  addrType : AddrType := .NS_AF_NONE
  direction : Direction := .NONE
  saddr : ℤ := 0
  daddr : ℤ := 0
  sport : ℕ := RT_PORT
  dport : ℕ := RT_PORT
  ttl : ℤ := NETWORK_DIAMETER
  pktType : ℕ := WFRP_BEACON
  beacon : Beacon := {}
  deriving DecidableEq, Repr

structure RouteCache where
  dst : ℤ
  seqno : ℕ
  nexthop : ℤ
  xpos : ℕ
  ypos : ℕ
  state : RouteState
  hopcount : ℕ
  expire : ℚ
  deriving DecidableEq, Repr

inductive DropReason
  | DROP_RTR_TTL
  | DROP_RTR_ROUTE_LOOP
  deriving DecidableEq, Repr

/-- What the agent does with a packet. -/
inductive Fate
  | free (p : Packet)
  | drop (p : Packet) (reason : DropReason)
  | schedule (p : Packet) (delay : ℚ)
  deriving DecidableEq, Repr

/-- The agent. `sizeof (hdr_wfrp_beacon)` is a parameter of `sendBeacon`. -/
structure Agent where
  index : ℤ
  seqno : ℕ := 1
  rthead : List RouteCache := []
  posx : ℕ := 0
  posy : ℕ := 0
  deriving DecidableEq, Repr

namespace Agent

/-- `send_beacon`: the packet for `target_`. -/
def sendBeacon (s : Agent) (size : ℕ) : Agent × Packet :=
  ({ s with seqno := (s.seqno + 1) % 2 ^ 32 },
    { ptype := .PT_WFRP, size := IP_HDR_LEN + size, addrType := .NS_AF_NONE, prevHop := s.index
      saddr := s.index, daddr := IP_BROADCAST, sport := RT_PORT, dport := RT_PORT
      ttl := NETWORK_DIAMETER, pktType := WFRP_BEACON
      beacon := { hops := 1, id := s.seqno, src := s.index, posx := s.posx, posy := s.posy } })

/-- `forward`: a packet without time to live is dropped, and then sent all the same. -/
def forward (s : Agent) (p : Packet) (nexthop : ℤ) (delay : ℚ) : Option (List Fate) :=
  let dropped : List Fate := if p.ttl = 0 then [.drop p .DROP_RTR_TTL] else []
  if nexthop ≠ IP_BROADCAST then
    some (dropped ++ [.schedule { p with
      nextHop := nexthop, prevHop := s.index, addrType := .NS_AF_INET, direction := .DOWN } delay])
  else if p.daddr = IP_BROADCAST then
    some (dropped ++ [.schedule { p with
      prevHop := s.index, addrType := .NS_AF_NONE, direction := .DOWN } delay])
  else none

def rtLookup (s : Agent) (dst : ℤ) : Option RouteCache :=
  s.rthead.find? fun rt => rt.dst = dst

def rtInsert (s : Agent) (b : Beacon) (nexthop : ℤ) (now : ℚ) : Agent :=
  { s with rthead :=
    { dst := b.src, seqno := b.id, nexthop := nexthop, xpos := b.posx, ypos := b.posy
      state := .ROUTE_FRESH, hopcount := b.hops, expire := now + DEFAULT_ROUTE_EXPIRE } :: s.rthead }

/-- What a newer or shorter beacon writes into the entry. -/
def refresh (b : Beacon) (nexthop : ℤ) (now : ℚ) (rt : RouteCache) : RouteCache :=
  { rt with
    seqno := b.id, nexthop := nexthop, xpos := b.posx, ypos := b.posy
    state := .ROUTE_FRESH, hopcount := b.hops, expire := now + DEFAULT_ROUTE_EXPIRE }

/-- An assignment through the pointer that `rt_lookup` has returned. -/
def assign (dst : ℤ) (f : RouteCache → RouteCache) : List RouteCache → List RouteCache
  | [] => []
  | rt :: rts => if rt.dst = dst then f rt :: rts else rt :: assign dst f rts

def rtRefresh (s : Agent) (b : Beacon) (nexthop : ℤ) (now : ℚ) : Agent :=
  { s with rthead := assign b.src (refresh b nexthop now) s.rthead }

def rtPurge (s : Agent) (now : ℚ) : Agent :=
  { s with rthead := s.rthead.map fun rt =>
    if rt.expire ≤ now then { rt with state := .ROUTE_EXPIRED } else rt }

/-- The beacon with which a node passes a round on. -/
def passOn (s : Agent) (p : Packet) : Packet :=
  { p with saddr := s.index, beacon := { p.beacon with hops := (p.beacon.hops + 1) % 2 ^ 8 } }

/-- `recv_beacon`; `r` is the random part of the delay. -/
def recvBeacon (s : Agent) (p : Packet) (now r : ℚ) : Option (Agent × List Fate) :=
  let b := p.beacon
  if b.src = s.index then some (s, [.free p])
  else
    match s.rtLookup b.src with
    | none =>
      (s.forward (s.passOn p) IP_BROADCAST (1 / 10 + r)).map fun fates =>
        (s.rtInsert b p.saddr now, fates)
    | some rt =>
      if rt.seqno < b.id then
        (s.forward (s.passOn p) IP_BROADCAST (1 / 10 + r)).map fun fates =>
          (s.rtRefresh b p.saddr now, fates)
      else if b.id = rt.seqno ∧ b.hops < rt.hopcount then
        some (s.rtRefresh b p.saddr now, [])
      else some (s, [])

/-- `recv_wfrp`: the asserts on the ports, and an exit on an unknown type. `recv_error` is empty. -/
def recvWfrp (s : Agent) (p : Packet) (now r : ℚ) : Option (Agent × List Fate) :=
  if p.sport = RT_PORT ∧ p.dport = RT_PORT then
    if p.pktType = WFRP_BEACON then s.recvBeacon p now r
    else if p.pktType = WFRP_ERROR then some (s, [])
    else none
  else none

def recvData (s : Agent) (p : Packet) : Option (Agent × List Fate) :=
  match s.rtLookup p.daddr with
  | none => some (s, [])
  | some rt =>
    if rt.state ≠ .ROUTE_FAILED then (s.forward p rt.nexthop 0).map fun fates => (s, fates)
    else some (s, [])

def recv (s : Agent) (p : Packet) (now r : ℚ) : Option (Agent × List Fate) :=
  if p.ptype = .PT_WFRP then s.recvWfrp { p with ttl := p.ttl - 1 } now r
  else if p.saddr = s.index ∧ p.numForwards = 0 then
    if p.ptype ≠ .PT_TCP ∧ p.ptype ≠ .PT_ACK then s.recvData { p with size := p.size + IP_HDR_LEN }
    else s.recvData p
  else if p.saddr = s.index then some (s, [.drop p .DROP_RTR_ROUTE_LOOP])
  else if p.ttl - 1 = 0 then some (s, [.drop { p with ttl := p.ttl - 1 } .DROP_RTR_TTL])
  else s.recvData { p with ttl := p.ttl - 1 }

end Agent
end NetworkSimulator.Wfrp
