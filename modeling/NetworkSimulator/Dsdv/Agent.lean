import NetworkSimulator.Library.SortedMap
import Mathlib.Algebra.Order.Ring.Rat
import Mathlib.Data.Rat.Defs
import Mathlib.Tactic.Common

/-!
# The DSDV agent

A route is known by the next hop, the metric and the sequence number that its destination has chosen. A
route of metric `BIG` is broken, and the packets for its destination wait in its queue.
-/

namespace NetworkSimulator.Dsdv
open Library

def BIG : ℕ := 250
def MAX_QUEUE_LENGTH : ℕ := 5
def ROUTER_PORT : ℤ := 255
def IP_DEF_TTL : ℤ := 32
def DSDV_FAR_AHEAD : ℚ := 604800

abbrev NsAddr := {a : ℤ // -2147483648 ≤ a ∧ a < 2147483648}

def IP_BROADCAST : NsAddr := ⟨-1, by decide⟩

structure Packet where
  uid : ℕ
  saddr : NsAddr
  daddr : NsAddr
  dport : ℤ
  ttl : ℤ
  num_forwards : ℕ
  data : List UInt8
  deriving DecidableEq

/-- `rtable_ent` without its `dst`, which is its key in the table. An event is its number. -/
structure Entry where
  hop : NsAddr
  metric : ℕ
  seqnum : UInt32
  advertise_ok_at : ℚ
  advert_seqnum : Bool
  advert_metric : Bool
  trigger_event : Option ℕ
  last_advertised_metric : ℕ
  changed_at : ℚ
  new_seqnum_at : ℚ
  wst : ℚ
  timeout_event : Option ℕ
  q : Option (List Packet)
  deriving DecidableEq

abbrev RoutingTable := SortedMap NsAddr Entry

/-- An entry after `bzero`. -/
def Entry.zero : Entry :=
  ⟨⟨0, by decide⟩, 0, 0, 0, false, false, none, 0, 0, 0, 0, none, none⟩

inductive DropReason
  | DROP_RTR_QFULL
  | DROP_RTR_ROUTE_LOOP
  | DROP_RTR_TTL
  deriving DecidableEq

/-- Where a packet has gone. -/
inductive Fate
  | sent (p : Packet) (next_hop : NsAddr)
  | broadcast (p : Packet)
  | demuxed (p : Packet)
  | dropped (p : Packet) (reason : DropReason)
  | freed (p : Packet)
  deriving DecidableEq

def Fate.packet : Fate → Packet
  | sent p _ | broadcast p | demuxed p | dropped p _ | freed p => p

/-- The addresses and constants of an agent. -/
structure Env where
  myaddr_ : NsAddr
  nodeaddr : NsAddr → NsAddr
  diff_subnet : NsAddr → Bool
  base_stn : NsAddr
  alpha_ : ℚ
  wst0_ : ℚ
  perup_ : ℚ
  min_update_periods_ : ℚ

structure Agent where
  table : RoutingTable
  seqno_ : UInt32
  periodic_callback_ : Option ℕ
  nextEvent : ℕ
  scheduled : List (ℕ × ℚ)
  fates : List Fate

structure Advert where
  dst : NsAddr
  metric : UInt8
  seqnum : UInt32
  deriving DecidableEq

/-! ### The data of an update -/

/-- A word that is read with `x << 8 | *(w++)`. -/
def readWord (b₀ b₁ b₂ b₃ : UInt8) : ℕ :=
  ((b₀.toNat * 256 + b₁.toNat) * 256 + b₂.toNat) * 256 + b₃.toNat

/-- The word as an `int`. -/
def toNsAddr (w : ℕ) : NsAddr :=
  ⟨Int.bmod w 4294967296, Int.le_bmod (by decide), Int.bmod_lt (by decide)⟩

def readAdverts : ℕ → List UInt8 → Option (List Advert)
  | 0, _ => some []
  | i + 1, d₀ :: d₁ :: d₂ :: d₃ :: metric :: s₀ :: s₁ :: s₂ :: s₃ :: w =>
    (readAdverts i w).map fun adverts =>
      ⟨toNsAddr (readWord d₀ d₁ d₂ d₃), metric, UInt32.ofNat (readWord s₀ s₁ s₂ s₃)⟩ :: adverts
  | _ + 1, _ => none

/-- What the loop of `processUpdate` reads, where it does not read past the end of the data. -/
def readUpdate : List UInt8 → Option (List Advert)
  | [] => none
  | count :: w => readAdverts count.toNat w

/-- `rte.metric` when it has been incremented. -/
def Advert.incremented (adv : Advert) : ℕ :=
  if adv.metric.toNat ≠ BIG then adv.metric.toNat + 1 else BIG

namespace Agent

/-- Cancels an event, or makes a new one, and schedules it. -/
def schedule (a : Agent) (event : Option ℕ) (t : ℚ) : ℕ × Agent :=
  let e := event.getD a.nextEvent
  (e, { a with
    scheduled := (e, t) :: a.scheduled.filter (·.1 ≠ e)
    nextEvent := if event.isNone then a.nextEvent + 1 else a.nextEvent })

/-- `RoutingTable::AddEntry`; `none` is its assertion. -/
def AddEntry (a : Agent) (dst : NsAddr) (ent : Entry) : Option Agent :=
  if ent.metric ≤ BIG then some { a with table := a.table.set dst ent } else none

def dispose (a : Agent) (f : Fate) : Agent := { a with fates := a.fates ++ [f] }

/-- `rte.q->deque()`, where the entry of the table has the same queue. -/
def deque (a : Agent) (dst : NsAddr) : Option (Packet × Agent) :=
  (a.table.find dst).bind fun prte =>
    match prte.q with
    | some (p :: rest) => some (p, { a with table := a.table.set dst { prte with q := some rest } })
    | _ => none

variable (env : Env) (now : ℚ)

def needTriggeredUpdate (a : Agent) (dst : NsAddr) (prte : Entry) (t : ℚ) : Option Agent :=
  if t < now then none
  else
    let (e, a) := a.schedule prte.trigger_event t
    some { a with table := a.table.set dst { prte with trigger_event := some e } }

/-! ### Packets -/

/-- The label `send` of `forwardPacket`. -/
def send (a : Agent) (p : Packet) (dst : NsAddr) (prte : Entry) : Agent :=
  a.dispose (.sent p (if prte.metric > 1 then prte.hop else dst))

/-- The packet is queued, and the oldest ones are dropped when there are too many. -/
def enque (a : Agent) (p : Packet) (dst : NsAddr) (prte : Entry) : Agent :=
  let q := prte.q.getD [] ++ [p]
  let excess := q.length - MAX_QUEUE_LENGTH
  { a with
    table := a.table.set dst { prte with q := some (q.drop excess) }
    fates := a.fates ++ (q.take excess).map fun p => .dropped p .DROP_RTR_QFULL }

def forwardPacket (a : Agent) (p : Packet) : Agent :=
  let dst := env.nodeaddr p.daddr
  if env.diff_subnet p.daddr then
    match (a.table.find dst).filter (·.metric ≠ BIG) with
    | some prte => a.send p dst prte
    | none =>
      match (a.table.find env.base_stn).filter (·.metric ≠ BIG) with
      | some prte => a.send p env.base_stn prte
      | none => a.dispose (.freed p)
  else
    match a.table.find dst with
    | some prte => if prte.metric ≠ BIG then a.send p dst prte else a.enque p dst prte
    | none =>
      let rte : Entry :=
        { Entry.zero with
          hop := dst
          metric := BIG
          seqnum := 0
          advertise_ok_at := now + DSDV_FAR_AHEAD
          changed_at := now
          new_seqnum_at := now
          wst := env.wst0_
          timeout_event := none
          q := some [p] }
      { a with table := a.table.set dst rte }

/-- The header after the first part of `recv`, or the drop. -/
def header (p : Packet) : Except Fate Packet :=
  let src := env.nodeaddr p.saddr
  if src = env.myaddr_ ∧ p.num_forwards = 0 then .ok { p with ttl := IP_DEF_TTL }
  else if src = env.myaddr_ then .error (.dropped p .DROP_RTR_ROUTE_LOOP)
  else
    let p := { p with ttl := p.ttl - 1 }
    if p.ttl = 0 then .error (.dropped p .DROP_RTR_TTL) else .ok p

/-- `recv`, where `processUpdate` is given. -/
def receive (processUpdate : Agent → Packet → Option Agent) (a : Agent) (p : Packet) : Option Agent :=
  match header env p with
  | .error f => some (a.dispose f)
  | .ok p =>
    let src := env.nodeaddr p.saddr
    if src ≠ env.myaddr_ ∧ p.dport = ROUTER_PORT then processUpdate a p
    else if p.daddr = IP_BROADCAST ∧ p.dport ≠ ROUTER_PORT then
      some (a.dispose (if src = env.myaddr_ then .broadcast p else .demuxed p))
    else some (a.forwardPacket env now p)

/-! ### Updates -/

/-- The candidate `rte` before the decision: the entry with what has been received written over it. -/
def candidate (hop : NsAddr) (prte : Option Entry) (adv : Advert) : Entry :=
  let rte := prte.getD .zero
  let (wst, new_seqnum_at) :=
    match prte with
    | none => (env.wst0_, now)
    | some prte =>
      if prte.seqnum = adv.seqnum then (prte.wst, prte.new_seqnum_at)
      else (env.alpha_ * prte.wst + (1 - env.alpha_) * (prte.changed_at - prte.new_seqnum_at), now)
  { rte with
    hop := hop
    metric := adv.incremented
    seqnum := adv.seqnum
    changed_at := now
    wst := wst
    new_seqnum_at := new_seqnum_at
    advertise_ok_at :=
      if adv.incremented ≠ BIG ∧ prte.all (·.metric ≠ BIG) then now + wst * 2 else now }

/-- `updateRoute`, and the block that triggers an update. -/
def updateRoute (a : Agent) (dst : NsAddr) (rte : Entry) (trigger_update : Bool) : Option (Agent × Entry) :=
  (a.AddEntry dst rte).bind fun a =>
    if trigger_update then (a.needTriggeredUpdate now dst rte rte.advertise_ok_at).map (·, rte)
    else some (a, rte)

/-- The decision whether to update the routing table, with the candidate as it is after it. -/
def learn (hop : NsAddr) (a : Agent) (adv : Advert) : Option (Agent × Entry) :=
  let rte := candidate env now hop (a.table.find adv.dst) adv
  match a.table.find adv.dst with
  | none =>
    if rte.metric < BIG then a.updateRoute now adv.dst { rte with advert_metric := true } true
    else a.updateRoute now adv.dst rte false
  | some prte =>
    let changing := decide (rte.metric ≠ prte.last_advertised_metric)
    if prte.seqnum = rte.seqnum then
      if rte.metric < prte.metric then
        a.updateRoute now adv.dst { rte with advert_metric := changing } changing
      else some (a, rte)
    else if prte.seqnum < rte.seqnum then
      a.updateRoute now adv.dst { rte with advert_seqnum := true, advert_metric := changing } false
    else if rte.metric = BIG ∧ prte.metric ≠ BIG then
      (a.needTriggeredUpdate now adv.dst { prte with advertise_ok_at := now, advert_metric := true } now).map
        (·, rte)
    else some (a, rte)

/-- The loop that gives the queued packets to `recv`. -/
def drain (recv : Agent → Packet → Option Agent) (dst : NsAddr) : ℕ → Agent → Option Agent
  | 0, _ => none
  | fuel + 1, a =>
    match a.deque dst with
    | none => some a
    | some (p, a) => (recv a p).bind (drain recv dst fuel)

/-- One destination mentioned in an update. -/
def processAdvert (recv : Agent → Packet → Option Agent) (fuel : ℕ) (hop : NsAddr) (a : Agent)
    (adv : Advert) : Option Agent :=
  if adv.dst = env.myaddr_ then
    match a.periodic_callback_ with
    | some e => some (if adv.incremented = BIG then (a.schedule (some e) now).2 else a)
    | none => some a
  else
    (a.learn env now hop adv).bind fun (a, rte) =>
      if rte.q.isSome ∧ rte.metric ≠ BIG then
        (drain recv adv.dst fuel a).bind fun a => a.AddEntry adv.dst { rte with q := none }
      else some a

def processAdverts (recv : Agent → Packet → Option Agent) (fuel : ℕ) (hop : NsAddr) (a : Agent)
    (adverts : List Advert) : Option Agent :=
  adverts.foldlM (processAdvert env now recv fuel hop) a

/-- The timeout of the neighbour starts again, with a fake advertisement if it is not in the table. -/
def restartTimeout (a : Agent) (neighbour : NsAddr) : Agent :=
  let prte := (a.table.find neighbour).getD
    { Entry.zero with
      hop := neighbour
      metric := 1
      advertise_ok_at := now + DSDV_FAR_AHEAD
      changed_at := now
      new_seqnum_at := now
      wst := env.wst0_ }
  let (e, a) := a.schedule prte.timeout_event (now + env.min_update_periods_ * env.perup_)
  { a with table := a.table.set neighbour { prte with timeout_event := some e } }

/-- The agent when the first `k` destinations of an update have been processed. -/
def afterAdverts (recv : Agent → Packet → Option Agent) (fuel : ℕ) (a : Agent) (p : Packet) (k : ℕ) :
    Option Agent :=
  (readUpdate p.data).bind fun adverts =>
    a.processAdverts env now recv fuel (env.nodeaddr p.saddr) (adverts.take k)

def processUpdate (recv : Agent → Packet → Option Agent) (fuel : ℕ) (a : Agent) (p : Packet) :
    Option Agent :=
  let neighbour := env.nodeaddr p.saddr
  (readUpdate p.data).bind fun adverts =>
    (a.processAdverts env now recv fuel neighbour adverts).map fun a =>
      (a.restartTimeout env now neighbour).dispose (.freed p)

/-- `recv`, with a bound on the rounds of its loops and on its calls of itself. -/
def recv : ℕ → Agent → Packet → Option Agent
  | 0, _, _ => none
  | fuel + 1, a, p => a.receive env now (fun a p => a.processUpdate env now (recv fuel) fuel p) p

end Agent

/-- Node 1, with flat addresses. -/
def flatEnv : Env := ⟨toNsAddr 1, id, fun _ => false, toNsAddr 0, 7 / 8, 6, 15, 3⟩

end NetworkSimulator.Dsdv
