import NetworkSimulator.Library.Ring
import Mathlib.Algebra.Order.Ring.Rat
import Mathlib.Data.BitVec

/-!
# The packet cache of a Snoop agent

A base station caches the TCP packets that it forwards to a wireless host, watches the ACKs that come back, and
sends a packet again itself when it seems lost on the wireless link. The data of the other direction, the
round-trip estimates and the durations of the timer are left out.
-/

namespace NetworkSimulator
open Library

def SNOOP_FULL : BitVec 16 := 0x08

def SNOOP_CLOSED : BitVec 16 := 0x02

def SNOOP_NOACK : BitVec 16 := 0x04

def SNOOP_ALIVE : BitVec 16 := 0x20

def SNOOP_MAXWIND : ℕ := 100

def SNOOP_MAX_RXMIT : ℕ := 10

def RTX_THRESH : ℕ := 1

/-- What becomes of an ACK. -/
inductive SnoopVerdict
  | propagate
  | suppress
  deriving DecidableEq

/-- A cached packet with its Snoop header. -/
structure SnoopPacket where
  /-- The sequence number in the TCP header. -/
  tcpSeqno : ℤ
  seqno : ℤ
  numRxmit : ℕ
  senderRxmit : Bool
  sndTime : ℚ
  deriving DecidableEq

structure SnoopConfig where
  maxbufs : ℕ
  pos : 0 < maxbufs
  fits : maxbufs ≤ SNOOP_MAXWIND
  lru : Bool

structure Snoop where
  fstate : BitVec 16
  lastSeen : ℤ
  lastAck : ℤ
  expNextAck : ℕ
  expDupacks : ℤ
  /-- The next packet goes here. -/
  bufhead : ℕ
  toutPending : Bool
  /-- The first packet that has not been acknowledged. -/
  buftail : ℕ
  pkts : ℕ → Option SnoopPacket
  /-- The count of duplicate ACKs in `snoop_ack`, which all agents share. -/
  thresh : ℕ

namespace Snoop
variable (cfg : SnoopConfig) (s : Snoop)

def init : Snoop := ⟨0, -1, -1, 0, 0, 0, false, 0, fun _ => none, 0⟩

def reset : Snoop := { init with thresh := s.thresh }

def next (i : ℕ) : ℕ := Ring.next cfg.maxbufs i

def prev (i : ℕ) : ℕ := Ring.prev cfg.maxbufs i

/-- `fstate_ & bit` -/
def has (bit : BitVec 16) : Bool := s.fstate &&& bit ≠ 0

def empty : Bool := s.bufhead = s.buftail ∧ ¬s.has SNOOP_FULL

def setPkt (i : ℕ) (p : Option SnoopPacket) : Snoop := { s with pkts := Function.update s.pkts i p }

def savepkt (now : ℚ) (seq : ℤ) (i : ℕ) : Snoop := s.setPkt i (some ⟨seq, seq, 0, false, now⟩)

/-- Where the search of `snoop_insert` through the cache ends. -/
inductive Position
  | cached (i : ℕ) (sh : SnoopPacket)
  | before (i : ℕ)
  | atEnd

/-- The search for `seq` from slot `i` on, `none` where it meets a slot without a packet. -/
def search (seq : ℤ) : ℕ → ℕ → Option Position
  | 0, _ => none
  | fuel + 1, i =>
    if i = s.bufhead then some .atEnd
    else match s.pkts i with
      | none => none
      | some sh =>
        if sh.seqno = seq then some (.cached i sh)
        else if sh.seqno > seq then some (.before i)
        else search seq fuel (next cfg i)

/-- The tail leaves a full cache. -/
def makeRoom : Option Snoop :=
  if s.has SNOOP_FULL then
    (s.pkts s.buftail).map fun _ =>
      { s with
        pkts := Function.update s.pkts s.buftail none
        buftail := next cfg s.buftail
        fstate := s.fstate ||| ~~~SNOOP_FULL }
  else some s

/-- Room for a packet in front of slot `i`. -/
def openSlot (i : ℕ) : Snoop :=
  let temp := s.pkts (prev cfg s.buftail)
  { s with
    pkts := Function.update (Ring.shift cfg.maxbufs i cfg.maxbufs s.buftail s.pkts) (prev cfg i) temp
    buftail := prev cfg s.buftail }

def markFull : Snoop :=
  if s.bufhead = s.buftail then { s with fstate := s.fstate ||| SNOOP_FULL } else s

/-- `snoop_insert` from where the packet is saved in slot `i` on; it returns whether the timer is to start anew. -/
def store (now : ℚ) (seq : ℤ) (i : ℕ) : Option (Snoop × Bool) :=
  let s := (s.savepkt now seq i).markFull
  if seq < s.lastSeen then
    (if s.buftail = i then
        (s.pkts i).map fun sh => s.setPkt i (some { sh with senderRxmit := true, numRxmit := 0 })
      else some s).map fun s => ({ s with expNextAck := s.buftail }, true)
  else some ({ s with lastSeen := seq }, false)

/-- `snoop_insert` once there is room. -/
def place (now : ℚ) (seq : ℤ) : Option (Snoop × Bool) :=
  if seq > s.lastSeen ∨ s.pkts s.buftail = none then
    { s with bufhead := next cfg s.bufhead }.store now seq s.bufhead
  else (s.pkts s.buftail).bind fun first =>
    if seq < first.seqno then
      { s with buftail := prev cfg s.buftail }.store now seq (prev cfg s.buftail)
    else (s.search cfg seq cfg.maxbufs s.buftail).bind fun
      | .cached i sh =>
        some (s.setPkt i (some { sh with numRxmit := 0, senderRxmit := true, sndTime := now }), true)
      | .before i => (s.openSlot cfg i).store now seq (prev cfg i)
      | .atEnd => { s with bufhead := next cfg s.bufhead }.store now seq s.bufhead

def snoopInsert (now : ℚ) (seq : ℤ) : Option (Snoop × Bool) :=
  if seq ≤ s.lastAck then some (s, false)
  else (s.makeRoom cfg).bind fun s => s.place cfg now seq

/-- The timer is set for the packet at the tail. -/
def schedTail : Option Snoop :=
  if s.empty then some s else (s.pkts s.buftail).map fun _ => { s with toutPending := true }

/-- A connection that starts again is reset. -/
def alive (seq : ℤ) : Snoop :=
  let s := if s.has SNOOP_ALIVE ∧ seq = 0 then s.reset else s
  { s with fstate := s.fstate ||| SNOOP_ALIVE }

/-- `snoop_data`; `room` says whether the interface queue has room. -/
def snoopData (now : ℚ) (room : Bool) (seq : ℤ) : Option Snoop :=
  let s := s.alive seq
  if s.has SNOOP_FULL ∧ ¬cfg.lru then
    some (if seq > s.lastSeen then { s with lastSeen := seq } else s)
  else (if room then s.snoopInsert cfg now seq else some (s, false)).bind fun (s, resetPending) =>
    if s.toutPending ∧ ¬resetPending then some s else { s with toutPending := false }.schedTail

/-- The loop of `snoop_cleanbufs_` from slot `i` on, with the slot where it ends and the time at which the last
packet freed was sent. -/
def cleanLoop (ack : ℤ) : ℕ → Snoop → ℕ → ℚ → Option (Snoop × ℕ × ℚ)
  | 0, _, _, _ => none
  | fuel + 1, s, i, sndTime =>
    (s.pkts i).bind fun sh =>
      if sh.tcpSeqno ≤ ack then
        let s := { s with pkts := Function.update s.pkts i none, fstate := s.fstate &&& ~~~SNOOP_FULL }
        if next cfg i ≠ s.bufhead then cleanLoop ack fuel s (next cfg i) sh.sndTime
        else some (s, next cfg i, sh.sndTime)
      else some (s, i, sndTime)

/-- The tail moves to slot `i`, where the loop has ended. -/
def moveTail (i : ℕ) : Snoop :=
  if i ≠ s.buftail ∨ s.bufhead ≠ s.buftail then
    { s with fstate := s.fstate &&& ~~~SNOOP_FULL, buftail := i }
  else s

/-- `snoop_cleanbufs_`, which returns -1 when no packet has been freed. -/
def snoopCleanbufs (ack : ℤ) : Option (Snoop × ℚ) :=
  let s := { s with toutPending := false }
  if s.empty then some (s, -1)
  else (cleanLoop cfg ack cfg.maxbufs s s.buftail (-1)).bind fun r =>
    (r.1.moveTail r.2.1).schedTail.map (·, r.2.2)

/-- `snoop_rxmit` of the packet in slot `i`. -/
def snoopRxmit (now : ℚ) (i : ℕ) (sh : SnoopPacket) : Snoop × SnoopVerdict :=
  if sh.numRxmit < SNOOP_MAX_RXMIT then
    ({ s.setPkt i (some { sh with sndTime := now, numRxmit := sh.numRxmit + 1 }) with toutPending := true },
      .suppress)
  else (s, .propagate)

/-- The duplicate ACKs that are still to come for the packets sent after the lost one. -/
def dupacksToCome : ℤ :=
  let d : ℤ := s.bufhead - s.expNextAck
  (if d < 0 then d + SNOOP_MAXWIND else d) - (RTX_THRESH + 1)

/-- A duplicate ACK for which the packet `sh` at the tail is in the cache. -/
def snoopDupack (now : ℚ) (sh : SnoopPacket) : Snoop × SnoopVerdict :=
  if s.expDupacks = 0 then
    if s.thresh < RTX_THRESH then ({ s with thresh := s.thresh + 1 }, .propagate)
    else
      let s := { s with thresh := 0 }
      if sh.senderRxmit then (s, .propagate)
      else
        let s := { s with expDupacks := s.dupacksToCome, expNextAck := next cfg s.buftail }
        if sh.numRxmit = 0 then s.snoopRxmit now s.buftail sh else (s, .propagate)
  else if s.expDupacks > 0 then ({ s with expDupacks := s.expDupacks - 1 }, .suppress)
  else if s.expDupacks = -1 ∧ sh.numRxmit < 2 then s.snoopRxmit now s.buftail sh
  else (s, .propagate)

def snoopAck (now : ℚ) (ack : ℤ) : Option (Snoop × SnoopVerdict) :=
  if s.has SNOOP_CLOSED ∨ s.lastAck > ack then some (s, .propagate)
  else if s.lastAck = ack then
    match s.pkts s.buftail with
    | none => some (s, .propagate)
    | some sh => if sh.seqno > ack + 1 then some (s, .propagate) else some (s.snoopDupack cfg now sh)
  else
    (snoopCleanbufs cfg { s with fstate := s.fstate &&& ~~~SNOOP_NOACK } ack).map fun (s, _) =>
      ({ s with expDupacks := 0, expNextAck := s.buftail, lastAck := ack }, .propagate)

/-- `SnoopRxmitHandler::handle` -/
def rxmitTimeout (now : ℚ) : Snoop :=
  let s := { s with toutPending := false }
  match s.pkts s.buftail with
  | none => s
  | some sh =>
    if sh.seqno ≠ s.lastAck + 1 then s
    else if s.bufhead ≠ s.buftail ∨ s.has SNOOP_FULL then
      let r := s.snoopRxmit now s.buftail sh
      if r.2 = .suppress then { r.1 with expNextAck := next cfg r.1.buftail } else r.1
    else s

end Snoop

inductive SnoopEvent
  | data (room : Bool) (seq : ℤ)
  | ack (ack : ℤ)
  | timeout
  /-- Another agent leaves its count of duplicate ACKs. -/
  | shared (thresh : ℕ)
  deriving DecidableEq

/-- An event at a time. -/
def Snoop.step (cfg : SnoopConfig) (s : Snoop) : ℚ × SnoopEvent → Option (Snoop × Option SnoopVerdict)
  | (now, .data room seq) => (s.snoopData cfg now room seq).map (·, none)
  | (now, .ack ack) => (s.snoopAck cfg now ack).map fun r => (r.1, some r.2)
  | (now, .timeout) => some (s.rxmitTimeout cfg now, none)
  | (_, .shared thresh) => some ({ s with thresh := thresh }, none)

end NetworkSimulator
