import NetworkSimulator.Library.Loops
import Mathlib.Algebra.Order.Ring.Rat
import Mathlib.Logic.Function.Basic

/-!
# The acknowledgements of a TCP sink

`Acker` records the packets that have arrived in a ring, and `Sacker` reports blocks of them: a D-SACK block
for a duplicate, the block of the packet that has just arrived, and blocks of its history. The time stamps to
echo, ECN and QuickStart are left out.
-/

namespace NetworkSimulator
open Library

def MWS : ℕ := 64

def MWM : ℕ := MWS - 1

/-- The number of SACK blocks that the TCP header can take. -/
def NSA : ℕ := 3

structure Acker where
  /-- The next packet expected. -/
  next : ℕ
  maxseen : ℕ
  wndmask : ℕ
  /-- The bytes of each packet seen, in a ring. -/
  seen : ℕ → ℕ
  isDup : Bool

namespace Acker
variable (a : Acker)

def init : Acker := ⟨0, 0, MWM, fun _ => 0, false⟩

def reset : Acker :=
  { a with next := 0, maxseen := 0, seen := fun i => if i < a.wndmask + 1 then 0 else a.seen i }

/-- The last packet in order, -1 before the first. -/
def seqno : ℤ := a.next - 1

/-- `seen_[i & wndmask_]` -/
def seenAt (i : ℕ) : ℕ := a.seen (i &&& a.wndmask)

def setSeen (i numBytes : ℕ) : Acker :=
  { a with seen := Function.update a.seen (i &&& a.wndmask) numBytes }

def resizeBuffers (sz : ℕ) : Acker :=
  { a with
    seen := forLoop a.next (a.maxseen + 2)
      (fun i seen => Function.update seen (i &&& (sz - 1)) (a.seenAt i)) fun _ => 0
    wndmask := sz - 1 }

/-- Double the ring until `seq` fits into it. -/
def grow (seq : ℕ) : ℕ → Acker → Acker
  | 0, a => a
  | fuel + 1, a =>
    if seq + 1 ≥ a.next + a.wndmask then grow seq fuel (a.resizeBuffers ((a.wndmask + 1) * 2)) else a

/-- Step over the packets in order, and add up their bytes. -/
def deliver : ℕ → ℕ → ℕ → ℕ × ℕ
  | 0, next, numToDeliver => (next, numToDeliver)
  | fuel + 1, next, numToDeliver =>
    if a.seenAt next ≠ 0 then deliver fuel (next + 1) (numToDeliver + a.seenAt next)
    else (next, numToDeliver)

/-- The highest packet so far: the ones it has skipped, and the one after it, have not been seen. -/
def markHighest (seq numBytes : ℕ) : Acker :=
  let a := forLoop (a.maxseen + 1) seq (fun i a => a.setSeen i 0) a
  let a := { a with maxseen := seq }
  (a.setSeen seq numBytes).setSeen (seq + 1) 0

/-- `update`, with the number of bytes that can be delivered. -/
def update (seq numBytes : ℕ) : Acker × ℕ :=
  let a := grow seq (seq + 2) { a with isDup := false }
  let justMarkedAsSeen := decide (seq > a.maxseen)
  let a := if seq > a.maxseen then a.markHighest seq numBytes else a
  let a := if seq < a.next then { a with isDup := true } else a
  if seq ≥ a.next ∧ seq ≤ a.maxseen then
    let a := if a.seenAt seq ≠ 0 ∧ ¬justMarkedAsSeen then { a with isDup := true } else a
    let a := a.setSeen seq numBytes
    let r := a.deliver (a.maxseen + 2 - a.next) a.next 0
    ({ a with next := r.1 }, r.2)
  else (a, 0)

/-- The first hole from packet `i` on, or else the packet after the last one seen. -/
def holeRight (i : ℕ) : ℕ :=
  ((List.range' i (a.maxseen + 1 - i)).find? fun i => a.seenAt i = 0).getD (a.maxseen + 1)

/-- The packet after the first hole below `i`, above the packets in order; -1 if there is none. -/
def holeLeft : ℕ → ℤ
  | 0 => -1
  | i + 1 => if (i : ℤ) > a.seqno then if a.seenAt i = 0 then i + 1 else holeLeft i else -1

end Acker

/-- The packets from `left` up to, but not including, `right`. -/
structure SackBlock where
  left : ℤ
  right : ℤ
  deriving DecidableEq

/-- `SackStack` with its entries from the top; below them all edges are -1. -/
structure SackStack where
  size : ℕ
  entries : List SackBlock

namespace SackStack
variable (sf : SackStack)

def reset : SackStack := { sf with entries := [] }

/-- A new top; the last entry goes when the stack is full. -/
def push (b : SackBlock) : SackStack := { sf with entries := b :: sf.entries.take (sf.size - 1) }

end SackStack

structure Sacker where
  acker : Acker
  baseNblocks : ℕ
  /-- Generate D-SACK blocks. -/
  dsacks : Bool
  sf : SackStack

namespace Sacker
variable (s : Sacker)

/-- `configure`, with at most `NSA` blocks. -/
def configure (nblocks : ℕ) (dsacks : Bool) : Sacker :=
  let nblocks := if nblocks > NSA then NSA else nblocks
  ⟨Acker.init, nblocks, dsacks, ⟨nblocks, []⟩⟩

def reset : Sacker := { s with acker := s.acker.reset, sf := s.sf.reset }

/-- The loop over the history, with the entries from position `k` on and the blocks so far: an entry that the
most recent block covers is popped, the others are reported while there is room. -/
def others (recent : SackBlock) : List SackBlock → List SackBlock → List SackBlock × List SackBlock
  | [], blocks => ([], blocks)
  | e :: rest, blocks =>
    if blocks.length < s.baseNblocks then
      if e.left < 0 ∨ e.right < 0 ∨ e.right > s.acker.maxseen + 1 then (e :: rest, blocks)
      else if recent.left ≤ e.left ∧ recent.right ≥ e.right then others recent rest blocks
      else
        let r := others recent rest (blocks ++ [e])
        (e :: r.1, r.2)
    else (e :: rest, blocks)

/-- `append_ack`, with the blocks that it writes into the header. -/
def appendAck (oldSeqno : ℕ) : Sacker × List SackBlock :=
  let a := s.acker
  if a.seqno ≥ a.maxseen ∧ s.sf.entries.length ≠ 0 then ({ s with sf := s.sf.reset }, [])
  else if (a.seqno < a.maxseen ∨ a.isDup) ∧ s.baseNblocks > 0 then
    let blocks : List SackBlock := if s.dsacks ∧ a.isDup then [⟨oldSeqno, oldSeqno + 1⟩] else []
    -- "can't use DSACK with less than 2 SACK blocks"
    if blocks.length ≥ s.baseNblocks then (s, blocks)
    else
      let sackRight := a.holeRight oldSeqno
      let recent : SackBlock := ⟨if oldSeqno ≤ a.seqno then 0 else a.holeLeft sackRight, sackRight⟩
      let blocks := if oldSeqno ≤ a.seqno then blocks else blocks ++ [recent]
      let r := s.others recent s.sf.entries blocks
      let sf := { s.sf with entries := r.1 }
      ({ s with sf := if oldSeqno > a.seqno then sf.push recent else sf }, r.2)
  else (s, [])

end Sacker

structure SinkPacket where
  seqno : ℕ
  size : ℕ
  ts : ℚ

structure SinkAck where
  seqno : ℤ
  sack : List SackBlock

/-- `TcpSink` with a `Sacker`. -/
structure TcpSink where
  acker : Sacker
  lastreset : ℚ

inductive SinkEvent
  | recv (pkt : SinkPacket)
  | reset (now : ℚ)

namespace TcpSink
variable (s : TcpSink)

/-- `recv` with the ACK, unless the packet is from a previous incarnation. -/
def recv (pkt : SinkPacket) : TcpSink × Option SinkAck :=
  if pkt.ts < s.lastreset then (s, none)
  else
    let acker := { s.acker with acker := (s.acker.acker.update pkt.seqno pkt.size).1 }
    let r := acker.appendAck pkt.seqno
    ({ s with acker := r.1 }, some ⟨acker.acker.seqno, r.2⟩)

def reset (now : ℚ) : TcpSink := ⟨s.acker.reset, now⟩

def step (s : TcpSink) : SinkEvent → Option (TcpSink × Option SinkAck)
  | .recv pkt => some (s.recv pkt)
  | .reset now => some (s.reset now, none)

end TcpSink

end NetworkSimulator
