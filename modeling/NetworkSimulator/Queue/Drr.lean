import NetworkSimulator.Library.Links
import Mathlib.Algebra.Order.Ring.Int

/-!
# Deficit round robin

The buckets with packets are linked in a ring. Each gets a quantum of bytes when its turn comes and keeps what it
has not used for the next one; when the buffer overflows, the longest bucket loses packets. A packet is its size;
the source addresses that are kept to report collisions are left out.
-/

namespace NetworkSimulator
open Library

structure DrrConfig where
  /-- The bytes allowed across all buckets. -/
  blimit : ℕ
  quantum : ℤ

structure PacketDRR where
  queue : List ℤ
  pkts : ℤ
  /-- The bytes in the bucket. -/
  bcount : ℤ
  deficitCounter : ℤ
  turn : Bool
  deriving DecidableEq

structure Drr where
  drr : ℕ → PacketDRR
  next : ℕ → Option ℕ
  prev : ℕ → Option ℕ
  /-- The bucket in turn, if there are packets. -/
  curr : Option ℕ
  bytecnt : ℤ
  pktcnt : ℤ
  /-- The number of buckets with packets. -/
  flwcnt : ℤ

/-- What can be seen of the scheduler from outside, and when it leaves a bucket. -/
inductive DrrTrace
  | activated (b : ℕ)
  | sent (b : ℕ) (size : ℤ)
  /-- The scheduler goes to the next bucket. -/
  | left (b : ℕ)
  | dropped (b : ℕ) (size : ℤ)
  /-- The bucket has no more packets. -/
  | idled (b : ℕ)
  deriving DecidableEq

namespace Drr
variable (cfg : DrrConfig) (s : Drr)

def init : Drr := ⟨fun _ => ⟨[], 0, 0, 0, false⟩, fun _ => none, fun _ => none, none, 0, 0, 0⟩

def setBucket (b : ℕ) (d : PacketDRR) : Drr := { s with drr := Function.update s.drr b d }

/-- `curr = q->activate(curr)` -/
def activate (q : ℕ) : Option Drr :=
  match s.curr with
  | some head =>
    (s.prev head).map fun p =>
      let s : Drr := { s with prev := Function.update s.prev q (some p), next := Function.update s.next q (some head) }
      { s with next := Function.update s.next p (some q), prev := Function.update s.prev head (some q) }
  | none =>
    some { s with
      prev := Function.update s.prev q (some q)
      next := Function.update s.next q (some q)
      curr := some q }

/-- The neighbours of `q` in the ring are tied to each other. -/
def unlink (q : ℕ) : Option Drr :=
  (s.next q).bind fun n =>
    let s : Drr := { s with prev := Function.update s.prev n (s.prev q) }
    (s.prev q).map fun p => { s with next := Function.update s.next p (s.next q) }

/-- `curr = q->idle(curr)` -/
def idle (q : ℕ) : Option Drr :=
  if s.curr = some q then
    if s.next q = some q then some { s with curr := none }
    else (s.unlink q).map fun s => { s with curr := s.next q }
  else s.unlink q

/-- The loop of `getMaxflow`. -/
def maxflow : ℕ → Option ℕ → ℕ → Option ℕ
  | 0, _, m => some m
  | n + 1, tmp, m => tmp.bind fun t => maxflow n (s.next t) (if (s.drr m).bcount < (s.drr t).bcount then t else m)

def getMaxflow : Option ℕ := s.curr.bind fun c => s.maxflow s.flwcnt.toNat (some c) c

/-- The first packet of a bucket leaves it. -/
def takePacket (b : ℕ) (size : ℤ) (rest : List ℤ) : Drr :=
  { s.setBucket b { s.drr b with queue := rest, bcount := (s.drr b).bcount - size, pkts := (s.drr b).pkts - 1 } with
    bytecnt := s.bytecnt - size
    pktcnt := s.pktcnt - 1 }

/-- One pass of the loop in `enque` that drops packets. -/
def dropOne : Option (Drr × List DrrTrace) :=
  s.getMaxflow.bind fun remq =>
    match (s.drr remq).queue with
    | [] => none
    | size :: rest =>
      let s := s.takePacket remq size rest
      if (s.drr remq).pkts = 0 then
        (s.idle remq).map fun s => ({ s with flwcnt := s.flwcnt - 1 }, [.dropped remq size, .idled remq])
      else some (s, [.dropped remq size])

def dropLoop : ℕ → Drr → Option (Drr × List DrrTrace)
  | 0, _ => none
  | fuel + 1, s =>
    if s.bytecnt > cfg.blimit then
      s.dropOne.bind fun r => (dropLoop fuel r.1).map fun r' => (r'.1, r.2 ++ r'.2)
    else some (s, [])

/-- `enque`, before packets are dropped. -/
def put (which : ℕ) (size : ℤ) : Option (Drr × List DrrTrace) :=
  let d := s.drr which
  let s : Drr :=
    { s.setBucket which { d with queue := d.queue ++ [size], pkts := d.pkts + 1, bcount := d.bcount + size } with
      pktcnt := s.pktcnt + 1
      bytecnt := s.bytecnt + size }
  if (s.drr which).pkts = 1 then
    (s.activate which).map fun s =>
      ({ s.setBucket which { s.drr which with deficitCounter := 0 } with flwcnt := s.flwcnt + 1 }, [.activated which])
  else some (s, [])

/-- `enque` of a packet with the bucket that it is hashed to. -/
def enque (which : ℕ) (size : ℤ) : Option (Drr × List DrrTrace) :=
  (s.put which size).bind fun r =>
    (dropLoop cfg (r.1.bytecnt.toNat + 1) r.1).map fun r' => (r'.1, r.2 ++ r'.2)

/-- A bucket gets its quantum when its turn begins. -/
def credit (d : PacketDRR) : PacketDRR :=
  if d.turn then d else { d with deficitCounter := d.deficitCounter + cfg.quantum, turn := true }

/-- The bucket in turn sends its first packet. -/
def send (c : ℕ) (size : ℤ) (rest : List ℤ) : Option (Drr × List DrrTrace) :=
  let s := s.setBucket c { s.drr c with deficitCounter := (s.drr c).deficitCounter - size }
  let s := s.takePacket c size rest
  if (s.drr c).pkts = 0 then
    (({ s.setBucket c { s.drr c with turn := false, deficitCounter := 0 } with flwcnt := s.flwcnt - 1 } : Drr).idle
      c).map fun s => (s, [.sent c size, .idled c])
  else some (s, [.sent c size])

/-- The loop of `deque`. -/
def dequeLoop : ℕ → Drr → Option (Drr × List DrrTrace)
  | 0, _ => none
  | fuel + 1, s =>
    s.curr.bind fun c =>
      let s := s.setBucket c (credit cfg (s.drr c))
      match (s.drr c).queue with
      | [] => none
      | size :: rest =>
        if (s.drr c).deficitCounter ≥ size then s.send c size rest
        else
          (dequeLoop fuel { s.setBucket c { s.drr c with turn := false } with curr := s.next c }).map fun r =>
            (r.1, .left c :: r.2)

/-- `deque`, with fuel for a pass for each byte and each bucket that misses its quantum. -/
def deque : Option (Drr × List DrrTrace) :=
  if s.bytecnt = 0 then some (s, []) else dequeLoop cfg (2 * s.bytecnt + 1).toNat s

end Drr

inductive DrrEvent
  | enque (which : ℕ) (size : ℤ)
  | deque
  deriving DecidableEq

def Drr.step (cfg : DrrConfig) (s : Drr) : DrrEvent → Option (Drr × List DrrTrace)
  | .enque which size => s.enque cfg which size
  | .deque => s.deque cfg

end NetworkSimulator
