import NetworkSimulator.Library.Rings
import Mathlib.Data.Int.Bitwise

/-!
# Stochastic fair queueing

Packets are hashed to buckets, and the buckets with packets are served one packet at a time, in a ring. The packets
themselves are not looked into; the hash is part of the event.
-/

namespace NetworkSimulator
open Library

structure SfqConfig where
  /-- The packets allowed across all buckets. -/
  maxqueue : ℤ
  buckets : ℕ

def SfqConfig.fairshare (cfg : SfqConfig) : ℤ := cfg.maxqueue.tdiv cfg.buckets

structure PacketSFQ (α : Type) where
  queue : List α
  pkts : ℤ

/-- The head of the links is `active`, the bucket in turn. -/
structure Sfq (α : Type) where
  bucket : ℕ → PacketSFQ α
  links : RingLinks ℕ
  occupied : ℤ

inductive SfqEvent (α : Type)
  | enque (which : ℕ) (pkt : α)
  | deque
  deriving DecidableEq

/-- The packet that `deque` returns and those that are dropped, with their buckets. -/
inductive SfqTrace (α : Type)
  | departed (b : ℕ) (pkt : α)
  | dropped (b : ℕ) (pkt : α)
  deriving DecidableEq

namespace Sfq
variable {α : Type} (cfg : SfqConfig) (s : Sfq α)

/-- After `initsfq`. -/
def init : Sfq α := ⟨fun _ => ⟨[], 0⟩, .empty, 0⟩

def setBucket (b : ℕ) (q : PacketSFQ α) : Sfq α := { s with bucket := Function.update s.bucket b q }

/-- `active = q->activate(active)` -/
def activate (q : ℕ) : Option (Sfq α) := (s.links.join q).map fun k => { s with links := k }

/-- `active = q->idle(active)`; only the bucket in turn is taken out of the ring. -/
def idle (q : ℕ) : Option (Sfq α) :=
  if s.links.head = some q then (s.links.leaveHead q).map fun k => { s with links := k } else some s

def deque : Option (Sfq α × List (SfqTrace α)) :=
  match s.links.head with
  | none => some (s, [])
  | some active =>
    match (s.bucket active).queue with
    | [] => none
    | pkt :: rest =>
      let s : Sfq α := { s.setBucket active ⟨rest, (s.bucket active).pkts - 1⟩ with occupied := s.occupied - 1 }
      if (s.bucket active).pkts = 0 then (s.idle active).map fun s => (s, [.departed active pkt])
      else some ({ s with links := { s.links with head := s.links.next active } }, [.departed active pkt])

/-- `enque` of a packet with the bucket that it is hashed to. -/
def enque (which : ℕ) (pkt : α) : Option (Sfq α × List (SfqTrace α)) :=
  let used := (s.bucket which).pkts
  let left := cfg.maxqueue - s.occupied
  if used ≥ left >>> 1 ∨ (left < cfg.buckets ∧ used > cfg.fairshare) ∨ left ≤ 0 then some (s, [.dropped which pkt])
  else
    let s : Sfq α := { s.setBucket which ⟨(s.bucket which).queue ++ [pkt], used + 1⟩ with occupied := s.occupied + 1 }
    if (s.bucket which).pkts = 1 then (s.activate which).map fun s => (s, []) else some (s, [])

def step : SfqEvent α → Option (Sfq α × List (SfqTrace α))
  | .enque which pkt => s.enque cfg which pkt
  | .deque => s.deque

end Sfq

end NetworkSimulator
