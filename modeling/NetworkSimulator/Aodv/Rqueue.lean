import Mathlib.Algebra.Order.Ring.Rat
import Mathlib.Data.Rat.Defs
import NetworkSimulator.Library.Links
import NetworkSimulator.Library.Runs

/-!
# The packet queue of AODV

`aodv_rqueue` keeps the packets that wait for a route, linked through their `next_` fields, each with the time
at which it is given up. The queue of the abstract model is the list of the packets in the order in which
they came.
-/

namespace NetworkSimulator.Aodv

open Library

def AODV_RTQ_MAX_LEN : ℤ := 64
def AODV_RTQ_TIMEOUT : ℚ := 30

inductive DropReason
  | DROP_RTR_QFULL
  | DROP_RTR_QTIMEOUT
  deriving DecidableEq, Repr

structure Rqueue where
  head_ : Option ℕ := none
  tail_ : Option ℕ := none
  len_ : ℤ := 0
  next_ : ℕ → Option ℕ := fun _ => none
  ts_ : ℕ → ℚ := fun _ => 0
  daddr : ℕ → ℤ

inductive RqueueEvent
  | enque (now : ℚ) (p : ℕ)
  | deque (now : ℚ)
  | dequeDst (now : ℚ) (dst : ℤ)
  | find (dst : ℤ)
  deriving DecidableEq, Repr

structure RqueueOut where
  returned : Option ℕ := none
  dropped : List (ℕ × DropReason) := []
  found : Bool := false
  deriving DecidableEq, Repr

namespace Rqueue

/-- As far as `len_` says, and one further. -/
def fuel (s : Rqueue) : ℕ := s.len_.toNat + 1

def verifyQueue (s : Rqueue) : Bool :=
  let ps := follow s.next_ s.fuel s.head_
  ps.length = s.len_ ∧ ps.getLast? = s.tail_

def remove_head (s : Rqueue) : Rqueue × Option ℕ :=
  let s' : Rqueue := if s.head_ = s.tail_ then { s with head_ := none, tail_ := none }
    else { s with head_ := s.head_.bind s.next_ }
  (if s.head_.isSome then { s' with len_ := s'.len_ - 1 } else s', s.head_)

/-- What `deque(dst)` and `purge` do with a packet that has been found; the assertion comes first. -/
def unlink (s : Rqueue) (p : ℕ) (prev : Option ℕ) : Option Rqueue :=
  if (s.head_ = some p ∧ prev = none) ∨ prev.bind s.next_ = some p then
    if s.head_ = some p then some s.remove_head.1
    else if s.tail_ = some p then
      some { s with next_ := setAt s.next_ prev none, tail_ := prev, len_ := s.len_ - 1 }
    else some { s with next_ := setAt s.next_ prev (s.next_ p), len_ := s.len_ - 1 }
  else none

def findPacketWithDst (s : Rqueue) (dst : ℤ) : Option (Option ℕ × Option ℕ) :=
  search s.next_ (fun p => s.daddr p = dst) s.fuel s.head_ none

def findAgedPacket (now : ℚ) (s : Rqueue) : Option (Option ℕ × Option ℕ) :=
  search s.next_ (fun p => s.ts_ p < now) s.fuel s.head_ none

/-- A packet that is taken out here is not given to anyone. -/
def purge (now : ℚ) : ℕ → Rqueue → Option Rqueue
  | 0, _ => none
  | n + 1, s =>
    match s.findAgedPacket now with
    | none => none
    | some (none, _) => some s
    | some (some p, prev) => do
      let s' ← s.unlink p prev
      if s'.verifyQueue then purge now n s' else none

/-- What `enque` does when the queue is full. -/
def makeRoom (now : ℚ) (s : Rqueue) : Option (Rqueue × List (ℕ × DropReason)) :=
  if s.len_ = AODV_RTQ_MAX_LEN then
    match s.remove_head with
    | (_, none) => none
    | (s', some p0) => some (s', [(p0, if s'.ts_ p0 > now then .DROP_RTR_QFULL else .DROP_RTR_QTIMEOUT)])
  else some (s, [])

def append (s : Rqueue) (p : ℕ) : Rqueue :=
  let s' : Rqueue := if s.head_.isNone then { s with head_ := some p, tail_ := some p }
    else { s with next_ := setAt s.next_ s.tail_ (some p), tail_ := some p }
  { s' with len_ := s'.len_ + 1 }

def enque (now : ℚ) (s : Rqueue) (p : ℕ) : Option (Rqueue × RqueueOut) := do
  let s₁ ← purge now s.fuel s
  let s₂ : Rqueue := { s₁ with
    next_ := Function.update s₁.next_ p none
    ts_ := Function.update s₁.ts_ p (now + AODV_RTQ_TIMEOUT) }
  let (s₃, dropped) ← s₂.makeRoom now
  if (s₃.append p).verifyQueue then some (s₃.append p, { dropped }) else none

def deque (now : ℚ) (s : Rqueue) : Option (Rqueue × RqueueOut) := do
  let s₁ ← purge now s.fuel s
  if s₁.remove_head.1.verifyQueue then some (s₁.remove_head.1, { returned := s₁.remove_head.2 }) else none

def dequeDst (now : ℚ) (s : Rqueue) (dst : ℤ) : Option (Rqueue × RqueueOut) := do
  let s₁ ← purge now s.fuel s
  match s₁.findPacketWithDst dst with
  | none => none
  | some (none, _) => some (s₁, {})
  | some (some p, prev) => do
    let s₂ ← s₁.unlink p prev
    if s₂.verifyQueue then some (s₂, { returned := some p }) else none

def find (s : Rqueue) (dst : ℤ) : Option (Rqueue × RqueueOut) := do
  let r ← s.findPacketWithDst dst
  some (s, { found := r.1.isSome })

def step (s : Rqueue) : RqueueEvent → Option (Rqueue × RqueueOut)
  | .enque now p => s.enque now p
  | .deque now => s.deque now
  | .dequeDst now dst => s.dequeDst now dst
  | .find dst => s.find dst

end Rqueue

/-! ### The abstract queue -/

/-- The packets in the order of their arrival, with the times until which they wait. -/
abbrev Fifo := List (ℕ × ℚ)

namespace Fifo

def unexpired (now : ℚ) (q : Fifo) : Fifo := q.filter fun e => now ≤ e.2

/-- A full queue loses its oldest packet. -/
def room (q : Fifo) : Fifo := if (q.length : ℤ) = AODV_RTQ_MAX_LEN then q.tail else q

def next (daddr : ℕ → ℤ) (q : Fifo) : RqueueEvent → Fifo
  | .enque now p => room (unexpired now q) ++ [(p, now + AODV_RTQ_TIMEOUT)]
  | .deque now => (unexpired now q).tail
  | .dequeDst now dst => (unexpired now q).eraseP fun e => daddr e.1 = dst
  | .find _ => q

/-- The oldest packet for `dst`. -/
def oldest (daddr : ℕ → ℤ) (dst : ℤ) (q : Fifo) : Option ℕ := (q.find? fun e => daddr e.1 = dst).map Prod.fst

def out (daddr : ℕ → ℤ) (q : Fifo) : RqueueEvent → RqueueOut
  | .enque now _ =>
    if ((unexpired now q).length : ℤ) = AODV_RTQ_MAX_LEN then
      { dropped := (unexpired now q).head?.toList.map fun e =>
          (e.1, if e.2 > now then .DROP_RTR_QFULL else .DROP_RTR_QTIMEOUT) }
    else {}
  | .deque now => { returned := (unexpired now q).head?.map Prod.fst }
  | .dequeDst now dst => { returned := (unexpired now q).oldest daddr dst }
  | .find dst => { found := (q.oldest daddr dst).isSome }

/-- A packet that is given to the queue is not in it. -/
def Admits (q : Fifo) : RqueueEvent → Prop
  | .enque _ p => ∀ e ∈ q, e.1 ≠ p
  | _ => True

instance (q : Fifo) : ∀ e, Decidable (q.Admits e)
  | .enque _ p => inferInstanceAs (Decidable (∀ e ∈ q, e.1 ≠ p))
  | .deque _ | .dequeDst _ _ | .find _ => inferInstanceAs (Decidable True)

end Fifo
end NetworkSimulator.Aodv
