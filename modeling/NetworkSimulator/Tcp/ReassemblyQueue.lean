import Mathlib.Data.Int.Notation
import NetworkSimulator.Library.Links

/-!
# `ReassemblyQueue`

The reassembly queue of `tcp/rq.h` and `tcp/rq.cc`. A `seginfo` is named by a number and each of
its fields is a map from names; sequence numbers are integers, flags are bit masks. `none` is an
`abort()`, a null pointer that is followed, or a loop that runs for more rounds than there are
blocks. `rcv_nxt_` is a reference to a variable of the owner and part of the state here.
-/

namespace NetworkSimulator
open Library

/-- The pointers of the queue: the links of each block, the ends of the two lists and the cache of
free blocks. The blocks from `fresh` on have not been allocated. -/
structure SegLinks where
  next : ℕ → Option ℕ
  prev : ℕ → Option ℕ
  snext : ℕ → Option ℕ
  sprev : ℕ → Option ℕ
  freelist : Option ℕ
  fresh : ℕ
  head : Option ℕ
  tail : Option ℕ
  top : Option ℕ
  bottom : Option ℕ
  hint : Option ℕ

/-- What the blocks say, and the two counters. -/
structure SegData where
  startseq : ℕ → ℤ
  endseq : ℕ → ℤ
  pflags : ℕ → ℕ
  rqflags : ℕ → ℕ
  cnt : ℕ → ℤ
  total : ℤ
  rcvNxt : ℤ

structure ReassemblyQueue extends SegLinks, SegData

namespace ReassemblyQueue

/-- The constructor, with `freelist_` and the memory as they are. -/
def init (s : ReassemblyQueue) (rcvNxt : ℤ) : ReassemblyQueue :=
  { s with head := none, tail := none, top := none, bottom := none, hint := none, total := 0,
           rcvNxt := rcvNxt }

/-- A queue in memory where nothing has been allocated. -/
def blank : ReassemblyQueue where
  next := fun _ => none
  prev := fun _ => none
  snext := fun _ => none
  sprev := fun _ => none
  freelist := none
  fresh := 0
  head := none
  tail := none
  top := none
  bottom := none
  hint := none
  startseq := fun _ => 0
  endseq := fun _ => 0
  pflags := fun _ => 0
  rqflags := fun _ => 0
  cnt := fun _ => 0
  total := 0
  rcvNxt := 0

def empty (s : ReassemblyQueue) : Bool := s.head.isNone

def newseginfo (s : ReassemblyQueue) : ℕ × ReassemblyQueue :=
  match s.freelist with
  | some n => (n, { s with freelist := s.next n })
  | none => (s.fresh, { s with fresh := s.fresh + 1 })

def deleteseginfo (s : ReassemblyQueue) (n : ℕ) : ReassemblyQueue :=
  { s with next := Function.update s.next n s.freelist, freelist := some n }

/-- Unlink a block from the FIFO. -/
def fremove (s : ReassemblyQueue) (p : ℕ) : ReassemblyQueue :=
  let s := if s.hint = some p then { s with hint := none } else s
  let s := match s.prev p with
    | some a => { s with next := Function.update s.next a (s.next p) }
    | none => { s with head := s.next p }
  match s.next p with
  | some b => { s with prev := Function.update s.prev b (s.prev p) }
  | none => { s with tail := s.prev p }

/-- Unlink a block from the LIFO. -/
def sremove (s : ReassemblyQueue) (p : ℕ) : ReassemblyQueue :=
  let s := if s.hint = some p then { s with hint := none } else s
  let s := match s.sprev p with
    | some a => { s with snext := Function.update s.snext a (s.snext p) }
    | none => { s with top := s.snext p }
  match s.snext p with
  | some b => { s with sprev := Function.update s.sprev b (s.sprev p) }
  | none => { s with bottom := s.sprev p }

/-- Push a block on the LIFO. -/
def push (s : ReassemblyQueue) (p : ℕ) : ReassemblyQueue :=
  let s := { s with snext := Function.update s.snext p s.top
                    sprev := Function.update s.sprev p none }
  let s := { s with top := some p }
  match s.snext p with
  | some b => { s with sprev := Function.update s.sprev b (some p) }
  | none => { s with bottom := some p }

/-- Put a block between its neighbours on the FIFO. -/
def linkFifo (s : ReassemblyQueue) (p : Option ℕ) (n : ℕ) (q : Option ℕ) : ReassemblyQueue :=
  let s := match p with
    | some p => { s with next := Function.update s.next p (some n) }
    | none => { s with head := some n }
  match q with
  | some q => { s with prev := Function.update s.prev q (some n) }
  | none => { s with tail := some n }

/-- The loop of `clearto` over the blocks that end by `seq`; the block it stops at, if any, and
the flags collected. -/
def clearBlocks (seq : ℤ) : ℕ → ReassemblyQueue → Option ℕ → ℕ →
    Option (ReassemblyQueue × Option ℕ × ℕ)
  | 0, _, _, _ => none
  | _ + 1, s, none, flag => some (s, none, flag)
  | n + 1, s, some p, flag =>
    if s.endseq p ≤ seq then
      let q := s.next p
      let flag := flag ||| s.pflags p
      let s := { s with total := s.total - (s.endseq p - s.startseq p) }
      clearBlocks seq n (((s.sremove p).fremove p).deleteseginfo p) q flag
    else some (s, some p, flag)

def clearto (s : ReassemblyQueue) (seq : ℤ) : Option (ReassemblyQueue × ℕ) :=
  (clearBlocks seq (s.fresh + 1) s s.head 0).map fun (s, p, flag) =>
    match p with
    | some p =>
      -- we might be trimming in the middle
      if s.startseq p ≤ seq ∧ s.endseq p > seq then
        ({ s with total := s.total - (seq - s.startseq p)
                  startseq := Function.update s.startseq p seq }, flag ||| s.pflags p)
      else (s, flag)
    | none => (s, flag)

def cleartonxt (s : ReassemblyQueue) : Option (ReassemblyQueue × ℕ) := s.clearto s.rcvNxt

/-- `coalesce` the blocks in and around the new block: `p` is before it, `q` after it. -/
def coalesce (s : ReassemblyQueue) (p : Option ℕ) (n : ℕ) (q : Option ℕ) :
    Option (ReassemblyQueue × ℕ) :=
  let joinsP := p.any fun p => s.endseq p = s.startseq n
  let joinsQ := q.any fun q => s.endseq n = s.startseq q
  -- at the end `p` is the block that has grown
  let finish (s : ReassemblyQueue) (p : Option ℕ) (flags : ℕ) : Option (ReassemblyQueue × ℕ) :=
    p.map fun p =>
      ({ s with rcvNxt := if s.rcvNxt ≥ s.startseq p then s.endseq p else s.rcvNxt }, flags)
  match p, q, joinsP, joinsQ with
  | some p, some q, true, true =>
    -- the new block fills the hole between p and q
    let s := (((s.sremove n).fremove n).sremove q).fremove q
    let s := { s with
      endseq := Function.update s.endseq p (s.endseq q)
      cnt := Function.update s.cnt p (s.cnt p + (s.cnt n + s.cnt q))
      pflags := Function.update s.pflags p (s.pflags p ||| s.pflags n) }
    finish ((s.deleteseginfo n).deleteseginfo q) (some p) (s.pflags p)
  | some p, _, true, _ =>
    -- the new block joins p, but not q
    let s := (s.sremove n).fremove n
    let s := { s with
      endseq := Function.update s.endseq p (s.endseq n)
      pflags := Function.update s.pflags p (s.pflags p ||| s.pflags n)
      cnt := Function.update s.cnt p (s.cnt p + s.cnt n) }
    finish (s.deleteseginfo n) (some p) (s.pflags p)
  | _, some q, _, true =>
    -- the new block joins q, but not p
    let s := (s.sremove n).fremove n
    let s := { s with
      startseq := Function.update s.startseq q (s.startseq n)
      pflags := Function.update s.pflags q (s.pflags q ||| s.pflags n)
      cnt := Function.update s.cnt q (s.cnt q + s.cnt n) }
    finish (s.deleteseginfo n) (some q) (s.pflags q)
  | p, _, _, _ => finish s p 0

/-- The part of `add` after the label `endfast`: a new block between `p` and `q`. -/
def insertBlock (s : ReassemblyQueue) (p q : Option ℕ) (sseq eseq : ℤ) (tiflags rqflags : ℕ)
    (initcnt : ℤ) (needmerge : Bool) : Option (ReassemblyQueue × ℕ) :=
  let (n, s) := s.newseginfo
  let s := { s with
    startseq := Function.update s.startseq n sseq
    endseq := Function.update s.endseq n eseq
    pflags := Function.update s.pflags n tiflags
    rqflags := Function.update s.rqflags n rqflags
    cnt := Function.update s.cnt n initcnt
    prev := Function.update s.prev n p
    next := Function.update s.next n q }
  let s := (s.push n).linkFifo p n q
  let s := { s with total := s.total + (eseq - sseq) }
  if needmerge then s.coalesce p n q
  else some ({ s with rcvNxt := if s.rcvNxt ≥ sseq then eseq else s.rcvNxt }, tiflags)

/-- The loop of `add` that deletes what the new segment covers completely. `Sum.inl` is the
return for an exact overlap; else the flags, the count and `altered`. -/
def killCovered (q : Option ℕ) (sseq eseq : ℤ) : ℕ → ReassemblyQueue → Option ℕ → ℕ → ℤ → Bool →
    Option ((ReassemblyQueue × ℕ) ⊕ (ReassemblyQueue × ℕ × ℤ × Bool))
  | 0, _, _, _, _, _ => none
  | _ + 1, s, none, tiflags, initcnt, altered => some (.inr (s, tiflags, initcnt, altered))
  | fuel + 1, s, some r, tiflags, initcnt, altered =>
    if some r = q then some (.inr (s, tiflags, initcnt, altered))
    else if sseq = s.startseq r ∧ eseq = s.endseq r then
      some (.inl ({ s with pflags := Function.update s.pflags r (s.pflags r ||| tiflags) },
        s.pflags r ||| tiflags))
    else if sseq ≤ s.startseq r ∧ eseq ≥ s.endseq r then
      let s := { s with total := s.total - (s.endseq r - s.startseq r) }
      killCovered q sseq eseq fuel (((s.fremove r).sremove r).deleteseginfo r) (s.next r)
        (tiflags ||| s.pflags r) (initcnt + s.cnt r) true
    else killCovered q sseq eseq fuel s (s.next r) tiflags initcnt altered

/-- The left-side merge into the block `a`: the new start, `needmerge` and the count. -/
def joinLeft (s : ReassemblyQueue) (a : ℕ) (sseq : ℤ) (tiflags : ℕ) : ReassemblyQueue :=
  let s := if sseq < s.startseq a then
      { s with total := s.total + (s.startseq a - sseq)
               startseq := Function.update s.startseq a sseq }
    else s
  { s with pflags := Function.update s.pflags a (s.pflags a ||| tiflags)
           cnt := Function.update s.cnt a (s.cnt a + 1) }

/-- The right-side merge into the block `b`. -/
def joinRight (s : ReassemblyQueue) (b : ℕ) (eseq : ℤ) (tiflags : ℕ) : ReassemblyQueue :=
  let s := if eseq > s.endseq b then
      { s with total := s.total + (eseq - s.endseq b)
               endseq := Function.update s.endseq b eseq }
    else s
  { s with pflags := Function.update s.pflags b (s.pflags b ||| tiflags) }

/-- The block that takes part in a left-side merge, if there is one. -/
def leftTarget (s : ReassemblyQueue) (p : Option ℕ) (sseq : ℤ) : Option (Option ℕ) :=
  match p with
  | none => s.head.map some
  | some p => (s.next p).map fun a => if s.startseq a < sseq then some a else none

/-- The block that takes part in a right-side merge, if there is one. -/
def rightTarget (s : ReassemblyQueue) (q : Option ℕ) (eseq : ℤ) : Option (Option ℕ) :=
  match q with
  | none => s.tail.map some
  | some q => (s.prev q).map fun b => if s.endseq b > eseq then some b else none

/-- The end of `add`, from the right-side merge on. -/
def mergeRight (s : ReassemblyQueue) (p q : Option ℕ) (sseq eseq : ℤ) (tiflags rqflags : ℕ)
    (initcnt : ℤ) (needmerge : Bool) : Option (ReassemblyQueue × ℕ) := do
  let b ← s.rightTarget q eseq
  let (s, q, eseq, needmerge) := match b with
    | some b => (s.joinRight b eseq tiflags, some b, s.startseq b, true)
    | none => (s, q, eseq, needmerge)
  if eseq ≤ sseq then
    s.head.map fun h =>
      ({ s with rcvNxt := if s.rcvNxt ≥ s.startseq h then s.endseq h else s.rcvNxt }, tiflags)
  else if needmerge then s.insertBlock p q sseq eseq tiflags rqflags initcnt true
  else
    -- no merge on either side, so neither p nor q is null
    match p, q with
    | some p, some q =>
      let adjacent := s.next p = some q ∧ s.endseq p ≤ sseq ∧ s.startseq q ≥ eseq ∧
        (s.endseq p = sseq ∨ s.startseq q = eseq)
      s.insertBlock (some p) (some q) sseq eseq tiflags rqflags initcnt (decide adjacent)
    | _, _ => none

/-- The end of `add`, from the left-side merge on. -/
def mergeLeft (s : ReassemblyQueue) (p q : Option ℕ) (sseq eseq : ℤ) (tiflags rqflags : ℕ)
    (initcnt : ℤ) : Option (ReassemblyQueue × ℕ) := do
  let a ← s.leftTarget p sseq
  match a with
  | some a =>
    let s := s.joinLeft a sseq tiflags
    s.mergeRight (some a) q (s.endseq a) eseq tiflags rqflags (initcnt - 1) true
  | none => s.mergeRight p q sseq eseq tiflags rqflags initcnt false

/-- `add` on a queue that is not empty, from the label `again2` on. -/
def again2 : ℕ → ReassemblyQueue → ℤ → ℤ → ℕ → ℕ → ℤ → Option (ReassemblyQueue × ℕ)
  | 0, _, _, _, _, _, _ => none
  | fuel + 1, s, sseq, eseq, tiflags, rqflags, initcnt =>
    match s.head, s.tail with
    | some h, some t =>
      if sseq ≥ s.endseq t then
        -- at tail, no overlap
        s.insertBlock (some t) none sseq eseq tiflags rqflags initcnt (decide (sseq = s.endseq t))
      else if eseq ≤ s.startseq h then
        -- at head, no overlap
        s.insertBlock none (some h) sseq eseq tiflags rqflags initcnt (decide (eseq = s.startseq h))
      else do
        let q ← walk s.next (fun a => decide (s.startseq a < eseq)) (s.fresh + 1) s.head
        let p ← walk s.prev (fun a => decide (s.endseq a > sseq)) (s.fresh + 1) s.tail
        let killed ← killCovered q sseq eseq (s.fresh + 1) s (p.or s.head) tiflags initcnt false
        match killed with
        | .inl r => some r
        | .inr (s, tiflags, initcnt, altered) =>
          if s.empty then s.insertBlock p q sseq eseq tiflags rqflags initcnt false
          else if altered then again2 fuel s sseq eseq tiflags rqflags initcnt
          else s.mergeLeft p q sseq eseq tiflags rqflags initcnt
    | _, _ => none

/-- `add` a segment. After one round of deletions nothing is covered any more, so the jump back
to `again2` happens at most once. -/
def add (s : ReassemblyQueue) (sseq eseq : ℤ) (tiflags rqflags : ℕ) :
    Option (ReassemblyQueue × ℕ) :=
  if eseq < sseq then none
  else
    match s.head with
    | some _ => again2 2 s sseq eseq tiflags rqflags 1
    | none =>
      if s.top.isSome then none
      else
        let (n, s) := s.newseginfo
        some ({ s with
          head := some n, tail := some n, top := some n, bottom := some n
          prev := Function.update s.prev n none
          next := Function.update s.next n none
          snext := Function.update s.snext n none
          sprev := Function.update s.sprev n none
          startseq := Function.update s.startseq n sseq
          endseq := Function.update s.endseq n eseq
          pflags := Function.update s.pflags n tiflags
          rqflags := Function.update s.rqflags n rqflags
          cnt := Function.update s.cnt n 1
          total := eseq - sseq
          rcvNxt := if s.rcvNxt ≥ sseq then eseq else s.rcvNxt }, tiflags)

/-- `cnts`: how many blocks there are from `p` on, and the bytes in them. -/
def cnts (s : ReassemblyQueue) : ℕ → Option ℕ → ℤ → ℤ → Option (ℤ × ℤ)
  | 0, _, _, _ => none
  | _ + 1, none, blks, bytes => some (blks, bytes)
  | n + 1, some p, blks, bytes =>
    s.cnts n (s.next p) (blks + 1) (bytes + (s.endseq p - s.startseq p))

/-- The loop of `nexthole`: the hole, `nxtcnt` and `nxtbytes`. -/
def nextholeFrom (s : ReassemblyQueue) (seq : ℤ) : ℕ → Option ℕ → Option (ℤ × ℤ × ℤ)
  | 0, _ => none
  | _ + 1, none => some (-1, -1, -1)
  | n + 1, some p =>
    -- seq is prior to the block, so it is a hole
    if s.startseq p > seq then (s.cnts (n + 1) (some p) 0 0).map fun c => (seq, c)
    -- seq is covered by the block, so the hole is at the end of the block
    else if s.startseq p ≤ seq ∧ s.endseq p ≥ seq then
      match s.next p with
      | some q => (s.cnts (n + 1) (some q) 0 0).map fun c => (s.endseq p, c)
      | none => some (s.endseq p, -1, -1)
    else s.nextholeFrom seq n (s.next p)

/-- Look for the next hole, starting with the given sequence number. -/
def nexthole (s : ReassemblyQueue) (seq : ℤ) : Option (ReassemblyQueue × ℤ × ℤ × ℤ) :=
  let s := { s with hint := s.head }
  (s.nextholeFrom seq (s.fresh + 1) s.hint).map fun r => (s, r)

/-- The loop of `clear`. -/
def clearAll : ℕ → ReassemblyQueue → Option ReassemblyQueue
  | 0, _ => none
  | n + 1, s =>
    match s.head with
    | none => some s
    | some p => clearAll n ({ s with head := s.next p }.deleteseginfo p)

def clear (s : ReassemblyQueue) : Option ReassemblyQueue :=
  (clearAll (s.fresh + 1) { s with tail := none, top := none, bottom := none, hint := none }).map
    fun s => { s with tail := none, total := 0 }

end ReassemblyQueue

end NetworkSimulator
