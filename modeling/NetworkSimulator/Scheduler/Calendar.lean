import Mathlib.Data.Rat.Floor
import Mathlib.Algebra.Order.Floor.Ring
import NetworkSimulator.Scheduler.List

/-!
# The calendar queue

`CalendarScheduler` of `common/scheduler.cc` with event times as exact rationals. A bucket is the
circular list that starts at `list_`, read from its head, so that `list_->prev_` is its last
element. `none` is a failed `assert`, a null pointer that is followed, or an index outside
`buckets_`.
-/

namespace NetworkSimulator

/-- C's conversion of a double to an `int`, truncation towards zero. -/
def toInt (x : ℚ) : ℤ := if 0 ≤ x then ⌊x⌋ else ⌈x⌉

/-- `fmod`: the exact remainder of the truncated quotient. -/
def fmod (x y : ℚ) : ℚ := x - toInt (x / y) * y

/-- The two bound variables of a `CalendarScheduler` and the square root of the C library. -/
structure CalendarConfig where
  adjustNewWidthInterval : ℕ
  minBinWidth : ℚ
  sqrt : ℚ → ℚ

/-- `struct Bucket`. -/
structure Bucket where
  list : List (Event ℚ) := []
  count : ℤ := 0

structure CalendarScheduler where
  timeToNewwidth : ℕ
  headSearch : ℕ
  insertSearch : ℕ
  roundNum : ℤ
  gapNum : ℤ
  lastTime : ℚ
  avgGap : ℚ
  width : ℚ
  diff0 : ℚ
  diff1 : ℚ
  diff2 : ℚ
  statQsize : ℤ
  nbuckets : ℤ
  lastbucket : ℤ
  topThreshold : ℤ
  botThreshold : ℤ
  buckets : ℤ → Bucket
  qsize : ℤ
  calClock : ℚ

namespace CalendarScheduler

/-- `CALENDAR_HASH`. -/
def calendarHash (s : CalendarScheduler) (t : ℚ) : ℤ := toInt (fmod (t / s.width) s.nbuckets)

/-- `buckets_[i]`. -/
def bucketAt (s : CalendarScheduler) (i : ℤ) : Option Bucket :=
  if 0 ≤ i ∧ i < s.nbuckets then some (s.buckets i) else none

def setBucket (s : CalendarScheduler) (i : ℤ) (b : Bucket) : CalendarScheduler :=
  { s with buckets := Function.update s.buckets i b }

def reinit (s : CalendarScheduler) (nbuck : ℤ) (bwidth start : ℚ) : CalendarScheduler :=
  let s := { s with buckets := fun _ => {}, width := bwidth, nbuckets := nbuck, qsize := 0,
                    statQsize := 0 }
  { s with
    lastbucket := s.calendarHash start
    diff0 := bwidth * nbuck / 2
    diff1 := bwidth * nbuck / 2 + bwidth
    diff2 := bwidth * nbuck
    botThreshold := nbuck / 2 - 2
    topThreshold := nbuck * 2 }

/-- The constructor. Without width adjustment the fields of the snoopy queue stay unset and are
never read; they are zero here. -/
def init (cfg : CalendarConfig) (calClock : ℚ) : CalendarScheduler :=
  let adjust := cfg.adjustNewWidthInterval ≠ 0
  reinit
    { timeToNewwidth := cfg.adjustNewWidthInterval, headSearch := 0, insertSearch := 0,
      roundNum := 0, gapNum := 0, lastTime := if adjust then -2 else 0,
      avgGap := if adjust then -2 else 0, width := 0, diff0 := 0, diff1 := 0, diff2 := 0,
      statQsize := 0, nbuckets := 0, lastbucket := 0, topThreshold := 0, botThreshold := 0,
      buckets := fun _ => {}, qsize := 0, calClock := calClock } 4 1 calClock

/-- The list work of `insert` on one bucket: the new bucket, what is added to `stat_qsize_` and
to `insert_search_`. The walk starts at `head->prev_` and goes backwards. -/
def placeLast (b : Bucket) (e : Event ℚ) : Option (Bucket × ℤ × ℕ) :=
  match b.list with
  | [] => some (⟨[e], b.count + 1⟩, 1, 0)
  | head :: _ =>
    if e.time < head.time then some (⟨e :: b.list, b.count + 1⟩, 1, 1)
    else
      let passed := b.list.reverse.takeWhile fun x => decide (e.time < x.time)
      match b.list.reverse.dropWhile fun x => decide (e.time < x.time) with
      | [] => none
      | after :: before =>
        let list := before.reverse ++ after :: e :: passed.reverse
        -- unique timing
        if after.time < e.time then some (⟨list, b.count + 1⟩, 1, 1 + passed.length)
        else some (⟨list, b.count⟩, 0, 1 + passed.length)

/-- The list work of `insert2`, which puts `e` before the events of the same time. -/
def placeFirst (b : Bucket) (e : Event ℚ) : Option (Bucket × ℤ) :=
  match b.list, b.list.getLast? with
  | [], _ => some (⟨[e], b.count + 1⟩, 1)
  | _ :: _, none => none
  | head :: _, some tail =>
    let passed := if tail.time < e.time then b.list
      else b.list.takeWhile fun x => decide (x.time < e.time)
    let rest := if tail.time < e.time then []
      else b.list.dropWhile fun x => decide (x.time < e.time)
    let list := passed ++ e :: rest
    -- the list is circular: after the tail comes the head
    if (rest.headD head).time ≠ e.time then some (⟨list, b.count + 1⟩, 1)
    else some (⟨list, b.count⟩, 0)

def insert2 (s : CalendarScheduler) (e : Event ℚ) : Option CalendarScheduler := do
  let i := s.calendarHash e.time
  let b ← s.bucketAt i
  let (b', stat) ← placeFirst b e
  some { s.setBucket i b' with statQsize := s.statQsize + stat, qsize := s.qsize + 1 }

/-- The index of the fullest bucket, the first one among equals. -/
def maxBucket (s : CalendarScheduler) : ℤ :=
  (List.range s.nbuckets.toNat).foldl
    (fun (m : ℤ) (i : ℕ) => if (s.buckets i).count > (s.buckets m).count then (i : ℤ) else m) 0

/-- `newwidth` takes samples from the most populated bucket. -/
def newwidth (cfg : CalendarConfig) (s : CalendarScheduler) (newsize : ℤ) :
    Option (ℚ × CalendarScheduler) :=
  let s := if cfg.adjustNewWidthInterval ≠ 0 then
      { s with timeToNewwidth := cfg.adjustNewWidthInterval } else s
  if cfg.adjustNewWidthInterval ≠ 0 ∧ s.avgGap > 0 then some (s.avgGap * 4, s)
  else
    let b := s.buckets s.maxBucket
    let nsamples := b.count
    if nsamples ≤ 4 then some (s.width, s)
    else
      match b.list.head?, b.list.getLast? with
      | some head, some tail =>
        let nw := tail.time - head.time
        if 0 < nw then
          some (nw / (if newsize < nsamples then newsize else nsamples : ℤ) * 4, s)
        else none
      | _, _ => none

/-- The second half of `resize`: empty the buckets, then copy the events, each old bucket from
its tail to its head. -/
def rebuild (s : CalendarScheduler) (newsize : ℤ) (bwidth start : ℚ) : Option CalendarScheduler := do
  let s' ← (List.range s.nbuckets.toNat).foldlM
    (fun t (i : ℕ) => (s.buckets i).list.reverse.foldlM insert2 t) (s.reinit newsize bwidth start)
  some { s' with headSearch := 0, insertSearch := 0, roundNum := 0 }

def resize (cfg : CalendarConfig) (s : CalendarScheduler) (newsize : ℤ) (start : ℚ) :
    Option CalendarScheduler :=
  if newsize = s.nbuckets then
    let ratio : ℚ := if s.headSearch ≠ 0 then s.headSearch else 1
    let ratio := if s.insertSearch ≠ 0 then ratio / s.insertSearch else ratio
    let bwidth := cfg.sqrt ratio * s.width
    if bwidth < cfg.minBinWidth then
      if 0 < s.timeToNewwidth then
        some { s with timeToNewwidth := s.timeToNewwidth - 1, headSearch := 0, insertSearch := 0,
                      roundNum := 0 }
      else (s.newwidth cfg newsize).bind fun p => p.2.rebuild newsize p.1 start
    else s.rebuild newsize bwidth start
  else
    (s.newwidth cfg newsize).bind fun p => p.2.rebuild (if newsize < 4 then 4 else newsize) p.1 start

def insert (cfg : CalendarConfig) (s : CalendarScheduler) (e : Event ℚ) :
    Option CalendarScheduler := do
  let i := s.calendarHash e.time
  -- may happen in RT scheduler
  let s := if e.time < s.calClock then { s with calClock := e.time, lastbucket := i } else s
  let b ← s.bucketAt i
  let (b', stat, steps) ← placeLast b e
  let s := { s.setBucket i b' with
    statQsize := s.statQsize + stat, insertSearch := s.insertSearch + steps, qsize := s.qsize + 1 }
  if s.statQsize > s.topThreshold then s.resize cfg (s.nbuckets * 2) s.calClock else some s

/-- The local variables of `head` while it goes round the buckets. -/
structure Scan where
  i : ℤ
  l : ℤ
  minE : Option (Event ℚ)
  headSearch : ℕ

/-- `CAL_DEQUEUE(x)`; `Sum.inl` is the jump to `found_l`. -/
def calDequeue (s : CalendarScheduler) (diffx : ℚ) (c : Scan) :
    Option ((Event ℚ × ℤ × ℕ) ⊕ Scan) := do
  let b ← s.bucketAt c.i
  let c := { c with headSearch := c.headSearch + 1 }
  let step (c : Scan) : Scan := { c with i := if c.i + 1 = s.nbuckets then 0 else c.i + 1 }
  match b.list with
  | [] => some (.inr (step c))
  | e :: _ =>
    if e.time - s.calClock < diffx then some (.inl (e, c.i, c.headSearch))
    else if c.minE.all fun m => decide (e.time < m.time) then
      some (.inr (step { c with minE := some e, l := c.i }))
    else some (.inr (step c))

/-- The loop of `CAL_DEQUEUE(2)` up to the bucket before `lastbucket_`. -/
def scanYear (s : CalendarScheduler) (lastbucketDec : ℤ) :
    ℕ → Scan → Option ((Event ℚ × ℤ × ℕ) ⊕ Scan)
  | 0, _ => none
  | fuel + 1, c =>
    if c.i = lastbucketDec then some (.inr c)
    else (s.calDequeue s.diff2 c).bind fun r =>
      match r with
      | .inl f => some (.inl f)
      | .inr c => scanYear s lastbucketDec fuel c

/-- One bucket is left unchecked: take the minimum. -/
def lastBucketMin (s : CalendarScheduler) (c : Scan) : Option (Event ℚ × ℤ × ℕ) :=
  (s.bucketAt c.i).bind fun b =>
    match c.minE, b.list with
    | none, [] => none
    | none, e :: _ => some (e, c.i, c.headSearch)
    | some m, [] => some (m, c.l, c.headSearch)
    | some m, e :: _ =>
      if m.time < e.time then some (m, c.l, c.headSearch) else some (e, c.i, c.headSearch)

/-- The search of `head`: the event found, the index of its bucket and `head_search_`. -/
def search (s : CalendarScheduler) : Option (Event ℚ × ℤ × ℕ) :=
  let lastbucketDec := if s.lastbucket ≠ 0 then s.lastbucket - 1 else s.nbuckets - 1
  (s.calDequeue s.diff0 ⟨s.lastbucket, -1, none, s.headSearch⟩).bind fun r₀ =>
    match r₀ with
    | .inl f => some f
    | .inr c₀ => (s.calDequeue s.diff1 c₀).bind fun r₁ =>
      match r₁ with
      | .inl f => some f
      | .inr c₁ => (s.scanYear lastbucketDec s.nbuckets.toNat c₁).bind fun r₂ =>
        match r₂ with
        | .inl f => some f
        | .inr c₂ => s.lastBucketMin c₂

def head (s : CalendarScheduler) : Option (Option (Event ℚ) × CalendarScheduler) :=
  if s.qsize = 0 then some (none, s)
  else s.search.bind fun (e, l, headSearch) =>
    if l = -1 then none
    else some (some e, { s with headSearch := headSearch, lastbucket := l, calClock := e.time })

/-- The part of `deque` that averages the gaps between departures and, from time to time, asks
for a new bucket width. -/
def adjustWidth (cfg : CalendarConfig) (s : CalendarScheduler) (e : Event ℚ) :
    Option CalendarScheduler :=
  if cfg.adjustNewWidthInterval = 0 then some s
  else if s.lastTime < 0 then some { s with lastTime := e.time }
  else
    let s := { s with gapNum := s.gapNum + 1 }
    if s.gapNum ≥ s.qsize then
      let s := { s with avgGap := (e.time - s.lastTime) / s.gapNum, gapNum := 0,
                        lastTime := e.time, roundNum := s.roundNum + 1 }
      if s.roundNum > 20 ∧
          (s.headSearch > s.insertSearch * 2 ∨ s.insertSearch > s.headSearch * 2) then
        (s.resize cfg s.nbuckets s.calClock).map fun s => { s with roundNum := 0 }
      else if s.roundNum > 100 then
        some { s with roundNum := 0, headSearch := 0, insertSearch := 0 }
      else some s
    else some s

/-- The unlinking of the event `head` has returned. It is the first of its bucket. -/
def unlinkHead (s : CalendarScheduler) (e : Event ℚ) : Option CalendarScheduler := do
  let b ← s.bucketAt s.lastbucket
  match b.list with
  | [] => none
  | x :: rest =>
    if x ≠ e then none
    else
      let last : ℤ := if rest.head?.all fun y => decide (y.time ≠ e.time) then 1 else 0
      some { s.setBucket s.lastbucket ⟨rest, b.count - last⟩ with
        statQsize := s.statQsize - last, qsize := s.qsize - 1 }

def deque (cfg : CalendarConfig) (s : CalendarScheduler) :
    Option (Option (Event ℚ) × CalendarScheduler) := do
  let (r, s) ← s.head
  match r with
  | none => some (none, s)
  | some e =>
    let s ← s.adjustWidth cfg e
    let s ← s.unlinkHead e
    if s.statQsize < s.botThreshold then
      (s.resize cfg (s.nbuckets / 2) s.calClock).map fun s => (some e, s)
    else some (some e, s)

/-- The neighbours of `e` on the circular list have other times, or there are none. -/
def uniqueTime (l : List (Event ℚ)) (e : Event ℚ) : Bool :=
  let before := l.takeWhile fun x => decide (x ≠ e)
  let after := (l.dropWhile fun x => decide (x ≠ e)).tail
  (after.head?.or before.head?).all (fun y => decide (y.time ≠ e.time)) &&
    (before.getLast?.or after.getLast?).all fun y => decide (y.time ≠ e.time)

def cancel (s : CalendarScheduler) (e : Event ℚ) : Option CalendarScheduler :=
  -- event not in queue
  if e.uid ≤ 0 then some s
  else
    let i := s.calendarHash e.time
    (s.bucketAt i).bind fun b =>
      if e ∈ b.list then
        let last : ℤ := if uniqueTime b.list e then 1 else 0
        let s' : CalendarScheduler := { s.setBucket i ⟨b.list.erase e, b.count - last⟩ with
          statQsize := s.statQsize - last, qsize := s.qsize - 1 }
        if last = 1 ∧ (s'.statQsize < 0 ∨ b.count - last < 0) then none
        else if b.count - last = 0 ∧ b.list.erase e ≠ [] then none
        else some s'
      else none

def step (cfg : CalendarConfig) (s : CalendarScheduler) :
    SchedulerOp ℚ → Option (CalendarScheduler × Option (Event ℚ))
  | .insert e => (s.insert cfg e).map fun s => (s, none)
  | .cancel e => (s.cancel e).map fun s => (s, none)
  | .deque => (s.deque cfg).map fun r => (r.2, r.1)

end CalendarScheduler

end NetworkSimulator
