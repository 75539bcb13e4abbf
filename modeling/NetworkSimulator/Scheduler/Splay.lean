import NetworkSimulator.Library.TreeStore
import NetworkSimulator.Scheduler.List

/-!
# `SplayScheduler`

The splay tree of `common/splay-scheduler.cc`. The links of the events are the memory `link`:
`LEFT(e)` is `prev_`, `RIGHT(e)` is `next_`, and an `Event **` is a location. `none` is a null
pointer that is followed, the `abort()` of `cancel`, or a loop that goes on for more rounds than
there are queued events.
-/

namespace NetworkSimulator
open Library

structure SplayScheduler (T : Type) where
  link : TreeStore (Event T)
  qsize : ℕ

namespace SplayScheduler
variable {T : Type} [LinearOrder T]

abbrev LEFT (e : Event T) : Loc (Event T) := .child .left e
abbrev RIGHT (e : Event T) : Loc (Event T) := .child .right e

/-- `SplayScheduler()`; the links of events that are not queued are arbitrary. -/
def Empty (s : SplayScheduler T) : Prop := s.link .root = none ∧ s.qsize = 0

/-- `ROTATE_RIGHT(t, x)` for `d = left`, `ROTATE_LEFT(t, x)` for `d = right`, up to `t = x`. -/
def rotate (d : Side) (m : TreeStore (Event T)) (t x : Event T) : TreeStore (Event T) :=
  let m := Function.update m (.child d t) (m (.child d.other x))
  Function.update m (.child d.other x) (some t)

/-- One arm of the loop of `insert`; the arms mirror each other. `near` is the node whose field
`d` waits for the nodes that go to the same side as `t`, `far` the node of the other half: for
`d = left` they are `r` and `l`. `next` is the rest of the loop after `LINK_RIGHT` or `LINK_LEFT`. -/
def splayArm (d : Side) (same : Event T → Bool)
    (next : TreeStore (Event T) → Event T → Event T → Option (TreeStore (Event T)))
    (m : TreeStore (Event T)) (near far t : Event T) : Option (TreeStore (Event T)) :=
  match m (.child d t) with
  | none =>
    let m := Function.update m (.child d near) (some t)
    some (Function.update m (.child d.other far) none)
  | some x =>
    let (m, t) := if same x then (rotate d m t x, x) else (m, t)
    -- `near` becomes `t`, and `t` its child
    let m := Function.update m (.child d near) (some t)
    match m (.child d t) with
    | none => some (Function.update m (.child d.other far) none)
    | some t' => next m t t'

/-- The loop of `insert`. -/
def splay (time : T) : ℕ → TreeStore (Event T) → Event T → Event T → Event T →
    Option (TreeStore (Event T))
  | 0, _, _, _, _ => none
  | fuel + 1, m, l, r, t =>
    if time < t.time then
      splayArm .left (fun x => decide (time < x.time)) (fun m r t => splay time fuel m l r t) m r l t
    else
      splayArm .right (fun x => decide (x.time ≤ time)) (fun m l t => splay time fuel m l r t) m l r t

def insert (s : SplayScheduler T) (n : Event T) : Option (SplayScheduler T) :=
  let qsize := s.qsize + 1
  match s.link .root with
  | none =>
    let m := Function.update (Function.update s.link (RIGHT n) none) (LEFT n) none
    some ⟨Function.update m .root (some n), qsize⟩
  | some t =>
    let m := Function.update s.link .root (some n)
    (splay n.time qsize m n n t).map fun m =>
      -- swap left and right children
      let x := m (LEFT n)
      let m := Function.update m (LEFT n) (m (RIGHT n))
      ⟨Function.update m (RIGHT n) x, qsize⟩

/-- The loop of `deque`: the event taken out and the links after it. -/
def dequeLoop : ℕ → TreeStore (Event T) → Event T → Event T →
    Option (Event T × TreeStore (Event T))
  | 0, _, _, _ => none
  | fuel + 1, m, t, l =>
    match m (LEFT l) with
    | none => some (l, Function.update m (LEFT t) (m (RIGHT l)))
    | some ll =>
      match m (LEFT ll) with
      | none => some (ll, Function.update m (LEFT l) (m (RIGHT ll)))
      | some lll =>
        -- zig-zig: rotate l with ll
        let m := Function.update m (LEFT t) (some ll)
        let m := Function.update m (LEFT l) (m (RIGHT ll))
        let m := Function.update m (RIGHT ll) (some l)
        dequeLoop fuel m ll lll

def deque (s : SplayScheduler T) : Option (Option (Event T) × SplayScheduler T) :=
  match s.link .root with
  | none => some (none, s)
  | some t =>
    let qsize := s.qsize - 1
    match s.link (LEFT t) with
    | none => some (some t, ⟨Function.update s.link .root (s.link (RIGHT t)), qsize⟩)
    | some l => (dequeLoop s.qsize s.link t l).map fun r => (some r.1, ⟨r.2, qsize⟩)

/-- The search of `cancel`: from the location `t`, which does not point to `e`, down to the one
that does. -/
def search (m : TreeStore (Event T)) (e : Event T) : ℕ → Loc (Event T) → Option (Loc (Event T))
  | 0, _ => none
  | fuel + 1, t =>
    match m t with
    | none => none
    | some a =>
      let t := if e.time > a.time ∨ e.time = a.time ∧ e.uid > a.uid then RIGHT a else LEFT a
      if m t = some e then some t else search m e fuel t

/-- `for (; LEFT(q); p = q, q = LEFT(q))`. -/
def successor (m : TreeStore (Event T)) : ℕ → Event T → Event T → Option (Event T × Event T)
  | 0, _, _ => none
  | fuel + 1, p, q =>
    match m (LEFT q) with
    | none => some (p, q)
    | some q' => successor m fuel q q'

/-- The unlinking of `e`, to which the location `t` points. -/
def splice (fuel : ℕ) (m : TreeStore (Event T)) (t : Loc (Event T)) (e : Event T) :
    Option (TreeStore (Event T)) :=
  match m (RIGHT e) with
  | none =>
    let m := Function.update m t (m (LEFT e))
    some (Function.update m (LEFT e) none)
  | some p =>
    match m (LEFT e) with
    | none =>
      let m := Function.update m t (m (RIGHT e))
      some (Function.update m (RIGHT e) none)
    | some _ =>
      match m (LEFT p) with
      | none =>
        -- p is the successor
        let m := Function.update m t (some p)
        some (Function.update m (LEFT p) (m (LEFT e)))
      | some q => (successor m fuel p q).map fun (p, q) =>
        let m := Function.update m t (some q)
        let m := Function.update m (LEFT p) (m (RIGHT q))
        let m := Function.update m (LEFT q) (m (LEFT e))
        let m := Function.update m (RIGHT q) (m (RIGHT e))
        Function.update (Function.update m (LEFT e) none) (RIGHT e) none

def cancel (s : SplayScheduler T) (e : Event T) : Option (SplayScheduler T) :=
  -- event not in queue
  if e.uid ≤ 0 then some s
  else
    let t := if s.link .root = some e then some .root else search s.link e s.qsize .root
    t.bind fun t => (splice s.qsize s.link t e).map fun m => ⟨m, s.qsize - 1⟩

def step (s : SplayScheduler T) : SchedulerOp T → Option (SplayScheduler T × Option (Event T))
  | .insert e => (s.insert e).map fun s => (s, none)
  | .cancel e => (s.cancel e).map fun s => (s, none)
  | .deque => s.deque.map fun r => (r.2, r.1)

end SplayScheduler

end NetworkSimulator
