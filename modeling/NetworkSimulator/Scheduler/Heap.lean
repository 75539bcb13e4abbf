import Mathlib.Algebra.Group.Int.Defs
import Mathlib.Algebra.Group.Nat.Defs
import Mathlib.Data.Prod.Lex
import Mathlib.Logic.Function.Basic
import NetworkSimulator.Scheduler.List

/-!
# `HeapScheduler`

`class Heap` of `common/heap.h` and `common/scheduler.cc`. `h_s_key`, `h_size` and `h_maxsize` are
`unsigned int`, so are the positions, and `heap_member` returns an `int`. `none` is an access
outside the `h_maxsize` elements of `h_elems`, a copy into an array that is too small, or an `int`
that overflows.
-/

namespace NetworkSimulator
open Library

structure HeapElem (T : Type) where
  key : T
  sKey : ℕ
  elem : Event T

structure Heap (T : Type) where
  elems : ℕ → HeapElem T
  sKey : ℕ
  size : ℕ
  maxsize : ℕ

namespace Heap
variable {T : Type} [LinearOrder T]

def defaultSize : ℕ := 32

/-- `Heap(int size = HEAP_DEFAULT_SIZE)`; what the fresh elements hold is never read. -/
def Empty (s : Heap T) : Prop := s.sKey = 0 ∧ s.size = 0 ∧ s.maxsize = defaultSize

def parent (i : ℕ) : ℕ := (i + 2 ^ 32 - 1) % 2 ^ 32 / 2

def left (i : ℕ) : ℕ := (i * 2 + 1) % 2 ^ 32

def right (i : ℕ) : ℕ := (i + 1) * 2 % 2 ^ 32

/-- `KEY_LESS_THAN` on two elements. -/
def keyLessThan (a b : HeapElem T) : Prop := a.key < b.key ∨ a.key = b.key ∧ a.sKey < b.sKey

instance (a b : HeapElem T) : Decidable (keyLessThan a b) := by
  unfold keyLessThan
  infer_instance

/-- `h_elems[i]`. -/
def get (s : Heap T) (i : ℕ) : Option (HeapElem T) :=
  if i < s.maxsize then some (s.elems i) else none

/-- `h_elems[i] = e`. -/
def set (s : Heap T) (i : ℕ) (e : HeapElem T) : Option (Heap T) :=
  if i < s.maxsize then some { s with elems := Function.update s.elems i e } else none

def swap (s : Heap T) (i j : ℕ) : Option (Heap T) := do
  let a ← s.get i
  let b ← s.get j
  let s ← s.set i b
  s.set j a

/-- The loop of `heap_member`, `n` elements from `i` on. -/
def memberFrom (s : Heap T) (elem : Event T) : ℕ → ℕ → Option ℤ
  | 0, _ => some 0
  | n + 1, i => do
    let he ← s.get i
    -- `return ++i`: the unsigned position becomes an `int`
    if he.elem = elem then some (Int.bmod (i + 1) (2 ^ 32)) else memberFrom s elem n (i + 1)

def heapMember (s : Heap T) (elem : Event T) : Option ℤ := s.memberFrom elem s.size 0

/-- `heap_insert` when `h_elems` is full. -/
def grow (s : Heap T) : Option (Heap T) :=
  let osize := s.maxsize
  let maxsize := s.maxsize * 2 % 2 ^ 32
  -- the `memcpy` of `osize` elements
  if osize ≤ maxsize then some { s with maxsize := maxsize } else none

/-- The loop of `heap_insert`: elements move down until `e` fits at the position returned. -/
def siftUp (e : HeapElem T) : ℕ → Heap T → ℕ → Option (Heap T × ℕ)
  | 0, _, _ => none
  | fuel + 1, s, i =>
    if i = 0 then some (s, i)
    else do
      let p ← s.get (parent i)
      if keyLessThan e p then do
        let s ← s.set i p
        siftUp e fuel s (parent i)
      else some (s, i)

def heapInsert (s : Heap T) (key : T) (elem : Event T) : Option (Heap T) :=
  let grown := if s.maxsize = s.size then s.grow else some s
  grown.bind fun s => do
    let e : HeapElem T := ⟨key, s.sKey, elem⟩
    let (s, i) ← siftUp e (s.size + 1) { s with size := (s.size + 1) % 2 ^ 32 } s.size
    let s ← s.set i e
    some { s with sKey := (s.sKey + 1) % 2 ^ 32 }

/-- The child that `heap_extract_min` compares with its parent `i`, `i` itself if there is none. -/
def smallerChild (s : Heap T) (i : ℕ) : Option ℕ :=
  if right i < s.size then do
    let l ← s.get (left i)
    let r ← s.get (right i)
    some (if keyLessThan l r then left i else right i)
  else some (if left i < s.size then left i else i)

def heapify : ℕ → Heap T → ℕ → Option (Heap T)
  | 0, _, _ => none
  | fuel + 1, s, i =>
    if i < s.size then do
      let x ← s.smallerChild i
      if x = i then some s
      else do
        let ex ← s.get x
        let ei ← s.get i
        if keyLessThan ex ei then do
          let s ← s.swap i x
          heapify fuel s x
        else some s
    else some s

def heapExtractMin (s : Heap T) : Option (Option (Event T) × Heap T) :=
  if s.size = 0 then some (none, s)
  else do
    let min ← s.get 0
    let last ← s.get (s.size - 1)
    let s ← { s with size := s.size - 1 }.set 0 last
    let s ← heapify (s.size + 1) s 0
    some (some min.elem, s)

/-- The loop of `heap_delete`: the element at `i` goes to the root. -/
def toRoot : ℕ → Heap T → ℕ → Option (Heap T)
  | 0, _, _ => none
  | fuel + 1, s, i =>
    if i = 0 then some s
    else do
      let s ← s.swap i (parent i)
      toRoot fuel s (parent i)

def heapDelete (s : Heap T) (elem : Event T) : Option (Heap T) := do
  let i ← s.heapMember elem
  if i = 0 then some s
  -- `--i` on the least `int`
  else if i = -2 ^ 31 then none
  else do
    let i := ((i - 1) % 2 ^ 32).toNat
    let s ← toRoot (i + 1) s i
    let (_, s) ← s.heapExtractMin
    some s

end Heap

namespace HeapScheduler
variable {T : Type} [LinearOrder T]

def cancel (s : Heap T) (e : Event T) : Option (Heap T) :=
  if e.uid ≤ 0 then some s else s.heapDelete e

def insert (s : Heap T) (e : Event T) : Option (Heap T) := s.heapInsert e.time e

def deque (s : Heap T) : Option (Option (Event T) × Heap T) := s.heapExtractMin

def step (s : Heap T) : SchedulerOp T → Option (Heap T × Option (Event T))
  | .insert e => (insert s e).map fun s => (s, none)
  | .cancel e => (cancel s e).map fun s => (s, none)
  | .deque => (deque s).map fun r => (r.2, r.1)

end HeapScheduler

end NetworkSimulator
