import Mathlib.Algebra.BigOperators.Group.List.Basic
import Mathlib.Algebra.Order.Ring.Int
import Mathlib.Data.List.TakeWhile
import NetworkSimulator.Library.Links
import NetworkSimulator.Library.Runs

/-!
# Packet queues

`PacketQueue` links the packets through their `next_` fields and counts packets and bytes. What it is for is the list
of the packets, from the head to the tail.
-/

namespace NetworkSimulator
open Library

/-- The packets are named by `ι`. -/
structure PacketQueue (ι : Type) where
  head : Option ι
  tail : Option ι
  len : ℤ
  bytes : ℤ
  next : ι → Option ι

inductive PacketQueueOp (ι : Type)
  | enque (p : ι)
  | enqueHead (p : ι)
  | deque
  | lookup (n : ℤ)
  | remove (target : ι)
  | removeAfter (pkt prev : Option ι)

variable {ι : Type} [DecidableEq ι]

namespace PacketQueue
variable (size : ι → ℤ)

def init : PacketQueue ι := ⟨none, none, 0, 0, fun _ => none⟩

def enque (q : PacketQueue ι) (p : ι) : PacketQueue ι × Option ι :=
  let linked := match q.tail with
    | none => { q with head := some p, tail := some p }
    | some t => { q with next := Function.update q.next t (some p), tail := some p }
  ({ linked with
    next := Function.update linked.next p none, len := linked.len + 1, bytes := linked.bytes + size p }, q.tail)

def deque (q : PacketQueue ι) : PacketQueue ι × Option ι :=
  match q.head with
  | none => (q, none)
  | some p =>
    let rest := if q.tail = some p then { q with head := none, tail := none } else { q with head := q.next p }
    ({ rest with len := rest.len - 1, bytes := rest.bytes - size p }, some p)

/-- The loop of `lookup`. -/
def lookupFrom (next : ι → Option ι) : ℕ → Option ι → ℤ → Option ι
  | 0, _, _ => none
  | _ + 1, none, _ => none
  | fuel + 1, some p, n => if n - 1 < 0 then some p else lookupFrom next fuel (next p) (n - 1)

def lookup (q : PacketQueue ι) (n : ℤ) : Option ι := lookupFrom q.next q.len.toNat q.head n

/-- The writes for a packet behind `prev`. -/
def unlink (q : PacketQueue ι) (p prev : ι) : PacketQueue ι :=
  { q with
    tail := if q.tail = some p then some prev else q.tail
    next := Function.update q.next prev (q.next p)
    len := q.len - 1
    bytes := q.bytes - size p }

/-- `none` is the `abort()` when the packet is not found. -/
def remove (q : PacketQueue ι) (target : ι) : Option (PacketQueue ι) :=
  match search q.next (fun p => p = target) (q.len.toNat + 1) q.head none with
  | some (some _, none) => some (q.deque size).1
  | some (some p, some pp) => some (q.unlink size p pp)
  | _ => none

/-- `remove` with two arguments; `none` is a null pointer for `prev` that is used. -/
def removeAfter (q : PacketQueue ι) (pkt prev : Option ι) : Option (PacketQueue ι) :=
  match pkt with
  | none => some q
  | some p => if q.head = some p then some (q.deque size).1 else prev.map fun prev => q.unlink size p prev

def enqueHead (q : PacketQueue ι) (p : ι) : PacketQueue ι :=
  { q with
    tail := if q.head.isNone then some p else q.tail
    next := Function.update q.next p q.head
    head := some p
    len := q.len + 1
    bytes := q.bytes + size p }

def step (q : PacketQueue ι) : PacketQueueOp ι → Option (PacketQueue ι × Option ι)
  | .enque p => some (q.enque size p)
  | .enqueHead p => some (q.enqueHead size p, none)
  | .deque => some (q.deque size)
  | .lookup n => some (q, q.lookup n)
  | .remove target => (q.remove size target).map fun q => (q, none)
  | .removeAfter pkt prev => (q.removeAfter size pkt prev).map fun q => (q, none)

end PacketQueue

/-! ### The list of the packets -/

namespace PacketList

def next (l : List ι) : PacketQueueOp ι → List ι
  | .enque p => l ++ [p]
  | .enqueHead p => p :: l
  | .deque => l.tail
  | .lookup _ => l
  | .remove target => l.erase target
  | .removeAfter pkt _ => pkt.elim l l.erase

def out (l : List ι) : PacketQueueOp ι → Option ι
  | .enque _ => l.getLast?
  | .deque => l.head?
  | .lookup n => l[n.toNat]?
  | _ => none

/-- A packet comes into the queue only once, `remove` takes one that is there, and the packet before it is given to
`remove` unless it is the head. -/
def Admitted (l : List ι) : PacketQueueOp ι → Prop
  | .enque p | .enqueHead p => p ∉ l
  | .remove target => target ∈ l
  | .removeAfter pkt prev => ∀ p ∈ pkt, p ∈ l ∧ (l.head? = some p ∨ prev = (l.takeWhile (· ≠ p)).getLast?)
  | _ => True

end PacketList

namespace PacketQueue
variable {size : ι → ℤ}

/-- The queue holds the list. -/
structure Holds (size : ι → ℤ) (q : PacketQueue ι) (l : List ι) : Prop where
  chain : Chain q.next q.head l
  tail : q.tail = l.getLast?
  nodup : l.Nodup
  len : q.len = l.length
  bytes : q.bytes = (l.map size).sum

omit [DecidableEq ι] in
lemma holds_init : (init : PacketQueue ι).Holds size [] := ⟨rfl, rfl, List.nodup_nil, rfl, rfl⟩

namespace Holds
variable {q : PacketQueue ι} {l : List ι} {p : ι} (h : q.Holds size l)
include h

omit [DecidableEq ι] in
lemma head : q.head = l.head? := h.chain.head_eq

lemma enque (hp : p ∉ l) : (q.enque size p).1.Holds size (l ++ [p]) := by
  have hne : ∀ y ∈ l, y ≠ p := fun y hy heq => hp (heq ▸ hy)
  have hnodup : (l ++ [p]).Nodup := List.nodup_append.mpr ⟨h.nodup, List.nodup_singleton p, fun a ha b hb => by
    obtain rfl := List.mem_singleton.mp hb
    exact hne a ha⟩
  have hlen : q.len + 1 = (l ++ [p]).length := by
    rw [h.len, List.length_append]
    rfl
  have hbytes : q.bytes + size p = ((l ++ [p]).map size).sum := by simp [h.bytes]
  unfold PacketQueue.enque
  rcases List.eq_nil_or_concat' l with rfl | ⟨m, t, rfl⟩
  · rw [show q.tail = none from h.tail]
    exact ⟨⟨rfl, Function.update_self _ _ _⟩, rfl, hnodup, hlen, hbytes⟩
  · have htail : q.tail = some t := by rw [h.tail, List.getLast?_concat]
    rw [htail]
    refine ⟨?_, by rw [List.getLast?_concat], hnodup, hlen, hbytes⟩
    have hcleared : Chain (Function.update q.next p none) q.head (m ++ [t]) := h.chain.congr fun y hy =>
      Function.update_of_ne (hne y hy) _ _
    have hconcat := hcleared.concat h.nodup hp (Function.update_self _ _ _)
    rwa [Function.update_comm (hne t (by simp)).symm] at hconcat

lemma enqueHead (hp : p ∉ l) : (q.enqueHead size p).Holds size (p :: l) := by
  have hne : ∀ y ∈ l, y ≠ p := fun y hy heq => hp (heq ▸ hy)
  refine ⟨⟨rfl, ?_⟩, ?_, List.nodup_cons.mpr ⟨hp, h.nodup⟩, ?_, ?_⟩
  · dsimp only [PacketQueue.enqueHead]
    rw [Function.update_self]
    exact h.chain.congr fun y hy => Function.update_of_ne (hne y hy) _ _
  · dsimp only [PacketQueue.enqueHead]
    rw [h.head, h.tail]
    cases l with
    | nil => rfl
    | cons y l =>
      rw [List.getLast?_cons_cons]
      rfl
  · dsimp only [PacketQueue.enqueHead]
    rw [h.len]
    rfl
  · dsimp only [PacketQueue.enqueHead]
    rw [h.bytes, List.map_cons, List.sum_cons, add_comm]

omit [DecidableEq ι] in
/-- The head is the tail of a queue of one packet. -/
lemma tail_eq_head_iff (hl : l = p :: l.tail) : q.tail = some p ↔ l.tail = [] := by
  rw [h.tail]
  have hnodup := h.nodup
  generalize l.tail = r at hl ⊢
  subst hl
  cases r with
  | nil => exact iff_of_true rfl rfl
  | cons y r =>
    rw [List.getLast?_cons_cons]
    exact iff_of_false (fun hlast => (List.nodup_cons.mp hnodup).1 (List.mem_of_getLast? hlast)) nofun

lemma deque : (q.deque size).1.Holds size l.tail ∧ (q.deque size).2 = l.head? := by
  unfold PacketQueue.deque
  cases l with
  | nil =>
    rw [show q.head = none from h.head]
    exact ⟨h, rfl⟩
  | cons p l =>
    have hone := h.tail_eq_head_iff (p := p) rfl
    have hlen : q.len - 1 = l.length := by
      rw [h.len, List.length_cons, Nat.cast_succ, add_sub_cancel_right]
    have hbytes : q.bytes - size p = (l.map size).sum := by
      rw [h.bytes, List.map_cons, List.sum_cons, add_sub_cancel_left]
    have hnodup := (List.nodup_cons.mp h.nodup).2
    rw [show q.head = some p from h.head]
    dsimp only
    by_cases htail : q.tail = some p
    · obtain rfl : l = [] := hone.mp htail
      rw [if_pos htail]
      exact ⟨⟨rfl, rfl, hnodup, hlen, hbytes⟩, rfl⟩
    · obtain ⟨y, r, rfl⟩ := List.exists_cons_of_ne_nil fun hl => htail (hone.mpr hl)
      rw [if_neg htail]
      exact ⟨⟨h.chain.2, h.tail.trans List.getLast?_cons_cons, hnodup, hlen, hbytes⟩, rfl⟩

/-- The packet `p` behind `prev` is left out. -/
lemma unlink {m r : List ι} {prev : ι} (hl : l = m ++ prev :: p :: r) :
    (q.unlink size p prev).Holds size (m ++ prev :: r) := by
  subst hl
  have hnodup := h.nodup
  have hsub : (m ++ prev :: r).Sublist (m ++ prev :: p :: r) :=
    ((List.sublist_cons_self p r).cons_cons prev).append_left m
  refine ⟨h.chain.remove h.nodup, ?_, hnodup.sublist hsub, ?_, ?_⟩
  · have htail : q.tail = (p :: r).getLast? := by
      rw [h.tail, List.getLast?_append_of_ne_nil _ (by simp), List.getLast?_cons_cons]
    dsimp only [PacketQueue.unlink]
    rw [List.getLast?_append_of_ne_nil _ (by simp), htail]
    have hp : p ∉ r := (List.nodup_cons.mp (List.nodup_cons.mp (List.nodup_append.mp hnodup).2.1).2).1
    cases r with
    | nil => exact if_pos rfl
    | cons y r =>
      rw [List.getLast?_cons_cons, List.getLast?_cons_cons]
      exact if_neg fun hlast => hp (List.mem_of_getLast? hlast)
  · dsimp only [PacketQueue.unlink]
    rw [h.len]
    simp only [List.length_append, List.length_cons, Nat.cast_add, Nat.cast_one]
    omega
  · dsimp only [PacketQueue.unlink]
    rw [h.bytes]
    simp only [List.map_append, List.map_cons, List.sum_append, List.sum_cons]
    omega

omit [DecidableEq ι] in
/-- The loop of `lookup` walks along the list; a negative number gets the head. -/
lemma lookup (n : ℤ) : q.lookup n = l[n.toNat]? := by
  have hwalk : ∀ (l : List ι) (x : Option ι) (n : ℤ), Chain q.next x l →
      lookupFrom q.next l.length x n = l[n.toNat]? := by
    intro l
    induction l with
    | nil => exact fun x n _ => List.getElem?_nil.symm
    | cons y l ih =>
      rintro x n ⟨rfl, hl⟩
      rw [List.length_cons, lookupFrom]
      by_cases hn : n - 1 < 0
      · rw [if_pos hn, show n.toNat = 0 by omega]
        rfl
      · rw [if_neg hn, ih _ _ hl, show n.toNat = (n - 1).toNat + 1 by omega, List.getElem?_cons_succ]
  unfold PacketQueue.lookup
  rw [h.len, Int.toNat_natCast]
  exact hwalk l q.head n h.chain

lemma removeFound {m r : List ι} (hl : l = m ++ p :: r) :
    ∃ q', (m.getLast?.elim (some (q.deque size).1) fun pp => some (q.unlink size p pp)) = some q' ∧
      q'.Holds size (l.erase p) := by
  subst hl
  have hm : p ∉ m := fun hp => (List.nodup_append.mp h.nodup).2.2 p hp p List.mem_cons_self rfl
  rw [List.erase_append_right _ hm, List.erase_cons_head]
  rcases List.eq_nil_or_concat' m with rfl | ⟨m, pp, rfl⟩
  · exact ⟨_, rfl, h.deque.1⟩
  · rw [List.getLast?_concat]
    have hl : m ++ [pp] ++ p :: r = m ++ pp :: p :: r := List.append_assoc m [pp] (p :: r)
    exact ⟨_, rfl, by simpa using h.unlink hl⟩

lemma remove (hp : p ∈ l) : ∃ q', q.remove size p = some q' ∧ q'.Holds size (l.erase p) := by
  obtain ⟨m, r, hl, hm⟩ := List.eq_append_cons_of_mem hp
  have hfound : search q.next (fun y => y = p) (q.len.toNat + 1) q.head none = some (some p, m.getLast?) := by
    have hchain := h.chain
    rw [hl] at hchain
    have hfuel : (m ++ p :: r).length < q.len.toNat + 1 := by
      rw [h.len, hl, Int.toNat_natCast]
      exact Nat.lt_add_one _
    have hbefore : ∀ y ∈ m, decide (y = p) = false := fun y hy => decide_eq_false (ne_of_mem_of_not_mem hy hm)
    rw [search_some hchain hfuel hbefore (decide_eq_true rfl), Option.or_none]
  obtain ⟨q', hq', hholds⟩ := h.removeFound hl
  refine ⟨q', ?_, hholds⟩
  rw [← hq']
  unfold PacketQueue.remove
  rw [hfound]
  cases m.getLast? <;> rfl

lemma removeAfter {pkt prev : Option ι} (hadmitted : PacketList.Admitted l (.removeAfter pkt prev)) :
    ∃ q', q.removeAfter size pkt prev = some q' ∧ q'.Holds size (pkt.elim l l.erase) := by
  cases pkt with
  | none => exact ⟨q, rfl, h⟩
  | some p =>
    obtain ⟨hp, hprev⟩ := hadmitted p rfl
    obtain ⟨m, r, hl, hm⟩ := List.eq_append_cons_of_mem hp
    obtain ⟨q', hq', hholds⟩ := h.removeFound hl
    refine ⟨q', ?_, hholds⟩
    rw [← hq']
    unfold PacketQueue.removeAfter
    rw [h.head]
    rcases List.eq_nil_or_concat' m with rfl | ⟨m, pp, rfl⟩
    · exact if_pos (by rw [hl]; rfl)
    · have hhead : l.head? ≠ some p := fun heq => by
        rw [hl, List.head?_append_of_ne_nil _ (by simp)] at heq
        exact hm (List.mem_of_head? heq)
      have hbefore : prev = some pp := by
        have hall : ∀ y ∈ m ++ [pp], decide (y ≠ p) = true := fun y hy => decide_eq_true fun heq => hm (heq ▸ hy)
        rw [hprev.resolve_left hhead, hl, List.takeWhile_append_of_pos hall,
          List.takeWhile_cons_of_neg (by simp), List.append_nil, List.getLast?_concat]
      dsimp only
      rw [if_neg hhead, hbefore, List.getLast?_concat]
      rfl

end Holds

lemma Holds.step {q : PacketQueue ι} {l : List ι} {op : PacketQueueOp ι} (h : q.Holds size l)
    (hop : PacketList.Admitted l op) :
    ∃ q', q.step size op = some (q', PacketList.out l op) ∧ q'.Holds size (PacketList.next l op) := by
  cases op with
  | enque p => exact ⟨_, congrArg (fun o => some (_, o)) h.tail, h.enque hop⟩
  | enqueHead p => exact ⟨_, rfl, h.enqueHead hop⟩
  | deque => exact ⟨_, congrArg (fun o => some (_, o)) h.deque.2, h.deque.1⟩
  | lookup n => exact ⟨q, congrArg (fun o => some (q, o)) (h.lookup n), h⟩
  | remove target =>
    obtain ⟨q', hq', hholds⟩ := h.remove hop
    exact ⟨q', congrArg (Option.map fun q => (q, none)) hq', hholds⟩
  | removeAfter pkt prev =>
    obtain ⟨q', hq', hholds⟩ := h.removeAfter hop
    exact ⟨q', congrArg (Option.map fun q => (q, none)) hq', hholds⟩

/-- The queue follows the list along every run. -/
theorem packetQueue_run (ops : List (PacketQueueOp ι))
    (h : AdmissibleRun PacketList.Admitted PacketList.next [] ops) :
    ∃ q, run (step size) init ops = some (q, outputs PacketList.next PacketList.out [] ops) ∧
      q.head = (ops.foldl PacketList.next []).head? ∧ q.tail = (ops.foldl PacketList.next []).getLast? ∧
      q.len = (ops.foldl PacketList.next []).length ∧ q.bytes = ((ops.foldl PacketList.next []).map size).sum := by
  obtain ⟨q, hrun, hholds⟩ := run_simulates (fun q l op => Holds.step) ops holds_init h
  exact ⟨q, hrun, hholds.head, hholds.tail, hholds.len, hholds.bytes⟩

/-- Three packets come, the second one is taken out behind the first one, and a fourth one goes to the front. -/
def fourPackets : List (PacketQueueOp ℕ) :=
  [.enque 1, .enque 2, .enque 3, .removeAfter (some 2) (some 1), .enqueHead 4, .lookup 2, .remove 3, .deque]

theorem packetQueue_run_fourPackets : ∃ q : PacketQueue ℕ,
    run (step fun p : ℕ => 100 * (p : ℤ)) init fourPackets =
      some (q, [none, some 1, some 2, none, none, some 3, none, some 4]) ∧
      q.head = some 1 ∧ q.tail = some 1 ∧ q.len = 1 ∧ q.bytes = 100 :=
  packetQueue_run fourPackets (by simp [fourPackets, AdmissibleRun, PacketList.Admitted, PacketList.next])

end PacketQueue

end NetworkSimulator
