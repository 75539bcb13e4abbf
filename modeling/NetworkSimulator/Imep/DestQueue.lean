import Mathlib.Data.Rat.Defs
import Mathlib.Algebra.Order.Ring.Rat
import Mathlib.Data.List.Basic
import Mathlib.Tactic.Common
import Mathlib.Tactic.Linarith

/-!
# The resequencing queues

`dstQueue` has a queue for each source of packets, sorted by the 8-bit comparison of sequence numbers.
A packet leaves it when it is the next of its source, or when the time that it may wait is over.
-/

namespace NetworkSimulator.Imep

variable {π : Type*}

def ILLEGAL_SEQ : ℕ := 257

structure Txent (π : Type*) where
  expire : ℚ
  seqno : ℕ
  pkt : π

/-- The entry of one source; `seqno` is where a chain of packets that is being pulled off has come to. -/
structure Dstent (π : Type*) where
  ipaddr : ℤ
  seqno : ℕ := ILLEGAL_SEQ
  txents : List (Txent π) := []

/-- The difference of two sequence numbers in a register of eight bits. -/
def reg (a b : ℕ) : ℤ := Int.bmod (a - b) 256

def SEQ_GT (a b : ℕ) : Prop := reg a b > 0
  deriving Decidable

namespace Dstent

/-- Before the first packet that is greater. -/
def insert (t : Txent π) : List (Txent π) → List (Txent π)
  | [] => [t]
  | u :: us => if SEQ_GT u.seqno t.seqno then t :: u :: us else u :: insert t us

def findEntry (d : Dstent π) (s : ℕ) : Option (Txent π) := d.txents.find? fun t => t.seqno = s

def addEntry (d : Dstent π) (e : ℚ) (s : ℕ) (p : π) : Dstent π :=
  if (d.findEntry s).isSome then d else { d with txents := insert ⟨e, s, p⟩ d.txents }

def delEntry (d : Dstent π) (s : ℕ) : Dstent π :=
  { d with txents := d.txents.eraseP fun t => t.seqno = s }

/-- The least of the times, `none` for the 0.0 of an empty queue. -/
def expire (d : Dstent π) : Option ℚ := (d.txents.map Txent.expire).min?

def getPacket (d : Dstent π) (s : ℕ) : Dstent π × Option π :=
  match d.findEntry s with
  | some t => (d.delEntry s, some t.pkt)
  | none => (d, none)

/-- What the loop of `getNextPacket` does for one source. -/
def getNextPacket (now : ℚ) (d : Dstent π) : Dstent π × Option (Txent π) :=
  match d.txents with
  | [] => ({ d with seqno := ILLEGAL_SEQ }, none)
  | t :: ts =>
    if (∀ texp ∈ d.expire, texp > now) ∧ d.seqno = ILLEGAL_SEQ then (d, none)
    else if t.expire ≤ now then ({ d with seqno := t.seqno, txents := ts }, some t)
    else if d.seqno ≠ ILLEGAL_SEQ ∧ t.seqno ≠ (d.seqno + 1) % 256 then
      -- the next packet is not part of the chain
      ({ d with seqno := ILLEGAL_SEQ }, none)
    else ({ d with seqno := if d.seqno ≠ ILLEGAL_SEQ then t.seqno else d.seqno, txents := ts }, some t)

variable {d : Dstent π} {now : ℚ}

/-- No packet of the source has waited long enough. -/
lemma expire_gt : (∀ texp ∈ d.expire, texp > now) ↔ ∀ t ∈ d.txents, t.expire > now := by
  unfold expire
  cases h : (d.txents.map Txent.expire).min? with
  | none =>
    have hnil : d.txents = [] := by simpa using h
    simp [hnil]
  | some m =>
    obtain ⟨hm, hle⟩ := List.min?_eq_some_iff.mp h
    constructor
    · exact fun hgt t ht => lt_of_lt_of_le (hgt m rfl) (hle _ (List.mem_map_of_mem ht))
    · intro hgt texp htexp
      obtain rfl := Option.mem_some_iff.mp htexp
      obtain ⟨t, ht, rfl⟩ := List.mem_map.mp hm
      exact hgt t ht

/-- Why nothing is handed out. -/
def Held (now : ℚ) (d : Dstent π) : Prop :=
  (d.seqno = ILLEGAL_SEQ ∧ ∀ t ∈ d.txents, t.expire > now) ∨
    ∃ t ts, d.txents = t :: ts ∧ t.expire > now ∧ d.seqno ≠ ILLEGAL_SEQ ∧ t.seqno ≠ (d.seqno + 1) % 256

/-- Why the head `t` is handed out, and where the chain comes to. -/
def Pulled (now : ℚ) (d : Dstent π) (t : Txent π) (seqno : ℕ) : Prop :=
  (t.expire ≤ now ∧ seqno = t.seqno) ∨
    (t.expire > now ∧ d.seqno ≠ ILLEGAL_SEQ ∧ t.seqno = (d.seqno + 1) % 256 ∧ seqno = t.seqno) ∨
    (t.expire > now ∧ d.seqno = ILLEGAL_SEQ ∧ seqno = ILLEGAL_SEQ ∧ ∃ u ∈ d.txents, u.expire ≤ now)

lemma getNextPacket_cases (now : ℚ) (d : Dstent π) :
    (d.getNextPacket now = ({ d with seqno := ILLEGAL_SEQ }, none) ∧ (d.txents = [] ∨ d.Held now)) ∨
      ∃ t ts seqno, d.txents = t :: ts ∧ d.getNextPacket now = ({ d with seqno := seqno, txents := ts }, some t) ∧
        d.Pulled now t seqno := by
  unfold getNextPacket
  cases h : d.txents with
  | nil => exact .inl ⟨rfl, .inl rfl⟩
  | cons t ts =>
    simp only
    by_cases hheld : (∀ texp ∈ d.expire, texp > now) ∧ d.seqno = ILLEGAL_SEQ
    · rw [if_pos hheld]
      refine .inl ⟨?_, .inr (.inl ⟨hheld.2, expire_gt.mp hheld.1⟩)⟩
      rw [← hheld.2, ← h]
    · rw [if_neg hheld]
      by_cases hexp : t.expire ≤ now
      · rw [if_pos hexp]
        exact .inr ⟨t, ts, t.seqno, rfl, rfl, .inl ⟨hexp, rfl⟩⟩
      · rw [if_neg hexp]
        have hgt := not_le.mp hexp
        by_cases hchain : d.seqno ≠ ILLEGAL_SEQ ∧ t.seqno ≠ (d.seqno + 1) % 256
        · rw [if_pos hchain]
          exact .inl ⟨rfl, .inr (.inr ⟨t, ts, h, hgt, hchain.1, hchain.2⟩)⟩
        · rw [if_neg hchain]
          refine .inr ⟨t, ts, _, rfl, rfl, ?_⟩
          by_cases hseq : d.seqno = ILLEGAL_SEQ
          · have hdue : ¬∀ u ∈ d.txents, u.expire > now := fun hall => hheld ⟨expire_gt.mpr hall, hseq⟩
            push Not at hdue
            exact .inr (.inr ⟨hgt, hseq, by simp [hseq], hdue⟩)
          · have ht : t.seqno = (d.seqno + 1) % 256 := by
              by_contra hne
              exact hchain ⟨hseq, hne⟩
            exact .inr (.inl ⟨hgt, hseq, ht, if_pos hseq⟩)

lemma getPacket_frame (d : Dstent π) (s : ℕ) :
    (d.getPacket s).1.ipaddr = d.ipaddr ∧ (d.getPacket s).1.seqno = d.seqno ∧
      (d.getPacket s).1.txents.Sublist d.txents := by
  unfold getPacket
  cases d.findEntry s with
  | none => exact ⟨rfl, rfl, List.Sublist.refl _⟩
  | some t => exact ⟨rfl, rfl, List.eraseP_sublist⟩

lemma addEntry_frame (d : Dstent π) (e : ℚ) (s : ℕ) (p : π) :
    (d.addEntry e s p).ipaddr = d.ipaddr ∧ (d.addEntry e s p).seqno = d.seqno := by
  unfold addEntry
  split_ifs <;> exact ⟨rfl, rfl⟩

end Dstent

/-- There is one entry for each source. -/
abbrev DstQueue (π : Type*) := List (Dstent π)

namespace DstQueue

def findEntry (q : DstQueue π) (dst : ℤ) : Option (Dstent π) := q.find? fun d => d.ipaddr = dst

def addEntry (q : DstQueue π) (dst : ℤ) (e : ℚ) (s : ℕ) (p : π) : DstQueue π :=
  if (q.findEntry dst).isSome then q.map fun d => if d.ipaddr = dst then d.addEntry e s p else d
  else Dstent.addEntry { ipaddr := dst } e s p :: q

def getPacket (q : DstQueue π) (dst : ℤ) (s : ℕ) : DstQueue π × Option π :=
  match q.findEntry dst with
  | some d => (q.map fun d => if d.ipaddr = dst then (d.getPacket s).1 else d, (d.getPacket s).2)
  | none => (q, none)

def getNextExpire (q : DstQueue π) : Option ℚ := (q.filterMap Dstent.expire).min?

/-- The source and the packet that is handed out. -/
def getNextPacket (now : ℚ) : DstQueue π → DstQueue π × Option (ℤ × Txent π)
  | [] => ([], none)
  | d :: ds =>
    match d.getNextPacket now with
    | (d', some t) => (d' :: ds, some (d.ipaddr, t))
    | (d', none) => (d' :: (getNextPacket now ds).1, (getNextPacket now ds).2)

def deleteDst (q : DstQueue π) (dst : ℤ) : DstQueue π := q.filter fun d => ¬d.ipaddr = dst

/-- How many packets wait. -/
def size (q : DstQueue π) : ℕ := (q.map fun d => d.txents.length).sum

variable {q : DstQueue π} {now : ℚ}

/-- No chain is being pulled off. -/
def Idle (q : DstQueue π) : Prop := ∀ d ∈ q, d.seqno = ILLEGAL_SEQ

/-- What `getNextPacket` does to the queue: the sources before the one that hands out a packet have
nothing to hand out, those after it are not looked at. -/
lemma getNextPacket_cases (now : ℚ) (q : DstQueue π) :
    (q.getNextPacket now = (q.map fun d => { d with seqno := ILLEGAL_SEQ }, none) ∧
        ∀ d ∈ q, d.txents = [] ∨ d.Held now) ∨
      ∃ ds d es t ts seqno, q = ds ++ d :: es ∧ d.txents = t :: ts ∧ d.Pulled now t seqno ∧
        (∀ d ∈ ds, d.txents = [] ∨ d.Held now) ∧
        q.getNextPacket now =
          (ds.map (fun d => { d with seqno := ILLEGAL_SEQ }) ++ { d with seqno := seqno, txents := ts } :: es,
            some (d.ipaddr, t)) := by
  induction q with
  | nil => exact .inl ⟨rfl, by simp⟩
  | cons d ds ih =>
    rcases d.getNextPacket_cases now with ⟨hd, hheld⟩ | ⟨t, ts, seqno, htx, hd, hp⟩
    · rcases ih with ⟨hq, hall⟩ | ⟨ds', d', es, t, ts, seqno, rfl, htx, hp, hall, hq⟩
      · refine .inl ⟨?_, List.forall_mem_cons.mpr ⟨hheld, hall⟩⟩
        rw [getNextPacket, hd]
        simp only [hq, List.map_cons]
      · refine .inr ⟨d :: ds', d', es, t, ts, seqno, rfl, htx, hp, List.forall_mem_cons.mpr ⟨hheld, hall⟩, ?_⟩
        rw [getNextPacket, hd]
        simp only [hq, List.map_cons, List.cons_append]
    · refine .inr ⟨[], d, ds, t, ts, seqno, rfl, htx, hp, by simp, ?_⟩
      rw [getNextPacket, hd]
      rfl

lemma size_append (q r : DstQueue π) : size (q ++ r) = size q + size r := by simp [size]

lemma size_map_le {f : Dstent π → Dstent π} (h : ∀ d, (f d).txents.length ≤ d.txents.length) (q : DstQueue π) :
    size (q.map f) ≤ size q := by
  induction q with
  | nil => exact le_rfl
  | cons d ds ih => exact Nat.add_le_add (h d) ih

lemma size_getPacket_le (dst : ℤ) (s : ℕ) : size (q.getPacket dst s).1 ≤ size q := by
  unfold getPacket
  cases q.findEntry dst with
  | none => exact le_rfl
  | some d =>
    refine size_map_le (fun d => ?_) q
    split_ifs
    · exact (d.getPacket_frame s).2.2.length_le
    · exact le_rfl

lemma size_getNextPacket {r : DstQueue π} {p : ℤ × Txent π} (h : q.getNextPacket now = (r, some p)) :
    size r + 1 = size q := by
  rcases q.getNextPacket_cases now with ⟨hq, -⟩ | ⟨ds, d, es, t, ts, seqno, rfl, htx, -, -, hq⟩
  · rw [hq] at h
    cases h
  · obtain ⟨rfl, -⟩ := Prod.mk.inj (hq.symm.trans h)
    rw [size_append, size_append]
    simp only [size, List.map_map, List.map_cons, List.sum_cons, htx, List.length_cons]
    have hds : (ds.map ((fun d => d.txents.length) ∘ fun d => { d with seqno := ILLEGAL_SEQ })).sum =
        (ds.map fun d => d.txents.length).sum := rfl
    omega

end DstQueue
end NetworkSimulator.Imep
