import Mathlib.Data.List.DropRight
import NetworkSimulator.Library.Runs
import NetworkSimulator.Tcp.FackScoreboard

/-!
# `ScoreBoard` as a map from packets to what has been reported about them

The specification keeps for each packet on the board the SACK blocks that have arrived since it entered, and
whether it has been marked as retransmitted since then. No array and no size is in it.
-/

namespace NetworkSimulator
open Library

/-- A packet on the board. -/
structure Tracked where
  seq : ℤ
  blocks : List (ℤ × ℤ) -- that have arrived since it entered
  marked : Bool -- by `MarkRetran`
deriving DecidableEq

namespace Tracked

def covers (sa : ℤ × ℤ) (i : ℤ) : Bool := sa.1 ≤ i && i < sa.2

def enter (i : ℤ) : Tracked := ⟨i, [], false⟩

def sacked (t : Tracked) : Bool := t.blocks.any (covers · t.seq)

/-- Retransmitted, and not reported since. -/
def waits (t : Tracked) : Bool := t.marked && !t.sacked

def see (sa : ℤ × ℤ) (t : Tracked) : Tracked := { t with blocks := t.blocks ++ [sa] }

/-- `k` packets enter. -/
def enterFrom : ℕ → ℤ → List Tracked
  | 0, _ => []
  | k + 1, i => enter i :: enterFrom k (i + 1)

/-- The packets up to the right edge of a SACK block enter, and all packets see the block. -/
def arrive (sa : ℤ × ℤ) (l : List Tracked) : List Tracked :=
  (match l.getLast? with
    | none => l
    | some t => l ++ enterFrom (sa.2 - (t.seq + 1)).toNat (t.seq + 1)).map (see sa)

def update (lastAck : ℤ) (sacks : List (ℤ × ℤ)) (l : List Tracked) : List Tracked :=
  let l := l.filter (lastAck < ·.seq)
  sacks.foldl (fun l sa => arrive sa l) (if l = [] ∧ sacks ≠ [] then [enter (lastAck + 1)] else l)

/-- The packets that are marked and that an update finds acked or sacked while they were not. -/
def retranDecr (lastAck : ℤ) (sacks : List (ℤ × ℤ)) (l : List Tracked) : ℤ :=
  l.countP fun t => t.marked && !t.sacked && (t.seq ≤ lastAck || sacks.any (covers · t.seq))

def mark (i : ℤ) (l : List Tracked) : List Tracked :=
  l.map fun t => if t.seq = i then { t with marked := true } else t

/-- The least packet that is neither sacked nor marked, or -1. -/
def next (l : List Tracked) : ℤ :=
  ((l.find? fun t => !t.sacked && !t.marked).map seq).getD (-1)

end Tracked

namespace ScoreBoard
open Tracked
variable {fresh : ℤ → ℤ → ScoreBoardNode} {lastAck : ℤ} {s s' : ScoreBoard} {l l' : List Tracked} {i : ℤ}

/-- A node that tells the truth about a packet. -/
structure Tells (i : ℤ) (x : ScoreBoardNode) (t : Tracked) : Prop where
  seq : t.seq = i
  seqNo : x.seqNo = i
  ack : x.ackFlag = false
  sack : x.sackFlag = t.sacked
  retran : x.retran = t.waits

structure Represents (s : ScoreBoard) (l : List Tracked) : Prop where
  holds : Library.Holds Tells s.sbn s.sbsize s.first l
  length : s.length = l.length
  fits : s.length < s.sbsize

lemma Represents.node_seq (h : Represents s l) (hl : l ≠ []) : (s.node s.first).seqNo = s.first := by
  obtain ⟨t, l, rfl⟩ := List.exists_cons_of_ne_nil hl
  exact h.holds.1.seqNo

/-- The slot that is one turn of the array away from the last packet. -/
lemma Represents.last_seq (h : Represents s l) (hl : l ≠ []) :
    (s.node (s.first + s.length + s.sbsize - 1)).seqNo = s.first + s.length - 1 := by
  obtain ⟨l, t, rfl⟩ := List.eq_nil_or_concat' l |>.resolve_left hl
  have hlast := (holds_append.mp h.holds).2.1.seqNo
  have hturn : s.first + s.length + s.sbsize - 1 = s.first + (l.length : ℤ) + s.sbsize := by
    rw [h.length, List.length_append, List.length_singleton]
    push_cast
    omega
  rw [node, hturn, slot_add_self, hlast, h.length, List.length_append, List.length_singleton]
  push_cast
  omega

lemma Represents.getLast (h : Represents s l) {t : Tracked} (ht : l.getLast? = some t) :
    t.seq = s.first + s.length - 1 := by
  obtain ⟨l, rfl⟩ := List.getLast?_eq_some_iff.mp ht
  rw [(holds_append.mp h.holds).2.1.seq, h.length, List.length_append, List.length_singleton]
  push_cast
  omega

lemma Represents.mem (h : Represents s l) {t : Tracked} (ht : t ∈ l) :
    s.first ≤ t.seq ∧ t.seq < s.first + s.length := by
  obtain ⟨k, hk⟩ := List.mem_iff_getElem?.mp ht
  have hlt : k < l.length := (List.getElem?_eq_some_iff.mp hk).1
  have hseq := (holds_iff.mp h.holds k t hk).seq
  have hlen := h.length
  omega

/-! ### The left edge -/

lemma advance_of_lt {d : ℤ} (h : Represents s l) (hlt : lastAck < s.first) :
    advance lastAck (lastAck + 1 - s.first).toNat s.first (s, d) =
        some (s, d + l.countP fun t => t.waits && t.seq ≤ lastAck) ∧ l.filter (lastAck < ·.seq) = l := by
  have hseq : ∀ t ∈ l, lastAck < t.seq := fun t ht => hlt.trans_le (h.mem ht).1
  have hnone : (l.countP fun t => t.waits && t.seq ≤ lastAck) = 0 := by
    refine List.countP_eq_zero.mpr fun t ht => ?_
    simp [not_le.mpr (hseq t ht)]
  rw [Int.toNat_of_nonpos (by omega), hnone, advance, Nat.cast_zero, add_zero]
  exact ⟨rfl, List.filter_eq_self.mpr fun t ht => decide_eq_true (hseq t ht)⟩

/-- The loop drops the packets that are acked, counts those that wait, and no assertion fails. -/
lemma advance_spec (lastAck d : ℤ) (h : Represents s l) (hl : l ≠ []) :
    ∃ s', advance lastAck (lastAck + 1 - s.first).toNat s.first (s, d) =
        some (s', d + l.countP fun t => t.waits && t.seq ≤ lastAck) ∧
      Represents s' (l.filter (lastAck < ·.seq)) ∧ s'.sbsize = s.sbsize ∧
      (s'.length ≠ 0 → s'.first = max s.first (lastAck + 1)) := by
  induction l generalizing s d with
  | nil => exact absurd rfl hl
  | cons t l ih =>
    by_cases hback : lastAck < s.first
    · obtain ⟨hdone, hkeep⟩ := advance_of_lt (d := d) h hback
      exact ⟨s, hdone, by rwa [hkeep], rfl, fun _ => by omega⟩
    obtain ⟨ht, htail⟩ := h.holds
    have hlen : s.length - 1 = l.length := by
      rw [h.length, List.length_cons]
      push_cast
      omega
    have hfits := h.fits
    -- the board after one round
    let s₁ := { s with first := s.first + 1, length := s.length - 1, changed := s.changed + 1 }.setNode s.first
      (ackedNode (s.node s.first))
    have h₁ : Represents s₁ l :=
      ⟨htail.setSlot (.inl ⟨by omega, by omega⟩), hlen, show s.length - 1 < s.sbsize by omega⟩
    have hdrop : (t :: l).filter (lastAck < ·.seq) = l.filter (lastAck < ·.seq) :=
      List.filter_cons_of_neg (by rw [ht.seq]; simpa using not_lt.mp hback)
    have hcount : d + (List.countP (fun t => t.waits && t.seq ≤ lastAck) (t :: l) : ℕ) =
        (if (s.node s.first).retran then d + 1 else d) + l.countP fun t => t.waits && t.seq ≤ lastAck := by
      have hle : t.seq ≤ lastAck := by rw [ht.seq]; omega
      rw [List.countP_cons, show (s.node s.first).retran = t.waits from ht.retran]
      cases t.waits <;> simp [hle]; omega
    have hstep : advance lastAck (lastAck + 1 - s.first).toNat s.first (s, d) =
        if s₁.length = 0 then some (s₁, if (s.node s.first).retran then d + 1 else d)
        else advance lastAck (lastAck + 1 - s₁.first).toNat s₁.first
          (s₁, if (s.node s.first).retran then d + 1 else d) := by
      have hk : (lastAck + 1 - s.first).toNat = (lastAck + 1 - (s.first + 1)).toNat + 1 := by omega
      rw [hk, advance, if_pos (by rw [h.node_seq hl]; omega), if_pos ⟨rfl, by omega⟩]
      rfl
    rw [hstep, hdrop, hcount]
    by_cases hempty : s₁.length = 0
    · obtain rfl : l = [] := List.length_eq_zero_iff.mp (by have := h₁.length; omega)
      rw [if_pos hempty]
      exact ⟨s₁, by simp, h₁, rfl, fun h => absurd hempty h⟩
    · have hl₁ : l ≠ [] := by
        rintro rfl
        exact hempty h₁.length
      obtain ⟨s', hrun, hs', hsize, hfirst⟩ := ih _ h₁ hl₁
      rw [if_neg hempty]
      refine ⟨s', hrun, hs', hsize, fun hne => ?_⟩
      rw [hfirst hne, show s₁.first = s.first + 1 from rfl]
      omega

/-! ### The right edge -/

/-- A packet enters behind the others. -/
lemma enter_spec (h : Represents s l) (hi : i = s.first + s.length) (hfits : s.length + 1 < s.sbsize) :
    ∃ s', s.enter i = some s' ∧ Represents s' (l ++ [Tracked.enter i]) ∧ s'.first = s.first ∧
      s'.sbsize = s.sbsize := by
  subst hi
  have hlen := h.length
  have hnew : Tells (s.first + l.length) ⟨s.first + l.length, false, false, false, 0⟩
      (Tracked.enter (s.first + l.length)) := ⟨rfl, rfl, rfl, rfl, rfl⟩
  refine ⟨_, if_neg (show ¬(s.length + 1 ≥ s.sbsize) by omega), ⟨?_, ?_, hfits⟩, rfl, rfl⟩
  · rw [hlen]
    exact h.holds.concat (by omega) hnew
  · rw [List.length_append, List.length_singleton]
    push_cast
    exact congrArg (· + 1) hlen

lemma createEntries_spec {k : ℕ} (h : Represents s l) (hfits : s.length + k < s.sbsize) :
    ∃ s', s.createEntries k (s.first + s.length) = some s' ∧
      Represents s' (l ++ enterFrom k (s.first + s.length)) ∧ s'.first = s.first ∧ s'.sbsize = s.sbsize := by
  induction k generalizing s l with
  | zero => exact ⟨s, rfl, by rwa [enterFrom, List.append_nil], rfl, rfl⟩
  | succ k ih =>
    push_cast at hfits
    obtain ⟨s₁, hrun₁, h₁, hfirst₁, hsize₁⟩ := enter_spec h rfl (by omega)
    have hnext : s₁.first + s₁.length = s.first + s.length + 1 := by
      rw [h₁.length, hfirst₁, h.length, List.length_append, List.length_singleton]
      push_cast
      omega
    obtain ⟨s', hrun, h', hfirst, hsize⟩ := ih h₁ (by omega)
    rw [hnext] at hrun h'
    refine ⟨s', ?_, ?_, hfirst.trans hfirst₁, hsize.trans hsize₁⟩
    · rw [createEntries, hrun₁, Option.bind_some, hrun]
    · rwa [enterFrom, List.append_cons]

/-- All packets are found again in the new array, whatever its memory held. -/
lemma Represents.resizeSB (h : Represents s l) (hl : l ≠ []) {sz : ℤ} (hsz : s.length < sz) :
    Represents (s.resizeSB fresh sz) l := by
  have hlen := h.length
  refine ⟨h.holds.congr fun j hj hlt => ?_, h.length, hsz⟩
  rw [ScoreBoard.resizeSB, h.node_seq hl]
  exact slot_copySlots (by omega) hj (by omega)

/-- Enough rounds are a number by which the array is large enough. -/
lemma grow_spec (fresh : ℤ → ℤ → ScoreBoardNode) {sackRight : ℤ} {k : ℕ} (h : Represents s l) (hl : l ≠ []) (hsize : 0 < s.sbsize)
    (hk : sackRight - lastAck < s.sbsize - 1 + k) :
    ∃ s', s.grow fresh lastAck sackRight k = some s' ∧ Represents s' l ∧ s'.first = s.first ∧
      s'.length = s.length ∧ s.sbsize ≤ s'.sbsize ∧ sackRight - lastAck < s'.sbsize - 1 := by
  induction k generalizing s with
  | zero =>
    have hlarge : ¬(sackRight - lastAck ≥ s.sbsize - 1) := by omega
    exact ⟨s, by rw [grow, if_neg hlarge], h, rfl, rfl, le_rfl, not_le.mp hlarge⟩
  | succ k ih =>
    by_cases hlarge : sackRight - lastAck ≥ s.sbsize - 1
    · have hfits := h.fits
      push_cast at hk
      have hres : Represents (s.resizeSB fresh (s.sbsize * 2)) l := h.resizeSB hl (by omega)
      obtain ⟨s', hrun, h', hfirst, hlen, hle, hbig⟩ := ih hres (show 0 < s.sbsize * 2 by omega)
        (show sackRight - lastAck < s.sbsize * 2 - 1 + k by omega)
      exact ⟨s', by rw [grow, if_pos hlarge, hrun], h', hfirst, hlen,
        le_trans (show s.sbsize ≤ s.sbsize * 2 by omega) hle, hbig⟩
    · exact ⟨s, by rw [grow, if_neg hlarge], h, rfl, rfl, le_rfl, not_le.mp hlarge⟩

/-! ### The packets that a block covers -/

variable {b : ℤ × ℤ} {x : ScoreBoardNode} {t : Tracked}

lemma sacked_see : (see b t).sacked = (t.sacked || covers b t.seq) := by
  simp [see, sacked]

lemma waits_see : (see b t).waits = (t.waits && !covers b t.seq) := by
  rw [waits, sacked_see, waits, Bool.not_or, Bool.and_assoc]
  rfl

lemma Tells.see (h : Tells i x t) (hc : covers b i) :
    Tells i { x with sackFlag := true, retran := false } (see b t) := by
  have hsacked : (Tracked.see b t).sacked = true := by rw [sacked_see, h.seq, hc, Bool.or_true]
  exact ⟨h.seq, h.seqNo, h.ack, hsacked.symm, by simp [waits, hsacked]⟩

lemma Tells.pass (h : Tells i x t) (hc : ¬covers b i) : Tells i x (Tracked.see b t) := by
  have hsacked : (Tracked.see b t).sacked = t.sacked := by
    rw [sacked_see, h.seq, eq_false_of_ne_true hc, Bool.or_false]
  exact ⟨h.seq, h.seqNo, h.ack, h.sack.trans hsacked.symm,
    h.retran.trans (by rw [waits, waits, hsacked]; rfl)⟩

/-- One round of the loop makes the packet see the block. -/
lemma markSacked_round {k : ℕ} {d : ℤ} {rest : List Tracked} (h : Represents s (l ++ t :: rest))
    (hi : i = s.first + l.length) :
    ∃ s', markSacked b.1 b.2 (k + 1) i (s, d) =
        markSacked b.1 b.2 k (i + 1) (s', if t.waits && covers b t.seq then d + 1 else d) ∧
      Represents s' (l ++ Tracked.see b t :: rest) ∧ s'.first = s.first ∧ s'.length = s.length ∧
      s'.sbsize = s.sbsize := by
  subst hi
  obtain ⟨hl, ht, hrest⟩ := holds_append.mp h.holds
  have hlen : s.length = (l ++ Tracked.see b t :: rest).length := by
    rw [h.length, List.length_append, List.length_append]
    rfl
  have hretran : (s.node (s.first + l.length)).retran = t.waits := ht.retran
  have hseqNo : (s.node (s.first + l.length)).seqNo = s.first + l.length := ht.seqNo
  have hcov : ((s.node (s.first + l.length)).seqNo ≥ b.1 ∧ (s.node (s.first + l.length)).seqNo < b.2) ↔
      covers b t.seq = true := by
    rw [hseqNo, ht.seq, covers, Bool.and_eq_true, decide_eq_true_iff, decide_eq_true_iff]
  by_cases hc : covers b t.seq = true
  · rw [markSacked, if_pos (hcov.mpr hc), hretran, hc, Bool.and_true]
    have hfits := h.fits
    have hlen' := h.length
    exact ⟨_, rfl, ⟨h.holds.replace (by omega) (ht.see (ht.seq ▸ hc)), hlen, h.fits⟩, rfl, rfl, rfl⟩
  · rw [markSacked, if_neg fun h => hc (hcov.mp h), eq_false_of_ne_true hc, Bool.and_false]
    exact ⟨s, rfl, ⟨holds_append.mpr ⟨hl, ht.pass (ht.seq ▸ hc), hrest⟩, hlen, h.fits⟩, rfl, rfl, rfl⟩

/-- The loop does not look at the packets that begin at its end. -/
lemma markSacked_of_le {d : ℤ} {rest : List Tracked} (h : Represents s (l ++ rest))
    (hle : b.2 ≤ s.first + l.length) :
    Represents s (l ++ rest.map (see b)) ∧ (rest.countP fun t => t.waits && covers b t.seq) = 0 ∧
      markSacked b.1 b.2 (b.2 - (s.first + l.length)).toNat (s.first + l.length) (s, d) = (s, d) := by
  have hpass : ∀ j, s.first + l.length ≤ j → covers b j = false := by
    intro j hj
    simp only [covers, Bool.and_eq_false_iff, decide_eq_false_iff_not]
    omega
  obtain ⟨hl, hrest⟩ := holds_append.mp h.holds
  refine ⟨⟨holds_append.mpr ⟨hl, hrest.map fun j x t hj ht => ?_⟩, ?_, h.fits⟩, ?_, ?_⟩
  · exact ht.pass (by rw [hpass j hj]; decide)
  · rw [h.length, List.length_append, List.length_append, List.length_map]
  · refine List.countP_eq_zero.mpr fun t ht => ?_
    obtain ⟨k, hk⟩ := List.mem_iff_getElem?.mp ht
    have hseq := (holds_iff.mp hrest k t hk).seq
    simp [hpass t.seq (by omega)]
  · rw [Int.toNat_of_nonpos (by omega), markSacked]

/-- The loop from a packet on makes all packets behind it see the block, and counts those that waited. -/
lemma markSacked_spec {d : ℤ} {rest : List Tracked} (h : Represents s (l ++ rest))
    (hright : b.2 ≤ s.first + s.length) :
    ∃ s', markSacked b.1 b.2 (b.2 - (s.first + l.length)).toNat (s.first + l.length) (s, d) =
        (s', d + rest.countP fun t => t.waits && covers b t.seq) ∧
      Represents s' (l ++ rest.map (see b)) ∧ s'.first = s.first ∧ s'.sbsize = s.sbsize := by
  induction rest generalizing s l d with
  | nil =>
    have hlen := h.length
    rw [List.append_nil] at hlen
    obtain ⟨h', -, hrun⟩ := markSacked_of_le (b := b) (d := d) h (by omega)
    exact ⟨s, by rw [hrun, List.countP_nil, Nat.cast_zero, add_zero], h', rfl, rfl⟩
  | cons t rest ih =>
    by_cases hback : b.2 ≤ s.first + l.length
    · obtain ⟨h', hnone, hrun⟩ := markSacked_of_le (b := b) (d := d) h hback
      exact ⟨s, by rw [hrun, hnone, Nat.cast_zero, add_zero], h', rfl, rfl⟩
    have hk : (b.2 - (s.first + l.length)).toNat = (b.2 - (s.first + l.length + 1)).toNat + 1 := by omega
    obtain ⟨s₁, hrun₁, h₁, hfirst₁, hlen₁, hsize₁⟩ :=
      markSacked_round (k := (b.2 - (s.first + l.length + 1)).toNat) (d := d) (b := b) h rfl
    have hi : s₁.first + ((l ++ [Tracked.see b t]).length : ℤ) = s.first + l.length + 1 := by
      rw [hfirst₁, List.length_append, List.length_singleton]
      push_cast
      omega
    rw [List.append_cons] at h₁
    obtain ⟨s', hrun, h', hfirst, hsize⟩ :=
      ih (d := if t.waits && covers b t.seq then d + 1 else d) h₁ (by omega)
    rw [hi] at hrun
    refine ⟨s', ?_, by rwa [List.map_cons, List.append_cons], hfirst.trans hfirst₁, hsize.trans hsize₁⟩
    rw [hk, hrun₁, hrun, List.countP_cons]
    cases t.waits && covers b t.seq <;> simp
    omega

lemma marked_of_mem_enterFrom {k : ℕ} (ht : t ∈ enterFrom k i) : t.marked = false := by
  induction k generalizing i with
  | zero => exact absurd ht List.not_mem_nil
  | succ k ih =>
    rcases List.mem_cons.mp ht with rfl | ht
    · rfl
    · exact ih ht

lemma length_enterFrom {k : ℕ} : (enterFrom k i).length = k := by
  induction k generalizing i with
  | zero => rfl
  | succ k ih => rw [enterFrom, List.length_cons, ih]

/-- What arrives is seen by the packets on the board and by those that enter with it. -/
lemma arrive_eq (h : Represents s l) (hl : l ≠ []) :
    arrive b l = (l ++ enterFrom (b.2 - (s.first + s.length)).toNat (s.first + s.length)).map (see b) := by
  have ht := List.getLast?_eq_some_getLast hl
  have hseq : (l.getLast hl).seq + 1 = s.first + s.length := by
    rw [h.getLast ht]
    omega
  rw [arrive, ht, ← hseq]

lemma countP_and_or (w c a : Tracked → Bool) (l : List Tracked) :
    l.countP (fun t => w t && (c t || a t)) =
      l.countP (fun t => w t && c t) + l.countP fun t => w t && !c t && a t := by
  induction l with
  | nil => rfl
  | cons t l ih =>
    simp only [List.countP_cons, ih]
    cases w t <;> cases c t <;> cases a t <;> simp <;> omega

/-- A packet waits for a block of a list, or for one that is seen before. -/
lemma countP_arrive (bs : List (ℤ × ℤ)) (h : Represents s l) (hl : l ≠ []) :
    (l.countP fun t => t.waits && covers b t.seq) +
        ((arrive b l).countP fun t => t.waits && bs.any (covers · t.seq)) =
      l.countP fun t => t.waits && (b :: bs).any (covers · t.seq) := by
  rw [arrive_eq h hl, List.countP_map, List.countP_append]
  have hnew : ((enterFrom (b.2 - (s.first + s.length)).toNat (s.first + s.length)).countP
      ((fun t => t.waits && bs.any (covers · t.seq)) ∘ see b)) = 0 := by
    refine List.countP_eq_zero.mpr fun t ht => ?_
    simp [waits, Tracked.see, marked_of_mem_enterFrom ht]
  rw [hnew, add_zero]
  simp only [List.any_cons]
  rw [countP_and_or]
  refine congrArg _ (List.countP_congr fun t _ => ?_)
  rw [Function.comp_apply, waits_see, Tracked.see]

/-- The right edge moves to the end of the block. -/
lemma extend_spec (fresh : ℤ → ℤ → ScoreBoardNode) (h : Represents s l) (hl : l ≠ []) (hfirst : s.first = lastAck + 1) (hsize : 1 < s.sbsize) :
    ∃ s', (if b.2 > (s.node (s.first + s.length + s.sbsize - 1)).seqNo then
        (s.grow fresh lastAck b.2 (b.2 - lastAck).toNat).bind fun s =>
          s.createEntries (b.2 - ((s.node (s.first + s.length + s.sbsize - 1)).seqNo + 1)).toNat
            ((s.node (s.first + s.length + s.sbsize - 1)).seqNo + 1)
      else some s) = some s' ∧
      Represents s' (l ++ enterFrom (b.2 - (s.first + s.length)).toNat (s.first + s.length)) ∧
      s'.first = s.first ∧ s.sbsize ≤ s'.sbsize := by
  rw [h.last_seq hl]
  by_cases hright : b.2 > s.first + s.length - 1
  · have hrounds : b.2 - lastAck < s.sbsize - 1 + ((b.2 - lastAck).toNat : ℤ) := by omega
    obtain ⟨s₁, hrun₁, h₁, hfirst₁, hlen₁, hsize₁, hlarge⟩ := grow_spec fresh h hl (by omega) hrounds
    have hlast : (s₁.node (s₁.first + s₁.length + s₁.sbsize - 1)).seqNo + 1 = s₁.first + s₁.length := by
      rw [h₁.last_seq hl]
      omega
    have hfits₁ := h₁.fits
    obtain ⟨s', hrun, h', hfirst', hsize'⟩ :=
      createEntries_spec (k := (b.2 - (s₁.first + s₁.length)).toNat) h₁ (by omega)
    refine ⟨s', ?_, by rwa [hfirst₁, hlen₁] at h', hfirst'.trans hfirst₁, by omega⟩
    rw [if_pos hright, hrun₁, Option.bind_some, hlast, hrun]
  · rw [if_neg hright, Int.toNat_of_nonpos (by omega), enterFrom, List.append_nil]
    exact ⟨s, rfl, h, rfl, le_rfl⟩

/-- One round over the SACK blocks: neither `exit` is taken. -/
lemma addSack_spec (fresh : ℤ → ℤ → ScoreBoardNode) {d : ℤ} (h : Represents s l) (hl : l ≠ []) (hfirst : s.first = lastAck + 1)
    (hsize : 1 < s.sbsize) :
    ∃ s', addSack fresh lastAck (s, d) b = some (s', d + l.countP fun t => t.waits && covers b t.seq) ∧
      Represents s' (arrive b l) ∧ s'.first = s.first ∧ s.sbsize ≤ s'.sbsize := by
  obtain ⟨s₁, hrun₁, h₁, hfirst₁, hsize₁⟩ := extend_spec (b := b) fresh h hl hfirst hsize
  have hl₁ : l ++ enterFrom (b.2 - (s.first + s.length)).toNat (s.first + s.length) ≠ [] := by
    simp [hl]
  have hright : b.2 ≤ s₁.first + s₁.length := by
    have hlen := h.length
    rw [h₁.length, List.length_append, length_enterFrom]
    push_cast
    omega
  have hall : Represents s₁ ([] ++ (l ++ enterFrom (b.2 - (s.first + s.length)).toNat (s.first + s.length))) :=
    h₁
  obtain ⟨s', hrun, h', hfirst', hsize'⟩ := markSacked_spec (d := d) hall hright
  rw [List.length_nil, Nat.cast_zero, add_zero] at hrun
  have hold : ((l ++ enterFrom (b.2 - (s.first + s.length)).toNat (s.first + s.length)).countP fun t =>
      t.waits && covers b t.seq) = l.countP fun t => t.waits && covers b t.seq := by
    have hnew : ((enterFrom (b.2 - (s.first + s.length)).toNat (s.first + s.length)).countP fun t =>
        t.waits && covers b t.seq) = 0 :=
      List.countP_eq_zero.mpr fun t ht => by simp [waits, marked_of_mem_enterFrom ht]
    rw [List.countP_append, hnew, add_zero]
  refine ⟨s', ?_, by rwa [arrive_eq h hl], hfirst'.trans hfirst₁, by omega⟩
  rw [addSack, hrun₁, Option.map_some, h₁.node_seq hl₁, hrun, hold]

lemma addSacks_spec (fresh : ℤ → ℤ → ScoreBoardNode) {d : ℤ} (sacks : List (ℤ × ℤ)) (h : Represents s l) (hl : l ≠ [] ∨ sacks = [])
    (hfirst : l ≠ [] → s.first = lastAck + 1) (hsize : 1 < s.sbsize) :
    ∃ s', sacks.foldlM (addSack fresh lastAck) (s, d) =
        some (s', d + l.countP fun t => t.waits && sacks.any (covers · t.seq)) ∧
      Represents s' (sacks.foldl (fun l b => arrive b l) l) ∧
      (sacks.foldl (fun l b => arrive b l) l ≠ [] → s'.first = lastAck + 1) ∧ 1 < s'.sbsize := by
  induction sacks generalizing s l d with
  | nil => exact ⟨s, by simp, h, hfirst, hsize⟩
  | cons b sacks ih =>
    have hl := hl.resolve_right (List.cons_ne_nil b sacks)
    obtain ⟨s₁, hrun₁, h₁, hfirst₁, hsize₁⟩ :=
      addSack_spec fresh (b := b) (d := d) h hl (hfirst hl) hsize
    have hl₁ : arrive b l ≠ [] := by
      rw [arrive_eq h hl]
      simp [hl]
    obtain ⟨s', hrun, h', hfirst', hsize'⟩ := ih (d := d + l.countP fun t => t.waits && covers b t.seq) h₁
      (.inl hl₁) (fun _ => hfirst₁.trans (hfirst hl)) (by omega)
    refine ⟨s', ?_, h', hfirst', hsize'⟩
    rw [List.foldlM_cons, hrun₁, Option.bind_eq_bind, Option.bind_some, hrun, ← countP_arrive sacks h hl]
    push_cast
    rw [add_assoc]

/-- The left edge moves to the acknowledgement. -/
lemma moveLeft_spec (lastAck : ℤ) (h : Represents s l) (hfirst : l ≠ [] → s.first ≤ lastAck + 1) :
    ∃ s', (if s.length ≠ 0 ∧ (s.node s.first).seqNo ≤ lastAck then
        advance lastAck (lastAck + 1 - (s.node s.first).seqNo).toNat (s.node s.first).seqNo (s, 0)
      else some (s, 0)) = some (s', ((l.countP fun t => t.waits && t.seq ≤ lastAck : ℕ) : ℤ)) ∧
      Represents s' (l.filter (lastAck < ·.seq)) ∧ s'.sbsize = s.sbsize ∧
      (l.filter (lastAck < ·.seq) ≠ [] → s'.first = lastAck + 1) := by
  by_cases hl : l = []
  · subst hl
    exact ⟨s, if_neg fun hne => hne.1 h.length, h, rfl, fun hne => absurd rfl hne⟩
  have hlen : s.length ≠ 0 := by
    rw [h.length]
    simpa using hl
  rw [h.node_seq hl]
  by_cases hle : s.first ≤ lastAck
  · obtain ⟨s', hrun, h', hsize, hedge⟩ := advance_spec lastAck 0 h hl
    rw [if_pos ⟨hlen, hle⟩, hrun, zero_add]
    refine ⟨s', rfl, h', hsize, fun hne => ?_⟩
    have hlen' : s'.length ≠ 0 := by
      rw [h'.length]
      simpa using hne
    rw [hedge hlen']
    omega
  · obtain ⟨hrun, hkeep⟩ := advance_of_lt (d := 0) h (not_le.mp hle)
    rw [Int.toNat_of_nonpos (by omega), advance, zero_add] at hrun
    rw [if_neg fun hc => hle hc.2, hkeep]
    have hfirst' := hfirst hl
    exact ⟨s, hrun, h, rfl, fun _ => by omega⟩

/-- A scoreboard is created for the blocks of an acknowledgement. -/
lemma create_spec (sacks : List (ℤ × ℤ)) (h : Represents s l) (hfirst : l ≠ [] → s.first = lastAck + 1)
    (hsize : 1 < s.sbsize) :
    ∃ s', (if s.length = 0 ∧ sacks ≠ [] then { s with first := lastAck + 1 }.enter (lastAck + 1) else some s) =
        some s' ∧
      Represents s' (if l = [] ∧ sacks ≠ [] then [Tracked.enter (lastAck + 1)] else l) ∧
      ((if l = [] ∧ sacks ≠ [] then [Tracked.enter (lastAck + 1)] else l) ≠ [] → s'.first = lastAck + 1) ∧
      s'.sbsize = s.sbsize := by
  have hlen : s.length = 0 ↔ l = [] := by
    rw [h.length, Nat.cast_eq_zero, List.length_eq_zero_iff]
  by_cases hc : l = [] ∧ sacks ≠ []
  · obtain ⟨rfl, hsacks⟩ := hc
    have h₀ : Represents { s with first := lastAck + 1 } [] := ⟨trivial, h.length, h.fits⟩
    have hend : lastAck + 1 + s.length = lastAck + 1 := by rw [hlen.mpr rfl, add_zero]
    obtain ⟨s', hrun, h', hfirst', hsize'⟩ := enter_spec h₀ hend.symm (show s.length + 1 < s.sbsize by omega)
    rw [if_pos ⟨hlen.mpr rfl, hsacks⟩, if_pos ⟨rfl, hsacks⟩]
    exact ⟨s', hrun, h', fun _ => hfirst', hsize'⟩
  · rw [if_neg hc, if_neg (by rwa [hlen])]
    exact ⟨s, rfl, h, hfirst, rfl⟩

/-- A packet that waits is found acked, or it stays and is found sacked. -/
lemma retranDecr_eq {sacks : List (ℤ × ℤ)} :
    retranDecr lastAck sacks l = ((l.countP fun t => t.waits && t.seq ≤ lastAck : ℕ) : ℤ) +
      ((if l.filter (lastAck < ·.seq) = [] ∧ sacks ≠ [] then [Tracked.enter (lastAck + 1)]
        else l.filter (lastAck < ·.seq)).countP fun t => t.waits && sacks.any (covers · t.seq) : ℕ) := by
  have hcreate : ((if l.filter (lastAck < ·.seq) = [] ∧ sacks ≠ [] then [Tracked.enter (lastAck + 1)]
      else l.filter (lastAck < ·.seq)).countP fun t => t.waits && sacks.any (covers · t.seq)) =
      (l.filter (lastAck < ·.seq)).countP fun t => t.waits && sacks.any (covers · t.seq) := by
    split
    · next h =>
      rw [h.1]
      rfl
    · rfl
  rw [hcreate, retranDecr, ← Nat.cast_add]
  congr 1
  rw [List.countP_filter]
  refine (countP_and_or waits (·.seq ≤ lastAck) (fun t => sacks.any (covers · t.seq)) l).trans
    (congrArg _ (List.countP_congr fun t _ => ?_))
  have hlt : (!decide (t.seq ≤ lastAck)) = decide (lastAck < t.seq) := by
    rw [← decide_not]
    exact decide_eq_decide.mpr not_le
  rw [hlt, Bool.and_right_comm]

/-- `UpdateScoreBoard` returns what the specification counts, and no assertion fails. -/
lemma updateScoreBoard_spec {sacks : List (ℤ × ℤ)} (h : Represents s l)
    (hfirst : l ≠ [] → s.first ≤ lastAck + 1) (hsize : 1 < s.sbsize) :
    ∃ s', updateScoreBoard fresh lastAck s sacks = some (s', retranDecr lastAck sacks l) ∧
      Represents s' (update lastAck sacks l) ∧ (update lastAck sacks l ≠ [] → s'.first = lastAck + 1) ∧
      1 < s'.sbsize := by
  have h₀ : Represents { s with changed := 0 } l := ⟨h.holds, h.length, h.fits⟩
  obtain ⟨s₁, hrun₁, h₁, hsize₁, hfirst₁⟩ := moveLeft_spec lastAck h₀ hfirst
  have hsize₁' : 1 < s₁.sbsize := hsize₁.symm ▸ hsize
  obtain ⟨s₂, hrun₂, h₂, hfirst₂, hsize₂⟩ := create_spec sacks h₁ hfirst₁ hsize₁'
  have hne : (if l.filter (lastAck < ·.seq) = [] ∧ sacks ≠ [] then [Tracked.enter (lastAck + 1)]
      else l.filter (lastAck < ·.seq)) ≠ [] ∨ sacks = [] := by
    by_cases hs : sacks = []
    · exact .inr hs
    · refine .inl ?_
      split <;> simp_all
  obtain ⟨s', hrun, h', hfirst', hsize'⟩ := addSacks_spec fresh
    (d := ((l.countP fun t => t.waits && t.seq ≤ lastAck : ℕ) : ℤ)) sacks h₂ hne hfirst₂
    (hsize₂.symm ▸ hsize₁')
  refine ⟨s', ?_, h', hfirst', hsize'⟩
  rw [updateScoreBoard, hrun₁, Option.bind_some, hrun₂, Option.bind_some, hrun, retranDecr_eq]

/-! ### Retransmissions -/

lemma nextRetran_spec (h : Library.Holds Tells s.sbn s.sbsize i l) : s.nextRetran l.length i = next l := by
  induction l generalizing i with
  | nil => rfl
  | cons t l ih =>
    obtain ⟨ht, htail⟩ := h
    have hflags : (!(s.node i).ackFlag && !(s.node i).sackFlag && !(s.node i).retran) = (!t.sacked && !t.marked) := by
      rw [node, ht.ack, ht.sack, ht.retran, waits]
      cases t.sacked <;> cases t.marked <;> rfl
    rw [List.length_cons, nextRetran, hflags, next, List.find?_cons, ih htail]
    cases !t.sacked && !t.marked with
    | true => exact ht.seq.symm
    | false => rfl

lemma getNextRetran_spec (h : Represents s l) : s.getNextRetran = next l := by
  by_cases hl : l = []
  · subst hl
    exact if_neg (not_not.mpr h.length)
  · have hlen : s.length ≠ 0 := by
      rw [h.length]
      simpa using hl
    rw [getNextRetran, if_pos hlen, h.node_seq hl, h.length, Int.toNat_natCast, nextRetran_spec h.holds]

lemma Tells.mark {n : ℤ} (h : Tells i x t) (hs : t.sacked = false) :
    Tells i { x with retran := true, sndNxt := n } { t with marked := true } := by
  have hwaits : ({ t with marked := true } : Tracked).waits = !t.sacked := Bool.true_and _
  exact ⟨h.seq, h.seqNo, h.ack, h.sack, by rw [hwaits, hs]; rfl⟩

/-- A packet that is not sacked is marked, and no other slot is written. -/
lemma markRetran_spec {n : Option ℤ} (h : Represents s l) (ht : t ∈ l) (hi : t.seq = i) (hs : t.sacked = false) :
    Represents (s.markRetran i n) (mark i l) := by
  have hlen := h.length
  have hfits := h.fits
  refine ⟨holds_iff.mpr fun k u hu => ?_, by rw [mark, List.length_map]; exact h.length, h.fits⟩
  rw [mark, List.getElem?_map, Option.map_eq_some_iff] at hu
  obtain ⟨u, hk, rfl⟩ := hu
  have hlt : k < l.length := (List.getElem?_eq_some_iff.mp hk).1
  obtain ⟨j, hj⟩ := List.mem_iff_getElem?.mp ht
  have hlt' : j < l.length := (List.getElem?_eq_some_iff.mp hj).1
  have htell := holds_iff.mp h.holds k u hk
  have htell' := holds_iff.mp h.holds j t hj
  change Tells (s.first + k) (Library.slot (setSlot s.sbn s.sbsize i _) s.sbsize (s.first + k)) _
  have hu := htell.seq
  have ht := htell'.seq
  by_cases heq : u.seq = i
  · obtain rfl : k = j := by omega
    obtain rfl : u = t := Option.some.inj (hk.symm.trans hj)
    obtain rfl : i = s.first + k := by omega
    rw [if_pos heq, slot_setSlot_self]
    exact htell.mark hs
  · rw [if_neg heq, slot_setSlot_of_ne (by omega) (by omega) (by omega)]
    exact htell

/-! ### Runs -/

inductive Op
  | update (lastAck : ℤ) (sacks : List (ℤ × ℤ))
  | markRetran (i : ℤ) (sndNxt : Option ℤ)
  | clear

def step (fresh : ℤ → ℤ → ScoreBoardNode) (s : ScoreBoard) : Op → Option (ScoreBoard × ℤ)
  | .update lastAck sacks => s.updateScoreBoard fresh lastAck sacks
  | .markRetran i n => some (s.markRetran i n, 0)
  | .clear => some (s.clearScoreBoard, 0)

/-- The last acknowledgement and the packets on the board. -/
structure Board where
  lastAck : ℤ
  packets : List Tracked

/-- Acknowledgements do not go back, and only packets on the board that are not sacked are marked. -/
def Op.Allowed (p : Board) : Op → Prop
  | .update lastAck _ => p.lastAck ≤ lastAck
  | .markRetran i _ => ∃ t ∈ p.packets, t.seq = i ∧ t.sacked = false
  | .clear => True

def Board.next (p : Board) : Op → Board
  | .update lastAck sacks => ⟨lastAck, Tracked.update lastAck sacks p.packets⟩
  | .markRetran i _ => { p with packets := mark i p.packets }
  | .clear => { p with packets := [] }

/-- The `retran_decr` of an update. -/
def Board.out (p : Board) : Op → ℤ
  | .update lastAck sacks => retranDecr lastAck sacks p.packets
  | _ => 0

structure Refines (s : ScoreBoard) (p : Board) : Prop where
  represents : Represents s p.packets
  first : p.packets ≠ [] → s.first = p.lastAck + 1
  size : 1 < s.sbsize

lemma step_refines (fresh : ℤ → ℤ → ScoreBoardNode) {p : Board} {o : Op} (h : Refines s p) (ho : o.Allowed p) :
    ∃ s', step fresh s o = some (s', p.out o) ∧ Refines s' (p.next o) := by
  cases o with
  | update lastAck sacks =>
    have hle : p.packets ≠ [] → s.first ≤ lastAck + 1 := fun hne => by
      have hedge := h.first hne
      have hmono : p.lastAck ≤ lastAck := ho
      omega
    obtain ⟨s', hrun, h', hfirst, hsize⟩ := updateScoreBoard_spec h.represents hle h.size
    exact ⟨s', hrun, h', hfirst, hsize⟩
  | markRetran i n =>
    obtain ⟨t, ht, hi, hs⟩ := ho
    refine ⟨_, rfl, markRetran_spec h.represents ht hi hs, fun _ => h.first ?_, h.size⟩
    exact List.ne_nil_of_mem ht
  | clear => exact ⟨_, rfl, ⟨trivial, rfl, show 0 < s.sbsize by have := h.size; omega⟩, fun hne => absurd rfl hne, h.size⟩

/-- The number that `GetNextRetran` returns is the one of a packet that may be marked. -/
lemma next_allowed {p : Board} (n : Option ℤ) (hne : next p.packets ≠ -1) :
    (Op.markRetran (next p.packets) n).Allowed p := by
  cases hfind : p.packets.find? fun t => !t.sacked && !t.marked with
  | none => exact absurd (by rw [next, hfind]; rfl) hne
  | some t =>
    have hflags := List.find?_some hfind
    rw [Bool.and_eq_true, Bool.not_eq_true'] at hflags
    exact ⟨t, List.mem_of_find?_eq_some hfind, by rw [next, hfind]; rfl, hflags.1⟩

/-- From a cleared board no assertion fails and no `exit` is taken, whatever the array and the memory of
later arrays hold. After every run the board shows the packets of the specification with their flags, each
update has returned the number of marked packets that it found acked or sacked, and `GetNextRetran` returns
the least packet that is neither sacked nor marked, which may be marked next. -/
theorem board_refines (fresh : ℤ → ℤ → ScoreBoardNode) (s : ScoreBoard) (ops : List Op) (hclear : s.length = 0)
    (hsize : 1 < s.sbsize) (hops : AdmissibleRun Op.Allowed Board.next ⟨-1, []⟩ ops) :
    ∃ s', run (step fresh) s ops = some (s', outputs Board.next Board.out ⟨-1, []⟩ ops) ∧
      let p := ops.foldl Board.next ⟨-1, []⟩
      s'.length = p.packets.length ∧ s'.length < s'.sbsize ∧
      (∀ j, 0 ≤ j → j < s'.length → (s'.node (s'.first + j)).seqNo = s'.first + j) ∧
      (∀ (k : ℕ) t, p.packets[k]? = some t →
        t.seq = s'.first + k ∧ (s'.node (s'.first + k)).sackFlag = t.sacked ∧
          (s'.node (s'.first + k)).retran = t.waits) ∧
      s'.getNextRetran = next p.packets ∧
      (s'.getNextRetran ≠ -1 → ∀ n, (Op.markRetran s'.getNextRetran n).Allowed p) := by
  have h₀ : Refines s ⟨-1, []⟩ :=
    ⟨⟨trivial, hclear, show s.length < s.sbsize by omega⟩, fun hne => absurd rfl hne, hsize⟩
  have hstep : ∀ s p o, Refines s p → Op.Allowed p o →
      ∃ s', step fresh s o = some (s', Board.out p o) ∧ Refines s' (Board.next p o) :=
    fun s p o => step_refines fresh
  obtain ⟨s', hrun, h⟩ := run_simulates hstep ops h₀ hops
  have hnext := getNextRetran_spec h.represents
  have hholds := holds_iff.mp h.represents.holds
  refine ⟨s', hrun, h.represents.length, h.represents.fits, fun j hj hlt => ?_, fun k t hk => ?_, hnext, ?_⟩
  · obtain ⟨k, rfl⟩ := Int.eq_ofNat_of_zero_le hj
    rw [h.represents.length] at hlt
    exact (hholds k _ (List.getElem?_eq_getElem (Nat.cast_lt.mp hlt))).seqNo
  · have ht := hholds k t hk
    exact ⟨ht.seq, ht.sack, ht.retran⟩
  · rw [hnext]
    exact fun hne n => next_allowed n hne

/-- Packet 1 is retransmitted and then sacked, and the array grows from 2 to 8 slots. -/
theorem board_refines_growing :
    ∃ s', run (step fun _ _ => ⟨7, true, true, true, 7⟩) ⟨5, 0, 2, 0, fun _ => ⟨9, true, true, true, 9⟩⟩
        [.update 0 [(3, 5)], .markRetran 1 none, .update 0 [(1, 2)], .update 1 [(5, 6)]] = some (s', [0, 0, 1, 0]) ∧
      s'.length = 4 ∧ s'.getNextRetran = 2 := by
  obtain ⟨s', hrun, hlen, -, -, -, hnext, -⟩ :=
    board_refines (fun _ _ => ⟨7, true, true, true, 7⟩) ⟨5, 0, 2, 0, fun _ => ⟨9, true, true, true, 9⟩⟩
      [.update 0 [(3, 5)], .markRetran 1 none, .update 0 [(1, 2)], .update 1 [(5, 6)]] rfl (by decide)
      ⟨show (-1 : ℤ) ≤ 0 by decide, ⟨⟨1, [(3, 5)], false⟩, by decide, rfl, rfl⟩, show (0 : ℤ) ≤ 0 by decide,
        show (0 : ℤ) ≤ 1 by decide, trivial⟩
  exact ⟨s', hrun, hlen, hnext⟩

end ScoreBoard

end NetworkSimulator
