import NetworkSimulator.Tcp.ReassemblyRuns
import NetworkSimulator.Tcp.Scoreboard

/-!
# Runs of the scoreboard

`add` moves `rcv_nxt_`, which is `sack_min` here, whenever a block starts at or below it. As long as
the SACK blocks lie above the cumulative ACK, `sack_min` stays above it, the queue holds nothing
below it, and what is offered for retransmission has not been reported as received.
-/

namespace NetworkSimulator
open Library

namespace ReassemblyQueue
variable {s : ReassemblyQueue} {l free : List ℕ} {bs : List Blk}

/-- The loop of `clear` puts all blocks into the cache. -/
lemma clearAll_spec {fuel : ℕ} {b : Option ℕ} (s : ReassemblyQueue) (free : List ℕ)
    (hseg : DSeg s.next s.prev b l none)
    (hhead : s.head = l.head?) (hnodup : l.Nodup) (hchain : Chain s.next s.freelist free)
    (hfree : free.Nodup) (hdisj : ∀ a ∈ free, a ∉ l)
    (hlt : ∀ a, a ∈ l ∨ a ∈ free → a < s.fresh) (hfuel : l.length < fuel) :
    ∃ s' free', clearAll fuel s = some s' ∧ s'.head = none ∧ s'.tail = s.tail ∧ s'.top = s.top ∧
      s'.bottom = s.bottom ∧ s'.toSegData = s.toSegData ∧
      Chain s'.next s'.freelist free' ∧ free'.Nodup ∧ ∀ a ∈ free', a < s'.fresh := by
  induction l generalizing s free fuel b with
  | nil =>
    obtain ⟨fuel, rfl⟩ : ∃ k, fuel = k + 1 := ⟨fuel - 1, by simp at hfuel; omega⟩
    have hnone : s.head = none := hhead
    refine ⟨s, free, ?_, hnone, rfl, rfl, rfl, rfl, hchain, hfree, fun a ha => hlt a (Or.inr ha)⟩
    rw [clearAll, hnone]
  | cons x l ih =>
    obtain ⟨fuel, rfl⟩ : ∃ k, fuel = k + 1 := ⟨fuel - 1, by simp at hfuel; omega⟩
    obtain ⟨hx, hnodup'⟩ := List.nodup_cons.mp hnodup
    obtain ⟨-, hnext, hseg'⟩ := hseg
    rw [Option.or_none] at hnext
    have hsome : s.head = some x := hhead
    have hof : ∀ ys : List ℕ, x ∉ ys → ∀ y ∈ ys,
        Function.update s.next x s.freelist y = s.next y := by
      intro ys hys y hy
      refine Function.update_of_ne ?_ _ _
      rintro rfl
      exact hys hy
    have hxfree : x ∉ free := fun hmem => hdisj x hmem (by simp)
    obtain ⟨s', free', hres, hrest⟩ := ih
      (deleteseginfo { s with head := s.next x } x) (x :: free)
      (hseg'.congr (hof l hx) fun _ _ => rfl) hnext hnodup'
      ⟨rfl, by
        have hself : (deleteseginfo { s with head := s.next x } x).next x = s.freelist :=
          Function.update_self _ _ _
        rw [hself]
        exact hchain.congr (hof free hxfree)⟩
      (List.nodup_cons.mpr ⟨hxfree, hfree⟩)
      (fun a ha => by
        rcases List.mem_cons.mp ha with rfl | ha
        · exact hx
        · exact fun hmem => hdisj a ha (by simp [hmem]))
      (fun a ha => hlt a (by simp at ha ⊢; tauto)) (by simpa using hfuel)
    refine ⟨s', free', ?_, hrest⟩
    rw [clearAll, hsome]
    exact hres

theorem clear_spec (h : Holds s bs) :
    ∃ s', s.clear = some s' ∧ Holds s' [] ∧ s'.rcvNxt = s.rcvNxt := by
  obtain ⟨fifo, lifo, free, hq, rfl⟩ := h
  obtain ⟨s', free', hres, hhead, htail, htop, hbottom, hdata, hchain, hnodup, hlt⟩ :=
    clearAll_spec { s with tail := none, top := none, bottom := none, hint := none } free
      hq.onFifo.seg hq.onFifo.head_eq hq.onFifo.nodup hq.cached hq.cached_nodup
      (fun a ha => (hq.cached_unused a ha).1)
      (fun a ha => hq.lt_fresh a (by tauto)) (Nat.lt_succ_of_le (length_le_fresh hq.toShape))
  refine ⟨{ s' with tail := none, total := 0 }, by rw [clear, hres]; rfl, ?_, by
    simp only [hdata]⟩
  refine ⟨[], [], free', ⟨⟨⟨trivial, hhead, rfl, List.nodup_nil⟩, ⟨trivial, htop, hbottom,
    List.nodup_nil⟩, hchain, hnodup, by simp, fun a ha => hlt a (by simpa using ha)⟩,
    List.Perm.refl _, ⟨List.Pairwise.nil, by simp⟩, rfl⟩, rfl⟩

lemma cnts_isSome {fuel : ℕ} {b : Option ℕ} (hseg : DSeg s.next s.prev b l none)
    (hfuel : l.length < fuel) (blks bytes : ℤ) : ∃ c, s.cnts fuel l.head? blks bytes = some c := by
  induction l generalizing fuel b blks bytes with
  | nil =>
    obtain ⟨fuel, rfl⟩ : ∃ k, fuel = k + 1 := ⟨fuel - 1, by simp at hfuel; omega⟩
    exact ⟨_, rfl⟩
  | cons x l ih =>
    obtain ⟨fuel, rfl⟩ : ∃ k, fuel = k + 1 := ⟨fuel - 1, by simp at hfuel; omega⟩
    obtain ⟨-, hnext, hseg'⟩ := hseg
    rw [Option.or_none] at hnext
    rw [List.head?_cons, cnts, hnext]
    exact ih hseg' (by simpa using hfuel) _ _

/-- The hole that is found is not below `seq` and in no block. -/
lemma nextholeFrom_spec {fuel : ℕ} {b : Option ℕ} (s : ReassemblyQueue) (seq : ℤ)
    (hseg : DSeg s.next s.prev b l none) (hgap : Range.Gapped (Blk.ranges (l.map s.blk)))
    (hfuel : l.length < fuel) :
    ∃ hole c, s.nextholeFrom seq fuel l.head? = some (hole, c) ∧
      (hole = -1 ∨ seq ≤ hole ∧ ∀ a ∈ l, ¬(s.startseq a ≤ hole ∧ hole < s.endseq a)) := by
  induction l generalizing fuel b with
  | nil =>
    obtain ⟨fuel, rfl⟩ : ∃ k, fuel = k + 1 := ⟨fuel - 1, by simp at hfuel; omega⟩
    exact ⟨_, _, rfl, Or.inl rfl⟩
  | cons x l ih =>
    obtain ⟨fuel, rfl⟩ : ∃ k, fuel = k + 1 := ⟨fuel - 1, by simp at hfuel; omega⟩
    obtain ⟨c, hc⟩ := cnts_isSome hseg hfuel 0 0
    obtain ⟨-, hnext, hseg'⟩ := hseg
    rw [Option.or_none] at hnext
    obtain ⟨hxx, hgap', hxl⟩ := gapped_cons.mp hgap
    rw [List.head?_cons] at hc ⊢
    rw [nextholeFrom]
    by_cases hbefore : s.startseq x > seq
    · rw [if_pos hbefore, hc]
      refine ⟨seq, c, rfl, Or.inr ⟨le_rfl, fun a ha => ?_⟩⟩
      rcases List.mem_cons.mp ha with rfl | ha
      · omega
      · have := hxl a ha
        omega
    rw [if_neg hbefore]
    by_cases hin : s.startseq x ≤ seq ∧ s.endseq x ≥ seq
    · rw [if_pos hin]
      have hend : ∀ a ∈ x :: l, ¬(s.startseq a ≤ s.endseq x ∧ s.endseq x < s.endseq a) := by
        intro a ha
        rcases List.mem_cons.mp ha with rfl | ha
        · omega
        · have := hxl a ha
          omega
      cases l with
      | nil =>
        have hnone : s.next x = none := hnext
        rw [hnone]
        exact ⟨_, _, rfl, Or.inr ⟨hin.2, hend⟩⟩
      | cons y l =>
        have hsome : s.next x = some y := hnext
        obtain ⟨c', hc'⟩ := cnts_isSome hseg' (show _ < fuel + 1 by simp at hfuel ⊢; omega) 0 0
        rw [List.head?_cons] at hc'
        rw [hsome]
        refine ⟨s.endseq x, c', ?_, Or.inr ⟨hin.2, hend⟩⟩
        simp only [hc', Option.map_some]
    · rw [if_neg hin, hnext]
      obtain ⟨hole, c', hres, hhole⟩ := ih hseg' hgap' (by simpa using hfuel)
      refine ⟨hole, c', hres, hhole.imp_right fun ⟨hle, hno⟩ => ⟨hle, fun a ha => ?_⟩⟩
      rcases List.mem_cons.mp ha with rfl | ha
      · omega
      · exact hno a ha

theorem nexthole_spec (h : Holds s bs) (seq : ℤ) :
    ∃ s' hole c, s.nexthole seq = some (s', hole, c) ∧ Holds s' bs ∧ s'.rcvNxt = s.rcvNxt ∧
      (hole = -1 ∨ seq ≤ hole ∧ hole ∉ Range.covered (Blk.ranges bs)) := by
  obtain ⟨fifo, lifo, free, hq, rfl⟩ := h
  obtain ⟨hole, c, hres, hhole⟩ := nextholeFrom_spec { s with hint := s.head } seq
    hq.onFifo.seg hq.gapped (Nat.lt_succ_of_le (length_le_fresh hq.toShape))
  refine ⟨{ s with hint := s.head }, hole, c, ?_,
    ⟨fifo, lifo, free, ⟨⟨hq.onFifo, hq.onLifo, hq.cached, hq.cached_nodup, hq.cached_unused,
      hq.lt_fresh⟩, hq.same, hq.gapped, hq.total_eq⟩, rfl⟩, rfl,
    hhole.imp_right fun ⟨hle, hno⟩ => ⟨hle, ?_⟩⟩
  · rw [nexthole]
    simp only [hq.onFifo.head_eq] at hres ⊢
    rw [hres]
    rfl
  · rintro ⟨t, ht, hin⟩
    obtain ⟨b, hb, rfl⟩ := List.mem_map.mp ht
    obtain ⟨a, ha, rfl⟩ := List.mem_map.mp hb
    exact hno a ha hin

end ReassemblyQueue

/-- The calls of the scoreboard. -/
inductive SbOp
  | updateScoreBoard (lastAck : ℤ) (sacks : List (ℤ × ℤ))
  | markRetran (retranSeqno : ℤ)
  | clearScoreBoard
  | getNextRetran

/-- What the scoreboard has been told: the last cumulative ACK, and the numbers in the SACK blocks
since the last clear. -/
structure Told where
  lastAck : Option ℤ
  sacked : Set ℤ

namespace Told

def next (t : Told) : SbOp → Told
  | .updateScoreBoard lastAck sacks =>
    ⟨some lastAck, t.sacked ∪ {x | ∃ sa ∈ sacks, sa.1 ≤ x ∧ x < sa.2}⟩
  | .clearScoreBoard => ⟨t.lastAck, ∅⟩
  | .markRetran _ => t
  | .getNextRetran => t

/-- The cumulative ACK never decreases and no SACK block is empty. -/
def Admits (t : Told) : SbOp → Prop
  | .updateScoreBoard lastAck sacks =>
    (∀ a, t.lastAck = some a → a ≤ lastAck) ∧ ∀ sa ∈ sacks, sa.1 < sa.2
  | _ => True

end Told

namespace ScoreBoardRQ

def step (s : ScoreBoardRQ) : SbOp → Option (ScoreBoardRQ × ℤ)
  | .updateScoreBoard lastAck sacks => (s.updateScoreBoard lastAck sacks).map fun s => (s, 0)
  | .markRetran retranSeqno => some (s.markRetran retranSeqno, 0)
  | .clearScoreBoard => s.clearScoreBoard.map fun s => (s, 0)
  | .getNextRetran => s.getNextRetran

/-- No SACK block lies at or below the cumulative ACK, and the ACK either moves `sack_min` or lies
below everything that is held. -/
def Above (s : ScoreBoardRQ) : SbOp → Prop
  | .updateScoreBoard lastAck sacks => (∀ sa ∈ sacks, lastAck + 1 ≤ sa.1) ∧
    (s.sackMin ≤ lastAck ∨ ∀ b ∈ s.rq.blocks, lastAck + 1 ≤ b.start)
  | _ => True

/-- The scoreboard is where the cumulative ACK is, and holds what was reported above it. -/
def Tracks (s : ScoreBoardRQ) (t : Told) : Prop :=
  ∃ bs, s.rq.Holds bs ∧ (∀ b ∈ bs, b.start < b.stop) ∧
    (t.lastAck = none → bs = [] ∧ t.sacked = ∅) ∧
    ∀ a, t.lastAck = some a → a + 1 ≤ s.sackMin ∧ (∀ b ∈ bs, a + 1 ≤ b.start) ∧
      ∀ x ∈ t.sacked, a < x → x ∈ Range.covered (Blk.ranges bs)

variable {s : ScoreBoardRQ} {t : Told} {x : ℤ}

lemma addSacks_spec {rq : ReassemblyQueue} {bs : List Blk} {sacks : List (ℤ × ℤ)}
    (h : rq.Holds bs) (hne : ∀ b ∈ bs, b.start < b.stop) (hlt : ∀ sa ∈ sacks, sa.1 < sa.2)
    (hlow : ∀ sa ∈ sacks, x ≤ sa.1) (hbs : ∀ b ∈ bs, x ≤ b.start) (hrcv : x ≤ rq.rcvNxt) :
    ∃ rq' bs', addSacks rq sacks = some rq' ∧ rq'.Holds bs' ∧ (∀ b ∈ bs', b.start < b.stop) ∧
      (∀ b ∈ bs', x ≤ b.start) ∧ x ≤ rq'.rcvNxt ∧ Range.covered (Blk.ranges bs') =
        Range.covered (Blk.ranges bs) ∪ {y | ∃ sa ∈ sacks, sa.1 ≤ y ∧ y < sa.2} := by
  induction sacks generalizing rq bs with
  | nil => exact ⟨rq, bs, rfl, h, hne, hbs, hrcv, by simp⟩
  | cons sa sacks ih =>
    have hsa := hlt sa (by simp)
    have hxs := hlow sa (by simp)
    obtain ⟨⟨rq₁, flags⟩, hres, hadd⟩ := ReassemblyQueue.add_of_lt h hne hsa 0 0
    have hne₁ := Blk.nonempty_addSeg (n := ⟨⟨sa.1, sa.2⟩, 0⟩) hne hsa
    have hbs₁ : ∀ b ∈ Blk.addSeg bs ⟨⟨sa.1, sa.2⟩, 0⟩, x ≤ b.start := by
      intro b hb
      rcases Blk.mem_addSeg hb with rfl | ⟨hb, -⟩
      · exact Blk.le_mergedIn_start hxs hbs
      · exact hbs b hb
    have hadvance : ∀ b ∈ Blk.addSeg bs ⟨⟨sa.1, sa.2⟩, 0⟩, x ≤ b.advance rq.rcvNxt := by
      intro b hb
      have := hbs₁ b hb
      have := hne₁ b hb
      rw [Blk.advance]
      split <;> omega
    have hrcv₁ : x ≤ rq₁.rcvNxt := by
      rcases hadd.rcvNxt with h | ⟨-, h | ⟨b, hb, h⟩⟩
      · exact (hadvance _ Blk.mergedIn_mem).trans_eq h.symm
      · exact hrcv.trans_eq h.symm
      · exact (hadvance b (List.mem_of_head? hb)).trans_eq h.symm
    obtain ⟨rq', bs', hres', h', hne', hbs', hrcv', hcov⟩ := ih hadd.holds hne₁
      (fun sb hsb => hlt sb (by simp [hsb])) (fun sb hsb => hlow sb (by simp [hsb])) hbs₁ hrcv₁
    refine ⟨rq', bs', by rw [addSacks, hres]; exact hres', h', hne', hbs', hrcv', ?_⟩
    rw [hcov, Blk.ranges_addSeg, Range.covered_absorb, Set.union_assoc]
    congr 1
    ext y
    simp [Range.Contains]

/-- The blocks that are left after the queue has been moved to the cumulative ACK. -/
lemma moved_spec {bs : List Blk} {rq : ReassemblyQueue} (h : rq.Holds bs) (lastAck : ℤ) :
    ∃ rq' changed, (if ({ rq with rcvNxt := lastAck + 1 } : ReassemblyQueue).empty then
          some ({ rq with rcvNxt := lastAck + 1 }, false)
        else ({ rq with rcvNxt := lastAck + 1 } : ReassemblyQueue).cleartonxt.map
          fun r => (r.1, true)) = some (rq', changed) ∧
      rq'.Holds (Blk.trimTo bs (lastAck + 1)) ∧ rq'.rcvNxt = lastAck + 1 := by
  obtain ⟨fifo, lifo, free, hq, rfl⟩ := h
  have hq' : Queue { rq with rcvNxt := lastAck + 1 } fifo lifo free :=
    ⟨hq.toShape, hq.same, hq.gapped, hq.total_eq⟩
  by_cases hempty : ({ rq with rcvNxt := lastAck + 1 } : ReassemblyQueue).empty = true
  · rw [if_pos hempty]
    have hnil : fifo = [] := by
      have hhead : rq.head = none := by simpa [ReassemblyQueue.empty] using hempty
      exact hq.onFifo.nil_iff.mp hhead
    subst hnil
    exact ⟨_, _, rfl, ⟨[], lifo, free, hq', rfl⟩, rfl⟩
  · rw [if_neg hempty]
    obtain ⟨⟨rq', flags⟩, hres, hs', -, hrcv⟩ :=
      ReassemblyQueue.clearto_spec ⟨fifo, lifo, free, hq', rfl⟩ (lastAck + 1)
    refine ⟨rq', true, ?_, hs', hrcv⟩
    rw [ReassemblyQueue.cleartonxt, hres]
    rfl

lemma Tracks.updateScoreBoard {lastAck : ℤ} {sacks : List (ℤ × ℤ)} (h : Tracks s t)
    (hadm : t.Admits (.updateScoreBoard lastAck sacks))
    (habove : s.Above (.updateScoreBoard lastAck sacks)) :
    ∃ s', s.updateScoreBoard lastAck sacks = some s' ∧
      Tracks s' (t.next (.updateScoreBoard lastAck sacks)) := by
  obtain ⟨bs, hs, hne, hnone, hsome⟩ := h
  obtain ⟨hmono, hlt⟩ := hadm
  obtain ⟨hlow, hmin⟩ := habove
  rw [hs.blocks_eq] at hmin
  -- whatever was reported above the new ACK is still held
  have hsacked : ∀ x ∈ t.sacked, lastAck < x → x ∈ Range.covered (Blk.ranges bs) := by
    intro x hx hgt
    cases ha : t.lastAck with
    | none => rw [(hnone ha).2] at hx; exact absurd hx (Set.notMem_empty x)
    | some a => exact (hsome a ha).2.2 x hx ((hmono a ha).trans_lt hgt)
  have hleave : ∃ rq changed bs₁, (if s.sackMin ≤ lastAck then
        if ({ s.rq with rcvNxt := lastAck + 1 } : ReassemblyQueue).empty then
          some ({ s.rq with rcvNxt := lastAck + 1 }, false)
        else ({ s.rq with rcvNxt := lastAck + 1 } : ReassemblyQueue).cleartonxt.map
          fun r => (r.1, true)
      else some (s.rq, false)) = some (rq, changed) ∧ rq.Holds bs₁ ∧
      (∀ b ∈ bs₁, b.start < b.stop) ∧ (∀ b ∈ bs₁, lastAck + 1 ≤ b.start) ∧
      lastAck + 1 ≤ rq.rcvNxt ∧
      ∀ x ∈ t.sacked, lastAck < x → x ∈ Range.covered (Blk.ranges bs₁) := by
    by_cases hle : s.sackMin ≤ lastAck
    · obtain ⟨rq, changed, hres, hrq, hrcv⟩ := moved_spec hs lastAck
      refine ⟨rq, changed, _, by rw [if_pos hle]; exact hres, hrq, Blk.nonempty_trimTo hne _, ?_,
        hrcv.ge, fun x hx hgt => ?_⟩
      · intro b hb
        obtain ⟨c, -, rfl⟩ := List.mem_map.mp hb
        exact le_max_right _ _
      · rw [Blk.ranges_trimTo, Range.covered_trim]
        exact ⟨hsacked x hx hgt, by rw [Set.mem_Iio]; omega⟩
    · exact ⟨s.rq, false, bs, if_neg hle, hs, hne, hmin.resolve_left hle, by
        rw [sackMin] at hle; omega, hsacked⟩
  obtain ⟨rq, changed, bs₁, hmoved, hs₁, hne₁, hbs₁, hrcv₁, hold₁⟩ := hleave
  obtain ⟨rq₂, bs₂, hadd, hs₂, hne₂, hbs₂, hrcv₂, hcov⟩ :=
    addSacks_spec hs₁ hne₁ hlt hlow hbs₁ hrcv₁
  refine ⟨{ s with rq := rq₂, changed := changed || s.rq.total != rq₂.total }, ?_, bs₂, hs₂, hne₂,
    fun h => absurd h (Option.some_ne_none _), ?_⟩
  · unfold ScoreBoardRQ.updateScoreBoard
    simp only [hmoved, Option.bind_some, hadd, Option.map_some]
  · intro a ha
    obtain rfl : lastAck = a := Option.some.inj ha
    refine ⟨hrcv₂, hbs₂, fun x hx hgt => ?_⟩
    rw [hcov]
    exact hx.imp (fun hx => hold₁ x hx hgt) id

lemma Tracks.clearScoreBoard (h : Tracks s t) :
    ∃ s', s.clearScoreBoard = some s' ∧ Tracks s' (t.next .clearScoreBoard) := by
  obtain ⟨bs, hs, hne, hnone, hsome⟩ := h
  obtain ⟨rq, hres, hrq, hrcv⟩ := ReassemblyQueue.clear_spec hs
  refine ⟨{ s with rq := rq, hSeqno := -1 }, by rw [ScoreBoardRQ.clearScoreBoard, hres]; rfl, [],
    hrq, by simp, fun _ => ⟨rfl, rfl⟩, fun a ha => ⟨?_, by simp, fun x hx => hx.elim⟩⟩
  exact (hsome a ha).1.trans_eq hrcv.symm

/-- What `GetNextRetran` answers is above the ACK and in no block. -/
lemma Tracks.getNextRetran (h : Tracks s t) :
    ∃ s' seq, s.getNextRetran = some (s', seq) ∧ Tracks s' t ∧
      ∀ a, t.lastAck = some a → seq = -1 ∨ a < seq ∧ seq ∉ t.sacked := by
  obtain ⟨bs, hs, hne, hnone, hsome⟩ := h
  have hfrom : ∃ q : ScoreBoardRQ, (if s.hSeqno < s.sackMin then { s with hSeqno := s.sackMin }
      else s) = q ∧ q.rq = s.rq ∧ s.sackMin ≤ q.hSeqno := by
    split
    · exact ⟨_, rfl, rfl, le_rfl⟩
    · exact ⟨_, rfl, rfl, by omega⟩
  obtain ⟨q, hq, hrq, hmin⟩ := hfrom
  obtain ⟨rq, hole, c, hres, hrq', hrcv, hhole⟩ := ReassemblyQueue.nexthole_spec hs q.hSeqno
  have hkeep : ∀ h, Tracks ⟨h, q.changed, rq⟩ t := fun h =>
    ⟨bs, hrq', hne, hnone, fun a ha =>
      ⟨(hsome a ha).1.trans_eq hrcv.symm, (hsome a ha).2⟩⟩
  have hseq : ∀ a, t.lastAck = some a → 0 < hole → a < hole ∧ hole ∉ t.sacked := by
    intro a ha hpos
    obtain ⟨hle, hno⟩ := hhole.resolve_left (by omega)
    obtain ⟨hmin', -, hcov⟩ := hsome a ha
    have hlt : a < hole := by omega
    exact ⟨hlt, fun hmem => hno (hcov hole hmem hlt)⟩
  unfold ScoreBoardRQ.getNextRetran
  simp only [hq, hrq, hres, Option.map_some]
  by_cases hpos : hole > 0
  · rw [if_pos hpos]
    by_cases hcnt : c.1 ≤ 0
    · rw [if_pos hcnt]
      exact ⟨_, _, rfl, hkeep _, fun _ _ => Or.inl rfl⟩
    · rw [if_neg hcnt]
      refine ⟨_, _, rfl, ?_, fun a ha => Or.inr (hseq a ha hpos)⟩
      split
      · exact hkeep _
      · exact hkeep _
  · rw [if_neg hpos]
    exact ⟨_, _, rfl, hkeep _, fun _ _ => Or.inl rfl⟩

lemma Tracks.step {op : SbOp} (h : Tracks s t) (hadm : t.Admits op) (habove : s.Above op) :
    ∃ s' out, s.step op = some (s', out) ∧ Tracks s' (t.next op) := by
  cases op with
  | updateScoreBoard lastAck sacks =>
    obtain ⟨s', hres, hs'⟩ := h.updateScoreBoard hadm habove
    exact ⟨s', 0, by rw [ScoreBoardRQ.step, hres]; rfl, hs'⟩
  | markRetran retranSeqno =>
    obtain ⟨bs, hs, hrest⟩ := h
    refine ⟨s.markRetran retranSeqno, 0, rfl, bs, ?_⟩
    rw [ScoreBoardRQ.markRetran]
    split
    · exact ⟨hs, hrest⟩
    · exact ⟨hs, hrest⟩
  | clearScoreBoard =>
    obtain ⟨s', hres, hs'⟩ := h.clearScoreBoard
    exact ⟨s', 0, by rw [ScoreBoardRQ.step, hres]; rfl, hs'⟩
  | getNextRetran =>
    obtain ⟨s', out, hres, hs', -⟩ := h.getNextRetran
    exact ⟨s', out, hres, hs'⟩

lemma tracks_init {m : ReassemblyQueue} {free : List ℕ} (hm : Cached m free) :
    Tracks (init m) ⟨none, ∅⟩ :=
  ⟨[], ReassemblyQueue.holds_init hm (-1), by simp, fun _ => ⟨rfl, rfl⟩,
    fun _ ha => absurd ha.symm (Option.some_ne_none _)⟩

/-- The scoreboard is not behind the cumulative ACK, and what it offers next is above the ACK and
has not been reported since the last clear. -/
def Ahead (s : ScoreBoardRQ) (t : Told) : Prop :=
  ∀ a, t.lastAck = some a → a + 1 ≤ s.sackMin ∧ (∀ b ∈ s.rq.blocks, a + 1 ≤ b.start) ∧
    ∃ s' seq, s.getNextRetran = some (s', seq) ∧ (seq = -1 ∨ a < seq ∧ seq ∉ t.sacked)

lemma Tracks.ahead (h : Tracks s t) : s.Ahead t := by
  obtain ⟨s', seq, hres, -, hseq⟩ := h.getNextRetran
  obtain ⟨bs, hs, -, -, hsome⟩ := h
  intro a ha
  obtain ⟨hmin, hbs, -⟩ := hsome a ha
  exact ⟨hmin, by rwa [hs.blocks_eq], s', seq, hres, hseq a ha⟩

/-- As long as the SACK blocks lie above the ACK, the scoreboard never falls behind it. -/
theorem ahead_run {m : ReassemblyQueue} {free : List ℕ} (hm : Cached m free) (ops : List SbOp)
    (hadm : AdmissibleRun Told.Admits Told.next ⟨none, ∅⟩ ops)
    (habove : EachStep step Above (init m) ops) :
    ∃ s outs, run step (init m) ops = some (s, outs) ∧
      s.Ahead (ops.foldl Told.next ⟨none, ∅⟩) := by
  obtain ⟨s, outs, hrun, h⟩ := run_of_each (fun _ _ _ => Tracks.step) (tracks_init hm) hadm habove
  exact ⟨s, outs, hrun, h.ahead⟩

/-- The first block is below the ACK: `sack_min` goes back to 5 and the block is held, so that 5 is
offered for retransmission although 10 has been acknowledged. -/
theorem falls_behind :
    AdmissibleRun Told.Admits Told.next ⟨none, ∅⟩ [.updateScoreBoard 10 [(3, 5), (20, 25)]] ∧
    ∃ s outs, run step (init ReassemblyQueue.blank) [.updateScoreBoard 10 [(3, 5), (20, 25)]] =
        some (s, outs) ∧
      ¬s.Ahead ([SbOp.updateScoreBoard 10 [(3, 5), (20, 25)]].foldl Told.next ⟨none, ∅⟩) ∧
      s.sackMin = 5 ∧ s.rq.blocks.map (·.start) = [3, 20] ∧
      s.getNextRetran.map Prod.snd = some 5 := by
  have hrun : (run step (init ReassemblyQueue.blank)
      [.updateScoreBoard 10 [(3, 5), (20, 25)]]).map (fun r => (r.1.sackMin,
        r.1.rq.blocks.map (·.start), r.1.getNextRetran.map Prod.snd)) =
      some (5, [3, 20], some 5) := by decide
  obtain ⟨⟨s, outs⟩, hs, he⟩ := Option.map_eq_some_iff.mp hrun
  simp only [Prod.mk.injEq] at he
  refine ⟨⟨⟨by simp, by simp⟩, trivial⟩, s, outs, hs, fun h => ?_, he⟩
  have := (h 10 rfl).1
  omega

theorem ahead_run_two_updates :
    ∃ s outs, run step (init ReassemblyQueue.blank) [.updateScoreBoard 10 [(20, 25)],
        .updateScoreBoard 12 [(13, 15)]] = some (s, outs) ∧
      s.Ahead ([SbOp.updateScoreBoard 10 [(20, 25)],
        .updateScoreBoard 12 [(13, 15)]].foldl Told.next ⟨none, ∅⟩) := by
  have hfirst : (step (init ReassemblyQueue.blank) (.updateScoreBoard 10 [(20, 25)])).map
      (fun r => (r.1.rq.blocks.map (·.start))) = some [20] := by decide
  refine ahead_run ReassemblyQueue.cached_blank _ ⟨⟨by simp, by simp⟩, ⟨?_, by simp⟩, trivial⟩
    ⟨⟨by simp, Or.inl (by decide)⟩, fun s out hs => ⟨⟨by simp, Or.inr ?_⟩, fun _ _ _ => trivial⟩⟩
  · rintro a ha
    obtain rfl : 10 = a := Option.some.inj ha
    decide
  · rw [hs] at hfirst
    intro b hb
    have hstart : b.start ∈ [(20 : ℤ)] := by
      rw [← Option.some.inj hfirst]
      exact List.mem_map_of_mem hb
    rw [List.mem_singleton.mp hstart]
    decide

end ScoreBoardRQ

end NetworkSimulator
