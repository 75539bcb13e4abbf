import NetworkSimulator.Tcp.Reass
import NetworkSimulator.Tcp.SackBlocks

/-!
# `process_sack`

What `SackFullTcpAgent::process_sack` does with the SACK blocks of a header. The test for illegal blocks
reads `tcph->flags() & TH_FIN == 0`, which is `tcph->flags() & (TH_FIN == 0)` and never true, so that every
block is added to `sq_`. One that ends before it starts aborts the simulator, and an empty one is only
harmless between the first and the last number reported.
-/

namespace NetworkSimulator
open Library

/-- The part of the agent that `process_sack` uses. -/
structure SackFullTcp where
  maxSackBlocks : ℤ
  sq : ReassemblyQueue

namespace SackFullTcp

/-- The loop of `process_sack`. -/
def processSacks (flags : ℕ) : ReassemblyQueue → List (ℤ × ℤ) → Option ReassemblyQueue
  | sq, [] => some sq
  | sq, sa :: sacks =>
    -- `==` binds tighter than `&`
    if flags &&& (TH_FIN == 0).toNat ≠ 0 ∧ sa.1 ≥ sa.2 then processSacks flags sq sacks
    else (sq.add sa.1 sa.2 0 0).bind fun r => processSacks flags r.1 sacks

def processSack (a : SackFullTcp) (flags : ℕ) (sacks : List (ℤ × ℤ)) : Option SackFullTcp :=
  if a.maxSackBlocks ≤ 0 then some a
  else (processSacks flags a.sq sacks).map fun sq => { a with sq := sq }

end SackFullTcp

namespace ReassemblyQueue
variable {s t : ReassemblyQueue} {x : ℤ} {p : ℕ} {l m r fifo lifo free : List ℕ} {bs : List Blk}
  {st : List (Range ℤ)} {sseq eseq : ℤ}

/-- The queue holds the blocks `bs`, none of them empty, and `st` from the top of the LIFO on. -/
structure Contents (s : ReassemblyQueue) (bs : List Blk) (st : List (Range ℤ)) : Prop where
  holds : Holds s bs
  nonempty : ∀ b ∈ bs, b.start < b.stop
  stack : s.stack = st

/-- The two queues hold the same blocks in the same orders. -/
def SameContents (s t : ReassemblyQueue) : Prop := s.blocks = t.blocks ∧ s.stack = t.stack ∧ s.total = t.total

lemma Holds.total_eq (h : Holds s bs) : s.total = Range.size (Blk.ranges bs) := by
  obtain ⟨fifo, lifo, free, hq, rfl⟩ := h
  exact hq.total_eq

lemma Contents.same (hs : Contents s bs st) (ht : Contents t bs st) : SameContents s t :=
  ⟨hs.holds.blocks_eq.trans ht.holds.blocks_eq.symm, hs.stack.trans ht.stack.symm,
    hs.holds.total_eq.trans ht.holds.total_eq.symm⟩

/-- A segment that is not empty. -/
lemma Contents.add (h : Contents s bs st) (hlt : sseq < eseq) :
    ∃ res st', s.add sseq eseq 0 0 = some res ∧ Contents res.1 (Blk.addSeg bs ⟨⟨sseq, eseq⟩, 0⟩) st' ∧
      Restacked ⟨sseq, eseq⟩ (Blk.mergedIn bs ⟨⟨sseq, eseq⟩, 0⟩).toRange st st' := by
  obtain ⟨⟨fifo, lifo, free, hq, rfl⟩, hne, rfl⟩ := h
  obtain ⟨res, hres, hadd⟩ := add_stacked 0 0 hq (fits_of_lt hlt hne)
  exact ⟨res, _, hres, ⟨hadd.holds, Blk.nonempty_addSeg hne hlt, rfl⟩, hadd.restacked hne⟩

/-- An empty segment that has been put into a block changes nothing. -/
lemma Contents.of_touching {res : ReassemblyQueue × ℕ} (h : Contents s bs st)
    (hadd : Stacked s bs ⟨⟨x, x⟩, 0⟩ res) {b : Blk} (hb : b ∈ bs) (h₁ : b.start ≤ x) (h₂ : x ≤ b.stop) :
    Contents res.1 bs st := by
  obtain ⟨⟨fifo, lifo, free, hq, rfl⟩, hne, rfl⟩ := h
  obtain ⟨p, hp, rfl⟩ := List.mem_map.mp hb
  obtain ⟨l, r, rfl⟩ := List.append_of_mem hp
  obtain ⟨hpp, hlp, hpr, -, -⟩ := around hq
  have h₁' : s.startseq p ≤ x := h₁
  have h₂' : x ≤ s.endseq p := h₂
  have hpos : s.startseq p < s.endseq p := hne (s.blk p) (by simp)
  obtain ⟨hseg, hin⟩ := addSeg_names (l := l) (m := [p]) (r := r) 0 hq (by simp) (le_refl x)
    (fun a ha => (hlp a ha).trans_le h₁') (by simpa using ⟨h₂', h₁'⟩) fun a ha => h₂'.trans_lt (hpr a ha)
  rw [merged_single 0 hpp, min_eq_left h₁', max_eq_left h₂', Nat.or_zero] at hseg hin
  have hblocks : Blk.addSeg ((l ++ p :: r).map s.blk) ⟨⟨x, x⟩, 0⟩ = (l ++ p :: r).map s.blk := by
    rw [hseg, List.map_append, List.map_cons]
    rfl
  have hone : Restacked ⟨x, x⟩ (s.blk p).toRange s.stack (s.restack p (s.blk p).toRange lifo) := restacked_one hq
    (fun a ha => (hlp a ha).trans_le h₁') ⟨h₂', h₁'⟩ (fun a ha => h₂'.trans_lt (hpr a ha))
    fun hsw => absurd (le_trans hsw.2.1 hsw.1) (not_le.mpr hpos)
  rw [restack_same hq] at hone
  have hrest := hadd.restacked hne
  rw [hin] at hrest
  exact ⟨hblocks ▸ hadd.holds, hne, hrest.unique hone (start_injective hq)⟩

/-- The loop over the covered blocks when there are none. -/
lemma killCovered_none {fuel : ℕ} {altered : Bool} {tiflags : ℕ} {initcnt : ℤ}
    (h : Queue s (l ++ m ++ r) lifo free) (hfuel : m.length < fuel)
    (hun : ∀ a ∈ m, ¬(sseq ≤ s.startseq a ∧ eseq ≥ s.endseq a)) :
    killCovered r.head? sseq eseq fuel s (m ++ r).head? tiflags initcnt altered =
      some (.inr (s, tiflags, initcnt, altered)) := by
  induction m generalizing l fuel with
  | nil =>
    obtain ⟨fuel, rfl⟩ : ∃ k, fuel = k + 1 := ⟨fuel - 1, by omega⟩
    cases r with
    | nil => rfl
    | cons q r => simp [killCovered]
  | cons x m ih =>
    obtain ⟨fuel, rfl⟩ : ∃ k, fuel = k + 1 := ⟨fuel - 1, by omega⟩
    have hsplit : l ++ x :: m ++ r = l ++ x :: (m ++ r) := by simp
    rw [hsplit] at h
    have hnodup := (List.nodup_cons.mp (List.nodup_middle.mp h.onFifo.nodup)).1
    have hxr : some x ≠ r.head? := fun he => hnodup (by simp [List.mem_of_head? he.symm])
    have hnext : s.next x = (m ++ r).head? := h.onFifo.next_eq
    rw [List.cons_append, List.head?_cons, killCovered_skip _ _ hxr (hun x (by simp)), hnext]
    exact ih (l := l ++ [x]) (by simpa using h) (by simp at hfuel; omega) fun a ha => hun a (by simp [ha])

/-- An empty segment between the ends of the queue, in a block or between two blocks, changes nothing. -/
lemma Contents.add_inside (h : Contents s bs st) (hlow : ∃ b ∈ bs, b.start < x) (hhigh : ∃ b ∈ bs, x < b.stop) :
    ∃ res, s.add x x 0 0 = some res ∧ Contents res.1 bs st := by
  have hcontents := h
  obtain ⟨⟨fifo, lifo, free, hq, rfl⟩, hne, rfl⟩ := h
  have hpos : ∀ a ∈ fifo, s.startseq a < s.endseq a := fun a ha => hne (s.blk a) (List.mem_map_of_mem ha)
  obtain ⟨_, hlow, hlowx⟩ := hlow
  obtain ⟨_, hhigh, hxhigh⟩ := hhigh
  obtain ⟨a, ha, rfl⟩ := List.mem_map.mp hlow
  obtain ⟨c, hc, rfl⟩ := List.mem_map.mp hhigh
  have hax : s.startseq a < x := hlowx
  have hxc : x < s.endseq c := hxhigh
  have hfifo : fifo ≠ [] := List.ne_nil_of_mem ha
  obtain ⟨hhead, htail⟩ := head_tail_eq hq hfifo
  have hend : ¬x ≥ s.endseq (fifo.getLast hfifo) := by
    have := endseq_le_last hq hfifo c hc
    omega
  have hbegin : ¬x ≤ s.startseq (fifo.head hfifo) := by
    have := first_le_startseq hq hfifo a ha
    omega
  have hlen := length_le_fresh hq.toShape
  obtain ⟨l, m, r, rfl, hl, hm, hr⟩ := exists_parts x x hq.gapped
  obtain ⟨hwq, hwp⟩ := searches hq (fun a ha => ⟨hl a ha, (hpos a (by simp [ha])).trans_le (hl a ha)⟩) hm
    fun a ha => ⟨(hr a ha).trans_lt (hpos a (by simp [ha])), hr a ha⟩
  have hun : ∀ a ∈ m, ¬(x ≤ s.startseq a ∧ x ≥ s.endseq a) := fun a ha hle => by
    have := hm a ha
    omega
  have hkill : killCovered r.head? x x (s.fresh + 1) s (l.getLast?.or s.head) 0 1 false =
      some (.inr (s, 0, 1, false)) := by
    rcases List.eq_nil_or_concat' l with rfl | ⟨l, p, rfl⟩
    · have hfirst : s.head = (m ++ r).head? := hq.onFifo.head_eq
      rw [List.getLast?_nil, Option.none_or, hfirst]
      exact killCovered_none hq (by simp at hlen; omega) hun
    · have hsplit : l ++ [p] ++ m ++ r = l ++ p :: (m ++ r) := by simp
      have hnext : s.next p = (m ++ r).head? := (hsplit ▸ hq.onFifo).next_eq
      have hnodup := (List.nodup_cons.mp (List.nodup_middle.mp (hsplit ▸ hq.onFifo.nodup))).1
      have hpr : some p ≠ r.head? := fun he => hnodup (by simp [List.mem_of_head? he.symm])
      have hp : ¬(x ≤ s.startseq p ∧ x ≥ s.endseq p) := by
        have := hpos p (by simp)
        omega
      rw [List.getLast?_concat, Option.some_or, killCovered_skip _ _ hpr hp, hnext]
      exact killCovered_none hq (by simp at hlen; omega) hun
  have hemp : ¬s.empty = true := by simp [empty, hhead]
  have hadd : s.add x x 0 0 = s.mergeLeft l.getLast? r.head? x x 0 0 1 := by
    rw [ReassemblyQueue.add, if_neg (lt_irrefl x), hhead]
    simp only
    rw [again2, htail, hhead]
    simp only
    rw [if_neg hend, if_neg hbegin, ← hhead, ← htail, hwq, hwp]
    simp only [Option.bind_eq_bind, Option.bind_some, hkill, if_neg hemp]
    rw [if_neg Bool.false_ne_true]
  rw [hadd]
  rcases m with - | ⟨b, - | ⟨d, m⟩⟩
  · have hq' : Queue s (l ++ r) lifo free := by simpa using hq
    have hlne : l ≠ [] := by
      rintro rfl
      have := hr a (by simpa using ha)
      omega
    have hrne : r ≠ [] := by
      rintro rfl
      have := hl c (by simpa using hc)
      omega
    obtain ⟨l, p, rfl⟩ := (List.eq_nil_or_concat' l).resolve_left hlne
    obtain ⟨q, r, rfl⟩ := List.exists_cons_of_ne_nil hrne
    have hp := hl p (by simp)
    have hq₁ := hr q (by simp)
    have hleft := leftTarget_eq x hq'
    have hsplit : l ++ [p] ++ q :: r = l ++ p :: (q :: r) := by simp
    have hright := rightTarget_eq x (hsplit ▸ hq')
    rw [if_neg (by simp; omega)] at hleft hright
    have hres : s.mergeLeft (l ++ [p]).getLast? (q :: r).head? x x 0 0 1 = s.head.map fun h =>
        ({ s with rcvNxt := if s.rcvNxt ≥ s.startseq h then s.endseq h else s.rcvNxt }, 0) := by
      simp only [mergeLeft, hleft, Option.bind_eq_bind, Option.bind_some, mergeRight, hright, if_pos (le_refl x)]
    rw [hres, hhead]
    exact ⟨_, rfl, ⟨_, _, _, ⟨hq.toShape, hq.same, hq.gapped, hq.total_eq⟩, rfl⟩, hne, rfl⟩
  · have hsplit : l ++ [b] ++ r = l ++ b :: r := by simp
    rw [hsplit] at hq hcontents ⊢
    have hb := hm b (by simp)
    have hleft := leftTarget_eq x hq
    rw [if_pos (.inr hb.2)] at hleft
    obtain ⟨res, hres, hst⟩ := merge_left_one 0 0 0 hq le_rfl hb hr (.inr hb.2) (.inl hb.2)
    refine ⟨res, ?_, hcontents.of_touching hst (List.mem_map_of_mem (by simp)) hb.2.le hb.1.le⟩
    rw [← hres]
    simp only [mergeLeft, hleft, Option.bind_eq_bind, Option.bind_some]
    rfl
  · -- two blocks are not around one number
    have hsplit : l ++ b :: d :: m ++ r = l ++ b :: (d :: m ++ r) := by simp
    have := (around (hsplit ▸ hq)).2.2.1 d (by simp)
    have hb := hm b (by simp)
    have hd := hm d (by simp)
    omega

/-- `add` of an empty segment that is not inside the queue. -/
lemma Contents.add_outside (h : Contents s bs st) (hout : (∀ b ∈ bs, b.stop ≤ x) ∨ ∀ b ∈ bs, x ≤ b.start) :
    ∃ res, s.add x x 0 0 = some res ∧ Stacked s bs ⟨⟨x, x⟩, 0⟩ res := by
  obtain ⟨⟨fifo, lifo, free, hq, rfl⟩, hne, rfl⟩ := h
  have hzero : ∀ a ∈ fifo, s.startseq a = s.endseq a → x ≤ s.startseq a := fun a ha he =>
    absurd he (hne (s.blk a) (List.mem_map_of_mem ha)).ne
  by_cases hfifo : fifo = []
  · subst hfifo
    exact add_stacked 0 0 hq ⟨le_rfl, by simp, hzero⟩
  · have hhead := (head_tail_eq hq hfifo).1
    rw [ReassemblyQueue.add, if_neg (lt_irrefl x), hhead]
    refine again2_outside 0 0 1 1 hq hfifo le_rfl hzero ?_
    exact hout.imp (fun hall a ha => hall (s.blk a) (List.mem_map_of_mem ha))
      fun hall a ha => hall (s.blk a) (List.mem_map_of_mem ha)

/-- An empty segment changes nothing where the blocks reach from below it to above it, or up to it. -/
lemma Contents.add_harmless (h : Contents s bs st) (hlow : ∃ b ∈ bs, b.start ≤ x) (hhigh : ∃ b ∈ bs, x ≤ b.stop) :
    ∃ res, s.add x x 0 0 = some res ∧ Contents res.1 bs st := by
  by_cases hout : (∀ b ∈ bs, b.stop ≤ x) ∨ ∀ b ∈ bs, x ≤ b.start
  · obtain ⟨res, hres, hst⟩ := h.add_outside hout
    refine ⟨res, hres, ?_⟩
    rcases hout with hall | hall
    · obtain ⟨b, hb, hxb⟩ := hhigh
      exact h.of_touching hst hb ((h.nonempty b hb).le.trans (hall b hb)) hxb
    · obtain ⟨b, hb, hbx⟩ := hlow
      exact h.of_touching hst hb hbx ((hall b hb).trans (h.nonempty b hb).le)
  · simp only [not_or, not_forall, not_le] at hout
    obtain ⟨⟨b, hb, hxb⟩, c, hc, hcx⟩ := hout
    exact h.add_inside ⟨c, hc, hcx⟩ ⟨b, hb, hxb⟩

/-- Elsewhere it becomes a block. -/
lemma Contents.add_stray (h : Contents s bs st) (hstray : ¬((∃ b ∈ bs, b.start ≤ x) ∧ ∃ b ∈ bs, x ≤ b.stop)) :
    ∃ res, s.add x x 0 0 = some res ∧ ⟨⟨x, x⟩, 0⟩ ∈ res.1.blocks := by
  have hout : (∀ b ∈ bs, b.stop < x) ∨ ∀ b ∈ bs, x < b.start := by
    rcases not_and_or.mp hstray with hno | hno
    · exact .inr fun b hb => not_le.mp fun hle => hno ⟨b, hb, hle⟩
    · exact .inl fun b hb => not_le.mp fun hle => hno ⟨b, hb, hle⟩
  obtain ⟨res, hres, hst⟩ := h.add_outside
    (hout.imp (fun hall b hb => (hall b hb).le) fun hall b hb => (hall b hb).le)
  have hnone : Blk.touching bs ⟨⟨x, x⟩, 0⟩ = [] := by
    refine List.filter_eq_nil_iff.mpr fun b hb => ?_
    have hno : ¬Range.Touches ⟨x, x⟩ b.toRange := by
      rintro ⟨h₁, h₂⟩
      rcases hout with hall | hall
      · exact absurd (hall b hb) (not_lt.mpr h₁)
      · exact absurd (hall b hb) (not_lt.mpr h₂)
    simpa using hno
  have hin : Blk.mergedIn bs ⟨⟨x, x⟩, 0⟩ = ⟨⟨x, x⟩, 0⟩ := by rw [Blk.mergedIn, hnone, Blk.merged_nil]
  have hmem : Blk.mergedIn bs ⟨⟨x, x⟩, 0⟩ ∈ Blk.addSeg bs ⟨⟨x, x⟩, 0⟩ := Blk.mergedIn_mem
  rw [hin] at hmem
  exact ⟨res, hres, hst.holds.blocks_eq ▸ hmem⟩

end ReassemblyQueue

/-- Every SACK block ends behind its start, or is empty and lies between two numbers that the queue or the blocks
in front of it in the header reach. -/
def SacksHarmless (rs : List (Range ℤ)) : List (ℤ × ℤ) → Prop
  | [] => True
  | sa :: sacks =>
    (sa.1 < sa.2 ∨ sa.1 = sa.2 ∧ (∃ b ∈ rs, b.start ≤ sa.1) ∧ ∃ b ∈ rs, sa.1 ≤ b.stop) ∧
      SacksHarmless (⟨sa.1, sa.2⟩ :: rs) sacks

namespace SackFullTcp
open ReassemblyQueue
variable {s t u : ReassemblyQueue} {bs : List Blk} {st rs : List (Range ℤ)} {sacks : List (ℤ × ℤ)} {flags : ℕ}

/-- The illegal blocks of the header are ignored: the queue ends up as if only the others had been added. -/
def Ignores (a : SackFullTcp) (flags : ℕ) (sacks : List (ℤ × ℤ)) : Prop :=
  ∃ a' legal, a.processSack flags sacks = some a' ∧
    ScoreBoardRQ.addSacks a.sq (sacks.filter fun sa => sa.1 < sa.2) = some legal ∧ SameContents a'.sq legal

/-- The test for illegal blocks never succeeds. -/
lemma processSacks_cons (sa : ℤ × ℤ) : processSacks flags s (sa :: sacks) =
    (s.add sa.1 sa.2 0 0).bind fun r => processSacks flags r.1 sacks := by
  have hguard : (TH_FIN == 0).toNat = 0 := rfl
  rw [processSacks, hguard, Nat.and_zero, if_neg fun h => h.1 rfl]

/-- A block that ends before it starts is never survived. -/
lemma processSacks_inverted (h : ∃ sa ∈ sacks, sa.2 < sa.1) (s : ReassemblyQueue) :
    processSacks flags s sacks = none := by
  induction sacks generalizing s with
  | nil => simp at h
  | cons sa sacks ih =>
    rw [processSacks_cons]
    by_cases hsa : sa.2 < sa.1
    · rw [ReassemblyQueue.add, if_pos hsa, Option.bind_none]
    · have hrest : ∃ sa ∈ sacks, sa.2 < sa.1 := by
        obtain ⟨sb, hmem, hlt⟩ := h
        rcases List.mem_cons.mp hmem with rfl | hmem
        · exact absurd hlt hsa
        · exact ⟨sb, hmem, hlt⟩
      cases s.add sa.1 sa.2 0 0 with
      | none => rfl
      | some r => exact ih hrest r.1

/-- The blocks of the queue reach as far as what was reported. -/
structure Reaches (bs : List Blk) (rs : List (Range ℤ)) : Prop where
  low : ∀ x, (∃ b ∈ bs, b.start ≤ x) ↔ ∃ r ∈ rs, r.start ≤ x
  high : ∀ x, (∃ b ∈ bs, x ≤ b.stop) ↔ ∃ r ∈ rs, x ≤ r.stop

lemma Reaches.add {n : Blk} (h : Reaches bs rs) : Reaches (Blk.addSeg bs n) (n.toRange :: rs) := by
  constructor
  · intro x
    simp only [List.mem_cons, exists_eq_or_imp, ← h.low]
    constructor
    · rintro ⟨b, hb, hbx⟩
      rcases Blk.mem_addSeg hb with rfl | ⟨hb, -⟩
      · by_contra hno
        simp only [not_or, not_exists, not_and, not_le] at hno
        have hle : x + 1 ≤ (Blk.mergedIn bs n).start := Blk.le_mergedIn_start (by have := hno.1; omega)
          fun b hb => by have := hno.2 b hb; omega
        omega
      · exact .inr ⟨b, hb, hbx⟩
    · rintro (hn | ⟨b, hb, hbx⟩)
      · exact ⟨_, Blk.mergedIn_mem, (Blk.mergedIn_start_le bs n).trans hn⟩
      · rcases Blk.mem_addSeg_or_touching (n := n) hb with hb' | hb'
        · exact ⟨b, hb', hbx⟩
        · exact ⟨_, Blk.mergedIn_mem, (Blk.mergedIn_start_le_of_touching hb').trans hbx⟩
  · intro x
    simp only [List.mem_cons, exists_eq_or_imp, ← h.high]
    constructor
    · rintro ⟨b, hb, hbx⟩
      rcases Blk.mem_addSeg hb with rfl | ⟨hb, -⟩
      · by_contra hno
        simp only [not_or, not_exists, not_and, not_le] at hno
        have hle : (Blk.mergedIn bs n).stop ≤ x - 1 := Blk.mergedIn_stop_le (by have := hno.1; omega)
          fun b hb => by have := hno.2 b hb; omega
        omega
      · exact .inr ⟨b, hb, hbx⟩
    · rintro (hn | ⟨b, hb, hbx⟩)
      · exact ⟨_, Blk.mergedIn_mem, hn.trans (Blk.le_mergedIn_stop bs n)⟩
      · rcases Blk.mem_addSeg_or_touching (n := n) hb with hb' | hb'
        · exact ⟨b, hb', hbx⟩
        · exact ⟨_, Blk.mergedIn_mem, hbx.trans (Blk.stop_le_mergedIn hb')⟩

lemma Reaches.cons {x : ℤ} (h : Reaches bs rs) (hlow : ∃ r ∈ rs, r.start ≤ x) (hhigh : ∃ r ∈ rs, x ≤ r.stop) :
    Reaches bs (⟨x, x⟩ :: rs) := by
  constructor
  · intro y
    simp only [h.low, List.mem_cons, exists_eq_or_imp]
    refine ⟨.inr, fun hor => hor.elim (fun hxy => ?_) id⟩
    obtain ⟨r, hr, hrx⟩ := hlow
    exact ⟨r, hr, hrx.trans hxy⟩
  · intro y
    simp only [h.high, List.mem_cons, exists_eq_or_imp]
    refine ⟨.inr, fun hor => hor.elim (fun hyx => ?_) id⟩
    obtain ⟨r, hr, hxr⟩ := hhigh
    exact ⟨r, hr, hyx.trans hxr⟩

/-- The headers made of the first blocks of a header are treated as if the illegal blocks were not there exactly when
the header is harmless. -/
lemma processSacks_iff (flags : ℕ) (hs : Contents s bs st) (hu : Contents u bs st) (hr : Reaches bs rs) :
    (∀ front, front <+: sacks → ∃ t v, processSacks flags s front = some t ∧
      ScoreBoardRQ.addSacks u (front.filter fun sa => sa.1 < sa.2) = some v ∧ SameContents t v) ↔
      SacksHarmless rs sacks := by
  induction sacks generalizing s u bs st rs with
  | nil =>
    refine ⟨fun _ => trivial, fun _ front hfront => ?_⟩
    obtain rfl := List.prefix_nil.mp hfront
    exact ⟨s, u, rfl, rfl, hs.same hu⟩
  | cons sa sacks ih =>
    rw [SacksHarmless]
    rcases lt_trichotomy sa.1 sa.2 with hlt | heq | hgt
    · -- both queues take the block
      obtain ⟨res, st₁, hres, hs₁, hst₁⟩ := hs.add hlt
      obtain ⟨res', st₂, hres', hu₁, hst₂⟩ := hu.add hlt
      have hinj : ∀ b ∈ st, ∀ c ∈ st, b.start = c.start → b = c := by
        obtain ⟨⟨fifo, lifo, free, hq, -⟩, -, rfl⟩ := hs
        exact start_injective hq
      obtain rfl := hst₁.unique hst₂ hinj
      rw [← ih hs₁ hu₁ hr.add, and_iff_right (.inl hlt)]
      have hstep : ∀ front, (∃ t v, processSacks flags s (sa :: front) = some t ∧
          ScoreBoardRQ.addSacks u ((sa :: front).filter fun sa => sa.1 < sa.2) = some v ∧ SameContents t v) ↔
          ∃ t v, processSacks flags res.1 front = some t ∧
            ScoreBoardRQ.addSacks res'.1 (front.filter fun sa => sa.1 < sa.2) = some v ∧ SameContents t v := by
        intro front
        rw [processSacks_cons, hres, Option.bind_some, List.filter_cons_of_pos (by simpa using hlt),
          ScoreBoardRQ.addSacks, hres', Option.bind_some]
      refine ⟨fun h front hfront => (hstep front).mp (h _ (by simpa using hfront)), fun h front hfront => ?_⟩
      rcases List.prefix_cons_iff.mp hfront with rfl | ⟨rest, rfl, hrest⟩
      · exact ⟨s, u, rfl, rfl, hs.same hu⟩
      · exact (hstep rest).mpr (h rest hrest)
    · -- only the queue of the agent takes it
      have hnot : ¬sa.1 < sa.2 := heq.not_lt
      by_cases hin : (∃ b ∈ bs, b.start ≤ sa.1) ∧ ∃ b ∈ bs, sa.1 ≤ b.stop
      · obtain ⟨res, hres, hs₁⟩ := hs.add_harmless hin.1 hin.2
        have hlow := (hr.low sa.1).mp hin.1
        have hhigh := (hr.high sa.1).mp hin.2
        rw [← heq, ← ih hs₁ hu (hr.cons hlow hhigh), and_iff_right (.inr ⟨rfl, hlow, hhigh⟩)]
        have hstep : ∀ front, (∃ t v, processSacks flags s (sa :: front) = some t ∧
            ScoreBoardRQ.addSacks u ((sa :: front).filter fun sa => sa.1 < sa.2) = some v ∧ SameContents t v) ↔
            ∃ t v, processSacks flags res.1 front = some t ∧
              ScoreBoardRQ.addSacks u (front.filter fun sa => sa.1 < sa.2) = some v ∧ SameContents t v := by
          intro front
          rw [processSacks_cons, ← heq, hres, Option.bind_some, List.filter_cons_of_neg (by simpa using hnot)]
        refine ⟨fun h front hfront => (hstep front).mp (h _ (by simpa using hfront)), fun h front hfront => ?_⟩
        rcases List.prefix_cons_iff.mp hfront with rfl | ⟨rest, rfl, hrest⟩
        · exact ⟨s, u, rfl, rfl, hs.same hu⟩
        · exact (hstep rest).mpr (h rest hrest)
      · obtain ⟨res, hres, hmem⟩ := hs.add_stray hin
        refine iff_of_false (fun h => ?_) fun h => ?_
        · obtain ⟨t, v, ht, hv, hsame⟩ := h [sa] (by simp)
          rw [processSacks_cons, ← heq, hres] at ht
          obtain rfl := Option.some.inj ht
          rw [List.filter_cons_of_neg (by simpa using hnot)] at hv
          obtain rfl := Option.some.inj hv
          rw [hsame.1, hu.holds.blocks_eq] at hmem
          exact lt_irrefl _ (hu.nonempty _ hmem)
        · rcases h.1 with hlt | ⟨-, hlow, hhigh⟩
          · exact hnot hlt
          · exact hin ⟨(hr.low sa.1).mpr hlow, (hr.high sa.1).mpr hhigh⟩
    · refine iff_of_false (fun h => ?_) fun h => ?_
      · obtain ⟨t, v, ht, -, -⟩ := h [sa] (by simp)
        rw [processSacks_inverted ⟨sa, by simp, hgt⟩] at ht
        exact absurd ht (by simp)
      · rcases h.1 with hlt | ⟨heq, -, -⟩
        · exact absurd hlt (not_lt.mpr hgt.le)
        · exact absurd heq hgt.ne'

end SackFullTcp

end NetworkSimulator
