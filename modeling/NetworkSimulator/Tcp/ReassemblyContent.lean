import NetworkSimulator.Tcp.Blocks
import NetworkSimulator.Tcp.ReassemblyLinks

/-!
# What the reassembly queue holds

`Queue s fifo lifo free bs` ties the pointers of a queue to its list of blocks. Each operation is
given its effect on that list: `add` is `Blk.addSeg`, `clearto` is `Blk.trimTo`.
-/

namespace NetworkSimulator
open Library

def SegData.blk (d : SegData) (a : ℕ) : Blk := ⟨⟨d.startseq a, d.endseq a⟩, d.pflags a⟩

/-- The pointers of the queue are in order and its blocks are the same on both lists, sorted, and
counted. -/
structure Queue (s : ReassemblyQueue) (fifo lifo free : List ℕ) : Prop extends
    Shape s.toSegLinks fifo lifo free where
  same : lifo.Perm fifo
  gapped : Range.Gapped (Blk.ranges (fifo.map s.blk))
  total_eq : s.total = Range.size (Blk.ranges (fifo.map s.blk))

/-- How `add` moves `rcv_nxt_` when it has made the block `b`. -/
def Blk.advance (b : Blk) (rcvNxt : ℤ) : ℤ := if rcvNxt ≥ b.start then b.stop else rcvNxt

lemma gapped_append {d : SegData} {l r : List ℕ} :
    Range.Gapped (Blk.ranges ((l ++ r).map d.blk)) ↔ Range.Gapped (Blk.ranges (l.map d.blk)) ∧
      Range.Gapped (Blk.ranges (r.map d.blk)) ∧ ∀ a ∈ l, ∀ b ∈ r, d.endseq a < d.startseq b := by
  rw [List.map_append, Blk.ranges_append, Range.Gapped.append_iff]
  simp [Blk.ranges, SegData.blk]

lemma gapped_cons {d : SegData} {p : ℕ} {r : List ℕ} :
    Range.Gapped (Blk.ranges ((p :: r).map d.blk)) ↔ d.startseq p ≤ d.endseq p ∧
      Range.Gapped (Blk.ranges (r.map d.blk)) ∧ ∀ b ∈ r, d.endseq p < d.startseq b := by
  rw [List.map_cons, Blk.ranges_cons, Range.Gapped.cons_iff]
  simp [Blk.ranges, SegData.blk]

namespace ReassemblyQueue

/-- The queue holds the blocks `bs`. -/
def Holds (s : ReassemblyQueue) (bs : List Blk) : Prop :=
  ∃ fifo lifo free, Queue s fifo lifo free ∧ fifo.map s.blk = bs

/-- The blocks on the FIFO. -/
def blocks (s : ReassemblyQueue) : List Blk := (follow s.next s.fresh s.head).map s.blk

/-- The blocks on the LIFO, from the top. -/
def stack (s : ReassemblyQueue) : List (Range ℤ) :=
  (follow s.snext s.fresh s.top).map fun a => (s.blk a).toRange

/-- What `add` answers after it has made the block `m`. -/
structure Made (s : ReassemblyQueue) (bs : List Blk) (m : Blk) (r : ReassemblyQueue × ℕ) :
    Prop where
  holds : Holds r.1 bs
  flags : r.2 ||| m.flags = m.flags
  rcvNxt : r.1.rcvNxt = m.advance s.rcvNxt

variable {s : ReassemblyQueue} {p n q : ℕ} {l r fifo lifo free : List ℕ} {bs : List Blk}

lemma stack_eq (h : Shape s.toSegLinks fifo lifo free) :
    s.stack = lifo.map fun a => (s.blk a).toRange := by
  rw [stack, h.onLifo.head_eq, follow_eq h.onLifo.seg (length_lifo_le_fresh h)]

/-- `coalesce` when the new block fills the hole between `p` and `q`. -/
lemma coalesce_both (h : Shape s.toSegLinks (l ++ p :: n :: q :: r) (n :: lifo) free)
    (hq : q ∈ lifo) (h₁ : s.endseq p = s.startseq n) (h₂ : s.endseq n = s.startseq q) :
    ∃ s', s.coalesce (some p) n (some q) = some (s', s.pflags p ||| s.pflags n) ∧
      Shape s'.toSegLinks (l ++ p :: r) (lifo.erase q) (q :: n :: free) ∧
      s'.toSegData = { s.toSegData with
        endseq := Function.update s.endseq p (s.endseq q)
        cnt := Function.update s.cnt p (s.cnt p + (s.cnt n + s.cnt q))
        pflags := Function.update s.pflags p (s.pflags p ||| s.pflags n)
        rcvNxt := if s.rcvNxt ≥ s.startseq p then s.endseq q else s.rcvNxt } := by
  have hn : Shape s.toSegLinks ((l ++ [p]) ++ n :: (q :: r)) (n :: lifo) free := by simpa using h
  obtain ⟨hs₁, hd₁⟩ := unlink_spec hn (by simp)
  rw [List.erase_cons_head] at hs₁
  obtain ⟨hs₂, hd₂⟩ := unlink_spec hs₁ hq
  obtain ⟨hnf, hnl, hnc, hnlt⟩ := unlinked hn
  obtain ⟨hqf, hql, hqc, hqlt⟩ := unlinked hs₁
  rw [List.erase_cons_head] at hnl
  have hnl' : n ∉ lifo.erase q := fun hmem => hnl (List.mem_of_mem_erase hmem)
  have hqn : q ≠ n := fun he => hnf (by simp [he])
  have hfresh : ((((s.sremove n).fremove n).sremove q).fremove q).fresh = s.fresh := by simp
  have hfresh₁ : ((s.sremove n).fremove n).fresh = s.fresh := by simp
  rw [hfresh₁] at hqlt
  unfold coalesce
  simp only [Option.any_some, h₁, h₂, decide_true, Option.map_some]
  generalize (((s.sremove n).fremove n).sremove q).fremove q = t at *
  obtain ⟨tl, td⟩ := t
  obtain rfl : td = s.toSegData := hd₂.trans hd₁
  obtain ⟨hs₃, -⟩ := deleteseginfo_spec (s := ⟨tl, s.toSegData⟩) hs₂
    (fun hmem => hnf (by simp at hmem ⊢; tauto)) hnl' hnc (hfresh ▸ hnlt)
  obtain ⟨hs₄, -⟩ := deleteseginfo_spec hs₃ hqf hql (by simp [hqn, hqc]) (hfresh ▸ hqlt)
  rw [List.append_assoc] at hs₄
  refine ⟨⟨(deleteseginfo (deleteseginfo ⟨tl, s.toSegData⟩ n) q).toSegLinks, _⟩, ?_, ?_, rfl⟩
  · simp [deleteseginfo]
  · exact hs₄

/-- `coalesce` when the new block only joins `p`. -/
lemma coalesce_left (h : Shape s.toSegLinks (l ++ p :: n :: r) (n :: lifo) free)
    (h₁ : s.endseq p = s.startseq n) (h₂ : ∀ q, r.head? = some q → s.endseq n ≠ s.startseq q) :
    ∃ s', s.coalesce (some p) n r.head? = some (s', s.pflags p ||| s.pflags n) ∧
      Shape s'.toSegLinks (l ++ p :: r) lifo (n :: free) ∧
      s'.toSegData = { s.toSegData with
        endseq := Function.update s.endseq p (s.endseq n)
        pflags := Function.update s.pflags p (s.pflags p ||| s.pflags n)
        cnt := Function.update s.cnt p (s.cnt p + s.cnt n)
        rcvNxt := if s.rcvNxt ≥ s.startseq p then s.endseq n else s.rcvNxt } := by
  have hn : Shape s.toSegLinks ((l ++ [p]) ++ n :: r) (n :: lifo) free := by simpa using h
  obtain ⟨hs, hd⟩ := unlink_spec hn (by simp)
  obtain ⟨hnf, hnl, hnc, hnlt⟩ := unlinked hn
  rw [List.erase_cons_head] at hs hnl
  have hfresh : ((s.sremove n).fremove n).fresh = s.fresh := by simp
  have hjoin : (r.head?.any fun q => decide (s.endseq n = s.startseq q)) = false := by
    cases r with
    | nil => rfl
    | cons q r => simpa using h₂ q rfl
  unfold coalesce
  simp only [Option.any_some, h₁, decide_true, hjoin, Option.map_some]
  generalize (s.sremove n).fremove n = t at *
  obtain ⟨tl, td⟩ := t
  obtain rfl : td = s.toSegData := hd
  obtain ⟨hs', -⟩ := deleteseginfo_spec (s := ⟨tl, s.toSegData⟩) hs hnf hnl hnc (hfresh ▸ hnlt)
  rw [List.append_assoc] at hs'
  refine ⟨⟨(deleteseginfo ⟨tl, s.toSegData⟩ n).toSegLinks, _⟩, ?_, ?_, rfl⟩
  · cases r.head? <;> simp [deleteseginfo]
  · exact hs'

/-- `coalesce` when the new block only joins `q`. -/
lemma coalesce_right (h : Shape s.toSegLinks (l ++ n :: q :: r) (n :: lifo) free)
    (h₁ : ∀ p, l.getLast? = some p → s.endseq p ≠ s.startseq n)
    (h₂ : s.endseq n = s.startseq q) :
    ∃ s', s.coalesce l.getLast? n (some q) = some (s', s.pflags q ||| s.pflags n) ∧
      Shape s'.toSegLinks (l ++ q :: r) lifo (n :: free) ∧
      s'.toSegData = { s.toSegData with
        startseq := Function.update s.startseq q (s.startseq n)
        pflags := Function.update s.pflags q (s.pflags q ||| s.pflags n)
        cnt := Function.update s.cnt q (s.cnt q + s.cnt n)
        rcvNxt := if s.rcvNxt ≥ s.startseq n then s.endseq q else s.rcvNxt } := by
  obtain ⟨hs, hd⟩ := unlink_spec h (by simp)
  obtain ⟨hnf, hnl, hnc, hnlt⟩ := unlinked h
  rw [List.erase_cons_head] at hs hnl
  have hfresh : ((s.sremove n).fremove n).fresh = s.fresh := by simp
  have hjoin : (l.getLast?.any fun p => decide (s.endseq p = s.startseq n)) = false := by
    cases hl : l.getLast? with
    | none => rfl
    | some p => simpa using h₁ p hl
  unfold coalesce
  simp only [Option.any_some, h₂, decide_true, hjoin, Option.map_some]
  generalize (s.sremove n).fremove n = t at *
  obtain ⟨tl, td⟩ := t
  obtain rfl : td = s.toSegData := hd
  obtain ⟨hs', -⟩ := deleteseginfo_spec (s := ⟨tl, s.toSegData⟩) hs hnf hnl hnc (hfresh ▸ hnlt)
  refine ⟨⟨(deleteseginfo ⟨tl, s.toSegData⟩ n).toSegLinks, _⟩, ?_, ?_, rfl⟩
  · cases l.getLast? <;> simp [deleteseginfo]
  · exact hs'

/-- The new block on both lists, before it is merged. -/
lemma insertBlock_new (h : Queue s (l ++ r) lifo free) (sseq eseq : ℤ) (tiflags rqflags : ℕ)
    (initcnt : ℤ) (needmerge : Bool) :
    ∃ (m : ℕ) (s₁ : ReassemblyQueue) (free' : List ℕ), m ∉ l ++ r ∧ Shape s₁.toSegLinks (l ++ m :: r) (m :: lifo) free' ∧
      s₁.toSegData = { s.toSegData with
        startseq := Function.update s.startseq m sseq
        endseq := Function.update s.endseq m eseq
        pflags := Function.update s.pflags m tiflags
        rqflags := Function.update s.rqflags m rqflags
        cnt := Function.update s.cnt m initcnt
        total := s.total + (eseq - sseq) } ∧
      s.insertBlock l.getLast? r.head? sseq eseq tiflags rqflags initcnt needmerge =
        if needmerge then s₁.coalesce l.getLast? m r.head?
        else some ({ s₁ with rcvNxt := if s₁.rcvNxt ≥ sseq then eseq else s₁.rcvNxt }, tiflags) := by
  obtain ⟨m, t, free', ht, hmf, hml, hmc, hmlt, hs, hd⟩ := newseginfo_spec h.toShape
  obtain ⟨tl, td⟩ := t
  obtain rfl : td = s.toSegData := hd
  have hof : ∀ (f : ℕ → Option ℕ) (v : Option ℕ) (ys : List ℕ), m ∉ ys →
      ∀ y ∈ ys, Function.update f m v y = f y := by
    intro f v ys hys y hy
    refine Function.update_of_ne ?_ _ _
    rintro rfl
    exact hys hy
  have hs' : Shape { tl with prev := Function.update tl.prev m l.getLast?
                             next := Function.update tl.next m r.head? } (l ++ r) lifo free' :=
    ⟨hs.onFifo.congr (hof _ _ _ hmf) (hof _ _ _ hmf), hs.onLifo, hs.cached.congr (hof _ _ _ hmc),
      hs.cached_nodup, hs.cached_unused, hs.lt_fresh⟩
  let d : SegData := { s.toSegData with
    startseq := Function.update s.startseq m sseq
    endseq := Function.update s.endseq m eseq
    pflags := Function.update s.pflags m tiflags
    rqflags := Function.update s.rqflags m rqflags
    cnt := Function.update s.cnt m initcnt }
  obtain ⟨hp, hpd⟩ := push_spec (s := ⟨_, d⟩) hs' hml hmc hmlt
  obtain ⟨hl, hld⟩ := linkFifo_spec hp hmf hmc (by simpa using hmlt) (by simp) (by simp)
  unfold insertBlock
  rw [ht]
  refine ⟨m, { linkFifo (push ⟨_, d⟩ m) l.getLast? m r.head? with
    total := (linkFifo (push ⟨_, d⟩ m) l.getLast? m r.head?).total + (eseq - sseq) }, free', hmf,
    hl, ?_, rfl⟩
  simp only [hld.trans hpd, d]

variable {sseq eseq : ℤ} (tiflags rqflags : ℕ) (initcnt : ℤ)

/-- The block `m` stands between the blocks of `l` and `r`, in place of what was there. -/
lemma queue_of_shape {s' : ReassemblyQueue} {x : ℕ} {free' lifo' : List ℕ} {m : Blk}
    (hs : Shape s'.toSegLinks (l ++ x :: r) lifo' free') (hsame : lifo'.Perm (l ++ x :: r))
    (hold : ∀ a ∈ l ++ r, s'.blk a = s.blk a) (hx : s'.blk x = m)
    (hg : Range.Gapped (Blk.ranges ((l ++ r).map s.blk))) (hm : m.start ≤ m.stop)
    (hl : ∀ a ∈ l, s.endseq a < m.start) (hr : ∀ b ∈ r, m.stop < s.startseq b)
    (ht : s'.total = Range.size (Blk.ranges ((l ++ r).map s.blk)) + (m.stop - m.start)) :
    Queue s' (l ++ x :: r) lifo' free' ∧
      (l ++ x :: r).map s'.blk = l.map s.blk ++ m :: r.map s.blk := by
  have hblocks : (l ++ x :: r).map s'.blk = l.map s.blk ++ m :: r.map s.blk := by
    rw [List.map_append, List.map_cons, hx, List.map_congr_left fun a ha => hold a (by simp [ha]),
      List.map_congr_left fun a ha => hold a (by simp [ha])]
  rw [List.map_append, Blk.ranges_append] at hg ht
  refine ⟨⟨hs, hsame, ?_, ?_⟩, hblocks⟩
  · rw [hblocks, Blk.ranges_append, Blk.ranges_cons]
    exact hg.insert hm (by simpa [Blk.ranges, SegData.blk] using hl)
      (by simpa [Blk.ranges, SegData.blk] using hr)
  · rw [hblocks, ht, Blk.ranges_append, Blk.ranges_cons, Range.size_append, Range.size_append,
      Range.size_cons]
    omega

/-- Those blocks from the top of the LIFO on, where `x` has become `m`. -/
def restack (s : ReassemblyQueue) (x : ℕ) (m : Range ℤ) (lifo : List ℕ) : List (Range ℤ) :=
  lifo.map fun a => if a = x then m else (s.blk a).toRange

lemma stack_of_shape {s' : ReassemblyQueue} {x : ℕ} {free' lifo' : List ℕ} {m : Blk}
    (hs : Shape s'.toSegLinks (l ++ x :: r) lifo' free') (hsame : lifo'.Perm (l ++ x :: r))
    (hold : ∀ a ∈ l ++ r, s'.blk a = s.blk a) (hx : s'.blk x = m) :
    s'.stack = s.restack x m.toRange lifo' := by
  rw [stack_eq hs]
  refine List.map_congr_left fun a ha => ?_
  by_cases hax : a = x
  · rw [if_pos hax, hax, hx]
  · have hmem := hsame.mem_iff.mp ha
    rw [if_neg hax, hold a (by simp at hmem ⊢; tauto)]

/-- A new block that joins nothing. -/
lemma insertBlock_alone (h : Queue s (l ++ r) lifo free) (hle : sseq ≤ eseq)
    (hl : ∀ a ∈ l, s.endseq a < sseq) (hr : ∀ b ∈ r, eseq < s.startseq b) :
    ∃ res, s.insertBlock l.getLast? r.head? sseq eseq tiflags rqflags initcnt false = some res ∧
      Made s (l.map s.blk ++ ⟨⟨sseq, eseq⟩, tiflags⟩ :: r.map s.blk) ⟨⟨sseq, eseq⟩, tiflags⟩ res ∧
      res.1.stack = ⟨sseq, eseq⟩ :: s.stack := by
  obtain ⟨m, ⟨tl, td⟩, free', hm, hs, hd, heq⟩ :=
    insertBlock_new h sseq eseq tiflags rqflags initcnt false
  rw [heq, if_neg Bool.false_ne_true]
  subst hd
  have hne : ∀ a ∈ l ++ r, a ≠ m := fun a ha hm' => hm (hm' ▸ ha)
  have hsame := (h.same.cons m).trans List.perm_middle.symm
  refine ⟨_, rfl, ⟨⟨_, _, _, queue_of_shape hs hsame (fun a ha => ?_) ?_ h.gapped hle hl hr ?_⟩,
    Nat.or_self _, rfl⟩, ?_⟩
  · simp [SegData.blk, hne a ha]
  · simp [SegData.blk]
  · rw [← h.total_eq]
  · refine (stack_eq hs).trans ?_
    rw [stack_eq h.toShape, List.map_cons]
    refine congrArg₂ _ (by simp [SegData.blk]) (List.map_congr_left fun a ha => ?_)
    simp [SegData.blk, hne a (h.same.mem_iff.mp ha)]

/-- Leaving a block out of a sorted list. -/
lemma gapped_without (h : Queue s (l ++ p :: r) lifo free) :
    Range.Gapped (Blk.ranges ((l ++ r).map s.blk)) :=
  h.gapped.sublist ((((List.sublist_cons_self p r).append_left l).map _).map _)

lemma total_without (h : Queue s (l ++ p :: r) lifo free) :
    s.total = Range.size (Blk.ranges ((l ++ r).map s.blk)) + (s.endseq p - s.startseq p) := by
  rw [h.total_eq]
  simp [SegData.blk]
  omega

/-- A new block that joins the block before it. -/
lemma insertBlock_left (h : Queue s (l ++ p :: r) lifo free) (hp : s.endseq p = sseq)
    (hle : sseq ≤ eseq) (hr : ∀ b ∈ r, eseq < s.startseq b) :
    ∃ res, s.insertBlock (some p) r.head? sseq eseq tiflags rqflags initcnt true = some res ∧
      Made s (l.map s.blk ++ ⟨⟨s.startseq p, eseq⟩, s.pflags p ||| tiflags⟩ :: r.map s.blk)
        ⟨⟨s.startseq p, eseq⟩, s.pflags p ||| tiflags⟩ res ∧
      res.1.stack = s.restack p ⟨s.startseq p, eseq⟩ lifo := by
  obtain ⟨m, s₁, free', hm, hs, hd, heq⟩ :=
    insertBlock_new (l := l ++ [p]) (r := r) (by simpa using h) sseq eseq tiflags rqflags initcnt true
  rw [List.getLast?_concat] at heq
  rw [List.append_assoc] at hs
  have hpm : p ≠ m := fun he => hm (by simp [he])
  have hne : ∀ a ∈ r, a ≠ m := fun a ha he => hm (by simp [← he, ha])
  obtain ⟨s₂, hc, hs₂, hd₂⟩ := coalesce_left hs (by simp [hd, hpm, hp]) fun q hq => by
    have hqr := List.mem_of_head? hq
    simpa [hd, hne q hqr] using (hr q hqr).ne
  obtain ⟨hpp, -, hpr⟩ := gapped_cons.mp (gapped_append.mp h.gapped).2.1
  have hlp := (gapped_append.mp h.gapped).2.2
  have hnodup := (List.nodup_cons.mp (List.nodup_middle.mp h.onFifo.nodup)).1
  rw [heq, if_pos rfl, hc]
  rw [hd] at hd₂
  have hold : ∀ a ∈ l ++ r, s₂.blk a = s.blk a := by
    intro a ha
    have ham : a ≠ m := fun he => hm (by simp [← he]; simp at ha; tauto)
    have hap : a ≠ p := fun he => hnodup (he ▸ ha)
    simp [SegData.blk, hd₂, ham, hap]
  have hself : s₂.blk p = ⟨⟨s.startseq p, eseq⟩, s.pflags p ||| tiflags⟩ := by
    simp [SegData.blk, hd₂, hpm]
  refine ⟨_, rfl, ⟨⟨_, _, _, queue_of_shape hs₂ h.same hold hself (gapped_without h) ?_ ?_
    hr ?_⟩, ?_, ?_⟩, stack_of_shape hs₂ h.same hold hself⟩
  · exact (hpp.trans hp.le).trans hle
  · exact fun a ha => hlp a ha p (by simp)
  · simp only [hd₂, total_without h]
    omega
  · simp [hd, hpm]
  · simp [hd₂, hpm, Blk.advance]

/-- A new block that joins the block after it. -/
lemma insertBlock_right (h : Queue s (l ++ q :: r) lifo free) (hq : s.startseq q = eseq)
    (hle : sseq ≤ eseq) (hl : ∀ a ∈ l, s.endseq a < sseq) :
    ∃ res, s.insertBlock l.getLast? (some q) sseq eseq tiflags rqflags initcnt true = some res ∧
      Made s (l.map s.blk ++ ⟨⟨sseq, s.endseq q⟩, s.pflags q ||| tiflags⟩ :: r.map s.blk)
        ⟨⟨sseq, s.endseq q⟩, s.pflags q ||| tiflags⟩ res ∧
      res.1.stack = s.restack q ⟨sseq, s.endseq q⟩ lifo := by
  obtain ⟨m, s₁, free', hm, hs, hd, heq⟩ :=
    insertBlock_new (l := l) (r := q :: r) h sseq eseq tiflags rqflags initcnt true
  have hqm : q ≠ m := fun he => hm (by simp [he])
  have hne : ∀ a ∈ l, a ≠ m := fun a ha he => hm (by simp [← he, ha])
  obtain ⟨s₂, hc, hs₂, hd₂⟩ := coalesce_right hs (fun p hp => by
    have hpl := List.mem_of_getLast? hp
    simpa [hd, hne p hpl] using (hl p hpl).ne) (by simp [hd, hqm, hq])
  obtain ⟨hqq, -, hqr⟩ := gapped_cons.mp (gapped_append.mp h.gapped).2.1
  have hnodup := (List.nodup_cons.mp (List.nodup_middle.mp h.onFifo.nodup)).1
  rw [List.head?_cons, if_pos rfl, hc] at heq
  rw [heq]
  rw [hd] at hd₂
  have hold : ∀ a ∈ l ++ r, s₂.blk a = s.blk a := by
    intro a ha
    have ham : a ≠ m := fun he => hm (by simp [← he]; simp at ha; tauto)
    have haq : a ≠ q := fun he => hnodup (he ▸ ha)
    simp [SegData.blk, hd₂, ham, haq]
  have hself : s₂.blk q = ⟨⟨sseq, s.endseq q⟩, s.pflags q ||| tiflags⟩ := by
    simp [SegData.blk, hd₂, hqm]
  refine ⟨_, rfl, ⟨⟨_, _, _, queue_of_shape hs₂ h.same hold hself (gapped_without h) ?_ hl
    hqr ?_⟩, ?_, ?_⟩, stack_of_shape hs₂ h.same hold hself⟩
  · exact (hle.trans hq.ge).trans hqq
  · simp only [hd₂, total_without h]
    omega
  · simp [hd, hqm]
  · simp [hd₂, hqm, Blk.advance]

/-- A new block that fills the hole between two blocks. The flags of the second one are lost. -/
lemma insertBlock_both (h : Queue s (l ++ p :: q :: r) lifo free) (hp : s.endseq p = sseq)
    (hq : s.startseq q = eseq) :
    ∃ res, s.insertBlock (some p) (some q) sseq eseq tiflags rqflags initcnt true = some res ∧
      Made s (l.map s.blk ++ ⟨⟨s.startseq p, s.endseq q⟩, s.pflags p ||| tiflags⟩ :: r.map s.blk)
        ⟨⟨s.startseq p, s.endseq q⟩, s.pflags p ||| tiflags⟩ res ∧
      res.1.stack = s.restack p ⟨s.startseq p, s.endseq q⟩ (lifo.erase q) := by
  obtain ⟨m, s₁, free', hm, hs, hd, heq⟩ := insertBlock_new (l := l ++ [p]) (r := q :: r)
    (by simpa using h) sseq eseq tiflags rqflags initcnt true
  rw [List.getLast?_concat] at heq
  rw [List.append_assoc] at hs
  have hpm : p ≠ m := fun he => hm (by simp [he])
  have hqm : q ≠ m := fun he => hm (by simp [he])
  have hql : q ∈ lifo := h.same.mem_iff.mpr (by simp)
  have hnodup := (List.nodup_cons.mp (List.nodup_middle.mp h.onFifo.nodup)).1
  obtain ⟨s₂, hc, hs₂, hd₂⟩ := coalesce_both hs hql (by simp [hd, hpm, hp]) (by simp [hd, hqm, hq])
  obtain ⟨hpp, hgq, hpr⟩ := gapped_cons.mp (gapped_append.mp h.gapped).2.1
  obtain ⟨hqq, -, hqr⟩ := gapped_cons.mp hgq
  have hlp := (gapped_append.mp h.gapped).2.2
  have hsplit : Queue s ((l ++ [p]) ++ q :: r) lifo free := by simpa using h
  have hgap : Range.Gapped (Blk.ranges ((l ++ r).map s.blk)) :=
    (gapped_without h).sublist ((((List.sublist_cons_self q r).append_left l).map _).map _)
  have hnodup' := (List.nodup_cons.mp (List.nodup_middle.mp hsplit.onFifo.nodup)).1
  rw [List.head?_cons, if_pos rfl, hc] at heq
  rw [heq]
  rw [hd] at hd₂
  have hsame : (lifo.erase q).Perm (l ++ p :: r) := by
    have hperm : lifo.Perm (q :: (l ++ p :: r)) := by
      refine hsplit.same.trans (List.perm_middle.trans ?_)
      simp
    simpa using hperm.erase q
  have hold : ∀ a ∈ l ++ r, s₂.blk a = s.blk a := by
    intro a ha
    have ham : a ≠ m := fun he => hm (by simp [← he]; simp at ha; tauto)
    have hap : a ≠ p := fun he => hnodup (by simp [← he]; simp at ha; tauto)
    simp [SegData.blk, hd₂, ham, hap]
  have hself : s₂.blk p = ⟨⟨s.startseq p, s.endseq q⟩, s.pflags p ||| tiflags⟩ := by
    simp [SegData.blk, hd₂, hpm, hqm]
  refine ⟨_, rfl, ⟨⟨_, _, _, queue_of_shape hs₂ hsame hold hself hgap ?_ ?_ hqr ?_⟩, ?_, ?_⟩,
    stack_of_shape hs₂ hsame hold hself⟩
  · have hlt := hpr q (by simp)
    have hle := hpp.trans_lt (hlt.trans_le hqq)
    exact hle.le
  · exact fun a ha => hlp a ha p (by simp)
  · have h₁ := total_without h
    simp [SegData.blk] at h₁
    simp [hd₂, h₁]
    omega
  · simp [hd, hpm]
  · simp [hd₂, hpm, hqm, Blk.advance]

variable {x : ℕ}

/-- The queue without the block `x`. -/
lemma queue_without (h : Queue s (l ++ x :: r) lifo free) {t : ReassemblyQueue} {free' : List ℕ}
    (hs : Shape t.toSegLinks (l ++ r) (lifo.erase x) free')
    (hd : t.toSegData = { s.toSegData with total := s.total - (s.endseq x - s.startseq x) }) :
    Queue t (l ++ r) (lifo.erase x) free' := by
  have hblk : t.blk = s.blk := by rw [hd]; rfl
  refine ⟨hs, ?_, by rw [hblk]; exact gapped_without h, ?_⟩
  · have hperm : lifo.Perm (x :: (l ++ r)) := h.same.trans List.perm_middle
    simpa using hperm.erase x
  · rw [hblk, hd]
    have := total_without h
    simp only
    omega

/-- The data of the block `x` has been written, and nothing else but the count of bytes. -/
structure Wrote (s t : ReassemblyQueue) (x : ℕ) (b : Blk) : Prop where
  links : t.toSegLinks = s.toSegLinks
  self : t.blk x = b
  other : ∀ a, a ≠ x → t.blk a = s.blk a
  rcvNxt : t.rcvNxt = s.rcvNxt

lemma Wrote.map {t : ReassemblyQueue} {b : Blk} (h : Wrote s t x b) (hx : x ∉ l) :
    l.map t.blk = l.map s.blk :=
  List.map_congr_left fun a ha => h.other a fun he => hx (he ▸ ha)

lemma Wrote.queue {t : ReassemblyQueue} {b : Blk} (hw : Wrote s t x b)
    (h : Queue s (l ++ x :: r) lifo free) (hb : b.start ≤ b.stop) (hl : ∀ a ∈ l, s.endseq a < b.start)
    (hr : ∀ a ∈ r, b.stop < s.startseq a)
    (ht : t.total = s.total + (b.stop - b.start) - (s.endseq x - s.startseq x)) :
    Queue t (l ++ x :: r) lifo free ∧
      (l ++ x :: r).map t.blk = l.map s.blk ++ b :: r.map s.blk := by
  have hnodup := (List.nodup_cons.mp (List.nodup_middle.mp h.onFifo.nodup)).1
  refine queue_of_shape (hw.links ▸ h.toShape) h.same
    (fun a ha => hw.other a fun he => hnodup (he ▸ ha)) hw.self (gapped_without h) hb hl hr ?_
  have := total_without h
  omega

/-- The loop of `clearto` takes the blocks off the front that end by `seq`. -/
lemma clearBlocks_spec (seq : ℤ) {fuel : ℕ} (flag : ℕ) (h : Queue s fifo lifo free)
    (hfuel : fifo.length < fuel) :
    ∃ s' l r lifo' free', fifo = l ++ r ∧ (∀ a ∈ l, s.endseq a ≤ seq) ∧
      (∀ a, r.head? = some a → seq < s.endseq a) ∧ Queue s' r lifo' free' ∧ s'.blk = s.blk ∧
      s'.rcvNxt = s.rcvNxt ∧
      clearBlocks seq fuel s fifo.head? flag =
        some (s', r.head?, flag ||| Blk.orFlags (l.map s.blk)) := by
  induction fifo generalizing s lifo free fuel flag with
  | nil =>
    obtain ⟨fuel, rfl⟩ : ∃ k, fuel = k + 1 := ⟨fuel - 1, by simp at hfuel; omega⟩
    exact ⟨s, [], [], lifo, free, rfl, by simp, by simp, h, rfl, rfl, by simp [clearBlocks]⟩
  | cons x fifo ih =>
    obtain ⟨fuel, rfl⟩ : ∃ k, fuel = k + 1 := ⟨fuel - 1, by simp at hfuel; omega⟩
    rw [List.head?_cons, clearBlocks]
    by_cases hx : s.endseq x ≤ seq
    · have hnext : s.next x = fifo.head? := DList.next_eq (l := []) h.onFifo
      obtain ⟨hs, hd⟩ := remove_spec (l := [])
        (s := { s with total := s.total - (s.endseq x - s.startseq x) }) h.toShape
        (h.same.mem_iff.mpr (by simp))
      rw [if_pos hx, hnext]
      simp only
      generalize deleteseginfo (fremove (sremove { s with
        total := s.total - (s.endseq x - s.startseq x) } x) x) x = t at *
      have hq := queue_without (l := []) h hs hd
      have hblk : t.blk = s.blk := by rw [hd]; rfl
      obtain ⟨s', l, r, lifo', free', rfl, hl, hr, hs', hblk', hrcv, hres⟩ :=
        ih (flag ||| s.pflags x) hq (by simpa using hfuel)
      rw [hd] at hl hr hrcv
      refine ⟨s', x :: l, r, lifo', free', rfl, by simpa [hx] using hl, hr, hs', hblk'.trans hblk,
        hrcv, ?_⟩
      rw [hres, hblk, List.map_cons, Blk.orFlags_cons, Nat.or_assoc]
      rfl
    · rw [if_neg hx]
      exact ⟨s, [], x :: fifo, lifo, free, rfl, by simp, by simpa using hx, h, rfl, rfl, by simp⟩

/-- `clearto` takes everything below `seq` and collects the flags of the blocks it touches. -/
theorem clearto_spec {bs : List Blk} (h : Holds s bs) (seq : ℤ) :
    ∃ res, s.clearto seq = some res ∧ Holds res.1 (Blk.trimTo bs seq) ∧
      res.2 = Blk.orFlags (bs.filter fun b => b.start ≤ seq) ∧ res.1.rcvNxt = s.rcvNxt := by
  obtain ⟨fifo, lifo, free, hq, rfl⟩ := h
  obtain ⟨s', l, r, lifo', free', rfl, hl, hr, hq', hblk, hrcv, hres⟩ :=
    clearBlocks_spec seq 0 hq (Nat.lt_succ_of_le (length_le_fresh hq.toShape))
  rw [Nat.zero_or] at hres
  have hord : ∀ a ∈ l ++ r, s.startseq a ≤ s.endseq a := fun a ha =>
    hq.gapped.ordered (s.blk a).toRange (List.mem_map_of_mem (List.mem_map_of_mem ha))
  have hstart : ∀ a, s'.startseq a = s.startseq a := fun a =>
    congrArg (fun b : Blk => b.start) (congrFun hblk a)
  have hstop : ∀ a, s'.endseq a = s.endseq a := fun a =>
    congrArg (fun b : Blk => b.stop) (congrFun hblk a)
  have hflag : ∀ a, s'.pflags a = (s.blk a).flags := fun a => congrArg Blk.flags (congrFun hblk a)
  have hls : ∀ b ∈ l.map s.blk, b.start ≤ seq := by
    simpa [SegData.blk] using fun a ha => (hord a (by simp [ha])).trans (hl a ha)
  unfold clearto
  rw [hq.onFifo.head_eq, hres]
  cases r with
  | nil =>
    refine ⟨_, rfl, ⟨[], lifo', free', hq', ?_⟩, ?_, hrcv⟩
    · rw [List.append_nil, Blk.trimTo, List.filter_eq_nil_iff.mpr]
      · rfl
      · simpa [SegData.blk] using hl
    · rw [List.append_nil, ← List.append_nil (l.map s.blk),
        Blk.orFlags_start_split hls (by simp)]
      simp
  | cons x r =>
    have hx := hr x rfl
    obtain ⟨hxx, -, hxr⟩ := gapped_cons.mp (gapped_append.mp hq.gapped).2.1
    have hlater : ∀ b ∈ r.map s.blk, seq < b.start := by
      simpa [SegData.blk] using fun a ha => hx.trans (hxr a ha)
    have htrim := Blk.trimTo_split (l := l.map s.blk) (b := s.blk x) (u := r.map s.blk)
      (by simpa [SegData.blk] using hl) hx hlater
      (by simpa [SegData.blk] using fun a ha => hord a (by simp [ha]))
    rw [List.map_append, List.map_cons, htrim]
    by_cases hcut : s'.startseq x ≤ seq ∧ s'.endseq x > seq
    · simp only [Option.map_some, List.head?_cons, if_pos hcut]
      have hle : (s.blk x).start ≤ seq := (hstart x).ge.trans hcut.1
      refine ⟨_, rfl, ⟨x :: r, lifo', free', ?_⟩, ?_, hrcv⟩
      · rw [max_eq_right hle]
        have hw : Wrote s' { s' with
            total := s'.total - (seq - s'.startseq x)
            startseq := Function.update s'.startseq x seq } x
            ⟨⟨seq, s'.endseq x⟩, s'.pflags x⟩ :=
          ⟨rfl, by simp [SegData.blk], fun a ha => by simp [SegData.blk, ha], rfl⟩
        have hmod := hw.queue (l := []) hq' hcut.2.le (by simp)
          (fun a ha => by rw [hstart, hstop]; exact hxr a ha) (by simp only; omega)
        rw [hblk, hstop, hflag] at hmod
        exact hmod
      · rw [List.append_cons, Blk.orFlags_start_split _ hlater, Blk.orFlags_append, hflag]
        · simp
        · simpa [or_imp, forall_and] using ⟨by simpa using hls, hle⟩
    · simp only [Option.map_some, List.head?_cons, if_neg hcut]
      have hlt : seq < (s.blk x).start := by
        rw [hstart, hstop] at hcut
        exact lt_of_not_ge fun hle => hcut ⟨hle, hx⟩
      refine ⟨_, rfl, ⟨x :: r, lifo', free', hq', ?_⟩, ?_, hrcv⟩
      · rw [hblk, List.map_cons, max_eq_left hlt.le]
      · have hnone : ∀ b ∈ s.blk x :: r.map s.blk, seq < b.start := by
          intro b hb
          rcases List.mem_cons.mp hb with rfl | hb
          · exact hlt
          · exact hlater b hb
        rw [Blk.orFlags_start_split hls hnone]

lemma Holds.gapped {bs : List Blk} (h : Holds s bs) : Range.Gapped (Blk.ranges bs) := by
  obtain ⟨fifo, lifo, free, hq, rfl⟩ := h
  exact hq.gapped

lemma Holds.start_le_stop {bs : List Blk} (h : Holds s bs) {b : Blk} (hb : b ∈ bs) :
    b.start ≤ b.stop :=
  h.gapped.ordered _ (List.mem_map_of_mem hb)

lemma Holds.blocks_eq {bs : List Blk} (h : Holds s bs) : s.blocks = bs := by
  obtain ⟨fifo, lifo, free, hq, rfl⟩ := h
  rw [blocks, hq.onFifo.head_eq, follow_eq hq.onFifo.seg (length_le_fresh hq.toShape)]

end ReassemblyQueue

end NetworkSimulator
