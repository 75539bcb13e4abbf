import NetworkSimulator.Tcp.ReassemblyStack

/-!
# `ReassemblyQueue::add`

`add` makes the list of blocks `Blk.addSeg`. The blocks are cut into those that end before the
segment starts, those that overlap it and those that start after it ends. One round of deletions
leaves at most one overlapping block on each side.
-/

namespace NetworkSimulator
open Library

namespace ReassemblyQueue
variable {s : ReassemblyQueue} {p q x : ℕ} {l m r fifo lifo free : List ℕ} {bs : List Blk} {n : Blk}
  {sseq eseq : ℤ} (tiflags rqflags : ℕ) (initcnt : ℤ)

/-- What `add` of the segment `n` answers on a queue with the blocks `bs`. When the start of the
segment was there already, `rcv_nxt_` is set from the head of the queue or not at all. -/
structure Added (s : ReassemblyQueue) (bs : List Blk) (n : Blk) (res : ReassemblyQueue × ℕ) :
    Prop where
  holds : Holds res.1 (Blk.addSeg bs n)
  flags : res.2 ||| (Blk.mergedIn bs n).flags = (Blk.mergedIn bs n).flags
  rcvNxt : res.1.rcvNxt = (Blk.mergedIn bs n).advance s.rcvNxt ∨
    (∃ c ∈ bs, c.start ≤ n.start ∧ n.start < c.stop) ∧ (res.1.rcvNxt = s.rcvNxt ∨
      ∃ h, (Blk.addSeg bs n).head? = some h ∧ res.1.rcvNxt = h.advance s.rcvNxt)

/-- What `add` answers, and what it does to the LIFO when no block is empty. -/
structure Stacked (s : ReassemblyQueue) (bs : List Blk) (n : Blk) (res : ReassemblyQueue × ℕ) : Prop extends
    Added s bs n res where
  restacked : (∀ b ∈ bs, b.start < b.stop) →
    Restacked n.toRange (Blk.mergedIn bs n).toRange s.stack res.1.stack

/-- The three parts of the FIFO around a segment. -/
lemma exists_parts (sseq eseq : ℤ) (h : Range.Gapped (Blk.ranges (fifo.map s.blk))) :
    ∃ l m r, fifo = l ++ m ++ r ∧ (∀ a ∈ l, s.endseq a ≤ sseq) ∧
      (∀ a ∈ m, sseq < s.endseq a ∧ s.startseq a < eseq) ∧ ∀ a ∈ r, eseq ≤ s.startseq a := by
  induction fifo with
  | nil => exact ⟨[], [], [], rfl, by simp, by simp, by simp⟩
  | cons x fifo ih =>
    obtain ⟨hx, hg, hlx⟩ := gapped_cons.mp h
    obtain ⟨l, m, r, rfl, hl, hm, hr⟩ := ih hg
    by_cases h₁ : s.endseq x ≤ sseq
    · exact ⟨x :: l, m, r, rfl, by simpa [h₁] using hl, hm, hr⟩
    · have hord : ∀ a ∈ l ++ m ++ r, s.startseq a ≤ s.endseq a := by
        intro a ha
        have := hg.ordered (s.blk a).toRange (by simp [Blk.ranges] at ha ⊢; grind)
        exact this
      obtain rfl : l = [] := by
        rcases l with _ | ⟨y, l⟩
        · rfl
        · have h₂ := hlx y (by simp)
          have h₃ := hl y (by simp)
          have h₄ := hord y (by simp)
          omega
      by_cases h₂ : s.startseq x < eseq
      · refine ⟨[], x :: m, r, rfl, by simp, ?_, hr⟩
        intro a ha
        rcases List.mem_cons.mp ha with rfl | ha
        · omega
        · exact hm a ha
      · obtain rfl : m = [] := by
          rcases m with _ | ⟨y, m⟩
          · rfl
          · have h₃ := hlx y (by simp)
            have h₄ := hm y (by simp)
            omega
        refine ⟨[], [], x :: r, rfl, by simp, by simp, ?_⟩
        intro a ha
        rcases List.mem_cons.mp ha with rfl | ha
        · omega
        · exact hr a ha

lemma Made.added {t : ReassemblyQueue} {bs' : List Blk} {b : Blk} {res : ReassemblyQueue × ℕ}
    (h : Made t bs' b res) (hrcv : t.rcvNxt = s.rcvNxt)
    (hadd : Blk.addSeg bs n = bs' ∧ Blk.mergedIn bs n = b) : Added s bs n res := by
  obtain ⟨rfl, rfl⟩ := hadd
  exact ⟨h.holds, h.flags, Or.inl (hrcv ▸ h.rcvNxt)⟩

lemma Made.stacked {t : ReassemblyQueue} {bs' : List Blk} {b : Blk} {res : ReassemblyQueue × ℕ}
    (h : Made t bs' b res) (hrcv : t.rcvNxt = s.rcvNxt)
    (hadd : Blk.addSeg bs n = bs' ∧ Blk.mergedIn bs n = b)
    (hst : (∀ b ∈ bs, b.start < b.stop) → Restacked n.toRange b.toRange s.stack res.1.stack) :
    Stacked s bs n res :=
  ⟨h.added hrcv hadd, hadd.2 ▸ hst⟩

lemma start_le_stop (h : Queue s fifo lifo free) (hx : x ∈ fifo) : s.startseq x ≤ s.endseq x :=
  h.gapped.ordered (s.blk x).toRange (List.mem_map_of_mem (List.mem_map_of_mem hx))

/-- `addSeg` on a FIFO that is cut into what is below the segment, around it and above it. -/
lemma addSeg_names (h : Queue s fifo lifo free) (hf : l ++ m ++ r = fifo) (hle : sseq ≤ eseq)
    (hl : ∀ a ∈ l, s.endseq a < sseq) (hm : ∀ a ∈ m, sseq ≤ s.endseq a ∧ s.startseq a ≤ eseq)
    (hr : ∀ a ∈ r, eseq < s.startseq a) :
    Blk.addSeg (fifo.map s.blk) ⟨⟨sseq, eseq⟩, tiflags⟩ =
        l.map s.blk ++ Blk.merged (m.map s.blk) ⟨⟨sseq, eseq⟩, tiflags⟩ :: r.map s.blk ∧
      Blk.mergedIn (fifo.map s.blk) ⟨⟨sseq, eseq⟩, tiflags⟩ =
        Blk.merged (m.map s.blk) ⟨⟨sseq, eseq⟩, tiflags⟩ := by
  subst hf
  have hg := h.gapped
  rw [List.map_append, List.map_append] at hg ⊢
  exact Blk.addSeg_split (by simpa [SegData.blk] using hl)
    (by simpa [SegData.blk, Range.Touches] using hm) (by simpa [SegData.blk] using hr) hle hg

lemma merged_pair (hp : s.startseq p < sseq) (hp' : s.endseq p ≤ eseq) (hpe : s.startseq p < eseq)
    (hpq : s.endseq p < s.startseq q) (hq : eseq < s.endseq q ∨ eseq ≤ s.startseq q)
    (hqq : s.startseq q ≤ s.endseq q) (hpp : s.startseq p ≤ s.endseq p) :
    Blk.merged ([p, q].map s.blk) ⟨⟨sseq, eseq⟩, tiflags⟩ =
      ⟨⟨s.startseq p, s.endseq q⟩, s.pflags p ||| tiflags⟩ := by
  have htwo := Blk.merged_two (a := s.blk p) (b := s.blk q) (n := ⟨⟨sseq, eseq⟩, tiflags⟩) hp hpq
    (by simp only [SegData.blk, Blk.Behind]; omega) hq (by simp only [SegData.blk]; omega)
    (by simp only [SegData.blk]; omega) (by simp only [SegData.blk]; omega)
  exact htwo

lemma merged_single (hpp : s.startseq p ≤ s.endseq p) :
    Blk.merged ([p].map s.blk) ⟨⟨sseq, eseq⟩, tiflags⟩ =
      ⟨⟨min (s.startseq p) sseq, max (s.endseq p) eseq⟩, s.pflags p ||| tiflags⟩ :=
  Blk.merged_one (r := s.blk p) hpp

/-- `insertBlock` where no block overlaps the segment. -/
lemma insert_between (h : Queue s (l ++ r) lifo free) (hle : sseq ≤ eseq)
    (hl : ∀ a ∈ l, s.endseq a ≤ sseq) (hr : ∀ b ∈ r, eseq ≤ s.startseq b)
    (hz : ∀ a ∈ l, s.startseq a = s.endseq a → eseq ≤ s.startseq a) (needmerge : Bool)
    (hmerge : needmerge = true ↔ (∃ p, l.getLast? = some p ∧ s.endseq p = sseq) ∨
      ∃ q, r.head? = some q ∧ s.startseq q = eseq) :
    ∃ res, s.insertBlock l.getLast? r.head? sseq eseq tiflags rqflags initcnt needmerge = some res ∧
      Stacked s ((l ++ r).map s.blk) ⟨⟨sseq, eseq⟩, tiflags⟩ res := by
  have hord : ∀ a ∈ l ++ r, s.startseq a ≤ s.endseq a := fun a ha => start_le_stop h ha
  have hbelow : (¬∃ p, l.getLast? = some p ∧ s.endseq p = sseq) → ∀ a ∈ l, s.endseq a < sseq := by
    intro hno a ha
    rcases List.eq_nil_or_concat' l with rfl | ⟨l, p, rfl⟩
    · simp at ha
    · have hp : s.endseq p ≠ sseq := fun he => hno ⟨p, by simp, he⟩
      have hpl := hl p (by simp)
      rcases List.mem_append.mp ha with ha | ha
      · have := (gapped_append.mp (gapped_append.mp h.gapped).1).2.2 a ha p (by simp)
        have := hord p (by simp)
        omega
      · rw [List.mem_singleton.mp ha]
        omega
  have habove : (¬∃ q, r.head? = some q ∧ s.startseq q = eseq) → ∀ b ∈ r, eseq < s.startseq b := by
    intro hno b hb
    cases r with
    | nil => simp at hb
    | cons q r =>
      have hq : s.startseq q ≠ eseq := fun he => hno ⟨q, rfl, he⟩
      have hqr := hr q (by simp)
      rcases List.mem_cons.mp hb with rfl | hb
      · omega
      · have := (gapped_cons.mp (gapped_append.mp h.gapped).2.1).2.2 b hb
        have := hord q (by simp)
        omega
  by_cases hp : ∃ p, l.getLast? = some p ∧ s.endseq p = sseq
  · obtain rfl : needmerge = true := hmerge.mpr (Or.inl hp)
    obtain ⟨p, hlast, hpe⟩ := hp
    obtain ⟨l, rfl⟩ := List.getLast?_eq_some_iff.mp hlast
    rw [List.append_assoc, List.singleton_append] at h
    have hlp : ∀ a ∈ l, s.endseq a < s.startseq p := fun a ha =>
      (gapped_append.mp h.gapped).2.2 a ha p (by simp)
    have hpp := hord p (by simp)
    have hpr := (gapped_cons.mp (gapped_append.mp h.gapped).2.1).2.2
    by_cases hq : ∃ q, r.head? = some q ∧ s.startseq q = eseq
    · -- the segment fills the hole
      obtain ⟨q, hhead, hqe⟩ := hq
      obtain ⟨r, rfl⟩ := List.head?_eq_some_iff.mp hhead
      obtain ⟨res, hres, hmade, hstack⟩ := insertBlock_both tiflags rqflags initcnt h hpe hqe
      have hqq := hord q (by simp)
      have hqr := (gapped_cons.mp (gapped_cons.mp (gapped_append.mp h.gapped).2.1).2.1).2.2
      have hpq := hpr q (by simp)
      have hzp := hz p (by simp)
      have hlow : ∀ a ∈ l, s.endseq a < sseq := fun a ha => (hlp a ha).trans_le (hpp.trans hpe.le)
      have hhigh : ∀ b ∈ r, eseq < s.startseq b := fun b hb => hqe ▸ hqq.trans_lt (hqr b hb)
      refine ⟨res, by rw [hlast, hhead]; exact hres, hmade.stacked rfl ?_ fun hne => ?_⟩
      · have hadd := addSeg_names (l := l) (m := [p, q]) (r := r) tiflags h (by simp) hle hlow
          (by simp; omega) hhigh
        rw [merged_pair (p := p) (q := q) tiflags (by omega) (by omega) (by omega) hpq (Or.inr hqe.ge) hqq
          hpp] at hadd
        simpa using hadd
      · have hppos : s.startseq p < s.endseq p := hne (s.blk p) (by simp)
        rw [hstack]
        exact restacked_two h hlow (by omega) (by omega) hhigh (by omega)
    · obtain ⟨res, hres, hmade, hstack⟩ := insertBlock_left tiflags rqflags initcnt h hpe hle (habove hq)
      have hlow : ∀ a ∈ l, s.endseq a < sseq := fun a ha => (hlp a ha).trans_le (hpp.trans hpe.le)
      refine ⟨res, by rw [hlast]; exact hres, hmade.stacked rfl ?_ fun hne => ?_⟩
      · have hadd := addSeg_names (l := l) (m := [p]) (r := r) tiflags h (by simp) hle hlow
          (by simp; omega) (habove hq)
        rw [merged_single tiflags hpp, min_eq_left (hpp.trans hpe.le), max_eq_right (hpe.le.trans hle)] at hadd
        simpa using hadd
      · have hppos : s.startseq p < s.endseq p := hne (s.blk p) (by simp)
        rw [hstack]
        refine restacked_one h hlow (by omega) (habove hq) fun hsw => ?_
        have hstart : sseq ≤ s.startseq p := hsw.1
        omega
  · by_cases hq : ∃ q, r.head? = some q ∧ s.startseq q = eseq
    · obtain rfl : needmerge = true := hmerge.mpr (Or.inr hq)
      obtain ⟨q, hhead, hqe⟩ := hq
      obtain ⟨r, rfl⟩ := List.head?_eq_some_iff.mp hhead
      obtain ⟨res, hres, hmade, hstack⟩ := insertBlock_right tiflags rqflags initcnt h hqe hle (hbelow hp)
      have hqq := hord q (by simp)
      have hqr := (gapped_cons.mp (gapped_append.mp h.gapped).2.1).2.2
      have hhigh : ∀ b ∈ r, eseq < s.startseq b := fun b hb => by have := hqr b hb; omega
      refine ⟨res, by rw [hhead]; exact hres, hmade.stacked rfl ?_ fun hne => ?_⟩
      · have hadd := addSeg_names (l := l) (m := [q]) (r := r) tiflags h (by simp) hle
          (hbelow hp) (by simp; omega) hhigh
        rw [merged_single tiflags hqq, min_eq_right (hle.trans hqe.ge), max_eq_left (hqe.ge.trans hqq)] at hadd
        simpa using hadd
      · have hqpos : s.startseq q < s.endseq q := hne (s.blk q) (by simp)
        rw [hstack]
        refine restacked_one h (hbelow hp) (by omega) hhigh fun hsw => ?_
        have hstop : s.endseq q ≤ eseq := hsw.2.1
        omega
    · obtain rfl : needmerge = false := by
        rw [← Bool.not_eq_true, hmerge]
        exact not_or.mpr ⟨hp, hq⟩
      obtain ⟨res, hres, hmade, hstack⟩ := insertBlock_alone tiflags rqflags initcnt h hle (hbelow hp)
        (habove hq)
      refine ⟨res, hres, hmade.stacked rfl ?_ fun _ => ?_⟩
      · have hadd := addSeg_names (l := l) (m := []) (r := r) tiflags h (by simp) hle
          (hbelow hp) (by simp) (habove hq)
        simpa using hadd
      · rw [hstack]
        exact restacked_none h (hbelow hp) (habove hq)

/-- A block that the segment covers may be deleted first. -/
lemma Stacked.of_swallow {t : ReassemblyQueue} {bs us : List Blk} {b : Blk}
    {res : ReassemblyQueue × ℕ}
    (h : Stacked t (bs ++ us) ⟨n.toRange, n.flags ||| b.flags⟩ res) (hrcv : t.rcvNxt = s.rcvNxt)
    (hsw : Swallows n.toRange b.toRange) (hb : b.start < b.stop)
    (hstack : t.stack = s.stack.filter fun c => c ≠ b.toRange) :
    Stacked s (bs ++ b :: us) n res := by
  obtain ⟨hadd, hin⟩ := Blk.addSeg_swallow bs us hsw.1 hsw.2.1 hb
  refine ⟨⟨hadd ▸ h.holds, hin ▸ h.flags, ?_⟩, fun hne => ?_⟩
  · rw [hadd, hin, ← hrcv]
    refine h.rcvNxt.imp_right fun ⟨⟨c, hc, hcn⟩, hr⟩ => ⟨⟨c, ?_, hcn⟩, hr⟩
    simp only [List.mem_append, List.mem_cons] at hc ⊢
    tauto
  · have hrest := h.restacked fun c hc => hne c (by simp only [List.mem_append, List.mem_cons] at hc ⊢; tauto)
    rw [hstack] at hrest
    rw [hin]
    exact hrest.of_filter ⟨hsw.1.trans hb.le, hb.le.trans hsw.2.1⟩ hsw

/-- What the loop over the covered blocks leaves behind when it does not return. -/
structure Killed (s : ReassemblyQueue) (l m r : List ℕ) (n : Blk) (altered : Bool)
    (s' : ReassemblyQueue) (m' : List ℕ) (tiflags' : ℕ) (altered' : Bool) : Prop where
  queue : ∃ lifo' free', Queue s' (l ++ m' ++ r) lifo' free'
  sub : m'.Sublist m
  blk : s'.blk = s.blk
  uncovered : ∀ a ∈ m', ¬(n.start ≤ s.startseq a ∧ s.endseq a ≤ n.stop)
  added : ∀ res, Stacked s' ((l ++ m' ++ r).map s'.blk) ⟨n.toRange, tiflags'⟩ res →
    Stacked s ((l ++ m ++ r).map s.blk) n res
  unaltered : altered' = false → altered = false ∧ s' = s ∧ m' = m ∧ tiflags' = n.flags
  kept : (∀ a ∈ m, ¬(n.start ≤ s.startseq a ∧ s.endseq a ≤ n.stop)) → altered' = altered

lemma killCovered_spec {fuel : ℕ} {altered : Bool}
    (h : Queue s (l ++ m ++ r) lifo free) (hfuel : m.length < fuel)
    (hm : ∀ a ∈ m, s.startseq a < s.endseq a) :
    (∃ res, killCovered r.head? sseq eseq fuel s (m ++ r).head? tiflags initcnt altered =
        some (.inl res) ∧ Stacked s ((l ++ m ++ r).map s.blk) ⟨⟨sseq, eseq⟩, tiflags⟩ res) ∨
      ∃ s' m' tiflags' initcnt' altered',
        killCovered r.head? sseq eseq fuel s (m ++ r).head? tiflags initcnt altered =
          some (.inr (s', tiflags', initcnt', altered')) ∧
        Killed s l m r ⟨⟨sseq, eseq⟩, tiflags⟩ altered s' m' tiflags' altered' := by
  obtain ⟨fuel, rfl⟩ : ∃ k, fuel = k + 1 := ⟨fuel - 1, by omega⟩
  induction m generalizing l s lifo free tiflags initcnt altered fuel with
  | nil =>
    refine Or.inr ⟨s, [], tiflags, initcnt, altered, ?_, ⟨lifo, free, h⟩, List.Sublist.refl _, rfl,
      by simp, fun _ => id, fun ha => ⟨ha, rfl, rfl, rfl⟩, fun _ => rfl⟩
    cases r with
    | nil => rfl
    | cons q r => simp [killCovered]
  | cons x m ih =>
    have hx := hm x (by simp)
    have hlist : l ++ x :: m ++ r = l ++ x :: (m ++ r) := by simp
    rw [hlist] at h ⊢
    obtain ⟨hxx, -, hxr⟩ := gapped_cons.mp (gapped_append.mp h.gapped).2.1
    have hlx : ∀ a ∈ l, s.endseq a < s.startseq x := fun a ha =>
      (gapped_append.mp h.gapped).2.2 a ha x (by simp)
    have hnodup := (List.nodup_cons.mp (List.nodup_middle.mp h.onFifo.nodup)).1
    have hxq : ¬some x = r.head? := fun he => hnodup (by simp [List.mem_of_head? he.symm])
    rw [List.cons_append, List.head?_cons, killCovered, if_neg hxq]
    by_cases hexact : sseq = s.startseq x ∧ eseq = s.endseq x
    · obtain ⟨rfl, rfl⟩ := hexact
      rw [if_pos ⟨rfl, rfl⟩]
      have hadd := addSeg_names (l := l) (m := [x]) (r := m ++ r) tiflags h (by simp) hxx hlx
        (by simpa using hxx) hxr
      rw [merged_single tiflags hxx, min_self, max_self] at hadd
      refine Or.inl ⟨_, rfl, ⟨⟨l ++ x :: (m ++ r), lifo, free, ?_⟩, ?_, ?_⟩, fun _ => ?_⟩
      · rw [hadd.1]
        refine Wrote.queue (b := ⟨⟨s.startseq x, s.endseq x⟩, s.pflags x ||| tiflags⟩)
          ⟨rfl, ?_, fun a ha => ?_, rfl⟩ h hxx hlx hxr ?_
        · simp [SegData.blk]
        · simp [SegData.blk, ha]
        · simp
      · rw [hadd.2]
        exact Nat.or_self _
      · exact Or.inr ⟨⟨s.blk x, by simp, le_rfl, hx⟩, Or.inl rfl⟩
      · have hone := restacked_one (b := (s.blk x).toRange) h hlx ⟨hxx, hxx⟩ hxr fun hsw => hsw.2.2 rfl
        rw [restack_same h] at hone
        rw [hadd.2]
        exact hone
    rw [if_neg hexact]
    by_cases hcover : sseq ≤ s.startseq x ∧ eseq ≥ s.endseq x
    · rw [if_pos hcover]
      have hnext : s.next x = (m ++ r).head? := h.onFifo.next_eq
      obtain ⟨hs, hd⟩ := remove_spec'
        (s := { s with total := s.total - (s.endseq x - s.startseq x) }) h.toShape
        (h.same.mem_iff.mpr (by simp))
      simp only [hnext]
      generalize deleteseginfo (sremove (fremove { s with
        total := s.total - (s.endseq x - s.startseq x) } x) x) x = t at *
      have hq := queue_without h hs hd
      rw [← List.append_assoc] at hq
      have hblk : t.blk = s.blk := by rw [hd]; rfl
      have hswallow : ∀ ys res, Stacked t ((l ++ ys).map s.blk)
          ⟨⟨sseq, eseq⟩, tiflags ||| s.pflags x⟩ res →
          Stacked s ((l ++ x :: ys).map s.blk) ⟨⟨sseq, eseq⟩, tiflags⟩ res := by
        intro ys res hres
        rw [List.map_append] at hres
        rw [List.map_append, List.map_cons]
        refine hres.of_swallow (n := ⟨⟨sseq, eseq⟩, tiflags⟩) (b := s.blk x) (by rw [hd])
          ⟨hcover.1, hcover.2, fun he => hexact ?_⟩ hx ?_
        · exact ⟨(congrArg Range.start he).symm, (congrArg Range.stop he).symm⟩
        · rw [stack_eq hq.toShape, hblk]
          exact stack_erase h (by simp)
      obtain ⟨fuel, rfl⟩ : ∃ k, fuel = k + 1 := ⟨fuel - 1, by simp at hfuel; omega⟩
      rcases ih (tiflags ||| s.pflags x) (initcnt + s.cnt x) hq
        (fun a ha => by rw [hd]; exact hm a (by simp [ha])) fuel (by simp at hfuel; omega) with
        ⟨res, hres, hadd⟩ | ⟨s', m', tiflags', initcnt', altered', hres, hk⟩
      · rw [hblk, List.append_assoc] at hadd
        exact Or.inl ⟨res, hres, hswallow _ _ hadd⟩
      · refine Or.inr ⟨s', m', tiflags', initcnt', altered', hres, hk.queue, hk.sub.cons x,
          hk.blk.trans hblk, ?_, ?_, fun ha => absurd (hk.unaltered ha).1 (by simp),
          fun hun => absurd hcover (hun x (by simp))⟩
        · intro a ha
          have hun := hk.uncovered a ha
          rwa [hd] at hun
        · intro res hadd
          have hadd' := hk.added res hadd
          rw [hblk, List.append_assoc] at hadd'
          rw [hlist]
          exact hswallow _ _ hadd'
    · rw [if_neg hcover]
      have hnext : s.next x = (m ++ r).head? := h.onFifo.next_eq
      have hsplit : l ++ x :: (m ++ r) = (l ++ [x]) ++ m ++ r := by simp
      obtain ⟨fuel, rfl⟩ : ∃ k, fuel = k + 1 := ⟨fuel - 1, by simp at hfuel; omega⟩
      rw [hsplit] at h
      rw [hnext, hsplit]
      rcases ih tiflags initcnt h (fun a ha => hm a (by simp [ha])) fuel
        (by simp at hfuel; omega) with hres | ⟨s', m', tiflags', initcnt', altered', hres, hk⟩
      · exact Or.inl hres
      · have hkeep : ∀ ys : List ℕ, l ++ x :: ys ++ r = (l ++ [x]) ++ ys ++ r := by simp
        refine Or.inr ⟨s', x :: m', tiflags', initcnt', altered', hres, ?_, hk.sub.cons_cons x,
          hk.blk, ?_, ?_, ?_, fun hun => hk.kept fun a ha => hun a (by simp [ha])⟩
        · rw [hkeep]
          exact hk.queue
        · intro a ha
          rcases List.mem_cons.mp ha with rfl | ha
          · exact hcover
          · exact hk.uncovered a ha
        · rw [hkeep, hkeep]
          exact hk.added
        · intro ha
          obtain ⟨h₁, h₂, h₃, h₄⟩ := hk.unaltered ha
          exact ⟨h₁, h₂, by rw [h₃], h₄⟩

lemma leftTarget_eq (sseq : ℤ) (h : Queue s (l ++ x :: r) lifo free) :
    s.leftTarget l.getLast? sseq =
      some (if l = [] ∨ s.startseq x < sseq then some x else none) := by
  rcases List.eq_nil_or_concat' l with rfl | ⟨l, p, rfl⟩
  · have hhead : s.head = some x := h.onFifo.head_eq
    simp [leftTarget, hhead]
  · rw [List.append_assoc] at h
    have hnext : s.next p = some x := h.onFifo.next_eq
    simp [leftTarget, hnext]

lemma rightTarget_eq (eseq : ℤ) (h : Queue s (l ++ x :: r) lifo free) :
    s.rightTarget r.head? eseq =
      some (if r = [] ∨ s.endseq x > eseq then some x else none) := by
  cases r with
  | nil =>
    have htail : s.tail = some x := h.onFifo.tail_eq.trans List.getLast?_concat
    simp [rightTarget, htail]
  | cons q r =>
    have hsplit : l ++ x :: q :: r = (l ++ [x]) ++ q :: r := by simp
    rw [hsplit] at h
    have hprev : s.prev q = some x := h.onFifo.prev_eq.trans List.getLast?_concat
    simp [rightTarget, hprev]

lemma joinLeft_wrote (s : ReassemblyQueue) (x : ℕ) (sseq : ℤ) (tiflags : ℕ) :
    Wrote s (s.joinLeft x sseq tiflags) x
      ⟨⟨min (s.startseq x) sseq, s.endseq x⟩, s.pflags x ||| tiflags⟩ := by
  unfold joinLeft
  by_cases hlt : sseq < s.startseq x
  · rw [if_pos hlt, min_eq_right hlt.le]
    exact ⟨rfl, by simp [SegData.blk], fun a ha => by simp [SegData.blk, ha], rfl⟩
  · rw [if_neg hlt, min_eq_left (not_lt.mp hlt)]
    exact ⟨rfl, by simp [SegData.blk], fun a ha => by simp [SegData.blk, ha], rfl⟩

lemma joinRight_wrote (s : ReassemblyQueue) (x : ℕ) (eseq : ℤ) (tiflags : ℕ) :
    Wrote s (s.joinRight x eseq tiflags) x
      ⟨⟨s.startseq x, max (s.endseq x) eseq⟩, s.pflags x ||| tiflags⟩ := by
  unfold joinRight
  by_cases hlt : eseq > s.endseq x
  · rw [if_pos hlt, max_eq_right hlt.le]
    exact ⟨rfl, by simp [SegData.blk], fun a ha => by simp [SegData.blk, ha], rfl⟩
  · rw [if_neg hlt, max_eq_left (not_lt.mp hlt)]
    exact ⟨rfl, by simp [SegData.blk], fun a ha => by simp [SegData.blk, ha], rfl⟩

lemma joinLeft_total (s : ReassemblyQueue) (x : ℕ) (sseq : ℤ) (tiflags : ℕ) : (s.joinLeft x sseq tiflags).total =
    s.total + (s.startseq x - min (s.startseq x) sseq) := by
  unfold joinLeft
  by_cases hlt : sseq < s.startseq x
  · rw [if_pos hlt, min_eq_right hlt.le]
  · rw [if_neg hlt, min_eq_left (not_lt.mp hlt)]
    simp

lemma joinRight_total (s : ReassemblyQueue) (x : ℕ) (eseq : ℤ) (tiflags : ℕ) : (s.joinRight x eseq tiflags).total =
    s.total + (max (s.endseq x) eseq - s.endseq x) := by
  unfold joinRight
  by_cases hlt : eseq > s.endseq x
  · rw [if_pos hlt, max_eq_right hlt.le]
  · rw [if_neg hlt, max_eq_left (not_lt.mp hlt)]
    simp

/-- The return of `add` for a segment that the existing blocks take up completely. -/
lemma early_stacked {t : ReassemblyQueue} (h : Queue t (l ++ x :: r) lifo free)
    (hadd : Blk.addSeg bs n = (l ++ x :: r).map t.blk) (hin : Blk.mergedIn bs n = t.blk x)
    (hrcv : t.rcvNxt = s.rcvNxt)
    (hcase : l = [] ∨ ∃ c ∈ bs, c.start ≤ n.start ∧ n.start < c.stop)
    (hflags : tiflags ||| t.pflags x = t.pflags x)
    (hst : (∀ b ∈ bs, b.start < b.stop) → Restacked n.toRange (t.blk x).toRange s.stack t.stack) :
    ∃ res, (t.head.map fun h => ({ t with
        rcvNxt := if t.rcvNxt ≥ t.startseq h then t.endseq h else t.rcvNxt }, tiflags)) = some res ∧
      Stacked s bs n res := by
  have hhead : t.head = some ((l ++ x :: r).head (by simp)) := by
    rw [h.onFifo.head_eq, List.head?_eq_some_head]
  rw [hhead]
  refine ⟨_, rfl, ⟨⟨l ++ x :: r, lifo, free, ⟨h.toShape, h.same, h.gapped, h.total_eq⟩, hadd.symm⟩,
    by rw [hin]; exact hflags, ?_⟩, hin ▸ hst⟩
  rcases hcase with rfl | hcase
  · exact Or.inl (by rw [hin, ← hrcv]; rfl)
  · refine Or.inr ⟨hcase, Or.inr ⟨t.blk ((l ++ x :: r).head (by simp)), ?_, by rw [← hrcv]; rfl⟩⟩
    rw [hadd, List.head?_map, List.head?_eq_some_head (by simp)]
    rfl

lemma mergeRight_some {needmerge : Bool} {o o' : Option ℕ}
    (h : s.rightTarget o' eseq = some (some x)) :
    s.mergeRight o o' sseq eseq tiflags rqflags initcnt needmerge =
      if (s.joinRight x eseq tiflags).startseq x ≤ sseq then
        (s.joinRight x eseq tiflags).head.map fun h => ({ s.joinRight x eseq tiflags with
          rcvNxt := if (s.joinRight x eseq tiflags).rcvNxt ≥ (s.joinRight x eseq tiflags).startseq h
            then (s.joinRight x eseq tiflags).endseq h
            else (s.joinRight x eseq tiflags).rcvNxt }, tiflags)
      else (s.joinRight x eseq tiflags).insertBlock o (some x) sseq
        ((s.joinRight x eseq tiflags).startseq x) tiflags rqflags initcnt true := by
  -- only `startseq b` is read before the merge, and the merge does not write it
  have hstart : (s.joinRight x eseq tiflags).startseq x = s.startseq x :=
    congrArg (fun b : Blk => b.start) (joinRight_wrote s x eseq tiflags).self
  simp only [mergeRight, h, Option.bind_eq_bind, Option.bind_some, hstart, if_true]

lemma mergeRight_none {o o' : Option ℕ} (h : s.rightTarget o' eseq = some none) :
    s.mergeRight o o' sseq eseq tiflags rqflags initcnt true =
      if eseq ≤ sseq then
        s.head.map fun h => ({ s with
          rcvNxt := if s.rcvNxt ≥ s.startseq h then s.endseq h else s.rcvNxt }, tiflags)
      else s.insertBlock o o' sseq eseq tiflags rqflags initcnt true := by
  simp only [mergeRight, h, Option.bind_eq_bind, Option.bind_some, if_true]

lemma Wrote.startseq {t : ReassemblyQueue} {b : Blk} (h : Wrote s t x b) :
    t.startseq x = b.start :=
  congrArg (fun b : Blk => b.start) h.self

lemma Wrote.endseq {t : ReassemblyQueue} {b : Blk} (h : Wrote s t x b) : t.endseq x = b.stop :=
  congrArg (fun b : Blk => b.stop) h.self

lemma Wrote.pflags {t : ReassemblyQueue} {b : Blk} (h : Wrote s t x b) : t.pflags x = b.flags :=
  congrArg Blk.flags h.self

lemma Wrote.other_startseq {t : ReassemblyQueue} {b : Blk} (h : Wrote s t x b) (hp : p ≠ x) :
    t.startseq p = s.startseq p :=
  congrArg (fun b : Blk => b.start) (h.other p hp)

lemma Wrote.other_endseq {t : ReassemblyQueue} {b : Blk} (h : Wrote s t x b) (hp : p ≠ x) :
    t.endseq p = s.endseq p :=
  congrArg (fun b : Blk => b.stop) (h.other p hp)

lemma Wrote.other_pflags {t : ReassemblyQueue} {b : Blk} (h : Wrote s t x b) (hp : p ≠ x) :
    t.pflags p = s.pflags p :=
  congrArg Blk.flags (h.other p hp)

/-- The neighbourhood of a block. -/
lemma around (h : Queue s (l ++ x :: r) lifo free) :
    s.startseq x ≤ s.endseq x ∧ (∀ a ∈ l, s.endseq a < s.startseq x) ∧
      (∀ b ∈ r, s.endseq x < s.startseq b) ∧ x ∉ l ∧ x ∉ r := by
  obtain ⟨hxx, -, hxr⟩ := gapped_cons.mp (gapped_append.mp h.gapped).2.1
  have hnodup := (List.nodup_cons.mp (List.nodup_middle.mp h.onFifo.nodup)).1
  rw [List.mem_append, not_or] at hnodup
  exact ⟨hxx, fun a ha => (gapped_append.mp h.gapped).2.2 a ha x (by simp), hxr, hnodup⟩

/-- The segment overlaps one block, which takes its start. -/
lemma merge_left_one (h : Queue s (l ++ x :: r) lifo free) (hse : sseq ≤ eseq)
    (hx : sseq < s.endseq x ∧ s.startseq x < eseq) (hr : ∀ a ∈ r, eseq ≤ s.startseq a)
    (hcond : l = [] ∨ s.startseq x < sseq) (hun : s.startseq x < sseq ∨ eseq < s.endseq x) :
    ∃ res, (s.joinLeft x sseq tiflags).mergeRight (some x) r.head?
        ((s.joinLeft x sseq tiflags).endseq x) eseq tiflags rqflags initcnt true = some res ∧
      Stacked s ((l ++ x :: r).map s.blk) ⟨⟨sseq, eseq⟩, tiflags⟩ res := by
  have hw := joinLeft_wrote s x sseq tiflags
  have ht := joinLeft_total s x sseq tiflags
  generalize s.joinLeft x sseq tiflags = t at hw ht ⊢
  obtain ⟨hxx, hlx, hxr, hxl, hxr'⟩ := around h
  have hmin : ∀ a ∈ l, s.endseq a < min (s.startseq x) sseq := by
    rcases hcond with rfl | hc
    · simp
    · rwa [min_eq_left hc.le]
  have hle : min (s.startseq x) sseq ≤ sseq := min_le_right _ _
  have hq := (hw.queue h (hle.trans hx.1.le) hmin hxr (by simp only; omega)).1
  have hlow : ∀ a ∈ l, s.endseq a < sseq := fun a ha => (hmin a ha).trans_le hle
  have hstart : l = [] ∨ ∃ c ∈ (l ++ x :: r).map s.blk, c.start ≤ sseq ∧ sseq < c.stop :=
    hcond.imp_right fun hc => ⟨s.blk x, by simp, hc.le, hx.1⟩
  have hkept : ¬Swallows ⟨sseq, eseq⟩ (s.blk x).toRange := by
    rintro ⟨h₁, h₂, -⟩
    have hstart' : sseq ≤ s.startseq x := h₁
    have hstop' : s.endseq x ≤ eseq := h₂
    omega
  have htarget := rightTarget_eq eseq hq
  rw [hw.endseq] at htarget ⊢
  simp only at htarget ⊢
  by_cases hright : r = [] ∨ s.endseq x > eseq
  · -- the same block takes the end
    rw [if_pos hright] at htarget
    have hw₂ := joinRight_wrote t x eseq tiflags
    have ht₂ := joinRight_total t x eseq tiflags
    rw [mergeRight_some _ _ _ htarget]
    generalize t.joinRight x eseq tiflags = u at hw₂ ht₂ ⊢
    rw [hw.startseq, hw.endseq, hw.pflags] at hw₂
    rw [hw.endseq] at ht₂
    simp only at hw₂ ht₂
    have hmax : ∀ a ∈ r, max (s.endseq x) eseq < s.startseq a := by
      rcases hright with rfl | hc
      · simp
      · rwa [max_eq_left hc.le]
    have hcover : min (s.startseq x) sseq ≤ s.endseq x := hle.trans hx.1.le
    rw [hw₂.startseq, if_pos hcover]
    obtain ⟨hq₂, hmap⟩ := hw₂.queue hq (by simp only; omega)
      (fun a ha => by rw [hw.other_endseq fun he => hxl (he ▸ ha)]; exact hmin a ha)
      (fun a ha => by rw [hw.other_startseq fun he => hxr' (he ▸ ha)]; exact hmax a ha)
      (by rw [hw.startseq, hw.endseq]; simp only; omega)
    have hadd := addSeg_names (l := l) (m := [x]) (r := r) tiflags h (by simp) hse hlow
      (by simp; omega) fun a ha => by have := hmax a ha; omega
    rw [merged_single tiflags hxx] at hadd
    rw [hw.map hxl, hw.map hxr', Nat.or_assoc, Nat.or_self] at hmap
    refine early_stacked tiflags hq₂ (hadd.1.trans hmap.symm) ?_ (hw₂.rcvNxt.trans hw.rcvNxt) hstart ?_
      fun _ => ?_
    · rw [hadd.2, hw₂.self, Nat.or_assoc, Nat.or_self]
    · rw [hw₂.pflags]
      simp only
      rw [Nat.or_comm, Nat.or_assoc, Nat.or_self]
    · rw [hw₂.stack hq₂, hw.restack, hw₂.self]
      exact restacked_one h hlow (by omega) (fun a ha => by have := hmax a ha; omega) hkept
  · rw [if_neg hright] at htarget
    obtain ⟨hrne, hend⟩ := not_or.mp hright
    have hx' : s.startseq x < sseq := by omega
    rw [min_eq_left hx'.le] at *
    rw [mergeRight_none _ _ _ htarget]
    by_cases hend' : eseq ≤ s.endseq x
    · rw [if_pos hend']
      have hadd := addSeg_names (l := l) (m := [x]) (r := r) tiflags h (by simp) hse hlow
        (by simp; omega) fun a ha => by have := hxr a ha; omega
      rw [merged_single tiflags hxx, min_eq_left hx'.le, max_eq_left hend'] at hadd
      refine early_stacked tiflags hq (hadd.1.trans ?_) ?_ hw.rcvNxt hstart ?_ fun _ => ?_
      · rw [List.map_append, List.map_cons, hw.map hxl, hw.map hxr', hw.self]
      · rw [hadd.2, hw.self]
      · rw [hw.pflags]
        simp only
        rw [Nat.or_comm, Nat.or_assoc, Nat.or_self]
      · rw [hw.stack hq, hw.self]
        exact restacked_one h hlow (by omega) (fun a ha => by have := hxr a ha; omega) hkept
    · rw [if_neg hend']
      obtain ⟨q, r, rfl⟩ := List.exists_cons_of_ne_nil hrne
      have hqx : q ≠ x := fun he => hxr' (by simp [he])
      have hqr := (gapped_cons.mp (gapped_cons.mp (gapped_append.mp h.gapped).2.1).2.1)
      have hqs := hr q (by simp)
      by_cases hqe : s.startseq q = eseq
      · -- the rest of the segment fills the hole
        obtain ⟨res, hres, hmade, hstack⟩ := insertBlock_both tiflags rqflags initcnt hq hw.endseq
          ((hw.other_startseq hqx).trans hqe)
        refine ⟨res, hres, hmade.stacked hw.rcvNxt ?_ fun _ => ?_⟩
        · have hadd := addSeg_names (l := l) (m := [x, q]) (r := r) tiflags h (by simp) hse hlow
            (by simp; omega) fun a ha => by have := hqr.2.2 a ha; omega
          rw [merged_pair (p := x) (q := q) tiflags (by omega) (by omega) (by omega)
            (hxr q (by simp)) (by omega) hqr.1 hxx] at hadd
          rw [hw.map hxl, hw.map fun hmem => hxr' (by simp [hmem]), hw.startseq, hw.pflags,
            hw.other_endseq hqx, Nat.or_assoc, Nat.or_self]
          exact hadd
        · rw [hstack, hw.restack]
          exact restacked_two h hlow (by omega) (by omega) (fun a ha => by have := hqr.2.2 a ha; omega) hx'
      · have habove : ∀ b ∈ q :: r, eseq < s.startseq b := by
          intro b hb
          rcases List.mem_cons.mp hb with rfl | hb
          · omega
          · have := hqr.2.2 b hb
            omega
        obtain ⟨res, hres, hmade, hstack⟩ := insertBlock_left tiflags rqflags initcnt hq hw.endseq
          (le_of_not_ge hend') fun b hb => by
            rw [hw.other_startseq fun he => hxr' (he ▸ hb)]
            exact habove b hb
        refine ⟨res, hres, hmade.stacked hw.rcvNxt ?_ fun _ => ?_⟩
        · have hadd := addSeg_names (l := l) (m := [x]) (r := q :: r) tiflags h (by simp) hse hlow
            (by simp; omega) habove
          rw [merged_single tiflags hxx, min_eq_left hx'.le, max_eq_right (by omega)] at hadd
          rw [hw.map hxl, hw.map hxr', hw.startseq, hw.pflags, Nat.or_assoc, Nat.or_self]
          exact hadd
        · rw [hstack, hw.restack]
          exact restacked_one h hlow (by omega) habove hkept

/-- The segment overlaps one block, which only takes its end. -/
lemma merge_right_one (h : Queue s (l ++ x :: r) lifo free) (hlt : sseq < eseq) (hne : l ≠ [])
    (hl : ∀ a ∈ l, s.endseq a ≤ sseq) (hx : sseq ≤ s.startseq x ∧ s.startseq x < eseq)
    (hend : eseq < s.endseq x) (hz : ∀ a ∈ l, s.startseq a = s.endseq a → eseq ≤ s.startseq a) :
    ∃ res, s.mergeRight l.getLast? r.head? sseq eseq tiflags rqflags initcnt false = some res ∧
      Stacked s ((l ++ x :: r).map s.blk) ⟨⟨sseq, eseq⟩, tiflags⟩ res := by
  have htarget := rightTarget_eq eseq h
  rw [if_pos (Or.inr hend)] at htarget
  rw [mergeRight_some _ _ _ htarget]
  have hw := joinRight_wrote s x eseq tiflags
  have ht := joinRight_total s x eseq tiflags
  generalize s.joinRight x eseq tiflags = t at hw ht ⊢
  rw [max_eq_left hend.le] at hw ht
  obtain ⟨hxx, hlx, hxr, hxl, hxr'⟩ := around h
  have hq := (hw.queue h hxx hlx hxr (by simp only; omega)).1
  rw [hw.startseq]
  simp only
  have hr : ∀ b ∈ r, eseq < s.startseq b := fun b hb => hend.trans (hxr b hb)
  have hkept : ¬Swallows ⟨sseq, eseq⟩ (s.blk x).toRange := fun hsw => absurd hsw.2.1 (not_le.mpr hend)
  by_cases hstart : s.startseq x ≤ sseq
  · rw [if_pos hstart]
    have hlow : ∀ a ∈ l, s.endseq a < sseq := fun a ha => (hlx a ha).trans_le hstart
    have hadd := addSeg_names (l := l) (m := [x]) (r := r) tiflags h (by simp) hlt.le hlow
      (by simp; omega) hr
    rw [merged_single tiflags hxx, min_eq_left hstart, max_eq_left hend.le] at hadd
    refine early_stacked tiflags hq (hadd.1.trans ?_) ?_ hw.rcvNxt
      (Or.inr ⟨s.blk x, by simp, hstart, hlt.trans hend⟩) ?_ fun _ => ?_
    · rw [List.map_append, List.map_cons, hw.map hxl, hw.map hxr', hw.self]
    · rw [hadd.2, hw.self]
    · rw [hw.pflags]
      simp only
      rw [Nat.or_comm, Nat.or_assoc, Nat.or_self]
    · rw [hw.stack hq, hw.self]
      exact restacked_one h hlow (by omega) hr hkept
  · rw [if_neg hstart]
    obtain ⟨l, p, rfl⟩ := (List.eq_nil_or_concat' l).resolve_left hne
    have hpx : p ≠ x := fun he => hxl (by simp [he])
    rw [List.append_assoc, List.singleton_append] at h hq ⊢
    obtain ⟨hpp, hlp, hpr, hpl, -⟩ := around h
    have hpe := hl p (by simp)
    have hzp := hz p (by simp)
    rw [List.getLast?_concat]
    by_cases hp : s.endseq p = sseq
    · -- the start of the segment fills the hole
      obtain ⟨res, hres, hmade, hstack⟩ := insertBlock_both tiflags rqflags initcnt hq
        ((hw.other_endseq hpx).trans hp) hw.startseq
      have hlow : ∀ a ∈ l, s.endseq a < sseq := fun a ha => by have := hlp a ha; omega
      refine ⟨res, hres, hmade.stacked hw.rcvNxt ?_ fun hne => ?_⟩
      · have hadd := addSeg_names (l := l) (m := [p, x]) (r := r) tiflags h (by simp) hlt.le hlow
          (by simp; omega) hr
        rw [merged_pair (p := p) (q := x) tiflags (by omega) (by omega) (by omega) (hpr x (by simp))
          (Or.inl hend) hxx hpp] at hadd
        rw [hw.map fun hmem => hxl (by simp [hmem]), hw.map hxr', hw.endseq, hw.other_startseq hpx,
          hw.other_pflags hpx]
        exact hadd
      · have hppos : s.startseq p < s.endseq p := hne (s.blk p) (by simp)
        rw [hstack, hw.restack_erase h.onLifo.nodup]
        exact restacked_two h hlow (by omega) (by omega) hr (by omega)
    · have hlow : ∀ a ∈ l ++ [p], s.endseq a < sseq := by
        intro a ha
        rcases List.mem_append.mp ha with ha | ha
        · have := hlp a ha
          omega
        · rw [List.mem_singleton.mp ha]
          omega
      have hsplit : l ++ p :: x :: r = (l ++ [p]) ++ x :: r := by simp
      rw [hsplit] at hq h ⊢
      obtain ⟨res, hres, hmade, hstack⟩ := insertBlock_right tiflags rqflags initcnt hq hw.startseq
        hx.1 fun a ha => by
          rw [hw.other_endseq fun he => hxl (he ▸ ha)]
          exact hlow a ha
      rw [List.getLast?_concat] at hres
      refine ⟨res, hres, hmade.stacked hw.rcvNxt ?_ fun _ => ?_⟩
      · have hadd := addSeg_names (l := l ++ [p]) (m := [x]) (r := r) tiflags h (by simp) hlt.le hlow
          (by simp; omega) hr
        rw [merged_single tiflags hxx, min_eq_right hx.1, max_eq_left hend.le] at hadd
        rw [hw.map hxl, hw.map hxr', hw.endseq, hw.pflags, Nat.or_assoc, Nat.or_self]
        exact hadd
      · rw [hstack, hw.restack]
        exact restacked_one h hlow (by omega) hr hkept

/-- The segment fills the hole between two blocks that it overlaps in part. -/
lemma merge_two (h : Queue s (l ++ p :: q :: r) lifo free) (hlt : sseq < eseq)
    (hp : s.startseq p < sseq ∧ sseq < s.endseq p) (hq : s.startseq q < eseq ∧ eseq < s.endseq q) :
    ∃ res, (s.joinLeft p sseq tiflags).mergeRight (some p) r.head?
        ((s.joinLeft p sseq tiflags).endseq p) eseq tiflags rqflags initcnt true = some res ∧
      Stacked s ((l ++ p :: q :: r).map s.blk) ⟨⟨sseq, eseq⟩, tiflags⟩ res := by
  have hw := joinLeft_wrote s p sseq tiflags
  have ht := joinLeft_total s p sseq tiflags
  generalize s.joinLeft p sseq tiflags = t at hw ht ⊢
  rw [min_eq_left hp.1.le] at hw ht
  obtain ⟨hpp, hlp, hpr, hpl, hpr'⟩ := around h
  have hsplit : l ++ p :: q :: r = (l ++ [p]) ++ q :: r := by simp
  obtain ⟨hqq, hlq, hqr, hql, hqr'⟩ := around (hsplit ▸ h)
  have hqp : q ≠ p := fun he => hpr' (by simp [he])
  have hpq := hpr q (by simp)
  have hq₁ := (hw.queue h hpp hlp hpr (by simp only; omega)).1
  have htarget := rightTarget_eq eseq (hsplit ▸ hq₁)
  rw [hw.other_endseq hqp, if_pos (Or.inr hq.2)] at htarget
  rw [mergeRight_some _ _ _ htarget, hw.endseq]
  have hw₂ := joinRight_wrote t q eseq tiflags
  have ht₂ := joinRight_total t q eseq tiflags
  generalize t.joinRight q eseq tiflags = u at hw₂ ht₂ ⊢
  rw [hw.other_startseq hqp, hw.other_endseq hqp, hw.other_pflags hqp, max_eq_left hq.2.le] at hw₂
  rw [hw.other_endseq hqp, max_eq_left hq.2.le] at ht₂
  have hq₂ := (hw₂.queue (hsplit ▸ hq₁) hqq
    (fun a ha => by
      rcases List.mem_append.mp ha with ha' | ha'
      · rw [hw.other_endseq fun he => hpl (he ▸ ha')]
        exact hlq a ha
      · rw [List.mem_singleton.mp ha', hw.endseq]
        exact hpq)
    (fun a ha => by
      rw [hw.other_startseq fun he => hpr' (by simp [← he, ha])]
      exact hqr a ha)
    (by rw [hw.other_startseq hqp, hw.other_endseq hqp]; simp only; omega)).1
  rw [← hsplit] at hq₂
  rw [hw₂.startseq, if_neg (not_le.mpr hpq)]
  obtain ⟨res, hres, hmade, hstack⟩ := insertBlock_both tiflags rqflags initcnt hq₂
    ((hw₂.other_endseq hqp.symm).trans hw.endseq) hw₂.startseq
  have hlow : ∀ a ∈ l, s.endseq a < sseq := fun a ha => by have := hlp a ha; omega
  have hhigh : ∀ a ∈ r, eseq < s.startseq a := fun a ha => hq.2.trans (hqr a ha)
  refine ⟨res, hres, hmade.stacked (hw₂.rcvNxt.trans hw.rcvNxt) ?_ fun _ => ?_⟩
  · have hadd := addSeg_names (l := l) (m := [p, q]) (r := r) tiflags h (by simp) hlt.le hlow
      (by simp; omega) hhigh
    rw [merged_pair (p := p) (q := q) tiflags hp.1 (by omega) (by omega) hpq (Or.inl hq.2) hqq hpp]
      at hadd
    rw [hw₂.map fun hmem => hql (by simp [hmem]), hw₂.map hqr', hw.map hpl,
      hw.map fun hmem => hpr' (by simp [hmem]), hw₂.other_startseq hqp.symm, hw.startseq, hw₂.endseq,
      hw₂.other_pflags hqp.symm, hw.pflags, Nat.or_assoc, Nat.or_self]
    exact hadd
  · rw [hstack, hw₂.restack_erase h.onLifo.nodup, hw.restack]
    exact restacked_two h hlow (by omega) (by omega) hhigh hp.1

/-- The segment overlaps nothing. -/
lemma merge_none (h : Queue s (l ++ r) lifo free) (hlt : sseq < eseq) (hl : ∀ a ∈ l, s.endseq a ≤ sseq)
    (hr : ∀ a ∈ r, eseq ≤ s.startseq a) (hlne : l ≠ []) (hrne : r ≠ [])
    (hz : ∀ a ∈ l, s.startseq a = s.endseq a → eseq ≤ s.startseq a) :
    ∃ res, s.mergeRight l.getLast? r.head? sseq eseq tiflags rqflags initcnt false = some res ∧
      Stacked s ((l ++ r).map s.blk) ⟨⟨sseq, eseq⟩, tiflags⟩ res := by
  obtain ⟨l, p, rfl⟩ := (List.eq_nil_or_concat' l).resolve_left hlne
  obtain ⟨q, r, rfl⟩ := List.exists_cons_of_ne_nil hrne
  have hpe := hl p (by simp)
  have hqs := hr q (by simp)
  have hsplit : l ++ [p] ++ q :: r = l ++ p :: q :: r := by simp
  have htarget := rightTarget_eq eseq (hsplit ▸ h)
  have hno : ¬(q :: r = [] ∨ s.endseq p > eseq) := by simp; omega
  have hnext : s.next p = some q := DList.next_eq (hsplit ▸ h).onFifo
  rw [if_neg hno] at htarget
  obtain ⟨res, hres, hadd⟩ := insert_between tiflags rqflags initcnt h hlt.le hl hr hz
    (decide (s.next p = some q ∧ s.endseq p ≤ sseq ∧ s.startseq q ≥ eseq ∧
      (s.endseq p = sseq ∨ s.startseq q = eseq))) (by simp [hnext, hpe, hqs])
  refine ⟨res, ?_, hadd⟩
  rw [← hres]
  simp only [mergeRight, htarget, Option.bind_eq_bind, Option.bind_some, if_neg (not_le.mpr hlt)]
  simp

/-- The blocks that overlap the segment after the deletions: at most one on each side. -/
lemma mergeLeft_spec (h : Queue s (l ++ m ++ r) lifo free) (hlt : sseq < eseq)
    (hl : ∀ a ∈ l, s.endseq a ≤ sseq) (hm : ∀ a ∈ m, sseq < s.endseq a ∧ s.startseq a < eseq)
    (hr : ∀ a ∈ r, eseq ≤ s.startseq a) (hun : ∀ a ∈ m, ¬(sseq ≤ s.startseq a ∧ s.endseq a ≤ eseq))
    (hne : m = [] → l ≠ [] ∧ r ≠ [])
    (hz : ∀ a ∈ l, s.startseq a = s.endseq a → eseq ≤ s.startseq a) :
    ∃ res, s.mergeLeft l.getLast? r.head? sseq eseq tiflags rqflags initcnt = some res ∧
      Stacked s ((l ++ m ++ r).map s.blk) ⟨⟨sseq, eseq⟩, tiflags⟩ res := by
  match m with
  | [] =>
    obtain ⟨hlne, hrne⟩ := hne rfl
    obtain ⟨q, r, rfl⟩ := List.exists_cons_of_ne_nil hrne
    rw [List.append_nil] at h ⊢
    have hqs := hr q (by simp)
    have htarget := leftTarget_eq sseq h
    rw [if_neg (by simp [hlne]; omega)] at htarget
    obtain ⟨res, hres, hadd⟩ := merge_none tiflags rqflags initcnt h hlt hl hr hlne hrne hz
    refine ⟨res, ?_, hadd⟩
    simp only [mergeLeft, htarget, Option.bind_eq_bind, Option.bind_some, hres]
  | [x] =>
    rw [List.append_assoc, List.singleton_append] at h ⊢
    have htarget := leftTarget_eq sseq h
    have hx := hm x (by simp)
    have hunx := hun x (by simp)
    by_cases hcond : l = [] ∨ s.startseq x < sseq
    · rw [if_pos hcond] at htarget
      obtain ⟨res, hres, hadd⟩ := merge_left_one tiflags rqflags (initcnt - 1) h hlt.le hx hr hcond
        (by omega)
      refine ⟨res, ?_, hadd⟩
      simp only [mergeLeft, htarget, Option.bind_eq_bind, Option.bind_some, hres]
    · rw [if_neg hcond] at htarget
      obtain ⟨hlne, hstart⟩ := not_or.mp hcond
      obtain ⟨res, hres, hadd⟩ := merge_right_one tiflags rqflags initcnt h hlt hlne hl
        ⟨by omega, hx.2⟩ (by omega) hz
      refine ⟨res, ?_, hadd⟩
      simp only [mergeLeft, htarget, Option.bind_eq_bind, Option.bind_some, hres]
  | [p, q] =>
    have hlist : l ++ [p, q] ++ r = l ++ p :: q :: r := by simp
    rw [hlist] at h ⊢
    have hpq := (around h).2.2.1 q (by simp)
    have hp := hm p (by simp)
    have hq := hm q (by simp)
    have hunp := hun p (by simp)
    have hunq := hun q (by simp)
    have htarget := leftTarget_eq sseq h
    rw [if_pos (Or.inr (by omega))] at htarget
    obtain ⟨res, hres, hadd⟩ := merge_two tiflags rqflags (initcnt - 1) h hlt (by omega) (by omega)
    refine ⟨res, ?_, hadd⟩
    simp only [mergeLeft, htarget, Option.bind_eq_bind, Option.bind_some, hres]
  | p :: x :: q :: m =>
    -- a block between two others that overlap the segment is covered by it
    have hlist : l ++ p :: x :: q :: m ++ r = (l ++ [p]) ++ x :: (q :: m ++ r) := by simp
    obtain ⟨-, hbefore, hafter, -⟩ := around (hlist ▸ h)
    have h₁ := hbefore p (by simp)
    have h₂ := hafter q (by simp)
    have hp := hm p (by simp)
    have hq := hm q (by simp)
    exact absurd ⟨by omega, by omega⟩ (hun x (by simp))

lemma killCovered_skip {o : Option ℕ} {fuel : ℕ} {altered : Bool} (ho : some p ≠ o)
    (hp : ¬(sseq ≤ s.startseq p ∧ eseq ≥ s.endseq p)) :
    killCovered o sseq eseq (fuel + 1) s (some p) tiflags initcnt altered =
      killCovered o sseq eseq fuel s (s.next p) tiflags initcnt altered := by
  have hexact : ¬(sseq = s.startseq p ∧ eseq = s.endseq p) := fun h => hp ⟨h.1.le, h.2.ge⟩
  rw [killCovered, if_neg ho, if_neg hexact, if_neg hp]

/-- The searches of `add` find the ends of the three parts of the FIFO. -/
lemma searches (h : Queue s (l ++ m ++ r) lifo free)
    (hl : ∀ a ∈ l, s.endseq a ≤ sseq ∧ s.startseq a < eseq)
    (hm : ∀ a ∈ m, sseq < s.endseq a ∧ s.startseq a < eseq)
    (hr : ∀ a ∈ r, sseq < s.endseq a ∧ eseq ≤ s.startseq a) :
    walk s.next (fun a => decide (s.startseq a < eseq)) (s.fresh + 1) s.head = some r.head? ∧
      walk s.prev (fun a => decide (s.endseq a > sseq)) (s.fresh + 1) s.tail = some l.getLast? := by
  have hlen := Nat.lt_succ_of_le (length_le_fresh h.toShape)
  constructor
  · rw [h.onFifo.head_eq, walk_eq h.onFifo.seg hlen, List.dropWhile_append_of_pos]
    · cases r with
      | nil => rfl
      | cons q r => rw [List.dropWhile_cons, if_neg (by simpa using (hr q (by simp)).2)]
    · intro a ha
      rcases List.mem_append.mp ha with ha' | ha'
      · simpa using (hl a ha').2
      · simpa using (hm a ha').2
  · have hrev : l ++ m ++ r = ((m ++ r).reverse ++ l.reverse).reverse := by simp
    rw [h.onFifo.tail_eq, ← List.head?_reverse, walk_eq h.onFifo.seg.reverse
        (by rw [List.length_reverse]; exact hlen),
      hrev, List.reverse_reverse, List.dropWhile_append_of_pos]
    · rw [← List.head?_reverse]
      rcases List.eq_nil_or_concat' l with rfl | ⟨l, p, rfl⟩
      · rfl
      · have := (hl p (by simp)).1
        rw [List.reverse_concat, List.dropWhile_cons, if_neg (by simpa using this)]
    · intro a ha
      rcases List.mem_append.mp (List.mem_reverse.mp ha) with ha' | ha'
      · simpa using (hm a ha').1
      · simpa using (hr a ha').1

/-- The loop over the covered blocks, from the pointer where `add` starts it. -/
lemma killCovered_from (h : Queue s (l ++ m ++ r) lifo free) (hlt : sseq < eseq)
    (hl : ∀ a ∈ l, s.endseq a ≤ sseq) (hm : ∀ a ∈ m, sseq < s.endseq a ∧ s.startseq a < eseq)
    (hz : ∀ a ∈ l ++ m ++ r, s.startseq a = s.endseq a → eseq ≤ s.startseq a) :
    (∃ res, killCovered r.head? sseq eseq (s.fresh + 1) s (l.getLast?.or s.head) tiflags initcnt
        false = some (.inl res) ∧ Stacked s ((l ++ m ++ r).map s.blk) ⟨⟨sseq, eseq⟩, tiflags⟩ res) ∨
      ∃ s' m' tiflags' initcnt' altered',
        killCovered r.head? sseq eseq (s.fresh + 1) s (l.getLast?.or s.head) tiflags initcnt false =
          some (.inr (s', tiflags', initcnt', altered')) ∧
        Killed s l m r ⟨⟨sseq, eseq⟩, tiflags⟩ false s' m' tiflags' altered' := by
  have hlen := length_le_fresh h.toShape
  have hord : ∀ a ∈ l ++ m ++ r, s.startseq a ≤ s.endseq a := fun a ha => start_le_stop h ha
  have hpos : ∀ a ∈ m, s.startseq a < s.endseq a := by
    intro a ha
    have h₁ := hord a (by simp [ha])
    have h₂ := hz a (by simp [ha])
    have h₃ := (hm a ha).2
    omega
  rcases List.eq_nil_or_concat' l with rfl | ⟨l, p, rfl⟩
  · have hhead : s.head = (m ++ r).head? := h.onFifo.head_eq
    rw [hhead]
    exact killCovered_spec tiflags initcnt h (by simp at hlen; omega) hpos
  · have hnext : s.next p = (m ++ r).head? := by
      have h' : DList s.next s.prev s.head s.tail (l ++ p :: (m ++ r)) := by simpa using h.onFifo
      exact h'.next_eq
    have hpr : some p ≠ r.head? := by
      have hnodup := h.onFifo.nodup
      intro he
      have hpmem := List.mem_of_head? he.symm
      exact (List.nodup_append.mp hnodup).2.2 p (by simp) p hpmem rfl
    have hp : ¬(sseq ≤ s.startseq p ∧ eseq ≥ s.endseq p) := by
      have h₁ := hord p (by simp)
      have h₂ := hz p (by simp)
      have h₃ := hl p (by simp)
      omega
    rw [List.getLast?_concat, Option.some_or, killCovered_skip tiflags initcnt hpr hp, hnext]
    exact killCovered_spec tiflags initcnt h (by simp at hlen; omega) hpos

/-- What `add` needs of a segment: it is not empty, or it is and stands at the end of the queue, and
only blocks behind it are empty. -/
structure Fits (s : ReassemblyQueue) (fifo : List ℕ) (sseq eseq : ℤ) : Prop where
  le : sseq ≤ eseq
  empty : sseq = eseq → ∀ a ∈ fifo, s.endseq a ≤ sseq
  behind : ∀ a ∈ fifo, s.startseq a = s.endseq a → eseq ≤ s.startseq a

/-- The last block ends behind all others. -/
lemma endseq_le_last (h : Queue s fifo lifo free) (hne : fifo ≠ []) :
    ∀ a ∈ fifo, s.endseq a ≤ s.endseq (fifo.getLast hne) := by
  intro a ha
  obtain ⟨l, t, rfl⟩ := (List.eq_nil_or_concat' fifo).resolve_left hne
  rw [List.getLast_concat]
  rcases List.mem_append.mp ha with ha | ha
  · have := (around h).2.1 a ha
    have := start_le_stop h (x := t) (by simp)
    omega
  · rw [List.mem_singleton.mp ha]

lemma first_le_startseq (h : Queue s fifo lifo free) (hne : fifo ≠ []) :
    ∀ a ∈ fifo, s.startseq (fifo.head hne) ≤ s.startseq a := by
  intro a ha
  obtain ⟨x, r, rfl⟩ := List.exists_cons_of_ne_nil hne
  rcases List.mem_cons.mp ha with rfl | ha
  · rfl
  · have := (gapped_cons.mp h.gapped).2.2 a ha
    have := start_le_stop h (x := x) (by simp)
    simp only [List.head_cons]
    omega

lemma head_tail_eq (h : Queue s fifo lifo free) (hne : fifo ≠ []) :
    s.head = some (fifo.head hne) ∧ s.tail = some (fifo.getLast hne) := by
  rw [h.onFifo.head_eq, h.onFifo.tail_eq, List.head?_eq_some_head hne, List.getLast?_eq_some_getLast hne]
  exact ⟨rfl, rfl⟩

/-- The segment lies behind all blocks or in front of them. -/
lemma again2_outside (fuel : ℕ) (h : Queue s fifo lifo free) (hne : fifo ≠ []) (hle : sseq ≤ eseq)
    (hz : ∀ a ∈ fifo, s.startseq a = s.endseq a → eseq ≤ s.startseq a)
    (hout : (∀ a ∈ fifo, s.endseq a ≤ sseq) ∨ ∀ a ∈ fifo, eseq ≤ s.startseq a) :
    ∃ res, again2 (fuel + 1) s sseq eseq tiflags rqflags initcnt = some res ∧
      Stacked s (fifo.map s.blk) ⟨⟨sseq, eseq⟩, tiflags⟩ res := by
  obtain ⟨hhead, htail⟩ := head_tail_eq h hne
  rw [again2, hhead, htail]
  simp only
  by_cases hend : sseq ≥ s.endseq (fifo.getLast hne)
  · rw [if_pos hend]
    have hq : Queue s (fifo ++ []) lifo free := by rwa [List.append_nil]
    have hbetween := insert_between tiflags rqflags initcnt hq hle
      (fun a ha => (endseq_le_last h hne a ha).trans hend) (by simp) hz
      (decide (sseq = s.endseq (fifo.getLast hne)))
      (by simp [List.getLast?_eq_some_getLast hne, eq_comm])
    rwa [List.append_nil, List.getLast?_eq_some_getLast hne] at hbetween
  · have hbegin : eseq ≤ s.startseq (fifo.head hne) := by
      rcases hout with hout | hout
      · exact absurd (hout _ (List.getLast_mem hne)) hend
      · exact hout _ (List.head_mem hne)
    rw [if_neg hend, if_pos hbegin]
    have hbetween := insert_between (l := []) tiflags rqflags initcnt h hle (by simp)
      (fun a ha => hbegin.trans (first_le_startseq h hne a ha)) (by simp)
      (decide (eseq = s.startseq (fifo.head hne)))
      (by simp [List.head?_eq_some_head hne, eq_comm])
    rwa [List.head?_eq_some_head hne] at hbetween

lemma again2_spec {fuel : ℕ} (h : Queue s fifo lifo free) (hne : fifo ≠ [])
    (hfits : Fits s fifo sseq eseq) (hfuel : 1 < fuel ∨ 0 < fuel ∧ ∀ a ∈ fifo, s.startseq a < eseq →
      ¬(sseq ≤ s.startseq a ∧ s.endseq a ≤ eseq)) :
    ∃ res, again2 fuel s sseq eseq tiflags rqflags initcnt = some res ∧
      Stacked s (fifo.map s.blk) ⟨⟨sseq, eseq⟩, tiflags⟩ res := by
  induction fuel generalizing s fifo lifo free tiflags initcnt with
  | zero => omega
  | succ fuel ih =>
    by_cases hout : (∀ a ∈ fifo, s.endseq a ≤ sseq) ∨ ∀ a ∈ fifo, eseq ≤ s.startseq a
    · exact again2_outside tiflags rqflags initcnt fuel h hne hfits.le hfits.behind hout
    obtain ⟨hhead, htail⟩ := head_tail_eq h hne
    have hord : ∀ a ∈ fifo, s.startseq a ≤ s.endseq a := fun a ha => start_le_stop h ha
    have hend : ¬sseq ≥ s.endseq (fifo.getLast hne) := fun hge =>
      hout (.inl fun a ha => (endseq_le_last h hne a ha).trans hge)
    have hbegin : ¬eseq ≤ s.startseq (fifo.head hne) := fun hle =>
      hout (.inr fun a ha => hle.trans (first_le_startseq h hne a ha))
    rw [again2, hhead, htail]
    simp only
    rw [if_neg hend]
    rw [if_neg hbegin]
    have hlt : sseq < eseq := by
      refine lt_of_le_of_ne hfits.le fun he => hend ?_
      exact hfits.empty he _ (List.getLast_mem hne)
    obtain ⟨l, m, r, rfl, hl, hm, hr⟩ := exists_parts sseq eseq h.gapped
    obtain ⟨hq, hp⟩ := searches h
      (fun a ha => ⟨hl a ha, ((hord a (by simp [ha])).trans (hl a ha)).trans_lt hlt⟩) hm
      (fun a ha => ⟨hlt.trans_le ((hr a ha).trans (hord a (by simp [ha]))), hr a ha⟩)
    rw [← hhead, ← htail, hq, hp, Option.bind_eq_bind, Option.bind_some, Option.bind_some]
    rcases killCovered_from tiflags initcnt h hlt hl hm hfits.behind with
      ⟨res, hres, hadd⟩ | ⟨s', m', tiflags', initcnt', altered', hres, hk⟩
    · exact ⟨res, by rw [hres]; rfl, hadd⟩
    simp only [hres, Option.bind_eq_bind, Option.bind_some]
    obtain ⟨lifo', free', hqueue⟩ := hk.queue
    have hsub : ∀ a ∈ l ++ m' ++ r, a ∈ l ++ m ++ r := by
      intro a ha
      have := hk.sub.subset (a := a)
      simp only [List.mem_append] at ha ⊢
      tauto
    have hstart : ∀ a, s'.startseq a = s.startseq a := fun a =>
      congrArg (fun b : Blk => b.start) (congrFun hk.blk a)
    have hstop : ∀ a, s'.endseq a = s.endseq a := fun a =>
      congrArg (fun b : Blk => b.stop) (congrFun hk.blk a)
    by_cases hempty : l ++ m' ++ r = []
    · -- everything was covered
      obtain ⟨rfl, rfl, rfl⟩ : l = [] ∧ m' = [] ∧ r = [] := by simpa using hempty
      have hemp : s'.empty = true := by
        have hnone : s'.head = none := hqueue.onFifo.head_eq
        rw [empty, hnone]
        rfl
      rw [if_pos hemp]
      obtain ⟨res, hres', hadd⟩ := insert_between (l := []) (r := []) tiflags' rqflags initcnt'
        hqueue hfits.le (by simp) (by simp) (by simp) false (by simp)
      exact ⟨res, hres', hk.added res hadd⟩
    have hemp : ¬s'.empty = true := by
      have hsome := List.head?_eq_some_head hempty
      rw [empty, hqueue.onFifo.head_eq, hsome]
      exact Bool.false_ne_true
    rw [if_neg hemp]
    cases altered' with
    | true =>
      rw [if_pos rfl]
      have hfits' : Fits s' (l ++ m' ++ r) sseq eseq :=
        ⟨hfits.le, fun he a ha => absurd he hlt.ne, fun a ha hz => by
          rw [hstart, hstop] at *
          exact hfits.behind a (hsub a ha) hz⟩
      have hfuel' : 0 < fuel := by
        by_contra hzero
        have hun : ∀ a ∈ m, ¬(sseq ≤ s.startseq a ∧ s.endseq a ≤ eseq) := by
          have hun := (hfuel.resolve_left (by omega)).2
          exact fun a ha => hun a (by simp [ha]) (hm a ha).2
        exact absurd (hk.kept hun) (by simp)
      have hun : ∀ a ∈ l ++ m' ++ r, s'.startseq a < eseq →
          ¬(sseq ≤ s'.startseq a ∧ s'.endseq a ≤ eseq) := by
        intro a ha hlt'
        rw [hstart] at hlt' ⊢
        rw [hstop]
        rcases List.mem_append.mp ha with ha' | ha'
        · rcases List.mem_append.mp ha' with ha' | ha'
          · have h₁ := hl a ha'
            have h₂ := hord a (by simp [ha'])
            have h₃ := hfits.behind a (by simp [ha'])
            omega
          · exact hk.uncovered a ha'
        · exact absurd hlt' (not_lt.mpr (hr a ha'))
      obtain ⟨res, hres', hadd⟩ := ih tiflags' initcnt' hqueue hempty hfits' (Or.inr ⟨hfuel', hun⟩)
      exact ⟨res, hres', hk.added res hadd⟩
    | false =>
      obtain ⟨-, rfl, rfl, rfl⟩ := hk.unaltered rfl
      rw [if_neg Bool.false_ne_true]
      refine mergeLeft_spec _ rqflags initcnt' h hlt hl hm hr hk.uncovered ?_
        fun a ha => hfits.behind a (by simp [ha])
      rintro rfl
      constructor
      · rintro rfl
        obtain ⟨q, r, rfl⟩ := List.exists_cons_of_ne_nil hempty
        exact hbegin (hr q (by simp))
      · rintro rfl
        obtain ⟨l, t, rfl⟩ := (List.eq_nil_or_concat' l).resolve_left (by simpa using hempty)
        exact hend (by simpa using hl t (by simp))

/-- A segment that is alone in the queue. -/
lemma stacked_alone {res : ReassemblyQueue × ℕ} (hq : Queue res.1 [x] [x] free) (hblk : res.1.blk x = n)
    (hflags : res.2 = n.flags) (hrcv : res.1.rcvNxt = n.advance s.rcvNxt) (hs : s.stack = []) :
    Stacked s [] n res := by
  have hin : Blk.mergedIn [] n = n := by simp [Blk.mergedIn, Blk.touching]
  have hstack : res.1.stack = [n.toRange] := by simp [stack_eq hq.toShape, hblk]
  refine ⟨⟨⟨[x], [x], free, hq, by simp [hblk, Blk.addSeg, hin]⟩, by rw [hin, hflags, Nat.or_self],
    .inl (by rw [hin, hrcv])⟩, fun _ => ?_⟩
  rw [hin, hs, hstack]
  exact .pushed (by simp)

/-- `add` makes the list of blocks `addSeg`. -/
theorem add_stacked (h : Queue s fifo lifo free) (hfits : Fits s fifo sseq eseq) :
    ∃ res, s.add sseq eseq tiflags rqflags = some res ∧
      Stacked s (fifo.map s.blk) ⟨⟨sseq, eseq⟩, tiflags⟩ res := by
  rw [add, if_neg (not_lt.mpr hfits.le)]
  by_cases hne : fifo = []
  · subst hne
    obtain rfl : lifo = [] := h.same.eq_nil
    have hhead : s.head = none := h.onFifo.head_eq
    have htop : s.top = none := h.onLifo.head_eq
    have htotal : s.total = 0 := h.total_eq
    obtain ⟨n, t, free', ht, -, -, hnc, hnlt, hs, hd⟩ := newseginfo_spec h.toShape
    rw [hhead, htop, ht]
    have hof : ∀ v, ∀ y ∈ free', Function.update t.next n v y = t.next y := by
      intro v y hy
      refine Function.update_of_ne ?_ _ _
      rintro rfl
      exact hnc hy
    have hstack : s.stack = [] := stack_eq h.toShape
    refine ⟨_, rfl, stacked_alone (x := n) ⟨⟨⟨?_, rfl, rfl, by simp⟩, ⟨?_, rfl, rfl, by simp⟩,
      hs.cached.congr (hof none), hs.cached_nodup, ?_, ?_⟩, List.Perm.refl _, ?_, ?_⟩ ?_ rfl ?_ hstack⟩
    · exact ⟨by simp, by simp, trivial⟩
    · exact ⟨by simp, by simp, trivial⟩
    · intro a ha
      have hne : a ≠ n := fun he => hnc (he ▸ ha)
      simp [hne]
    · intro a ha
      rcases ha with ha | ha | ha
      · rwa [List.mem_singleton.mp ha]
      · rwa [List.mem_singleton.mp ha]
      · exact hs.lt_fresh a (Or.inr (Or.inr ha))
    · exact Range.Gapped.cons_iff.mpr ⟨by simpa [SegData.blk] using hfits.le, ⟨by simp, by simp⟩, by simp⟩
    · simp [SegData.blk]
    · simp [SegData.blk]
    · simp [hd, Blk.advance]
  · rw [h.onFifo.head_eq, List.head?_eq_some_head hne]
    exact again2_spec tiflags rqflags 1 h hne hfits (Or.inl (by omega))

theorem add_spec (h : Queue s fifo lifo free) (hfits : Fits s fifo sseq eseq) :
    ∃ res, s.add sseq eseq tiflags rqflags = some res ∧
      Added s (fifo.map s.blk) ⟨⟨sseq, eseq⟩, tiflags⟩ res := by
  obtain ⟨res, hres, hadd⟩ := add_stacked tiflags rqflags h hfits
  exact ⟨res, hres, hadd.toAdded⟩

end ReassemblyQueue

end NetworkSimulator
