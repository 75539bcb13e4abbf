import NetworkSimulator.Tcp.ReassemblyContent

/-!
# The order of the blocks on the LIFO

A new block goes to the top of the LIFO. A segment that joins blocks of the queue leaves no new one: the
first of them in sequence order that it does not cover takes it up, and keeps its place.
-/

namespace NetworkSimulator
open Library

/-- The segment covers the block and more, so that the block is deleted. -/
def Swallows (n b : Range ℤ) : Prop := n.start ≤ b.start ∧ b.stop ≤ n.stop ∧ b ≠ n

instance (n b : Range ℤ) : Decidable (Swallows n b) := inferInstanceAs (Decidable (_ ∧ _ ∧ _))

/-- The blocks from the top of the LIFO on, before and after a segment `n` has become part of the block `m`. -/
inductive Restacked (n m : Range ℤ) (st : List (Range ℤ)) : List (Range ℤ) → Prop
  | pushed (h : ∀ b ∈ st, n.Touches b → Swallows n b) :
      Restacked n m st (m :: st.filter fun b => ¬n.Touches b)
  | joined (x : Range ℤ) (hx : x ∈ st) (htouch : n.Touches x) (hkept : ¬Swallows n x)
      (hfirst : ∀ b ∈ st, n.Touches b → ¬Swallows n b → x.start ≤ b.start) :
      Restacked n m st ((st.filter fun b => b = x ∨ ¬n.Touches b).map fun b => if b = x then m else b)

/-- A block that the segment covers may be taken out first. -/
lemma Restacked.of_filter {n m r : Range ℤ} {st st' : List (Range ℤ)}
    (h : Restacked n m (st.filter fun b => b ≠ r) st') (ht : n.Touches r) (hr : Swallows n r) :
    Restacked n m st st' := by
  have hmem : ∀ b, b ∈ st.filter (fun b => b ≠ r) ↔ b ∈ st ∧ b ≠ r := fun b => by simp
  cases h with
  | pushed h =>
    have hall : ∀ b ∈ st, n.Touches b → Swallows n b := by
      intro b hb hbt
      by_cases hbr : b = r
      · rwa [hbr]
      · exact h b ((hmem b).mpr ⟨hb, hbr⟩) hbt
    have hsame : (st.filter fun b => b ≠ r).filter (fun b => ¬n.Touches b) =
        st.filter fun b => ¬n.Touches b := by
      rw [List.filter_filter]
      refine List.filter_congr fun b _ => ?_
      by_cases hbr : b = r <;> simp [hbr, ht]
    rw [hsame]
    exact .pushed hall
  | joined x hx hxt hxk hfirst =>
    have hxr : x ≠ r := ((hmem x).mp hx).2
    have hsame : (st.filter fun b => b ≠ r).filter (fun b => b = x ∨ ¬n.Touches b) =
        st.filter fun b => b = x ∨ ¬n.Touches b := by
      rw [List.filter_filter]
      refine List.filter_congr fun b _ => ?_
      by_cases hbr : b = r
      · simp [hbr, ht, hxr.symm]
      · simp [hbr]
    rw [hsame]
    refine .joined x ((hmem x).mp hx).1 hxt hxk fun b hb hbt hbk => ?_
    exact hfirst b ((hmem b).mpr ⟨hb, fun hbr => hbk (hbr ▸ hr)⟩) hbt hbk

/-- The place of the segment is determined. -/
lemma Restacked.unique {n m : Range ℤ} {st st₁ st₂ : List (Range ℤ)} (h₁ : Restacked n m st st₁)
    (h₂ : Restacked n m st st₂) (hinj : ∀ b ∈ st, ∀ c ∈ st, b.start = c.start → b = c) : st₁ = st₂ := by
  cases h₁ with
  | pushed h₁ =>
    cases h₂ with
    | pushed h₂ => rfl
    | joined y hy hyt hyk hyfirst => exact absurd (h₁ y hy hyt) hyk
  | joined x hx hxt hxk hxfirst =>
    cases h₂ with
    | pushed h₂ => exact absurd (h₂ x hx hxt) hxk
    | joined y hy hyt hyk hyfirst =>
      obtain rfl := hinj x hx y hy (le_antisymm (hxfirst y hy hyt hyk) (hyfirst x hx hxt hxk))
      rfl

namespace ReassemblyQueue
variable {s : ReassemblyQueue} {x : ℕ} {l m r fifo lifo free : List ℕ} {sseq eseq : ℤ} {b : Range ℤ}

lemma eq_of_range_eq (h : Queue s fifo lifo free) {a c : ℕ} (ha : a ∈ fifo) (hc : c ∈ fifo)
    (he : (s.blk a).toRange = (s.blk c).toRange) : a = c := by
  by_contra hne
  obtain ⟨l, r, rfl⟩ := List.append_of_mem ha
  have hstart : s.startseq a = s.startseq c := congrArg Range.start he
  have hstop : s.endseq a = s.endseq c := congrArg Range.stop he
  obtain ⟨hord, hg⟩ := gapped_append.mp h.gapped |>.2
  have hcons := gapped_cons.mp hord
  have hac := hcons.1
  rcases List.mem_append.mp hc with hc | hc
  · have := hg c hc a (by simp)
    omega
  · have := hcons.2.2 c (by simpa [Ne.symm hne] using hc)
    omega

/-- Two blocks of the LIFO do not start at one number. -/
lemma start_injective (h : Queue s fifo lifo free) :
    ∀ b ∈ s.stack, ∀ c ∈ s.stack, b.start = c.start → b = c := by
  have hmem : ∀ d ∈ s.stack, d ∈ Blk.ranges (fifo.map s.blk) := by
    intro d hd
    rw [stack_eq h.toShape] at hd
    rw [Blk.ranges, List.map_map]
    exact (h.same.map _).mem_iff.mp hd
  intro b hb c hc he
  have hb' := h.gapped.ordered b (hmem b hb)
  have hc' := h.gapped.ordered c (hmem c hc)
  rcases h.gapped.eq_or_apart (hmem b hb) (hmem c hc) with hbc | hbc | hbc
  · exact hbc
  · omega
  · omega

lemma stack_erase (h : Queue s fifo lifo free) (hx : x ∈ fifo) :
    (lifo.erase x).map (fun a => (s.blk a).toRange) =
      s.stack.filter fun b => b ≠ (s.blk x).toRange := by
  rw [stack_eq h.toShape, List.filter_map, h.onLifo.nodup.erase_eq_filter]
  refine congrArg _ (List.filter_congr fun a ha => ?_)
  have hiff : a = x ↔ (s.blk a).toRange = (s.blk x).toRange :=
    ⟨fun he => by rw [he], eq_of_range_eq h (h.same.mem_iff.mp ha) hx⟩
  rw [Bool.eq_iff_iff]
  simp [hiff]

/-- No block touches the segment. -/
lemma restacked_none (h : Queue s (l ++ r) lifo free) (hl : ∀ a ∈ l, s.endseq a < sseq)
    (hr : ∀ a ∈ r, eseq < s.startseq a) : Restacked ⟨sseq, eseq⟩ b s.stack (b :: s.stack) := by
  have hno : ∀ c ∈ s.stack, ¬Range.Touches ⟨sseq, eseq⟩ c := by
    intro c hc
    rw [stack_eq h.toShape] at hc
    obtain ⟨a, ha, rfl⟩ := List.mem_map.mp hc
    rintro ⟨h₁, h₂⟩
    rcases List.mem_append.mp (h.same.mem_iff.mp ha) with ha | ha
    · exact absurd (hl a ha) (not_lt.mpr h₁)
    · exact absurd (hr a ha) (not_lt.mpr h₂)
  have hall : s.stack.filter (fun c => ¬Range.Touches ⟨sseq, eseq⟩ c) = s.stack :=
    List.filter_eq_self.mpr fun c hc => by simpa using hno c hc
  have hpushed : Restacked ⟨sseq, eseq⟩ b s.stack (b :: s.stack.filter fun c => ¬Range.Touches ⟨sseq, eseq⟩ c) :=
    .pushed fun c hc ht => absurd ht (hno c hc)
  rwa [hall] at hpushed

/-- The block `x` is the first one that the segment joins, and the blocks of `m` are the others. -/
lemma restacked_first (h : Queue s (l ++ x :: m ++ r) lifo free) (hl : ∀ a ∈ l, s.endseq a < sseq)
    (hm : ∀ a ∈ x :: m, sseq ≤ s.endseq a ∧ s.startseq a ≤ eseq) (hr : ∀ a ∈ r, eseq < s.startseq a)
    (hx : ¬Swallows ⟨sseq, eseq⟩ (s.blk x).toRange) :
    Restacked ⟨sseq, eseq⟩ b s.stack (s.restack x b (lifo.filter fun a => a ∉ m)) := by
  have hsplit : l ++ x :: m ++ r = l ++ x :: (m ++ r) := by simp
  have hlater : ∀ a ∈ x :: m, s.startseq x ≤ s.startseq a := by
    intro a ha
    have hcons := gapped_cons.mp (gapped_append.mp (hsplit ▸ h.gapped)).2.1
    have hxx := hcons.1
    rcases List.mem_cons.mp ha with rfl | ha
    · exact le_rfl
    · have := hcons.2.2 a (by simp [ha])
      omega
  have htouch : ∀ a ∈ lifo, Range.Touches ⟨sseq, eseq⟩ (s.blk a).toRange ↔ a ∈ x :: m := by
    intro a ha
    refine ⟨fun ⟨h₁, h₂⟩ => ?_, hm a⟩
    rcases List.mem_append.mp (h.same.mem_iff.mp ha) with ha | ha
    · rcases List.mem_append.mp ha with ha | ha
      · exact absurd (hl a ha) (not_lt.mpr h₁)
      · exact ha
    · exact absurd (hr a ha) (not_lt.mpr h₂)
  have hxmem : x ∈ l ++ x :: m ++ r := by simp
  have hxlifo : x ∈ lifo := h.same.mem_iff.mpr hxmem
  have hrange : ∀ a ∈ lifo, (s.blk a).toRange = (s.blk x).toRange ↔ a = x := fun a ha =>
    ⟨eq_of_range_eq h (h.same.mem_iff.mp ha) hxmem, fun he => by rw [he]⟩
  have hxm : x ∉ m := fun hmem => by
    have hnodup := h.onFifo.nodup
    rw [hsplit] at hnodup
    exact (List.nodup_cons.mp (List.nodup_middle.mp hnodup)).1 (by simp [hmem])
  have hjoined : Restacked ⟨sseq, eseq⟩ b s.stack ((s.stack.filter fun c =>
      c = (s.blk x).toRange ∨ ¬Range.Touches ⟨sseq, eseq⟩ c).map fun c => if c = (s.blk x).toRange then b else c) :=
    .joined (s.blk x).toRange (by rw [stack_eq h.toShape]; exact List.mem_map_of_mem hxlifo) (hm x (by simp)) hx ?_
  · have heq : (s.stack.filter fun c => c = (s.blk x).toRange ∨ ¬Range.Touches ⟨sseq, eseq⟩ c).map
        (fun c => if c = (s.blk x).toRange then b else c) = s.restack x b (lifo.filter fun a => a ∉ m) := by
      rw [stack_eq h.toShape, List.filter_map, List.map_map, restack]
      have hfilter : lifo.filter ((fun c => decide (c = (s.blk x).toRange ∨
          ¬Range.Touches ⟨sseq, eseq⟩ c)) ∘ fun a => (s.blk a).toRange) = lifo.filter fun a => a ∉ m := by
        refine List.filter_congr fun a ha => ?_
        simp only [Function.comp_apply, htouch a ha, hrange a ha, List.mem_cons, decide_eq_decide]
        constructor
        · rintro (rfl | hno)
          · exact hxm
          · exact fun hmem => hno (.inr hmem)
        · intro hno
          by_cases hax : a = x
          · exact .inl hax
          · exact .inr fun hor => hor.elim hax hno
      rw [hfilter]
      refine List.map_congr_left fun a ha => ?_
      simp only [Function.comp_apply, hrange a (List.mem_of_mem_filter ha)]
    rwa [heq] at hjoined
  · intro c hc ht _
    rw [stack_eq h.toShape] at hc
    obtain ⟨a, ha, rfl⟩ := List.mem_map.mp hc
    exact hlater a ((htouch a ha).mp ht)

/-- The segment joins only the block `x`. -/
lemma restacked_one (h : Queue s (l ++ x :: r) lifo free) (hl : ∀ a ∈ l, s.endseq a < sseq)
    (hx : sseq ≤ s.endseq x ∧ s.startseq x ≤ eseq) (hr : ∀ a ∈ r, eseq < s.startseq a)
    (hkept : ¬Swallows ⟨sseq, eseq⟩ (s.blk x).toRange) :
    Restacked ⟨sseq, eseq⟩ b s.stack (s.restack x b lifo) := by
  have hfirst := restacked_first (m := []) (b := b) (by simpa using h) hl (by simpa using hx) hr hkept
  have hall : (lifo.filter fun a => a ∉ ([] : List ℕ)) = lifo := List.filter_eq_self.mpr (by simp)
  rwa [hall] at hfirst

/-- The segment joins the blocks `p` and `q`. -/
lemma restacked_two {p q : ℕ} (h : Queue s (l ++ p :: q :: r) lifo free) (hl : ∀ a ∈ l, s.endseq a < sseq)
    (hp : sseq ≤ s.endseq p ∧ s.startseq p ≤ eseq) (hq : sseq ≤ s.endseq q ∧ s.startseq q ≤ eseq)
    (hr : ∀ a ∈ r, eseq < s.startseq a) (hkept : s.startseq p < sseq) :
    Restacked ⟨sseq, eseq⟩ b s.stack (s.restack p b (lifo.erase q)) := by
  have hfirst := restacked_first (m := [q]) (b := b) (by simpa using h) hl (by simpa using ⟨hp, hq⟩) hr
    fun hsw => absurd hsw.1 (not_le.mpr hkept)
  have hall : (lifo.filter fun a => a ∉ [q]) = lifo.erase q := by
    rw [h.onLifo.nodup.erase_eq_filter]
    refine List.filter_congr fun a _ => ?_
    rw [Bool.eq_iff_iff]
    simp
  rwa [hall] at hfirst

lemma restack_same (h : Queue s fifo lifo free) : s.restack x (s.blk x).toRange lifo = s.stack := by
  rw [stack_eq h.toShape, restack]
  refine List.map_congr_left fun a _ => ?_
  by_cases hax : a = x
  · rw [if_pos hax, hax]
  · rw [if_neg hax]

namespace Wrote
variable {t : ReassemblyQueue} {v : Blk}

lemma restack (h : Wrote s t x v) (lifo : List ℕ) : t.restack x b lifo = s.restack x b lifo := by
  refine List.map_congr_left fun a _ => ?_
  by_cases hax : a = x
  · rw [if_pos hax, if_pos hax]
  · rw [if_neg hax, if_neg hax, h.other a hax]

lemma restack_erase (h : Wrote s t x v) (hnodup : lifo.Nodup) (p : ℕ) :
    t.restack p b (lifo.erase x) = s.restack p b (lifo.erase x) := by
  refine List.map_congr_left fun a ha => ?_
  rw [h.other a (hnodup.mem_erase_iff.mp ha).1]

lemma stack (h : Wrote s t x v) (hq : Queue t fifo lifo free) : t.stack = s.restack x v.toRange lifo := by
  rw [← restack_same (x := x) hq, h.self, h.restack]

end Wrote

end ReassemblyQueue

end NetworkSimulator
