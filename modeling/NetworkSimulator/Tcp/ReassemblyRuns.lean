import Mathlib.Data.Int.ConditionallyCompleteOrder
import NetworkSimulator.Library.Runs
import NetworkSimulator.Tcp.ReassemblyAdd

/-!
# Runs of the reassembly queue

Whatever is added to a queue and cleared from it, the queue holds exactly the sequence numbers that
were added and not cleared, once each and in order.
-/

namespace NetworkSimulator
open Library

/-- The operations that change the content of a queue. -/
inductive RqOp
  | add (sseq eseq : ℤ) (tiflags rqflags : ℕ)
  | clearto (seq : ℤ)

namespace RqOp

/-- A segment is not empty. -/
def Nonempty : RqOp → Prop
  | add sseq eseq _ _ => sseq < eseq
  | clearto _ => True

/-- The sequence numbers that should be covered after the operation. -/
def covers (c : Set ℤ) : RqOp → Set ℤ
  | add sseq eseq _ _ => c ∪ Set.Ico sseq eseq
  | clearto seq => c \ Set.Iio seq

end RqOp

/-- The queue holds exactly the sequence numbers of `c`. -/
def Content (s : ReassemblyQueue) (c : Set ℤ) : Prop :=
  ∃ fifo lifo : List ℕ,
    DList s.next s.prev s.head s.tail fifo ∧ DList s.snext s.sprev s.top s.bottom lifo ∧
    lifo.Perm fifo ∧ (∀ a ∈ fifo, s.startseq a < s.endseq a) ∧
    fifo.Pairwise (fun a b => s.endseq a < s.startseq b) ∧
    c = {x | ∃ a ∈ fifo, s.startseq a ≤ x ∧ x < s.endseq a} ∧ s.total = c.ncard

/-- The cache of free blocks before the queue is used. -/
def Cached (s : ReassemblyQueue) (free : List ℕ) : Prop :=
  Chain s.next s.freelist free ∧ free.Nodup ∧ ∀ a ∈ free, a < s.fresh

namespace ReassemblyQueue
variable {s m : ReassemblyQueue} {bs : List Blk} {free : List ℕ}

def step (s : ReassemblyQueue) : RqOp → Option (ReassemblyQueue × ℕ)
  | .add sseq eseq tiflags rqflags => s.add sseq eseq tiflags rqflags
  | .clearto seq => s.clearto seq

lemma holds_init (h : Cached m free) (rcvNxt : ℤ) : Holds (m.init rcvNxt) [] := by
  obtain ⟨hchain, hnodup, hlt⟩ := h
  refine ⟨[], [], free, ⟨⟨⟨trivial, rfl, rfl, List.nodup_nil⟩, ⟨trivial, rfl, rfl, List.nodup_nil⟩,
    hchain, hnodup, by simp, fun a ha => hlt a (by simpa using ha)⟩, List.Perm.refl _, ?_, rfl⟩, rfl⟩
  exact ⟨List.Pairwise.nil, by simp⟩

/-- A segment that is not empty fits into a queue whose blocks are not empty. -/
lemma fits_of_lt {fifo : List ℕ} {sseq eseq : ℤ} (hlt : sseq < eseq)
    (hne : ∀ b ∈ fifo.map s.blk, b.start < b.stop) : Fits s fifo sseq eseq := by
  refine ⟨hlt.le, fun he => absurd he hlt.ne, fun a ha he => ?_⟩
  exact absurd he (hne (s.blk a) (List.mem_map_of_mem ha)).ne

/-- `add` of a segment that is not empty. -/
theorem add_of_lt (h : Holds s bs) (hne : ∀ b ∈ bs, b.start < b.stop) {sseq eseq : ℤ}
    (hlt : sseq < eseq) (tiflags rqflags : ℕ) :
    ∃ res, s.add sseq eseq tiflags rqflags = some res ∧
      Added s bs ⟨⟨sseq, eseq⟩, tiflags⟩ res := by
  obtain ⟨fifo, lifo, free, hq, rfl⟩ := h
  exact add_spec tiflags rqflags hq (fits_of_lt hlt hne)

end ReassemblyQueue

namespace Blk
variable {bs ts : List Blk} {n : Blk}

lemma start_lt_stop_merged (hn : n.start < n.stop) : (merged ts n).start < (merged ts n).stop := by
  simp only [merged, hull_toRange]
  exact (Range.hull_start_le _).trans_lt (hn.trans_le (Range.le_hull_stop _))

lemma nonempty_addSeg (hbs : ∀ b ∈ bs, b.start < b.stop) (hn : n.start < n.stop) :
    ∀ b ∈ addSeg bs n, b.start < b.stop := by
  intro b hb
  rcases List.mem_append.mp hb with hb | hb
  · exact hbs b (List.mem_of_mem_filter hb)
  · rcases List.mem_cons.mp hb with rfl | hb
    · exact start_lt_stop_merged hn
    · exact hbs b (List.mem_of_mem_filter hb)

lemma nonempty_trimTo (hbs : ∀ b ∈ bs, b.start < b.stop) (seq : ℤ) :
    ∀ b ∈ trimTo bs seq, b.start < b.stop := by
  intro b hb
  obtain ⟨c, hc, rfl⟩ := List.mem_map.mp hb
  obtain ⟨hc, hlt⟩ := List.mem_filter.mp hc
  exact max_lt (hbs c hc) (by simpa using hlt)

end Blk

namespace ReassemblyQueue
variable {s m : ReassemblyQueue} {bs : List Blk} {free : List ℕ} {c : Set ℤ}

/-- The queue holds blocks that are not empty and cover `c`. -/
def Covering (s : ReassemblyQueue) (c : Set ℤ) : Prop :=
  ∃ bs, Holds s bs ∧ (∀ b ∈ bs, b.start < b.stop) ∧ Range.covered (Blk.ranges bs) = c

lemma Covering.content (h : Covering s c) : Content s c := by
  obtain ⟨_, ⟨fifo, lifo, free, hq, rfl⟩, hne, rfl⟩ := h
  have hcovered : Range.covered (Blk.ranges (fifo.map s.blk)) =
      {x | ∃ a ∈ fifo, s.startseq a ≤ x ∧ x < s.endseq a} := by
    ext x
    simp [Range.covered, Range.Contains, Blk.ranges, SegData.blk]
  refine ⟨fifo, lifo, hq.onFifo, hq.onLifo, hq.same, fun a ha => ?_, ?_, hcovered, ?_⟩
  · exact hne (s.blk a) (List.mem_map_of_mem ha)
  · have hapart := hq.gapped.apart
    rw [Blk.ranges, List.map_map, List.pairwise_map] at hapart
    exact hapart
  · rw [hq.total_eq, Range.size_eq_ncard hq.gapped]

lemma Covering.step {op : RqOp} (h : Covering s c) (hop : op.Nonempty) :
    ∃ s' flags, s.step op = some (s', flags) ∧ Covering s' (op.covers c) := by
  obtain ⟨bs, hs, hne, rfl⟩ := h
  cases op with
  | add sseq eseq tiflags rqflags =>
    obtain ⟨⟨s', flags⟩, hres, hadd⟩ := add_of_lt hs hne hop tiflags rqflags
    refine ⟨s', flags, hres, _, hadd.holds, Blk.nonempty_addSeg hne hop, ?_⟩
    rw [Blk.ranges_addSeg, Range.covered_absorb]
    rfl
  | clearto seq =>
    obtain ⟨⟨s', flags⟩, hres, hs', -⟩ := clearto_spec hs seq
    refine ⟨s', flags, hres, _, hs', Blk.nonempty_trimTo hne seq, ?_⟩
    rw [Blk.ranges_trimTo, Range.covered_trim]
    rfl

lemma cached_blank : Cached blank [] := ⟨rfl, List.nodup_nil, by simp⟩

end ReassemblyQueue

end NetworkSimulator
