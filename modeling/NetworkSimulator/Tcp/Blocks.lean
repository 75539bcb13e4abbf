import NetworkSimulator.Library.Ranges
import Mathlib.Data.Nat.Bitwise

/-!
# Blocks of sequence numbers with flags

What the reassembly queue is for: a sorted list of blocks, to which a segment is added together
with its header flags. `addSeg` replaces the blocks that touch the segment by one block. Which flags
that block gets is as the code has it: between two blocks that are both kept in part, those of the
second one are left out.
-/

namespace NetworkSimulator
open Library

/-- A block of the queue, or a segment. -/
structure Blk extends Range ℤ where
  flags : ℕ
deriving DecidableEq

namespace Blk
variable {n r : Blk} {bs ts us : List Blk}

def join (b n : Blk) : Blk := ⟨b.toRange.join n.toRange, b.flags ||| n.flags⟩

def hull (ts : List Blk) (n : Blk) : Blk := ts.foldr join n

@[simp] lemma hull_nil : hull [] n = n := rfl

@[simp] lemma hull_cons : hull (r :: ts) n = r.join (hull ts n) := rfl

/-- The block goes on behind the segment, or starts where the segment ends. -/
def Behind (n b : Blk) : Prop := n.stop < b.stop ∨ n.stop ≤ b.start

instance (n b : Blk) : Decidable (n.Behind b) := inferInstanceAs (Decidable (_ ∨ _))

/-- The segment fills the hole between a block and a later one. -/
def Bridges (n : Blk) (ts : List Blk) : Prop :=
  ∃ a ∈ ts, ∃ b ∈ ts, a.start < n.start ∧ a.stop < b.start ∧ n.Behind b

instance (n : Blk) (ts : List Blk) : Decidable (n.Bridges ts) :=
  inferInstanceAs (Decidable (∃ a ∈ ts, ∃ b ∈ ts, _))

/-- The block made of the segment `n` and the blocks `ts` that touch it. -/
def merged (ts : List Blk) (n : Blk) : Blk :=
  ⟨(hull ts n).toRange,
    (hull (if n.Bridges ts then ts.filter fun b => ¬n.Behind b else ts) n).flags⟩

def touching (bs : List Blk) (n : Blk) : List Blk :=
  bs.filter fun b => n.toRange.Touches b.toRange

/-- The block that the segment `n` ends up in. -/
def mergedIn (bs : List Blk) (n : Blk) : Blk := merged (touching bs n) n

/-- The blocks after the segment `n` has been added. -/
def addSeg (bs : List Blk) (n : Blk) : List Blk :=
  bs.filter (fun b => b.stop < n.start) ++ mergedIn bs n :: bs.filter fun b => n.stop < b.start

/-- The blocks after everything below `seq` has been taken. -/
def trimTo (bs : List Blk) (seq : ℤ) : List Blk :=
  (bs.filter fun b => seq < b.stop).map fun b => ⟨⟨max b.start seq, b.stop⟩, b.flags⟩

/-- All flags of a list of blocks. -/
def orFlags (bs : List Blk) : ℕ := bs.foldr (fun b f => b.flags ||| f) 0

def ranges (bs : List Blk) : List (Range ℤ) := bs.map toRange

@[simp] lemma ranges_nil : ranges [] = [] := rfl

@[simp] lemma ranges_cons : ranges (r :: bs) = r.toRange :: ranges bs := rfl

@[simp] lemma ranges_append : ranges (bs ++ ts) = ranges bs ++ ranges ts := List.map_append

@[simp] lemma orFlags_nil : orFlags [] = 0 := rfl

@[simp] lemma orFlags_cons : orFlags (r :: bs) = r.flags ||| orFlags bs := rfl

@[simp] lemma orFlags_append : orFlags (bs ++ ts) = orFlags bs ||| orFlags ts := by
  induction bs with
  | nil => simp
  | cons b bs ih => simp [ih, Nat.or_assoc]

lemma hull_toRange : (hull ts n).toRange = Range.hull (ranges ts) n.toRange := by
  induction ts with
  | nil => rfl
  | cons t ts ih => rw [hull_cons, ranges_cons, Range.hull_cons, ← ih]; rfl

lemma hull_flags : (hull ts n).flags = orFlags ts ||| n.flags := by
  induction ts with
  | nil => simp
  | cons t ts ih =>
    rw [hull_cons, orFlags_cons, Nat.or_assoc, ← ih]
    rfl

theorem ranges_addSeg (bs : List Blk) (n : Blk) :
    ranges (addSeg bs n) = Range.absorb (ranges bs) n.toRange := by
  have hmap : ∀ p : Range ℤ → Bool, ranges (bs.filter fun b => p b.toRange) =
      (ranges bs).filter p := fun p => by rw [ranges, ranges, List.filter_map]; rfl
  rw [addSeg, Range.absorb, ranges_append, ranges_cons, hmap fun t => t.stop < n.start,
    hmap fun t => n.stop < t.start, ← hmap fun t => n.toRange.Touches t]
  simp only [mergedIn, merged, hull_toRange, touching]

theorem ranges_trimTo (bs : List Blk) (seq : ℤ) :
    ranges (trimTo bs seq) = Range.trim (ranges bs) seq := by
  rw [ranges, ranges, trimTo, Range.trim, List.filter_map, List.map_map, List.map_map]
  rfl

/-- `trimTo` on a list that is cut at the first block that goes on behind `seq`. -/
lemma trimTo_split {l u : List Blk} {b : Blk} {seq : ℤ} (hl : ∀ a ∈ l, a.stop ≤ seq)
    (hb : seq < b.stop) (hu : ∀ a ∈ u, seq < a.start) (ho : ∀ a ∈ u, a.start ≤ a.stop) :
    trimTo (l ++ b :: u) seq = ⟨⟨max b.start seq, b.stop⟩, b.flags⟩ :: u := by
  have hkeep : (l ++ b :: u).filter (fun a => seq < a.stop) = b :: u := by
    rw [List.filter_append, List.filter_eq_nil_iff.mpr fun a ha => by simpa using hl a ha,
      List.nil_append, List.filter_eq_self]
    intro a ha
    rcases List.mem_cons.mp ha with rfl | ha
    · simpa using hb
    · simpa using (hu a ha).trans_le (ho a ha)
  rw [trimTo, hkeep, List.map_cons]
  refine congrArg _ ((List.map_congr_left fun a ha => ?_).trans (List.map_id u))
  rw [max_eq_left (hu a ha).le]
  rfl

/-- `trimTo` between two blocks. -/
lemma trimTo_between {l u : List Blk} {seq : ℤ} (hl : ∀ a ∈ l, a.stop ≤ seq)
    (hu : ∀ a ∈ u, seq < a.start) (ho : ∀ a ∈ u, a.start ≤ a.stop) : trimTo (l ++ u) seq = u := by
  have hkeep : (l ++ u).filter (fun a => seq < a.stop) = u := by
    rw [List.filter_append, List.filter_eq_nil_iff.mpr fun a ha => by simpa using hl a ha,
      List.nil_append, List.filter_eq_self]
    exact fun a ha => by simpa using (hu a ha).trans_le (ho a ha)
  rw [trimTo, hkeep]
  refine (List.map_congr_left fun a ha => ?_).trans (List.map_id u)
  rw [max_eq_left (hu a ha).le]
  rfl

lemma orFlags_start_split {l u : List Blk} {seq : ℤ} (hl : ∀ a ∈ l, a.start ≤ seq)
    (hu : ∀ a ∈ u, seq < a.start) : orFlags ((l ++ u).filter fun a => a.start ≤ seq) = orFlags l := by
  rw [List.filter_append, List.filter_eq_self.mpr fun a ha => by simpa using hl a ha,
    List.filter_eq_nil_iff.mpr fun a ha => by simpa using hu a ha, List.append_nil]

/-- `addSeg` on a list that is cut into what is below the segment, around it and above it. -/
lemma addSeg_split {l r : List Blk} (hl : ∀ b ∈ l, b.stop < n.start)
    (hm : ∀ b ∈ ts, n.toRange.Touches b.toRange) (hr : ∀ b ∈ r, n.stop < b.start)
    (hn : n.start ≤ n.stop) (ho : Range.Gapped (ranges (l ++ ts ++ r))) :
    addSeg (l ++ ts ++ r) n = l ++ merged ts n :: r ∧ mergedIn (l ++ ts ++ r) n = merged ts n := by
  obtain ⟨h₁, h₂, h₃⟩ := Range.pieces_of_split toRange hl hm hr hn
    fun b hb => ho.ordered _ (List.mem_map_of_mem hb)
  rw [addSeg, mergedIn, touching, h₁, h₂, h₃]
  exact ⟨rfl, rfl⟩

@[simp] lemma merged_nil : merged [] n = n := by simp [merged]

lemma merged_one (hr : r.start ≤ r.stop) : merged [r] n = r.join n := by
  have hnone : ¬n.Bridges [r] := by
    rintro ⟨a, ha, b, hb, -, hab, -⟩
    rw [List.mem_singleton.mp ha, List.mem_singleton.mp hb] at hab
    omega
  rw [merged, if_neg hnone]
  rfl

/-- Between two blocks the flags of the second one are left out. -/
lemma merged_two {a b : Blk} (ha : a.start < n.start) (hab : a.stop < b.start)
    (han : ¬n.Behind a) (hb : n.Behind b) (hstart : a.start ≤ b.start) (hstop : a.stop ≤ b.stop)
    (hn : n.stop ≤ b.stop) : merged [a, b] n = ⟨⟨a.start, b.stop⟩, a.flags ||| n.flags⟩ := by
  have hsome : n.Bridges [a, b] := ⟨a, by simp, b, by simp, ha, hab, hb⟩
  rw [merged, if_pos hsome]
  simp only [hull_toRange, ranges_cons, ranges_nil, Range.hull_cons, Range.hull_nil, Range.join,
    Blk.mk.injEq, Range.mk.injEq]
  refine ⟨⟨min_eq_left (le_min hstart ha.le), ?_⟩, ?_⟩
  · rw [max_eq_left hn, max_eq_right hstop]
  · simp [han, hb, join]

lemma hull_swallow : hull (ts ++ r :: us) n = hull (ts ++ us) (r.join n) := by
  have hassoc : ∀ a b c : Blk, a.join (b.join c) = b.join (a.join c) := by
    intro a b c
    simp only [join, Range.join, Blk.mk.injEq, Range.mk.injEq]
    exact ⟨⟨min_left_comm _ _ _, max_left_comm _ _ _⟩, Nat.or_left_comm _ _ _⟩
  induction ts with
  | nil =>
    rw [List.nil_append, List.nil_append, hull_cons]
    induction us with
    | nil => rfl
    | cons u us ih => rw [hull_cons, hull_cons, hassoc, ih]
  | cons t ts ih => rw [List.cons_append, List.cons_append, hull_cons, hull_cons, ih]

/-- A block that the segment covers may be taken out first, if its flags go to the segment. -/
lemma addSeg_swallow (bs us : List Blk) (h₁ : n.start ≤ r.start) (h₂ : r.stop ≤ n.stop) (hr : r.start < r.stop) :
    addSeg (bs ++ r :: us) n = addSeg (bs ++ us) ⟨n.toRange, n.flags ||| r.flags⟩ ∧
      mergedIn (bs ++ r :: us) n = mergedIn (bs ++ us) ⟨n.toRange, n.flags ||| r.flags⟩ := by
  have hjoin : r.join n = ⟨n.toRange, n.flags ||| r.flags⟩ := by
    rw [join, Range.join, min_eq_right h₁, max_eq_right h₂, Nat.or_comm]
  have htouch : n.toRange.Touches r.toRange := ⟨h₁.trans hr.le, hr.le.trans h₂⟩
  have hfront : ¬r.start < n.start := by omega
  have hbehind : ¬n.Behind r := by unfold Behind; omega
  have hbridge : ∀ ts us : List Blk, n.Bridges (ts ++ r :: us) ↔
      Bridges ⟨n.toRange, n.flags ||| r.flags⟩ (ts ++ us) := by
    intro ts us
    unfold Bridges
    constructor
    · rintro ⟨a, ha, b, hb, hlt, hab, hbb⟩
      have har : a ≠ r := by rintro rfl; exact hfront hlt
      have hbr : b ≠ r := by rintro rfl; exact hbehind hbb
      simp only [List.mem_append, List.mem_cons, har, hbr, false_or] at ha hb
      exact ⟨a, by simpa using ha, b, by simpa using hb, hlt, hab, hbb⟩
    · rintro ⟨a, ha, b, hb, hlt, hab, hbb⟩
      simp only [List.mem_append] at ha hb
      exact ⟨a, by simp; tauto, b, by simp; tauto, hlt, hab, hbb⟩
  have hmerged : ∀ ts us : List Blk, merged (ts ++ r :: us) n =
      merged (ts ++ us) ⟨n.toRange, n.flags ||| r.flags⟩ := by
    intro ts us
    rw [merged, merged, hull_swallow, hjoin]
    by_cases hb : n.Bridges (ts ++ r :: us)
    · rw [if_pos hb, if_pos ((hbridge ts us).mp hb), List.filter_append, List.filter_cons,
        if_pos (by simpa using hbehind), hull_swallow, hjoin, List.filter_append]
      rfl
    · rw [if_neg hb, if_neg fun h => hb ((hbridge ts us).mpr h), hull_swallow, hjoin]
  have hsome : touching (bs ++ r :: us) n = touching bs n ++ r :: touching us n := by
    rw [touching, List.filter_append, List.filter_cons, if_pos (by simpa using htouch)]
    rfl
  have hin : mergedIn (bs ++ r :: us) n =
      mergedIn (bs ++ us) ⟨n.toRange, n.flags ||| r.flags⟩ := by
    rw [mergedIn, mergedIn, hsome, hmerged, touching, touching, touching, ← List.filter_append]
  have hnone : ∀ p : Blk → Bool, p r = false → (bs ++ r :: us).filter p = (bs ++ us).filter p := by
    intro p hp
    simp [List.filter_cons, hp]
  rw [addSeg, addSeg, hin, hnone (fun b => b.stop < n.start) (by simpa using h₁.trans hr.le),
    hnone (fun b => n.stop < b.start) (by simpa using hr.le.trans h₂)]
  exact ⟨rfl, rfl⟩

lemma testBit_orFlags {i : ℕ} : (orFlags bs).testBit i = true ↔ ∃ b ∈ bs, b.flags.testBit i := by
  induction bs with
  | nil => simp
  | cons b bs ih => simp [ih]

/-- No flag is lost when the segment `n` is added: if it fills the hole between two blocks, the flags
of the second one are among the flags of the segment and the other blocks it touches. -/
def KeepsFlags (bs : List Blk) (n : Blk) : Prop :=
  n.Bridges (touching bs n) → ∀ b ∈ touching bs n, n.Behind b → ∀ i, b.flags.testBit i →
    n.flags.testBit i ∨ ∃ c ∈ touching bs n, ¬n.Behind c ∧ c.flags.testBit i

lemma testBit_mergedIn {i : ℕ} (h : (mergedIn bs n).flags.testBit i) :
    n.flags.testBit i ∨ ∃ b ∈ touching bs n, b.flags.testBit i := by
  rw [mergedIn, merged, hull_flags, Nat.testBit_or, Bool.or_eq_true, testBit_orFlags] at h
  rcases h with ⟨b, hb, hbi⟩ | h
  · refine Or.inr ⟨b, ?_, hbi⟩
    split at hb
    · exact List.mem_of_mem_filter hb
    · exact hb
  · exact Or.inl h

lemma mergedIn_testBit {i : ℕ} (hkeep : KeepsFlags bs n)
    (h : n.flags.testBit i ∨ ∃ b ∈ touching bs n, b.flags.testBit i) :
    (mergedIn bs n).flags.testBit i := by
  rw [mergedIn, merged, hull_flags, Nat.testBit_or, Bool.or_eq_true, testBit_orFlags]
  rcases h with h | ⟨b, hb, hbi⟩
  · exact Or.inr h
  · by_cases hbridge : n.Bridges (touching bs n)
    · rw [if_pos hbridge]
      by_cases hbehind : n.Behind b
      · rcases hkeep hbridge b hb hbehind i hbi with h | ⟨c, hc, hcb, hci⟩
        · exact Or.inr h
        · exact Or.inl ⟨c, by simp [hc, hcb], hci⟩
      · exact Or.inl ⟨b, by simp [hb, hbehind], hbi⟩
    · rw [if_neg hbridge]
      exact Or.inl ⟨b, hb, hbi⟩

/-- Every block stays on its own or touches the segment. -/
lemma mem_addSeg_or_touching {b : Blk} (hb : b ∈ bs) : b ∈ addSeg bs n ∨ b ∈ touching bs n := by
  by_cases h₁ : b.stop < n.start
  · exact Or.inl (by simp [addSeg, hb, h₁])
  · by_cases h₂ : n.stop < b.start
    · exact Or.inl (by simp [addSeg, hb, h₂])
    · have htouch : n.toRange.Touches b.toRange := ⟨not_lt.mp h₁, not_lt.mp h₂⟩
      exact Or.inr (List.mem_filter.mpr ⟨hb, decide_eq_true htouch⟩)

lemma mem_addSeg {b : Blk} (hb : b ∈ addSeg bs n) :
    b = mergedIn bs n ∨ b ∈ bs ∧ (b.stop < n.start ∨ n.stop < b.start) := by
  simp only [addSeg, List.mem_append, List.mem_cons, List.mem_filter, decide_eq_true_eq] at hb
  tauto

lemma mergedIn_mem : mergedIn bs n ∈ addSeg bs n := by simp [addSeg]

lemma mergedIn_start_le (bs : List Blk) (n : Blk) : (mergedIn bs n).start ≤ n.start := by
  simp only [mergedIn, merged, hull_toRange]
  exact Range.hull_start_le _

lemma le_mergedIn_stop (bs : List Blk) (n : Blk) : n.stop ≤ (mergedIn bs n).stop := by
  simp only [mergedIn, merged, hull_toRange]
  exact Range.le_hull_stop _

lemma mergedIn_start_le_of_touching {b : Blk} (hb : b ∈ touching bs n) : (mergedIn bs n).start ≤ b.start := by
  simp only [mergedIn, merged, hull_toRange]
  exact Range.hull_start_le_of_mem (List.mem_map_of_mem hb)

lemma stop_le_mergedIn {b : Blk} (hb : b ∈ touching bs n) : b.stop ≤ (mergedIn bs n).stop := by
  simp only [mergedIn, merged, hull_toRange]
  exact Range.stop_le_hull (List.mem_map_of_mem hb)

lemma le_mergedIn_start {x : ℤ} (hn : x ≤ n.start) (hbs : ∀ b ∈ bs, x ≤ b.start) :
    x ≤ (mergedIn bs n).start := by
  simp only [mergedIn, merged, hull_toRange]
  refine Int.le_of_sub_one_lt (Range.lt_hull_start (Int.sub_one_lt_of_le hn) fun t ht => ?_)
  obtain ⟨b, hb, rfl⟩ := List.mem_map.mp ht
  exact Int.sub_one_lt_of_le (hbs b (List.mem_of_mem_filter hb))

lemma mergedIn_stop_le {x : ℤ} (hn : n.stop ≤ x) (hbs : ∀ b ∈ bs, b.stop ≤ x) :
    (mergedIn bs n).stop ≤ x := by
  simp only [mergedIn, merged, hull_toRange]
  refine Int.le_of_lt_add_one (Range.hull_stop_lt (Int.lt_add_one_of_le hn) fun t ht => ?_)
  obtain ⟨b, hb, rfl⟩ := List.mem_map.mp ht
  exact Int.lt_add_one_of_le (hbs b (List.mem_of_mem_filter hb))

end Blk

end NetworkSimulator
