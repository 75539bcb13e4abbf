import NetworkSimulator.Sctp.Receiver
import Mathlib.Algebra.Order.Group.Nat
import Mathlib.Data.Set.Basic

/-!
# The set of received TSNs

The cumulative ack and the blocks stand for a set of TSNs. `UpdateRecvTsnBlocks` adds a TSN that is not
in the set, wherever it falls among the gaps, and the test for duplicates is membership, as long as the
highest TSN that it looks at first is not behind the cumulative ack for the TSN in question.
-/

namespace NetworkSimulator
open Library

namespace SctpReceiver
variable {s t : SctpReceiver} {c low n tsn : ℕ} {b p : RecvTsnBlock} {bs xs ys : List RecvTsnBlock}

/-- Non-empty blocks in ascending order, with a gap before each of them, the first one at `low`. -/
def Above (low : ℕ) : List RecvTsnBlock → Prop
  | [] => True
  | b :: bs => low < b.startTsn ∧ b.startTsn ≤ b.endTsn ∧ Above (b.endTsn + 1) bs

/-- The TSN after the last block. -/
def top (low : ℕ) : List RecvTsnBlock → ℕ
  | [] => low
  | b :: bs => top (b.endTsn + 1) bs

def Covered (bs : List RecvTsnBlock) (n : ℕ) : Prop :=
  ∃ b ∈ bs, b.startTsn ≤ n ∧ n ≤ b.endTsn

@[simp] lemma covered_nil : ¬Covered [] n := fun ⟨_, hb, _⟩ => absurd hb List.not_mem_nil

@[simp] lemma covered_cons :
    Covered (b :: bs) n ↔ (b.startTsn ≤ n ∧ n ≤ b.endTsn) ∨ Covered bs n := by
  simp [Covered]

@[simp] lemma covered_append : Covered (xs ++ ys) n ↔ Covered xs n ∨ Covered ys n := by
  simp [Covered, or_and_right, exists_or]

@[simp] lemma above_nil : Above low [] := trivial

@[simp] lemma above_cons :
    Above low (b :: bs) ↔ low < b.startTsn ∧ b.startTsn ≤ b.endTsn ∧ Above (b.endTsn + 1) bs :=
  Iff.rfl

@[simp] lemma top_nil : top low [] = low := rfl

@[simp] lemma top_cons : top low (b :: bs) = top (b.endTsn + 1) bs := rfl

@[simp] lemma above_append : Above low (xs ++ ys) ↔ Above low xs ∧ Above (top low xs) ys := by
  induction xs generalizing low with
  | nil => simp
  | cons x xs ih => simp [ih, and_assoc]

@[simp] lemma top_append : top low (xs ++ ys) = top (top low xs) ys := by
  induction xs generalizing low with
  | nil => rfl
  | cons x xs ih => exact ih

lemma Above.mono {low' : ℕ} (h : Above low bs) (hle : low' ≤ low) : Above low' bs := by
  cases bs with
  | nil => trivial
  | cons b bs => exact ⟨hle.trans_lt h.1, h.2⟩

lemma Above.lt_of_covered (h : Above low bs) (hn : Covered bs n) : low < n := by
  induction bs generalizing low with
  | nil => exact absurd hn covered_nil
  | cons b bs ih =>
    obtain ⟨hlt, hle, hrest⟩ := h
    rcases covered_cons.mp hn with hn | hn
    · omega
    · have := ih hrest hn
      omega

lemma Above.le_top (h : Above low bs) : low ≤ top low bs := by
  induction bs generalizing low with
  | nil => exact le_rfl
  | cons b bs ih =>
    have := ih h.2.2
    have := h.1
    have := h.2.1
    rw [top_cons]
    omega

lemma Above.separated (h : Above low bs) :
    (∀ b ∈ bs, low < b.startTsn ∧ b.startTsn ≤ b.endTsn) ∧
    bs.Pairwise fun a b => a.endTsn + 1 < b.startTsn := by
  induction bs generalizing low with
  | nil => exact ⟨fun b hb => absurd hb List.not_mem_nil, List.Pairwise.nil⟩
  | cons b bs ih =>
    obtain ⟨hlow, hb, hbs⟩ := h
    obtain ⟨hall, hpair⟩ := ih hbs
    refine ⟨fun a ha => ?_, List.pairwise_cons.mpr ⟨fun a ha => (hall a ha).1, hpair⟩⟩
    rcases List.mem_cons.mp ha with rfl | ha
    · exact ⟨hlow, hb⟩
    · have := hall a ha
      exact ⟨by omega, this.2⟩

/-- With a gap above it, the cumulative ack stays. -/
lemma updateCumAck_of_above (h : Above (c + 1) bs) : updateCumAck c bs = c := by
  cases bs with
  | nil => rfl
  | cons b bs => exact if_neg h.1.ne

/-- The cumulative ack and the blocks stand for this set, with 0 in it from the start. -/
def Has (c : ℕ) (bs : List RecvTsnBlock) (n : ℕ) : Prop :=
  n ≤ c ∨ Covered bs n

/-- A TSN in the gap before a block. -/
lemma insertTsn_gap {front : List RecvTsnBlock} {prev : Option RecvTsnBlock}
    (hfront : prev = none → front = []) (habove : Above (c + 1) (front ++ prev.toList ++ b :: bs))
    (hlow : low = top (c + 1) (front ++ prev.toList)) (hgap : low ≤ tsn ∧ tsn ≤ b.startTsn - 1) :
    ∃ c' bs', insertTsn c tsn front prev low (b :: bs) = some (c', bs') ∧ Above (c' + 1) bs' ∧
      ∀ n, Has c' bs' n ↔ Has c (front ++ prev.toList ++ b :: bs) n ∨ n = tsn := by
  have hstart : low < b.startTsn := by
    rw [above_append, ← hlow] at habove
    exact habove.2.1
  cases prev with
  | none =>
    obtain rfl := hfront rfl
    obtain rfl : low = c + 1 := hlow
    obtain ⟨-, hb, hbs⟩ : Above (c + 1) (b :: bs) := habove
    by_cases hbig : b.startTsn - 1 - (c + 1) + 1 > 1
    · by_cases hhigh : tsn = b.startTsn - 1
      · have hnew : Above (c + 1) ({ b with startTsn := tsn } :: bs) := by
          rw [above_cons]
          exact ⟨by dsimp only; omega, by dsimp only; omega, hbs⟩
        refine ⟨c, { b with startTsn := tsn } :: bs, ?_, hnew, fun n => ?_⟩
        · rw [insertTsn, if_pos hgap, if_pos hbig, if_pos hhigh]
          exact congrArg (fun c => some (c, _)) (updateCumAck_of_above hnew)
        · simp only [Has, covered_cons, List.nil_append, Option.toList_none]
          grind
      · by_cases hcum : tsn = c + 1
        · have hnew : Above (c + 1 + 1) (b :: bs) := ⟨by omega, hb, hbs⟩
          refine ⟨c + 1, b :: bs, ?_, hnew, fun n => ?_⟩
          · rw [insertTsn, if_pos hgap, if_pos hbig, if_neg hhigh, if_pos hcum, if_pos hcum]
            exact congrArg (fun c => some (c, _)) (updateCumAck_of_above hnew)
          · simp only [Has, covered_cons, List.nil_append, Option.toList_none]
            grind
        · refine ⟨c, ⟨tsn, tsn⟩ :: b :: bs, ?_, ⟨by simp; omega, le_rfl, by simp; omega, hb, hbs⟩,
            fun n => ?_⟩
          · rw [insertTsn, if_pos hgap, if_pos hbig, if_neg hhigh, if_neg hcum]
            rfl
          · simp only [Has, covered_cons, List.nil_append, Option.toList_none]
            grind
    · refine ⟨b.endTsn, bs, ?_, hbs, fun n => ?_⟩
      · rw [insertTsn, if_pos hgap, if_neg hbig, if_pos rfl]
        exact congrArg (fun c => some (c, _)) (updateCumAck_of_above hbs)
      · simp only [Has, covered_cons, List.nil_append, Option.toList_none]
        grind
  | some p =>
    simp only [Option.toList_some, above_append, top_append, above_cons, top_cons, above_nil, top_nil,
      and_true] at habove hlow
    obtain ⟨⟨hfr, hp, hpe⟩, -, hb, hbs⟩ := habove
    have hcum : c + 1 < low := by
      have := hfr.le_top
      omega
    by_cases hbig : b.startTsn - 1 - low + 1 > 1
    · by_cases hhigh : tsn = b.startTsn - 1
      · have hnew : Above (c + 1) (front ++ [p] ++ { b with startTsn := tsn } :: bs) := by
          simp only [above_append, top_append, above_cons, top_cons, above_nil, top_nil]
          exact ⟨⟨hfr, hp, hpe, trivial⟩, by omega, by omega, hbs⟩
        refine ⟨c, _, ?_, hnew, fun n => ?_⟩
        · rw [insertTsn, if_pos hgap, if_pos hbig, if_pos hhigh]
          exact congrArg (fun c => some (c, _)) (updateCumAck_of_above hnew)
        · simp only [Has, covered_append, covered_cons, covered_nil, Option.toList_some]
          grind
      · by_cases heq : tsn = low
        · have hnew : Above (c + 1) (front ++ { p with endTsn := tsn } :: b :: bs) := by
            simp only [above_append, above_cons]
            exact ⟨hfr, hp, by omega, by omega, hb, hbs⟩
          refine ⟨c, _, ?_, hnew, fun n => ?_⟩
          · rw [insertTsn, if_pos hgap, if_pos hbig, if_neg hhigh, if_pos heq, if_neg (by omega)]
            exact congrArg (fun c => some (c, _)) (updateCumAck_of_above hnew)
          · simp only [Has, covered_append, covered_cons, covered_nil, Option.toList_some]
            grind
        · refine ⟨c, front ++ [p] ++ ⟨tsn, tsn⟩ :: b :: bs, ?_, ?_, fun n => ?_⟩
          · rw [insertTsn, if_pos hgap, if_pos hbig, if_neg hhigh, if_neg heq]
            rfl
          · simp only [above_append, top_append, above_cons, top_cons, above_nil, top_nil]
            exact ⟨⟨hfr, hp, hpe, trivial⟩, by omega, le_rfl, by omega, hb, hbs⟩
          · simp only [Has, covered_append, covered_cons, covered_nil, Option.toList_some]
            grind
    · have hnew : Above (c + 1) (front ++ { p with endTsn := b.endTsn } :: bs) := by
        simp only [above_append, above_cons]
        exact ⟨hfr, hp, by omega, hbs⟩
      refine ⟨c, _, ?_, hnew, fun n => ?_⟩
      · rw [insertTsn, if_pos hgap, if_neg hbig, if_neg (by omega)]
        exact congrArg (fun c => some (c, _)) (updateCumAck_of_above hnew)
      · simp only [Has, covered_append, covered_cons, covered_nil, Option.toList_some]
        grind

/-- A TSN behind the last block. -/
lemma insertTsn_end {front : List RecvTsnBlock} {prev : Option RecvTsnBlock}
    (hfront : prev = none → front = []) (habove : Above (c + 1) (front ++ prev.toList))
    (hlow : low = top (c + 1) (front ++ prev.toList)) (hle : low ≤ tsn) :
    ∃ c' bs', insertTsn c tsn front prev low [] = some (c', bs') ∧ Above (c' + 1) bs' ∧
      ∀ n, Has c' bs' n ↔ Has c (front ++ prev.toList) n ∨ n = tsn := by
  cases prev with
  | none =>
    obtain rfl := hfront rfl
    obtain rfl : low = c + 1 := hlow
    by_cases heq : tsn = c + 1
    · refine ⟨tsn, [], ?_, trivial, fun n => ?_⟩
      · rw [insertTsn, if_pos heq, if_pos heq]
        rfl
      · simp only [Has, List.nil_append, Option.toList_none, covered_nil]
        grind
    · refine ⟨c, [⟨tsn, tsn⟩], ?_, ⟨by simp; omega, le_rfl, trivial⟩, fun n => ?_⟩
      · rw [insertTsn, if_neg heq]
        rfl
      · simp only [Has, List.nil_append, Option.toList_none, covered_cons, covered_nil]
        grind
  | some p =>
    simp only [Option.toList_some, above_append, top_append, above_cons, top_cons, above_nil, top_nil,
      and_true] at habove hlow
    obtain ⟨hfr, hp, hpe⟩ := habove
    have hcum : c + 1 < low := by
      have := hfr.le_top
      omega
    by_cases heq : tsn = low
    · refine ⟨c, front ++ [{ p with endTsn := p.endTsn + 1 }], ?_, ?_, fun n => ?_⟩
      · rw [insertTsn, if_pos heq, if_neg (by omega)]
        rfl
      · simp only [above_append, above_cons, above_nil]
        exact ⟨hfr, hp, by omega, trivial⟩
      · simp only [Has, covered_append, covered_cons, covered_nil, Option.toList_some]
        grind
    · refine ⟨c, front ++ [p] ++ [⟨tsn, tsn⟩], ?_, ?_, fun n => ?_⟩
      · rw [insertTsn, if_neg heq]
        rfl
      · simp only [above_append, top_append, above_cons, top_cons, above_nil, top_nil]
        exact ⟨⟨hfr, hp, hpe, trivial⟩, by omega, le_rfl, trivial⟩
      · simp only [Has, covered_append, covered_cons, covered_nil, Option.toList_some]
        grind

/-- A TSN that is not in the set, at or behind the gap that the walk has come to, is put in its place. -/
lemma insertTsn_spec (front : List RecvTsnBlock) (prev : Option RecvTsnBlock)
    (hfront : prev = none → front = []) (habove : Above (c + 1) (front ++ prev.toList ++ bs))
    (hlow : low = top (c + 1) (front ++ prev.toList)) (hle : low ≤ tsn) (hnew : ¬Covered bs tsn) :
    ∃ c' bs', insertTsn c tsn front prev low bs = some (c', bs') ∧ Above (c' + 1) bs' ∧
      ∀ n, Has c' bs' n ↔ Has c (front ++ prev.toList ++ bs) n ∨ n = tsn := by
  induction bs generalizing front prev low with
  | nil =>
    rw [List.append_nil] at habove ⊢
    exact insertTsn_end hfront habove hlow hle
  | cons b bs ih =>
    by_cases hgap : low ≤ tsn ∧ tsn ≤ b.startTsn - 1
    · exact insertTsn_gap hfront habove hlow hgap
    · have hshift : front ++ prev.toList ++ b :: bs = front ++ prev.toList ++ (some b).toList ++ bs := by
        simp
      rw [covered_cons, not_or] at hnew
      have hbehind : b.endTsn + 1 ≤ tsn := by omega
      rw [insertTsn]
      dsimp only
      rw [if_neg hgap, hshift]
      exact ih _ _ (fun h => absurd h (Option.some_ne_none b)) (hshift ▸ habove) (by simp) hbehind hnew.2

/-- The TSNs that the receiver has, with 0. -/
def Held (s : SctpReceiver) (n : ℕ) : Prop :=
  Has s.cumAck s.recvTsnBlockList n

/-- The blocks have their gaps, and no TSN in them is above the highest one. -/
structure Sound (s : SctpReceiver) : Prop where
  above : Above (s.cumAck + 1) s.recvTsnBlockList
  highest : ∀ n, Covered s.recvTsnBlockList n → n ≤ s.highestRecvTsn

/-- The next TSN is not held. -/
lemma Sound.not_held (h : Sound s) : ¬s.Held (s.cumAck + 1) := by
  rintro (hle | hcov)
  · omega
  · exact lt_irrefl _ (h.above.lt_of_covered hcov)

lemma inBlocks_iff (h : Above low bs) : inBlocks tsn bs = true ↔ Covered bs tsn := by
  induction bs generalizing low with
  | nil => simp [inBlocks]
  | cons b bs ih =>
    obtain ⟨-, hb, hbs⟩ := h
    rw [inBlocks, covered_cons]
    split
    · simp [*]
    · rename_i hout
      split
      · have hbelow : ¬Covered bs tsn := fun hcov => by
          have := hbs.lt_of_covered hcov
          omega
        simp [hout, hbelow]
      · rw [ih hbs]
        simp [hout]

lemma isDuplicateChunk_iff (h : Sound s) : s.isDuplicateChunk tsn = true ↔ s.Held tsn := by
  unfold isDuplicateChunk Held Has
  split
  · simp [*]
  · rename_i hcum
    split
    · rename_i hout
      have hno : ¬Covered s.recvTsnBlockList tsn := fun hcov => by
        have := h.highest tsn hcov
        omega
      simp [hcum, hno]
    · rw [inBlocks_iff h.above]
      simp [hcum]

/-- The highest TSN has not been left behind the cumulative ack. -/
def NotBehind (s : SctpReceiver) (tsn : ℕ) : Prop :=
  ¬(s.highestRecvTsn < tsn ∧ tsn ≤ s.cumAck)

instance : Decidable (s.NotBehind tsn) :=
  inferInstanceAs (Decidable ¬(s.highestRecvTsn < tsn ∧ tsn ≤ s.cumAck))

lemma isDuplicate_iff (h : Sound s) (htsn : s.NotBehind tsn) : s.isDuplicate tsn = true ↔ s.Held tsn := by
  unfold isDuplicate updateHighestTsn
  split
  · rename_i hgt
    have hno : ¬s.Held tsn := by
      rintro (hle | hcov)
      · exact htsn ⟨hgt, hle⟩
      · have := h.highest tsn hcov
        omega
    simp [hno]
  · simp [isDuplicateChunk_iff h]

/-- `UpdateRecvTsnBlocks` adds a TSN that is not held, and nothing else. -/
lemma updateRecvTsnBlocks_spec (h : Above (s.cumAck + 1) s.recvTsnBlockList) (hnew : ¬s.Held tsn) :
    ∃ c bs, s.updateRecvTsnBlocks tsn = some { s with cumAck := c, recvTsnBlockList := bs } ∧
      Above (c + 1) bs ∧ s.cumAck ≤ c ∧ ∀ n, Has c bs n ↔ s.Held n ∨ n = tsn := by
  have hgt : s.cumAck + 1 ≤ tsn := by
    by_contra hle
    exact hnew (Or.inl (by omega))
  obtain ⟨c, bs, hres, habove, hhas⟩ := insertTsn_spec [] none (fun _ => rfl) h
    rfl hgt fun hcov => hnew (Or.inr hcov)
  have hinsert : insertTsn s.cumAck tsn [] none (s.cumAck + 1) s.recvTsnBlockList = some (c, bs) := hres
  refine ⟨c, bs, ?_, habove, ?_, hhas⟩
  · rw [updateRecvTsnBlocks, hinsert]
    rfl
  · by_contra hlt
    have hheld : Has c bs (c + 1) := (hhas (c + 1)).mpr (Or.inl (Or.inl (by omega)))
    rcases hheld with hle | hcov
    · omega
    · exact lt_irrefl _ (habove.lt_of_covered hcov)

/-- The streams have no part in the TSNs. -/
structure SameTsns (s t : SctpReceiver) : Prop where
  cumAck : t.cumAck = s.cumAck
  highest : t.highestRecvTsn = s.highestRecvTsn
  blocks : t.recvTsnBlockList = s.recvTsnBlockList
  streams : t.inStreams.length = s.inStreams.length

lemma SameTsns.trans {u : SctpReceiver} (h : SameTsns s t) (h' : SameTsns t u) : SameTsns s u :=
  ⟨h'.cumAck.trans h.cumAck, h'.highest.trans h.highest, h'.blocks.trans h.blocks,
    h'.streams.trans h.streams⟩

lemma SameTsns.sound (h : SameTsns s t) (hs : Sound s) : Sound t := by
  refine ⟨?_, ?_⟩
  · rw [h.cumAck, h.blocks]
    exact hs.above
  · rw [h.highest, h.blocks]
    exact hs.highest

lemma SameTsns.held (h : SameTsns s t) : t.Held n ↔ s.Held n := by
  unfold Held
  rw [h.cumAck, h.blocks]

lemma foldl_passToUpperLayer (chunks : List DataChunk) :
    SameTsns s (chunks.foldl passToUpperLayer s) := by
  induction chunks generalizing s with
  | nil => exact ⟨rfl, rfl, rfl, rfl⟩
  | cons c cs ih =>
    have h : SameTsns s (s.passToUpperLayer c) := ⟨rfl, rfl, rfl, rfl⟩
    exact h.trans ih

lemma updateStream_same (i : ℕ) : SameTsns s (updateStream i s) := by
  unfold updateStream
  split
  · exact ⟨rfl, rfl, rfl, rfl⟩
  · have h (stream : InStream) : SameTsns s { s with inStreams := s.inStreams.set i stream } :=
      ⟨rfl, rfl, rfl, List.length_set⟩
    exact (h _).trans (foldl_passToUpperLayer _)

lemma updateAllStreams_same : SameTsns s s.updateAllStreams :=
  forLoop_keeps (P := SameTsns s) ⟨rfl, rfl, rfl, rfl⟩ fun i _ _ _ h => h.trans (updateStream_same i)

/-- An ordered chunk belongs to one of the streams of the association. -/
def HasStream (streams : List InStream) (chunk : DataChunk) : Prop :=
  chunk.unordered = true ∨ chunk.streamId < streams.length

lemma passToStream_same {chunk : DataChunk} (h : s.passToStream chunk = some t) : SameTsns s t := by
  unfold passToStream at h
  split at h
  · exact Option.some.inj h ▸ ⟨rfl, rfl, rfl, rfl⟩
  · obtain ⟨stream, -, rfl⟩ := Option.map_eq_some_iff.mp h
    exact ⟨rfl, rfl, rfl, List.length_set⟩

lemma passToStream_some {chunk : DataChunk} (h : HasStream s.inStreams chunk) :
    ∃ t, s.passToStream chunk = some t := by
  unfold passToStream
  split
  · exact ⟨_, rfl⟩
  · rename_i hordered
    rw [List.getElem?_eq_getElem (h.resolve_left hordered)]
    exact ⟨_, rfl⟩

lemma updateHighestTsn_fst : (s.updateHighestTsn tsn).1 =
    { s with highestRecvTsn := max s.highestRecvTsn tsn } := by
  unfold updateHighestTsn
  split
  · rw [max_eq_right (by omega)]
  · rw [max_eq_left (by omega)]

/-- A DATA chunk adds its TSN, when there is room for it; it fails only for want of a stream. -/
lemma processDataChunk_spec {chunk : DataChunk} (hs : Sound s) (hbehind : s.NotBehind chunk.tsn)
    (hroom : chunk.length ≤ s.myRwnd) :
    (HasStream s.inStreams chunk → ∃ t, s.processDataChunk chunk = some t) ∧
    ∀ t, s.processDataChunk chunk = some t → Sound t ∧ t.inStreams.length = s.inStreams.length ∧
      ∀ n, t.Held n ↔ s.Held n ∨ n = chunk.tsn := by
  unfold processDataChunk
  rw [if_pos hroom, updateHighestTsn_fst]
  dsimp only
  by_cases hdup : s.isDuplicate chunk.tsn = true
  · rw [if_pos hdup]
    have hheld := (isDuplicate_iff hs hbehind).mp hdup
    refine ⟨fun _ => ⟨_, rfl⟩, fun t h => ?_⟩
    obtain rfl := Option.some.inj h
    refine ⟨⟨hs.above, fun n hn => (hs.highest n hn).trans (le_max_left _ _)⟩, rfl, fun n => ?_⟩
    refine ⟨Or.inl, ?_⟩
    rintro (hn | rfl)
    · exact hn
    · exact hheld
  · rw [if_neg hdup]
    have hnew : ¬s.Held chunk.tsn := fun hheld => hdup ((isDuplicate_iff hs hbehind).mpr hheld)
    obtain ⟨c, bs, hres, habove, hle, hhas⟩ := updateRecvTsnBlocks_spec
      (s := { s with
        highestRecvTsn := max s.highestRecvTsn chunk.tsn
        myRwnd := s.myRwnd - chunk.length }) hs.above hnew
    rw [hres, Option.bind_some]
    refine ⟨fun hstream => ?_, fun t h => ?_⟩
    · obtain ⟨v, hv⟩ := passToStream_some (s := { s with
        highestRecvTsn := max s.highestRecvTsn chunk.tsn
        myRwnd := s.myRwnd - chunk.length
        cumAck := c
        recvTsnBlockList := bs }) hstream
      exact ⟨_, by rw [hv, Option.map_some]⟩
    · obtain ⟨v, hv, rfl⟩ := Option.map_eq_some_iff.mp h
      have hsame := (passToStream_same hv).trans updateAllStreams_same
      refine ⟨hsame.sound ⟨habove, fun n hn => ?_⟩, hsame.streams, fun n => hsame.held.trans (hhas n)⟩
      rcases (hhas n).mp (Or.inr hn) with (hcum | hcov) | rfl
      · have := habove.lt_of_covered hn
        dsimp only at hcum hle
        omega
      · exact (hs.highest n hcov).trans (le_max_left _ _)
      · exact le_max_right _ _

/-- The loop of `ProcessForwardTsnChunk` adds the TSNs that it goes over. -/
lemma forwardTsns_spec (tsn k : ℕ) (hs : Sound s) (hle : tsn ≤ s.cumAck + 1) :
    ∃ t, forwardTsns tsn k s = some t ∧ Sound t ∧ t.inStreams = s.inStreams ∧
      ∀ n, t.Held n ↔ s.Held n ∨ n < tsn + k := by
  induction k generalizing s tsn with
  | zero =>
    refine ⟨s, rfl, hs, rfl, fun n => ⟨Or.inl, ?_⟩⟩
    rintro (hn | hn)
    · exact hn
    · exact Or.inl (by omega)
  | succ k ih =>
    rw [forwardTsns]
    by_cases hdup : s.isDuplicateChunk tsn = true
    · rw [if_neg (by simp [hdup]), Option.bind_some]
      have hheld : tsn ≤ s.cumAck := by
        by_contra hgt
        obtain rfl : tsn = s.cumAck + 1 := by omega
        exact hs.not_held ((isDuplicateChunk_iff hs).mp hdup)
      obtain ⟨t, ht, hsound, hstreams, hhas⟩ := ih (tsn + 1) hs (by omega)
      refine ⟨t, ht, hsound, hstreams, fun n => ?_⟩
      rw [hhas, show tsn + 1 + k = tsn + (k + 1) by omega]
    · have hnew : ¬s.Held tsn := fun h => hdup ((isDuplicateChunk_iff hs).mpr h)
      obtain ⟨c, bs, hres, habove, hcum, hhas⟩ := updateRecvTsnBlocks_spec hs.above hnew
      have hgt : tsn ≤ c := by
        have hheld := (hhas tsn).mpr (Or.inr rfl)
        rcases hheld with h | h
        · exact h
        · have := habove.lt_of_covered h
          omega
      rw [if_pos (by simpa using hdup), hres, Option.bind_some]
      have hsound : Sound { s with cumAck := c, recvTsnBlockList := bs } := by
        refine ⟨habove, fun n hn => ?_⟩
        have := habove.lt_of_covered hn
        rcases (hhas n).mp (Or.inr hn) with (h | h) | rfl
        · omega
        · exact hs.highest n h
        · omega
      obtain ⟨t, ht, hsound', hstreams, hhas'⟩ := ih (tsn + 1) hsound (by dsimp only; omega)
      refine ⟨t, ht, hsound', hstreams, fun n => (hhas' n).trans ?_⟩
      have hn := hhas n
      unfold Held at hn ⊢
      dsimp only
      rw [hn]
      constructor
      · rintro ((h | rfl) | h)
        · exact Or.inl h
        · exact Or.inr (by omega)
        · exact Or.inr (by omega)
      · rintro (h | h)
        · exact Or.inl (Or.inl h)
        · exact Or.inr (by omega)

/-- FORWARD TSN adds the TSNs up to its own. -/
lemma processForwardTsnChunk_spec (hs : Sound s) (newCum : ℕ) :
    ∃ t, s.processForwardTsnChunk newCum = some t ∧ Sound t ∧
      t.inStreams.length = s.inStreams.length ∧ ∀ n, t.Held n ↔ s.Held n ∨ n ≤ newCum := by
  obtain ⟨u, hu, hsound, hstreams, hhas⟩ := forwardTsns_spec _ (newCum - s.cumAck) hs le_rfl
  have hsame : SameTsns u u.updateAllStreams := updateAllStreams_same
  refine ⟨u.updateAllStreams, ?_, hsame.sound hsound, by rw [hsame.streams, hstreams], fun n => ?_⟩
  · rw [processForwardTsnChunk, hu, Option.map_some]
  · rw [hsame.held, hhas]
    have hlow : n ≤ s.cumAck → s.Held n := Or.inl
    constructor
    · rintro (h | h)
      · exact Or.inl h
      · by_cases hn : n ≤ s.cumAck
        · exact Or.inl (hlow hn)
        · exact Or.inr (by omega)
    · rintro (h | h)
      · exact Or.inl h
      · by_cases hn : n ≤ s.cumAck
        · exact Or.inl (hlow hn)
        · exact Or.inr (by omega)

end SctpReceiver

end NetworkSimulator
