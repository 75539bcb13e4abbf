import NetworkSimulator.Sctp.SendBuffer

/-!
# The gap acks after a SACK

The walk of `ProcessGapAckBlocks` through the send buffer and the blocks in lock step, on the TSNs alone,
and what a whole SACK leaves in the send buffer.
-/

namespace NetworkSimulator
open Library

namespace SctpSender
variable {D : Type*} {c : SctpConfig} {s t u : SctpSender D} {i k p num : ℕ} {n : SendBufferNode D}
  {start stop : ℕ → ℕ} {chunk : SackChunk} {behind : ℕ → GapAckBlock} {b newCumAck : Bool}

/-- Which of the TSNs the blocks from the one in position `p` on are taken to ack. -/
def walk (start stop : ℕ → ℕ) (num : ℕ) : ℕ → List ℕ → List Bool
  | _, [] => []
  | p, t :: ts =>
    if p = num then false :: walk start stop num p ts
    else if t < start p then false :: walk start stop num p ts
    else if t ≤ stop p then true :: walk start stop num p ts
    else false :: walk start stop num (p + 1) ts

lemma walk_num (ts : List ℕ) : walk start stop num num ts = List.replicate ts.length false := by
  induction ts with
  | nil => rfl
  | cons t ts ih => rw [walk, if_pos rfl, ih, List.length_cons, List.replicate_succ]

@[simp] lemma length_walk (ts : List ℕ) : (walk start stop num p ts).length = ts.length := by
  induction ts generalizing p with
  | nil => rfl
  | cons t ts ih =>
    rw [walk]
    split_ifs
    all_goals rw [List.length_cons, List.length_cons, ih]

/-- What a block is taken to ack lies in it. -/
lemma of_walk {ts : List ℕ} {j : ℕ} {t : ℕ} (ht : ts[j]? = some t)
    (h : (walk start stop num p ts)[j]? = some true) (hp : p ≤ num) :
    ∃ q < num, start q ≤ t ∧ t ≤ stop q := by
  induction ts generalizing p j with
  | nil => simp at ht
  | cons x ts ih =>
    rw [walk] at h
    cases j with
    | zero =>
      obtain rfl : x = t := by simpa using ht
      split_ifs at h with h₁ h₂ h₃
      · simp at h
      · simp at h
      · exact ⟨p, by omega, by omega, h₃⟩
      · simp at h
    | succ j =>
      split_ifs at h
      · exact ih ht h hp
      · exact ih ht h hp
      · exact ih ht h hp
      · exact ih ht h (by omega)

/-- Of consecutive TSNs, blocks with gaps between them ack all that lie in them. -/
lemma walk_of {m t₀ j q : ℕ} (hsep : ∀ a b, a < b → b < num → stop a + 1 < start b)
    (hle : ∀ a < num, start a ≤ stop a) (hfirst : p < num → t₀ ≤ stop p + 1) (hj : j < m)
    (hpq : p ≤ q) (hq : q < num) (hin : start q ≤ t₀ + j ∧ t₀ + j ≤ stop q) :
    (walk start stop num p (List.range' t₀ m))[j]? = some true := by
  induction m generalizing p t₀ j with
  | zero => omega
  | succ m ih =>
    have hpn : p ≠ num := by omega
    have hstop := hle p (by omega)
    have hfirst := hfirst (by omega)
    rw [List.range'_succ, walk, if_neg hpn]
    cases j with
    | zero =>
      have hpq : p = q := by
        by_contra hne
        have := hsep p q (by omega) hq
        omega
      subst hpq
      rw [if_neg (by omega), if_pos (by omega)]
      rfl
    | succ j =>
      rw [show t₀ + (j + 1) = t₀ + 1 + j by omega] at hin
      split_ifs with h₁ h₂
      · exact ih (fun _ => by omega) (by omega) hpq hin
      · exact ih (fun _ => by omega) (by omega) hpq hin
      · refine ih (fun hnum => ?_) (by omega) ?_ hin
        · have := hsep p (p + 1) (by omega) hnum
          have := hle (p + 1) hnum
          omega
        · by_contra hgt
          obtain rfl : p = q := by omega
          omega

def tsns (s : SctpSender D) : List ℕ := s.sendBuffer.map fun n => n.chunk.tsn

def marks (s : SctpSender D) : List Bool := s.sendBuffer.map fun n => n.gapAcked

/-- What the gap ack blocks do not change in a node. -/
def place (n : SendBufferNode D) : DataChunk × D := (n.chunk, n.dest)

lemma Same.tsns (h : Same place s t) : t.tsns = s.tsns :=
  (h.map fun x => x.1.tsn).nodes

lemma Same.marks (h : Same face s t) : t.marks = s.marks :=
  (h.map fun x => x.2).nodes

lemma map_modify_mark {f : SendBufferNode D → SendBufferNode D} (h : ∀ n, (f n).gapAcked = b)
    (l : List (SendBufferNode D)) :
    (l.modify i f).map (fun n => n.gapAcked) = (l.map fun n => n.gapAcked).set i b := by
  refine List.ext_getElem (by simp) fun j h₁ h₂ => ?_
  simp only [List.getElem_map, List.getElem_modify, List.getElem_set]
  split
  · exact h _
  · rfl

/-- One node is marked, the rest is the same. -/
structure Marks (i : ℕ) (b : Bool) (s t : SctpSender D) : Prop where
  same : Same place s t
  marks : t.marks = s.marks.set i b

lemma Marks.of_same (h : Same label s t) (hi : s.marks[i]? = some b) : Marks i b s t := by
  refine ⟨h.map fun x => (x.1, x.2.2), ?_⟩
  obtain ⟨hlt, rfl⟩ := List.getElem?_eq_some_iff.mp hi
  rw [(h.face_of_label).marks, List.set_getElem_self]

lemma Marks.trans (h : Marks i b s t) (h' : Same label t u) : Marks i b s u :=
  ⟨h.same.trans (h'.map fun x => (x.1, x.2.2)), h'.face_of_label.marks.trans h.marks⟩

lemma Same.comp (h' : Same label s t) (h : Marks i b t u) : Marks i b s u :=
  ⟨Same.trans (h'.map fun x => (x.1, x.2.2)) h.same, by rw [h.marks, h'.face_of_label.marks]⟩

lemma Marks.modifyNode {f : SendBufferNode D → SendBufferNode D} (h : ∀ n, (f n).gapAcked = b)
    (hplace : ∀ n, place (f n) = place n) : Marks i b s (s.modifyNode i f) :=
  ⟨Same.modifyNode hplace, map_modify_mark h _⟩

/-- From position `i` on, the marks are the ones of a list. -/
structure MarksFrom (i : ℕ) (bs : List Bool) (s t : SctpSender D) : Prop where
  same : Same place s t
  marks : t.marks = s.marks.take i ++ bs

lemma MarksFrom.nil (hi : s.marks.length ≤ i) : MarksFrom i [] s s :=
  ⟨Same.refl, by rw [List.take_of_length_le hi, List.append_nil]⟩

/-- One node after the other is marked. -/
lemma Marks.cons {bs : List Bool} (h : Marks i b s t) (hi : i < s.marks.length)
    (hrest : MarksFrom (i + 1) bs t u) : MarksFrom i (b :: bs) s u := by
  refine ⟨h.same.trans hrest.same, ?_⟩
  rw [hrest.marks, h.marks, List.take_succ_eq_append_getElem (by rwa [List.length_set]),
    List.getElem_set_self, List.take_set_of_le le_rfl, List.append_assoc, List.singleton_append]

variable [DecidableEq D]

lemma unackNode_marks (hn : s.sendBuffer[i]? = some n) : Marks i false s (unackNode i n s) := by
  unfold unackNode
  split
  · exact Marks.trans (Marks.modifyNode (f := fun n => { n with gapAcked := false }) (fun _ => rfl)
      fun _ => rfl) Same.modifyDest
  · rename_i hmark
    refine Marks.of_same Same.refl ?_
    rw [SctpSender.marks, List.getElem?_map, hn]
    simpa using hmark

lemma gapAckNode_marks : Marks i true s (gapAckNode newCumAck i n s) := by
  unfold gapAckNode
  extract_lets s₁ s₂ s₃ s₄ s₅ s₆ s₇ s₈
  have h₁ : Marks i true s s₁ := Marks.modifyNode (fun _ => rfl) fun _ => rfl
  have h₂ : Same label s₁ s₂ := Same.of_eq rfl rfl
  have h₃ : Same label s₂ s₃ := Same.ite Same.modifyDest Same.refl
  have h₄ : Same label s₃ s₄ :=
    Same.ite (Same.trans (Same.modifyNode (i := i)
      (f := fun n => { n with addedToPartialBytesAcked := true }) fun _ => rfl) Same.modifyDest) Same.refl
  have h₅ : Same label s₄ s₅ := endRtt_same
  have h₆ : Same label s₅ s₆ := Same.ite Same.modifyDest Same.refl
  have h₇ : Same label s₆ s₇ := Same.of_eq rfl rfl
  have h₈ : Same label s₇ s₈ := Same.ite clearErrorCount_same Same.refl
  have h₉ : Same label s₈ (s₈.modifyNode i fun n => { n with markedForRtx := .noRtx }) :=
    Same.modifyNode fun _ => rfl
  exact h₁.trans ((((((h₂.trans h₃).trans h₄).trans h₅).trans h₆).trans h₇).trans (h₈.trans h₉))

lemma unackRest (hlen : i + k = s.sendBuffer.length) :
    MarksFrom i (List.replicate k false) s (forLoop i (i + k) (atNode unackNode) s) := by
  induction k generalizing i s with
  | zero =>
    rw [Nat.add_zero, forLoop_of_le le_rfl]
    refine MarksFrom.nil ?_
    rw [marks, List.length_map]
    omega
  | succ k ih =>
    have hi : i < s.sendBuffer.length := by omega
    have hmark : Marks i false s (atNode unackNode i s) := by
      unfold atNode
      rw [List.getElem?_eq_getElem hi]
      exact unackNode_marks (List.getElem?_eq_getElem hi)
    rw [forLoop_first (by omega), List.replicate_succ, show i + (k + 1) = i + 1 + k by omega]
    refine hmark.cons (by rw [marks, List.length_map]; exact hi) (ih ?_)
    rw [hmark.same.length]
    omega

/-- The walk through the send buffer marks what the walk through its TSNs says. -/
lemma gapAckLoop_spec {highest : ℕ} (hlen : i + k = s.sendBuffer.length)
    (hstart : ∀ q, start q = chunk.cumAck + ((chunk.gapAckBlocks[q]?).getD (behind q)).startOffset)
    (hstop : ∀ q, stop q = chunk.cumAck + ((chunk.gapAckBlocks[q]?).getD (behind q)).endOffset) :
    MarksFrom i (walk start stop chunk.numGapAckBlocks p (s.tsns.drop i)) s
      (gapAckLoop chunk behind newCumAck k i p highest s).1 := by
  induction k generalizing i p highest s with
  | zero =>
    rw [List.drop_eq_nil_of_le (by rw [tsns, List.length_map]; omega)]
    exact MarksFrom.nil (by rw [marks, List.length_map]; omega)
  | succ k ih =>
    have hi : i < s.sendBuffer.length := by omega
    have himarks : i < s.marks.length := by rwa [marks, List.length_map]
    have hdrop : s.tsns.drop i = s.sendBuffer[i].chunk.tsn :: s.tsns.drop (i + 1) := by
      rw [List.drop_eq_getElem_cons (by rwa [tsns, List.length_map])]
      simp [tsns]
    have hnote : Same label s (s.noteFirst i s.sendBuffer[i]) := noteFirst_same
    have hnode : (s.noteFirst i s.sendBuffer[i]).sendBuffer[i]? = some s.sendBuffer[i] := by
      rw [noteFirst_sendBuffer, List.getElem?_eq_getElem hi]
    have hunack : Marks i false s (unackNode i s.sendBuffer[i] (s.noteFirst i s.sendBuffer[i])) :=
      hnote.comp (unackNode_marks hnode)
    have hrec {p' highest' : ℕ} {b : Bool} {s' : SctpSender D} (h : Marks i b s s') :
        MarksFrom i (b :: walk start stop chunk.numGapAckBlocks p' (s.tsns.drop (i + 1))) s
          (gapAckLoop chunk behind newCumAck k (i + 1) p' highest' s').1 := by
      rw [← h.same.tsns]
      exact h.cons himarks (ih (by rw [h.same.length]; omega))
    rw [gapAckLoop, hdrop, walk]
    by_cases hp : p = chunk.numGapAckBlocks
    · rw [if_pos hp, if_pos hp, hp, walk_num, ← List.replicate_succ]
      have hcount : (s.tsns.drop (i + 1)).length = k := by
        rw [List.length_drop, tsns, List.length_map]
        omega
      rw [hcount]
      exact unackRest hlen
    · rw [if_neg hp, if_neg hp, List.getElem?_eq_getElem hi]
      dsimp only
      rw [← hstart, ← hstop]
      split_ifs with h₁ h₂ h₃
      · exact hrec hunack
      · exact hrec (hnote.comp gapAckNode_marks)
      · refine hrec (hnote.comp (Marks.of_same Same.refl ?_))
        rw [marks, List.getElem?_map, hnode]
        simpa using h₃
      · exact hrec hunack

lemma missingReport_same (highest : ℕ) (r : SctpSender D × Bool) :
    Same label r.1 (missingReport c newCumAck highest i r).1 := by
  unfold missingReport
  split
  · exact Same.refl
  · split
    · extract_lets s₁
      have h₁ : Same label r.1 s₁ := Same.modifyNode fun _ => rfl
      split
      · exact (h₁.trans (markChunkForRtx_same .fastRtx)).trans (Same.modifyNode fun _ => rfl)
      · exact h₁
    · exact Same.refl

/-- After the gap ack blocks, the marks are those of the walk. -/
lemma processGapAckBlocks_spec
    (hstart : ∀ q, start q = chunk.cumAck + ((chunk.gapAckBlocks[q]?).getD (behind q)).startOffset)
    (hstop : ∀ q, stop q = chunk.cumAck + ((chunk.gapAckBlocks[q]?).getD (behind q)).endOffset) :
    MarksFrom 0 (walk start stop chunk.numGapAckBlocks 0 s.tsns) s
      (s.processGapAckBlocks c chunk behind newCumAck).1 := by
  unfold processGapAckBlocks
  split
  · rename_i hnil
    have htsns : s.tsns = [] := by rw [tsns, hnil, List.map_nil]
    rw [htsns]
    exact MarksFrom.nil (by rw [marks, hnil]; exact le_rfl)
  · extract_lets s₁ r
    have h₁ : Same label s s₁ := clearFirstOutstanding_same
    have hloop : MarksFrom 0 (walk start stop chunk.numGapAckBlocks 0 (s₁.tsns.drop 0)) s₁ r.1 :=
      gapAckLoop_spec (Nat.zero_add _) hstart hstop
    have hrest : Same label r.1
        (forLoop 0 r.1.sendBuffer.length (missingReport c newCumAck r.2) (r.1, false)).1 :=
      forLoop_keeps (P := fun x : SctpSender D × Bool => Same label r.1 x.1) Same.refl
        fun _ x _ _ hx => hx.trans (missingReport_same _ x)
    have hplace : Same place s s₁ := h₁.map fun x => (x.1, x.2.2)
    refine ⟨(hplace.trans hloop.same).trans (hrest.map fun x => (x.1, x.2.2)), ?_⟩
    rw [hrest.face_of_label.marks, hloop.marks, List.drop_zero, hplace.tsns, List.take_zero, List.take_zero]

lemma ackNode_same : Same (id : SendBufferNode D → SendBufferNode D) s (s.ackNode n) := by
  unfold ackNode
  extract_lets s₁ s₂ s₃ s₄ s₅
  have h₂ : Same id s s₂ := Same.ite (Same.ite (Same.of_eq rfl rfl) (Same.of_eq rfl rfl)) Same.refl
  have h₃ : Same id s₂ s₃ := Same.ite (Same.of_eq rfl rfl) Same.refl
  have h₄ : Same id s₃ s₄ := Same.ite endRtt_same Same.refl
  have h₅ : Same id s₄ s₅ := Same.ite Same.modifyDest Same.refl
  exact (((h₂.trans h₃).trans h₄).trans h₅).trans (Same.ite clearErrorCount_same Same.refl)

lemma dequeue_spec (tsn : ℕ) (ns : List (SendBufferNode D)) (hns : s.sendBuffer = ns) :
    (dequeue tsn ns s).sendBuffer = ns.dropWhile (fun n => n.chunk.tsn ≤ tsn) ∧
    (dequeue tsn ns s).destList = s.destList := by
  induction ns generalizing s with
  | nil => exact ⟨hns, rfl⟩
  | cons n ns ih =>
    rw [dequeue]
    split
    · rename_i hle
      obtain ⟨hbuffer, hdests⟩ := ih (s := { s.ackNode n with sendBuffer := ns }) rfl
      rw [List.dropWhile_cons_of_pos (by simpa using hle)]
      exact ⟨hbuffer, hdests.trans ackNode_same.dests⟩
    · rename_i hgt
      rw [List.dropWhile_cons_of_neg (by simpa using hgt)]
      exact ⟨hns, rfl⟩

/-- After a SACK that is not out of order, the chunks behind its cumulative ack are left, with the marks of
the walk, or with the marks they had when the SACK shows no gaps. -/
lemma processSackChunk_spec (chunk : SackChunk) (behind : ℕ → GapAckBlock) (hfits : Fits c s) (hlisted : Listed s) (hcum : s.cumAckPoint ≤ chunk.cumAck)
    (hpoint : ∀ n ∈ s.sendBuffer, s.cumAckPoint < n.chunk.tsn)
    (hstart : ∀ q, start q = chunk.cumAck + ((chunk.gapAckBlocks[q]?).getD (behind q)).startOffset)
    (hstop : ∀ q, stop q = chunk.cumAck + ((chunk.gapAckBlocks[q]?).getD (behind q)).endOffset) :
    ∃ t, s.processSackChunk c chunk behind = some t ∧
      t.tsns = s.tsns.dropWhile (· ≤ chunk.cumAck) ∧
      t.marks = if chunk.numGapAckBlocks ≠ 0
        then walk start stop chunk.numGapAckBlocks 0 (s.tsns.dropWhile (· ≤ chunk.cumAck))
        else (s.sendBuffer.dropWhile fun n => n.chunk.tsn ≤ chunk.cumAck).map fun n => n.gapAcked := by
  unfold processSackChunk
  extract_lets s₁ new _ s₂ r s₃
  have h₁ : Same (id : SendBufferNode D → SendBufferNode D) s s₁ := Same.forDests fun _ _ => Same.modifyDest
  have hbuffer₁ : s₁.sendBuffer = s.sendBuffer := by simpa using h₁.nodes
  have hpoint₁ : s₁.cumAckPoint = s.cumAckPoint :=
    forDests_keeps (P := fun x => x.cumAckPoint = s.cumAckPoint) rfl fun _ _ hx => hx
  rw [if_neg (by omega)]
  have h₂ : s₂.sendBuffer = s.sendBuffer.dropWhile (fun n => n.chunk.tsn ≤ chunk.cumAck) ∧
      s₂.destList = s.destList := by
    by_cases hnew : chunk.cumAck > s₁.cumAckPoint
    · have hs₂ : s₂ = { s₁.sendBufferDequeueUpTo chunk.cumAck with cumAckPoint := chunk.cumAck } :=
        if_pos (by simpa [new] using hnew)
      obtain ⟨hbuffer, hdests⟩ := dequeue_spec chunk.cumAck
        (s := { s₁ with assocErrorCount := 0 }) s₁.sendBuffer rfl
      rw [hs₂]
      exact ⟨by rw [← hbuffer₁]; exact hbuffer, hdests.trans h₁.dests⟩
    · have hs₂ : s₂ = s₁ := if_neg (by simpa [new] using hnew)
      rw [hs₂]
      refine ⟨?_, h₁.dests⟩
      have hstays : s.sendBuffer.dropWhile (fun n => n.chunk.tsn ≤ chunk.cumAck) = s.sendBuffer := by
        refine List.dropWhile_eq_self_iff.mpr fun hne => ?_
        have := hpoint _ (List.getElem_mem (List.length_pos_iff.mpr (List.length_pos_iff.mp hne)))
        simp
        omega
      rw [hstays, hbuffer₁]
  have htsns : s₂.tsns = s.tsns.dropWhile (· ≤ chunk.cumAck) := by
    rw [tsns, h₂.1, tsns, List.dropWhile_map]
    rfl
  have hsub : ∀ n ∈ s₂.sendBuffer, n ∈ s.sendBuffer := fun n hn =>
    (List.dropWhile_suffix _).subset (h₂.1 ▸ hn)
  have hfits₂ : Fits c s₂ := fun n hn => hfits n (hsub n hn)
  have hlisted₂ : Listed s₂ := fun n hn => h₂.2 ▸ hlisted n (hsub n hn)
  have hr : Same place s₂ r.1 ∧ r.1.marks = if chunk.numGapAckBlocks ≠ 0
      then walk start stop chunk.numGapAckBlocks 0 s₂.tsns else s₂.marks := by
    by_cases hgaps : chunk.numGapAckBlocks ≠ 0
    · have hr : r = s₂.processGapAckBlocks c chunk behind new := if_pos hgaps
      have hspec : MarksFrom 0 (walk start stop chunk.numGapAckBlocks 0 s₂.tsns) s₂
          (s₂.processGapAckBlocks c chunk behind new).1 := processGapAckBlocks_spec hstart hstop
      rw [hr, if_pos hgaps]
      exact ⟨hspec.same, by rw [hspec.marks, List.take_zero, List.nil_append]⟩
    · have hr : r = (s₂, false) := if_neg hgaps
      rw [hr, if_neg hgaps]
      exact ⟨Same.refl, rfl⟩
  have h₃ : Same label r.1 s₃.advancePeerAckPoint :=
    Same.trans (Same.forDests fun _ _ => settleDest_same chunk new) (Same.of_eq rfl rfl)
  have hplace : Same place s₂ s₃.advancePeerAckPoint := hr.1.trans (h₃.map fun x => (x.1, x.2.2))
  have hfits₃ : Fits c s₃.advancePeerAckPoint :=
    hplace.all (P := fun x : DataChunk × D => x.1.length ≤ c.maxPayloadSize) hfits₂
  have hlisted₃ : Listed s₃.advancePeerAckPoint := by
    unfold Listed
    rw [hplace.dests]
    exact hplace.all (P := fun x : DataChunk × D => x.2 ∈ s₂.destList) hlisted₂
  obtain ⟨t, ht, hsame⟩ := rtxAfterSack_spec r.2 hfits₃ hlisted₃
  refine ⟨_, by rw [ht, Option.map_some], ?_, ?_⟩
  · calc t.tsns
      _ = s₃.advancePeerAckPoint.tsns := (hsame.map fun x => x.1.tsn).nodes
      _ = s₂.tsns := hplace.tsns
      _ = _ := htsns
  · calc t.marks
      _ = s₃.advancePeerAckPoint.marks := hsame.marks
      _ = r.1.marks := h₃.face_of_label.marks
      _ = _ := by rw [hr.2, htsns, marks, h₂.1]

end SctpSender

end NetworkSimulator
