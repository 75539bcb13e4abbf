import NetworkSimulator.Sctp.Sack
import Mathlib.Algebra.Order.Group.Nat
import Mathlib.Data.List.TakeWhile

/-!
# What the processing of a SACK leaves alone in the send buffer

The chunks that stay in the send buffer keep their place in it, their contents and, after the gap ack
blocks, their gap acks. Retransmission comes to an end when every chunk fits into a packet.
-/

namespace NetworkSimulator
open Library

namespace SctpSender
variable {D α β : Type*} {c : SctpConfig} {s t u : SctpSender D} {d : D} {i k : ℕ}
  {n : SendBufferNode D} {g : SendBufferNode D → α} {f : SctpDest → SctpDest}

/-- The send buffer is the same as far as `g` sees it, and the destinations are the same. -/
structure Same (g : SendBufferNode D → α) (s t : SctpSender D) : Prop where
  nodes : t.sendBuffer.map g = s.sendBuffer.map g
  dests : t.destList = s.destList

lemma Same.refl : Same g s s := ⟨rfl, rfl⟩

lemma Same.trans (h : Same g s t) (h' : Same g t u) : Same g s u :=
  ⟨h'.nodes.trans h.nodes, h'.dests.trans h.dests⟩

lemma Same.of_eq (h : t.sendBuffer = s.sendBuffer) (h' : t.destList = s.destList) : Same g s t :=
  ⟨by rw [h], h'⟩

lemma Same.map (h : Same g s t) (k : α → β) : Same (fun n => k (g n)) s t := by
  have hnodes := congrArg (List.map k) h.nodes
  rw [List.map_map, List.map_map] at hnodes
  exact ⟨hnodes, h.dests⟩

lemma Same.length (h : Same g s t) : t.sendBuffer.length = s.sendBuffer.length := by
  have hlen := congrArg List.length h.nodes
  simpa using hlen

lemma Same.mem (h : Same g s t) (hn : n ∈ t.sendBuffer) : ∃ m ∈ s.sendBuffer, g m = g n := by
  have hmem : g n ∈ t.sendBuffer.map g := List.mem_map_of_mem hn
  rw [h.nodes] at hmem
  exact List.mem_map.mp hmem

/-- A property of the nodes that `g` sees is kept. -/
lemma Same.all {P : α → Prop} (h : Same g s t) (hs : ∀ n ∈ s.sendBuffer, P (g n)) :
    ∀ n ∈ t.sendBuffer, P (g n) := by
  intro n hn
  obtain ⟨m, hm, hg⟩ := h.mem hn
  exact hg ▸ hs m hm

lemma map_modify_same {f : SendBufferNode D → SendBufferNode D} (h : ∀ n, g (f n) = g n)
    (l : List (SendBufferNode D)) : (l.modify i f).map g = l.map g := by
  refine List.ext_getElem (by simp) fun j h₁ h₂ => ?_
  simp only [List.getElem_map, List.getElem_modify]
  split
  · exact h _
  · rfl

lemma Same.modifyNode {f : SendBufferNode D → SendBufferNode D} (h : ∀ n, g (f n) = g n) :
    Same g s (s.modifyNode i f) :=
  ⟨map_modify_same h _, rfl⟩

lemma Same.ite {p : Prop} [Decidable p] (ht : Same g s t) (hu : Same g s u) :
    Same g s (if p then t else u) := by
  split
  · exact ht
  · exact hu

lemma forDests_keeps {P : SctpSender D → Prop} {f : D → SctpSender D → SctpSender D} (hs : P s)
    (h : ∀ d s, P s → P (f d s)) : P (s.forDests f) := by
  unfold forDests
  generalize s.destList = ds
  induction ds generalizing s with
  | nil => exact hs
  | cons d ds ih => exact ih (h d s hs)

lemma Same.forDests {f : D → SctpSender D → SctpSender D} (h : ∀ d s, Same g s (f d s)) :
    Same g s (s.forDests f) :=
  forDests_keeps (P := Same g s) Same.refl fun d u hu => hu.trans (h d u)

lemma Same.atNode {f : ℕ → SendBufferNode D → SctpSender D → SctpSender D}
    (h : ∀ i n s, Same g s (f i n s)) : Same g s (atNode f i s) := by
  unfold SctpSender.atNode
  split
  · exact h _ _ _
  · exact Same.refl

lemma Same.forNodes {f : ℕ → SendBufferNode D → SctpSender D → SctpSender D}
    (h : ∀ i n s, Same g s (f i n s)) : Same g s (s.forNodes f) :=
  forLoop_keeps (P := Same g s) Same.refl fun _ _ _ _ hs => hs.trans (Same.atNode h)

/-- What a SACK, once it has been read, does not change in a node. -/
def label (n : SendBufferNode D) : DataChunk × Bool × D := (n.chunk, n.gapAcked, n.dest)

/-- What a retransmission does not change in a node. -/
def face (n : SendBufferNode D) : DataChunk × Bool := (n.chunk, n.gapAcked)

lemma Same.face_of_label (h : Same label s t) : Same face s t :=
  h.map fun x => (x.1, x.2.1)

/-- Every chunk fits into a packet. -/
def Fits (c : SctpConfig) (s : SctpSender D) : Prop :=
  ∀ n ∈ s.sendBuffer, n.chunk.length ≤ c.maxPayloadSize

lemma Fits.of_same (h : Fits c s) (hsame : Same face s t) : Fits c t :=
  hsame.all (P := fun x : DataChunk × Bool => x.1.length ≤ c.maxPayloadSize) h

/-- Without a destination for them there are no marked chunks. -/
def Aimed (rtx : Option D) (s : SctpSender D) : Prop :=
  rtx = none → ∀ n ∈ s.sendBuffer, n.markedForRtx = .noRtx

lemma Aimed.of_eq {rtx : Option D} (h : Aimed rtx s) (heq : t.sendBuffer = s.sendBuffer) : Aimed rtx t :=
  fun hnone => heq ▸ h hnone

/-- The destination of every chunk is one of the list. -/
def Listed (s : SctpSender D) : Prop :=
  ∀ n ∈ s.sendBuffer, n.dest ∈ s.destList

lemma Listed.of_same (h : Listed s) (hsame : Same label s t) : Listed t := by
  unfold Listed
  rw [hsame.dests]
  exact hsame.all (P := fun x : DataChunk × Bool × D => x.2.2 ∈ s.destList) h

variable [DecidableEq D]

lemma Same.modifyDest : Same g s (s.modifyDest d f) := Same.of_eq rfl rfl

lemma clearErrorCount_same : Same g s (s.clearErrorCount d) :=
  Same.ite (Same.of_eq rfl rfl) (Same.of_eq rfl rfl)

lemma endRtt_same : Same g s (s.endRtt n) :=
  Same.ite Same.modifyDest Same.refl

lemma noteFirst_same : Same g s (s.noteFirst i n) :=
  Same.ite Same.modifyDest Same.refl

lemma noteFirst_sendBuffer : (s.noteFirst i n).sendBuffer = s.sendBuffer := by
  unfold noteFirst
  split <;> rfl

lemma skipNode_same : Same g s (s.skipNode i n) :=
  Same.ite (Same.ite Same.modifyDest Same.modifyDest) Same.refl

lemma skipNode_sendBuffer : (s.skipNode i n).sendBuffer = s.sendBuffer := by
  unfold skipNode
  split
  · split <;> rfl
  · rfl

lemma clearFirstOutstanding_same : Same g s s.clearFirstOutstanding :=
  Same.forDests fun _ _ => Same.modifyDest

lemma countMarked_same (sign : ℤ) : Same g s (s.countMarked sign) :=
  Same.forNodes fun _ _ _ => Same.ite Same.modifyDest Same.refl

lemma adjustCwnd_same : Same g s (s.adjustCwnd c d) := Same.modifyDest

lemma settleDest_same (chunk : SackChunk) (newCumAck : Bool) : Same g s (settleDest c chunk newCumAck d s) := by
  unfold settleDest
  extract_lets s₁ s₂ s₃ s₄
  have h₁ : Same g s s₁ := Same.ite adjustCwnd_same Same.refl
  have h₂ : Same g s₁ s₂ := Same.modifyDest
  have h₄ : Same g s₂ s₄ :=
    Same.ite (Same.ite (Same.of_eq rfl rfl) Same.modifyDest) Same.refl
  exact ((h₁.trans h₂).trans h₄).trans (Same.ite Same.modifyDest Same.refl)

lemma markChunkForRtx_same (mark : MarkedForRtx) : Same label s (s.markChunkForRtx i mark n) := by
  unfold markChunkForRtx
  extract_lets s₁
  have h₁ : Same label s s₁ :=
    Same.trans (Same.modifyNode (i := i) (f := fun n => { n with markedForRtx := mark }) fun _ => rfl)
      (Same.of_eq rfl rfl)
  refine h₁.trans (Same.ite ?_ (Same.ite (Same.of_eq rfl rfl) Same.refl))
  exact Same.trans (Same.modifyNode (i := i)
    (f := fun n => { n with advancedAcked := true, markedForRtx := .noRtx }) fun _ => rfl) Same.modifyDest

lemma cutWindow_same : Same g s (s.cutWindow c n) :=
  Same.ite (Same.of_eq rfl rfl) Same.refl

lemma rtxNode_same : Same face s (s.rtxNode d i n) := by
  unfold rtxNode
  extract_lets s₁ s₂ earlier s₃ s₄
  have h₁ : Same face s s₁ :=
    Same.ite (Same.trans (Same.modifyNode (i := i) (f := fun n => { n with txTimestamp := 0 })
      fun _ => rfl) Same.modifyDest) Same.refl
  have h₂ : Same face s₁ s₂ := Same.ite Same.modifyDest Same.refl
  have h₃ : Same face s₂ s₃ := Same.ite (Same.of_eq rfl rfl) Same.refl
  have h₄ : Same face s₃ s₄ := Same.modifyNode fun _ => rfl
  exact (((h₁.trans h₂).trans h₃).trans h₄).trans (Same.of_eq rfl rfl)

lemma rtxPacket_same (packet : List DataChunk) : Same g s (s.rtxPacket c d packet).1 := by
  unfold rtxPacket
  extract_lets s₁ s₂
  have h₂ : Same g s s₂ := Same.trans (Same.of_eq rfl rfl : Same g s s₁) (Same.ite Same.modifyDest Same.refl)
  split
  · split
    · exact h₂.trans (Same.of_eq rfl rfl)
    · exact h₂.trans (Same.of_eq rfl rfl)
  · exact h₂

/-- A packet takes at least the first of the chunks that are left, unless it has something in it. -/
lemma fillPacket_spec {rtx : Option D} (packet : List DataChunk) (size : ℕ) (hfits : Fits c s)
    (haim : Aimed rtx s) (hlen : i + k = s.sendBuffer.length) :
    ∃ r, fillPacket c rtx k i packet size s = some r ∧ Same face s r.1 ∧ Aimed rtx r.1 ∧
      i ≤ r.2.2.2 ∧ r.2.2.2 ≤ i + k ∧ (size = 0 → 0 < k → i < r.2.2.2) ∧
      (size < r.2.2.1 → ∃ d, rtx = some d) := by
  induction k generalizing i packet size s with
  | zero =>
    exact ⟨(s, packet, size, i), rfl, Same.refl, haim, le_rfl, le_rfl,
      fun _ h => absurd h (lt_irrefl 0), fun h => absurd h (lt_irrefl size)⟩
  | succ k ih =>
    have hi : i < s.sendBuffer.length := by omega
    have hnote : (s.noteFirst i s.sendBuffer[i]).sendBuffer = s.sendBuffer := noteFirst_sendBuffer
    have hsame : Same face s (s.noteFirst i s.sendBuffer[i]) := noteFirst_same
    have haim' : Aimed rtx (s.noteFirst i s.sendBuffer[i]) := haim.of_eq hnote
    rw [fillPacket, List.getElem?_eq_getElem hi]
    dsimp only
    by_cases hmark : s.sendBuffer[i].markedForRtx ≠ .noRtx
    · rw [if_pos hmark]
      by_cases hfull : size + s.sendBuffer[i].chunk.length > c.maxPayloadSize
      · rw [if_pos hfull]
        refine ⟨_, rfl, hsame, haim', le_rfl, by dsimp only; omega, fun hsize => ?_,
          fun h => absurd h (lt_irrefl size)⟩
        have := hfits _ (List.getElem_mem hi)
        omega
      · rw [if_neg hfull]
        obtain ⟨d, rfl⟩ : ∃ d, rtx = some d := by
          cases rtx with
          | none => exact absurd (haim rfl _ (List.getElem_mem hi)) hmark
          | some d => exact ⟨d, rfl⟩
        have hrtx : Same face s ((s.noteFirst i s.sendBuffer[i]).rtxNode d i s.sendBuffer[i]) :=
          hsame.trans rtxNode_same
        obtain ⟨r, hr, hsame', haim', hle, hlast, -, -⟩ := ih (i := i + 1)
          (packet ++ [s.sendBuffer[i].chunk]) (size + padded s.sendBuffer[i].chunk.length) (hfits.of_same hrtx)
          (fun h => absurd h (Option.some_ne_none d)) (by rw [hrtx.length]; omega)
        exact ⟨r, hr, hrtx.trans hsame', haim', by omega, by omega, fun _ _ => hle, fun _ => ⟨d, rfl⟩⟩
    · rw [if_neg hmark]
      have hskip : Same face s ((s.noteFirst i s.sendBuffer[i]).skipNode i s.sendBuffer[i]) :=
        hsame.trans skipNode_same
      obtain ⟨r, hr, hsame', haim', hle, hlast, -, hsize⟩ := ih (i := i + 1) packet size
        (hfits.of_same hskip) (haim'.of_eq skipNode_sendBuffer)
        (by rw [hskip.length]; omega)
      exact ⟨r, hr, hskip.trans hsame', haim', by omega, by omega, fun _ _ => hle, hsize⟩

/-- The retransmissions come to an end. -/
lemma rtxLoop_spec {rtx : Option D} {limit : RtxLimit} (fuel packets : ℕ) (hfits : Fits c s)
    (haim : Aimed rtx s) (hlimit : limit = .cwnd → ∃ d, rtx = some d) (hi : i ≤ s.sendBuffer.length)
    (hfuel : s.sendBuffer.length < i + fuel) :
    ∃ t, rtxLoop c limit rtx fuel i packets s = some t ∧ Same face s t := by
  induction fuel generalizing i packets s with
  | zero => omega
  | succ fuel ih =>
    obtain ⟨go, hgo, hcond⟩ : ∃ go, s.rtxGoesOn limit rtx i packets = some go ∧
        (go = true → i < s.sendBuffer.length) := by
      cases limit with
      | onePacket => exact ⟨_, rfl, fun h => (of_decide_eq_true h).2⟩
      | cwnd =>
        obtain ⟨d, rfl⟩ := hlimit rfl
        exact ⟨_, rfl, fun h => (of_decide_eq_true h).2⟩
    rw [rtxLoop, hgo, Option.bind_some]
    by_cases hgo : go = true
    · rw [if_pos hgo]
      obtain ⟨⟨u, packet, size, j⟩, hr, hsame, haim', hle, hlast, hnext, hsize⟩ := fillPacket_spec
        [] 0 hfits haim (Nat.add_sub_cancel' hi)
      have hij : i < j := hnext rfl (Nat.sub_pos_of_lt (hcond hgo))
      rw [hr, Option.bind_some]
      dsimp only at hsame haim' hlast hsize ⊢
      rw [Nat.add_sub_cancel' hi] at hlast
      by_cases hfull : size > 0
      · obtain ⟨d, rfl⟩ := hsize hfull
        rw [if_pos hfull, Option.bind_some]
        have hsent : Same face s (u.rtxPacket c d packet).1 := hsame.trans (rtxPacket_same packet)
        by_cases hstop : (u.rtxPacket c d packet).2 = true
        · rw [if_pos hstop]
          exact ⟨_, rfl, hsent⟩
        · rw [if_neg hstop]
          obtain ⟨t, ht, hsame'⟩ := ih (i := j) (packets + 1) (hfits.of_same hsent)
            (fun h => absurd h (Option.some_ne_none d)) (by rw [hsent.length]; exact hlast)
            (by rw [hsent.length]; omega)
          exact ⟨t, ht, hsent.trans hsame'⟩
      · rw [if_neg hfull]
        obtain ⟨t, ht, hsame'⟩ := ih (i := j) packets (hfits.of_same hsame) haim'
          (by rw [hsame.length]; exact hlast) (by rw [hsame.length]; omega)
        exact ⟨t, ht, hsame.trans hsame'⟩
    · rw [if_neg hgo]
      exact ⟨s, rfl, Same.refl⟩

lemma getNextDest_some (h : d ∈ s.destList) : ∃ d', s.getNextDest c d = some d' := by
  unfold getNextDest
  split
  · rename_i hnone
    rw [List.dropWhile_eq_nil_iff] at hnone
    exact absurd (hnone d h) (by simp)
  · dsimp only
    split
    · exact ⟨_, rfl⟩
    · split
      · split
        all_goals exact ⟨_, rfl⟩
      · exact ⟨_, rfl⟩

lemma rtxDest_some (h : n.dest ∈ s.destList) : ∃ d, s.rtxDest c n = some d := by
  have hnext : ∃ d, s.getNextDest c n.dest = some d := getNextDest_some h
  unfold rtxDest
  split
  · split
    · exact ⟨_, rfl⟩
    · exact hnext
  · exact hnext
  · split
    · exact ⟨_, rfl⟩
    · exact hnext

lemma firstRtxDest_some (h : Listed s) :
    ∃ rtx, s.firstRtxDest c = some rtx ∧ Aimed rtx s ∧ (s.anyMarkedChunks → ∃ d, rtx = some d) := by
  unfold firstRtxDest
  split
  · rename_i n hn
    obtain ⟨d, hd⟩ := rtxDest_some (c := c) (h n (List.mem_of_find?_eq_some hn))
    exact ⟨some d, by rw [hd]; rfl, fun h => absurd h (Option.some_ne_none d), fun _ => ⟨d, rfl⟩⟩
  · rename_i hnone
    have hunmarked : ∀ n ∈ s.sendBuffer, n.markedForRtx = .noRtx := by
      intro n hn
      simpa using List.find?_eq_none.mp hnone n hn
    refine ⟨none, rfl, fun _ => hunmarked, fun hany => ?_⟩
    obtain ⟨n, hn, hmark⟩ := List.any_eq_true.mp hany
    exact absurd (hunmarked n hn) (of_decide_eq_true hmark)

/-- Retransmission ends, and keeps the chunks and their gap acks. -/
lemma rtxMarkedChunks_spec (limit : RtxLimit) (hfits : Fits c s) (hlisted : Listed s)
    (hlimit : limit = .cwnd → s.anyMarkedChunks = true) :
    ∃ t, s.rtxMarkedChunks c limit = some t ∧ Same face s t := by
  have hreset : Same id s { s with burstLength := 0 } := Same.of_eq rfl rfl
  have hsame : Same id s { s with burstLength := 0 }.clearFirstOutstanding :=
    hreset.trans clearFirstOutstanding_same
  unfold rtxMarkedChunks
  extract_lets u
  have hbuffer : u.sendBuffer = s.sendBuffer := by simpa using hsame.nodes
  have hlist : Listed u := hlisted.of_same (hsame.map label)
  obtain ⟨rtx, hrtx, haim, hany⟩ := firstRtxDest_some (c := c) hlist
  have hcount (sign : ℤ) (v : SctpSender D) : Same id v (v.countMarked sign) := countMarked_same sign
  have hbuffer' : (u.countMarked (-1)).sendBuffer = u.sendBuffer := by simpa using (hcount (-1) u).nodes
  have hface : Same face s (u.countMarked (-1)) := (hsame.map face).trans ((hcount (-1) u).map face)
  obtain ⟨v, hv, hsame'⟩ := rtxLoop_spec (i := 0) (u.sendBuffer.length + 2) 0 (hfits.of_same hface) (haim.of_eq hbuffer')
    (fun h => hany (by rw [anyMarkedChunks, hbuffer]; exact hlimit h)) (Nat.zero_le _)
    (by rw [hbuffer']; omega)
  refine ⟨_, by rw [hrtx, Option.bind_some, hv, Option.map_some], ?_⟩
  exact (hface.trans hsame').trans (((hcount 1 v).map face).trans (Same.of_eq rfl rfl))

lemma fastRtx_spec (hfits : Fits c s) (hlisted : Listed s) :
    ∃ t, s.fastRtx c = some t ∧ Same face s t := by
  unfold fastRtx
  extract_lets u v
  have hu : Same id s u := Same.forDests fun _ _ => Same.modifyDest
  have hv : Same id u v := Same.forNodes fun _ _ _ => cutWindow_same
  have hsame : Same id s v := hu.trans hv
  split
  · obtain ⟨t, ht, hsame'⟩ := rtxMarkedChunks_spec (c := c) .onePacket
      (hfits.of_same (hsame.map face)) (hlisted.of_same (hsame.map label)) (fun h => by cases h)
    exact ⟨t, ht, (hsame.map face).trans hsame'⟩
  · exact ⟨v, rfl, hsame.map face⟩

lemma rtxAfterSack_spec (fastRtxNeeded : Bool) (hfits : Fits c s) (hlisted : Listed s) :
    ∃ t, s.rtxAfterSack c fastRtxNeeded = some t ∧ Same face s t := by
  unfold rtxAfterSack
  split
  · exact fastRtx_spec hfits hlisted
  · extract_lets u
    have hpending : Same face s u := Same.of_eq rfl rfl
    split
    · rename_i hany
      obtain ⟨t, ht, hsame⟩ := rtxMarkedChunks_spec (c := c) .cwnd
        (s := u) hfits hlisted fun _ => hany
      exact ⟨t, ht, hpending.trans hsame⟩
    · exact ⟨u, rfl, hpending⟩

end SctpSender

end NetworkSimulator
