import NetworkSimulator.Sctp.GapAcks
import NetworkSimulator.Sctp.TsnBlocks

/-!
# What a SACK tells the sender

A SACK tells the sender exactly what the receiver has if, and only if, the number of gap ack blocks in its
header is the number of those that are written into it, and the offsets of these fit into 16 bits.
-/

namespace NetworkSimulator
open Library SctpReceiver

section
variable {cumAck maxDataSize size : ℕ} {b : RecvTsnBlock}

/-- A block as it is written into the chunk. -/
def encode (cumAck : ℕ) (b : RecvTsnBlock) : GapAckBlock :=
  ⟨(b.startTsn + 2 ^ 32 - cumAck) % 2 ^ 16, (b.endTsn + 2 ^ 32 - cumAck) % 2 ^ 16⟩

lemma appendGapAckBlocks_eq (bs : List RecvTsnBlock) :
    (appendGapAckBlocks maxDataSize cumAck size bs).1 =
      (bs.take ((maxDataSize - 1 - size) / 4)).map (encode cumAck) := by
  induction bs generalizing size with
  | nil => simp [appendGapAckBlocks]
  | cons b bs ih =>
    rw [appendGapAckBlocks]
    split
    · rename_i hroom
      have hcount : (maxDataSize - 1 - size) / 4 = (maxDataSize - 1 - (size + 4)) / 4 + 1 := by omega
      rw [hcount, List.take_succ_cons, List.map_cons, ← ih]
      rfl
    · have hnone : (maxDataSize - 1 - size) / 4 = 0 := by omega
      rw [hnone, List.take_zero, List.map_nil]

lemma encode_le (h : cumAck ≤ b.endTsn) : cumAck + (encode cumAck b).endOffset ≤ b.endTsn := by
  unfold encode
  dsimp only
  omega

lemma encode_eq (h : cumAck ≤ b.startTsn) (hle : b.startTsn ≤ b.endTsn) (hfit : b.endTsn - cumAck < 2 ^ 16) :
    cumAck + (encode cumAck b).startOffset = b.startTsn ∧
    cumAck + (encode cumAck b).endOffset = b.endTsn := by
  unfold encode
  dsimp only
  omega

end

namespace SctpReceiver
variable {c : SctpConfig} {r : SctpReceiver} {D : Type*}

/-- How many blocks there is room for in a SACK, after its header of 16 bytes. -/
def room (c : SctpConfig) : ℕ := (c.maxDataSize - 17) / 4

/-- The blocks that are written into a SACK. -/
def written (c : SctpConfig) (r : SctpReceiver) : List RecvTsnBlock :=
  r.recvTsnBlockList.take (room c)

lemma genSack_blocks : (r.genSack c.maxDataSize).1.gapAckBlocks = (r.written c).map (encode r.cumAck) := by
  rw [genSack, written, room]
  exact appendGapAckBlocks_eq _

/-- The sender holds the TSNs above its cumulative ack point, one after the other. -/
def Contiguous (s : SctpSender D) : Prop :=
  ∃ m, s.tsns = List.range' (s.cumAckPoint + 1) m

/-- A node of the send buffer is found at its position in the TSNs and the marks. -/
lemma exists_position {t : SctpSender D} {n : SendBufferNode D} (hn : n ∈ t.sendBuffer) :
    ∃ j : ℕ, t.tsns[j]? = some n.chunk.tsn ∧ t.marks[j]? = some n.gapAcked := by
  obtain ⟨j, hj, rfl⟩ := List.getElem_of_mem hn
  exact ⟨j, by simp [SctpSender.tsns, hj], by simp [SctpSender.marks, hj]⟩

lemma exists_node {t : SctpSender D} {j tsn : ℕ} (h : t.tsns[j]? = some tsn) :
    ∃ n ∈ t.sendBuffer, n.chunk.tsn = tsn ∧ t.marks[j]? = some n.gapAcked := by
  rw [SctpSender.tsns, List.getElem?_map, Option.map_eq_some_iff] at h
  obtain ⟨n, hn, rfl⟩ := h
  exact ⟨n, List.mem_of_getElem? hn, rfl, by rw [SctpSender.marks, List.getElem?_map, hn, Option.map_some]⟩

/-- A sender that has sent `m` chunks of the greatest length behind its cumulative ack point. -/
def probe (c : SctpConfig) (d : D) (point m : ℕ) (gapAcked : Bool) : SctpSender D where
  sendBuffer := (List.range' (point + 1) m).map fun tsn =>
    ⟨⟨c.maxPayloadSize, false, tsn, 0, tsn⟩, false, gapAcked, false, 0, 0, .noRtx, false, 1, 0, d⟩
  destList := [d]
  dest _ := ⟨0, 0, true, false, 0, 0, 0, .active, false, none, 0⟩
  primaryDest := d
  newTxDest := d
  cumAckPoint := point
  advancedPeerAckPoint := point
  highestTsnNewlyAcked := 0
  recover := 0
  peerRwnd := 0
  assocErrorCount := 0
  applyMaxBurst := false
  markedChunksPending := false
  burstLength := 0
  outStreamMode _ := .reliable
  sent := []

lemma probe_spec (d : D) (point m : ℕ) (gapAcked : Bool) :
    (probe c d point m gapAcked).Fits c ∧ (probe c d point m gapAcked).Listed ∧
    (probe c d point m gapAcked).tsns = List.range' (point + 1) m := by
  refine ⟨fun n hn => ?_, fun n hn => ?_, ?_⟩
  · obtain ⟨tsn, -, rfl⟩ := List.mem_map.mp hn
    exact le_rfl
  · obtain ⟨tsn, -, rfl⟩ := List.mem_map.mp hn
    exact List.mem_singleton_self d
  · simp [SctpSender.tsns, probe, Function.comp_def]

variable [DecidableEq D]

/-- The sender knows exactly what the receiver has, from the SACK that this one generates: whatever the
sender holds and whatever stands in the memory behind the blocks. -/
def TellsExactly (D : Type*) [DecidableEq D] (c : SctpConfig) (r : SctpReceiver) : Prop :=
  let chunk := (r.genSack c.maxDataSize).1
  chunk.numGapAckBlocks = chunk.gapAckBlocks.length ∧
  ∀ (s : SctpSender D) (behind : ℕ → GapAckBlock), s.Fits c → s.Listed → Contiguous s →
    s.cumAckPoint ≤ r.cumAck →
    ∃ t, s.processSackChunk c chunk behind = some t ∧ ∀ n ∈ t.sendBuffer,
      r.cumAck < n.chunk.tsn ∧
      (n.gapAcked = true → Covered r.recvTsnBlockList n.chunk.tsn) ∧
      (Covered (r.written c) n.chunk.tsn → n.gapAcked = true)

lemma dropWhile_range' {t₀ a m : ℕ} (h : t₀ ≤ a + 1) :
    (List.range' t₀ m).dropWhile (· ≤ a) = List.range' (a + 1) (m + t₀ - (a + 1)) := by
  induction m generalizing t₀ with
  | zero =>
    rw [show 0 + t₀ - (a + 1) = 0 by omega]
    rfl
  | succ m ih =>
    rw [List.range'_succ]
    by_cases hle : t₀ ≤ a
    · rw [List.dropWhile_cons_of_pos (by simpa using hle), ih (by omega)]
      congr 1
      omega
    · obtain rfl : t₀ = a + 1 := by omega
      rw [List.dropWhile_cons_of_neg (by simp), ← List.range'_succ]
      congr 1
      omega

/-- The first and the last TSN of a block, as they are read. -/
def readStart (chunk : SackChunk) (behind : ℕ → GapAckBlock) (q : ℕ) : ℕ :=
  chunk.cumAck + ((chunk.gapAckBlocks[q]?).getD (behind q)).startOffset

def readEnd (chunk : SackChunk) (behind : ℕ → GapAckBlock) (q : ℕ) : ℕ :=
  chunk.cumAck + ((chunk.gapAckBlocks[q]?).getD (behind q)).endOffset

/-- What is left in the send buffer, and how it is marked. -/
lemma tells_spec {s : SctpSender D} {m : ℕ} (behind : ℕ → GapAckBlock) (hfits : s.Fits c)
    (hlisted : s.Listed) (hm : s.tsns = List.range' (s.cumAckPoint + 1) m) (hcum : s.cumAckPoint ≤ r.cumAck) :
    let chunk := (r.genSack c.maxDataSize).1
    ∃ t, s.processSackChunk c chunk behind = some t ∧
      t.tsns = List.range' (r.cumAck + 1) (m + (s.cumAckPoint + 1) - (r.cumAck + 1)) ∧
      t.marks = if chunk.numGapAckBlocks ≠ 0
        then SctpSender.walk (readStart chunk behind) (readEnd chunk behind) chunk.numGapAckBlocks 0 t.tsns
        else (s.sendBuffer.dropWhile fun n => n.chunk.tsn ≤ r.cumAck).map fun n => n.gapAcked := by
  intro chunk
  have hpoint : ∀ n ∈ s.sendBuffer, s.cumAckPoint < n.chunk.tsn := by
    intro n hn
    have hmem : n.chunk.tsn ∈ s.tsns := List.mem_map_of_mem hn
    rw [hm, List.mem_range'_1] at hmem
    omega
  obtain ⟨t, ht, htsns, hmarks⟩ := SctpSender.processSackChunk_spec (c := c) chunk behind
    hfits hlisted hcum hpoint (fun _ => rfl) fun _ => rfl
  refine ⟨t, ht, ?_, ?_⟩
  · rw [htsns, hm]
    exact dropWhile_range' (a := r.cumAck) (by omega)
  · rw [hmarks, htsns]
    rfl

lemma Above.take {low k : ℕ} {bs : List RecvTsnBlock} (h : Above low bs) : Above low (bs.take k) := by
  rw [← List.take_append_drop k bs, above_append] at h
  exact h.1

/-- Blocks whose offsets fit are read as they are. -/
lemma read_eq {behind : ℕ → GapAckBlock} {q : ℕ} (hr : Above (r.cumAck + 1) r.recvTsnBlockList)
    (hfit : ∀ b ∈ r.written c, b.endTsn - r.cumAck < 2 ^ 16) (hq : q < (r.written c).length) :
    readStart (r.genSack c.maxDataSize).1 behind q = (r.written c)[q].startTsn ∧
    readEnd (r.genSack c.maxDataSize).1 behind q = (r.written c)[q].endTsn := by
  have hmem : (r.written c)[q] ∈ r.written c := List.getElem_mem hq
  have hblock := hr.take.separated.1 _ hmem
  have hread : ((r.genSack c.maxDataSize).1.gapAckBlocks[q]?).getD (behind q) =
      encode r.cumAck (r.written c)[q] := by
    rw [genSack_blocks, List.getElem?_map, List.getElem?_eq_getElem hq]
    rfl
  have hcum : (r.genSack c.maxDataSize).1.cumAck = r.cumAck := rfl
  rw [readStart, readEnd, hread, hcum]
  exact encode_eq (by omega) hblock.2 (hfit _ hmem)

lemma tellsExactly_of (hr : Above (r.cumAck + 1) r.recvTsnBlockList) (hpos : 0 < (r.written c).length)
    (hcount : (r.written c).length = r.recvTsnBlockList.length % 2 ^ 16)
    (hfit : ∀ b ∈ r.written c, b.endTsn - r.cumAck < 2 ^ 16) : r.TellsExactly D c := by
  have hnum : (r.genSack c.maxDataSize).1.numGapAckBlocks = (r.written c).length := hcount.symm
  refine ⟨by rw [hnum, genSack_blocks, List.length_map], fun s behind hfits hlisted hcont hcum => ?_⟩
  obtain ⟨m₀, hm₀⟩ := hcont
  obtain ⟨t, ht, htsns, hmarks⟩ := tells_spec behind hfits hlisted hm₀ hcum
  generalize m₀ + (s.cumAckPoint + 1) - (r.cumAck + 1) = m at htsns
  rw [hnum, if_pos (by omega)] at hmarks
  refine ⟨t, ht, fun n hn => ?_⟩
  obtain ⟨j, hj, hmark⟩ := exists_position hn
  rw [hmarks] at hmark
  have hrange : j < m ∧ r.cumAck + 1 + j = n.chunk.tsn := by
    rw [htsns, List.getElem?_eq_some_iff] at hj
    obtain ⟨hlt, heq⟩ := hj
    rw [List.length_range'] at hlt
    rw [List.getElem_range'] at heq
    exact ⟨hlt, by omega⟩
  refine ⟨by omega, fun hacked => ?_, fun hcov => ?_⟩
  · rw [hacked] at hmark
    obtain ⟨q, hq, hlow, hhigh⟩ := SctpSender.of_walk hj hmark (Nat.zero_le _)
    rw [(read_eq hr hfit hq).1] at hlow
    rw [(read_eq hr hfit hq).2] at hhigh
    exact ⟨_, List.mem_of_mem_take (List.getElem_mem hq), hlow, hhigh⟩
  · obtain ⟨b, hb, hin⟩ := hcov
    obtain ⟨q, hq, rfl⟩ := List.getElem_of_mem hb
    obtain ⟨hall, hpair⟩ := hr.take.separated
    have hwalk : (SctpSender.walk (readStart (r.genSack c.maxDataSize).1 behind)
        (readEnd (r.genSack c.maxDataSize).1 behind) (r.written c).length 0
        (List.range' (r.cumAck + 1) m))[j]? = some true := by
      refine SctpSender.walk_of ?_ ?_ ?_ hrange.1 (Nat.zero_le q) hq ?_
      · intro a b hab hb
        rw [(read_eq hr hfit (hab.trans hb)).2, (read_eq hr hfit hb).1]
        exact List.pairwise_iff_getElem.mp hpair a b (hab.trans hb) hb hab
      · intro a ha
        rw [(read_eq hr hfit ha).1, (read_eq hr hfit ha).2]
        exact (hall _ (List.getElem_mem ha)).2
      · intro h₀
        rw [(read_eq hr hfit h₀).2]
        have := hall _ (List.getElem_mem h₀)
        omega
      · rw [(read_eq hr hfit hq).1, (read_eq hr hfit hq).2]
        omega
    rw [htsns, hwalk] at hmark
    exact (Option.some.inj hmark).symm

/-- What the sender makes of the SACK when it holds `m` chunks behind the cumulative ack. -/
lemma TellsExactly.probe (h : r.TellsExactly D c) (d : D) (m : ℕ) (gapAcked : Bool) :
    ∃ t : SctpSender D, t.tsns = List.range' (r.cumAck + 1) m ∧
      (t.marks = if (r.written c).length ≠ 0
        then SctpSender.walk (readStart (r.genSack c.maxDataSize).1 fun _ => ⟨0, 0⟩)
          (readEnd (r.genSack c.maxDataSize).1 fun _ => ⟨0, 0⟩) (r.written c).length 0 t.tsns
        else List.replicate m gapAcked) ∧
      ∀ n ∈ t.sendBuffer, (n.gapAcked = true → Covered r.recvTsnBlockList n.chunk.tsn) ∧
        (Covered (r.written c) n.chunk.tsn → n.gapAcked = true) := by
  have hnum : (r.genSack c.maxDataSize).1.numGapAckBlocks = (r.written c).length := by
    rw [h.1, genSack_blocks, List.length_map]
  obtain ⟨hfits, hlisted, htsns⟩ := probe_spec (c := c) d r.cumAck m gapAcked
  obtain ⟨t, ht, hall⟩ := h.2 _ (fun _ => ⟨0, 0⟩) hfits hlisted ⟨m, htsns⟩ le_rfl
  obtain ⟨t', ht', htsns', hmarks⟩ := tells_spec (r := r) (fun _ => ⟨0, 0⟩) hfits hlisted htsns le_rfl
  obtain rfl := Option.some.inj (ht.symm.trans ht')
  refine ⟨t, ?_, ?_, fun n hn => (hall n hn).2⟩
  · rw [htsns']
    congr 1
    exact Nat.add_sub_cancel m (r.cumAck + 1)
  · rw [hmarks, hnum]
    congr 1
    have hstays : (SctpReceiver.probe c d r.cumAck m gapAcked).sendBuffer.dropWhile
        (fun n => n.chunk.tsn ≤ r.cumAck) = (SctpReceiver.probe c d r.cumAck m gapAcked).sendBuffer := by
      refine List.dropWhile_eq_self_iff.mpr fun hne => ?_
      simp [SctpReceiver.probe]
    rw [hstays]
    simp [SctpReceiver.probe, Function.comp_def]

/-- Without a block in it, a SACK leaves old gap acks. -/
lemma TellsExactly.written_pos [Nonempty D] (hr : Above (r.cumAck + 1) r.recvTsnBlockList)
    (h : r.TellsExactly D c) : 0 < (r.written c).length := by
  by_contra hnone
  obtain ⟨d⟩ := ‹Nonempty D›
  obtain ⟨t, htsns, hmarks, hall⟩ := h.probe d 1 true
  rw [if_neg (not_not.mpr (by omega))] at hmarks
  have hfirst : t.tsns[0]? = some (r.cumAck + 1) := by
    rw [htsns]
    rfl
  obtain ⟨n, hn, htsn, hmark⟩ := exists_node hfirst
  rw [hmarks] at hmark
  have hcov := (hall n hn).1 (Option.some.inj hmark).symm
  rw [htsn] at hcov
  exact lt_irrefl _ (hr.lt_of_covered hcov)

/-- An offset that does not fit falls short of the end of its block. -/
lemma TellsExactly.offset_lt [Nonempty D] (hr : Above (r.cumAck + 1) r.recvTsnBlockList)
    (h : r.TellsExactly D c) {b : RecvTsnBlock} (hb : b ∈ r.written c) : b.endTsn - r.cumAck < 2 ^ 16 := by
  by_contra hfar
  obtain ⟨d⟩ := ‹Nonempty D›
  have hblock := hr.take.separated.1 b hb
  have hpos : 0 < (r.written c).length := List.length_pos_of_mem hb
  obtain ⟨t, htsns, hmarks, hall⟩ := h.probe d (b.endTsn - r.cumAck) false
  rw [if_pos (by omega)] at hmarks
  have hlast : t.tsns[b.endTsn - r.cumAck - 1]? = some b.endTsn := by
    rw [htsns, List.getElem?_range' (by omega)]
    congr 1
    omega
  obtain ⟨n, hn, htsn, hmark⟩ := exists_node hlast
  rw [(hall n hn).2 ⟨b, hb, by omega⟩, hmarks] at hmark
  obtain ⟨q, hq, -, hend⟩ := SctpSender.of_walk hlast hmark (Nat.zero_le _)
  have hread : readEnd (r.genSack c.maxDataSize).1 (fun _ => ⟨0, 0⟩) q =
      r.cumAck + (encode r.cumAck (r.written c)[q]).endOffset := by
    rw [readEnd, genSack_blocks, List.getElem?_map, List.getElem?_eq_getElem hq]
    rfl
  rw [hread, encode] at hend
  dsimp only at hend
  omega

/-- A SACK with the blocks of the receiver tells the sender exactly what it has, if and only if a block is
written, the header counts the blocks that are written and their offsets fit into 16 bits. -/
theorem tellsExactly_iff [Nonempty D] (hr : Above (r.cumAck + 1) r.recvTsnBlockList) :
    r.TellsExactly D c ↔
      0 < (r.written c).length ∧ (r.written c).length = r.recvTsnBlockList.length % 2 ^ 16 ∧
      ∀ b ∈ r.written c, b.endTsn - r.cumAck < 2 ^ 16 := by
  refine ⟨fun h => ⟨h.written_pos hr, ?_, fun b hb => h.offset_lt hr hb⟩, ?_⟩
  · have hnum := h.1
    rw [genSack_blocks, List.length_map] at hnum
    exact hnum.symm
  · rintro ⟨hpos, hcount, hfit⟩
    exact tellsExactly_of hr hpos hcount hfit

/-- The default values, with an MTU of 1500 bytes. -/
def mtu1500 : SctpConfig := ⟨1468, 1468, 2, 4, .on, .hop, true⟩

/-- Every second TSN up to `2 * n` has arrived. -/
def everySecond (n : ℕ) : SctpReceiver where
  myRwnd := 65536
  cumAck := 0
  highestRecvTsn := 2 * n
  recvTsnBlockList := (List.range n).map fun i => ⟨2 * i + 2, 2 * i + 2⟩
  dupTsnList := []
  inStreams := []
  sackChunkNeeded := true
  delivered := []

/-- With 363 blocks, the header counts one that has not been written. -/
theorem sack_counts_unwritten_block :
    ((everySecond 363).genSack mtu1500.maxDataSize).1.numGapAckBlocks = 363 ∧
    ((everySecond 363).genSack mtu1500.maxDataSize).1.gapAckBlocks.length = 362 ∧
    ¬(everySecond 363).TellsExactly Unit mtu1500 := by
  have hnum : ((everySecond 363).genSack mtu1500.maxDataSize).1.numGapAckBlocks = 363 := by
    simp [genSack, everySecond]
  have hwritten : ((everySecond 363).genSack mtu1500.maxDataSize).1.gapAckBlocks.length = 362 := by
    rw [genSack_blocks]
    simp [written, room, everySecond, mtu1500]
  refine ⟨hnum, hwritten, fun h => ?_⟩
  have hcount := h.1
  rw [hnum, hwritten] at hcount
  exact absurd hcount (by decide)

theorem tellsExactly_two_blocks : (everySecond 2).TellsExactly Unit mtu1500 := by
  have habove : Above ((everySecond 2).cumAck + 1) (everySecond 2).recvTsnBlockList :=
    ⟨by decide, by decide, by decide, by decide, trivial⟩
  exact (tellsExactly_iff habove).mpr ⟨by decide, by decide, by decide⟩

end SctpReceiver

end NetworkSimulator
