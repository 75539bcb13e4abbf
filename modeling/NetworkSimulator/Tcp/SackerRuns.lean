import NetworkSimulator.Library.Runs
import NetworkSimulator.Tcp.AckerWindow

/-!
# The SACK blocks of a sink

The history of a `Sacker` consists of different runs of received packets, each with a hole on both sides, as
long as no duplicate finds its run in the entry just behind the part of the history that is looked at.
-/

namespace NetworkSimulator
open Library

/-- A packet is in a block. -/
def SackBlock.Contains (b : SackBlock) (p : ℕ) : Prop :=
  b.left ≤ p ∧ p < b.right

/-- A block lies inside another one. -/
def SackBlock.Covers (recent b : SackBlock) : Prop :=
  recent.left ≤ b.left ∧ recent.right ≥ b.right

instance (recent b : SackBlock) : Decidable (recent.Covers b) :=
  inferInstanceAs (Decidable (_ ∧ _))

namespace Sacker
variable {s : Sacker} {a a' : Acker} {st st' : ℕ → ℕ} {next seq numBytes p : ℕ} {e e' recent : SackBlock}
  {rest blocks : List SackBlock}

/-- A run of received packets above the next one expected, with a hole on both sides. -/
def IsRun (st : ℕ → ℕ) (next : ℕ) (e : SackBlock) : Prop :=
  ∃ l r : ℕ, e = ⟨l, r⟩ ∧ next < l ∧ l < r ∧ st (l - 1) = 0 ∧ st r = 0 ∧ ∀ p, l ≤ p → p < r → st p ≠ 0

lemma IsRun.eq (he : IsRun st next e) (he' : IsRun st next e') (hp : e.Contains p) (hp' : e'.Contains p) :
    e = e' := by
  obtain ⟨l, r, rfl, hl, hlr, hleft, hright, hall⟩ := he
  obtain ⟨l', r', rfl, hl', hlr', hleft', hright', hall'⟩ := he'
  simp only [SackBlock.Contains, Nat.cast_le, Nat.cast_lt] at hp hp'
  have hll : l = l' := by
    rcases Nat.lt_trichotomy l l' with hlt | heq | hlt
    · exact absurd hleft' (hall (l' - 1) (by omega) (by omega))
    · exact heq
    · exact absurd hleft (hall' (l - 1) (by omega) (by omega))
  have hrr : r = r' := by
    rcases Nat.lt_trichotomy r r' with hlt | heq | hlt
    · exact absurd hright (hall' r (by omega) hlt)
    · exact heq
    · exact absurd hright' (hall r' (by omega) hlt)
  rw [hll, hrr]

lemma IsRun.received (he : IsRun st next e) (hp : e.Contains p) : st p ≠ 0 := by
  obtain ⟨l, r, rfl, -, -, -, -, hall⟩ := he
  simp only [SackBlock.Contains, Nat.cast_le, Nat.cast_lt] at hp
  exact hall p hp.1 hp.2

lemma IsRun.congr (he : IsRun st next e) (hsame : ∀ p, st' p ≠ 0 ↔ st p ≠ 0) : IsRun st' next e := by
  obtain ⟨l, r, heq, hl, hlr, hleft, hright, hall⟩ := he
  refine ⟨l, r, heq, hl, hlr, ?_, ?_, fun p hp hp' => (hsame p).mpr (hall p hp hp')⟩
  · exact not_not.mp fun hne => (hsame _).mp hne hleft
  · exact not_not.mp fun hne => (hsame _).mp hne hright

/-- The edges of an entry are in the range that `append_ack` checks. -/
lemma IsRun.valid (he : IsRun st next e) (hmax : ∀ i, st i ≠ 0 → i ≤ a.maxseen) :
    ¬(e.left < 0 ∨ e.right < 0 ∨ e.right > a.maxseen + 1) := by
  obtain ⟨l, r, rfl, hl, hlr, -, -, hall⟩ := he
  have := hmax (r - 1) (hall (r - 1) (by omega) (by omega))
  dsimp only
  omega

/-- The block of the packet that has just arrived, when it is above the packets in order. -/
lemma isRun_recent (h : Acker.Stores st a) (hseq : a.next ≤ seq) (hgot : st seq ≠ 0) :
    let recent : SackBlock := ⟨a.holeLeft (a.holeRight seq), a.holeRight seq⟩
    IsRun st a.next recent ∧ recent.Contains seq := by
  have hmax := h.max seq hgot
  have hhole : st (a.maxseen + 1) = 0 := by
    by_contra hne
    have := h.max _ hne
    omega
  obtain ⟨h₁, h₂, h₃, h₄⟩ := Acker.holeRight_spec h.window hseq (hmax.trans (Nat.le_succ _)) hhole
  have hlt : seq < a.holeRight seq := lt_of_le_of_ne h₁ fun heq => hgot (heq ▸ h₃)
  obtain ⟨l, hl, h₅, h₆, h₇, h₈⟩ := Acker.holeLeft_spec h (hseq.trans_lt hlt) h₂
  have hle : l ≤ seq := by
    by_contra hgt
    exact h₄ (l - 1) (by omega) (by omega) h₇
  rw [hl]
  refine ⟨⟨l, _, rfl, h₅, by omega, h₇, h₃, h₈⟩, ?_⟩
  simp only [SackBlock.Contains, Nat.cast_le, Nat.cast_lt]
  exact ⟨hle, hlt⟩

/-- What an update does to a run: it is still one, or it has become part of the packets in order, or the new
packet is next to it. -/
lemma IsRun.update (h : Acker.Stores st a) (hpos : 0 < numBytes) (hup : Acker.Updated st a seq numBytes a')
    (he : IsRun st a.next e) :
    IsRun (Acker.record st a.next seq numBytes) a'.next e ∨
      st seq = 0 ∧ ∃ l r : ℕ, e = ⟨l, r⟩ ∧
        (∀ p, l ≤ p → p < r → Acker.record st a.next seq numBytes p ≠ 0) ∧ l < r ∧
        (seq < a'.next ∧ r ≤ a'.next ∨ a'.next < seq ∧ (seq + 1 = l ∨ seq = r)) := by
  have hiff : ∀ i, Acker.record st a.next seq numBytes i ≠ 0 ↔ st i ≠ 0 ∨ i = seq := fun i =>
    Acker.record_ne_zero_iff h hpos
  have hnext := h.next
  have hnext' := hup.stores.next
  have horder := hup.stores.inOrder
  have hle := hup.next_le
  have hseqne : seq ≠ a'.next := fun heq => (hiff seq).mpr (Or.inr rfl) (heq ▸ hnext')
  by_cases hdup : st seq = 0
  · obtain ⟨l, r, rfl, hl, hlr, hleft, hright, hall⟩ := he
    have hall' : ∀ p, l ≤ p → p < r → Acker.record st a.next seq numBytes p ≠ 0 := fun p hp hp' =>
      (hiff p).mpr (Or.inl (hall p hp hp'))
    have hstay (hl' : a'.next < l) (h₁ : seq + 1 ≠ l) (h₂ : seq ≠ r) :
        IsRun (Acker.record st a.next seq numBytes) a'.next ⟨l, r⟩ := by
      refine ⟨l, r, rfl, hl', hlr, not_not.mp fun hne => ?_, not_not.mp fun hne => ?_, hall'⟩
      · exact ((hiff _).mp hne).elim (fun hne => hne hleft) fun heq => h₁ (by omega)
      · exact ((hiff _).mp hne).elim (fun hne => hne hright) fun heq => h₂ heq.symm
    rcases Nat.lt_or_gt_of_ne hseqne with hlt | hgt
    · rcases Nat.lt_or_ge a'.next l with hl' | hl'
      · exact Or.inl (hstay hl' (by omega) (by omega))
      · refine Or.inr ⟨hdup, l, r, rfl, hall', hlr, Or.inl ⟨hlt, ?_⟩⟩
        by_contra hr
        exact hall' a'.next hl' (not_le.mp hr) hnext'
    · have heq : a'.next = a.next := by
        by_contra hne
        have := (hiff a.next).mp (horder a.next (by omega))
        exact this.elim (fun h => h hnext) fun heq => by omega
      by_cases hadj : seq + 1 = l ∨ seq = r
      · exact Or.inr ⟨hdup, l, r, rfl, hall', hlr, Or.inr ⟨hgt, hadj⟩⟩
      · exact Or.inl (hstay (heq ▸ hl) (fun h => hadj (Or.inl h)) fun h => hadj (Or.inr h))
  · have hsame : ∀ i, Acker.record st a.next seq numBytes i ≠ 0 ↔ st i ≠ 0 := fun i =>
      (hiff i).trans ⟨fun h => h.elim id fun heq => heq ▸ hdup, Or.inl⟩
    have heq : a'.next = a.next := by
      by_contra hne
      exact (hsame a.next).mp (horder a.next (by omega)) hnext
    exact Or.inl (heq ▸ he.congr hsame)

/-- A run next to the new packet is part of the run of that packet. -/
lemma covers_of_adjacent {l r : ℕ} (hrecent : IsRun st next recent) (hseq : recent.Contains seq)
    (hall : ∀ p, l ≤ p → p < r → st p ≠ 0) (hadj : seq + 1 = l ∨ seq = r) : recent.Covers ⟨l, r⟩ := by
  obtain ⟨L, R, rfl, hL, hLR, hleft, hright, -⟩ := hrecent
  simp only [SackBlock.Contains, SackBlock.Covers, Nat.cast_le, Nat.cast_lt] at hseq ⊢
  refine ⟨?_, ?_⟩
  · by_contra hlt
    exact hall (L - 1) (by omega) (by omega) hleft
  · show r ≤ R
    by_contra hlt
    exact hall R (by omega) (by omega) hright

/-- The loop over the history reports the entries it comes to that the most recent block does not cover, and
keeps those and the ones it does not come to. -/
lemma others_spec (recent : SackBlock) (blocks : List SackBlock)
    (hvalid : ∀ e ∈ rest, ¬(e.left < 0 ∨ e.right < 0 ∨ e.right > s.acker.maxseen + 1))
    (hlen : blocks.length ≤ s.baseNblocks) :
    ∃ seen unseen, rest = seen ++ unseen ∧
      s.others recent rest blocks = (seen.filter (¬recent.Covers ·) ++ unseen, blocks ++ seen.filter (¬recent.Covers ·)) ∧
      (blocks ++ seen.filter (¬recent.Covers ·)).length ≤ s.baseNblocks ∧
      (unseen = [] ∨ (blocks ++ seen.filter (¬recent.Covers ·)).length = s.baseNblocks) := by
  induction rest generalizing blocks with
  | nil => exact ⟨[], [], rfl, by simp [others], by simpa using hlen, Or.inl rfl⟩
  | cons e rest ih =>
    unfold others
    split
    · rename_i hroom
      rw [if_neg (hvalid e List.mem_cons_self)]
      have hvalid' : ∀ e ∈ rest, ¬(e.left < 0 ∨ e.right < 0 ∨ e.right > s.acker.maxseen + 1) := fun e he =>
        hvalid e (List.mem_cons_of_mem _ he)
      by_cases hcov : recent.Covers e
      · obtain ⟨seen, unseen, hrest, hres, hle, hstop⟩ := ih blocks hvalid' hlen
        have hfilter : (e :: seen).filter (¬recent.Covers ·) = seen.filter (¬recent.Covers ·) :=
          List.filter_cons_of_neg (by simpa using hcov)
        refine ⟨e :: seen, unseen, by rw [hrest]; rfl, ?_, ?_, ?_⟩
        · rw [if_pos (show recent.left ≤ e.left ∧ recent.right ≥ e.right from hcov), hres, hfilter]
        · rwa [hfilter]
        · rwa [hfilter]
      · obtain ⟨seen, unseen, hrest, hres, hle, hstop⟩ := ih (blocks ++ [e]) hvalid'
          (by rw [List.length_append]; exact hroom)
        have hfilter : (e :: seen).filter (¬recent.Covers ·) = e :: seen.filter (¬recent.Covers ·) :=
          List.filter_cons_of_pos (by simpa using hcov)
        have happ : blocks ++ e :: seen.filter (¬recent.Covers ·) = (blocks ++ [e]) ++ seen.filter (¬recent.Covers ·) := by
          simp
        refine ⟨e :: seen, unseen, by rw [hrest]; rfl, ?_, ?_, ?_⟩
        · rw [if_neg (show ¬(recent.left ≤ e.left ∧ recent.right ≥ e.right) from hcov), hres, hfilter, happ]
          rfl
        · rwa [hfilter, happ]
        · rwa [hfilter, happ]
    · rename_i hfull
      exact ⟨[], e :: rest, rfl, by simp, by simpa using hlen, Or.inr (by simp; omega)⟩

/-- The history and what has been received. -/
structure Sound (st : ℕ → ℕ) (s : Sacker) : Prop where
  stores : Acker.Stores st s.acker
  runs : ∀ e ∈ s.sf.entries, IsRun st s.acker.next e
  nodup : s.sf.entries.Nodup
  size : s.sf.size = s.baseNblocks
  length : s.sf.entries.length ≤ s.baseNblocks
  pos : 1 ≤ s.baseNblocks

/-- The blocks of an ACK other than a leading D-SACK block: runs of received packets above the packets in
order, all different, the first with the packet itself. -/
structure Reports (st : ℕ → ℕ) (s : Sacker) (seq : ℕ) (blocks : List SackBlock) : Prop where
  runs : ∀ b ∈ blocks, IsRun st s.acker.next b
  nodup : blocks.Nodup
  first : s.acker.next ≤ seq → ∀ b ∈ blocks.head?, b.Contains seq
  reported : s.acker.next ≤ seq → (s.dsacks ∧ s.acker.isDup → 2 ≤ s.baseNblocks) → blocks ≠ []

/-- The most recent block, as `append_ack` computes it; below the packets in order it starts at 0. -/
def recentBlock (a : Acker) (seq : ℕ) : SackBlock :=
  ⟨if seq ≤ a.seqno then 0 else a.holeLeft (a.holeRight seq), a.holeRight seq⟩

lemma IsRun.eq_of_covers (hrecent : IsRun st next recent) (he : IsRun st next e) (hcov : recent.Covers e) :
    e = recent := by
  have heq := he
  obtain ⟨l, r, rfl, -, hlr, -, -, -⟩ := heq
  have hin : SackBlock.Contains ⟨l, r⟩ l := ⟨le_rfl, Nat.cast_lt.mpr hlr⟩
  refine he.eq hrecent hin ⟨hcov.1, hin.2.trans_le hcov.2⟩

/-- Before an ACK, after the packet has been stored: an entry that is not a run any more is one that the most
recent block covers, and then the packet is new. -/
structure Pending (st : ℕ → ℕ) (s : Sacker) (seq : ℕ) : Prop where
  stores : Acker.Stores st s.acker
  got : st seq ≠ 0
  runs : ∀ e ∈ s.sf.entries, IsRun st s.acker.next e ∨ s.acker.isDup = false ∧ (recentBlock s.acker seq).Covers e
  valid : ∀ e ∈ s.sf.entries, ¬(e.left < 0 ∨ e.right < 0 ∨ e.right > s.acker.maxseen + 1)
  nodup : s.sf.entries.Nodup
  size : s.sf.size = s.baseNblocks
  length : s.sf.entries.length ≤ s.baseNblocks
  pos : 1 ≤ s.baseNblocks

/-- What the loop over the history leaves out is a run, when there is room for the whole history or the packet
is a duplicate. -/
lemma Pending.unseen {seen unseen : List SackBlock} (h : Pending st s seq)
    (hrest : s.sf.entries = seen ++ unseen)
    (hroom : s.acker.isDup = false → unseen = [] ∨ s.baseNblocks ≤ seen.length) :
    ∀ e ∈ unseen, IsRun st s.acker.next e := by
  intro e he
  rcases h.runs e (by rw [hrest]; exact List.mem_append_right _ he) with hrun | ⟨hdup, -⟩
  · exact hrun
  · have hlen := h.length
    rw [hrest, List.length_append] at hlen
    rcases hroom hdup with rfl | hfull
    · exact absurd he List.not_mem_nil
    · have := List.length_pos_of_mem he
      omega

/-- What the loop reports is a run. -/
lemma Pending.reported {seen unseen : List SackBlock} (h : Pending st s seq)
    (hrest : s.sf.entries = seen ++ unseen) :
    ∀ e ∈ seen.filter (¬(recentBlock s.acker seq).Covers ·), IsRun st s.acker.next e := by
  intro e he
  rw [List.mem_filter, decide_eq_true_iff] at he
  refine (h.runs e ?_).resolve_right fun hstale => he.2 hstale.2
  rw [hrest]
  exact List.mem_append_left _ he.1

/-- The ACK of a packet among the packets in order. -/
lemma Pending.below {seen unseen : List SackBlock} {D : ℕ} (h : Pending st s seq)
    (hrest : s.sf.entries = seen ++ unseen) (hD : s.acker.isDup = false → D = 0)
    (hstop : unseen = [] ∨
      D + (seen.filter (¬(recentBlock s.acker seq).Covers ·)).length = s.baseNblocks) :
    Sound st { s with sf := { s.sf with
      entries := seen.filter (¬(recentBlock s.acker seq).Covers ·) ++ unseen } } := by
  have hsub : List.Sublist (seen.filter (¬(recentBlock s.acker seq).Covers ·) ++ unseen) s.sf.entries := by
    rw [hrest]
    exact List.filter_sublist.append_right unseen
  refine ⟨h.stores, fun e he => ?_, h.nodup.sublist hsub, h.size, hsub.length_le.trans h.length, h.pos⟩
  rcases List.mem_append.mp he with hin | hin
  · exact h.reported hrest e hin
  · refine h.unseen hrest (fun hdup => hstop.imp_right fun hfull => ?_) e hin
    have := List.length_filter_le (fun e => decide ¬(recentBlock s.acker seq).Covers e) seen
    have := hD hdup
    omega

/-- The ACK of a packet above them: its block becomes the top of the history. -/
lemma Pending.above {seen unseen : List SackBlock} {D : ℕ} (h : Pending st s seq)
    (hrest : s.sf.entries = seen ++ unseen) (hD : s.acker.isDup = false → D = 0) (hD' : D ≤ 1)
    (hrecent : IsRun st s.acker.next (recentBlock s.acker seq))
    (hseq : (recentBlock s.acker seq).Contains seq)
    (hstop : unseen = [] ∨
      D + 1 + (seen.filter (¬(recentBlock s.acker seq).Covers ·)).length = s.baseNblocks)
    (hmiss : D = 1 → 2 ≤ s.baseNblocks → ∀ e, s.sf.entries[s.baseNblocks - 2]? = some e → ¬e.Contains seq) :
    Sound st { s with sf := SackStack.push { s.sf with
      entries := seen.filter (¬(recentBlock s.acker seq).Covers ·) ++ unseen } (recentBlock s.acker seq) } := by
  have hkept : ∀ e ∈ seen.filter (¬(recentBlock s.acker seq).Covers ·), IsRun st s.acker.next e ∧
      e ≠ recentBlock s.acker seq := by
    refine fun e he => ⟨h.reported hrest e he, fun heq => ?_⟩
    rw [List.mem_filter, decide_eq_true_iff, heq] at he
    exact he.2 ⟨le_rfl, le_rfl⟩
  have hsub : List.Sublist (seen.filter (¬(recentBlock s.acker seq).Covers ·) ++ unseen) s.sf.entries := by
    rw [hrest]
    exact List.filter_sublist.append_right unseen
  -- Behind what has been reported there is room for one entry, and only for a duplicate.
  have htake : ∀ e ∈ (seen.filter (¬(recentBlock s.acker seq).Covers ·) ++ unseen).take (s.baseNblocks - 1),
      IsRun st s.acker.next e ∧ e ≠ recentBlock s.acker seq := by
    intro e he
    rcases hstop with rfl | hfull
    · rw [List.append_nil] at he
      exact hkept e (List.mem_of_mem_take he)
    rw [List.take_append] at he
    rcases List.mem_append.mp he with hin | hin
    · exact hkept e (List.mem_of_mem_take hin)
    have hD₁ : D = 1 ∧ s.baseNblocks - 1 -
        (seen.filter (¬(recentBlock s.acker seq).Covers ·)).length = 1 := by
      have := List.length_pos_of_mem hin
      rw [List.length_take] at this
      omega
    rw [hD₁.2] at hin
    obtain ⟨tail, hunseen⟩ : ∃ tail, unseen = e :: tail := by
      cases unseen with
      | nil => exact absurd hin List.not_mem_nil
      | cons x tail =>
        obtain rfl := List.mem_singleton.mp hin
        exact ⟨tail, rfl⟩
    have hall : ∀ e ∈ s.sf.entries, IsRun st s.acker.next e := fun e he =>
      (h.runs e he).resolve_right fun hstale => absurd (hD hstale.1) (by omega)
    have hin' : e ∈ s.sf.entries := by
      rw [hrest, hunseen]
      exact List.mem_append_right _ List.mem_cons_self
    refine ⟨hall e hin', ?_⟩
    rintro rfl
    have hnone : seen.filter (¬(recentBlock s.acker seq).Covers ·) = seen := by
      refine List.filter_eq_self.mpr fun e he => decide_eq_true fun hcov => ?_
      have heq := hrecent.eq_of_covers (hall e (by rw [hrest]; exact List.mem_append_left _ he)) hcov
      have hnodup := h.nodup
      rw [hrest, hunseen] at hnodup
      exact (List.nodup_append.mp hnodup).2.2 _ he _ List.mem_cons_self heq
    have hlen : seen.length = s.baseNblocks - 2 ∧ 2 ≤ s.baseNblocks := by
      rw [hnone] at hfull
      omega
    refine hmiss hD₁.1 hlen.2 (recentBlock s.acker seq) ?_ hseq
    rw [hrest, hunseen, ← hlen.1, List.getElem?_append_right le_rfl, Nat.sub_self]
    rfl
  have hsize : s.sf.size - 1 = s.baseNblocks - 1 := by rw [h.size]
  have hpos := h.pos
  refine ⟨h.stores, fun e he => ?_, ?_, h.size, ?_, h.pos⟩
  · rcases List.mem_cons.mp he with rfl | he
    · exact hrecent
    · rw [hsize] at he
      exact (htake e he).1
  · refine List.nodup_cons.mpr ⟨fun hin => ?_, (h.nodup.sublist hsub).sublist (List.take_sublist _ _)⟩
    rw [hsize] at hin
    exact (htake _ hin).2 rfl
  · show (List.length (_ :: List.take _ _)) ≤ s.baseNblocks
    rw [List.length_cons, List.length_take]
    exact (Nat.succ_le_succ (Nat.min_le_left _ _)).trans (by rw [hsize]; omega)

/-- The packet is not a duplicate in the entry just behind the part of the history that an ACK with a D-SACK
block looks at. -/
def Reached (s : Sacker) (seq : ℕ) : Prop :=
  s.dsacks → 2 ≤ s.baseNblocks → ∀ e, s.sf.entries[s.baseNblocks - 2]? = some e → ¬e.Contains seq

/-- The blocks that are reported are runs, and the history stays sound. -/
lemma Pending.appendAck (h : Pending st s seq) :
    (s.Reached seq → Sound st (s.appendAck seq).1) ∧
      Reports st s seq ((s.appendAck seq).2.drop (if s.dsacks ∧ s.acker.isDup then 1 else 0)) := by
  have hmax := h.stores.max seq h.got
  have hseqno : s.acker.seqno = s.acker.next - 1 := rfl
  have hpos := h.pos
  have hnone : s.sf.entries = [] → Sound st s := fun hnil =>
    ⟨h.stores, by rw [hnil]; exact nofun, h.nodup, h.size, h.length, h.pos⟩
  unfold Sacker.appendAck
  extract_lets a blocks₀ right recent blocks r _ sf
  have hD : blocks₀.length ≤ 1 ∧ (s.acker.isDup = false → blocks₀.length = 0) ∧
      (blocks₀.length = 1 → s.dsacks) ∧ blocks₀.length = if s.dsacks ∧ s.acker.isDup then 1 else 0 := by
    by_cases hds : s.dsacks ∧ s.acker.isDup
    · have hb : blocks₀ = [⟨seq, seq + 1⟩] := if_pos hds
      rw [hb, if_pos hds]
      exact ⟨le_rfl, fun hdup => absurd (hds.2.symm.trans hdup) (by decide), fun _ => hds.1, rfl⟩
    · have hb : blocks₀ = [] := if_neg hds
      rw [hb, if_neg hds]
      exact ⟨Nat.zero_le _, fun _ => rfl, fun hone => absurd hone (by decide), rfl⟩
  rw [← hD.2.2.2]
  split
  · rename_i hempty
    refine ⟨fun _ => ⟨h.stores, nofun, List.nodup_nil, h.size, Nat.zero_le _, h.pos⟩, ?_⟩
    rw [List.drop_nil]
    refine ⟨nofun, List.nodup_nil, nofun, fun hle _ => ?_⟩
    have hge : s.acker.seqno ≥ s.acker.maxseen := hempty.1
    omega
  rename_i hempty
  split
  · split
    · -- There is no room for a block besides the D-SACK block.
      rename_i hfull
      have hone : blocks₀.length = 1 := by omega
      have hdup : s.acker.isDup = true := by
        by_contra hdup
        exact absurd (hD.2.1 (Bool.not_eq_true _ ▸ hdup)) (by omega)
      have hruns : ∀ e ∈ s.sf.entries, IsRun st s.acker.next e := fun e he =>
        (h.runs e he).resolve_right fun hstale => absurd (hdup.symm.trans hstale.1) (by decide)
      refine ⟨fun _ => ⟨h.stores, hruns, h.nodup, h.size, h.length, h.pos⟩, ?_⟩
      rw [List.drop_length]
      refine ⟨nofun, List.nodup_nil, nofun, fun _ htwo => ?_⟩
      have := htwo ⟨hD.2.2.1 hone, hdup⟩
      omega
    · rename_i hroom
      by_cases hbelow : (seq : ℤ) ≤ a.seqno
      · have hblocks : blocks = blocks₀ := if_pos hbelow
        obtain ⟨seen, unseen, hrest, hres, -, hstop⟩ := others_spec recent blocks h.valid
          (by rw [hblocks]; omega)
        have hr : r = _ := hres
        rw [if_neg (not_lt.mpr hbelow)]
        rw [hblocks, List.length_append] at hstop
        have hsf : sf = { s.sf with entries := seen.filter (¬recent.Covers ·) ++ unseen } :=
          congrArg (fun l : List SackBlock × List SackBlock => { s.sf with entries := l.1 }) hr
        rw [hsf]
        refine ⟨fun _ => h.below hrest hD.2.1 hstop, ?_⟩
        rw [hr, hblocks, List.drop_left]
        have hbelow' : (seq : ℤ) ≤ s.acker.seqno := hbelow
        refine ⟨h.reported hrest, ?_, fun hle _ _ => by omega, fun hle _ => by omega⟩
        have hsub : List.Sublist (seen.filter (¬recent.Covers ·)) s.sf.entries := by
          rw [hrest]
          exact List.filter_sublist.trans (List.sublist_append_left _ _)
        exact h.nodup.sublist hsub
      · have hblocks : blocks = blocks₀ ++ [recent] := if_neg hbelow
        have habove : s.acker.next ≤ seq := by
          have hlt : ¬(seq : ℤ) ≤ s.acker.seqno := hbelow
          omega
        obtain ⟨hrun, hseq⟩ := isRun_recent h.stores habove h.got
        have hrecent : recent = ⟨a.holeLeft (a.holeRight seq), a.holeRight seq⟩ := by
          show SackBlock.mk (if (seq : ℤ) ≤ a.seqno then 0 else a.holeLeft right) right = _
          rw [if_neg hbelow]
        rw [← hrecent] at hrun hseq
        obtain ⟨seen, unseen, hrest, hres, -, hstop⟩ := others_spec recent blocks h.valid
          (by rw [hblocks, List.length_append]; exact Nat.lt_of_not_ge hroom)
        have hr : r = _ := hres
        have hsf : sf = { s.sf with entries := seen.filter (¬recent.Covers ·) ++ unseen } :=
          congrArg (fun l : List SackBlock × List SackBlock => { s.sf with entries := l.1 }) hr
        rw [hblocks, List.length_append, List.length_append] at hstop
        rw [if_pos (not_le.mp hbelow), hsf]
        refine ⟨fun hmiss => h.above hrest hD.2.1 hD.1 hrun hseq hstop fun hone => hmiss (hD.2.2.1 hone), ?_⟩
        rw [hr, hblocks, List.append_assoc, List.drop_left, List.singleton_append]
        refine ⟨fun b hb => ?_, ?_, fun _ b hb => Option.some.inj hb ▸ hseq, fun _ _ => List.cons_ne_nil _ _⟩
        · rcases List.mem_cons.mp hb with rfl | hb
          · exact hrun
          · exact h.reported hrest b hb
        · have hsub : List.Sublist (seen.filter (¬recent.Covers ·)) s.sf.entries := by
            rw [hrest]
            exact List.filter_sublist.trans (List.sublist_append_left _ _)
          refine List.nodup_cons.mpr ⟨fun hin => ?_, h.nodup.sublist hsub⟩
          rw [List.mem_filter, decide_eq_true_iff] at hin
          exact hin.2 ⟨le_rfl, le_rfl⟩
  · rename_i hbranch
    have hle : s.acker.seqno ≥ s.acker.maxseen := not_lt.mp fun hlt => hbranch ⟨Or.inl hlt, hpos⟩
    have hnil : s.sf.entries = [] := List.length_eq_zero_iff.mp (by
      by_contra hne
      exact hempty ⟨hle, hne⟩)
    refine ⟨fun _ => hnone hnil, ?_⟩
    rw [List.drop_nil]
    exact ⟨nofun, List.nodup_nil, nofun, fun hnext _ => by omega⟩

/-- The history and the stored packets before the ACK of a packet. -/
lemma Sound.pending (seq : ℕ) (h : Sound st s) (hpos : 0 < numBytes) :
    Pending (Acker.record st s.acker.next seq numBytes)
      { s with acker := (s.acker.update seq numBytes).1 } seq := by
  have hup := Acker.update_spec seq numBytes h.stores
  have hiff : ∀ i, Acker.record st s.acker.next seq numBytes i ≠ 0 ↔ st i ≠ 0 ∨ i = seq := fun i =>
    Acker.record_ne_zero_iff h.stores hpos
  have hgot := (hiff seq).mpr (Or.inr rfl)
  refine ⟨hup.stores, hgot, fun e he => ?_, fun e he => ?_, h.nodup, h.size, h.length, h.pos⟩
  · rcases (h.runs e he).update h.stores hpos hup with hrun | ⟨hnew, l, r, rfl, hall, hlr, hcase⟩
    · exact Or.inl hrun
    · refine Or.inr ⟨?_, ?_⟩
      · exact Bool.eq_false_iff.mpr fun hdup => hup.dup.mp hdup hnew
      have hwin := h.stores.inOrder
      have hold : s.acker.next ≤ seq := by
        by_contra hlt
        exact hwin seq (not_le.mp hlt) hnew
      rcases hcase with ⟨hlt, hr⟩ | ⟨hgt, hadj⟩
      · -- The packets in order have come up to the run, and so does the scan to the right.
        have hend : Acker.record st s.acker.next seq numBytes ((s.acker.update seq numBytes).1.maxseen + 1) = 0 := by
          by_contra hne
          have := hup.stores.max _ hne
          omega
        have hscan := Acker.holeRight_spec (hup.window hold) hold
          ((hup.stores.max seq hgot).trans (Nat.le_succ _)) hend
        have hright : r ≤ (s.acker.update seq numBytes).1.holeRight seq := by
          by_contra hshort
          exact hup.stores.inOrder _ (by omega) hscan.2.2.1
        have hseqno : (seq : ℤ) ≤ (s.acker.update seq numBytes).1.seqno := by
          unfold Acker.seqno
          omega
        refine ⟨?_, Nat.cast_le.mpr hright⟩
        show (if (seq : ℤ) ≤ (s.acker.update seq numBytes).1.seqno then (0 : ℤ) else _) ≤ (l : ℤ)
        rw [if_pos hseqno]
        exact Int.natCast_nonneg l
      · have hseqno : ¬(seq : ℤ) ≤ (s.acker.update seq numBytes).1.seqno := by
          unfold Acker.seqno
          omega
        obtain ⟨hrun, hseq⟩ := isRun_recent hup.stores hgt.le hgot
        have hrecent : recentBlock (s.acker.update seq numBytes).1 seq =
            ⟨(s.acker.update seq numBytes).1.holeLeft ((s.acker.update seq numBytes).1.holeRight seq),
              (s.acker.update seq numBytes).1.holeRight seq⟩ := by
          rw [recentBlock, if_neg hseqno]
        rw [← hrecent] at hrun hseq
        exact covers_of_adjacent hrun hseq hall hadj
  · exact (h.runs e he).valid (a := (s.acker.update seq numBytes).1) fun i hi =>
      hup.stores.max i ((hiff i).mpr (Or.inl hi))

end Sacker

/-- The packets received since the last reset, and its time. -/
def heard (h : Set ℕ × ℚ) : SinkEvent → Set ℕ × ℚ
  | .recv pkt => if pkt.ts < h.2 then h else (insert pkt.seqno h.1, h.2)
  | .reset now => (∅, now)

namespace TcpSink
open Sacker
variable {s s' : TcpSink} {h : Set ℕ × ℚ} {ev : SinkEvent} {evs : List SinkEvent} {pkt : SinkPacket} {ack : SinkAck}

/-- With D-SACK blocks, the packet is not in the entry just behind the part of the history that is looked at. -/
def Reached (s : TcpSink) : SinkEvent → Prop
  | .recv pkt => pkt.ts < s.lastreset ∨ s.acker.Reached pkt.seqno
  | .reset _ => True

/-- The blocks of an ACK, without a leading D-SACK block. -/
def sacks (s : TcpSink) (pkt : SinkPacket) (ack : SinkAck) : List SackBlock :=
  ack.sack.drop (if s.acker.dsacks ∧ (s.acker.acker.update pkt.seqno pkt.size).1.isDup then 1 else 0)

/-- The claims of an ACK: its blocks hold packets that have been received, above the acknowledged one, no
two of them share a packet, and the first one has the packet that the ACK is for. -/
structure Honest (R : Set ℕ) (s : TcpSink) (pkt : SinkPacket) (ack : SinkAck) : Prop where
  received : ∀ b ∈ s.sacks pkt ack, ∀ p : ℕ, b.Contains p → p ∈ R
  above : ∀ b ∈ s.sacks pkt ack, ack.seqno < b.left ∧ b.left < b.right
  disjoint : (s.sacks pkt ack).Pairwise fun b c => ∀ p : ℕ, b.Contains p → ¬c.Contains p
  first : ack.seqno < pkt.seqno → ∀ b ∈ (s.sacks pkt ack).head?, b.Contains pkt.seqno
  reported : ack.seqno < pkt.seqno →
    (s.acker.dsacks ∧ (s.acker.acker.update pkt.seqno pkt.size).1.isDup → 2 ≤ s.acker.baseNblocks) →
    s.sacks pkt ack ≠ []

/-- The sink holds what has been heard, with a sound history. -/
def Holds (s : TcpSink) (h : Set ℕ × ℚ) : Prop :=
  s.lastreset = h.2 ∧ ∃ st, Sound st s.acker ∧ ∀ p, st p ≠ 0 ↔ p ∈ h.1

lemma holds_configure (n : ℕ) (dsacks : Bool) (hn : 1 ≤ n) : Holds ⟨configure n dsacks, 0⟩ (∅, 0) := by
  refine ⟨rfl, fun _ => 0, ⟨Acker.stores_init, nofun, List.nodup_nil, rfl, Nat.zero_le _, ?_⟩, fun p => ?_⟩
  · unfold configure NSA
    dsimp only
    split <;> omega
  · exact ⟨fun hne => absurd rfl hne, nofun⟩

/-- The ACK of a packet that is not from a previous incarnation. -/
lemma recv_fresh (hts : ¬pkt.ts < s.lastreset) :
    s.recv pkt = (⟨({ s.acker with acker := (s.acker.acker.update pkt.seqno pkt.size).1 }.appendAck pkt.seqno).1,
      s.lastreset⟩, some ⟨(s.acker.acker.update pkt.seqno pkt.size).1.seqno,
        ({ s.acker with acker := (s.acker.acker.update pkt.seqno pkt.size).1 }.appendAck pkt.seqno).2⟩) := by
  unfold recv
  rw [if_neg hts]

lemma stored_iff {st : ℕ → ℕ} (hst : Sound st s.acker) (hR : ∀ p, st p ≠ 0 ↔ p ∈ h.1) (hsize : 0 < pkt.size)
    (p : ℕ) : Acker.record st s.acker.acker.next pkt.seqno pkt.size p ≠ 0 ↔ p ∈ insert pkt.seqno h.1 := by
  rw [Acker.record_ne_zero_iff hst.stores hsize, hR, Set.mem_insert_iff]
  exact or_comm

lemma Holds.honest {s' : TcpSink} (hh : Holds s h) (hsize : 0 < pkt.size)
    (hstep : s.step (.recv pkt) = some (s', some ack)) : Honest (insert pkt.seqno h.1) s pkt ack := by
  obtain ⟨-, st, hst, hR⟩ := hh
  have hts : ¬pkt.ts < s.lastreset := fun hlt => by
    have hstale : s.recv pkt = (s, none) := if_pos hlt
    rw [step, hstale] at hstep
    cases hstep
  rw [step, recv_fresh hts] at hstep
  obtain ⟨-, hack⟩ := Prod.mk.inj (Option.some.inj hstep)
  obtain rfl := Option.some.inj hack
  obtain ⟨-, hreports⟩ := (hst.pending pkt.seqno hsize).appendAck
  have hin := stored_iff hst hR hsize
  have hnext : ∀ e, IsRun (Acker.record st s.acker.acker.next pkt.seqno pkt.size)
      (s.acker.acker.update pkt.seqno pkt.size).1.next e →
      (s.acker.acker.update pkt.seqno pkt.size).1.seqno < e.left ∧ e.left < e.right := by
    rintro e ⟨l, r, rfl, hl, hlr, -⟩
    unfold Acker.seqno
    dsimp only
    omega
  have habove (hlt : (s.acker.acker.update pkt.seqno pkt.size).1.seqno < pkt.seqno) :
      (s.acker.acker.update pkt.seqno pkt.size).1.next ≤ pkt.seqno := by
    unfold Acker.seqno at hlt
    omega
  refine ⟨fun b hb p hp => (hin p).mp ((hreports.runs b hb).received hp),
    fun b hb => hnext b (hreports.runs b hb), ?_, fun hlt => hreports.first (habove hlt),
    fun hlt => hreports.reported (habove hlt)⟩
  refine hreports.nodup.imp_of_mem fun {b c} hb hc hne p hp hp' => ?_
  exact hne ((hreports.runs b hb).eq (hreports.runs c hc) hp hp')

lemma Holds.step (hh : Holds s h) (hsize : ∀ pkt, ev = .recv pkt → 0 < pkt.size) (hreached : Reached s ev) :
    ∃ s' o, s.step ev = some (s', o) ∧ Holds s' (heard h ev) := by
  obtain ⟨hreset, st, hst, hR⟩ := hh
  cases ev with
  | recv pkt =>
    refine ⟨(s.recv pkt).1, (s.recv pkt).2, rfl, ?_⟩
    unfold heard
    dsimp only
    by_cases hts : pkt.ts < s.lastreset
    · have hstale : s.recv pkt = (s, none) := if_pos hts
      rw [if_pos (hreset ▸ hts), hstale]
      exact ⟨hreset, st, hst, hR⟩
    · rw [if_neg (hreset ▸ hts), recv_fresh hts]
      have hpos := hsize pkt rfl
      refine ⟨hreset, _, (hst.pending pkt.seqno hpos).appendAck.1 (hreached.resolve_left hts), stored_iff hst hR hpos⟩
  | reset now =>
    exact ⟨_, _, rfl, rfl, fun _ => 0, ⟨hst.stores.reset, nofun, List.nodup_nil, hst.size, Nat.zero_le _, hst.pos⟩,
      fun p => ⟨fun hne => absurd rfl hne, nofun⟩⟩

/-- As long as no duplicate is in the entry just behind the part of the history that is looked at, every ACK
is honest about what has been received. -/
theorem sacks_run {n : ℕ} {dsacks : Bool} (hn : 1 ≤ n) (hsize : ∀ pkt, .recv pkt ∈ evs → 0 < pkt.size)
    (hreached : EachStep TcpSink.step Reached ⟨configure n dsacks, 0⟩ evs) :
    ∃ s os, run TcpSink.step ⟨configure n dsacks, 0⟩ evs = some (s, os) ∧
      ∀ pkt s' ack, 0 < pkt.size → s.step (.recv pkt) = some (s', some ack) →
        Honest (insert pkt.seqno (evs.foldl heard (∅, 0)).1) s pkt ack := by
  have hP := hreached.and_mem (Q := fun ev => ∀ pkt, ev = .recv pkt → 0 < pkt.size) fun ev hev pkt heq =>
    hsize pkt (heq ▸ hev)
  obtain ⟨s, os, hrun, hs⟩ := run_history (R := fun s evs => Holds s (evs.foldl heard (∅, 0)))
    (fun s evs ev hs hP => by
      rw [List.foldl_append]
      exact hs.step hP.2 hP.1) (holds_configure n dsacks hn) hP
  exact ⟨s, os, hrun, fun pkt s' ack hpos hstep => hs.honest hpos hstep⟩

def arrival (seqno : ℕ) : SinkEvent := .recv ⟨seqno, 1000, 0⟩

theorem sacks_run_after_hole : ∃ s os, run TcpSink.step ⟨configure 3 true, 0⟩ [arrival 2] = some (s, os) ∧
    ∀ pkt s' ack, 0 < pkt.size → s.step (.recv pkt) = some (s', some ack) →
      Honest (insert pkt.seqno ([arrival 2].foldl heard (∅, 0)).1) s pkt ack := by
  refine sacks_run (by decide) (fun pkt hpkt => ?_) ⟨Or.inr fun _ _ e he => ?_, fun _ _ _ => trivial⟩
  · obtain rfl := SinkEvent.recv.inj (List.mem_singleton.mp hpkt)
    decide
  · cases he

/-- The duplicate of packet 6 finds its block in the second of three entries. -/
def duplicateInHistory : List SinkEvent := [arrival 0, arrival 10, arrival 6, arrival 3, arrival 6]

/-- The ACK of the next packet reports that block twice. -/
theorem block_reported_twice : ∃ s os s' ack,
    run TcpSink.step ⟨configure 3 true, 0⟩ duplicateInHistory = some (s, os) ∧
    s.step (arrival 1) = some (s', some ack) ∧ ack.sack = [⟨6, 7⟩, ⟨3, 4⟩, ⟨6, 7⟩] ∧
    ¬Honest (insert 1 (duplicateInHistory.foldl heard (∅, 0)).1) s ⟨1, 1000, 0⟩ ack := by
  have hrun : ∃ s os s' ack, run TcpSink.step ⟨configure 3 true, 0⟩ duplicateInHistory = some (s, os) ∧
      s.step (arrival 1) = some (s', some ack) ∧ ack.sack = [⟨6, 7⟩, ⟨3, 4⟩, ⟨6, 7⟩] ∧
      s.sacks ⟨1, 1000, 0⟩ ack = [⟨6, 7⟩, ⟨3, 4⟩, ⟨6, 7⟩] := ⟨_, _, _, _, rfl, rfl, by decide +kernel, by decide +kernel⟩
  obtain ⟨s, os, s', ack, hrun, hstep, hack, hsacks⟩ := hrun
  refine ⟨s, os, s', ack, hrun, hstep, hack, fun hhonest => ?_⟩
  have hdisjoint := hhonest.disjoint
  rw [hsacks] at hdisjoint
  have hfirst := (List.pairwise_cons.mp hdisjoint).1 ⟨6, 7⟩ (by decide) 6
  exact hfirst ⟨by decide, by decide⟩ ⟨by decide, by decide⟩

end TcpSink

end NetworkSimulator
