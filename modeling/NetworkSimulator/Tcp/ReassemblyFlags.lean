import NetworkSimulator.Tcp.Reass
import NetworkSimulator.Tcp.ReassemblyRuns

/-!
# Header flags in reassembly

`coalesce` forgets the flags of the later one of two blocks when a segment fills the hole between
them. As long as this loses nothing, clearing the queue returns every flag that went in, and `reass`
reports the FIN as soon as everything in front of it has arrived.
-/

namespace NetworkSimulator
open Library

namespace ReassemblyQueue
variable {s m : ReassemblyQueue} {bs : List Blk} {free : List ℕ} {segs : List Blk}

/-- `add` of the segment `g`. -/
def addStep (s : ReassemblyQueue) (g : Blk) : Option (ReassemblyQueue × ℕ) :=
  s.add g.start g.stop g.flags 0

/-- All flags of the segments are on the blocks, and no block goes on behind all segments. -/
def FlagsHeld (s : ReassemblyQueue) (segs : List Blk) : Prop :=
  ∃ bs, Holds s bs ∧ (∀ b ∈ bs, b.start < b.stop) ∧
    (∀ g ∈ segs, ∀ i, g.flags.testBit i → ∃ b ∈ bs, b.flags.testBit i) ∧
    ∀ seq, (∀ g ∈ segs, g.stop ≤ seq) → ∀ b ∈ bs, b.stop ≤ seq

lemma FlagsHeld.addStep {g : Blk} (h : FlagsHeld s segs)
    (hg : g.start < g.stop ∧ Blk.KeepsFlags s.blocks g) :
    ∃ s' flags, s.addStep g = some (s', flags) ∧ FlagsHeld s' (segs ++ [g]) := by
  obtain ⟨bs, hs, hne, hflags, hstop⟩ := h
  obtain ⟨hlt, hkeep⟩ := hg
  rw [hs.blocks_eq] at hkeep
  obtain ⟨⟨s', flags⟩, hres, hadd⟩ := add_of_lt hs hne hlt g.flags 0
  refine ⟨s', flags, hres, _, hadd.holds, Blk.nonempty_addSeg hne hlt, ?_, ?_⟩
  · intro f hf i hi
    rcases List.mem_append.mp hf with hf | hf
    · obtain ⟨b, hb, hbi⟩ := hflags f hf i hi
      rcases Blk.mem_addSeg_or_touching (n := g) hb with hb' | hb'
      · exact ⟨b, hb', hbi⟩
      · exact ⟨_, Blk.mergedIn_mem, Blk.mergedIn_testBit hkeep (Or.inr ⟨b, hb', hbi⟩)⟩
    · rw [List.mem_singleton.mp hf] at hi
      exact ⟨_, Blk.mergedIn_mem, Blk.mergedIn_testBit hkeep (Or.inl hi)⟩
  · intro seq hseq b hb
    have hold := hstop seq fun f hf => hseq f (by simp [hf])
    rcases Blk.mem_addSeg hb with rfl | ⟨hb, -⟩
    · exact Blk.mergedIn_stop_le (hseq g (by simp)) hold
    · exact hold b hb

lemma FlagsHeld.clearto (h : FlagsHeld s segs) {seq : ℤ} (hseq : ∀ g ∈ segs, g.stop ≤ seq) :
    ∃ s' flags, s.clearto seq = some (s', flags) ∧
      ∀ g ∈ segs, ∀ i, g.flags.testBit i → flags.testBit i := by
  obtain ⟨bs, hs, hne, hflags, hstop⟩ := h
  obtain ⟨⟨s', flags⟩, hres, -, hall, -⟩ := clearto_spec hs seq
  refine ⟨s', flags, hres, fun g hg i hi => ?_⟩
  obtain ⟨b, hb, hbi⟩ := hflags g hg i hi
  have hle : b.start ≤ seq := (hne b hb).le.trans (hstop seq hseq b hb)
  simp only at hall
  rw [hall, Blk.testBit_orFlags]
  exact ⟨b, by simp [hb, hle], hbi⟩

/-- A segment at `rcv_nxt_`: everything up to the next hole is delivered. -/
lemma reass_hole {g : Blk} {state : TcpState} {res : ReassemblyQueue × ℕ}
    (hs : Holds s bs) (hbs : ∀ b ∈ bs, s.rcvNxt < b.start) (hle : g.start ≤ g.stop)
    (hadd : s.add g.start g.stop g.flags 0 = some res) (hres : Added s bs g res)
    (hstate : state.haveRcvdSyn ∧ state ≠ .synReceived) (hfill : g.start = s.rcvNxt)
    (hempty : g.start = g.stop → g.flags &&& TH_FIN ≠ 0) :
    ∃ s' flags, s.reass state g.start (g.stop - g.start) g.flags = some (s', flags) ∧
      Holds s' (bs.filter fun b => g.stop < b.start) ∧ s'.rcvNxt = (Blk.mergedIn bs g).stop ∧
      flags = res.2 ||| (Blk.mergedIn bs g).flags ∧
      ∀ b ∈ bs.filter fun b => g.stop < b.start, (Blk.mergedIn bs g).stop < b.start := by
  have hstop : g.start + (g.stop - g.start) = g.stop := by omega
  have hrcv : res.1.rcvNxt = (Blk.mergedIn bs g).stop := by
    rcases hres.rcvNxt with h | ⟨⟨c, hc, hle', -⟩, -⟩
    · rw [h, Blk.advance, if_pos (hfill ▸ Blk.mergedIn_start_le bs g)]
    · exact absurd (hbs c hc) (not_lt.mpr (hfill ▸ hle'))
  -- nothing stands before the segment
  have hadd' : Blk.addSeg bs g = [Blk.mergedIn bs g] ++ bs.filter fun b => g.stop < b.start := by
    have hnone : bs.filter (fun b => b.stop < g.start) = [] := by
      refine List.filter_eq_nil_iff.mpr fun b hb => ?_
      have h₁ := hbs b hb
      have h₂ := hs.start_le_stop hb
      simp
      omega
    rw [Blk.addSeg, hnone]
    rfl
  have hafter : ∀ b ∈ bs.filter fun b => g.stop < b.start, (Blk.mergedIn bs g).stop < b.start := by
    have hgap := hres.holds.gapped
    rw [hadd', Blk.ranges_append, Range.Gapped.append_iff] at hgap
    exact fun b hb => hgap.2.2 _ (by simp) _ (List.mem_map_of_mem hb)
  obtain ⟨⟨s', f⟩, hclear, hs', hf, hrcv'⟩ := clearto_spec hres.holds res.1.rcvNxt
  rw [hrcv, hadd', Blk.trimTo_between (by simp) hafter
    fun b hb => hs.start_le_stop (List.mem_of_mem_filter hb)] at hs'
  rw [hrcv, hadd', Blk.orFlags_start_split ?_ hafter] at hf
  · refine ⟨s', res.2 ||| f, ?_, hs', hrcv'.trans hrcv, by simpa using congrArg _ hf, hafter⟩
    rw [reass]
    simp only [hstop, hadd, Option.bind_some]
    rw [if_neg fun h => hempty h.1 h.2, if_neg (by simp [hstate.1, hfill]),
      if_neg fun h => hstate.2 h.1, cleartonxt, hclear]
    rfl
  · have hord := hres.holds.start_le_stop Blk.mergedIn_mem
    simpa using hord

/-- A segment behind a hole: it is queued and nothing is delivered. -/
lemma reass_behind {g : Blk} {res : ReassemblyQueue × ℕ} (state : TcpState)
    (hbs : ∀ b ∈ bs, s.rcvNxt < b.start)
    (hadd : s.add g.start g.stop g.flags 0 = some res) (hres : Added s bs g res)
    (hlt : s.rcvNxt < g.start) (hempty : g.start = g.stop → g.flags &&& TH_FIN ≠ 0) :
    ∃ s', s.reass state g.start (g.stop - g.start) g.flags = some (s', 0) ∧
      Holds s' (Blk.addSeg bs g) ∧ s'.rcvNxt = s.rcvNxt ∧
      ∀ b ∈ Blk.addSeg bs g, s.rcvNxt < b.start := by
  have hstop : g.start + (g.stop - g.start) = g.stop := by omega
  have hnofill : ¬g.start = s.rcvNxt := hlt.ne'
  have hmerged : s.rcvNxt < (Blk.mergedIn bs g).start := by
    simp only [Blk.mergedIn, Blk.merged, Blk.hull_toRange]
    refine Range.lt_hull_start hlt fun t ht => ?_
    obtain ⟨b, hb, rfl⟩ := List.mem_map.mp ht
    exact hbs b (List.mem_of_mem_filter hb)
  have hstart : ∀ b ∈ Blk.addSeg bs g, s.rcvNxt < b.start := by
    intro b hb
    rcases Blk.mem_addSeg hb with rfl | ⟨hb, -⟩
    · exact hmerged
    · exact hbs b hb
  refine ⟨res.1, ?_, hres.holds, ?_, hstart⟩
  · rw [reass]
    simp only [hstop, hadd, Option.bind_some]
    rw [if_neg fun h => hempty h.1 h.2, if_pos (Or.inr hnofill)]
  · have hadvance : ∀ b ∈ Blk.addSeg bs g, b.advance s.rcvNxt = s.rcvNxt := fun b hb =>
      if_neg (not_le.mpr (hstart b hb))
    rcases hres.rcvNxt with h | ⟨-, h | ⟨b, hb, h⟩⟩
    · rw [h, hadvance _ Blk.mergedIn_mem]
    · exact h
    · rw [h, hadvance b (List.mem_of_head? hb)]

/-- A call of `reass`: the state of the agent and the segment. -/
def reassStep (s : ReassemblyQueue) (c : TcpState × Blk) : Option (ReassemblyQueue × ℕ) :=
  s.reass c.1 c.2.start (c.2.stop - c.2.start) c.2.flags

/-- The segment `g` belongs to a stream whose FIN stands at `F`, what was received before has been
trimmed off, and no flag is lost when it is added. -/
structure Arrives (F : ℤ) (s : ReassemblyQueue) (c : TcpState × Blk) : Prop where
  state : c.1.haveRcvdSyn ∧ c.1 ≠ .synReceived
  trimmed : s.rcvNxt ≤ c.2.start
  ordered : c.2.start ≤ c.2.stop
  before : c.2.stop ≤ F
  fin : c.2.flags.testBit 0 → c.2.stop = F
  empty : c.2.start = c.2.stop → c.2.flags.testBit 0
  keeps : Blk.KeepsFlags s.blocks c.2

/-- The queue of a receiver whose stream ends at `F`, after the segments `segs`. -/
def FinHeld (F : ℤ) (s : ReassemblyQueue) (segs : List Blk) : Prop :=
  ∃ bs, Holds s bs ∧ s.rcvNxt ≤ F ∧
    (∀ b ∈ bs, s.rcvNxt < b.start ∧ b.stop ≤ F ∧ (b.start = b.stop → b.start = F)) ∧
    (∀ b ∈ bs, b.flags.testBit 0 → b.stop = F ∧ ∃ g ∈ segs, g.flags.testBit 0) ∧
    ((∃ g ∈ segs, g.flags.testBit 0) → s.rcvNxt < F → ∃ b ∈ bs, b.flags.testBit 0)

lemma and_TH_FIN (f : ℕ) : f &&& TH_FIN = 0 ↔ f.testBit 0 = false := by
  rw [TH_FIN, Nat.and_one_is_mod, Nat.testBit_zero]
  simp

variable {F : ℤ}

/-- `add` of a segment of the stream. -/
lemma FinHeld.add {c : TcpState × Blk} (h : FinHeld F s segs) (hc : Arrives F s c) :
    ∃ bs res, Holds s bs ∧ s.add c.2.start c.2.stop c.2.flags 0 = some res ∧ Added s bs c.2 res := by
  obtain ⟨bs, ⟨fifo, lifo, free, hq, rfl⟩, hle, hbs, -, -⟩ := h
  have hfits : Fits s fifo c.2.start c.2.stop := by
    refine ⟨hc.ordered, fun he a ha => ?_, fun a ha he => ?_⟩
    · have hend := hc.fin (hc.empty he)
      have hstop : s.endseq a ≤ F := (hbs (s.blk a) (List.mem_map_of_mem ha)).2.1
      omega
    · have hend : s.startseq a = F := (hbs (s.blk a) (List.mem_map_of_mem ha)).2.2 he
      have hstop := hc.before
      omega
  obtain ⟨res, hres, hadd⟩ := add_spec c.2.flags 0 hq hfits
  exact ⟨_, res, ⟨fifo, lifo, free, hq, rfl⟩, hres, hadd⟩

/-- One call of `reass` reports the FIN exactly when nothing in front of it is missing. -/
lemma FinHeld.step {c : TcpState × Blk} (h : FinHeld F s segs) (hc : Arrives F s c) :
    ∃ s' flags, s.reassStep c = some (s', flags) ∧ FinHeld F s' (segs ++ [c.2]) ∧
      (flags.testBit 0 ↔ s'.rcvNxt = F ∧ ∃ g ∈ segs ++ [c.2], g.flags.testBit 0) := by
  obtain ⟨bs, res, hs, hadd, hres⟩ := h.add hc
  obtain ⟨bs', hs', hle, hbs, hfin, hseen⟩ := h
  obtain rfl : bs = bs' := hs.blocks_eq.symm.trans hs'.blocks_eq
  have hkeep := hs.blocks_eq ▸ hc.keeps
  have hempty : c.2.start = c.2.stop → c.2.flags &&& TH_FIN ≠ 0 := fun he => by
    rw [Ne, and_TH_FIN, Bool.not_eq_false]
    exact hc.empty he
  have hstop : (Blk.mergedIn bs c.2).stop ≤ F :=
    Blk.mergedIn_stop_le hc.before fun b hb => (hbs b hb).2.1
  -- a FIN on the new block is the one at `F`
  have hfinMerged : (Blk.mergedIn bs c.2).flags.testBit 0 →
      (Blk.mergedIn bs c.2).stop = F ∧ ∃ g ∈ segs ++ [c.2], g.flags.testBit 0 := by
    intro hm
    rcases Blk.testBit_mergedIn hm with hg | ⟨b, hb, hbf⟩
    · have := Blk.le_mergedIn_stop bs c.2
      have := hc.fin hg
      exact ⟨by omega, c.2, by simp, hg⟩
    · obtain ⟨hbF, g, hg, hgf⟩ := hfin b (List.mem_of_mem_filter hb) hbf
      have := Blk.stop_le_mergedIn hb
      exact ⟨by omega, g, by simp [hg], hgf⟩
  -- an older FIN is on a block of its own or on the new one
  have holder : (∃ g ∈ segs, g.flags.testBit 0) → s.rcvNxt < F →
      ∃ b ∈ Blk.addSeg bs c.2, b.flags.testBit 0 := by
    intro hg hlt
    obtain ⟨b, hb, hbf⟩ := hseen hg hlt
    rcases Blk.mem_addSeg_or_touching (n := c.2) hb with hb' | hb'
    · exact ⟨b, hb', hbf⟩
    · exact ⟨_, Blk.mergedIn_mem, Blk.mergedIn_testBit hkeep (Or.inr ⟨b, hb', hbf⟩)⟩
  have hnewer : c.2.flags.testBit 0 → (Blk.mergedIn bs c.2).flags.testBit 0 := fun hg =>
    Blk.mergedIn_testBit hkeep (Or.inl hg)
  rcases hc.trimmed.eq_or_lt with hfill | hlt
  · -- the segment fills the hole in front
    obtain ⟨s', flags, hcall, hs₁, hrcv, hflags, hafter⟩ :=
      reass_hole hs (fun b hb => (hbs b hb).1) hc.ordered hadd hres hc.state hfill.symm hempty
    have hlong := hc.ordered.trans (Blk.le_mergedIn_stop bs c.2)
    refine ⟨s', flags, hcall, ⟨_, hs₁, hrcv.trans_le hstop, ?_, ?_, ?_⟩, ?_⟩
    · intro b hb
      rw [hrcv]
      exact ⟨hafter b hb, (hbs b (List.mem_of_mem_filter hb)).2⟩
    · intro b hb hbf
      obtain ⟨hbF, g, hg, hgf⟩ := hfin b (List.mem_of_mem_filter hb) hbf
      exact ⟨hbF, g, by simp [hg], hgf⟩
    · rintro ⟨g, hg, hgf⟩ hlt
      rw [hrcv] at hlt
      rcases List.mem_append.mp hg with hg | hg
      · obtain ⟨b, hb, hbf⟩ := holder ⟨g, hg, hgf⟩ (by omega)
        rcases Blk.mem_addSeg hb with rfl | ⟨hb, hside⟩
        · exact absurd (hfinMerged hbf).1 hlt.ne
        · have hbF := (hfin b hb hbf).1
          have := hc.before
          have := hc.ordered
          exact ⟨b, List.mem_filter.mpr ⟨hb, by simp; omega⟩, hbf⟩
      · rw [List.mem_singleton.mp hg] at hgf
        have := hc.fin hgf
        have := Blk.le_mergedIn_stop bs c.2
        omega
    · have hbit : flags.testBit 0 ↔ (Blk.mergedIn bs c.2).flags.testBit 0 := by
        rw [hflags, hres.flags]
      rw [hbit, hrcv]
      refine ⟨hfinMerged, ?_⟩
      rintro ⟨hend, g, hg, hgf⟩
      rcases List.mem_append.mp hg with hg | hg
      · rcases hle.lt_or_eq with hlt | heq
        · obtain ⟨b, hb, hbf⟩ := holder ⟨g, hg, hgf⟩ hlt
          rcases Blk.mem_addSeg hb with rfl | ⟨hb, hside⟩
          · exact hbf
          · have hbF := (hfin b hb hbf).1
            have hafter' := hafter b (List.mem_filter.mpr ⟨hb, by
              have := hc.before
              have := hc.ordered
              simp
              omega⟩)
            have := hs.start_le_stop hb
            omega
        · have h₁ := hc.before
          have h₂ := hc.ordered
          exact hnewer (hc.empty (by omega))
      · rw [List.mem_singleton.mp hg] at hgf
        exact hnewer hgf
  · obtain ⟨s', hcall, hs₁, hrcv, hstart⟩ :=
      reass_behind c.1 (fun b hb => (hbs b hb).1) hadd hres hlt hempty
    have hF := hlt.trans_le (hc.ordered.trans hc.before)
    refine ⟨s', 0, hcall, ⟨_, hs₁, hrcv.trans_le hle, ?_, ?_, ?_⟩, ?_⟩
    · intro b hb
      rw [hrcv]
      refine ⟨hstart b hb, ?_⟩
      rcases Blk.mem_addSeg hb with rfl | ⟨hb, -⟩
      · refine ⟨hstop, fun he => ?_⟩
        have h₁ := Blk.mergedIn_start_le bs c.2
        have h₂ := Blk.le_mergedIn_stop bs c.2
        have h₃ := hc.ordered
        have h₄ := hc.fin (hc.empty (by omega))
        omega
      · exact (hbs b hb).2
    · intro b hb hbf
      rcases Blk.mem_addSeg hb with rfl | ⟨hb, -⟩
      · exact hfinMerged hbf
      · obtain ⟨hbF, g, hg, hgf⟩ := hfin b hb hbf
        exact ⟨hbF, g, by simp [hg], hgf⟩
    · rintro ⟨g, hg, hgf⟩ -
      rcases List.mem_append.mp hg with hg | hg
      · exact holder ⟨g, hg, hgf⟩ hF
      · rw [List.mem_singleton.mp hg] at hgf
        exact ⟨_, Blk.mergedIn_mem, hnewer hgf⟩
    · simp only [Nat.zero_testBit, Bool.false_eq_true, false_iff, hrcv]
      exact fun h => absurd h.1 hF.ne

lemma FlagsHeld.init (hm : Cached m free) (rcvNxt : ℤ) : FlagsHeld (m.init rcvNxt) [] :=
  ⟨[], holds_init hm rcvNxt, by simp, by simp, by simp⟩

lemma FinHeld.init (hm : Cached m free) {rcvNxt : ℤ} (hF : rcvNxt ≤ F) :
    FinHeld F (m.init rcvNxt) [] :=
  ⟨[], holds_init hm rcvNxt, hF, by simp, by simp, by simp⟩

/-- When no segment that is added fills a hole whose later block has flags of its own, a `clearto`
past everything returns all flags, and `reass` reports the FIN of a stream as soon as the hole in
front of it is filled. -/
theorem flags_run (hm : Cached m free) (rcvNxt : ℤ) :
    (∀ segs : List Blk, EachStep addStep
        (fun s g => g.start < g.stop ∧ Blk.KeepsFlags s.blocks g) (m.init rcvNxt) segs →
      ∃ s fs, run addStep (m.init rcvNxt) segs = some (s, fs) ∧
        ∀ seq, (∀ g ∈ segs, g.stop ≤ seq) → ∃ s' flags, s.clearto seq = some (s', flags) ∧
          ∀ g ∈ segs, ∀ i, g.flags.testBit i → flags.testBit i) ∧
    ∀ (F : ℤ) (calls : List (TcpState × Blk)) (c : TcpState × Blk), rcvNxt ≤ F →
      EachStep reassStep (Arrives F) (m.init rcvNxt) (calls ++ [c]) →
      ∃ s fs flags, run reassStep (m.init rcvNxt) (calls ++ [c]) = some (s, fs ++ [flags]) ∧
        (flags.testBit 0 ↔ s.rcvNxt = F ∧ ∃ d ∈ calls ++ [c], d.2.flags.testBit 0) := by
  constructor
  · intro segs hsegs
    obtain ⟨s, fs, hrun, hheld⟩ := run_history (fun _ _ _ h hg => FlagsHeld.addStep h hg)
      (FlagsHeld.init hm rcvNxt) hsegs
    exact ⟨s, fs, hrun, fun seq hseq => hheld.clearto hseq⟩
  · intro F calls c hF hcalls
    have hstep : ∀ s js d, FinHeld F s (js.map Prod.snd) → Arrives F s d → ∃ s' flags,
        s.reassStep d = some (s', flags) ∧ FinHeld F s' ((js ++ [d]).map Prod.snd) := by
      intro s js d h hd
      obtain ⟨s', flags, hres, hheld, -⟩ := h.step hd
      exact ⟨s', flags, hres, by simpa using hheld⟩
    obtain ⟨s, fs, hrun, hheld⟩ := run_history hstep (FinHeld.init hm hF) hcalls.left
    obtain ⟨s', flags, hres, -, hfin⟩ := FinHeld.step hheld (hcalls.right hrun).1
    refine ⟨s', fs, flags, ?_, hfin.trans (and_congr_right fun _ => ?_)⟩
    · rw [run_append_of_run hrun, run_cons_of_step hres]
      rfl
    · rw [← List.map_singleton, ← List.map_append]
      simp only [List.mem_map, exists_exists_and_eq_and]

/-- The FIN of the last segment waits behind a hole; the segment that joins it on both sides drops
it, whether the queue is cleared at once or `reass` delivers everything. -/
theorem flags_lost :
    (run addStep (blank.init 0) [⟨⟨0, 5⟩, 0⟩, ⟨⟨10, 15⟩, TH_FIN⟩, ⟨⟨5, 10⟩, 0⟩]).bind
        (fun r => (r.1.clearto 15).map Prod.snd) = some 0 ∧
      (run reassStep (blank.init 0) [(.established, ⟨⟨2, 5⟩, 0⟩), (.established, ⟨⟨10, 15⟩, TH_FIN⟩),
        (.established, ⟨⟨5, 10⟩, 0⟩), (.established, ⟨⟨0, 2⟩, 0⟩)]).map
        (fun r => (r.1.rcvNxt, r.2)) = some (15, [0, 0, 0, 0]) := by
  decide

theorem flags_run_two_segments :
    (∃ s fs, run addStep (blank.init 0) [⟨⟨5, 10⟩, TH_FIN⟩, ⟨⟨0, 5⟩, 0⟩] = some (s, fs) ∧
      ∀ seq, (∀ g ∈ [(⟨⟨5, 10⟩, TH_FIN⟩ : Blk), ⟨⟨0, 5⟩, 0⟩], g.stop ≤ seq) →
        ∃ s' flags, s.clearto seq = some (s', flags) ∧
          ∀ g ∈ [(⟨⟨5, 10⟩, TH_FIN⟩ : Blk), ⟨⟨0, 5⟩, 0⟩], ∀ i, g.flags.testBit i → flags.testBit i) ∧
    ∃ s fs flags, run reassStep (blank.init 0)
        ([(.established, ⟨⟨5, 10⟩, TH_FIN⟩)] ++ [(.established, ⟨⟨0, 5⟩, 0⟩)]) =
          some (s, fs ++ [flags]) ∧
      (flags.testBit 0 ↔ s.rcvNxt = 10 ∧
        ∃ d ∈ [((.established, ⟨⟨5, 10⟩, TH_FIN⟩) : TcpState × Blk)] ++ [(.established, ⟨⟨0, 5⟩, 0⟩)],
          d.2.flags.testBit 0) := by
  have hadd : (addStep (blank.init 0) ⟨⟨5, 10⟩, TH_FIN⟩).map (fun r => r.1.blocks) =
      some [⟨⟨5, 10⟩, TH_FIN⟩] := by decide
  have hreass : (reassStep (blank.init 0) (.established, ⟨⟨5, 10⟩, TH_FIN⟩)).map
      (fun r => (r.1.blocks, r.1.rcvNxt)) = some ([⟨⟨5, 10⟩, TH_FIN⟩], 0) := by decide
  constructor
  · refine (flags_run cached_blank 0).1 _ ⟨⟨by decide, fun h => absurd h (by decide)⟩, ?_⟩
    intro s flags hs
    obtain hb : s.blocks = _ := by simpa [hs] using hadd
    refine ⟨⟨by decide, fun h => absurd h ?_⟩, fun _ _ _ => trivial⟩
    rw [hb]
    decide
  · refine (flags_run cached_blank 0).2 10 _ _ (by decide)
      ⟨⟨by decide, by decide, by decide, by decide, by decide, by decide,
        fun h => absurd h (by decide)⟩, ?_⟩
    intro s flags hs
    obtain ⟨hb, hrcv⟩ : s.blocks = _ ∧ s.rcvNxt = _ := by simpa [hs] using hreass
    refine ⟨⟨by decide, by rw [hrcv], by decide, by decide, by decide, by decide,
      fun h => absurd h ?_⟩, fun _ _ _ => trivial⟩
    rw [hb]
    decide

end ReassemblyQueue

end NetworkSimulator
