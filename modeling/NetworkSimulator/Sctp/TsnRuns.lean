import NetworkSimulator.Sctp.TsnBlocks

/-!
# Runs of the receiver

The set of TSNs that have been received or forwarded over is kept beside a run. As long as no DATA chunk
finds its TSN between the highest received one and the cumulative ack, where FORWARD TSN can leave a gap,
the cumulative ack and the blocks are that set, and the duplicates are its members.
-/

namespace NetworkSimulator
open Library

namespace SctpReceiver
variable {s t : SctpReceiver} {e : RecvEvent} {n : ℕ}

/-- The TSNs that a chunk stands for. -/
def Takes : RecvEvent → ℕ → Prop
  | .data chunk, n => n = chunk.tsn
  | .forwardTsn newCum, n => 1 ≤ n ∧ n ≤ newCum

def receive (R : Set ℕ) (e : RecvEvent) (accepted : Bool) : Set ℕ :=
  {n | n ∈ R ∨ accepted = true ∧ Takes e n}

/-- The TSNs received or forwarded over in a run. -/
def received (es : List RecvEvent) (accepted : List Bool) : Set ℕ :=
  (es.zip accepted).foldl (fun R x => receive R x.1 x.2) ∅

/-- The TSNs start at 1, and a chunk that is accepted is not behind. -/
def Regular (s : SctpReceiver) : RecvEvent → Prop
  | .data chunk => 0 < chunk.tsn ∧ (chunk.length ≤ s.myRwnd → s.NotBehind chunk.tsn)
  | .forwardTsn _ => True

def InStreams (streams : List InStream) : RecvEvent → Prop
  | .data chunk => HasStream streams chunk
  | .forwardTsn _ => True

/-- The state stands for a set of TSNs. -/
structure StandsFor (s : SctpReceiver) (R : Set ℕ) : Prop where
  sound : Sound s
  mem : ∀ n, n ∈ R ↔ 1 ≤ n ∧ s.Held n

lemma step_some (hs : Sound s) (hreg : Regular s e) (hstream : InStreams s.inStreams e) :
    ∃ t o, step s e = some (t, o) := by
  cases e with
  | data chunk =>
    rw [step]
    by_cases hroom : chunk.length ≤ s.myRwnd
    · obtain ⟨t, ht⟩ := (processDataChunk_spec hs (hreg.2 hroom) hroom).1 hstream
      exact ⟨t, _, by rw [ht, Option.map_some]⟩
    · exact ⟨_, _, by rw [processDataChunk, if_neg hroom, Option.map_some]⟩
  | forwardTsn newCum =>
    obtain ⟨t, ht, -⟩ := processForwardTsnChunk_spec hs newCum
    exact ⟨t, true, by rw [step, ht, Option.map_some]⟩

/-- One chunk adds the TSNs that it stands for, if it is accepted. -/
lemma step_spec {o : Bool} (hs : Sound s) (hreg : Regular s e) (h : step s e = some (t, o)) :
    Sound t ∧ t.inStreams.length = s.inStreams.length ∧
      ∀ n, 1 ≤ n → (t.Held n ↔ s.Held n ∨ o = true ∧ Takes e n) := by
  cases e with
  | data chunk =>
    obtain ⟨u, hu, hres⟩ := Option.map_eq_some_iff.mp h
    obtain ⟨rfl, rfl⟩ := Prod.mk.inj hres
    by_cases hroom : chunk.length ≤ s.myRwnd
    · obtain ⟨hsound, hstreams, hheld⟩ := (processDataChunk_spec hs (hreg.2 hroom) hroom).2 u hu
      refine ⟨hsound, hstreams, fun n _ => ?_⟩
      simpa [hroom, Takes] using hheld n
    · rw [processDataChunk, if_neg hroom] at hu
      obtain rfl := Option.some.inj hu
      refine ⟨⟨hs.above, hs.highest⟩, rfl, fun n _ => ?_⟩
      simp only [hroom, decide_false, Bool.false_eq_true, false_and, or_false]
      rfl
  | forwardTsn newCum =>
    obtain ⟨u, hu, hres⟩ := Option.map_eq_some_iff.mp h
    obtain ⟨rfl, rfl⟩ := Prod.mk.inj hres
    obtain ⟨v, hv, hsound, hstreams, hheld⟩ := processForwardTsnChunk_spec hs newCum
    obtain rfl := Option.some.inj (hv.symm.trans hu)
    refine ⟨hsound, hstreams, fun n hn => ?_⟩
    rw [hheld]
    simp [Takes, hn]

lemma StandsFor.step {R : Set ℕ} {o : Bool} (h : StandsFor s R) (hreg : Regular s e)
    (hstep : SctpReceiver.step s e = some (t, o)) : StandsFor t (receive R e o) := by
  obtain ⟨hsound, -, hheld⟩ := step_spec h.sound hreg hstep
  refine ⟨hsound, fun n => ?_⟩
  have htakes : Takes e n → 1 ≤ n := by
    cases e with
    | data chunk => exact fun hn => hn ▸ hreg.1
    | forwardTsn newCum => exact And.left
  rw [receive, Set.mem_ofPred_eq, h.mem]
  constructor
  · rintro (⟨hn, hold⟩ | ⟨hacc, hnew⟩)
    · exact ⟨hn, (hheld n hn).mpr (Or.inl hold)⟩
    · exact ⟨htakes hnew, (hheld n (htakes hnew)).mpr (Or.inr ⟨hacc, hnew⟩)⟩
  · rintro ⟨hn, hnow⟩
    exact ((hheld n hn).mp hnow).imp_left fun hold => ⟨hn, hold⟩

lemma standsFor_reset (rwnd : ℕ) (streams : List InStream) : StandsFor (reset rwnd streams) ∅ := by
  refine ⟨⟨trivial, fun n hn => absurd hn covered_nil⟩, fun n => ⟨fun hn => absurd hn (Set.notMem_empty n), ?_⟩⟩
  rintro ⟨hn, hle | hcov⟩
  · exact absurd hle (Nat.not_le_of_lt hn)
  · exact absurd hcov covered_nil

end SctpReceiver

end NetworkSimulator
