import NetworkSimulator.Tcp.ScoreboardRuns

/-!
# `gensack`

The SACK blocks that a receiver sends are the first ones on the LIFO. The block that holds the newest
segment is the first of them when the segment made a block of its own, or when the block it was put
into had only blocks above it that the segment joins as well.
-/

namespace NetworkSimulator
open Library

namespace ReassemblyQueue

/-- The loop of `gensack`. -/
def gensackFrom (s : ReassemblyQueue) : ℕ → Option ℕ → ℤ → Option (List (Range ℤ))
  | 0, _, _ => none
  | _ + 1, none, _ => some []
  | n + 1, some p, maxsblock =>
    if maxsblock = 0 then some []
    else (s.gensackFrom n (s.snext p) (maxsblock - 1)).map (⟨s.startseq p, s.endseq p⟩ :: ·)

/-- Generate up to `maxsblock` SACK blocks; how many they are is what the code returns. -/
def gensack (s : ReassemblyQueue) (maxsblock : ℤ) : Option (List (Range ℤ)) :=
  s.gensackFrom (s.fresh + 1) s.top maxsblock

/-- The queues that come about by adding segments that are not empty and by clearing; `rcv_nxt_` belongs to the
owner, who may write it at any time. -/
inductive Reachable : ReassemblyQueue → Prop
  | init {m : ReassemblyQueue} {free : List ℕ} (h : Cached m free) (rcvNxt : ℤ) : Reachable (m.init rcvNxt)
  | add {s t : ReassemblyQueue} {sseq eseq : ℤ} {tiflags rqflags flags : ℕ} (h : Reachable s) (hlt : sseq < eseq)
      (ht : s.add sseq eseq tiflags rqflags = some (t, flags)) : Reachable t
  | clearto {s t : ReassemblyQueue} {seq : ℤ} {flags : ℕ} (h : Reachable s)
      (ht : s.clearto seq = some (t, flags)) : Reachable t
  | clear {s t : ReassemblyQueue} (h : Reachable s) (ht : s.clear = some t) : Reachable t
  | nexthole {s t : ReassemblyQueue} {seq : ℤ} {hole : ℤ × ℤ × ℤ} (h : Reachable s)
      (ht : s.nexthole seq = some (t, hole)) : Reachable t
  | owner {s : ReassemblyQueue} (h : Reachable s) (rcvNxt : ℤ) : Reachable { s with rcvNxt := rcvNxt }

variable {s : ReassemblyQueue} {fifo lifo free l : List ℕ} {n m : Range ℤ} {st st' : List (Range ℤ)}

/-- The queue holds blocks, none of them empty. -/
lemma Reachable.holds (h : Reachable s) : ∃ bs, Holds s bs ∧ ∀ b ∈ bs, b.start < b.stop := by
  induction h with
  | init h rcvNxt => exact ⟨[], holds_init h rcvNxt, by simp⟩
  | add h hlt ht ih =>
    obtain ⟨bs, hs, hne⟩ := ih
    obtain ⟨res, hres, hadd⟩ := add_of_lt hs hne hlt _ _
    obtain rfl := Option.some.inj (ht.symm.trans hres)
    exact ⟨_, hadd.holds, Blk.nonempty_addSeg hne hlt⟩
  | clearto h ht ih =>
    obtain ⟨bs, hs, hne⟩ := ih
    obtain ⟨res, hres, hs', -⟩ := clearto_spec hs _
    obtain rfl := Option.some.inj (ht.symm.trans hres)
    exact ⟨_, hs', Blk.nonempty_trimTo hne _⟩
  | clear h ht ih =>
    obtain ⟨bs, hs, hne⟩ := ih
    obtain ⟨t, hres, hs', -⟩ := clear_spec hs
    obtain rfl := Option.some.inj (ht.symm.trans hres)
    exact ⟨[], hs', by simp⟩
  | nexthole h ht ih =>
    obtain ⟨bs, hs, hne⟩ := ih
    obtain ⟨t, hole, c, hres, hs', -⟩ := nexthole_spec hs _
    obtain ⟨rfl, -⟩ := Prod.mk.inj (Option.some.inj (ht.symm.trans hres))
    exact ⟨bs, hs', hne⟩
  | owner h rcvNxt ih =>
    obtain ⟨bs, ⟨fifo, lifo, free, hq, rfl⟩, hne⟩ := ih
    exact ⟨_, ⟨fifo, lifo, free, ⟨hq.toShape, hq.same, hq.gapped, hq.total_eq⟩, rfl⟩, hne⟩

lemma gensackFrom_eq {fuel k : ℕ} {b : Option ℕ} (hseg : DSeg s.snext s.sprev b l none)
    (hfuel : l.length < fuel) :
    s.gensackFrom fuel l.head? k = some ((l.map fun a => (s.blk a).toRange).take k) := by
  induction l generalizing fuel b k with
  | nil =>
    obtain ⟨fuel, rfl⟩ : ∃ j, fuel = j + 1 := ⟨fuel - 1, by simp at hfuel; omega⟩
    rw [List.map_nil, List.take_nil]
    rfl
  | cons x l ih =>
    obtain ⟨fuel, rfl⟩ : ∃ j, fuel = j + 1 := ⟨fuel - 1, by simp at hfuel; omega⟩
    obtain ⟨-, hnext, hseg'⟩ := hseg
    rw [List.head?_cons, gensackFrom, hnext, Option.or_none]
    cases k with
    | zero => rfl
    | succ k =>
      have hk : ((k + 1 : ℕ) : ℤ) - 1 = k := by omega
      rw [if_neg (by omega), hk, ih hseg' (by simp at hfuel; omega)]
      rfl

/-- `gensack` writes the first blocks of the LIFO. -/
lemma gensack_eq (h : Shape s.toSegLinks fifo lifo free) (k : ℕ) : s.gensack k = some (s.stack.take k) := by
  have hlen := length_lifo_le_fresh h
  rw [gensack, h.onLifo.head_eq, gensackFrom_eq h.onLifo.seg (by omega), stack_eq h]

/-- The newest segment `n` ends up on the top: it touches only blocks that it covers, or the first block that it
joins has only blocks above it that the segment touches as well. -/
def NewestOnTop (n : Range ℤ) (st : List (Range ℤ)) : Prop :=
  ∀ x ∈ st, n.Touches x → ¬Swallows n x → (∀ b ∈ st, n.Touches b → ¬Swallows n b → x.start ≤ b.start) →
    ∀ b ∈ st.takeWhile fun b => b ≠ x, n.Touches b

instance (n : Range ℤ) (st : List (Range ℤ)) : Decidable (NewestOnTop n st) :=
  inferInstanceAs (Decidable (∀ x ∈ st, n.Touches x → ¬Swallows n x →
    (∀ b ∈ st, n.Touches b → ¬Swallows n b → x.start ≤ b.start) →
    ∀ b ∈ st.takeWhile fun b => b ≠ x, n.Touches b))

/-- A block around a segment that is not empty touches it. -/
lemma touches_of_contains {b : Range ℤ} (hn : n.start < n.stop) (h₁ : b.start ≤ n.start) (h₂ : n.stop ≤ b.stop) :
    n.Touches b := ⟨hn.le.trans h₂, h₁.trans hn.le⟩

lemma restacked_head_iff (h : Restacked n m st st') (hn : n.start < n.stop)
    (hinj : ∀ b ∈ st, ∀ c ∈ st, b.start = c.start → b = c) (h₁ : m.start ≤ n.start) (h₂ : n.stop ≤ m.stop) :
    (∃ b, st'.head? = some b ∧ b.start ≤ n.start ∧ n.stop ≤ b.stop) ↔ NewestOnTop n st := by
  cases h with
  | pushed h => exact ⟨fun _ x hx hxt hxk => absurd (h x hx hxt) hxk, fun _ => ⟨m, rfl, h₁, h₂⟩⟩
  | joined x hx hxt hxk hfirst =>
    obtain ⟨as, bs, rfl, hxas⟩ := List.eq_append_cons_of_mem hx
    have habove : (as ++ x :: bs).takeWhile (fun b => b ≠ x) = as := by
      rw [List.takeWhile_append_of_pos, List.takeWhile_cons, if_neg (by simp), List.append_nil]
      intro b hb
      simpa using fun he : b = x => hxas (he ▸ hb)
    have htop : NewestOnTop n (as ++ x :: bs) ↔ ∀ b ∈ as, n.Touches b := by
      constructor
      · intro h
        rw [← habove]
        exact h x hx hxt hxk hfirst
      · intro h y hy hyt hyk hyfirst
        obtain rfl := hinj y hy x hx (le_antisymm (hyfirst x hx hxt hxk) (hfirst y hy hyt hyk))
        rwa [habove]
    rw [htop]
    by_cases hall : ∀ b ∈ as, n.Touches b
    · -- nothing is left above the block
      have hnil : (as ++ x :: bs).filter (fun b => b = x ∨ ¬n.Touches b) =
          x :: bs.filter fun b => b = x ∨ ¬n.Touches b := by
        rw [List.filter_append, List.filter_cons_of_pos (by simp), List.filter_eq_nil_iff.mpr, List.nil_append]
        intro b hb
        simpa [hall b hb] using fun he : b = x => hxas (he ▸ hb)
      rw [hnil]
      exact ⟨fun _ => hall, fun _ => ⟨m, by simp, h₁, h₂⟩⟩
    · obtain ⟨b, hb, hbt⟩ := not_forall₂.mp hall
      have hkeep : as.filter (fun b => b = x ∨ ¬n.Touches b) ≠ [] :=
        List.ne_nil_of_mem (List.mem_filter.mpr ⟨hb, by simpa using Or.inr hbt⟩)
      obtain ⟨c, cs, hcs⟩ := List.exists_cons_of_ne_nil hkeep
      obtain ⟨hc, hcp⟩ := List.mem_filter.mp (hcs ▸ List.mem_cons_self : c ∈ as.filter _)
      have hcx : c ≠ x := fun he => hxas (he ▸ hc)
      have hct : ¬n.Touches c := by simpa [hcx] using hcp
      refine ⟨fun ⟨d, hd, hd₁, hd₂⟩ => ?_, fun h => absurd h hall⟩
      rw [List.filter_append, hcs, List.cons_append, List.map_cons, List.head?_cons, if_neg hcx] at hd
      obtain rfl := Option.some.inj hd
      exact absurd (touches_of_contains hn hd₁ hd₂) hct

/-- The SACK blocks after a segment has been added are blocks of the queue, apart from each other, and the first of
them holds the segment exactly when it is the newest on top. -/
theorem gensack_newest_first (h : Reachable s) {sseq eseq : ℤ} (hlt : sseq < eseq) (tiflags rqflags : ℕ)
    {maxsblock : ℕ} (hmax : 1 ≤ maxsblock) :
    ∃ t flags sacks, s.add sseq eseq tiflags rqflags = some (t, flags) ∧ t.gensack maxsblock = some sacks ∧
      (sacks.Pairwise fun b c => b.stop < c.start ∨ c.stop < b.start) ∧ (∀ b ∈ sacks, b ∈ Blk.ranges t.blocks) ∧
      sacks.length = min maxsblock t.blocks.length ∧
      ((∃ b, sacks.head? = some b ∧ b.start ≤ sseq ∧ eseq ≤ b.stop) ↔ NewestOnTop ⟨sseq, eseq⟩ s.stack) := by
  obtain ⟨bs, ⟨fifo, lifo, free, hq, rfl⟩, hne⟩ := h.holds
  obtain ⟨⟨t, flags⟩, hres, hadd⟩ := add_stacked tiflags rqflags hq (fits_of_lt hlt hne)
  obtain ⟨fifo', lifo', free', hq', hbs'⟩ := hadd.holds
  have hblocks : t.blocks = fifo'.map t.blk := by rw [hadd.holds.blocks_eq, hbs']
  have hstack : t.stack.Perm (Blk.ranges t.blocks) := by
    rw [stack_eq hq'.toShape, hblocks, Blk.ranges, List.map_map]
    exact hq'.same.map _
  refine ⟨t, flags, t.stack.take maxsblock, hres, gensack_eq hq'.toShape maxsblock, ?_, ?_, ?_, ?_⟩
  · have hgap := hq'.gapped.apart
    rw [← hblocks] at hgap
    have hapart : (Blk.ranges t.blocks).Pairwise fun b c => b.stop < c.start ∨ c.stop < b.start :=
      hgap.imp fun hlt => .inl hlt
    exact ((List.Perm.pairwise_iff Or.symm hstack).mpr hapart).sublist (List.take_sublist _ _)
  · exact fun b hb => hstack.mem_iff.mp (List.mem_of_mem_take hb)
  · rw [List.length_take, hstack.length_eq, Blk.ranges, List.length_map]
  · have hhead : (t.stack.take maxsblock).head? = t.stack.head? := by
      obtain ⟨k, rfl⟩ : ∃ k, maxsblock = k + 1 := ⟨maxsblock - 1, by omega⟩
      cases t.stack <;> rfl
    rw [hhead]
    exact restacked_head_iff (hadd.restacked hne) hlt (start_injective hq) (Blk.mergedIn_start_le _ _)
      (Blk.le_mergedIn_stop _ _)

/-- A segment that goes on where the only block ends. -/
theorem gensack_newest_first_adjacent :
    ∃ s t flags sacks, Reachable s ∧ s.add 5 10 0 0 = some (t, flags) ∧ t.gensack (3 : ℕ) = some sacks ∧
      ∃ b, sacks.head? = some b ∧ b.start ≤ 5 ∧ 10 ≤ b.stop := by
  have hrun : (((blank.init 0).add 0 5 0 0).map fun r => r.1.stack) = some [⟨0, 5⟩] := by decide +kernel
  obtain ⟨⟨s, f⟩, hs, hstack⟩ := Option.map_eq_some_iff.mp hrun
  have hreach : Reachable s := (Reachable.init cached_blank 0).add (by decide) hs
  obtain ⟨t, flags, sacks, hres, hsacks, -, -, -, hiff⟩ :=
    gensack_newest_first hreach (by decide : (5 : ℤ) < 10) 0 0 (by decide : 1 ≤ 3)
  simp only at hstack
  rw [hstack] at hiff
  exact ⟨s, t, flags, sacks, hreach, hres, hsacks, hiff.mpr (by decide)⟩

/-- The segment joins a block that lies under another one, which is reported first. -/
theorem gensack_older_first :
    ∃ s t flags, Reachable s ∧ s.add 5 7 0 0 = some (t, flags) ∧
      t.gensack 3 = some [⟨10, 15⟩, ⟨0, 7⟩] ∧
      ¬∃ b, ([⟨10, 15⟩, ⟨0, 7⟩] : List (Range ℤ)).head? = some b ∧ b.start ≤ 5 ∧ 7 ≤ b.stop := by
  have hrun : (((blank.init 0).add 0 5 0 0).bind fun r => (r.1.add 10 15 0 0).bind fun r =>
      (r.1.add 5 7 0 0).bind fun r => r.1.gensack 3) = some [⟨10, 15⟩, ⟨0, 7⟩] := by decide +kernel
  obtain ⟨⟨s₁, f₁⟩, h₁, hrun⟩ := Option.bind_eq_some_iff.mp hrun
  obtain ⟨⟨s₂, f₂⟩, h₂, hrun⟩ := Option.bind_eq_some_iff.mp hrun
  obtain ⟨⟨t, flags⟩, h₃, hsacks⟩ := Option.bind_eq_some_iff.mp hrun
  exact ⟨s₂, t, flags, ((Reachable.init cached_blank 0).add (by decide) h₁).add (by decide) h₂, h₃, hsacks,
    by decide⟩

end ReassemblyQueue

end NetworkSimulator
