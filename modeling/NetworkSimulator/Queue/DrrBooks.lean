import NetworkSimulator.Queue.DrrFair

/-!
# The books of deficit round robin

What the scheduler counts, against the packets that were offered to each bucket and those that have left it.
-/

namespace NetworkSimulator
open Library

/-- The size of the packet that is offered to `b`. -/
def DrrEvent.offered (b : ℕ) : DrrEvent → Option ℤ
  | .enque which size => if which = b then some size else none
  | .deque => none

/-- The size of the packet that leaves `b`, returned by `deque` or dropped. -/
def DrrTrace.gone (b : ℕ) : DrrTrace → Option ℤ
  | .sent b' size => if b' = b then some size else none
  | .dropped b' size => if b' = b then some size else none
  | _ => none

namespace Drr
variable {cfg : DrrConfig} {maxSize : ℤ} {off : ℕ → List ℤ} {tr : List DrrTrace} {s s' : Drr} {l l₁ l₂ : List ℕ}
  {b c : ℕ} {size : ℤ} {rest : List ℤ}

/-- The counts are right, and what was offered to a bucket has left it in order or is still there. -/
structure Ledger (cfg : DrrConfig) (maxSize : ℤ) (off : ℕ → List ℤ) (tr : List DrrTrace) (s : Drr) (l : List ℕ) :
    Prop where
  filled : s.Filled maxSize l
  pktcnt : s.pktcnt = (l.map fun b => (s.drr b).pkts).sum
  fifo : ∀ b, off b = tr.filterMap (DrrTrace.gone b) ++ (s.drr b).queue
  solvent : 0 ≤ cfg.quantum → ∀ b ∈ l, 0 ≤ (s.drr b).deficitCounter

lemma Ledger.congr (h : Ledger cfg maxSize off tr s l) (hq : ∀ b, (s'.drr b).queue = (s.drr b).queue)
    (hp : ∀ b, (s'.drr b).pkts = (s.drr b).pkts) (hc : ∀ b, (s'.drr b).bcount = (s.drr b).bcount)
    (hbytes : s'.bytecnt = s.bytecnt) (hflw : s'.flwcnt = s.flwcnt) (hpkt : s'.pktcnt = s.pktcnt)
    (hsolvent : 0 ≤ cfg.quantum → ∀ b ∈ l, 0 ≤ (s'.drr b).deficitCounter) : Ledger cfg maxSize off tr s' l where
  filled := h.filled.congr hq hp hc hbytes hflw
  pktcnt := by
    rw [hpkt, h.pktcnt]
    congr 1
    exact List.map_congr_left fun x _ => (hp x).symm
  fifo b := by rw [hq, h.fifo]
  solvent := hsolvent

/-- A step of the scheduler that moves no packet is not in the books. -/
lemma Ledger.note (h : Ledger cfg maxSize off tr s l) {e : DrrTrace} (he : ∀ b, e.gone b = none) :
    Ledger cfg maxSize off (tr ++ [e]) s l :=
  ⟨h.filled, h.pktcnt, fun b => by rw [List.filterMap_append, List.filterMap_cons_none (he b), List.filterMap_nil,
    List.append_nil, h.fifo], h.solvent⟩

/-- The first packet of `b` is taken, before an empty bucket leaves the ring. -/
lemma Ledger.take (h : Ledger cfg maxSize off tr s (l₁ ++ b :: l₂)) (hnd : (l₁ ++ b :: l₂).Nodup)
    (hq : (s.drr b).queue = size :: rest) {e : DrrTrace} (he : ∀ x, e.gone x = if b = x then some size else none) :
    (rest ≠ [] → Ledger cfg maxSize off (tr ++ [e]) (s.takePacket b size rest) (l₁ ++ b :: l₂)) ∧
      (rest = [] →
        Ledger cfg maxSize off (tr ++ [e]) { s.takePacket b size rest with flwcnt := s.flwcnt - 1 } (l₁ ++ l₂)) := by
  have hself : ((s.takePacket b size rest).drr b) = { s.drr b with
      queue := rest, bcount := (s.drr b).bcount - size, pkts := (s.drr b).pkts - 1 } := Function.update_self _ _ _
  have hother : ∀ x, x ≠ b → (s.takePacket b size rest).drr x = s.drr x := fun x hx => Function.update_of_ne hx _ _
  have hfifo : ∀ x, off x = (tr ++ [e]).filterMap (DrrTrace.gone x) ++ ((s.takePacket b size rest).drr x).queue := by
    intro x
    rw [h.fifo x, List.filterMap_append, List.filterMap_cons, he]
    by_cases hx : b = x
    · subst hx
      rw [if_pos rfl, hself, hq]
      simp
    · rw [if_neg hx, hother x (Ne.symm hx)]
      simp
  have hsolvent : 0 ≤ cfg.quantum → ∀ x ∈ l₁ ++ b :: l₂, 0 ≤ ((s.takePacket b size rest).drr x).deficitCounter := by
    intro hquantum x hx
    have := h.solvent hquantum x hx
    by_cases hxb : x = b
    · subst hxb
      rwa [hself]
    · rwa [hother x hxb]
  have hsum : s.pktcnt - 1 = ((l₁ ++ b :: l₂).map fun x => ((s.takePacket b size rest).drr x).pkts).sum := by
    rw [sum_map_changed (f := fun x => (s.drr x).pkts) hnd fun x hx => by rw [hother x hx], ← h.pktcnt, hself]
    ring
  obtain ⟨hmore, hlast⟩ := h.filled.take hnd hq
  refine ⟨fun hrest => ⟨hmore hrest, hsum, hfifo, hsolvent⟩, fun hrest => ⟨hlast hrest, ?_, hfifo, ?_⟩⟩
  · have hzero : ((s.takePacket b size rest).drr b).pkts = 0 := by
      rw [hself]
      show (s.drr b).pkts - 1 = 0
      rw [h.filled.pkts, hq, hrest]
      rfl
    show s.pktcnt - 1 = _
    rw [hsum]
    simp [hzero]
  · exact fun hquantum x hx => hsolvent hquantum x (by simp at hx ⊢; tauto)

/-- A packet is put at the end of `b`. -/
lemma Ledger.put (h : Ledger cfg maxSize off tr s l) (hnd : l.Nodup) (hsize : 0 < size ∧ size ≤ maxSize)
    {d : PacketDRR} (hdrr : s'.drr = Function.update s.drr b d) (hdq : d.queue = (s.drr b).queue ++ [size])
    (hdp : d.pkts = (s.drr b).pkts + 1) (hdc : d.bcount = (s.drr b).bcount + size)
    (hbytes : s'.bytecnt = s.bytecnt + size) (hpktcnt : s'.pktcnt = s.pktcnt + 1)
    (hd : 0 ≤ cfg.quantum → (b ∈ l → 0 ≤ (s.drr b).deficitCounter) → 0 ≤ d.deficitCounter) :
    (b ∈ l → s'.flwcnt = s.flwcnt →
        Ledger cfg maxSize (Function.update off b (off b ++ [size])) tr s' l) ∧
      (b ∉ l → s'.flwcnt = s.flwcnt + 1 →
        Ledger cfg maxSize (Function.update off b (off b ++ [size])) tr s' (l ++ [b])) := by
  have hself : s'.drr b = d := by rw [hdrr, Function.update_self]
  have hother : ∀ x, x ≠ b → s'.drr x = s.drr x := fun x hx => by rw [hdrr, Function.update_of_ne hx]
  have hfifo : ∀ x, Function.update off b (off b ++ [size]) x =
      tr.filterMap (DrrTrace.gone x) ++ (s'.drr x).queue := by
    intro x
    by_cases hx : x = b
    · subst hx
      rw [Function.update_self, hself, hdq, h.fifo, List.append_assoc]
    · rw [Function.update_of_ne hx, hother x hx, h.fifo]
  have hsolvent : 0 ≤ cfg.quantum → ∀ x ∈ l ++ [b], 0 ≤ (s'.drr x).deficitCounter := by
    intro hquantum x hx
    by_cases hxb : x = b
    · subst hxb
      rw [hself]
      exact hd hquantum (h.solvent hquantum x)
    · rw [hother x hxb]
      exact h.solvent hquantum x (by simpa [hxb] using hx)
  obtain ⟨hold, hnew⟩ := h.filled.put hnd hsize hdrr hdq hdp hdc hbytes
  refine ⟨fun hb hflw => ⟨hold hb hflw, ?_, hfifo, fun hquantum x hx => hsolvent hquantum x (by simp [hx])⟩,
    fun hb hflw => ⟨hnew hb hflw, ?_, hfifo, hsolvent⟩⟩
  · obtain ⟨l₁, l₂, rfl⟩ := List.append_of_mem hb
    rw [sum_map_changed (f := fun x => (s.drr x).pkts) hnd fun x hx => by rw [hother x hx], ← h.pktcnt, hself, hdp,
      hpktcnt]
    ring
  · have hsame : (l.map fun x => (s'.drr x).pkts) = l.map fun x => (s.drr x).pkts :=
      List.map_congr_left fun x hx => by rw [hother x (ne_of_mem_of_not_mem hx hb)]
    rw [List.map_append, List.sum_append, hsame, ← h.pktcnt, List.map_singleton, List.sum_singleton, hself, hdp,
      h.filled.pkts_zero.mpr hb, hpktcnt, zero_add]

/-! ### What one call preserves -/

/-- The ring and the books of the scheduler. -/
structure Books (cfg : DrrConfig) (maxSize : ℤ) (off : ℕ → List ℤ) (tr : List DrrTrace) (s : Drr) (l : List ℕ) :
    Prop where
  ring : s.Ring l
  ledger : Ledger cfg maxSize off tr s l

lemma Books.put (h : Books cfg maxSize off tr s l) (hsize : 0 < size ∧ size ≤ maxSize) :
    ∃ s' o l', s.put b size = some (s', o) ∧
      Books cfg maxSize (Function.update off b (off b ++ [size])) (tr ++ o) s' l' := by
  have hfilled := h.ledger.filled
  unfold Drr.put
  simp only [setBucket, Function.update_self]
  by_cases hb : b ∈ l
  · have hne : (s.drr b).pkts ≠ 0 := fun hzero => hfilled.pkts_zero.mp hzero hb
    rw [if_neg (by omega)]
    refine ⟨_, _, l, rfl, ⟨h.ring.circle, h.ring.nodup, h.ring.curr⟩, ?_⟩
    rw [List.append_nil]
    exact (h.ledger.put h.ring.nodup hsize (d := { s.drr b with
      queue := (s.drr b).queue ++ [size], pkts := (s.drr b).pkts + 1, bcount := (s.drr b).bcount + size })
      rfl rfl rfl rfl rfl rfl fun _ hnonneg => hnonneg hb).1 hb rfl
  · have hzero : (s.drr b).pkts = 0 := hfilled.pkts_zero.mpr hb
    have hring : Ring { s with
        drr := Function.update s.drr b { s.drr b with
          queue := (s.drr b).queue ++ [size], pkts := (s.drr b).pkts + 1, bcount := (s.drr b).bcount + size }
        pktcnt := s.pktcnt + 1
        bytecnt := s.bytecnt + size } l := ⟨h.ring.circle, h.ring.nodup, h.ring.curr⟩
    obtain ⟨nx, pv, cu, hactivate, hring'⟩ := hring.activate hb
    rw [if_pos (by omega), hactivate]
    refine ⟨_, _, l ++ [b], rfl, ⟨hring'.circle, hring'.nodup, hring'.curr⟩,
      Ledger.note (e := .activated b) ?_ fun _ => rfl⟩
    exact (h.ledger.put h.ring.nodup hsize (Function.update_idem _ _ _) (by simp) (by simp) (by simp) rfl rfl
      fun _ _ => le_rfl).2 hb rfl

lemma Books.dropOne (h : Books cfg maxSize off tr s l) (hpos : 0 < s.bytecnt) :
    ∃ s' o l', s.dropOne = some (s', o) ∧ Books cfg maxSize off (tr ++ o) s' l' ∧ s'.bytecnt < s.bytecnt := by
  have hfilled := h.ledger.filled
  obtain ⟨b, hb, hmax⟩ := h.ring.getMaxflow (hfilled.ne_nil hpos)
  obtain ⟨size, rest, hq, hsize, -⟩ := hfilled.first hb
  obtain ⟨l₁, l₂, rfl⟩ := List.append_of_mem hb
  obtain ⟨hmore, hlast⟩ := h.ledger.take h.ring.nodup hq (e := .dropped b size) fun _ => rfl
  have hpkts : ((s.takePacket b size rest).drr b).pkts = rest.length := by
    simp only [takePacket, setBucket, Function.update_self]
    rw [hfilled.pkts, hq, List.length_cons]
    push_cast
    ring
  have hbytes : (s.takePacket b size rest).bytecnt < s.bytecnt := sub_lt_self _ hsize
  unfold Drr.dropOne
  rw [hmax, Option.bind_some, hq]
  dsimp only
  rw [hpkts]
  by_cases hrest : rest = []
  · have hring : Ring (s.takePacket b size rest) (l₁ ++ b :: l₂) := ⟨h.ring.circle, h.ring.nodup, h.ring.curr⟩
    obtain ⟨nx, pv, cu, hidle, hring'⟩ := hring.idle
    rw [if_pos (by rw [hrest]; rfl), hidle]
    refine ⟨_, _, l₁ ++ l₂, rfl, ⟨⟨hring'.circle, hring'.nodup, hring'.curr⟩, ?_⟩, hbytes⟩
    rw [List.append_cons]
    refine Ledger.note (e := .idled b) ?_ fun _ => rfl
    exact (hlast hrest).congr (fun _ => rfl) (fun _ => rfl) (fun _ => rfl) rfl rfl rfl (hlast hrest).solvent
  · rw [if_neg (by simpa using hrest)]
    exact ⟨_, _, _, rfl, ⟨⟨h.ring.circle, h.ring.nodup, h.ring.curr⟩, hmore hrest⟩, hbytes⟩

lemma Books.dropLoop (fuel : ℕ) (h : Books cfg maxSize off tr s l) (hfuel : s.bytecnt < fuel) :
    ∃ s' o l', Drr.dropLoop cfg fuel s = some (s', o) ∧ Books cfg maxSize off (tr ++ o) s' l' ∧
      s'.bytecnt ≤ cfg.blimit := by
  induction fuel generalizing s l tr with
  | zero => exact absurd h.ledger.filled.bytecnt_nonneg (by simpa using hfuel)
  | succ fuel ih =>
    unfold Drr.dropLoop
    by_cases hover : s.bytecnt > cfg.blimit
    · have hpos : 0 < s.bytecnt := lt_of_le_of_lt (Int.natCast_nonneg _) hover
      obtain ⟨s₁, o₁, l₁, hone, h₁, hlt⟩ := h.dropOne hpos
      obtain ⟨s₂, o₂, l₂, htwo, h₂, hlimit⟩ := ih h₁ (by push_cast at hfuel; omega)
      rw [if_pos hover, hone, Option.bind_some, htwo]
      exact ⟨s₂, o₁ ++ o₂, l₂, rfl, by rwa [← List.append_assoc], hlimit⟩
    · rw [if_neg hover]
      exact ⟨s, [], l, rfl, by rwa [List.append_nil], not_lt.mp hover⟩

/-- The turn of a bucket begins. -/
lemma Books.credited (h : Books cfg maxSize off tr s (c :: l)) :
    Books cfg maxSize off tr (s.setBucket c (credit cfg (s.drr c))) (c :: l) := by
  refine ⟨⟨h.ring.circle, h.ring.nodup, h.ring.curr⟩, h.ledger.congr (setBucket_field PacketDRR.queue (credit_queue _))
    (setBucket_field PacketDRR.pkts (credit_pkts _)) (setBucket_field PacketDRR.bcount (credit_bcount _)) rfl rfl rfl
    fun hquantum x hx => ?_⟩
  have hnonneg := h.ledger.solvent hquantum x hx
  show 0 ≤ (Function.update s.drr c (credit cfg (s.drr c)) x).deficitCounter
  by_cases hxc : x = c
  · subst hxc
    rw [Function.update_self, credit_deficit]
    split <;> omega
  · rwa [Function.update_of_ne hxc]

/-- The turn ends because the first packet is too large. -/
lemma Books.leave (h : Books cfg maxSize off tr s (c :: l)) :
    Books cfg maxSize off (tr ++ [.left c])
      { s.setBucket c { s.drr c with turn := false } with curr := s.next c } (l ++ [c]) := by
  have hperm : (l ++ [c]).Perm (c :: l) := List.perm_append_singleton c l
  have hturn : Ledger cfg maxSize off tr s (l ++ [c]) :=
    ⟨h.ledger.filled.perm hperm.symm, h.ledger.pktcnt.trans (hperm.symm.map _).sum_eq, h.ledger.fifo,
      fun hquantum x hx => h.ledger.solvent hquantum x (hperm.mem_iff.mp hx)⟩
  have hfield : ∀ {α : Type} (f : PacketDRR → α), f { s.drr c with turn := false } = f (s.drr c) → ∀ x,
      f ((s.setBucket c { s.drr c with turn := false }).drr x) = f (s.drr x) := fun f hf => setBucket_field f hf
  refine ⟨h.ring.leave, Ledger.note (e := .left c) ?_ fun _ => rfl⟩
  refine hturn.congr (hfield PacketDRR.queue rfl) (hfield PacketDRR.pkts rfl) (hfield PacketDRR.bcount rfl) rfl rfl rfl
    fun hquantum x hx => ?_
  exact (hturn.solvent hquantum x hx).trans_eq (hfield PacketDRR.deficitCounter rfl x).symm

lemma update_field {α : Type} (f : PacketDRR → α) {d d' : PacketDRR} (hf : f d' = f d) (x : ℕ) :
    f (Function.update s.drr b d' x) = f (Function.update s.drr b d x) := by
  by_cases hx : x = b
  · subst hx
    rw [Function.update_self, Function.update_self, hf]
  · rw [Function.update_of_ne hx, Function.update_of_ne hx]

/-- The bucket in turn sends its first packet. -/
lemma Books.send (h : Books cfg maxSize off tr s (c :: l)) (hq : (s.drr c).queue = size :: rest)
    (hfits : size ≤ (s.drr c).deficitCounter) :
    ∃ s' o l', s.send c size rest = some (s', o) ∧ Books cfg maxSize off (tr ++ o) s' l' ∧
      s'.bytecnt = s.bytecnt - size := by
  have hledger : Ledger cfg maxSize off tr
      (s.setBucket c { s.drr c with deficitCounter := (s.drr c).deficitCounter - size }) ([] ++ c :: l) :=
    h.ledger.congr (setBucket_field PacketDRR.queue rfl) (setBucket_field PacketDRR.pkts rfl)
      (setBucket_field PacketDRR.bcount rfl) rfl rfl rfl fun hquantum x hx => by
        have hnonneg := h.ledger.solvent hquantum x hx
        simp only [Drr.setBucket]
        by_cases hxc : x = c
        · subst hxc
          rw [Function.update_self]
          exact sub_nonneg.mpr hfits
        · rwa [Function.update_of_ne hxc]
  obtain ⟨hmore, hlast⟩ := hledger.take h.ring.nodup (by simp only [Drr.setBucket, Function.update_self]; exact hq)
    (e := .sent c size) fun _ => rfl
  have hpkts : (s.drr c).pkts - 1 = rest.length := by
    rw [h.ledger.filled.pkts, hq, List.length_cons]
    push_cast
    ring
  unfold Drr.send
  simp only [takePacket, Drr.setBucket, Function.update_self, Function.update_idem, hpkts] at hmore hlast ⊢
  by_cases hrest : rest = []
  · have hring : Ring { s with
        drr := Function.update s.drr c ⟨rest, rest.length, (s.drr c).bcount - size, 0, false⟩
        bytecnt := s.bytecnt - size
        pktcnt := s.pktcnt - 1
        flwcnt := s.flwcnt - 1 } ([] ++ c :: l) := ⟨h.ring.circle, h.ring.nodup, h.ring.curr⟩
    obtain ⟨nx, pv, cu, hidle, hring'⟩ := hring.idle
    rw [if_pos (by rw [hrest]; rfl), hidle]
    refine ⟨_, _, l, rfl, ⟨⟨hring'.circle, hring'.nodup, hring'.curr⟩, ?_⟩, rfl⟩
    rw [List.append_cons]
    refine Ledger.note (e := .idled c) ?_ fun _ => rfl
    refine (hlast hrest).congr (update_field PacketDRR.queue rfl) (update_field PacketDRR.pkts rfl)
      (update_field PacketDRR.bcount rfl) rfl rfl rfl fun hquantum x hx => ?_
    show 0 ≤ (Function.update s.drr c _ x).deficitCounter
    by_cases hxc : x = c
    · subst hxc
      rw [Function.update_self]
    · have := (hlast hrest).solvent hquantum x hx
      simpa only [Function.update_of_ne hxc] using this
  · rw [if_neg (by simpa using hrest)]
    exact ⟨_, _, _, rfl, ⟨⟨h.ring.circle, h.ring.nodup, h.ring.curr⟩, hmore hrest⟩, rfl⟩

/-- Whatever the quantum is, the books are right when the loop of `deque` ends; it ends if the quantum is positive. -/
lemma Books.dequeLoop (fuel : ℕ) (h : Books cfg maxSize off tr s l) (hne : l ≠ []) :
    (∀ s' o, dequeLoop cfg fuel s = some (s', o) →
      s'.bytecnt ≤ s.bytecnt ∧ ∃ l', Books cfg maxSize off (tr ++ o) s' l') ∧
      (1 ≤ cfg.quantum → (l.map fun b => (s.drr b).wait).sum < fuel → ∃ r, dequeLoop cfg fuel s = some r) := by
  induction fuel generalizing s l tr with
  | zero => exact ⟨fun s' o hloop => absurd hloop nofun, fun _ hfuel => absurd hfuel (Nat.not_lt_zero _)⟩
  | succ fuel ih =>
    obtain ⟨c, l, rfl⟩ := List.exists_cons_of_ne_nil hne
    obtain ⟨size, rest, hq, hsize, -⟩ := h.ledger.filled.first List.mem_cons_self
    have hcredit := h.credited
    have hself : (s.setBucket c (Drr.credit cfg (s.drr c))).drr c = Drr.credit cfg (s.drr c) := Function.update_self _ _ _
    have hq' : ((s.setBucket c (Drr.credit cfg (s.drr c))).drr c).queue = size :: rest := by
      rw [hself, credit_queue, hq]
    unfold Drr.dequeLoop
    rw [h.ring.curr, List.head?_cons, Option.bind_some]
    dsimp only
    split
    next heq => exact absurd (hq'.symm.trans heq) (List.cons_ne_nil _ _)
    next size₁ rest₁ heq =>
    obtain ⟨rfl, rfl⟩ := List.cons.inj (hq'.symm.trans heq)
    by_cases hfits : ((s.setBucket c (Drr.credit cfg (s.drr c))).drr c).deficitCounter ≥ size
    · rw [if_pos hfits]
      obtain ⟨s₁, o₁, l₁, hsend, h₁, hbytes⟩ := hcredit.send hq' hfits
      refine ⟨fun s' o hloop => ?_, fun _ _ => ⟨_, hsend⟩⟩
      obtain ⟨rfl, rfl⟩ := Prod.mk.inj (Option.some.inj (hsend.symm.trans hloop))
      exact ⟨hbytes.trans_le (Int.sub_le_self _ hsize.le), l₁, h₁⟩
    · rw [if_neg hfits]
      obtain ⟨hright, hends⟩ := ih hcredit.leave (by simp)
      refine ⟨fun s' o hloop => ?_, fun hquantum hfuel => ?_⟩
      · obtain ⟨⟨s₁, o₁⟩, hrest, heq⟩ := Option.map_eq_some_iff.mp hloop
        obtain ⟨rfl, rfl⟩ := Prod.mk.inj heq
        obtain ⟨hbytes, l', h'⟩ := hright s₁ o₁ hrest
        exact ⟨hbytes, l', by rwa [List.append_cons]⟩
      · have hwait := sum_wait_left (List.nodup_cons.mp h.ring.nodup).1
          (wait_left hquantum hq (by rwa [hself, ge_iff_le, not_le] at hfits))
        obtain ⟨r, hloop⟩ := hends hquantum
          (by simpa [Drr.setBucket] using lt_of_lt_of_le hwait (Nat.lt_succ_iff.mp hfuel))
        rw [hloop]
        exact ⟨_, rfl⟩

lemma Books.enque (h : Books cfg maxSize off tr s l) (hsize : 0 < size ∧ size ≤ maxSize) :
    ∃ s' o, s.enque cfg b size = some (s', o) ∧ s'.bytecnt ≤ cfg.blimit ∧
      ∃ l', Books cfg maxSize (Function.update off b (off b ++ [size])) (tr ++ o) s' l' := by
  obtain ⟨s₁, o₁, l₁, hput, h₁⟩ := h.put hsize
  have hnonneg := h₁.ledger.filled.bytecnt_nonneg
  obtain ⟨s₂, o₂, l₂, hdrop, h₂, hlimit⟩ := h₁.dropLoop (s₁.bytecnt.toNat + 1) (by push_cast; omega)
  refine ⟨s₂, o₁ ++ o₂, ?_, hlimit, l₂, by rwa [← List.append_assoc]⟩
  unfold Drr.enque
  rw [hput, Option.bind_some, hdrop]
  rfl

lemma Books.deque (h : Books cfg maxSize off tr s l) :
    (∀ s' o, s.deque cfg = some (s', o) →
      s'.bytecnt ≤ s.bytecnt ∧ ∃ l', Books cfg maxSize off (tr ++ o) s' l') ∧
      (1 ≤ cfg.quantum → ∃ r, s.deque cfg = some r) := by
  have hnonneg := h.ledger.filled.bytecnt_nonneg
  unfold Drr.deque
  by_cases hzero : s.bytecnt = 0
  · rw [if_pos hzero]
    refine ⟨fun s' o hsame => ?_, fun _ => ⟨_, rfl⟩⟩
    obtain ⟨rfl, rfl⟩ := Prod.mk.inj (Option.some.inj hsame)
    exact ⟨le_rfl, l, by rwa [List.append_nil]⟩
  · rw [if_neg hzero]
    obtain ⟨hright, hends⟩ := Books.dequeLoop (2 * s.bytecnt + 1).toNat h (h.ledger.filled.ne_nil (by omega))
    refine ⟨hright, fun hquantum => hends hquantum ?_⟩
    have hwait := h.ledger.filled.wait_le (h.ledger.solvent (by omega))
    omega

/-! ### Runs -/

/-- What the scheduler counts after the events `evs`, of which `tr` has been seen. -/
structure Consistent (cfg : DrrConfig) (buckets : ℕ) (evs : List DrrEvent) (tr : List DrrTrace) (s : Drr) : Prop where
  ring : ∃ l, s.Ring l ∧ ∀ b, b ∈ l ↔ 0 < (s.drr b).pkts
  pkts : ∀ b, (s.drr b).pkts = (s.drr b).queue.length
  bcount : ∀ b, (s.drr b).bcount = (s.drr b).queue.sum
  pktcnt : s.pktcnt = ∑ b ∈ Finset.range buckets, ((s.drr b).queue.length : ℤ)
  bytecnt : s.bytecnt = ∑ b ∈ Finset.range buckets, (s.drr b).queue.sum
  flwcnt : s.flwcnt = ((Finset.range buckets).filter fun b => (s.drr b).queue ≠ []).card
  /-- What was offered to a bucket has left it in order or is still there. -/
  fifo : ∀ b, evs.filterMap (DrrEvent.offered b) = tr.filterMap (DrrTrace.gone b) ++ (s.drr b).queue
  blimit : s.bytecnt ≤ cfg.blimit

/-- The events are in the books. -/
def Recorded (cfg : DrrConfig) (maxSize : ℤ) (evs : List DrrEvent) (tr : List DrrTrace) (s : Drr) : Prop :=
  s.bytecnt ≤ cfg.blimit ∧ ∃ l, Books cfg maxSize (fun b => evs.filterMap (DrrEvent.offered b)) tr s l

variable {evs is : List DrrEvent} {ev : DrrEvent} {buckets : ℕ}

lemma Recorded.init : Recorded cfg maxSize [] [] init :=
  ⟨Int.natCast_nonneg _, [], ⟨trivial, List.nodup_nil, rfl⟩,
    ⟨fun _ => by simp [Drr.init], fun _ => rfl, fun _ => rfl, nofun, rfl, rfl⟩, rfl, fun _ => rfl, nofun⟩

lemma Recorded.step (h : Recorded cfg maxSize evs tr s)
    (hsize : ∀ which size, ev = .enque which size → 0 < size ∧ size ≤ maxSize) :
    (∀ s' o, s.step cfg ev = some (s', o) → Recorded cfg maxSize (evs ++ [ev]) (tr ++ o) s') ∧
      (1 ≤ cfg.quantum → ∃ r, s.step cfg ev = some r) := by
  obtain ⟨hlimit, l, hbooks⟩ := h
  cases ev with
  | enque which size =>
    obtain ⟨s₁, o₁, henque, hlimit₁, l₁, h₁⟩ := hbooks.enque (b := which) (hsize which size rfl)
    refine ⟨fun s' o hstep => ?_, fun _ => ⟨_, henque⟩⟩
    obtain ⟨rfl, rfl⟩ := Prod.mk.inj (Option.some.inj (henque.symm.trans hstep))
    refine ⟨hlimit₁, l₁, h₁.ring, h₁.ledger.filled, h₁.ledger.pktcnt, fun b => ?_, h₁.ledger.solvent⟩
    rw [← h₁.ledger.fifo b, List.filterMap_append]
    by_cases hb : which = b
    · subst hb
      rw [Function.update_self]
      simp [DrrEvent.offered]
    · rw [Function.update_of_ne (Ne.symm hb)]
      simp [DrrEvent.offered, hb]
  | deque =>
    obtain ⟨hright, hends⟩ := hbooks.deque
    refine ⟨fun s' o hstep => ?_, hends⟩
    obtain ⟨hbytes, l', h'⟩ := hright s' o hstep
    refine ⟨hbytes.trans hlimit, l', h'.ring, h'.ledger.filled, h'.ledger.pktcnt, fun b => ?_, h'.ledger.solvent⟩
    rw [← h'.ledger.fifo b, List.filterMap_append]
    exact List.append_nil _

lemma Recorded.run (h : Recorded cfg maxSize evs tr s)
    (hsize : ∀ which size, .enque which size ∈ is → 0 < size ∧ size ≤ maxSize) :
    (∀ s' os, run (Drr.step cfg) s is = some (s', os) → Recorded cfg maxSize (evs ++ is) (tr ++ os.flatten) s') ∧
      (1 ≤ cfg.quantum → ∃ r, Library.run (Drr.step cfg) s is = some r) := by
  induction is generalizing s evs tr with
  | nil =>
    refine ⟨fun s' os hrun => ?_, fun _ => ⟨_, rfl⟩⟩
    obtain ⟨rfl, rfl⟩ := Prod.mk.inj (Option.some.inj hrun)
    simpa using h
  | cons ev is ih =>
    have hev : ∀ which size, ev = .enque which size → 0 < size ∧ size ≤ maxSize :=
      fun which size heq => hsize which size (by simp [heq])
    obtain ⟨hright, hends⟩ := h.step hev
    have hrest : ∀ which size, .enque which size ∈ is → 0 < size ∧ size ≤ maxSize :=
      fun which size hmem => hsize which size (List.mem_cons_of_mem _ hmem)
    refine ⟨fun s' os hrun => ?_, fun hquantum => ?_⟩
    · obtain ⟨s₁, o, os, hstep, htail, rfl⟩ := run_cons_inv hrun
      simpa using (ih (hright s₁ o hstep) hrest).1 s' os htail
    · obtain ⟨⟨s₁, o⟩, hstep⟩ := hends hquantum
      obtain ⟨r, hrun⟩ := (ih (hright s₁ o hstep) hrest).2 hquantum
      rw [run_cons_of_step hstep, hrun]
      exact ⟨_, rfl⟩

lemma Recorded.consistent (h : Recorded cfg maxSize evs tr s)
    (hrange : ∀ which size, .enque which size ∈ evs → which < buckets) : Consistent cfg buckets evs tr s := by
  obtain ⟨hlimit, l, hring, hfilled, hpktcnt, hfifo, -⟩ := h
  have hempty : ∀ b, b ∉ l → (s.drr b).queue = [] := fun b hb => not_not.mp (mt (hfilled.mem b).mpr hb)
  have hmem : ∀ b ∈ l, b ∈ Finset.range buckets := by
    intro b hb
    rw [Finset.mem_range]
    obtain ⟨size, rest, hq, -, -⟩ := hfilled.first hb
    have hoffered : size ∈ evs.filterMap (DrrEvent.offered b) := by
      rw [hfifo b, hq]
      simp
    obtain ⟨ev, hev, heq⟩ := List.mem_filterMap.mp hoffered
    cases ev with
    | enque which size' =>
      by_cases hwhich : which = b
      · exact hwhich ▸ hrange which size' hev
      · rw [DrrEvent.offered, if_neg hwhich] at heq
        cases heq
    | deque => cases heq
  refine ⟨⟨l, hring, fun b => ?_⟩, hfilled.pkts, hfilled.bcount, ?_, ?_, ?_, hfifo, hlimit⟩
  · rw [hfilled.pkts, hfilled.mem, Int.natCast_pos, List.length_pos_iff]
  · rw [hpktcnt, sum_map_eq_sum hring.nodup hmem fun b hb => hfilled.pkts_zero.mpr hb]
    exact Finset.sum_congr rfl fun b _ => hfilled.pkts b
  · rw [hfilled.bytecnt, sum_map_eq_sum hring.nodup hmem fun b hb => by rw [hfilled.bcount, hempty b hb, List.sum_nil]]
    exact Finset.sum_congr rfl fun b _ => hfilled.bcount b
  · rw [hfilled.flwcnt, ← List.toFinset_card_of_nodup hring.nodup]
    congr 2
    ext b
    rw [List.mem_toFinset, Finset.mem_filter, ← hfilled.mem]
    exact ⟨fun hb => ⟨hmem b hb, hb⟩, And.right⟩

/-- The books are right after each sequence of events, and with a positive quantum each call returns. -/
lemma consistent_run (hrange : ∀ which size, .enque which size ∈ evs → which < buckets ∧ 0 < size) :
    (∀ s os, run (step cfg) init evs = some (s, os) → Consistent cfg buckets evs os.flatten s) ∧
      (1 ≤ cfg.quantum → ∃ r, run (step cfg) init evs = some r) := by
  obtain ⟨maxSize, hmax⟩ : ∃ m : ℤ, ∀ which size, .enque which size ∈ evs → size ≤ m := by
    clear hrange
    induction evs with
    | nil => exact ⟨0, nofun⟩
    | cons ev evs ih =>
      obtain ⟨m, hm⟩ := ih
      cases ev with
      | enque which size =>
        refine ⟨max size m, fun which' size' hmem => ?_⟩
        rcases List.mem_cons.mp hmem with heq | hmem
        · obtain ⟨-, rfl⟩ := DrrEvent.enque.inj heq
          exact le_max_left _ _
        · exact (hm which' size' hmem).trans (le_max_right _ _)
      | deque => exact ⟨m, fun which size hmem => hm which size (by simpa using hmem)⟩
  have hinit : Recorded cfg maxSize [] [] Drr.init := Recorded.init
  obtain ⟨hright, hends⟩ := hinit.run fun which size hmem => ⟨(hrange which size hmem).2, hmax which size hmem⟩
  refine ⟨fun s os hrun => ?_, hends⟩
  exact Recorded.consistent (hright s os hrun) fun which size hmem => (hrange which size (by simpa using hmem)).1

end Drr
end NetworkSimulator
