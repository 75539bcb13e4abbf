import NetworkSimulator.Library.Rings
import NetworkSimulator.Library.Runs
import NetworkSimulator.Queue.Drr
import Mathlib.Algebra.Order.BigOperators.Group.List
import Mathlib.Tactic.Ring
import Mathlib.Tactic.Linarith

/-!
# Deficit round robin is fair

What a backlogged bucket has sent when the scheduler leaves it, against the quanta it was given.
-/

namespace NetworkSimulator
open Library

/-- A bucket since its last activation. -/
structure Account where
  /-- How often the scheduler has visited the bucket and left it. -/
  visits : ℕ
  sent : ℤ
  deriving DecidableEq

namespace Account
variable (b : ℕ)

def book (a : Account) : DrrTrace → Account
  | .activated b' => if b' = b then ⟨0, 0⟩ else a
  | .sent b' size => if b' = b then { a with sent := a.sent + size } else a
  | .left b' => if b' = b then { a with visits := a.visits + 1 } else a
  | .dropped _ _ => a
  | .idled _ => a

/-- The account of the bucket `b` after a trace. -/
def after (tr : List DrrTrace) : Account := tr.foldl (book b) ⟨0, 0⟩

variable {b} {tr : List DrrTrace}

lemma after_append (e : DrrTrace) : after b (tr ++ [e]) = (after b tr).book b e := by
  rw [after, List.foldl_append]
  rfl

@[simp] lemma after_activated : after b (tr ++ [.activated b]) = ⟨0, 0⟩ := by
  rw [after_append]
  exact if_pos rfl

@[simp] lemma after_sent {size : ℤ} :
    after b (tr ++ [.sent b size]) = { after b tr with sent := (after b tr).sent + size } := by
  rw [after_append]
  exact if_pos rfl

@[simp] lemma after_left : after b (tr ++ [.left b]) = { after b tr with visits := (after b tr).visits + 1 } := by
  rw [after_append]
  exact if_pos rfl

lemma after_other {b' : ℕ} (h : b' ≠ b) :
    after b (tr ++ [.activated b']) = after b tr ∧ after b (tr ++ [.left b']) = after b tr ∧
      ∀ size, after b (tr ++ [.sent b' size]) = after b tr := by
  refine ⟨?_, ?_, fun size => ?_⟩ <;> rw [after_append] <;> exact if_neg h

@[simp] lemma after_dropped {b' : ℕ} {size : ℤ} : after b (tr ++ [.dropped b' size]) = after b tr :=
  after_append _

@[simp] lemma after_idled {b' : ℕ} : after b (tr ++ [.idled b']) = after b tr :=
  after_append _

end Account

/-- Each time the scheduler leaves a bucket, the bucket has had its quantum for each visit, up to one packet. -/
def FairTrace (quantum maxSize : ℤ) (tr : List DrrTrace) : Prop :=
  ∀ pre b, pre ++ [.left b] <+: tr →
    let a := Account.after b (pre ++ [.left b])
    a.sent ≤ a.visits * quantum ∧ a.visits * quantum - maxSize < a.sent

lemma FairTrace.snoc {q m : ℤ} {tr : List DrrTrace} (h : FairTrace q m tr) {e : DrrTrace}
    (he : ∀ b, e = .left b →
      let a := Account.after b (tr ++ [e])
      a.sent ≤ a.visits * q ∧ a.visits * q - m < a.sent) : FairTrace q m (tr ++ [e]) := by
  intro pre b hpre
  rcases List.prefix_concat_iff.mp hpre with heq | hpre
  · obtain ⟨rfl, hlast⟩ := List.append_inj' heq rfl
    obtain rfl := List.singleton_inj.mp hlast
    exact he b rfl
  · exact h pre b hpre

/-- The deficit against the account; a bucket in turn has its quantum already. -/
structure PacketDRR.Kept (quantum maxSize : ℤ) (d : PacketDRR) (a : Account) : Prop where
  nonneg : 0 ≤ d.deficitCounter
  given : d.deficitCounter + a.sent = (a.visits + if d.turn then 1 else 0) * quantum
  small : d.turn = false → d.deficitCounter < maxSize

/-- How often the loop of `deque` can still leave the bucket. -/
def PacketDRR.wait (d : PacketDRR) : ℕ := (d.queue.headD 0 - d.deficitCounter).toNat + if d.turn then 1 else 0

namespace Drr
variable {cfg : DrrConfig} {maxSize : ℤ} {s s' : Drr} {l l₁ l₂ : List ℕ} {b c : ℕ} {size : ℤ} {rest : List ℤ}
  {tr : List DrrTrace}

/-! ### The ring of buckets -/

/-- The buckets `l` are linked in a ring that is entered at the one in turn. -/
structure Ring (s : Drr) (l : List ℕ) : Prop where
  circle : Circle s.next s.prev l
  nodup : l.Nodup
  curr : s.curr = l.head?

/-- The buckets with packets are in the ring and all counts are right. -/
structure Filled (maxSize : ℤ) (s : Drr) (l : List ℕ) : Prop where
  mem : ∀ b, b ∈ l ↔ (s.drr b).queue ≠ []
  pkts : ∀ b, (s.drr b).pkts = (s.drr b).queue.length
  bcount : ∀ b, (s.drr b).bcount = (s.drr b).queue.sum
  size : ∀ b, ∀ x ∈ (s.drr b).queue, 0 < x ∧ x ≤ maxSize
  bytecnt : s.bytecnt = (l.map fun b => (s.drr b).bcount).sum
  flwcnt : s.flwcnt = l.length

/-- The deficit of each backlogged bucket is what it has been given and has not sent. -/
def Booked (quantum maxSize : ℤ) (s : Drr) (tr : List DrrTrace) : Prop :=
  ∀ b, (s.drr b).queue ≠ [] → (s.drr b).Kept quantum maxSize (Account.after b tr)

lemma Ring.ne_nil (h : s.Ring l) (hc : s.curr = some c) : ∃ l', l = c :: l' := by
  rw [h.curr] at hc
  exact ⟨l.tail, (List.cons_head?_tail hc).symm⟩

/-- The links of the buckets, entered at the one in turn. -/
def links (s : Drr) : RingLinks ℕ := ⟨s.next, s.prev, s.curr⟩

lemma activate_eq : s.activate b =
    (s.links.join b).map fun k => { s with next := k.next, prev := k.prev, curr := k.head } := by
  unfold Drr.activate RingLinks.join links
  cases s.curr with
  | none => rfl
  | some head =>
    cases hp : s.prev head with
    | none => simp [hp]
    | some p => simp [hp]

lemma unlink_eq : s.unlink b =
    (s.links.unlink b).map fun k => { s with next := k.next, prev := k.prev } := by
  unfold Drr.unlink RingLinks.unlink links
  cases hn : s.next b with
  | none => simp [hn]
  | some n => simp [hn, Function.comp_def]

lemma Ring.holds (h : s.Ring l) : s.links.Holds l := ⟨h.circle, h.nodup, h.curr⟩

/-- A bucket is put behind all others. -/
lemma Ring.activate (h : s.Ring l) (hb : b ∉ l) :
    ∃ nx pv cu, s.activate b = some { s with next := nx, prev := pv, curr := cu } ∧
      Ring { s with next := nx, prev := pv, curr := cu } (l ++ [b]) := by
  obtain ⟨k, hjoin, hk⟩ := h.holds.join hb
  exact ⟨k.next, k.prev, k.head, by rw [activate_eq, hjoin]; rfl, hk.circle, hk.nodup, hk.head⟩

/-- A bucket is taken out of the ring. -/
lemma Ring.idle (h : s.Ring (l₁ ++ b :: l₂)) :
    ∃ nx pv cu, s.idle b = some { s with next := nx, prev := pv, curr := cu } ∧
      Ring { s with next := nx, prev := pv, curr := cu } (l₁ ++ l₂) := by
  unfold Drr.idle
  cases l₁ with
  | nil =>
    obtain ⟨k, hleave, hk⟩ := RingLinks.Holds.leaveHead (l := l₂) h.holds
    refine ⟨k.next, k.prev, k.head, ?_, hk.circle, hk.nodup, hk.head⟩
    rw [if_pos (by rw [h.curr]; rfl), unlink_eq]
    unfold RingLinks.leaveHead at hleave
    change (if s.next b = some b then _ else _) = _ at hleave
    by_cases hnext : s.next b = some b
    · rw [if_pos hnext] at hleave
      obtain rfl := Option.some.inj hleave
      rw [if_pos hnext]
      rfl
    · rw [if_neg hnext] at hleave
      obtain ⟨k', hunlink, rfl⟩ := Option.map_eq_some_iff.mp hleave
      rw [if_neg hnext, hunlink]
      rfl
  | cons c l₁ =>
    have hcb : c ≠ b := fun heq => (List.nodup_cons.mp h.nodup).1 (by simp [heq])
    have hcurr : s.curr ≠ some b := by
      rw [h.curr]
      exact fun heq => hcb (Option.some.inj heq)
    obtain ⟨nx, pv, hunlink, hcircle, hnodup, -⟩ := h.holds.unlink (by simp)
    rw [if_neg hcurr, unlink_eq, hunlink]
    exact ⟨nx, pv, s.curr, rfl, hcircle, hnodup, h.curr⟩

/-- The next bucket is in turn. -/
lemma Ring.leave (h : s.Ring (c :: l)) {d : PacketDRR} :
    Ring { s.setBucket c d with curr := s.next c } (l ++ [c]) := by
  refine ⟨Circle.rotate h.circle, (List.perm_append_comm.nodup_iff).mp h.nodup, ?_⟩
  show s.next c = _
  rw [Circle.next_eq h.circle]
  cases l <;> rfl

/-! ### Packets enter and leave -/

lemma Filled.sum_update (hb : b ∉ l) {d : PacketDRR} :
    (l.map fun x => (Function.update s.drr b d x).bcount).sum = (l.map fun x => (s.drr x).bcount).sum := by
  congr 1
  exact List.map_congr_left fun x hx => by rw [Function.update_of_ne (ne_of_mem_of_not_mem hx hb)]

/-- Nothing but the contents of the buckets is counted. -/
lemma Filled.congr (h : Filled maxSize s l) (hq : ∀ b, (s'.drr b).queue = (s.drr b).queue)
    (hp : ∀ b, (s'.drr b).pkts = (s.drr b).pkts) (hc : ∀ b, (s'.drr b).bcount = (s.drr b).bcount)
    (hbytes : s'.bytecnt = s.bytecnt) (hflw : s'.flwcnt = s.flwcnt) : Filled maxSize s' l where
  mem b := by rw [hq, h.mem]
  pkts b := by rw [hp, hq, h.pkts]
  bcount b := by rw [hc, hq, h.bcount]
  size b := by rw [hq]; exact h.size b
  bytecnt := by
    rw [hbytes, h.bytecnt]
    congr 1
    exact List.map_congr_left fun x _ => (hc x).symm
  flwcnt := by rw [hflw, h.flwcnt]

/-- The order of the ring does not matter to the counts. -/
lemma Filled.perm (h : Filled maxSize s l) {l' : List ℕ} (hperm : l.Perm l') : Filled maxSize s l' where
  mem b := by rw [← hperm.mem_iff, h.mem]
  pkts := h.pkts
  bcount := h.bcount
  size := h.size
  bytecnt := h.bytecnt.trans (hperm.map _).sum_eq
  flwcnt := by rw [h.flwcnt, hperm.length_eq]

/-- What is left when the first packet of `b` is taken, before an empty bucket leaves the ring. -/
lemma Filled.take (h : Filled maxSize s (l₁ ++ b :: l₂)) (hnd : (l₁ ++ b :: l₂).Nodup)
    (hq : (s.drr b).queue = size :: rest) :
    (rest ≠ [] → Filled maxSize (s.takePacket b size rest) (l₁ ++ b :: l₂)) ∧
      (rest = [] → Filled maxSize { s.takePacket b size rest with flwcnt := s.flwcnt - 1 } (l₁ ++ l₂)) := by
  have hpkts : ∀ x, ((s.takePacket b size rest).drr x).pkts = ((s.takePacket b size rest).drr x).queue.length := by
    intro x
    have := h.pkts x
    by_cases hx : x = b
    · subst hx
      simp only [takePacket, setBucket, Function.update_self]
      rw [this, hq, List.length_cons]
      push_cast
      ring
    · simpa only [takePacket, setBucket, Function.update_of_ne hx] using this
  have hbcount : ∀ x, ((s.takePacket b size rest).drr x).bcount = ((s.takePacket b size rest).drr x).queue.sum := by
    intro x
    have := h.bcount x
    by_cases hx : x = b
    · subst hx
      simp only [takePacket, setBucket, Function.update_self]
      rw [this, hq, List.sum_cons]
      ring
    · simpa only [takePacket, setBucket, Function.update_of_ne hx] using this
  have hsize : ∀ x, ∀ y ∈ ((s.takePacket b size rest).drr x).queue, 0 < y ∧ y ≤ maxSize := by
    intro x y hy
    by_cases hx : x = b
    · subst hx
      simp only [takePacket, setBucket, Function.update_self] at hy
      exact h.size x y (by rw [hq]; exact List.mem_cons_of_mem _ hy)
    · simp only [takePacket, setBucket, Function.update_of_ne hx] at hy
      exact h.size x y hy
  have hb₁ : b ∉ l₁ := fun hb => (List.disjoint_of_nodup_append hnd) hb List.mem_cons_self
  have hb₂ : b ∉ l₂ := (List.nodup_cons.mp hnd.of_append_right).1
  have hsum : (s.takePacket b size rest).bytecnt =
      ((l₁ ++ b :: l₂).map fun x => ((s.takePacket b size rest).drr x).bcount).sum := by
    have := h.bytecnt
    simp only [List.map_append, List.map_cons, List.sum_append, List.sum_cons] at this ⊢
    simp only [takePacket, setBucket, Filled.sum_update hb₁, Filled.sum_update hb₂, Function.update_self]
    rw [this]
    ring
  have hqueue : ∀ x, x ≠ b → ((s.takePacket b size rest).drr x).queue = (s.drr x).queue := fun x hx => by
    simp only [takePacket, setBucket, Function.update_of_ne hx]
  have hqueueb : ((s.takePacket b size rest).drr b).queue = rest := by
    simp only [takePacket, setBucket, Function.update_self]
  refine ⟨fun hne => ⟨fun x => ?_, hpkts, hbcount, hsize, hsum, h.flwcnt⟩,
    fun hnil => ⟨fun x => ?_, hpkts, hbcount, hsize, ?_, ?_⟩⟩
  · by_cases hx : x = b
    · subst hx
      rw [hqueueb]
      simp [hne]
    · rw [hqueue x hx, h.mem]
  · by_cases hx : x = b
    · subst hx
      refine iff_of_false (fun hmem => ?_) (not_not_intro (hqueueb.trans hnil))
      exact (List.mem_append.mp hmem).elim hb₁ hb₂
    · show _ ↔ ((s.takePacket b size rest).drr x).queue ≠ []
      rw [hqueue x hx, ← h.mem]
      simp [hx]
  · have hb : ((s.takePacket b size rest).drr b).bcount = 0 :=
      (hbcount b).trans (by rw [hqueueb, hnil, List.sum_nil])
    rw [List.map_append, List.map_cons, List.sum_append, List.sum_cons, hb, zero_add, ← List.sum_append,
      ← List.map_append] at hsum
    exact hsum
  · show s.flwcnt - 1 = _
    rw [h.flwcnt]
    simp only [List.length_append, List.length_cons]
    push_cast
    ring

/-- A packet is put at the end of `b`. -/
lemma Filled.put (h : Filled maxSize s l) (hnd : l.Nodup) (hsize : 0 < size ∧ size ≤ maxSize) {d : PacketDRR}
    (hdrr : s'.drr = Function.update s.drr b d) (hdq : d.queue = (s.drr b).queue ++ [size])
    (hdp : d.pkts = (s.drr b).pkts + 1) (hdc : d.bcount = (s.drr b).bcount + size)
    (hbytes : s'.bytecnt = s.bytecnt + size) :
    (b ∈ l → s'.flwcnt = s.flwcnt → Filled maxSize s' l) ∧
      (b ∉ l → s'.flwcnt = s.flwcnt + 1 → Filled maxSize s' (l ++ [b])) := by
  have hpkts : ∀ x, (s'.drr x).pkts = (s'.drr x).queue.length := by
    intro x
    have := h.pkts x
    rw [hdrr]
    by_cases hx : x = b
    · subst hx
      rw [Function.update_self, hdp, hdq, this, List.length_append]
      rfl
    · rwa [Function.update_of_ne hx]
  have hbcount : ∀ x, (s'.drr x).bcount = (s'.drr x).queue.sum := by
    intro x
    have := h.bcount x
    rw [hdrr]
    by_cases hx : x = b
    · subst hx
      rw [Function.update_self, hdc, hdq, this, List.sum_append, List.sum_singleton]
    · rwa [Function.update_of_ne hx]
  have hsizes : ∀ x, ∀ y ∈ (s'.drr x).queue, 0 < y ∧ y ≤ maxSize := by
    intro x y hy
    rw [hdrr] at hy
    by_cases hx : x = b
    · subst hx
      rw [Function.update_self, hdq] at hy
      rcases List.mem_append.mp hy with hy | hy
      · exact h.size x y hy
      · rwa [List.mem_singleton.mp hy]
    · rw [Function.update_of_ne hx] at hy
      exact h.size x y hy
  have hmem : ∀ x, x ≠ b → ((s'.drr x).queue ≠ [] ↔ x ∈ l) := fun x hx => by
    rw [hdrr, Function.update_of_ne hx, h.mem]
  have hmemb : (s'.drr b).queue ≠ [] := by
    rw [hdrr, Function.update_self, hdq]
    simp
  refine ⟨fun hb hflw => ⟨fun x => ?_, hpkts, hbcount, hsizes, ?_, by rw [hflw, h.flwcnt]⟩,
    fun hb hflw => ⟨fun x => ?_, hpkts, hbcount, hsizes, ?_, by rw [hflw, h.flwcnt]; simp⟩⟩
  · by_cases hx : x = b
    · subst hx
      exact iff_of_true hb hmemb
    · exact (hmem x hx).symm
  · obtain ⟨l₁, l₂, rfl⟩ := List.append_of_mem hb
    have hb₁ : b ∉ l₁ := fun hb => (List.disjoint_of_nodup_append hnd) hb List.mem_cons_self
    have hb₂ : b ∉ l₂ := (List.nodup_cons.mp hnd.of_append_right).1
    have := h.bytecnt
    simp only [List.map_append, List.map_cons, List.sum_append, List.sum_cons] at this ⊢
    rw [hbytes, hdrr, Filled.sum_update hb₁, Filled.sum_update hb₂, Function.update_self, hdc, this]
    ring
  · by_cases hx : x = b
    · subst hx
      exact iff_of_true (by simp) hmemb
    · rw [hmem x hx]
      simp [hx]
  · have hzero : (s.drr b).bcount = 0 := by
      rw [h.bcount, not_not.mp (mt (h.mem b).mpr hb), List.sum_nil]
    simp only [List.map_append, List.map_cons, List.sum_append, List.map_nil, List.sum_cons, List.sum_nil]
    rw [hbytes, hdrr, Filled.sum_update hb, Function.update_self, hdc, hzero, h.bytecnt]
    ring

/-! ### What one call preserves -/

/-- The scheduler in good order, with the trace of what it has done. -/
structure Serves (quantum maxSize : ℤ) (s : Drr) (l : List ℕ) (tr : List DrrTrace) : Prop where
  ring : s.Ring l
  filled : s.Filled maxSize l
  booked : s.Booked quantum maxSize tr
  fair : FairTrace quantum maxSize tr

variable {q : ℤ}

lemma Booked.update (h : s.Booked q maxSize tr) {d : PacketDRR} {tr' : List DrrTrace}
    (hdrr : s'.drr = Function.update s.drr b d) (hb : d.queue ≠ [] → d.Kept q maxSize (Account.after b tr'))
    (hother : ∀ x, x ≠ b → Account.after x tr' = Account.after x tr) : s'.Booked q maxSize tr' := by
  intro x hx
  rw [hdrr] at hx ⊢
  by_cases hxb : x = b
  · subst hxb
    rw [Function.update_self] at hx ⊢
    exact hb hx
  · rw [Function.update_of_ne hxb] at hx ⊢
    rw [hother x hxb]
    exact h x hx

/-- The bucket with the most bytes is one with packets. -/
lemma maxflow_mem {n : ℕ} {t m : ℕ} (hcircle : ∀ x ∈ l, ∃ y ∈ l, s.next x = some y) (ht : t ∈ l) (hm : m ∈ l) :
    ∃ r ∈ l, s.maxflow n (some t) m = some r := by
  induction n generalizing t m with
  | zero => exact ⟨m, hm, rfl⟩
  | succ n ih =>
    obtain ⟨y, hy, hnext⟩ := hcircle t ht
    unfold maxflow
    rw [Option.bind_some, hnext]
    refine ih hy ?_
    split
    · exact ht
    · exact hm

lemma Ring.next_mem (h : s.Ring l) {x : ℕ} (hx : x ∈ l) : ∃ y ∈ l, s.next x = some y := by
  obtain ⟨l₁, l₂, rfl⟩ := List.append_of_mem hx
  have hring : Circle s.next s.prev (x :: (l₂ ++ l₁)) := h.circle.enter
  have hnext := hring.next_eq
  cases hrest : l₂ ++ l₁ with
  | nil =>
    rw [hrest] at hnext
    exact ⟨x, hx, hnext⟩
  | cons y rest =>
    rw [hrest] at hnext
    have hy : y ∈ l₂ ++ l₁ := hrest ▸ List.mem_cons_self
    exact ⟨y, by rcases List.mem_append.mp hy with hy | hy <;> simp [hy], hnext⟩

lemma Ring.getMaxflow (h : s.Ring l) (hne : l ≠ []) : ∃ r ∈ l, s.getMaxflow = some r := by
  obtain ⟨c, l, rfl⟩ := List.exists_cons_of_ne_nil hne
  unfold Drr.getMaxflow
  rw [h.curr]
  exact maxflow_mem (fun x hx => h.next_mem hx) List.mem_cons_self List.mem_cons_self

lemma Filled.ne_nil (h : Filled maxSize s l) (hpos : 0 < s.bytecnt) : l ≠ [] := by
  rintro rfl
  rw [h.bytecnt] at hpos
  exact absurd hpos (lt_irrefl 0)

lemma Filled.bytecnt_nonneg (h : Filled maxSize s l) : 0 ≤ s.bytecnt := by
  rw [h.bytecnt]
  refine List.sum_nonneg fun x hx => ?_
  obtain ⟨b, -, rfl⟩ := List.mem_map.mp hx
  rw [h.bcount]
  exact List.sum_nonneg fun y hy => (h.size b y hy).1.le

lemma Filled.first (h : Filled maxSize s l) (hb : b ∈ l) :
    ∃ size rest, (s.drr b).queue = size :: rest ∧ 0 < size ∧ size ≤ maxSize := by
  obtain ⟨size, rest, hq⟩ := List.exists_cons_of_ne_nil ((h.mem b).mp hb)
  exact ⟨size, rest, hq, h.size b size (hq ▸ List.mem_cons_self)⟩

lemma Filled.pkts_zero (h : Filled maxSize s l) : (s.drr b).pkts = 0 ↔ b ∉ l := by
  rw [h.pkts, h.mem, not_not, ← List.length_eq_zero_iff]
  exact Nat.cast_eq_zero

lemma Serves.dropOne (h : Serves q maxSize s l tr) (hpos : 0 < s.bytecnt) :
    ∃ s' o l', s.dropOne = some (s', o) ∧ Serves q maxSize s' l' (tr ++ o) ∧ s'.bytecnt < s.bytecnt := by
  obtain ⟨b, hb, hmax⟩ := h.ring.getMaxflow (h.filled.ne_nil hpos)
  obtain ⟨size, rest, hq, hsize, -⟩ := h.filled.first hb
  obtain ⟨l₁, l₂, rfl⟩ := List.append_of_mem hb
  obtain ⟨hmore, hlast⟩ := h.filled.take h.ring.nodup hq
  have hpkts : ((s.takePacket b size rest).drr b).pkts = rest.length := by
    simp only [takePacket, setBucket, Function.update_self]
    rw [h.filled.pkts, hq, List.length_cons]
    push_cast
    ring
  have hfair : FairTrace q maxSize (tr ++ [.dropped b size]) := h.fair.snoc nofun
  have hbytes : (s.takePacket b size rest).bytecnt < s.bytecnt := sub_lt_self _ hsize
  have hkept : (s.drr b).Kept q maxSize (Account.after b tr) := h.booked b (by rw [hq]; exact List.cons_ne_nil _ _)
  unfold Drr.dropOne
  rw [hmax, Option.bind_some, hq]
  dsimp only
  rw [hpkts]
  by_cases hrest : rest = []
  · have hring : Ring (s.takePacket b size rest) (l₁ ++ b :: l₂) := ⟨h.ring.circle, h.ring.nodup, h.ring.curr⟩
    obtain ⟨nx, pv, cu, hidle, hring'⟩ := hring.idle
    rw [if_pos (by rw [hrest]; rfl), hidle]
    refine ⟨_, _, l₁ ++ l₂, rfl, ⟨⟨hring'.circle, hring'.nodup, hring'.curr⟩, ?_, ?_, ?_⟩, hbytes⟩
    · exact (hlast hrest).congr (fun _ => rfl) (fun _ => rfl) (fun _ => rfl) rfl rfl
    · rw [List.append_cons]
      exact h.booked.update rfl (fun hne => absurd hrest hne) fun x _ => by
        rw [Account.after_idled, Account.after_dropped]
    · rw [List.append_cons]
      exact hfair.snoc nofun
  · rw [if_neg (by simpa using hrest)]
    refine ⟨_, _, _, rfl, ⟨⟨h.ring.circle, h.ring.nodup, h.ring.curr⟩, hmore hrest, ?_, hfair⟩, hbytes⟩
    exact h.booked.update rfl (fun _ => by rw [Account.after_dropped]; exact ⟨hkept.1, hkept.2, hkept.3⟩)
      fun x _ => Account.after_dropped

lemma Serves.dropLoop (cfg : DrrConfig) (fuel : ℕ) (h : Serves q maxSize s l tr) (hfuel : s.bytecnt < fuel) :
    ∃ s' o l', Drr.dropLoop cfg fuel s = some (s', o) ∧ Serves q maxSize s' l' (tr ++ o) := by
  induction fuel generalizing s l tr with
  | zero => exact absurd h.filled.bytecnt_nonneg (by simpa using hfuel)
  | succ fuel ih =>
    unfold Drr.dropLoop
    by_cases hover : s.bytecnt > cfg.blimit
    · have hpos : 0 < s.bytecnt := lt_of_le_of_lt (Int.natCast_nonneg _) hover
      obtain ⟨s₁, o₁, l₁, hone, h₁, hlt⟩ := h.dropOne hpos
      obtain ⟨s₂, o₂, l₂, htwo, h₂⟩ := ih h₁ (by push_cast at hfuel; omega)
      rw [if_pos hover, hone, Option.bind_some, htwo]
      exact ⟨s₂, o₁ ++ o₂, l₂, rfl, by rwa [← List.append_assoc]⟩
    · rw [if_neg hover]
      exact ⟨s, [], l, rfl, by rwa [List.append_nil]⟩

lemma Serves.put (h : Serves q maxSize s l tr) (hsize : 0 < size ∧ size ≤ maxSize)
    (hturn : (s.drr b).pkts = 0 → (s.drr b).turn = false) :
    ∃ s' o l', s.put b size = some (s', o) ∧ Serves q maxSize s' l' (tr ++ o) ∧ s'.bytecnt = s.bytecnt + size := by
  unfold Drr.put
  simp only [setBucket, Function.update_self]
  by_cases hb : b ∈ l
  · have hne : (s.drr b).pkts ≠ 0 := fun hzero => h.filled.pkts_zero.mp hzero hb
    have hkept := h.booked b ((h.filled.mem b).mp hb)
    rw [if_neg (by omega)]
    refine ⟨_, _, l, rfl, ⟨⟨h.ring.circle, h.ring.nodup, h.ring.curr⟩, ?_, ?_, ?_⟩, rfl⟩
    · exact (h.filled.put h.ring.nodup hsize rfl rfl rfl rfl rfl).1 hb rfl
    · rw [List.append_nil]
      exact h.booked.update rfl (fun _ => ⟨hkept.1, hkept.2, hkept.3⟩) fun _ _ => rfl
    · rw [List.append_nil]
      exact h.fair
  · have hzero : (s.drr b).pkts = 0 := h.filled.pkts_zero.mpr hb
    have hring : Ring { s with
        drr := Function.update s.drr b { s.drr b with
          queue := (s.drr b).queue ++ [size], pkts := (s.drr b).pkts + 1, bcount := (s.drr b).bcount + size }
        pktcnt := s.pktcnt + 1
        bytecnt := s.bytecnt + size } l := ⟨h.ring.circle, h.ring.nodup, h.ring.curr⟩
    obtain ⟨nx, pv, cu, hactivate, hring'⟩ := hring.activate hb
    rw [if_pos (by omega), hactivate]
    refine ⟨_, _, l ++ [b], rfl, ⟨⟨hring'.circle, hring'.nodup, hring'.curr⟩, ?_, ?_, h.fair.snoc nofun⟩, rfl⟩
    · exact (h.filled.put h.ring.nodup hsize (Function.update_idem _ _ _) (by simp) (by simp) (by simp) rfl).2 hb rfl
    · refine h.booked.update (Function.update_idem _ _ _) (fun _ => ?_) fun x hx => (Account.after_other hx.symm).1
      simp only [Function.update_self, Account.after_activated, hturn hzero]
      exact ⟨le_rfl, by simp, fun _ => hsize.1.trans_le hsize.2⟩

/-! ### Departures -/

section Credit
variable (d : PacketDRR)

@[simp] lemma credit_queue : (credit cfg d).queue = d.queue := by unfold credit; split <;> rfl
@[simp] lemma credit_pkts : (credit cfg d).pkts = d.pkts := by unfold credit; split <;> rfl
@[simp] lemma credit_bcount : (credit cfg d).bcount = d.bcount := by unfold credit; split <;> rfl

@[simp] lemma credit_turn : (credit cfg d).turn = true := by
  unfold credit
  split
  · assumption
  · rfl

lemma credit_deficit : (credit cfg d).deficitCounter = d.deficitCounter + if d.turn then 0 else cfg.quantum := by
  unfold credit
  split
  · exact (add_zero _).symm
  · rfl

end Credit

lemma setBucket_field {α : Type*} (f : PacketDRR → α) {d : PacketDRR} (hf : f d = f (s.drr b)) (x : ℕ) :
    f ((s.setBucket b d).drr x) = f (s.drr x) := by
  show f (Function.update s.drr b d x) = _
  by_cases hx : x = b
  · subst hx
    rw [Function.update_self, hf]
  · rw [Function.update_of_ne hx]

lemma Filled.setBucket (h : Filled maxSize s l) {d : PacketDRR} (hq : d.queue = (s.drr b).queue)
    (hp : d.pkts = (s.drr b).pkts) (hc : d.bcount = (s.drr b).bcount) : Filled maxSize (s.setBucket b d) l :=
  h.congr (setBucket_field PacketDRR.queue hq) (setBucket_field PacketDRR.pkts hp)
    (setBucket_field PacketDRR.bcount hc) rfl rfl

/-- The turn of a bucket begins. -/
lemma Serves.credited (h : Serves cfg.quantum maxSize s (c :: l) tr) (hquantum : 1 ≤ cfg.quantum) :
    Serves cfg.quantum maxSize (s.setBucket c (credit cfg (s.drr c))) (c :: l) tr := by
  have hkept := h.booked c ((h.filled.mem c).mp List.mem_cons_self)
  have hgiven := hkept.given
  refine ⟨⟨h.ring.circle, h.ring.nodup, h.ring.curr⟩, ?_, ?_, h.fair⟩
  · exact h.filled.setBucket (credit_queue _) (credit_pkts _) (credit_bcount _)
  · refine h.booked.update rfl (fun _ => ⟨?_, ?_, fun hturn => ?_⟩) fun _ _ => rfl
    · have := hkept.nonneg
      rw [credit_deficit]
      split <;> omega
    · rw [credit_deficit, credit_turn, if_pos rfl]
      by_cases hturn : (s.drr c).turn
      · rw [if_pos hturn] at hgiven ⊢
        rw [add_zero, hgiven]
      · rw [if_neg hturn] at hgiven ⊢
        linarith
    · rw [credit_turn] at hturn
      cases hturn

/-- The turn ends because the first packet is too large. -/
lemma Serves.leave (h : Serves q maxSize s (c :: l) tr) (hturn : (s.drr c).turn = true)
    (hq : (s.drr c).queue = size :: rest) (hlarge : (s.drr c).deficitCounter < size) :
    Serves q maxSize { s.setBucket c { s.drr c with turn := false } with curr := s.next c } (l ++ [c])
      (tr ++ [.left c]) := by
  have hkept := h.booked c ((h.filled.mem c).mp List.mem_cons_self)
  have hgiven := hkept.given
  have hnonneg := hkept.nonneg
  have hsize := (h.filled.size c size (hq ▸ List.mem_cons_self)).2
  rw [if_pos hturn] at hgiven
  refine ⟨h.ring.leave, ?_, ?_, ?_⟩
  · have hfilled := h.filled.setBucket (d := { s.drr c with turn := false }) rfl rfl rfl
    exact (hfilled.perm (List.perm_append_singleton c l).symm).congr (fun _ => rfl) (fun _ => rfl) (fun _ => rfl) rfl rfl
  · refine h.booked.update rfl (fun _ => ⟨hnonneg, ?_, fun _ => hlarge.trans_le hsize⟩) fun x hx =>
      (Account.after_other hx.symm).2.1
    rw [Account.after_left]
    simp only [Bool.false_eq_true, if_false]
    push_cast
    linarith
  · refine h.fair.snoc fun b hb => ?_
    obtain rfl := DrrTrace.left.inj hb
    rw [Account.after_left]
    dsimp only
    push_cast
    constructor <;> linarith

/-- The bucket in turn sends its first packet. -/
lemma Serves.send (h : Serves q maxSize s (c :: l) tr) (hturn : (s.drr c).turn = true)
    (hq : (s.drr c).queue = size :: rest) (hfits : size ≤ (s.drr c).deficitCounter) :
    ∃ s' o l', s.send c size rest = some (s', o) ∧ Serves q maxSize s' l' (tr ++ o) ∧ .sent c size ∈ o := by
  have hkept := h.booked c ((h.filled.mem c).mp List.mem_cons_self)
  have hgiven := hkept.given
  rw [if_pos hturn] at hgiven
  have hfilled := h.filled.setBucket (b := c)
    (d := { s.drr c with deficitCounter := (s.drr c).deficitCounter - size }) rfl rfl rfl
  have hq' : ((s.setBucket c { s.drr c with deficitCounter := (s.drr c).deficitCounter - size }).drr c).queue =
      size :: rest := by
    simp only [Drr.setBucket, Function.update_self, hq]
  obtain ⟨hmore, hlast⟩ := (show Filled maxSize _ ([] ++ c :: l) from hfilled).take h.ring.nodup hq'
  have hfair : FairTrace q maxSize (tr ++ [.sent c size]) := h.fair.snoc nofun
  have hpkts : (s.drr c).pkts - 1 = rest.length := by
    rw [h.filled.pkts, hq, List.length_cons]
    push_cast
    ring
  unfold Drr.send
  simp only [takePacket, Drr.setBucket, Function.update_self, Function.update_idem, hpkts] at hmore hlast ⊢
  by_cases hrest : rest = []
  · rw [if_pos (by rw [hrest]; rfl)]
    have hring : Ring { s with
        drr := Function.update s.drr c ⟨rest, rest.length, (s.drr c).bcount - size, 0, false⟩
        bytecnt := s.bytecnt - size
        pktcnt := s.pktcnt - 1
        flwcnt := s.flwcnt - 1 } ([] ++ c :: l) := ⟨h.ring.circle, h.ring.nodup, h.ring.curr⟩
    obtain ⟨nx, pv, cu, hidle, hring'⟩ := hring.idle
    rw [hidle]
    refine ⟨_, _, l, rfl, ⟨⟨hring'.circle, hring'.nodup, hring'.curr⟩, ?_, ?_, ?_⟩, List.mem_cons_self⟩
    · have hsame := (hlast hrest).setBucket (b := c)
        (d := ⟨rest, rest.length, (s.drr c).bcount - size, 0, false⟩) (by simp) (by simp) (by simp)
      simp only [Drr.setBucket, Function.update_idem, List.nil_append] at hsame
      exact hsame.congr (fun _ => rfl) (fun _ => rfl) (fun _ => rfl) rfl rfl
    · rw [List.append_cons]
      exact h.booked.update rfl (fun hne => absurd hrest hne) fun x hx => by
        rw [Account.after_idled, (Account.after_other hx.symm).2.2 size]
    · rw [List.append_cons]
      exact hfair.snoc nofun
  · rw [if_neg (by simpa using hrest)]
    refine ⟨_, _, _, rfl, ⟨⟨h.ring.circle, h.ring.nodup, h.ring.curr⟩, hmore hrest, ?_, hfair⟩, List.mem_singleton_self _⟩
    refine h.booked.update rfl (fun _ => ⟨?_, ?_, fun hout => ?_⟩) fun x hx =>
      (Account.after_other hx.symm).2.2 size
    · exact sub_nonneg.mpr hfits
    · rw [Account.after_sent]
      simp only [hturn, if_true]
      linarith
    · exact absurd (hturn.symm.trans hout) (by decide)

/-- A turn without a packet brings the bucket closer to its next packet. -/
lemma wait_left {d : PacketDRR} (hquantum : 1 ≤ cfg.quantum) (hq : d.queue = size :: rest)
    (hlarge : (credit cfg d).deficitCounter < size) : ({ credit cfg d with turn := false } : PacketDRR).wait < d.wait := by
  rw [credit_deficit] at hlarge
  unfold PacketDRR.wait
  simp only [credit_queue, credit_deficit, hq, List.headD_cons, Bool.false_eq_true, if_false]
  split at hlarge
  next hturn =>
    rw [if_pos hturn, if_pos hturn, add_zero]
    omega
  next hturn =>
    rw [if_neg hturn, if_neg hturn]
    omega

lemma sum_wait_left (hc : c ∉ l) {d : PacketDRR} (hd : d.wait < (s.drr c).wait) :
    ((l ++ [c]).map fun b => (Function.update s.drr c d b).wait).sum < ((c :: l).map fun b => (s.drr b).wait).sum := by
  have hother : l.map (fun b => (Function.update s.drr c d b).wait) = l.map fun b => (s.drr b).wait :=
    List.map_congr_left fun b hb => by rw [Function.update_of_ne (ne_of_mem_of_not_mem hb hc)]
  rw [List.map_append, List.sum_append, hother, List.map_singleton, List.sum_singleton, Function.update_self,
    List.map_cons, List.sum_cons]
  omega

lemma Serves.dequeLoop (hquantum : 1 ≤ cfg.quantum) (fuel : ℕ) (h : Serves cfg.quantum maxSize s l tr) (hne : l ≠ [])
    (hfuel : (l.map fun b => (s.drr b).wait).sum < fuel) :
    ∃ s' o l' b size, dequeLoop cfg fuel s = some (s', o) ∧ Serves cfg.quantum maxSize s' l' (tr ++ o) ∧
      .sent b size ∈ o := by
  induction fuel generalizing s l tr with
  | zero => exact absurd hfuel (Nat.not_lt_zero _)
  | succ fuel ih =>
    obtain ⟨c, l, rfl⟩ := List.exists_cons_of_ne_nil hne
    obtain ⟨size, rest, hq, -, -⟩ := h.filled.first List.mem_cons_self
    have hcredit := h.credited hquantum
    have hself : (s.setBucket c (Drr.credit cfg (s.drr c))).drr c = Drr.credit cfg (s.drr c) := Function.update_self _ _ _
    have hq' : ((s.setBucket c (Drr.credit cfg (s.drr c))).drr c).queue = size :: rest := by
      rw [hself, credit_queue, hq]
    unfold Drr.dequeLoop
    rw [h.ring.curr, List.head?_cons, Option.bind_some]
    dsimp only
    split
    next heq => exact absurd (hq'.symm.trans heq) (List.cons_ne_nil _ _)
    next size₁ rest₁ heq =>
    obtain ⟨rfl, rfl⟩ := List.cons.inj (hq'.symm.trans heq)
    by_cases hfits : ((s.setBucket c (Drr.credit cfg (s.drr c))).drr c).deficitCounter ≥ size
    · rw [if_pos hfits]
      obtain ⟨s', o, l', hsend, hserves, hmem⟩ := hcredit.send (by rw [hself, credit_turn]) hq' hfits
      exact ⟨s', o, l', c, size, hsend, hserves, hmem⟩
    · rw [if_neg hfits]
      have hleave := hcredit.leave (by rw [hself, credit_turn]) hq' (not_le.mp hfits)
      have hwait := sum_wait_left (List.nodup_cons.mp h.ring.nodup).1
        (wait_left hquantum hq (by rwa [hself, not_le] at hfits))
      obtain ⟨s', o, l', b, size, hloop, hserves, hmem⟩ :=
        ih hleave (by simp) (by simpa [Drr.setBucket] using lt_of_lt_of_le hwait (Nat.lt_succ_iff.mp hfuel))
      rw [hloop]
      exact ⟨s', _, l', b, size, rfl, by rwa [List.append_cons], List.mem_cons_of_mem _ hmem⟩

/-- Each byte and each packet is waited for at most once. -/
lemma Filled.wait_le (h : Filled maxSize s l) (hnonneg : ∀ b ∈ l, 0 ≤ (s.drr b).deficitCounter) :
    ((l.map fun b => (s.drr b).wait).sum : ℤ) ≤ 2 * s.bytecnt := by
  have hone : ∀ b ∈ l, ((s.drr b).wait : ℤ) ≤ 2 * (s.drr b).bcount := by
    intro b hb
    obtain ⟨size, rest, hq, hpos, -⟩ := h.first hb
    have hdeficit := hnonneg b hb
    have hrest : 0 ≤ rest.sum := List.sum_nonneg fun y hy => (h.size b y (by simp [hq, hy])).1.le
    unfold PacketDRR.wait
    rw [h.bcount, hq, List.headD_cons, List.sum_cons]
    split <;> omega
  have hsum : ∀ l' ⊆ l, ((l'.map fun b => (s.drr b).wait).sum : ℤ) ≤ 2 * (l'.map fun b => (s.drr b).bcount).sum := by
    intro l' hl'
    induction l' with
    | nil => exact le_rfl
    | cons b l' ih =>
      obtain ⟨hb, hl'⟩ := List.cons_subset.mp hl'
      have := ih hl'
      have := hone b hb
      rw [List.map_cons, List.sum_cons, List.map_cons, List.sum_cons]
      push_cast at *
      linarith
  rw [h.bytecnt]
  exact hsum l (List.Subset.refl l)

lemma Serves.deque (hquantum : 1 ≤ cfg.quantum) (h : Serves cfg.quantum maxSize s l tr) :
    ∃ s' o l', s.deque cfg = some (s', o) ∧ Serves cfg.quantum maxSize s' l' (tr ++ o) ∧
      (0 < s.bytecnt → ∃ b size, .sent b size ∈ o) := by
  unfold Drr.deque
  have hnonneg := h.filled.bytecnt_nonneg
  by_cases hzero : s.bytecnt = 0
  · rw [if_pos hzero]
    exact ⟨s, [], l, rfl, by rwa [List.append_nil], fun hpos => absurd hzero hpos.ne'⟩
  · rw [if_neg hzero]
    have hwait := h.filled.wait_le fun b hb => (h.booked b ((h.filled.mem b).mp hb)).nonneg
    obtain ⟨s', o, l', b, size, hloop, hserves, hmem⟩ :=
      Serves.dequeLoop hquantum (2 * s.bytecnt + 1).toNat h (h.filled.ne_nil (by omega)) (by omega)
    exact ⟨s', o, l', hloop, hserves, fun _ => ⟨b, size, hmem⟩⟩

/-! ### Runs -/

/-- A packet that makes a bucket backlogged finds the bucket out of turn. -/
def ArrivesOutOfTurn (s : Drr) : DrrEvent → Prop
  | .enque which _ => (s.drr which).pkts = 0 → (s.drr which).turn = false
  | .deque => True

lemma Serves.init : Serves q maxSize init [] [] where
  ring := ⟨trivial, List.nodup_nil, rfl⟩
  filled := ⟨fun _ => by simp [Drr.init], fun _ => rfl, fun _ => rfl, nofun, rfl, rfl⟩
  booked := fun b hb => absurd rfl hb
  fair := fun pre b h => by simp at h

lemma Serves.step (hquantum : 1 ≤ cfg.quantum) (h : Serves cfg.quantum maxSize s l tr) {ev : DrrEvent}
    (hturn : ArrivesOutOfTurn s ev) (hsize : ∀ which size, ev = .enque which size → 0 < size ∧ size ≤ maxSize) :
    ∃ s' o, s.step cfg ev = some (s', o) ∧ ∃ l', Serves cfg.quantum maxSize s' l' (tr ++ o) := by
  cases ev with
  | enque which size =>
    obtain ⟨s₁, o₁, l₁, hput, h₁, -⟩ := h.put (hsize which size rfl) hturn
    have hnonneg := h₁.filled.bytecnt_nonneg
    obtain ⟨s₂, o₂, l₂, hdrop, h₂⟩ := h₁.dropLoop cfg (s₁.bytecnt.toNat + 1) (by push_cast; omega)
    refine ⟨s₂, o₁ ++ o₂, ?_, l₂, by rwa [← List.append_assoc]⟩
    show (s.put which size).bind _ = _
    rw [hput, Option.bind_some, hdrop]
    rfl
  | deque =>
    obtain ⟨s', o, l', hdeque, h', -⟩ := h.deque hquantum
    exact ⟨s', o, hdeque, l', h'⟩

/-- As long as no packet arrives at an empty bucket that is still in turn, the scheduler never fails, returns a
packet whenever there is one, and gives each backlogged bucket its quantum for each visit. -/
theorem drr_run {evs : List DrrEvent} (hquantum : 1 ≤ cfg.quantum)
    (hsize : ∀ which size, .enque which size ∈ evs → 0 < size ∧ size ≤ maxSize)
    (hturn : EachStep (step cfg) ArrivesOutOfTurn init evs) :
    ∃ s os, run (step cfg) init evs = some (s, os) ∧ FairTrace cfg.quantum maxSize os.flatten ∧
      (0 < s.bytecnt → ∃ s' o b size, s.deque cfg = some (s', o) ∧ .sent b size ∈ o) := by
  have hP := hturn.and_mem (Q := fun ev => ∀ which size, ev = .enque which size → 0 < size ∧ size ≤ maxSize)
    fun ev hev which size heq => hsize which size (heq ▸ hev)
  obtain ⟨s, os, hrun, l, h⟩ := run_trace (R := fun s tr => ∃ l, Serves cfg.quantum maxSize s l tr)
    (fun s tr ev ⟨l, h⟩ hev => h.step hquantum hev.1 hev.2) ⟨[], Serves.init⟩ hP
  refine ⟨s, os, hrun, h.fair, fun hpos => ?_⟩
  obtain ⟨s', o, l', hdeque, -, hsent⟩ := h.deque hquantum
  obtain ⟨b, size, hmem⟩ := hsent hpos
  exact ⟨s', o, b, size, hdeque, hmem⟩

/-- Two buckets that share the bandwidth. -/
def shared : List DrrEvent := [.enque 0 300, .enque 1 200, .deque, .deque]

def sharedConfig : DrrConfig := ⟨1000, 250⟩

theorem drr_run_shared : ∃ s os, run (step sharedConfig) init shared = some (s, os) ∧
    FairTrace sharedConfig.quantum 300 os.flatten ∧
      (0 < s.bytecnt → ∃ s' o b size, s.deque sharedConfig = some (s', o) ∧ .sent b size ∈ o) := by
  refine drr_run (by decide) (fun which size h => ?_) ⟨fun _ => rfl, fun s o h => ⟨fun _ => ?_,
    fun _ _ _ => ⟨trivial, fun _ _ _ => ⟨trivial, fun _ _ _ => trivial⟩⟩⟩⟩
  · simp only [shared, List.mem_cons, List.not_mem_nil, or_false, DrrEvent.enque.injEq, reduceCtorEq] at h
    omega
  · cases h
    rfl

/-- An overflow takes the last packet of bucket 0 in its turn, and the next packet makes it backlogged again. -/
def emptiedInTurn : List DrrEvent :=
  [.enque 0 100, .enque 0 150, .deque, .enque 1 140, .enque 2 100, .enque 0 50, .deque, .deque, .deque]

/-- The turn flag survives the overflow, so that the bucket is left once without a quantum. -/
theorem emptied_in_turn_visited_for_nothing :
    (∀ which size, .enque which size ∈ emptiedInTurn → 0 < size ∧ size ≤ 150) ∧
      ∃ s os, run (step ⟨300, 250⟩) init emptiedInTurn = some (s, os) ∧ ¬FairTrace 250 150 os.flatten := by
  constructor
  · intro which size h
    simp only [emptiedInTurn, List.mem_cons, List.not_mem_nil, or_false, false_or, DrrEvent.enque.injEq, reduceCtorEq] at h
    omega
  · refine ⟨_, _, rfl, fun hfair => ?_⟩
    have hvisit := hfair [.activated 0, .sent 0 100, .activated 1, .activated 2, .dropped 0 150, .idled 0, .activated 0,
      .sent 1 140, .idled 1, .sent 2 100, .idled 2] 0 ⟨[.sent 0 50, .idled 0], rfl⟩
    exact absurd hvisit.2 (by decide)

end Drr

end NetworkSimulator
