import Mathlib.Data.List.Induction
import Mathlib.Data.List.Perm.Basic
import NetworkSimulator.Aodv.Rqueue

/-!
# Runs of the packet queue

The linked list, its length and its tail agree with the list of the packets in the order of arrival, so every
operation answers as on that list. A packet that is purged is neither returned nor dropped.
-/

namespace NetworkSimulator.Aodv

open Library

namespace Rqueue

variable {s s' : Rqueue} {ps l r : List ℕ} {x : ℕ} {now : ℚ} {q : Fifo}

/-- The linked list, its length and its tail. -/
structure Holds (s : Rqueue) (ps : List ℕ) : Prop where
  chain : Chain s.next_ s.head_ ps
  nodup : ps.Nodup
  tail : s.tail_ = ps.getLast?
  len : s.len_ = ps.length

lemma Holds.length_lt_fuel (h : Holds s ps) : ps.length < s.fuel := by
  unfold fuel
  rw [h.len]
  omega

lemma Holds.verifyQueue (h : Holds s ps) : s.verifyQueue = true := by
  unfold Rqueue.verifyQueue
  rw [h.chain.follow_eq h.length_lt_fuel.le]
  simp [h.len, h.tail]

lemma Holds.of_eq (h : Holds s ps) (hn : ∀ y ∈ ps, s'.next_ y = s.next_ y) (hh : s'.head_ = s.head_)
    (ht : s'.tail_ = s.tail_) (hl : s'.len_ = s.len_) : Holds s' ps :=
  ⟨by rw [hh]; exact h.chain.congr hn, h.nodup, ht.trans h.tail, hl.trans h.len⟩

lemma remove_head_nil (h : Holds s []) : s.remove_head = (s, none) := by
  have hh : s.head_ = none := h.chain
  have ht : s.tail_ = none := h.tail
  obtain ⟨head_, tail_, len_, next_, ts_, daddr⟩ := s
  simp only at hh ht
  subst hh ht
  simp [remove_head]

lemma remove_head_cons (h : Holds s (x :: l)) :
    s.remove_head.2 = some x ∧ Holds s.remove_head.1 l ∧ s.remove_head.1.ts_ = s.ts_ ∧
      s.remove_head.1.daddr = s.daddr := by
  have hh : s.head_ = some x := h.chain.1
  have hlen : s.len_ - 1 = l.length := by
    rw [h.len, List.length_cons]
    omega
  unfold remove_head
  by_cases heq : s.head_ = s.tail_
  · have hnil : l = [] := by
      by_contra hne
      have hlast : (x :: l).getLast? = l.getLast? := List.getLast?_cons_of_ne_nil hne
      rw [hh, h.tail, hlast] at heq
      exact (List.nodup_cons.mp h.nodup).1 (List.mem_of_getLast? heq.symm)
    subst hnil
    rw [if_pos heq, hh]
    exact ⟨rfl, ⟨rfl, List.nodup_nil, rfl, hlen⟩, rfl, rfl⟩
  · have hne : l ≠ [] := by
      rintro rfl
      exact heq (by rw [hh, h.tail]; rfl)
    have htail : s.tail_ = l.getLast? := by rw [h.tail, List.getLast?_cons_of_ne_nil hne]
    rw [if_neg heq, hh]
    exact ⟨rfl, ⟨h.chain.2, (List.nodup_cons.mp h.nodup).2, htail, hlen⟩, rfl, rfl⟩

/-- A packet that has been found is taken out, with the right packet before it. -/
lemma unlink_spec (h : Holds s (l ++ x :: r)) :
    ∃ s', s.unlink x l.getLast? = some s' ∧ Holds s' (l ++ r) ∧ s'.ts_ = s.ts_ ∧ s'.daddr = s.daddr := by
  have hlen : s.len_ - 1 = ((l ++ r).length : ℤ) := by
    rw [h.len, List.length_append, List.length_append, List.length_cons]
    omega
  have hnodup : (l ++ r).Nodup := h.nodup.sublist ((List.sublist_cons_self x r).append_left l)
  cases hl : l.getLast? with
  | none =>
    obtain rfl := List.getLast?_eq_none_iff.mp hl
    have hh : s.head_ = some x := h.chain.1
    unfold unlink
    rw [if_pos (.inl ⟨hh, rfl⟩), if_pos hh]
    obtain ⟨-, hs, hts, hd⟩ := remove_head_cons h
    exact ⟨_, rfl, hs, hts, hd⟩
  | some y =>
    obtain ⟨front, rfl⟩ := List.getLast?_eq_some_iff.mp hl
    have hxl : x ∉ front ++ [y] := fun hx => (List.nodup_append.mp h.nodup).2.2 x hx x List.mem_cons_self rfl
    have hchain : Chain s.next_ s.head_ (front ++ y :: x :: r) := by
      have hc := h.chain
      rwa [List.append_assoc] at hc
    have hnodup' : (front ++ y :: x :: r).Nodup := by
      have hn := h.nodup
      rwa [List.append_assoc] at hn
    have hnexts : s.next_ y = some x ∧ s.next_ x = r.head? := by
      clear h hl hlen hnodup hxl hnodup'
      induction front generalizing s with
      | nil => exact ⟨hchain.2.1, hchain.2.2.head_eq⟩
      | cons z front ih => exact ih (s := { s with head_ := s.next_ z }) hchain.2
    have hhead : s.head_ ≠ some x := by
      rw [h.chain.head_eq]
      cases front with
      | nil =>
        intro heq
        exact hxl (by simpa using (Option.some.inj heq).symm)
      | cons z front =>
        intro heq
        exact hxl (by simp [Option.some.inj heq])
    have hcond : (s.head_ = some x ∧ some y = none) ∨ (some y).bind s.next_ = some x := .inr hnexts.1
    unfold unlink
    rw [if_pos hcond, if_neg hhead]
    have hremove := hchain.remove hnodup'
    rw [hnexts.2] at hremove
    have happ : front ++ [y] ++ r = front ++ y :: r := by rw [List.append_assoc]; rfl
    by_cases htail : s.tail_ = some x
    · have hr : r = [] := by
        by_contra hne
        rw [h.tail, List.getLast?_append, List.getLast?_cons_of_ne_nil hne, List.getLast?_eq_some_getLast hne,
          Option.some_or] at htail
        refine (List.nodup_cons.mp (List.nodup_append.mp h.nodup).2.1).1 ?_
        rw [← Option.some.inj htail]
        exact List.getLast_mem hne
      subst hr
      rw [if_pos htail]
      refine ⟨_, rfl, ⟨?_, hnodup, ?_, hlen⟩, rfl, rfl⟩
      · rw [happ]
        exact hremove
      · rw [List.append_nil, hl]
    · have hr : r ≠ [] := by
        rintro rfl
        exact htail (by rw [h.tail, List.getLast?_append]; rfl)
      rw [if_neg htail]
      refine ⟨_, rfl, ⟨?_, hnodup, ?_, hlen⟩, rfl, rfl⟩
      · rw [happ, hnexts.2]
        exact hremove
      · have hlast := List.getLast?_eq_some_getLast hr
        have hafter : (front ++ [y] ++ x :: r).getLast? = some (r.getLast hr) := by
          rw [List.getLast?_append, List.getLast?_cons_of_ne_nil hr, hlast, Option.some_or]
        rw [h.tail, hafter, List.getLast?_append, hlast, Option.some_or]

/-- The queue holds the packets of the abstract one, with their times. -/
structure Represents (s : Rqueue) (q : Fifo) : Prop where
  holds : Holds s (q.map Prod.fst)
  times : ∀ e ∈ q, s.ts_ e.1 = e.2

lemma Represents.filter {f : ℕ × ℚ → Bool} (h : Represents s q) (hs : Holds s' ((q.filter f).map Prod.fst))
    (hts : s'.ts_ = s.ts_) : Represents s' (q.filter f) :=
  ⟨hs, fun e he => by rw [hts]; exact h.times e (List.mem_of_mem_filter he)⟩

/-- The first packet of a queue that satisfies a test. -/
lemma find_cases (f : ℕ × ℚ → Bool) (q : Fifo) :
    (q.find? f = none ∧ ∀ e ∈ q, f e = false) ∨
      ∃ l e r, q = l ++ e :: r ∧ q.find? f = some e ∧ f e = true ∧ ∀ d ∈ l, f d = false := by
  cases hf : q.find? f with
  | none => exact .inl ⟨rfl, by simpa using List.find?_eq_none.mp hf⟩
  | some e =>
    obtain ⟨hfe, l, r, rfl, hl⟩ := List.find?_eq_some_iff_append.mp hf
    exact .inr ⟨l, e, r, rfl, rfl, hfe, by simpa using hl⟩

lemma purge_spec {n : ℕ} (h : Represents s q) (hn : q.length < n) :
    ∃ s', purge now n s = some s' ∧ Represents s' (q.unexpired now) ∧ s'.daddr = s.daddr := by
  induction n generalizing s q with
  | zero => exact absurd hn (Nat.not_lt_zero _)
  | succ n ih =>
    unfold purge findAgedPacket
    have htest : ∀ e ∈ q, decide (s.ts_ e.1 < now) = decide (e.2 < now) := fun e he => by rw [h.times e he]
    rcases find_cases (fun e => e.2 < now) q with ⟨-, hall⟩ | ⟨l, e, r, rfl, -, hexp, hfront⟩
    · have hnone : ∀ y ∈ q.map Prod.fst, decide (s.ts_ y < now) = false := by
        intro y hy
        obtain ⟨e, he, rfl⟩ := List.mem_map.mp hy
        rw [htest e he]
        exact hall e he
      rw [search_none h.holds.chain h.holds.length_lt_fuel hnone]
      have hid : q.unexpired now = q := by
        refine List.filter_eq_self.mpr fun e he => ?_
        simpa using hall e he
      refine ⟨s, rfl, ?_, rfl⟩
      rw [hid]
      exact h
    · have hmap : (l ++ e :: r).map Prod.fst = l.map Prod.fst ++ e.1 :: r.map Prod.fst := by simp
      have hholds : Holds s (l.map Prod.fst ++ e.1 :: r.map Prod.fst) := by
        rw [← hmap]
        exact h.holds
      have hbefore : ∀ y ∈ l.map Prod.fst, decide (s.ts_ y < now) = false := by
        intro y hy
        obtain ⟨d, hd, rfl⟩ := List.mem_map.mp hy
        rw [htest d (by simp [hd])]
        exact hfront d hd
      have hhit : decide (s.ts_ e.1 < now) = true := by
        rw [htest e (by simp)]
        exact hexp
      rw [search_some hholds.chain hholds.length_lt_fuel hbefore hhit, Option.or_none]
      obtain ⟨s₁, hs₁, hh₁, hts₁, hd₁⟩ := unlink_spec hholds
      have hrep₁ : Represents s₁ (l ++ r) := by
        refine ⟨by rw [List.map_append]; exact hh₁, fun d hd => ?_⟩
        rw [hts₁]
        refine h.times d ?_
        rcases List.mem_append.mp hd with hd | hd
        · exact List.mem_append_left _ hd
        · exact List.mem_append_right _ (List.mem_cons_of_mem e hd)
      obtain ⟨s₂, hs₂, hrep₂, hd₂⟩ := ih hrep₁ (by
        rw [List.length_append, List.length_cons] at hn
        rw [List.length_append]
        omega)
      have hgone : (l ++ e :: r).filter (fun e => decide (now ≤ e.2)) =
          (l ++ r).filter fun e => decide (now ≤ e.2) := by
        have hlate : ¬now ≤ e.2 := not_le.mpr (by simpa using hexp)
        rw [List.filter_append, List.filter_append, List.filter_cons_of_neg (by simpa using hlate)]
      refine ⟨s₂, ?_, ?_, hd₂.trans hd₁⟩
      · simp only [hs₁, Option.bind_eq_bind, Option.bind_some, hh₁.verifyQueue, if_true]
        exact hs₂
      · unfold Fifo.unexpired
        rw [hgone]
        exact hrep₂

lemma purge_fuel (now : ℚ) (h : Represents s q) :
    ∃ s', purge now s.fuel s = some s' ∧ Represents s' (q.unexpired now) ∧ s'.daddr = s.daddr := by
  have hlt := h.holds.length_lt_fuel
  rw [List.length_map] at hlt
  exact purge_spec h hlt

/-! ### The operations -/

/-- The packet joins the end of the list. -/
lemma append_spec (h : Represents s q) (hx : ∀ e ∈ q, e.1 ≠ x) (hn : s.next_ x = none) :
    Holds (s.append x) (q.map Prod.fst ++ [x]) ∧ (s.append x).ts_ = s.ts_ ∧ (s.append x).daddr = s.daddr := by
  have hnodup : (q.map Prod.fst ++ [x]).Nodup := by
    refine List.nodup_append.mpr ⟨h.holds.nodup, List.nodup_singleton x, fun a ha b hb => ?_⟩
    obtain ⟨e, he, rfl⟩ := List.mem_map.mp ha
    rw [List.mem_singleton.mp hb]
    exact hx e he
  have hlen : s.len_ + 1 = ((q.map Prod.fst ++ [x]).length : ℤ) := by
    rw [h.holds.len, List.length_append, List.length_singleton]
    omega
  unfold append
  cases hq : q.map Prod.fst using List.reverseRecOn with
  | nil =>
    have hh : s.head_ = none := by
      have hc := h.holds.chain
      rw [hq] at hc
      exact hc
    rw [hq] at hlen
    rw [if_pos (by rw [hh]; rfl)]
    exact ⟨⟨⟨rfl, hn⟩, List.nodup_singleton x, rfl, hlen⟩, rfl, rfl⟩
  | append_singleton front y =>
    have hc := h.holds.chain
    have ht := h.holds.tail
    have hnd := h.holds.nodup
    rw [hq] at hc ht hnd hlen hnodup
    rw [List.getLast?_concat] at ht
    have hmem : x ∉ front ++ [y] := by
      rw [← hq]
      intro hmem
      obtain ⟨e, he, hex⟩ := List.mem_map.mp hmem
      exact hx e he hex
    have hhead : s.head_.isNone = false := by
      rw [hc.head_eq]
      cases front <;> rfl
    rw [if_neg (by rw [hhead]; exact Bool.false_ne_true)]
    refine ⟨⟨?_, hnodup, ?_, hlen⟩, rfl, rfl⟩
    · rw [ht]
      exact hc.concat hnd hmem hn
    · rw [List.getLast?_concat]

/-- What a full queue drops. -/
lemma makeRoom_spec {d : ℕ → ℤ} (h : Represents s (q.unexpired now)) :
    ∃ s' dropped, s.makeRoom now = some (s', dropped) ∧ Represents s' (q.unexpired now).room ∧
      s'.next_ = s.next_ ∧ s'.ts_ = s.ts_ ∧ s'.daddr = s.daddr ∧
      ({ dropped } : RqueueOut) = q.out d (.enque now x) := by
  have hlen : s.len_ = ((q.unexpired now).length : ℤ) := by rw [h.holds.len, List.length_map]
  have hspec : q.out d (.enque now x) = if ((q.unexpired now).length : ℤ) = AODV_RTQ_MAX_LEN then
      { dropped := (q.unexpired now).head?.toList.map fun e =>
          (e.1, if e.2 > now then .DROP_RTR_QFULL else .DROP_RTR_QTIMEOUT) }
    else {} := rfl
  unfold makeRoom Fifo.room
  rw [hlen, hspec]
  by_cases hfull : ((q.unexpired now).length : ℤ) = AODV_RTQ_MAX_LEN
  · rw [if_pos hfull, if_pos hfull, if_pos hfull]
    cases hq : q.unexpired now with
    | nil =>
      rw [hq] at hfull
      cases hfull
    | cons e es =>
      rw [hq] at h
      obtain ⟨hret, hholds, hts, hd⟩ := remove_head_cons (s := s) (x := e.1) (l := es.map Prod.fst) h.holds
      have hpair : s.remove_head = (s.remove_head.1, some e.1) := by rw [← hret]
      have hnext : s.remove_head.1.next_ = s.next_ := by
        unfold remove_head
        split_ifs <;> rfl
      rw [hpair]
      refine ⟨_, _, rfl, ⟨hholds, fun d hd' => ?_⟩, hnext, hts, hd, ?_⟩
      · rw [hts]
        exact h.times d (List.mem_cons_of_mem e hd')
      · rw [hts, h.times e List.mem_cons_self]
        rfl
  · rw [if_neg hfull, if_neg hfull, if_neg hfull]
    exact ⟨s, [], rfl, h, rfl, rfl, rfl, rfl⟩

lemma enque_spec (h : Represents s q) (hx : ∀ e ∈ q, e.1 ≠ x) :
    ∃ s', s.enque now x = some (s', q.out s.daddr (.enque now x)) ∧ Represents s' (q.next s.daddr (.enque now x)) ∧
      s'.daddr = s.daddr := by
  obtain ⟨s₁, hs₁, h₁, hd₁⟩ := purge_fuel now h
  have hx₁ : ∀ e ∈ q.unexpired now, e.1 ≠ x := fun e he => hx e (List.mem_of_mem_filter he)
  -- the packet's own fields are written before the queue makes room
  obtain ⟨s₂, hs₂⟩ : ∃ s₂ : Rqueue, s₂ = { s₁ with
      next_ := Function.update s₁.next_ x none
      ts_ := Function.update s₁.ts_ x (now + AODV_RTQ_TIMEOUT) } := ⟨_, rfl⟩
  have h₂ : Represents s₂ (q.unexpired now) := by
    subst hs₂
    constructor
    · refine h₁.holds.of_eq (fun y hy => Function.update_of_ne ?_ _ _) rfl rfl rfl
      obtain ⟨e, he, rfl⟩ := List.mem_map.mp hy
      exact hx₁ e he
    · intro e he
      rw [← h₁.times e he]
      exact Function.update_of_ne (hx₁ e he) _ _
  have hnext₂ : s₂.next_ x = none := by
    rw [hs₂]
    exact Function.update_self _ _ _
  have htime₂ : s₂.ts_ x = now + AODV_RTQ_TIMEOUT := by
    rw [hs₂]
    exact Function.update_self _ _ _
  have hd₂ : s₂.daddr = s.daddr := by
    rw [hs₂]
    exact hd₁
  obtain ⟨s₃, dropped, hs₃, h₃, hnext₃, hts₃, hd₃, hout⟩ := makeRoom_spec (x := x) (d := s.daddr) h₂
  have hx₃ : ∀ e ∈ (q.unexpired now).room, e.1 ≠ x := by
    intro e he
    refine hx₁ e ?_
    unfold Fifo.room at he
    split_ifs at he
    · exact List.mem_of_mem_tail he
    · exact he
  obtain ⟨h₄, hts₄, hd₄⟩ := append_spec h₃ hx₃ (by rw [hnext₃, hnext₂])
  refine ⟨s₃.append x, ?_, ⟨?_, fun e he => ?_⟩, hd₄.trans (hd₃.trans hd₂)⟩
  · unfold enque
    simp only [hs₁, Option.bind_eq_bind, Option.bind_some, ← hs₂, hs₃, h₄.verifyQueue, if_true, hout]
  · unfold Fifo.next
    rw [List.map_append]
    exact h₄
  · rw [hts₄]
    rcases List.mem_append.mp he with he | he
    · exact h₃.times e he
    · rw [List.mem_singleton.mp he, hts₃, htime₂]

lemma deque_spec (h : Represents s q) :
    ∃ s', s.deque now = some (s', q.out s.daddr (.deque now)) ∧ Represents s' (q.next s.daddr (.deque now)) ∧
      s'.daddr = s.daddr := by
  obtain ⟨s₁, hs₁, h₁, hd₁⟩ := purge_fuel now h
  unfold deque Fifo.out Fifo.next
  simp only [hs₁, Option.bind_eq_bind, Option.bind_some]
  cases hq : q.unexpired now with
  | nil =>
    rw [hq] at h₁
    rw [remove_head_nil h₁.holds, if_pos h₁.holds.verifyQueue]
    exact ⟨s₁, rfl, h₁, hd₁⟩
  | cons e es =>
    rw [hq] at h₁
    obtain ⟨hret, hholds, hts, hd⟩ := remove_head_cons (s := s₁) (x := e.1) (l := es.map Prod.fst) h₁.holds
    rw [if_pos hholds.verifyQueue, hret]
    refine ⟨_, rfl, ⟨hholds, fun d hd' => ?_⟩, hd.trans hd₁⟩
    rw [hts]
    exact h₁.times d (List.mem_cons_of_mem e hd')

/-- The search for a packet for `dst` ends at the oldest one. -/
lemma findPacketWithDst_spec (h : Represents s q) (dst : ℤ) :
    (s.findPacketWithDst dst = some (none, (q.map Prod.fst).getLast?) ∧ q.oldest s.daddr dst = none ∧
        ∀ e ∈ q, decide (s.daddr e.1 = dst) = false) ∨
      ∃ l e r, q = l ++ e :: r ∧ s.findPacketWithDst dst = some (some e.1, (l.map Prod.fst).getLast?) ∧
        q.oldest s.daddr dst = some e.1 ∧ (q.eraseP fun e => s.daddr e.1 = dst) = l ++ r := by
  unfold findPacketWithDst Fifo.oldest
  rcases find_cases (fun e => s.daddr e.1 = dst) q with ⟨hf, hall⟩ | ⟨l, e, r, rfl, hf, he, hl⟩
  · have hnone : ∀ y ∈ q.map Prod.fst, decide (s.daddr y = dst) = false := by
      intro y hy
      obtain ⟨e, he, rfl⟩ := List.mem_map.mp hy
      exact hall e he
    refine .inl ⟨?_, by rw [hf]; rfl, hall⟩
    rw [search_none h.holds.chain h.holds.length_lt_fuel hnone, Option.or_none]
  · have hmap : (l ++ e :: r).map Prod.fst = l.map Prod.fst ++ e.1 :: r.map Prod.fst := by simp
    have hholds : Holds s (l.map Prod.fst ++ e.1 :: r.map Prod.fst) := by
      rw [← hmap]
      exact h.holds
    have hnone : ∀ y ∈ l.map Prod.fst, decide (s.daddr y = dst) = false := by
      intro y hy
      obtain ⟨d, hd, rfl⟩ := List.mem_map.mp hy
      exact hl d hd
    refine .inr ⟨l, e, r, rfl, ?_, by rw [hf]; rfl, ?_⟩
    · rw [search_some hholds.chain hholds.length_lt_fuel hnone he, Option.or_none]
    · rw [List.eraseP_append_right _ (by simpa using hl)]
      exact congrArg (l ++ ·) (List.eraseP_cons_of_pos he)

lemma dequeDst_spec (h : Represents s q) (dst : ℤ) :
    ∃ s', s.dequeDst now dst = some (s', q.out s.daddr (.dequeDst now dst)) ∧
      Represents s' (q.next s.daddr (.dequeDst now dst)) ∧ s'.daddr = s.daddr := by
  obtain ⟨s₁, hs₁, h₁, hd₁⟩ := purge_fuel now h
  unfold dequeDst Fifo.out Fifo.next
  simp only [hs₁, Option.bind_eq_bind, Option.bind_some]
  rcases findPacketWithDst_spec h₁ dst with ⟨hf, hold, hall⟩ | ⟨l, e, r, hq, hf, hold, herase⟩
  · rw [hd₁] at hold hall
    have hsame : ((q.unexpired now).eraseP fun e => s.daddr e.1 = dst) = q.unexpired now := by
      rw [List.eraseP_of_forall_not]
      intro e he
      rw [hall e he]
      exact Bool.false_ne_true
    rw [hf, hold, hsame]
    exact ⟨s₁, rfl, h₁, hd₁⟩
  · rw [hd₁] at hold herase
    have hholds : Holds s₁ (l.map Prod.fst ++ e.1 :: r.map Prod.fst) := by
      have hh := h₁.holds
      rwa [hq, List.map_append, List.map_cons] at hh
    obtain ⟨s₂, hs₂, hh₂, hts₂, hd₂⟩ := unlink_spec hholds
    rw [hf, hold, herase]
    simp only [hs₂, Option.bind_some, hh₂.verifyQueue, if_true]
    refine ⟨s₂, rfl, ⟨by rw [List.map_append]; exact hh₂, fun d hd => ?_⟩, hd₂.trans hd₁⟩
    rw [hts₂]
    refine h₁.times d ?_
    rw [hq]
    rcases List.mem_append.mp hd with hd | hd
    · exact List.mem_append_left _ hd
    · exact List.mem_append_right _ (List.mem_cons_of_mem e hd)

lemma find_spec (h : Represents s q) (dst : ℤ) :
    s.find dst = some (s, q.out s.daddr (.find dst)) := by
  change s.find dst = some (s, { found := (q.oldest s.daddr dst).isSome })
  unfold find
  rcases findPacketWithDst_spec h dst with ⟨hf, hold, -⟩ | ⟨l, e, r, -, hf, hold, -⟩
  · rw [hf, hold]
    rfl
  · rw [hf, hold]
    rfl

/-- Every operation answers as on the list of the packets. -/
lemma step_spec {e : RqueueEvent} (h : Represents s q) (hok : q.Admits e) :
    ∃ s', s.step e = some (s', q.out s.daddr e) ∧ Represents s' (q.next s.daddr e) ∧ s'.daddr = s.daddr := by
  cases e with
  | enque now p => exact enque_spec h hok
  | deque now => exact deque_spec h
  | dequeDst now dst => exact dequeDst_spec h dst
  | find dst => exact ⟨s, find_spec h dst, h, rfl⟩

end Rqueue

/-! ### Where the packets go -/

/-- The packet that is given to the queue. -/
def RqueueEvent.given : RqueueEvent → List ℕ
  | .enque _ p => [p]
  | _ => []

/-- The packets that leave the queue, returned or dropped. -/
def RqueueOut.leaving (o : RqueueOut) : List ℕ := o.returned.toList ++ o.dropped.map Prod.fst

namespace Fifo

variable {daddr : ℕ → ℤ} {q : Fifo} {now : ℚ} {e : RqueueEvent} {es : List RqueueEvent}

/-- The packets that have waited too long when the queue is purged. -/
def purged (q : Fifo) : RqueueEvent → List ℕ
  | .enque now _ | .deque now | .dequeDst now _ => (q.filter fun e => ¬now ≤ e.2).map Prod.fst
  | .find _ => []

/-- The packets that are purged in a run. -/
def losses (daddr : ℕ → ℤ) : Fifo → List RqueueEvent → List ℕ
  | _, [] => []
  | q, e :: es => q.purged e ++ losses daddr (q.next daddr e) es

lemma perm_purge (now : ℚ) (q : Fifo) :
    (q.map Prod.fst).Perm ((q.unexpired now).map Prod.fst ++ (q.filter fun e => ¬now ≤ e.2).map Prod.fst) := by
  have h := (List.filter_append_perm (fun e : ℕ × ℚ => decide (now ≤ e.2)) q).symm.map Prod.fst
  rw [List.map_append] at h
  have hneg : (q.filter fun e => !decide (now ≤ e.2)) = q.filter fun e => ¬now ≤ e.2 :=
    List.filter_congr fun e _ => decide_not.symm
  rw [hneg] at h
  exact h

/-- One operation: what is given and what waits is what waits afterwards, what leaves and what is purged. -/
lemma step_perm (daddr : ℕ → ℤ) (q : Fifo) (e : RqueueEvent) :
    (q.map Prod.fst ++ e.given).Perm ((q.next daddr e).map Prod.fst ++ ((q.out daddr e).leaving ++ q.purged e)) := by
  cases e with
  | enque now p =>
    have hroom : ((q.unexpired now).map Prod.fst).Perm
        ((q.unexpired now).room.map Prod.fst ++ (q.out daddr (.enque now p)).leaving) := by
      have hspec : q.out daddr (.enque now p) = if ((q.unexpired now).length : ℤ) = AODV_RTQ_MAX_LEN then
          { dropped := (q.unexpired now).head?.toList.map fun e =>
              (e.1, if e.2 > now then .DROP_RTR_QFULL else .DROP_RTR_QTIMEOUT) }
        else {} := rfl
      rw [hspec]
      unfold room
      split_ifs
      · cases q.unexpired now with
        | nil => exact List.Perm.refl _
        | cons d ds => exact (List.perm_append_singleton d.1 (ds.map Prod.fst)).symm
      · rw [RqueueOut.leaving, Option.toList_none, List.nil_append, List.map_nil, List.append_nil]
    have hnext : (q.next daddr (.enque now p)).map Prod.fst = (q.unexpired now).room.map Prod.fst ++ [p] := by
      change ((q.unexpired now).room ++ [(p, now + AODV_RTQ_TIMEOUT)]).map Prod.fst = _
      rw [List.map_append]
      rfl
    have hall := ((perm_purge now q).trans (hroom.append_right _)).append_right [p]
    rw [hnext]
    refine hall.trans ?_
    simp only [List.append_assoc]
    refine List.Perm.append_left _ ?_
    rw [← List.append_assoc]
    exact List.perm_append_comm
  | deque now =>
    have hspec : (q.next daddr (.deque now)).map Prod.fst = ((q.unexpired now).tail).map Prod.fst := rfl
    have hout : (q.out daddr (.deque now)).leaving = ((q.unexpired now).head?.map Prod.fst).toList := by
      change ((q.unexpired now).head?.map Prod.fst).toList ++ [] = _
      rw [List.append_nil]
    have hhead : ((q.unexpired now).map Prod.fst).Perm
        ((q.unexpired now).tail.map Prod.fst ++ ((q.unexpired now).head?.map Prod.fst).toList) := by
      cases q.unexpired now with
      | nil => exact List.Perm.refl _
      | cons d ds => exact (List.perm_append_singleton d.1 (ds.map Prod.fst)).symm
    have hgiven : RqueueEvent.given (.deque now) = [] := rfl
    rw [hspec, hout, hgiven, List.append_nil, ← List.append_assoc]
    exact (perm_purge now q).trans (hhead.append_right _)
  | dequeDst now dst =>
    have hout : (q.out daddr (.dequeDst now dst)).leaving = ((q.unexpired now).oldest daddr dst).toList := by
      change ((q.unexpired now).oldest daddr dst).toList ++ [] = _
      rw [List.append_nil]
    have hfound : ((q.unexpired now).map Prod.fst).Perm
        ((q.next daddr (.dequeDst now dst)).map Prod.fst ++ ((q.unexpired now).oldest daddr dst).toList) := by
      have hnext : q.next daddr (.dequeDst now dst) = (q.unexpired now).eraseP fun e => daddr e.1 = dst := rfl
      rw [hnext]
      unfold oldest
      rcases Rqueue.find_cases (fun e => daddr e.1 = dst) (q.unexpired now) with ⟨hf, hall⟩ | ⟨l, d, r, hq, hf, hd, hl⟩
      · rw [hf, List.eraseP_of_forall_not fun e he => by rw [hall e he]; exact Bool.false_ne_true]
        exact List.Perm.of_eq (List.append_nil _).symm
      · have herase : ((l ++ d :: r).eraseP fun e => decide (daddr e.1 = dst)) = l ++ r := by
          rw [List.eraseP_append_right _ (by simpa using hl)]
          exact congrArg (l ++ ·) (List.eraseP_cons_of_pos hd)
        rw [hf, hq, herase, List.map_append, List.map_cons, List.map_append]
        change (l.map Prod.fst ++ d.1 :: r.map Prod.fst).Perm (l.map Prod.fst ++ r.map Prod.fst ++ [d.1])
        exact List.perm_middle.trans (List.perm_append_singleton _ _).symm
    have hgiven : RqueueEvent.given (.dequeDst now dst) = [] := rfl
    rw [hout, hgiven, List.append_nil, ← List.append_assoc]
    exact (perm_purge now q).trans (hfound.append_right _)
  | find dst => exact List.Perm.refl _

lemma run_perm (q : Fifo) (es : List RqueueEvent) :
    (q.map Prod.fst ++ es.flatMap RqueueEvent.given).Perm ((es.foldl (next daddr) q).map Prod.fst ++
      ((outputs (next daddr) (out daddr) q es).flatMap RqueueOut.leaving ++ losses daddr q es)) := by
  induction es generalizing q with
  | nil => exact List.Perm.refl _
  | cons e es ih =>
    refine List.perm_iff_count.mpr fun p => ?_
    have hstep := (step_perm daddr q e).count_eq p
    have hrest := (ih (q.next daddr e)).count_eq p
    simp only [List.flatMap_cons, List.foldl_cons, outputs, losses, List.count_append] at hstep hrest ⊢
    omega

/-- The queue is never longer than its limit. -/
lemma length_next_le (h : (q.length : ℤ) ≤ AODV_RTQ_MAX_LEN) : ((q.next daddr e).length : ℤ) ≤ AODV_RTQ_MAX_LEN := by
  have hle : ∀ now, ((q.unexpired now).length : ℤ) ≤ AODV_RTQ_MAX_LEN := fun now => by
    have hlen : (q.unexpired now).length ≤ q.length := List.length_filter_le _ _
    omega
  cases e with
  | enque now p =>
    have hlen := hle now
    have hnext : q.next daddr (.enque now p) = (q.unexpired now).room ++ [(p, now + AODV_RTQ_TIMEOUT)] := rfl
    rw [hnext]
    unfold room
    split_ifs with hfull
    · rw [List.length_append, List.length_tail, List.length_singleton]
      unfold AODV_RTQ_MAX_LEN at hfull hlen ⊢
      omega
    · rw [List.length_append, List.length_singleton]
      omega
  | deque now =>
    have hlen := hle now
    have hnext : q.next daddr (.deque now) = (q.unexpired now).tail := rfl
    rw [hnext, List.length_tail]
    omega
  | dequeDst now dst =>
    have hlen := hle now
    have herase : (q.next daddr (.dequeDst now dst)).length ≤ (q.unexpired now).length := List.eraseP_sublist.length_le
    omega
  | find dst => exact h

end Fifo

namespace Rqueue

variable {s : Rqueue} {q : Fifo} {e : RqueueEvent} {es : List RqueueEvent}

/-- When the queue is purged, none of its packets has waited too long. -/
def NoneAged (s : Rqueue) : RqueueEvent → Prop
  | .enque now _ | .deque now | .dequeDst now _ => ∀ p ∈ follow s.next_ s.fuel s.head_, now ≤ s.ts_ p
  | .find _ => True

lemma aged_iff (h : Represents s q) (now : ℚ) :
    (∀ p ∈ follow s.next_ s.fuel s.head_, now ≤ s.ts_ p) ↔ (q.filter fun e => ¬now ≤ e.2).map Prod.fst = [] := by
  rw [h.holds.chain.follow_eq h.holds.length_lt_fuel.le, List.map_eq_nil_iff, List.filter_eq_nil_iff]
  constructor
  · intro hall e he
    have hle := hall e.1 (List.mem_map_of_mem he)
    rw [h.times e he] at hle
    simpa using hle
  · intro hall p hp
    obtain ⟨e, he, rfl⟩ := List.mem_map.mp hp
    rw [h.times e he]
    simpa using hall e he

lemma noneAged_iff (h : Represents s q) : NoneAged s e ↔ q.purged e = [] := by
  cases e with
  | enque now p => exact aged_iff h now
  | deque now => exact aged_iff h now
  | dequeDst now dst => exact aged_iff h now
  | find dst => exact iff_of_true trivial rfl

/-- Nothing is lost in a run exactly when no packet has ever waited too long. -/
lemma losses_iff (h : Represents s q) (hok : AdmissibleRun Fifo.Admits (Fifo.next s.daddr) q es) :
    q.losses s.daddr es = [] ↔ EachStep step NoneAged s es := by
  induction es generalizing s q with
  | nil => exact iff_of_true rfl trivial
  | cons e es ih =>
    obtain ⟨s', hs', h', hd⟩ := step_spec h hok.1
    have hrest : AdmissibleRun Fifo.Admits (Fifo.next s'.daddr) (q.next s.daddr e) es := by
      rw [hd]
      exact hok.2
    have hiff := ih h' hrest
    rw [hd] at hiff
    have hall : (∀ r o, s.step e = some (r, o) → EachStep step NoneAged r es) ↔ EachStep step NoneAged s' es := by
      simp only [hs', Option.some.injEq, Prod.mk.injEq, and_imp, forall_eq', forall_apply_eq_imp_iff]
    rw [Fifo.losses, List.append_eq_nil_iff, ← noneAged_iff h, hiff, EachStep, hall]

/-- Every run answers as a queue in the order of arrival, and what is given to it waits, is returned or is
dropped exactly when no packet has ever waited too long. -/
theorem rqueue_run (daddr : ℕ → ℤ) {es : List RqueueEvent}
    (hok : AdmissibleRun Fifo.Admits (Fifo.next daddr) [] es) :
    ∃ t q, run step { daddr } es = some (t, outputs (Fifo.next daddr) (Fifo.out daddr) [] es) ∧
      q = (es.foldl (Fifo.next daddr) []).map Prod.fst ∧
      (Chain t.next_ t.head_ q ∧ q.Nodup ∧ t.tail_ = q.getLast? ∧ (t.tail_ = none ↔ q = []) ∧
        t.len_ = q.length ∧ t.len_ ≤ AODV_RTQ_MAX_LEN) ∧
      ((es.flatMap RqueueEvent.given).Perm
        (q ++ (outputs (Fifo.next daddr) (Fifo.out daddr) [] es).flatMap RqueueOut.leaving) ↔
          EachStep step NoneAged { daddr } es) := by
  have hstart : Represents { daddr } [] := ⟨⟨rfl, List.nodup_nil, rfl, rfl⟩, fun e he => by cases he⟩
  obtain ⟨t, hrun, ht⟩ := run_simulates (R := fun s q => (Represents s q ∧ s.daddr = daddr) ∧
      ((q.length : ℕ) : ℤ) ≤ AODV_RTQ_MAX_LEN) (fun s q e hR hadm => by
    obtain ⟨⟨hrep, hd⟩, hlen⟩ := hR
    obtain ⟨s', hs', hrep', hd'⟩ := step_spec hrep hadm
    rw [hd] at hs' hrep'
    exact ⟨s', hs', ⟨hrep', hd'.trans hd⟩, Fifo.length_next_le hlen⟩) es ⟨⟨hstart, rfl⟩, by decide⟩ hok
  obtain ⟨⟨hrep, -⟩, hlen⟩ := ht
  have hholds := hrep.holds
  refine ⟨t, _, hrun, rfl, ⟨hholds.chain, hholds.nodup, hholds.tail, ?_, hholds.len, ?_⟩, ?_⟩
  · rw [hholds.tail, List.getLast?_eq_none_iff]
  · rw [hholds.len, List.length_map]
    exact hlen
  · have hperm : (es.flatMap RqueueEvent.given).Perm ((es.foldl (Fifo.next daddr) []).map Prod.fst ++
        ((outputs (Fifo.next daddr) (Fifo.out daddr) [] es).flatMap RqueueOut.leaving ++ Fifo.losses daddr [] es)) :=
      Fifo.run_perm [] es
    have hiff : Fifo.losses daddr [] es = [] ↔ EachStep step NoneAged { daddr } es := losses_iff hstart hok
    rw [← hiff]
    constructor
    · intro hall
      have heq := (hall.symm.trans hperm).length_eq
      simp only [List.length_append] at heq
      exact List.eq_nil_of_length_eq_zero (by omega)
    · intro hnil
      rw [hnil, List.append_nil] at hperm
      exact hperm

/-- Two packets that are taken out by their destinations, the later one first. -/
theorem rqueue_run_two :
    ∃ t q, run step { daddr := fun p => p } [.enque 0 1, .enque 1 2, .dequeDst 2 2, .find 1, .deque 3] =
        some (t, [{}, {}, { returned := some 2 }, { found := true }, { returned := some 1 }]) ∧ q = [] ∧
      (Chain t.next_ t.head_ q ∧ q.Nodup ∧ t.tail_ = q.getLast? ∧ (t.tail_ = none ↔ q = []) ∧
        t.len_ = q.length ∧ t.len_ ≤ AODV_RTQ_MAX_LEN) := by
  have hgiven : AdmissibleRun Fifo.Admits (Fifo.next fun p => p) []
      [.enque 0 1, .enque 1 2, .dequeDst 2 2, .find 1, .deque 3] :=
    ⟨by decide +kernel, by decide +kernel, trivial, trivial, trivial, trivial⟩
  obtain ⟨t, q, hrun, hq, hshape, -⟩ := rqueue_run (fun p => p) hgiven
  have houts : outputs (Fifo.next fun p => p) (Fifo.out fun p => p) []
      [.enque 0 1, .enque 1 2, .dequeDst 2 2, .find 1, .deque 3] =
        [{}, {}, { returned := some 2 }, { found := true }, { returned := some 1 }] := by decide +kernel
  rw [houts] at hrun
  refine ⟨t, q, hrun, ?_, hshape⟩
  rw [hq]
  decide +kernel

/-- A packet that has waited for 31 seconds is in no queue, and has been neither returned nor dropped. -/
theorem rqueue_loses :
    ∃ t : Rqueue, run step { daddr := fun p => p } [.enque 0 1, .deque 31] = some (t, [{}, {}]) ∧
      follow t.next_ t.fuel t.head_ = [] ∧
      ¬[1].Perm (follow t.next_ t.fuel t.head_ ++ [({} : RqueueOut), {}].flatMap RqueueOut.leaving) := by
  obtain ⟨t, os, -, hrun, rfl, hempty⟩ : ∃ t : Rqueue, ∃ os,
      EachStep step (fun _ _ => True) { daddr := fun p => p } [.enque 0 1, .deque 31] ∧
      run step { daddr := fun p => p } [.enque 0 1, .deque 31] = some (t, os) ∧
      (os = [{}, {}] ∧ follow t.next_ t.fuel t.head_ = []) :=
    run_guarded_of (fun (t : Rqueue) (os : List RqueueOut) => os = [{}, {}] ∧ follow t.next_ t.fuel t.head_ = [])
      (by decide +kernel)
  refine ⟨t, hrun, hempty, ?_⟩
  rw [hempty]
  decide

end Rqueue
end NetworkSimulator.Aodv
