import NetworkSimulator.Library.Runs
import NetworkSimulator.Queue.DrrBooks
import NetworkSimulator.Queue.Sfq

/-!
# The books and the rounds of fair queueing

What stochastic fair queueing counts, and how often a bucket is served between two departures of another one.
-/

namespace NetworkSimulator
open Library

/-! ### Packets that are offered -/

/-- Of the packets offered, in order, some are dropped, some have departed and the others wait. -/
structure Accounted {α : Type} (offered dropped departed waiting : List α) : Prop where
  fifo : (departed ++ waiting).Sublist offered
  once : offered.Perm (dropped ++ (departed ++ waiting))

namespace Accounted
variable {α : Type} {offered dropped departed waiting : List α} {p : α}

lemma nil : Accounted ([] : List α) [] [] [] := ⟨List.Sublist.refl _, List.Perm.refl _⟩

lemma accept (h : Accounted offered dropped departed waiting) :
    Accounted (offered ++ [p]) dropped departed (waiting ++ [p]) where
  fifo := by
    rw [← List.append_assoc]
    exact h.fifo.append (List.Sublist.refl [p])
  once := by
    rw [← List.append_assoc departed, ← List.append_assoc dropped]
    exact h.once.append_right [p]

lemma drop (h : Accounted offered dropped departed waiting) :
    Accounted (offered ++ [p]) (dropped ++ [p]) departed waiting where
  fifo := h.fifo.trans (List.sublist_append_left _ _)
  once := by
    refine (h.once.append_right [p]).trans ?_
    rw [List.append_assoc, List.append_assoc dropped [p]]
    exact List.perm_append_comm.append_left dropped

lemma depart (h : Accounted offered dropped departed (p :: waiting)) :
    Accounted offered dropped (departed ++ [p]) waiting := by
  obtain ⟨hfifo, honce⟩ := h
  rw [List.append_cons] at hfifo honce
  exact ⟨hfifo, honce⟩

end Accounted

variable {α : Type}

/-- The packet that is offered to `b`. -/
def SfqEvent.offered (b : ℕ) : SfqEvent α → Option α
  | .enque which pkt => if which = b then some pkt else none
  | .deque => none

namespace SfqTrace

def departure (b : ℕ) : SfqTrace α → Option α
  | .departed b' pkt => if b' = b then some pkt else none
  | .dropped _ _ => none

def drop (b : ℕ) : SfqTrace α → Option α
  | .dropped b' pkt => if b' = b then some pkt else none
  | .departed _ _ => none

end SfqTrace

namespace Sfq
variable {cfg : SfqConfig} {evs is : List (SfqEvent α)} {ev : SfqEvent α} {tr o : List (SfqTrace α)} {s s' : Sfq α}
  {l l' : List ℕ} {b c which : ℕ} {pkt : α} {rest : List α}

/-- The ring and the counts, and what has become of the packets that were offered. -/
structure Books (cfg : SfqConfig) (evs : List (SfqEvent α)) (tr : List (SfqTrace α)) (s : Sfq α) (l : List ℕ) :
    Prop where
  ring : s.links.Holds l
  mem : ∀ b, b ∈ l ↔ (s.bucket b).queue ≠ []
  pkts : ∀ b, (s.bucket b).pkts = (s.bucket b).queue.length
  occupied : s.occupied = (l.map fun b => (s.bucket b).pkts).sum
  accounted : ∀ b, Accounted (evs.filterMap (SfqEvent.offered b)) (tr.filterMap (SfqTrace.drop b))
    (tr.filterMap (SfqTrace.departure b)) (s.bucket b).queue
  limit : s.occupied ≤ max cfg.maxqueue 0

/-- What one call does to the ring. -/
inductive Turn : List ℕ → List (SfqTrace α) → List ℕ → Prop
  /-- The bucket in turn sends its last packet. -/
  | last (c : ℕ) (l : List ℕ) (pkt : α) : Turn (c :: l) [.departed c pkt] l
  | again (c : ℕ) (l : List ℕ) (pkt : α) : Turn (c :: l) [.departed c pkt] (l ++ [c])
  | joined (l : List ℕ) (q : ℕ) (h : q ∉ l) : Turn l [] (l ++ [q])
  | same (l : List ℕ) (o : List (SfqTrace α)) (h : ∀ b, o.filterMap (SfqTrace.departure b) = []) : Turn l o l

lemma Books.init : Books cfg ([] : List (SfqEvent α)) [] init [] where
  ring := RingLinks.Holds.empty
  mem b := by simp [Sfq.init]
  pkts b := rfl
  occupied := rfl
  accounted b := Accounted.nil
  limit := le_max_right _ _

lemma Books.pkts_pos (h : Books cfg evs tr s l) : 0 < (s.bucket b).pkts ↔ b ∈ l := by
  rw [h.pkts, h.mem, Int.natCast_pos, List.length_pos_iff]

/-- A packet arrives at the end of its bucket. -/
lemma Books.accept (h : Books cfg evs tr s l) (hleft : 0 < cfg.maxqueue - s.occupied) {k : RingLinks ℕ}
    (hk : k.Holds l') (hl' : which ∈ l ∧ l' = l ∨ which ∉ l ∧ l' = l ++ [which]) :
    Books cfg (evs ++ [.enque which pkt]) tr
      { s.setBucket which ⟨(s.bucket which).queue ++ [pkt], (s.bucket which).pkts + 1⟩ with
        links := k, occupied := s.occupied + 1 } l' := by
  have hself : (s.setBucket which ⟨(s.bucket which).queue ++ [pkt], (s.bucket which).pkts + 1⟩).bucket which =
      ⟨(s.bucket which).queue ++ [pkt], (s.bucket which).pkts + 1⟩ := Function.update_self _ _ _
  have hother : ∀ x, x ≠ which → (s.setBucket which
      ⟨(s.bucket which).queue ++ [pkt], (s.bucket which).pkts + 1⟩).bucket x = s.bucket x :=
    fun x hx => Function.update_of_ne hx _ _
  have hmem : ∀ x, x ∈ l' ↔ x ∈ l ∨ x = which := by
    intro x
    rcases hl' with ⟨hin, rfl⟩ | ⟨-, rfl⟩
    · exact ⟨Or.inl, fun hx => hx.elim id fun heq => heq ▸ hin⟩
    · simp
  refine ⟨hk, fun x => ?_, fun x => ?_, ?_, fun x => ?_, ?_⟩
  · by_cases hx : x = which
    · subst hx
      exact iff_of_true ((hmem x).mpr (Or.inr rfl)) (by rw [hself]; simp)
    · rw [hmem, hother x hx, h.mem]
      simp [hx]
  · by_cases hx : x = which
    · subst hx
      rw [hself, h.pkts]
      simp
    · rw [hother x hx, h.pkts]
  · show s.occupied + 1 = _
    rcases hl' with ⟨hin, rfl⟩ | ⟨hout, rfl⟩
    · obtain ⟨l₁, l₂, rfl⟩ := List.append_of_mem hin
      rw [sum_map_changed (f := fun x => (s.bucket x).pkts) h.ring.nodup fun x hx => by rw [hother x hx],
        ← h.occupied, hself]
      ring
    · have hsame : (l.map fun x => ((s.setBucket which
          ⟨(s.bucket which).queue ++ [pkt], (s.bucket which).pkts + 1⟩).bucket x).pkts) =
          l.map fun x => (s.bucket x).pkts :=
        List.map_congr_left fun x hx => by rw [hother x (ne_of_mem_of_not_mem hx hout)]
      have hzero : (s.bucket which).pkts = 0 := by
        rw [h.pkts, not_not.mp (mt (h.mem which).mpr hout)]
        rfl
      rw [List.map_append, List.sum_append, hsame, ← h.occupied, List.map_singleton, List.sum_singleton, hself, hzero,
        zero_add]
  · rw [List.filterMap_append]
    by_cases hx : which = x
    · subst hx
      rw [hself]
      simpa [List.filterMap_cons, SfqEvent.offered] using (h.accounted which).accept
    · rw [hother x (Ne.symm hx)]
      simpa [List.filterMap_cons, SfqEvent.offered, hx] using h.accounted x
  · show s.occupied + 1 ≤ _
    exact le_max_of_le_left (by omega)

lemma Books.enque (h : Books cfg evs tr s l) : ∃ s' o l', s.enque cfg which pkt = some (s', o) ∧
    Books cfg (evs ++ [.enque which pkt]) (tr ++ o) s' l' ∧ Turn l o l' := by
  unfold Sfq.enque
  dsimp only
  split
  next hfull =>
    refine ⟨s, _, l, rfl, ⟨h.ring, h.mem, h.pkts, h.occupied, fun x => ?_, h.limit⟩, Turn.same _ _ fun _ => rfl⟩
    rw [List.filterMap_append, List.filterMap_append, List.filterMap_append]
    by_cases hx : which = x
    · subst hx
      simpa [List.filterMap_cons, SfqEvent.offered, SfqTrace.drop, SfqTrace.departure] using
        (h.accounted which).drop (p := pkt)
    · simpa [List.filterMap_cons, SfqEvent.offered, SfqTrace.drop, SfqTrace.departure, hx] using h.accounted x
  next hroom =>
    have hleft : 0 < cfg.maxqueue - s.occupied := by
      simp only [not_or] at hroom
      omega
    simp only [setBucket, Function.update_self]
    by_cases hin : which ∈ l
    · have hpos := h.pkts_pos.mpr hin
      rw [if_neg (by omega)]
      refine ⟨_, _, l, rfl, ?_, Turn.same _ _ fun _ => rfl⟩
      rw [List.append_nil]
      exact h.accept hleft h.ring (Or.inl ⟨hin, rfl⟩)
    · have hzero : (s.bucket which).pkts = 0 := by
        rw [h.pkts, not_not.mp (mt (h.mem which).mpr hin)]
        rfl
      obtain ⟨k, hjoin, hk⟩ := h.ring.join hin
      rw [if_pos (by omega)]
      unfold Sfq.activate
      rw [hjoin]
      refine ⟨_, _, l ++ [which], rfl, ?_, Turn.joined _ _ hin⟩
      rw [List.append_nil]
      exact h.accept hleft hk (Or.inr ⟨hin, rfl⟩)

/-- The first packet of the bucket in turn departs. -/
lemma Books.depart (h : Books cfg evs tr s (c :: l)) (hq : (s.bucket c).queue = pkt :: rest) {k : RingLinks ℕ}
    (hk : k.Holds l') (hl' : rest = [] ∧ l' = l ∨ rest ≠ [] ∧ l' = l ++ [c]) :
    Books cfg (evs ++ [.deque]) (tr ++ [.departed c pkt])
      { s.setBucket c ⟨rest, (s.bucket c).pkts - 1⟩ with links := k, occupied := s.occupied - 1 } l' := by
  have hself : (s.setBucket c ⟨rest, (s.bucket c).pkts - 1⟩).bucket c = ⟨rest, (s.bucket c).pkts - 1⟩ :=
    Function.update_self _ _ _
  have hother : ∀ x, x ≠ c → (s.setBucket c ⟨rest, (s.bucket c).pkts - 1⟩).bucket x = s.bucket x :=
    fun x hx => Function.update_of_ne hx _ _
  have hpkts : (s.bucket c).pkts - 1 = rest.length := by
    rw [h.pkts, hq, List.length_cons]
    push_cast
    ring
  have hcl : c ∉ l := (List.nodup_cons.mp h.ring.nodup).1
  refine ⟨hk, fun x => ?_, fun x => ?_, ?_, fun x => ?_, ?_⟩
  · by_cases hx : x = c
    · subst hx
      rw [hself]
      rcases hl' with ⟨hnil, rfl⟩ | ⟨hne, rfl⟩
      · exact iff_of_false hcl (not_not_intro hnil)
      · exact iff_of_true (by simp) hne
    · rw [hother x hx, ← h.mem]
      rcases hl' with ⟨-, rfl⟩ | ⟨-, rfl⟩ <;> simp [hx]
  · by_cases hx : x = c
    · subst hx
      rw [hself, hpkts]
    · rw [hother x hx, h.pkts]
  · show s.occupied - 1 = (l'.map fun x => ((s.setBucket c ⟨rest, (s.bucket c).pkts - 1⟩).bucket x).pkts).sum
    have hnd : ([] ++ c :: l).Nodup := h.ring.nodup
    have hsum := sum_map_changed (f := fun x => (s.bucket x).pkts)
      (g := fun x => ((s.setBucket c ⟨rest, (s.bucket c).pkts - 1⟩).bucket x).pkts) hnd
      fun x hx => by rw [hother x hx]
    rw [List.nil_append, ← h.occupied, hself, List.map_cons, List.sum_cons, hself] at hsum
    rcases hl' with ⟨hnil, rfl⟩ | ⟨-, rfl⟩
    · rw [hnil] at hpkts
      simp only [List.length_nil, Nat.cast_zero] at hpkts
      dsimp only at hsum
      omega
    · rw [List.map_append, List.sum_append, List.map_singleton, List.sum_singleton, hself]
      dsimp only at hsum ⊢
      omega
  · rw [List.filterMap_append, List.filterMap_append, List.filterMap_append]
    by_cases hx : c = x
    · subst hx
      have haccounted := h.accounted c
      rw [hq] at haccounted
      rw [hself]
      simpa [List.filterMap_cons, SfqEvent.offered, SfqTrace.drop, SfqTrace.departure] using haccounted.depart
    · rw [hother x (Ne.symm hx)]
      simpa [List.filterMap_cons, SfqEvent.offered, SfqTrace.drop, SfqTrace.departure, hx] using h.accounted x
  · exact (Int.sub_le_self _ one_pos.le).trans h.limit

lemma Books.deque (h : Books cfg evs tr s l) : ∃ s' o l', s.deque = some (s', o) ∧
    Books cfg (evs ++ [.deque]) (tr ++ o) s' l' ∧ Turn l o l' := by
  unfold Sfq.deque
  rw [h.ring.head]
  cases l with
  | nil =>
    refine ⟨s, [], [], rfl, ⟨h.ring, h.mem, h.pkts, h.occupied, fun x => ?_, h.limit⟩, Turn.same _ _ fun _ => rfl⟩
    rw [List.filterMap_append]
    simpa [List.filterMap_cons, SfqEvent.offered] using h.accounted x
  | cons c l =>
    obtain ⟨pkt, rest, hq⟩ := List.exists_cons_of_ne_nil ((h.mem c).mp List.mem_cons_self)
    have hpkts : (s.bucket c).pkts - 1 = rest.length := by
      rw [h.pkts, hq, List.length_cons]
      push_cast
      ring
    simp only [List.head?_cons, hq, setBucket, Function.update_self]
    by_cases hrest : rest = []
    · obtain ⟨k, hleave, hk⟩ := h.ring.leaveHead
      rw [if_pos (by rw [hpkts, hrest]; rfl)]
      unfold Sfq.idle
      rw [if_pos (by rw [h.ring.head]; rfl), hleave]
      exact ⟨_, _, l, rfl, h.depart hq hk (Or.inl ⟨hrest, rfl⟩), Turn.last c l pkt⟩
    · rw [if_neg (by rw [hpkts]; simpa using hrest)]
      have hk : RingLinks.Holds { s.links with head := s.links.next c } (l ++ [c]) := by
        refine ⟨h.ring.circle.rotate, (List.perm_append_comm.nodup_iff).mp h.ring.nodup, ?_⟩
        show s.links.next c = _
        rw [h.ring.circle.next_eq]
        cases l <;> rfl
      exact ⟨_, _, l ++ [c], rfl, h.depart hq hk (Or.inr ⟨hrest, rfl⟩), Turn.again c l pkt⟩

lemma Books.step (h : Books cfg evs tr s l) (ev : SfqEvent α) : ∃ s' o l', s.step cfg ev = some (s', o) ∧
    Books cfg (evs ++ [ev]) (tr ++ o) s' l' ∧ Turn l o l' := by
  cases ev with
  | enque which pkt => exact h.enque
  | deque => exact h.deque

lemma Books.run (h : Books cfg evs tr s l) (is : List (SfqEvent α)) :
    ∃ s' os, Library.run (Sfq.step cfg) s is = some (s', os) ∧
      ∃ l', Books cfg (evs ++ is) (tr ++ os.flatten) s' l' := by
  induction is generalizing s evs tr l with
  | nil => exact ⟨s, [], rfl, l, by simpa using h⟩
  | cons ev is ih =>
    obtain ⟨s₁, o, l₁, hstep, h₁, -⟩ := h.step ev
    obtain ⟨s₂, os, hrun, l₂, h₂⟩ := ih h₁
    exact ⟨s₂, o :: os, by rw [run_cons_of_step hstep, hrun]; rfl, l₂, by simpa using h₂⟩

/-- What the scheduler counts after the events `evs`, of which `tr` has been seen. -/
structure Consistent (cfg : SfqConfig) (evs : List (SfqEvent α)) (tr : List (SfqTrace α)) (s : Sfq α) : Prop where
  ring : ∃ l, s.links.Holds l ∧ ∀ b, b ∈ l ↔ 0 < (s.bucket b).pkts
  pkts : ∀ b, (s.bucket b).pkts = (s.bucket b).queue.length
  occupied : s.occupied = ∑ b ∈ Finset.range cfg.buckets, ((s.bucket b).queue.length : ℤ)
  /-- Each packet that was offered is dropped, has departed in order or is still there. -/
  accounted : ∀ b, Accounted (evs.filterMap (SfqEvent.offered b)) (tr.filterMap (SfqTrace.drop b))
    (tr.filterMap (SfqTrace.departure b)) (s.bucket b).queue
  limit : s.occupied ≤ max cfg.maxqueue 0

lemma Books.consistent (h : Books cfg evs tr s l)
    (hrange : ∀ which pkt, .enque which pkt ∈ evs → which < cfg.buckets) : Consistent cfg evs tr s := by
  refine ⟨⟨l, h.ring, fun b => h.pkts_pos.symm⟩, h.pkts, ?_, h.accounted, h.limit⟩
  have hall : ∀ b ∈ l, b ∈ Finset.range cfg.buckets := by
    intro b hb
    rw [Finset.mem_range]
    obtain ⟨pkt, rest, hq⟩ := List.exists_cons_of_ne_nil ((h.mem b).mp hb)
    have hoffered : pkt ∈ evs.filterMap (SfqEvent.offered b) :=
      (h.accounted b).fifo.subset (by rw [hq]; simp)
    obtain ⟨ev, hev, heq⟩ := List.mem_filterMap.mp hoffered
    cases ev with
    | enque which pkt' =>
      by_cases hwhich : which = b
      · exact hwhich ▸ hrange which pkt' hev
      · rw [SfqEvent.offered, if_neg hwhich] at heq
        cases heq
    | deque => cases heq
  have hzero : ∀ b, b ∉ l → (s.bucket b).pkts = 0 := by
    intro b hb
    rw [h.pkts, not_not.mp (mt (h.mem b).mpr hb)]
    rfl
  rw [h.occupied, sum_map_eq_sum h.ring.nodup hall hzero]
  exact Finset.sum_congr rfl fun b _ => h.pkts b

/-! ### Rounds -/

/-- How often `b` is served. -/
def departures (b : ℕ) (tr : List (SfqTrace α)) : ℕ := (tr.filterMap (SfqTrace.departure b)).length

@[simp] lemma departures_nil : departures b ([] : List (SfqTrace α)) = 0 := rfl

@[simp] lemma departures_append : departures b (tr ++ o) = departures b tr + departures b o := by
  unfold departures
  rw [List.filterMap_append, List.length_append]

@[simp] lemma departures_departed : departures b [.departed c pkt] = if c = b then 1 else 0 := by
  unfold departures
  by_cases h : c = b <;> simp [SfqTrace.departure, h]

/-- The bucket `x` has been served `n` times since `b` was; it comes before `b` as long as it has not been served.
With `once`, `b` has had packets all the time. -/
structure Waits (once : Prop) (b x n : ℕ) (l : List ℕ) : Prop where
  stays : once → b ∈ l
  order : ∀ l₁ l₂, l = l₁ ++ b :: l₂ → (x ∈ l₁ ∧ (once → n = 0)) ∨ (x ∈ l₂ ∧ 1 ≤ n ∧ (once → n = 1))

variable {once : Prop} {x n : ℕ}

/-- The last element of a list is the one in the middle or behind it. -/
lemma concat_eq_middle {l l₁ l₂ : List ℕ} {q : ℕ} (h : l ++ [q] = l₁ ++ b :: l₂) :
    (l₂ = [] ∧ l₁ = l ∧ q = b) ∨ ∃ l₃, l₂ = l₃ ++ [q] ∧ l = l₁ ++ b :: l₃ := by
  rcases List.eq_nil_or_concat l₂ with rfl | ⟨l₃, q', rfl⟩
  · obtain ⟨rfl, hq⟩ := List.append_inj' h rfl
    exact Or.inl ⟨rfl, rfl, List.singleton_inj.mp hq⟩
  · rw [List.concat_eq_append, ← List.cons_append, ← List.append_assoc] at h
    obtain ⟨rfl, hq⟩ := List.append_inj' h rfl
    obtain rfl := List.singleton_inj.mp hq
    exact Or.inr ⟨l₃, List.concat_eq_append, rfl⟩

lemma Waits.turn (h : Waits once b x n l) (hnd : l.Nodup) (hturn : Turn l o l') (hb : departures b o = 0)
    (hx : x ∈ l) (hx' : x ∈ l') : Waits once b x (n + departures x o) l' := by
  cases hturn with
  | last c _ pkt =>
    have hcl := (List.nodup_cons.mp hnd).1
    have hcb : c ≠ b := fun heq => by simp [heq] at hb
    have hcx : c ≠ x := fun heq => hcl (heq ▸ hx')
    rw [departures_departed, if_neg hcx, add_zero]
    refine ⟨fun honce => (List.mem_cons.mp (h.stays honce)).resolve_left hcb.symm, fun l₁ l₂ heq => ?_⟩
    rcases h.order (c :: l₁) l₂ (by rw [heq]; rfl) with ⟨hmem, hn⟩ | hbehind
    · exact Or.inl ⟨(List.mem_cons.mp hmem).resolve_left hcx.symm, hn⟩
    · exact Or.inr hbehind
  | again c l pkt =>
    have hcl := (List.nodup_cons.mp hnd).1
    have hcb : c ≠ b := fun heq => by simp [heq] at hb
    rw [departures_departed]
    refine ⟨fun honce => ?_, fun l₁ l₂ heq => ?_⟩
    · have := h.stays honce
      simp at this ⊢
      tauto
    · rcases concat_eq_middle heq with ⟨-, -, hcb'⟩ | ⟨l₃, rfl, rfl⟩
      · exact absurd hcb' hcb
      by_cases hcx : c = x
      · subst hcx
        refine Or.inr ⟨by simp, by simp, fun honce => ?_⟩
        rcases h.order (c :: l₁) l₃ rfl with ⟨-, hn⟩ | ⟨hmem, -⟩
        · rw [if_pos rfl, hn honce]
        · exact absurd (by simp [hmem]) hcl
      · rw [if_neg hcx, add_zero]
        rcases h.order (c :: l₁) l₃ rfl with ⟨hmem, hn⟩ | ⟨hmem, hn⟩
        · exact Or.inl ⟨(List.mem_cons.mp hmem).resolve_left (Ne.symm hcx), hn⟩
        · exact Or.inr ⟨List.mem_append_left _ hmem, hn⟩
  | joined _ q hq =>
    rw [departures_nil, add_zero]
    refine ⟨fun honce => List.mem_append_left _ (h.stays honce), fun l₁ l₂ heq => ?_⟩
    rcases concat_eq_middle heq with ⟨-, rfl, rfl⟩ | ⟨l₃, rfl, rfl⟩
    · exact Or.inl ⟨hx, fun honce => absurd (h.stays honce) hq⟩
    · rcases h.order l₁ l₃ rfl with hbefore | ⟨hmem, hn⟩
      · exact Or.inl hbefore
      · exact Or.inr ⟨List.mem_append_left _ hmem, hn⟩
  | same _ _ hsame =>
    have hnone : departures x o = 0 := by rw [departures, hsame]; rfl
    rwa [hnone, add_zero]

/-- The bucket `x` has packets at each of the calls `is`. -/
def Backlogged (cfg : SfqConfig) (x : ℕ) (s : Sfq α) (is : List (SfqEvent α)) : Prop :=
  EachStep (step cfg) (fun s _ => 0 < (s.bucket x).pkts) s is

/-- The bucket `b` is served, and for the next time after the calls `is`. -/
structure NextServed (cfg : SfqConfig) (b : ℕ) (s s₁ : Sfq α) (is : List (SfqEvent α))
    (os : List (List (SfqTrace α))) : Prop where
  served : ∃ pkt, s.deque = some (s₁, [.departed b pkt])
  next : ∃ s₂ s₃ pkt, run (step cfg) s₁ is = some (s₂, os) ∧ s₂.deque = some (s₃, [.departed b pkt])
  between : departures b os.flatten = 0

/-- Between two departures of a bucket each other bucket that stays backlogged is served, and only once if the first
one stays backlogged, too. -/
def RoundRobin (cfg : SfqConfig) (s : Sfq α) : Prop :=
  ∀ b s₁ is os x, NextServed cfg b s s₁ is os → x ≠ b → Backlogged cfg x s₁ (is ++ [.deque]) →
    1 ≤ departures x os.flatten ∧ (0 < (s₁.bucket b).pkts → departures x os.flatten = 1)

lemma Waits.run {os : List (List (SfqTrace α))} (h : Waits once b x n l) (hbooks : Books cfg evs tr s l)
    (hrun : run (Sfq.step cfg) s is = some (s', os)) (hb : departures b os.flatten = 0)
    (hx : Backlogged cfg x s (is ++ [ev])) :
    ∃ l', Books cfg (evs ++ is) (tr ++ os.flatten) s' l' ∧ Waits once b x (n + departures x os.flatten) l' := by
  induction is generalizing s evs tr l n os with
  | nil =>
    obtain ⟨rfl, rfl⟩ := Prod.mk.inj (Option.some.inj hrun)
    exact ⟨l, by simpa using hbooks, by simpa using h⟩
  | cons i is ih =>
    obtain ⟨s₁, o, os, hstep, htail, rfl⟩ := run_cons_inv hrun
    obtain ⟨s₁', o', l₁, hstep', hbooks₁, hturn⟩ := hbooks.step i
    obtain ⟨rfl, rfl⟩ := Prod.mk.inj (Option.some.inj (hstep'.symm.trans hstep))
    rw [List.flatten_cons, departures_append, Nat.add_eq_zero_iff] at hb
    have hrest := hx.2 s₁' o' hstep
    have hx₁ : 0 < (s₁'.bucket x).pkts := by
      cases is with
      | nil => exact hrest.1
      | cons j is => exact hrest.1
    obtain ⟨l', hbooks', h'⟩ := ih (h.turn hbooks.ring.nodup hturn hb.1 (hbooks.pkts_pos.mp hx.1)
      (hbooks₁.pkts_pos.mp hx₁)) hbooks₁ htail hb.2 hrest
    exact ⟨l', by simpa using hbooks', by simpa [add_assoc] using h'⟩

/-- The bucket that `deque` serves is the first one. -/
lemma Books.served (h : Books cfg evs tr s l) (hdeque : s.deque = some (s', [.departed b pkt])) :
    ∃ rest l', l = b :: rest ∧ Books cfg (evs ++ [.deque]) (tr ++ [.departed b pkt]) s' l' ∧
      (l' = rest ∨ l' = rest ++ [b]) := by
  obtain ⟨s₁, o, l', hdeque', hbooks, hturn⟩ := h.deque
  obtain ⟨rfl, rfl⟩ := Prod.mk.inj (Option.some.inj (hdeque'.symm.trans hdeque))
  cases hturn with
  | last _ rest _ => exact ⟨_, _, rfl, hbooks, Or.inl rfl⟩
  | again _ rest _ => exact ⟨_, _, rfl, hbooks, Or.inr rfl⟩
  | same _ _ hsame => exact absurd (hsame b) (by simp [SfqTrace.departure])

lemma Books.roundRobin (h : Books cfg evs tr s l) : RoundRobin cfg s := by
  rintro b s₁ is os x ⟨⟨pkt, hfirst⟩, ⟨s₂, s₃, pkt', hrun, hsecond⟩, hbetween⟩ hxb hx
  obtain ⟨rest, l₁, rfl, hbooks₁, hl₁⟩ := h.served hfirst
  have hx₁ : x ∈ l₁ := by
    refine hbooks₁.pkts_pos.mp ?_
    cases is with
    | nil => exact hx.1
    | cons i is => exact hx.1
  have hbrest := (List.nodup_cons.mp h.ring.nodup).1
  have hwaits : Waits (b ∈ l₁) b x 0 l₁ := by
    refine ⟨id, fun k₁ k₂ heq => Or.inl ⟨?_, fun _ => rfl⟩⟩
    rcases hl₁ with rfl | rfl
    · exact absurd (by simp [heq]) hbrest
    · rcases concat_eq_middle heq with ⟨rfl, rfl, -⟩ | ⟨k₃, -, rfl⟩
      · simpa [hxb] using hx₁
      · exact absurd (by simp) hbrest
  obtain ⟨l₂, hbooks₂, hwaits₂⟩ := hwaits.run hbooks₁ hrun hbetween hx
  obtain ⟨rest', -, rfl, -⟩ := hbooks₂.served hsecond
  rw [zero_add] at hwaits₂
  rcases hwaits₂.order [] rest' rfl with ⟨hnil, -⟩ | ⟨-, hone, honce⟩
  · exact absurd hnil List.not_mem_nil
  · exact ⟨hone, fun hpos => honce (hbooks₁.pkts_pos.mp hpos)⟩

/-- Bucket 0 runs empty and comes back behind bucket 1, which is served a second time before it. -/
def comesBack : List (SfqEvent ℕ) := [.deque, .enque 0 4, .deque]

/-- A bucket that stays backlogged is served twice between two departures of another one. -/
theorem served_twice_between : ∃ s os s₁ os₁,
    run (step ⟨40, 16⟩) init [.enque 0 0, .enque 1 1, .enque 1 2, .enque 1 3] = some (s, os) ∧
      NextServed ⟨40, 16⟩ 0 s s₁ comesBack os₁ ∧ Backlogged ⟨40, 16⟩ 1 s₁ (comesBack ++ [.deque]) ∧
        departures 1 os₁.flatten = 2 := by
  refine ⟨_, _, _, _, rfl, ⟨⟨_, rfl⟩, ⟨_, _, _, rfl, rfl⟩, rfl⟩, ?_, rfl⟩
  exact EachStep.cons (by decide) rfl (EachStep.cons (by decide) rfl
    (EachStep.cons (by decide) rfl (EachStep.cons (by decide) rfl trivial)))

end Sfq

/-- After each sequence of calls the rings and the counts of both schedulers are right and no packet is lost, each
stays within its limit, and the buckets of stochastic fair queueing are served in rounds. -/
theorem fairQueues_consistent :
    (∀ (cfg : DrrConfig) (buckets : ℕ) (evs : List DrrEvent),
      (∀ which size, .enque which size ∈ evs → which < buckets ∧ 0 < size) →
        (∀ s os, run (Drr.step cfg) Drr.init evs = some (s, os) → Drr.Consistent cfg buckets evs os.flatten s) ∧
          (1 ≤ cfg.quantum → ∃ r, run (Drr.step cfg) Drr.init evs = some r)) ∧
      ∀ (α : Type) (cfg : SfqConfig) (evs : List (SfqEvent α)),
        (∀ which pkt, .enque which pkt ∈ evs → which < cfg.buckets) →
          ∃ s os, run (Sfq.step cfg) Sfq.init evs = some (s, os) ∧ Sfq.Consistent cfg evs os.flatten s ∧
            s.RoundRobin cfg := by
  refine ⟨fun cfg buckets evs hrange => Drr.consistent_run hrange, fun α cfg evs hrange => ?_⟩
  have hinit : Sfq.Books cfg ([] : List (SfqEvent α)) [] Sfq.init [] := Sfq.Books.init
  obtain ⟨s, os, hrun, l, hbooks⟩ := hinit.run evs
  simp only [List.nil_append] at hbooks
  exact ⟨s, os, hrun, hbooks.consistent hrange, hbooks.roundRobin⟩

/-- A packet in bucket 0 and the call that returns it. -/
theorem fairQueues_consistent_single :
    (∃ s os, run (Drr.step ⟨1000, 250⟩) Drr.init [.enque 0 200, .deque] = some (s, os) ∧
      Drr.Consistent ⟨1000, 250⟩ 16 [.enque 0 200, .deque] os.flatten s) ∧
      ∃ s os, run (Sfq.step ⟨40, 16⟩) Sfq.init [.enque 0 7, .deque] = some (s, os) ∧
        Sfq.Consistent ⟨40, 16⟩ [.enque 0 7, .deque] os.flatten s ∧ s.RoundRobin ⟨40, 16⟩ := by
  obtain ⟨hdrr, hsfq⟩ := fairQueues_consistent
  refine ⟨?_, hsfq ℕ ⟨40, 16⟩ [.enque 0 7, .deque] (by simp)⟩
  obtain ⟨hright, hends⟩ := hdrr ⟨1000, 250⟩ 16 [.enque 0 200, .deque] (by simp)
  obtain ⟨⟨s, os⟩, hrun⟩ := hends (by decide)
  exact ⟨s, os, hrun, hright s os hrun⟩

end NetworkSimulator
