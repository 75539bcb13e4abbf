import NetworkSimulator.Library.Runs
import NetworkSimulator.Tcp.Snoop

/-!
# The cache of a Snoop agent over its runs

The cache is a ring that holds the packets above the last ACK in the order of their sequence numbers.
-/

namespace NetworkSimulator
open Library

namespace Snoop
variable {cfg : SnoopConfig} {s s' : Snoop} {l : List SnoopPacket} {now sndTime : ℚ} {seq ack : ℤ}
  {i k fuel : ℕ} {x y : BitVec 16} {sh : SnoopPacket}

/-- Two states of the connection that differ at most in one bit. -/
def SameBut (bit x y : BitVec 16) : Prop := x &&& ~~~bit = y &&& ~~~bit

lemma sameBut_or (bit x : BitVec 16) : SameBut bit x (x ||| bit) := by
  unfold SameBut
  rw [BitVec.and_or_distrib_right, BitVec.and_not_self]
  exact BitVec.or_zero.symm

lemma sameBut_andNot (bit x : BitVec 16) : SameBut bit x (x &&& ~~~bit) := by
  unfold SameBut
  rw [BitVec.and_assoc, BitVec.and_self]

lemma has_or : { s with fstate := x ||| SNOOP_FULL }.has SNOOP_FULL := by
  unfold has
  simp [BitVec.and_or_distrib_right, SNOOP_FULL]

lemma has_andNot (h : s.fstate = x &&& ~~~SNOOP_FULL) : ¬s.has SNOOP_FULL := by
  unfold has
  simp [h, BitVec.and_assoc]

/-- Setting or clearing another bit leaves `SNOOP_FULL` as it was. -/
lemma has_or_alive : { s with fstate := s.fstate ||| SNOOP_ALIVE }.has SNOOP_FULL = s.has SNOOP_FULL := by
  unfold has
  rw [BitVec.and_or_distrib_right, show SNOOP_ALIVE &&& SNOOP_FULL = 0#16 by decide, BitVec.or_zero]

lemma has_andNot_noack :
    { s with fstate := s.fstate &&& ~~~SNOOP_NOACK }.has SNOOP_FULL = s.has SNOOP_FULL := by
  unfold has
  rw [BitVec.and_assoc, show ~~~SNOOP_NOACK &&& SNOOP_FULL = SNOOP_FULL by decide]

/-- The cache holds the packets `l`. -/
structure Cached (cfg : SnoopConfig) (l : List SnoopPacket) (s : Snoop) : Prop where
  ring : Ring.Holds s.pkts cfg.maxbufs s.buftail l
  head : s.bufhead = Ring.place cfg.maxbufs s.buftail l.length
  sorted : (l.map (·.seqno)).Pairwise (· < ·)
  fresh : ∀ q ∈ l.map (·.seqno), s.lastAck < q
  seen : ∀ q ∈ l.map (·.seqno), q ≤ s.lastSeen
  header : ∀ p ∈ l, p.tcpSeqno = p.seqno
  full : s.has SNOOP_FULL ↔ l.length = cfg.maxbufs

lemma cached_init : Cached cfg [] init :=
  ⟨Ring.holds_nil cfg.pos, (Nat.mod_eq_of_lt cfg.pos).symm, List.Pairwise.nil, nofun, nofun, nofun,
    ⟨nofun, fun h => absurd h cfg.pos.ne⟩⟩

lemma map_set_same {f : SnoopPacket → ℤ} {sh' : SnoopPacket} (hk : l[k]? = some sh) (hf : f sh' = f sh) :
    (l.set k sh').map f = l.map f := by
  apply List.ext_getElem?
  intro j
  rw [List.getElem?_map, List.getElem?_map, List.getElem?_set]
  split_ifs with hkj hlt
  · rw [← hkj, hk, Option.map_some, Option.map_some, hf]
  · rw [← hkj, List.getElem?_eq_none (not_lt.mp hlt)]
  · rfl

namespace Cached

lemma length_lt (h : Cached cfg l s) (hfull : ¬s.has SNOOP_FULL) : l.length < cfg.maxbufs :=
  lt_of_le_of_ne h.ring.length_le fun heq => hfull (h.full.mpr heq)

lemma empty_iff (h : Cached cfg l s) : s.empty ↔ l = [] := by
  unfold Snoop.empty
  rw [decide_eq_true_iff, h.head, Ring.place_eq_start h.ring.start_lt h.ring.length_le, h.full,
    ← List.length_eq_zero_iff]
  have := cfg.pos
  omega

/-- A new header for the `k`-th packet. -/
lemma touch (h : Cached cfg l s) (hk : l[k]? = some sh) (sh' : SnoopPacket) (htcp : sh'.tcpSeqno = sh.tcpSeqno)
    (hseqno : sh'.seqno = sh.seqno) :
    Cached cfg (l.set k sh') (s.setPkt (Ring.place cfg.maxbufs s.buftail k) (some sh')) := by
  obtain ⟨hlt, -⟩ := List.getElem?_eq_some_iff.mp hk
  have hseqs : (l.set k sh').map (·.seqno) = l.map (·.seqno) := map_set_same hk hseqno
  refine ⟨h.ring.modify hlt sh', ?_, hseqs ▸ h.sorted, hseqs ▸ h.fresh, hseqs ▸ h.seen, ?_, ?_⟩
  · rw [List.length_set]
    exact h.head
  · intro p hp
    rcases List.mem_or_eq_of_mem_set hp with hp | rfl
    · exact h.header p hp
    · rw [htcp, hseqno, h.header sh (List.mem_of_getElem? hk)]
  · rw [List.length_set]
    exact h.full

end Cached

lemma markFull_frame (s : Snoop) : s.markFull = { s with fstate := s.markFull.fstate } := by
  unfold markFull
  split <;> rfl

lemma markFull_lastSeen (s : Snoop) (q : ℤ) :
    { s with lastSeen := q }.markFull = { s.markFull with lastSeen := q } := by
  unfold markFull
  split <;> rfl

/-- A full ring is marked. -/
lemma markFull_spec (hring : Ring.Holds s.pkts cfg.maxbufs s.buftail l)
    (hhead : s.bufhead = Ring.place cfg.maxbufs s.buftail l.length)
    (hsorted : (l.map (·.seqno)).Pairwise (· < ·)) (hfresh : ∀ q ∈ l.map (·.seqno), s.lastAck < q)
    (hseen : ∀ q ∈ l.map (·.seqno), q ≤ s.lastSeen) (hheader : ∀ p ∈ l, p.tcpSeqno = p.seqno)
    (hfull : ¬s.has SNOOP_FULL) (hne : l ≠ []) :
    Cached cfg l s.markFull ∧ SameBut SNOOP_FULL s.fstate s.markFull.fstate := by
  have hwrap : s.bufhead = s.buftail ↔ l.length = cfg.maxbufs := by
    rw [hhead, Ring.place_eq_start hring.start_lt hring.length_le]
    exact or_iff_right fun hzero => hne (List.length_eq_zero_iff.mp hzero)
  unfold markFull
  split_ifs with hw
  · exact ⟨⟨hring, hhead, hsorted, hfresh, hseen, hheader, fun _ => hwrap.mp hw, fun _ => has_or⟩, sameBut_or _ _⟩
  · exact ⟨⟨hring, hhead, hsorted, hfresh, hseen, hheader, fun h => absurd h hfull,
      fun h => absurd (hwrap.mpr h) hw⟩, rfl⟩

/-- What `store` makes of a ring that has got the new packet. -/
lemma store_spec (hring : Ring.Holds (s.savepkt now seq i).pkts cfg.maxbufs s.buftail l)
    (hhead : s.bufhead = Ring.place cfg.maxbufs s.buftail l.length)
    (hsorted : (l.map (·.seqno)).Pairwise (· < ·)) (hfresh : ∀ q ∈ l.map (·.seqno), s.lastAck < q)
    (hseen : ∀ q ∈ l.map (·.seqno), q ≤ s.lastSeen ∨ q = seq) (hheader : ∀ p ∈ l, p.tcpSeqno = p.seqno)
    (hfull : ¬s.has SNOOP_FULL) (hne : l ≠ []) :
    ∃ s' r l', s.store now seq i = some (s', r) ∧ Cached cfg l' s' ∧ s'.lastAck = s.lastAck ∧
      SameBut SNOOP_FULL s.fstate s'.fstate := by
  unfold store
  dsimp only
  by_cases hold : seq < s.lastSeen
  · obtain ⟨hcached, hsame⟩ := markFull_spec (s := s.savepkt now seq i) hring hhead hsorted hfresh
      (fun q hq => (hseen q hq).elim id fun heq => heq ▸ hold.le) hheader hfull hne
    have hframe := markFull_frame (s.savepkt now seq i)
    generalize (s.savepkt now seq i).markFull = u at hcached hsame hframe
    obtain ⟨hlastSeen, hlastAck⟩ : u.lastSeen = s.lastSeen ∧ u.lastAck = s.lastAck := by
      rw [hframe]
      exact ⟨rfl, rfl⟩
    rw [if_pos (hlastSeen ▸ hold)]
    split_ifs with hi
    · obtain ⟨sh, l, rfl⟩ := List.exists_cons_of_ne_nil hne
      have hfirst : u.pkts i = some sh := hi ▸ hcached.ring.first
      have htouch := hcached.touch (k := 0) rfl { sh with senderRxmit := true, numRxmit := 0 } rfl rfl
      rw [Ring.place_zero hcached.ring.start_lt, hi] at htouch
      rw [hfirst]
      exact ⟨_, _, _, rfl, ⟨htouch.ring, htouch.head, htouch.sorted, htouch.fresh, htouch.seen, htouch.header,
        htouch.full⟩, hlastAck, hsame⟩
    · exact ⟨_, _, l, rfl, ⟨hcached.ring, hcached.head, hcached.sorted, hcached.fresh, hcached.seen,
        hcached.header, hcached.full⟩, hlastAck, hsame⟩
  · obtain ⟨hcached, hsame⟩ := markFull_spec (s := { s.savepkt now seq i with lastSeen := seq }) hring hhead hsorted
      hfresh (fun q hq => (hseen q hq).elim (fun hle => hle.trans (not_lt.mp hold)) Eq.le) hheader hfull hne
    have hframe := markFull_frame (s.savepkt now seq i)
    rw [markFull_lastSeen] at hcached hsame
    generalize (s.savepkt now seq i).markFull = u at hcached hsame hframe
    obtain ⟨hlastSeen, hlastAck⟩ : u.lastSeen = s.lastSeen ∧ u.lastAck = s.lastAck := by
      rw [hframe]
      exact ⟨rfl, rfl⟩
    rw [if_neg (hlastSeen ▸ hold)]
    exact ⟨_, _, l, rfl, hcached, hlastAck, hsame⟩

/-- Where the search ends in a cache that is not full. -/
lemma search_spec (seq : ℤ) (fuel : ℕ) (h : Cached cfg l s) (hfull : ¬s.has SNOOP_FULL) (hk : k ≤ l.length) (hfuel : l.length < k + fuel)
    (hbelow : ∀ p ∈ l.take k, p.seqno < seq) :
    (∃ m sh, s.search cfg seq fuel (Ring.place cfg.maxbufs s.buftail k) =
        some (.cached (Ring.place cfg.maxbufs s.buftail m) sh) ∧ l[m]? = some sh ∧ sh.seqno = seq) ∨
      (∃ m, s.search cfg seq fuel (Ring.place cfg.maxbufs s.buftail k) =
        some (.before (Ring.place cfg.maxbufs s.buftail m)) ∧ k ≤ m ∧ m < l.length ∧
        (∀ p ∈ l.take m, p.seqno < seq) ∧ ∀ p ∈ l.drop m, seq < p.seqno) ∨
      s.search cfg seq fuel (Ring.place cfg.maxbufs s.buftail k) = some .atEnd ∧ ∀ p ∈ l, p.seqno < seq := by
  have hroom := h.length_lt hfull
  induction fuel generalizing k with
  | zero => omega
  | succ fuel ih =>
    unfold search
    have hstop : Ring.place cfg.maxbufs s.buftail k = s.bufhead ↔ k = l.length := by
      rw [h.head, Ring.place_inj h.ring.start_lt (by omega) hroom]
    by_cases hend : k = l.length
    · rw [if_pos (hstop.mpr hend)]
      rw [hend, List.take_length] at hbelow
      exact Or.inr (Or.inr ⟨rfl, hbelow⟩)
    · have hlt : k < l.length := by omega
      rw [if_neg (mt hstop.mp hend), h.ring.slot k (by omega), List.getElem?_eq_getElem hlt]
      dsimp only
      split_ifs with heq hgt
      · exact Or.inl ⟨k, l[k], rfl, List.getElem?_eq_getElem hlt, heq⟩
      · refine Or.inr (Or.inl ⟨k, rfl, le_rfl, hlt, hbelow, fun p hp => ?_⟩)
        have hsorted := List.pairwise_map.mp h.sorted
        rw [List.drop_eq_getElem_cons hlt] at hp
        rcases List.mem_cons.mp hp with rfl | hp
        · exact hgt
        · have hdrop := hsorted.sublist (List.drop_sublist k l)
          rw [List.drop_eq_getElem_cons hlt] at hdrop
          exact hgt.trans ((List.pairwise_cons.mp hdrop).1 p hp)
      · rw [next, Ring.next_place]
        have hbelow' : ∀ p ∈ l.take (k + 1), p.seqno < seq := by
          intro p hp
          rw [List.take_add_one, List.getElem?_eq_getElem hlt] at hp
          rcases List.mem_append.mp hp with hp | hp
          · exact hbelow p hp
          · obtain rfl := List.mem_singleton.mp hp
            exact lt_of_le_of_ne (not_lt.mp hgt) heq
        rcases ih (by omega) (by omega) hbelow' with hcached | ⟨m, hm, hle, hrest⟩ | hatEnd
        · exact Or.inl hcached
        · exact Or.inr (Or.inl ⟨m, hm, by omega, hrest⟩)
        · exact Or.inr (Or.inr hatEnd)

/-- The new packet stands between the packets below and the packets above it. -/
lemma sorted_insert {l₁ l₂ : List SnoopPacket} {p : SnoopPacket} (h : ((l₁ ++ l₂).map (·.seqno)).Pairwise (· < ·))
    (hlow : ∀ q ∈ l₁, q.seqno < p.seqno) (hhigh : ∀ q ∈ l₂, p.seqno < q.seqno) :
    ((l₁ ++ p :: l₂).map (·.seqno)).Pairwise (· < ·) := by
  rw [List.pairwise_map, List.pairwise_append] at h ⊢
  obtain ⟨h₁, h₂, h₁₂⟩ := h
  refine ⟨h₁, h₂.cons hhigh, fun a ha b hb => ?_⟩
  rcases List.mem_cons.mp hb with rfl | hb
  · exact hlow a ha
  · exact h₁₂ a ha b hb

/-- A packet that is not yet in a cache with room for it. -/
lemma store_between (l₁ l₂ : List SnoopPacket) (h : Cached cfg (l₁ ++ l₂) s) {u : Snoop} (hu : u.lastAck = s.lastAck)
    (hlastSeen : u.lastSeen = s.lastSeen) (hfstate : u.fstate = s.fstate) (hfull : ¬s.has SNOOP_FULL)
    (hnew : s.lastAck < seq) (hlow : ∀ q ∈ l₁, q.seqno < seq) (hhigh : ∀ q ∈ l₂, seq < q.seqno)
    (hring : Ring.Holds (u.savepkt now seq i).pkts cfg.maxbufs u.buftail (l₁ ++ ⟨seq, seq, 0, false, now⟩ :: l₂))
    (hhead : u.bufhead = Ring.place cfg.maxbufs u.buftail (l₁.length + l₂.length + 1)) :
    ∃ s' r l', u.store now seq i = some (s', r) ∧ Cached cfg l' s' ∧ s'.lastAck = s.lastAck ∧
      SameBut SNOOP_FULL s.fstate s'.fstate := by
  have hmem : ∀ q, q ∈ (l₁ ++ (⟨seq, seq, 0, false, now⟩ : SnoopPacket) :: l₂).map (·.seqno) →
      q = seq ∨ q ∈ (l₁ ++ l₂).map (·.seqno) := by
    intro q hq
    simp only [List.map_append, List.map_cons, List.mem_append, List.mem_cons] at hq ⊢
    tauto
  rw [← hu, ← hfstate]
  refine store_spec hring ?_ (sorted_insert h.sorted hlow hhigh) (fun q hq => ?_) (fun q hq => ?_) ?_ ?_ (by simp)
  · rw [hhead, List.length_append, List.length_cons, Nat.add_assoc]
  · rw [hu]
    rcases hmem q hq with rfl | hq
    · exact hnew
    · exact h.fresh q hq
  · rw [hlastSeen]
    rcases hmem q hq with rfl | hq
    · exact Or.inr rfl
    · exact Or.inl (h.seen q hq)
  · intro p hp
    rcases List.mem_append.mp hp with hp | hp
    · exact h.header p (List.mem_append_left _ hp)
    · rcases List.mem_cons.mp hp with rfl | hp
      · rfl
      · exact h.header p (List.mem_append_right _ hp)
  · unfold has at hfull ⊢
    rwa [hfstate]

/-- A packet above the last ACK enters a cache with room for it. -/
lemma place_spec (h : Cached cfg l s) (hfull : ¬s.has SNOOP_FULL) (hnew : s.lastAck < seq) :
    ∃ s' r l', s.place cfg now seq = some (s', r) ∧ Cached cfg l' s' ∧ s'.lastAck = s.lastAck ∧
      SameBut SNOOP_FULL s.fstate s'.fstate := by
  have hroom := h.length_lt hfull
  have hbehind : (∀ q ∈ l, q.seqno < seq) → ∃ s' r l',
      { s with bufhead := next cfg s.bufhead }.store now seq s.bufhead = some (s', r) ∧ Cached cfg l' s' ∧
        s'.lastAck = s.lastAck ∧ SameBut SNOOP_FULL s.fstate s'.fstate := fun hlow => by
    refine store_between l [] (by simpa using h) rfl rfl rfl hfull hnew hlow nofun ?_ ?_
    · have hsnoc := h.ring.snoc hroom ⟨seq, seq, 0, false, now⟩
      rwa [← h.head] at hsnoc
    · show next cfg s.bufhead = _
      rw [h.head]
      exact Ring.next_place
  unfold Snoop.place
  split_ifs with hin
  · refine hbehind fun q hq => ?_
    rcases hin with hin | hin
    · exact (h.seen q.seqno (List.mem_map_of_mem hq)).trans_lt hin
    · rw [h.ring.first, List.head?_eq_none_iff] at hin
      rw [hin] at hq
      cases hq
  · push Not at hin
    obtain ⟨first, hfirst⟩ := Option.ne_none_iff_exists'.mp hin.2
    obtain ⟨rest, rfl⟩ : ∃ rest, l = first :: rest := by
      rw [h.ring.first, List.head?_eq_some_iff] at hfirst
      exact hfirst
    rw [hfirst, Option.bind_some]
    split_ifs with hbefore
    · refine store_between [] (first :: rest) h rfl rfl rfl hfull hnew nofun (fun q hq => ?_) ?_ ?_
      · rcases List.mem_cons.mp hq with rfl | hq
        · exact hbefore
        · exact hbefore.trans ((List.pairwise_cons.mp (List.pairwise_map.mp h.sorted)).1 q hq)
      · exact h.ring.cons hroom _
      · show s.bufhead = Ring.place cfg.maxbufs (Ring.prev cfg.maxbufs s.buftail) _
        rw [Ring.place_prev h.ring.start_lt, h.head, List.length_nil, Nat.zero_add]
    · have hsearch := search_spec (k := 0) seq cfg.maxbufs h hfull (Nat.zero_le _) (by omega)
        (fun p hp => absurd hp (by simp))
      rw [Ring.place_zero h.ring.start_lt] at hsearch
      rcases hsearch with ⟨m, sh, hm, hsh, -⟩ | ⟨m, hm, -, hlt, hlow, hhigh⟩ | ⟨hm, hlow⟩
      · rw [hm]
        exact ⟨_, _, _, rfl, h.touch hsh { sh with numRxmit := 0, senderRxmit := true, sndTime := now } rfl rfl, rfl,
          rfl⟩
      · rw [hm, Option.bind_some]
        have hins := h.ring.insertIdx hroom hlt (hlt.trans hroom) (⟨seq, seq, 0, false, now⟩ : SnoopPacket)
        refine store_between ((first :: rest).take m) ((first :: rest).drop m)
          (by rwa [List.take_append_drop]) rfl rfl rfl hfull hnew hlow hhigh ?_ ?_
        · unfold savepkt setPkt openSlot
          dsimp only
          rw [prev, Function.update_idem]
          exact hins
        · show s.bufhead = Ring.place cfg.maxbufs (Ring.prev cfg.maxbufs s.buftail) _
          rw [Ring.place_prev h.ring.start_lt, h.head, ← List.length_append, List.take_append_drop]
      · rw [hm]
        exact hbehind hlow

/-- A cache that need not give up its tail. -/
lemma snoopInsert_spec (now : ℚ) (h : Cached cfg l s) (hkeep : s.has SNOOP_FULL → seq ≤ s.lastAck) :
    ∃ s' r l', s.snoopInsert cfg now seq = some (s', r) ∧ Cached cfg l' s' ∧ s'.lastAck = s.lastAck ∧
      SameBut SNOOP_FULL s.fstate s'.fstate := by
  unfold snoopInsert
  split_ifs with hold
  · exact ⟨s, false, l, rfl, h, rfl, rfl⟩
  · have hfull : ¬s.has SNOOP_FULL := fun hfull => hold (hkeep hfull)
    rw [makeRoom, if_neg hfull]
    exact place_spec h hfull (not_le.mp hold)

/-- The loop of `snoop_cleanbufs_`: the packets up to the ACK leave the ring, and with the first of them
`SNOOP_FULL` is cleared. -/
lemma cleanLoop_spec (ack : ℤ) (sndTime : ℚ) (hring : Ring.Holds s.pkts cfg.maxbufs i l)
    (hhead : s.bufhead = Ring.place cfg.maxbufs i l.length) (hheader : ∀ p ∈ l, p.tcpSeqno = p.seqno)
    (hne : l ≠ []) (hfuel : l.length ≤ fuel) :
    ∃ s' j t l', cleanLoop cfg ack fuel s i sndTime = some (s', j, t) ∧
      l' = l.dropWhile (fun p => p.seqno ≤ ack) ∧ Ring.Holds s'.pkts cfg.maxbufs j l' ∧
      s'.bufhead = Ring.place cfg.maxbufs j l'.length ∧
      (l' = l ∧ s' = s ∧ j = i ∨ l'.length < l.length ∧
        s' = { s with pkts := s'.pkts, fstate := s.fstate &&& ~~~SNOOP_FULL }) := by
  induction fuel generalizing s i l sndTime with
  | zero => exact absurd (List.length_eq_zero_iff.mp (Nat.le_zero.mp hfuel)) hne
  | succ fuel ih =>
    obtain ⟨sh, rest, rfl⟩ := List.exists_cons_of_ne_nil hne
    obtain ⟨htcp, hheader'⟩ := List.forall_mem_cons.mp hheader
    unfold cleanLoop
    rw [hring.first, List.head?_cons, Option.bind_some, htcp]
    split_ifs with hack
    · have hdrop : (sh :: rest).dropWhile (fun p => p.seqno ≤ ack) = rest.dropWhile (fun p => p.seqno ≤ ack) :=
        List.dropWhile_cons_of_pos (by simpa using hack)
      have hring' := hring.drop_first
      have hlen : rest.length < cfg.maxbufs := hring.length_le
      have hhead' : s.bufhead = Ring.place cfg.maxbufs (next cfg i) rest.length := by
        rw [hhead, next, Ring.place_next, List.length_cons]
      have hend : next cfg i = s.bufhead ↔ rest = [] := by
        rw [hhead', eq_comm, next, Ring.place_eq_start hring'.start_lt hring'.length_le, or_iff_left hlen.ne,
          List.length_eq_zero_iff]
      rw [hdrop]
      dsimp only
      by_cases hmore : rest = []
      · rw [if_neg (not_not_intro (hend.mpr hmore))]
        refine ⟨_, _, _, rest, rfl, by rw [hmore, List.dropWhile_nil], hring', hhead', Or.inr ⟨rest.length.lt_succ_self, rfl⟩⟩
      · rw [if_pos (mt hend.mp hmore)]
        obtain ⟨s', j, t, l', hloop, hl', hr, hh, hcase⟩ := ih
          (s := { s with pkts := Function.update s.pkts i none, fstate := s.fstate &&& ~~~SNOOP_FULL })
          sh.sndTime hring' hhead' hheader' hmore (Nat.le_of_succ_le_succ hfuel)
        refine ⟨s', j, t, l', hloop, hl', hr, hh, Or.inr ?_⟩
        rcases hcase with ⟨rfl, rfl, -⟩ | ⟨hlt, hs'⟩
        · exact ⟨l'.length.lt_succ_self, rfl⟩
        · refine ⟨hlt.trans rest.length.lt_succ_self, ?_⟩
          rw [hs', BitVec.and_assoc, BitVec.and_self]
    · refine ⟨s, i, sndTime, sh :: rest, rfl, ?_, hring, hhead, Or.inl ⟨rfl, rfl, rfl⟩⟩
      rw [List.dropWhile_cons_of_neg (by simpa using hack)]

/-- What remains of a sorted cache lies above the ACK. -/
lemma lt_of_mem_dropWhile (hsorted : (l.map (·.seqno)).Pairwise (· < ·)) {q : ℤ}
    (hq : q ∈ (l.dropWhile fun p => p.seqno ≤ ack).map (·.seqno)) : ack < q := by
  induction l with
  | nil => simp at hq
  | cons p l ih =>
    obtain ⟨hfirst, hrest⟩ := List.pairwise_cons.mp hsorted
    by_cases hp : p.seqno ≤ ack
    · rw [List.dropWhile_cons_of_pos (by simpa using hp)] at hq
      exact ih hrest hq
    · rw [List.dropWhile_cons_of_neg (by simpa using hp), List.map_cons] at hq
      rcases List.mem_cons.mp hq with rfl | hq
      · exact not_le.mp hp
      · exact (not_le.mp hp).trans (hfirst q hq)

/-- The timer changes nothing in the cache. -/
lemma schedTail_spec (h : Cached cfg l s) :
    ∃ s', s.schedTail = some s' ∧ Cached cfg l s' ∧ s'.lastAck = s.lastAck ∧ s'.fstate = s.fstate := by
  unfold schedTail
  split_ifs with hempty
  · exact ⟨s, rfl, h, rfl, rfl⟩
  · obtain ⟨sh, rest, rfl⟩ := List.exists_cons_of_ne_nil (mt h.empty_iff.mpr hempty)
    rw [h.ring.first]
    exact ⟨_, rfl, ⟨h.ring, h.head, h.sorted, h.fresh, h.seen, h.header, h.full⟩, rfl, rfl⟩

/-- Cleaning the cache takes away the packets up to the ACK. -/
lemma snoopCleanbufs_spec (h : Cached cfg l s) (ack : ℤ) :
    ∃ s' t l', s.snoopCleanbufs cfg ack = some (s', t) ∧ Cached cfg l' s' ∧ (∀ q ∈ l'.map (·.seqno), ack < q) ∧
      SameBut SNOOP_FULL s.fstate s'.fstate := by
  unfold snoopCleanbufs
  extract_lets s₀
  have h₀ : Cached cfg l s₀ := ⟨h.ring, h.head, h.sorted, h.fresh, h.seen, h.header, h.full⟩
  by_cases hempty : s₀.empty
  · rw [if_pos hempty]
    obtain rfl := h₀.empty_iff.mp hempty
    exact ⟨s₀, -1, [], rfl, h₀, nofun, rfl⟩
  · have hne : l ≠ [] := fun hnil => hempty (h₀.empty_iff.mpr hnil)
    rw [if_neg hempty]
    obtain ⟨s', i, t, l', hloop, hl', hring, hhead, hcase⟩ :=
      cleanLoop_spec ack (-1) h₀.ring h₀.head h₀.header hne h₀.ring.length_le
    have hsub : l'.Sublist l := hl' ▸ List.dropWhile_sublist _
    have hseqs := hsub.map (·.seqno)
    have hmoved : Cached cfg l' (s'.moveTail i) ∧ SameBut SNOOP_FULL s.fstate (s'.moveTail i).fstate := by
      unfold moveTail
      rcases hcase with ⟨rfl, rfl, rfl⟩ | ⟨hlt, hs'⟩
      · split_ifs with hcond
        · have hnotfull : l'.length ≠ cfg.maxbufs := by
            intro hlen
            refine hcond.elim (fun hi => hi rfl) fun hhead' => hhead' ?_
            rw [h₀.head, hlen, Ring.place_full h₀.ring.start_lt]
          exact ⟨⟨h.ring, h.head, h.sorted, h.fresh, h.seen, h.header,
            ⟨fun hfull => absurd hfull (has_andNot rfl), fun hlen => absurd hlen hnotfull⟩⟩, sameBut_andNot _ _⟩
        · exact ⟨h₀, rfl⟩
      · have hnotfull : l'.length ≠ cfg.maxbufs := (hlt.trans_le h.ring.length_le).ne
        have hclean : Cached cfg l' { s' with buftail := i } := by
          rw [hs']
          exact ⟨hring, hhead ▸ hs' ▸ rfl, h.sorted.sublist hseqs, fun q hq => h.fresh q (hseqs.subset hq),
            fun q hq => h.seen q (hseqs.subset hq), fun p hp => h.header p (hsub.subset hp),
            ⟨fun hfull => absurd hfull (has_andNot rfl), fun hlen => absurd hlen hnotfull⟩⟩
        have hfstate : s'.fstate = s.fstate &&& ~~~SNOOP_FULL := congrArg Snoop.fstate hs'
        split_ifs with hcond
        · refine ⟨?_, ?_⟩
          · rw [hfstate, BitVec.and_assoc, BitVec.and_self, ← hfstate]
            exact hclean
          · rw [hfstate, BitVec.and_assoc, BitVec.and_self]
            exact sameBut_andNot _ _
        · push Not at hcond
          obtain ⟨rfl, -⟩ := hcond
          exact ⟨hclean, hfstate ▸ sameBut_andNot _ _⟩
    obtain ⟨s'', hsched, hcached, -, hsame⟩ := schedTail_spec hmoved.1
    rw [hloop, Option.bind_some, hsched]
    exact ⟨s'', t, l', rfl, hcached, fun q hq => lt_of_mem_dropWhile h.sorted (hl' ▸ hq), hsame ▸ hmoved.2⟩

/-- The slots from the tail to the head hold packets in order, all above the last ACK; the others are free, and
`SNOOP_FULL` is set exactly when no slot is. -/
def SortedRing (cfg : SnoopConfig) (s : Snoop) : Prop :=
  ∃ l : List SnoopPacket, Ring.Holds s.pkts cfg.maxbufs s.buftail l ∧
    s.bufhead = Ring.place cfg.maxbufs s.buftail l.length ∧ l.Pairwise (fun p q => p.seqno < q.seqno) ∧
    (∀ p ∈ l, s.lastAck < p.seqno) ∧ (s.has SNOOP_FULL ↔ l.length = cfg.maxbufs)

lemma Cached.sortedRing (h : Cached cfg l s) : SortedRing cfg s :=
  ⟨l, h.ring, h.head, List.pairwise_map.mp h.sorted, fun _ hp => h.fresh _ (List.mem_map_of_mem hp), h.full⟩

/-- The retransmission of a cached packet leaves its place. -/
lemma snoopRxmit_spec (now : ℚ) (h : Cached cfg l s) (hsh : s.pkts s.buftail = some sh) :
    ∃ l', Cached cfg l' (s.snoopRxmit now s.buftail sh).1 := by
  unfold snoopRxmit
  split_ifs
  · rw [h.ring.first, List.head?_eq_getElem?] at hsh
    have htouch := h.touch hsh { sh with sndTime := now, numRxmit := sh.numRxmit + 1 } rfl rfl
    rw [Ring.place_zero h.ring.start_lt] at htouch
    exact ⟨_, htouch.ring, htouch.head, htouch.sorted, htouch.fresh, htouch.seen, htouch.header, htouch.full⟩
  · exact ⟨l, h⟩

lemma snoopDupack_spec (now : ℚ) (h : Cached cfg l s) (hsh : s.pkts s.buftail = some sh) :
    ∃ l', Cached cfg l' (s.snoopDupack cfg now sh).1 := by
  have hsame : ∀ u : Snoop, u.pkts = s.pkts → u.bufhead = s.bufhead → u.buftail = s.buftail →
      u.lastAck = s.lastAck → u.lastSeen = s.lastSeen → u.fstate = s.fstate → Cached cfg l u := by
    rintro ⟨⟩ rfl rfl rfl rfl rfl rfl
    exact ⟨h.ring, h.head, h.sorted, h.fresh, h.seen, h.header, h.full⟩
  unfold snoopDupack
  dsimp only
  split_ifs
  · exact ⟨l, hsame _ rfl rfl rfl rfl rfl rfl⟩
  · exact ⟨l, hsame _ rfl rfl rfl rfl rfl rfl⟩
  · exact snoopRxmit_spec now (hsame _ rfl rfl rfl rfl rfl rfl) hsh
  · exact ⟨l, hsame _ rfl rfl rfl rfl rfl rfl⟩
  · exact ⟨l, hsame _ rfl rfl rfl rfl rfl rfl⟩
  · exact snoopRxmit_spec now h hsh
  · exact ⟨l, h⟩

lemma snoopAck_spec (h : Cached cfg l s) (now : ℚ) (ack : ℤ) :
    ∃ s' v l', s.snoopAck cfg now ack = some (s', v) ∧ Cached cfg l' s' := by
  unfold snoopAck
  split_ifs with hskip hdup
  · exact ⟨s, _, l, rfl, h⟩
  · cases hpkt : s.pkts s.buftail with
    | none => exact ⟨s, _, l, rfl, h⟩
    | some sh =>
      dsimp only
      split_ifs
      · exact ⟨s, _, l, rfl, h⟩
      · obtain ⟨l', hl'⟩ := snoopDupack_spec now h hpkt
        exact ⟨_, _, l', rfl, hl'⟩
  · have h₀ : Cached cfg l { s with fstate := s.fstate &&& ~~~SNOOP_NOACK } :=
      ⟨h.ring, h.head, h.sorted, h.fresh, h.seen, h.header, by rw [has_andNot_noack]; exact h.full⟩
    obtain ⟨s', t, l', hclean, hc, hafter, -⟩ := snoopCleanbufs_spec h₀ ack
    rw [hclean]
    exact ⟨_, _, l', rfl, hc.ring, hc.head, hc.sorted, hafter, hc.seen, hc.header, hc.full⟩

lemma rxmitTimeout_spec (h : Cached cfg l s) (now : ℚ) : ∃ l', Cached cfg l' (s.rxmitTimeout cfg now) := by
  have h₀ : Cached cfg l { s with toutPending := false } :=
    ⟨h.ring, h.head, h.sorted, h.fresh, h.seen, h.header, h.full⟩
  unfold rxmitTimeout
  extract_lets s₀
  split
  · exact ⟨l, h₀⟩
  · rename_i sh hsh
    obtain ⟨l', hl'⟩ := snoopRxmit_spec now h₀ hsh
    dsimp only
    split_ifs
    · exact ⟨l, h₀⟩
    · exact ⟨l', hl'.ring, hl'.head, hl'.sorted, hl'.fresh, hl'.seen, hl'.header, hl'.full⟩
    · exact ⟨l', hl'⟩
    · exact ⟨l, h₀⟩

lemma Cached.alive (h : Cached cfg l s) (seq : ℤ) : ∃ l', Cached cfg l' (s.alive seq) := by
  have hmark : ∀ {l : List SnoopPacket} {u : Snoop}, Cached cfg l u →
      Cached cfg l { u with fstate := u.fstate ||| SNOOP_ALIVE } := fun h =>
    ⟨h.ring, h.head, h.sorted, h.fresh, h.seen, h.header, by rw [has_or_alive]; exact h.full⟩
  unfold Snoop.alive
  extract_lets u
  by_cases hreset : s.has SNOOP_ALIVE ∧ seq = 0
  · have hu : u = s.reset := if_pos hreset
    rw [hu]
    have hinit : Cached cfg [] init := cached_init
    exact ⟨[], hmark ⟨hinit.ring, hinit.head, hinit.sorted, hinit.fresh, hinit.seen, hinit.header, hinit.full⟩⟩
  · have hu : u = s := if_neg hreset
    rw [hu]
    exact ⟨l, hmark h⟩

/-- The event does not put a packet into a full cache: no packet above the last ACK comes, with `lru_` on and
room in the interface queue, when `SNOOP_FULL` is set. -/
def NoEviction (cfg : SnoopConfig) (s : Snoop) : ℚ × SnoopEvent → Prop
  | (_, .data room seq) =>
    ¬(cfg.lru ∧ room ∧ (s.alive seq).has SNOOP_FULL ∧ (s.alive seq).lastAck < seq)
  | _ => True

instance : ∀ ev, Decidable (NoEviction cfg s ev)
  | (_, .data _ _) => inferInstanceAs (Decidable ¬_)
  | (_, .ack _) => inferInstanceAs (Decidable True)
  | (_, .timeout) => inferInstanceAs (Decidable True)
  | (_, .shared _) => inferInstanceAs (Decidable True)

lemma snoopData_spec {room : Bool} (h : Cached cfg l s) (hkeep : NoEviction cfg s (now, .data room seq)) :
    ∃ s' l', s.snoopData cfg now room seq = some s' ∧ Cached cfg l' s' := by
  obtain ⟨l₀, h₀⟩ := h.alive seq
  have hnone : ¬(cfg.lru ∧ room ∧ (s.alive seq).has SNOOP_FULL ∧ (s.alive seq).lastAck < seq) := hkeep
  unfold snoopData
  dsimp only
  generalize s.alive seq = u at h₀ hnone
  by_cases hforward : u.has SNOOP_FULL ∧ ¬cfg.lru
  · rw [if_pos hforward]
    split_ifs with hlast
    · exact ⟨_, l₀, rfl, h₀.ring, h₀.head, h₀.sorted, h₀.fresh, fun q hq => (h₀.seen q hq).trans hlast.le,
        h₀.header, h₀.full⟩
    · exact ⟨u, l₀, rfl, h₀⟩
  · rw [if_neg hforward]
    obtain ⟨v, r, l₁, hinsert, hv⟩ : ∃ v r l₁,
        (if room then u.snoopInsert cfg now seq else some (u, false)) = some (v, r) ∧ Cached cfg l₁ v := by
      split_ifs with hroom
      · have hfit : u.has SNOOP_FULL → seq ≤ u.lastAck := by
          intro hfull
          by_contra hlt
          have hlru : cfg.lru := by
            by_contra hlru
            exact hforward ⟨hfull, hlru⟩
          exact hnone ⟨hlru, hroom, hfull, not_le.mp hlt⟩
        obtain ⟨v, r, l₁, hinsert, hv, -⟩ := snoopInsert_spec now h₀ hfit
        exact ⟨v, r, l₁, hinsert, hv⟩
      · exact ⟨u, false, l₀, rfl, h₀⟩
    rw [hinsert, Option.bind_some]
    dsimp only
    split_ifs with hpending
    · exact ⟨v, l₁, rfl, hv⟩
    · obtain ⟨s', hsched, hs', -⟩ := schedTail_spec (s := { v with toutPending := false })
        ⟨hv.ring, hv.head, hv.sorted, hv.fresh, hv.seen, hv.header, hv.full⟩
      exact ⟨s', l₁, hsched, hs'⟩

lemma step_spec {ev : ℚ × SnoopEvent} (h : ∃ l, Cached cfg l s) (hkeep : NoEviction cfg s ev) :
    ∃ s' o, s.step cfg ev = some (s', o) ∧ ∃ l', Cached cfg l' s' := by
  obtain ⟨l, h⟩ := h
  obtain ⟨now, ev⟩ := ev
  cases ev with
  | data room seq =>
    obtain ⟨s', l', hdata, hs'⟩ := snoopData_spec h hkeep
    exact ⟨s', none, by rw [step, hdata]; rfl, l', hs'⟩
  | ack ack =>
    obtain ⟨s', v, l', hack, hs'⟩ := snoopAck_spec h now ack
    exact ⟨s', some v, by rw [step, hack]; rfl, l', hs'⟩
  | timeout =>
    obtain ⟨l', hs'⟩ := rxmitTimeout_spec h now
    exact ⟨_, none, rfl, l', hs'⟩
  | shared thresh => exact ⟨_, none, rfl, l, h.ring, h.head, h.sorted, h.fresh, h.seen, h.header, h.full⟩

/-- As long as no packet is put into a full cache, the cache is a sorted ring, and neither putting a packet into it
nor cleaning it changes another bit of the state. -/
theorem snoop_run {evs : List (ℚ × SnoopEvent)} (hkeep : EachStep (step cfg) (NoEviction cfg) init evs) :
    ∃ s os, run (step cfg) init evs = some (s, os) ∧ SortedRing cfg s ∧
      (∀ now seq, (s.has SNOOP_FULL → seq ≤ s.lastAck) → ∃ s' r, s.snoopInsert cfg now seq = some (s', r) ∧
        SameBut SNOOP_FULL s.fstate s'.fstate) ∧
      ∀ ack, ∃ s' t, s.snoopCleanbufs cfg ack = some (s', t) ∧ SameBut SNOOP_FULL s.fstate s'.fstate := by
  obtain ⟨s, os, hrun, l, hs⟩ := run_history (R := fun s _ => ∃ l, Cached cfg l s)
    (fun s _ ev hs hP => step_spec hs hP) ⟨[], cached_init⟩ hkeep
  refine ⟨s, os, hrun, hs.sortedRing, fun now seq hfull => ?_, fun ack => ?_⟩
  · obtain ⟨s', r, l', hinsert, -, -, hsame⟩ := snoopInsert_spec now hs hfull
    exact ⟨s', r, hinsert, hsame⟩
  · obtain ⟨s', t, l', hclean, -, -, hsame⟩ := snoopCleanbufs_spec hs ack
    exact ⟨s', t, hclean, hsame⟩

def twoBuffers : SnoopConfig := ⟨2, by decide, by decide, true⟩

def segments (seqs : List ℤ) : List (ℚ × SnoopEvent) := seqs.map fun seq => (0, .data true seq)

theorem snoop_run_two_segments : ∃ s os, run (step twoBuffers) init (segments [1, 2]) = some (s, os) ∧
    SortedRing twoBuffers s ∧
      (∀ now seq, (s.has SNOOP_FULL → seq ≤ s.lastAck) → ∃ s' r, s.snoopInsert twoBuffers now seq = some (s', r) ∧
        SameBut SNOOP_FULL s.fstate s'.fstate) ∧
      ∀ ack, ∃ s' t, s.snoopCleanbufs twoBuffers ack = some (s', t) ∧ SameBut SNOOP_FULL s.fstate s'.fstate := by
  refine snoop_run ⟨by decide, fun s o h => ?_⟩
  cases h
  exact ⟨by decide, fun _ _ _ => trivial⟩

/-- A segment that comes again when the cache is full takes the packet at the tail away without clearing
`SNOOP_FULL`, and sets all other bits. -/
theorem eviction_keeps_full : ∃ s os, run (step twoBuffers) init (segments [1, 2, 2]) = some (s, os) ∧
    ¬SortedRing twoBuffers s ∧ s.fstate = 0xffff := by
  have hrun : ∃ s os, run (step twoBuffers) init (segments [1, 2, 2]) = some (s, os) ∧ s.fstate = 0xffff ∧
      s.buftail = 1 ∧ s.pkts 0 = none := ⟨_, _, rfl, by decide, rfl, rfl⟩
  obtain ⟨s, os, hrun, hfstate, htail, hslot⟩ := hrun
  refine ⟨s, os, hrun, fun ⟨l, hring, _, _, _, hfull⟩ => ?_, hfstate⟩
  have hlen : l.length = 2 := hfull.mp (by unfold has; rw [hfstate]; decide)
  have hsecond := hring.slot 1 (by decide)
  rw [htail, show Ring.place twoBuffers.maxbufs 1 1 = 0 from rfl, hslot] at hsecond
  have := List.getElem?_eq_none_iff.mp hsecond.symm
  omega

end Snoop

end NetworkSimulator
