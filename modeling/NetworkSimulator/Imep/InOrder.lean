import NetworkSimulator.Imep.Neighbors
import NetworkSimulator.Imep.Resequencing

/-!
# In order and once

The packet that a neighbour issues as its `n`-th has the sequence number `n % 256` and carries `n`. While
the link to the neighbour stays up, what is handed to `imep_object_process` is in the order of issue, and no
packet waits after its predecessor has been handed up. Two slips of the code are excluded by the
conditions: a link whose last sequence number is 0 counts as one that has not delivered anything, and the
packet after 255 is looked for under 256.
-/

namespace NetworkSimulator.Imep

open Library DstQueue

/-- The packet of neighbour `x` that a call hands up. -/
def handedBy (x : ℤ) : Call ℕ → Option ℕ
  | .imep_object_process src p => if src = x then some p else none
  | _ => none

/-- The packets of `x` that have been handed up. -/
def handed (x : ℤ) (calls : List (Call ℕ)) : List ℕ := calls.filterMap (handedBy x)

@[simp] lemma handed_append (x : ℤ) (calls cs : List (Call ℕ)) :
    handed x (calls ++ cs) = handed x calls ++ handed x cs := List.filterMap_append

namespace Agent

variable {s s' t : Agent ℕ} {x y : ℤ} {now : ℚ} {L n : ℕ}

def waiting (x : ℤ) (s : Agent ℕ) : List (Txent ℕ) := (entry x s.incomingQ).txents

/-- The last packet of `x` that was handed up. -/
def last (x : ℤ) (s : Agent ℕ) : Option ℕ := (handed x s.calls).getLast?

/-- What holds for neighbour `x` between two events. -/
structure Ordered (x : ℤ) (s : Agent ℕ) : Prop where
  apart : Apart s.incomingQ
  increasing : (handed x s.calls).Pairwise (· < ·)
  fresh : handed x s.calls = [] → s.lastSeq x = 0 ∧ waiting x s = []
  up : ∀ L, last x s = some L → s.status x ≠ LINK_DOWN
  lastSeq : ∀ L, last x s = some L → s.lastSeq x = L % 256
  window : ∀ L, last x s = some L → Window L (waiting x s)
  next : ∀ L, last x s = some L → ∀ u ∈ waiting x s, u.pkt ≠ L + 1

lemma last_of_handed (h : handed x s.calls ≠ []) : ∃ L, last x s = some L := by
  unfold last
  rw [List.getLast?_eq_some_getLast h]
  exact ⟨_, rfl⟩

lemma handed_ne_nil (h : last x s = some L) : handed x s.calls ≠ [] := by
  intro hnil
  unfold last at h
  rw [hnil] at h
  cases h

lemma le_last (hi : (handed x s.calls).Pairwise (· < ·)) (h : last x s = some L) :
    ∀ n ∈ handed x s.calls, n ≤ L := by
  intro n hn
  unfold last at h
  obtain ⟨front, hf⟩ := List.getLast?_eq_some_iff.mp h
  rw [hf] at hi hn
  rcases List.mem_append.mp hn with hn | hn
  · exact ((List.pairwise_append.mp hi).2.2 n hn L (List.mem_singleton.mpr rfl)).le
  · exact (List.mem_singleton.mp hn).le

/-- No packet waits whose predecessor has been handed up. -/
lemma Ordered.no_predecessor (h : Ordered x s) : ∀ u ∈ waiting x s, ∀ n ∈ handed x s.calls, u.pkt ≠ n + 1 := by
  intro u hu n hn
  obtain ⟨L, hL⟩ := last_of_handed (List.ne_nil_of_mem hn)
  have hle := le_last h.increasing hL n hn
  have ha := (h.window L hL).ahead u hu
  have hne := h.next L hL u hu
  omega

/-! ### Routines that hand up nothing of `x` -/

/-- At most the link to `x` goes down. -/
structure Frame (x : ℤ) (s s' : Agent ℕ) : Prop where
  handed : handed x s'.calls = handed x s.calls
  waiting : waiting x s' = waiting x s ∨ waiting x s' = []
  apart : Apart s.incomingQ → Apart s'.incomingQ
  lastSeq : s'.lastSeq x = s.lastSeq x ∨ s'.lastSeq x = 0
  up : s.status x ≠ LINK_DOWN → s'.status x ≠ LINK_DOWN → s'.lastSeq x = s.lastSeq x

lemma Frame.trans (h : Frame x s s') (h' : Frame x s' t)
    (hup : s.status x ≠ LINK_DOWN → t.status x ≠ LINK_DOWN → s'.status x ≠ LINK_DOWN) : Frame x s t := by
  refine ⟨h'.handed.trans h.handed, ?_, fun ha => h'.apart (h.apart ha), ?_, fun hs ht => ?_⟩
  · rcases h'.waiting with hw | hw
    · rw [hw]
      exact h.waiting
    · exact .inr hw
  · rcases h'.lastSeq with hl | hl
    · rw [hl]
      exact h.lastSeq
    · exact .inr hl
  · have hs' := hup hs ht
    rw [h'.up hs' ht, h.up hs hs']

lemma Ordered.frame (h : Ordered x s) (hf : Frame x s s') (hup : s.status x ≠ LINK_DOWN → s'.status x ≠ LINK_DOWN) :
    Ordered x s' := by
  have hlast : last x s' = last x s := by rw [last, last, hf.handed]
  refine ⟨hf.apart h.apart, by rw [hf.handed]; exact h.increasing, fun hnil => ?_, fun L hL => ?_, fun L hL => ?_,
    fun L hL => ?_, fun L hL u hu => ?_⟩
  · rw [hf.handed] at hnil
    obtain ⟨hz, hw⟩ := h.fresh hnil
    constructor
    · rcases hf.lastSeq with hl | hl
      · rw [hl, hz]
      · exact hl
    · rcases hf.waiting with hw' | hw'
      · rw [hw', hw]
      · exact hw'
  · rw [hlast] at hL
    exact hup (h.up L hL)
  · rw [hlast] at hL
    rw [hf.up (h.up L hL) (hup (h.up L hL)), h.lastSeq L hL]
  · rw [hlast] at hL
    rcases hf.waiting with hw | hw
    · rw [hw]
      exact h.window L hL
    · rw [hw]
      exact Window.nil
  · rw [hlast] at hL
    rcases hf.waiting with hw | hw
    · rw [hw] at hu
      exact h.next L hL u hu
    · rw [hw] at hu
      cases hu

/-- The link to `x` does not come up. -/
structure Lowers (x : ℤ) (s s' : Agent ℕ) : Prop extends Frame x s s' where
  stays : s.status x = LINK_DOWN → s'.status x = LINK_DOWN

/-- The link to `x` does not go down. -/
structure Raises (x : ℤ) (s s' : Agent ℕ) : Prop extends Frame x s s' where
  stays : s.status x ≠ LINK_DOWN → s'.status x ≠ LINK_DOWN

lemma Lowers.trans (h : Lowers x s s') (h' : Lowers x s' t) : Lowers x s t :=
  ⟨h.toFrame.trans h'.toFrame fun _ ht hs' => ht (h'.stays hs'), fun hs => h'.stays (h.stays hs)⟩

lemma Raises.trans (h : Raises x s s') (h' : Raises x s' t) : Raises x s t :=
  ⟨h.toFrame.trans h'.toFrame fun hs _ => h.stays hs, fun hs => h'.stays (h.stays hs)⟩

/-- A state in which what concerns `x` is as before. -/
lemma frame_of_eq (hh : Imep.handed x s'.calls = Imep.handed x s.calls) (hq : s'.incomingQ = s.incomingQ)
    (hl : s'.lastSeq x = s.lastSeq x) : Frame x s s' :=
  ⟨hh, .inl (by rw [Agent.waiting, hq]; rfl), fun ha => by rwa [hq], .inl hl, fun _ _ => hl⟩

lemma frame_refl : Frame x s s := frame_of_eq rfl rfl rfl

lemma raises_refl : Raises x s s := ⟨frame_refl, id⟩

lemma lowers_refl : Lowers x s s := ⟨frame_refl, id⟩

lemma frame_call {c : Call ℕ} (hc : handedBy x c = none) : Frame x s (s.call c) :=
  frame_of_eq (by simp [Imep.handed, hc]) rfl rfl

lemma raises_call {c : Call ℕ} (hc : handedBy x c = none) : Raises x s (s.call c) := ⟨frame_call hc, id⟩

lemma lowers_call {c : Call ℕ} (hc : handedBy x c = none) : Lowers x s (s.call c) := ⟨frame_call hc, id⟩

lemma raises_setLink {f : Link → Link} (hf : ∀ l, (f l).index = l.index) (hs : ∀ l, (f l).status = l.status)
    (hl : ∀ l, (f l).lastSeq = l.lastSeq) : Raises x s (s.setLink y f) :=
  ⟨frame_of_eq rfl rfl (lastSeq_setLink hf hl), fun h => by rwa [status_setLink hf hs]⟩

lemma raises_newLink : Raises x s (s.newLink y) :=
  ⟨frame_of_eq (by rw [calls_newLink]) incomingQ_newLink lastSeq_newLink, fun h => by rwa [status_newLink]⟩

lemma handed_setStatus (g : Status → Status) : handed x (s.setStatus y g).calls = handed x s.calls := by
  unfold setStatus
  simp only
  split_ifs
  · simp [handed, handedBy]
  · rfl

lemma findLink_setStatus (g : Status → Status) :
    (s.setStatus y g).findLink x = (s.setLink y fun l => { l with status := g l.status }).findLink x := by
  unfold setStatus
  simp only
  split_ifs <;> rfl

lemma raises_setStatus {g : Status → Status} (hg : ∀ st, st ≠ LINK_DOWN → g st ≠ LINK_DOWN) :
    Raises x s (s.setStatus y g) := by
  have hl : (s.setStatus y g).lastSeq x = s.lastSeq x := by
    rw [lastSeq_eq, findLink_setStatus, ← lastSeq_eq]
    exact lastSeq_setLink (fun _ => rfl) fun _ => rfl
  refine ⟨frame_of_eq (handed_setStatus g) (incomingQ_setStatus g) hl, fun h => ?_⟩
  rw [status_eq, findLink_setStatus]
  by_cases hx : x = y
  · subst hx
    have hself : (s.setLink x fun l => { l with status := g l.status }).findLink x =
        (s.findLink x).map fun l => { l with status := g l.status } := findLink_setLink_self fun _ => rfl
    obtain ⟨l, hls⟩ := Option.isSome_iff_exists.mp (findLink_isSome_of_status h)
    rw [status_eq, hls] at h
    rw [hself, hls]
    exact hg _ h
  · have hne : (s.setLink y fun l => { l with status := g l.status }).findLink x = s.findLink x :=
      findLink_setLink_of_ne (fun _ => rfl) hx
    rw [hne, ← status_eq]
    exact h

lemma linkIn_ne_down (st : Status) : ({ st with linkIn := true } : Status) ≠ LINK_DOWN := by simp [LINK_DOWN]

/-- A link that was down starts over. -/
lemma raises_reset : Raises x s (if s.status y = LINK_DOWN then
    (s.setLink y fun l => { l with lastSeq := 0, outExpire := -1 }).call (.sendHello y) else s) := by
  split_ifs with hd
  · have hst : ∀ x, (s.setLink y fun l => { l with lastSeq := 0, outExpire := -1 }).status x = s.status x :=
      fun x => status_setLink (fun _ => rfl) fun _ => rfl
    by_cases hx : x = y
    · subst hx
      have hself : (s.setLink x fun l => { l with lastSeq := 0, outExpire := -1 }).findLink x =
          (s.findLink x).map fun l => { l with lastSeq := 0, outExpire := -1 } := findLink_setLink_self fun _ => rfl
      have hzero : (s.setLink x fun l => { l with lastSeq := 0, outExpire := -1 }).lastSeq x = 0 := by
        rw [lastSeq_eq, hself]
        cases s.findLink x <;> rfl
      have hf : Raises x s (s.setLink x fun l => { l with lastSeq := 0, outExpire := -1 }) :=
        ⟨⟨rfl, .inl rfl, id, .inr hzero, fun hs => absurd hd hs⟩, fun hs => absurd hd hs⟩
      exact hf.trans (raises_call rfl)
    · have hl : (s.setLink y fun l => { l with lastSeq := 0, outExpire := -1 }).lastSeq x = s.lastSeq x :=
        lastSeq_setLink_of_ne (fun _ => rfl) hx
      have hf : Raises x s (s.setLink y fun l => { l with lastSeq := 0, outExpire := -1 }) :=
        ⟨frame_of_eq rfl rfl hl, fun hs => by rwa [hst]⟩
      exact hf.trans (raises_call rfl)
  · exact raises_refl

lemma raises_in : Raises x s (s.imepSetLinkInStatus now y) := by
  unfold imepSetLinkInStatus
  extract_lets s₁ s₂
  have h₃ : Raises x s₂ (s₂.setStatus y fun st => { st with linkIn := true }) :=
    raises_setStatus fun st _ => linkIn_ne_down st
  exact ((raises_newLink.trans raises_reset).trans h₃).trans (raises_setLink (fun _ => rfl) (fun _ => rfl) fun _ => rfl)

lemma status_in_self : (s.imepSetLinkInStatus now y).status y ≠ LINK_DOWN := by
  unfold imepSetLinkInStatus
  extract_lets s₁ s₂
  have hsome : (s₂.findLink y).isSome := by
    dsimp only [s₂]
    split_ifs
    · have hself : (s₁.setLink y fun l => { l with lastSeq := 0, outExpire := -1 }).findLink y =
          (s₁.findLink y).map fun l => { l with lastSeq := 0, outExpire := -1 } := findLink_setLink_self fun _ => rfl
      rw [findLink_call, hself, findLink_newLink_self]
      rfl
    · rw [findLink_newLink_self]
      rfl
  obtain ⟨l, hl⟩ := Option.isSome_iff_exists.mp hsome
  have hself : (s₂.setLink y fun l => { l with status := { l.status with linkIn := true } }).findLink y =
      (s₂.findLink y).map fun l => { l with status := { l.status with linkIn := true } } :=
    findLink_setLink_self fun _ => rfl
  have hst : (s₂.setStatus y fun st => { st with linkIn := true }).status y ≠ LINK_DOWN := by
    rw [status_eq, findLink_setStatus, hself, hl]
    exact linkIn_ne_down l.status
  have hkeep : ((s₂.setStatus y fun st => { st with linkIn := true }).setLink y
      fun l => { l with inExpire := now + MAX_BEACON_TIME }).status y =
        (s₂.setStatus y fun st => { st with linkIn := true }).status y := status_setLink (fun _ => rfl) fun _ => rfl
  rw [hkeep]
  exact hst

lemma raises_bi : Raises x s (s.imepSetLinkBiStatus now y) := by
  unfold imepSetLinkBiStatus imepSetLinkOutStatus
  have h : Raises x (s.imepSetLinkInStatus now y)
      ((s.imepSetLinkInStatus now y).setStatus y fun st => { st with linkOut := true }) :=
    raises_setStatus fun st _ => by simp [LINK_DOWN]
  exact (raises_in.trans h).trans (raises_setLink (fun _ => rfl) (fun _ => rfl) fun _ => rfl)

lemma raises_ack {saddr : ℤ} {ack : ℤ × ℕ} : Raises x s (imepAck now saddr s ack) := by
  unfold imepAck
  extract_lets s₁
  have h₁ : Raises x s s₁ := raises_call rfl
  split_ifs
  · split
    · exact h₁
    next e he =>
      have h₂ : Raises x s₁ (s₁.removeObjectResponse e.id saddr) := ⟨frame_of_eq rfl rfl rfl, id⟩
      exact (h₁.trans h₂).trans raises_bi
  · exact raises_refl

lemma lowers_down : Lowers x s (s.imepSetLinkDownStatus y) := by
  cases hl : s.findLink y with
  | none =>
    rw [down_of_none hl]
    exact lowers_call rfl
  | some l =>
    obtain ⟨hcalls, hlinks, -, hq⟩ := down_of_some (s := s) (y := y) (by rw [hl]; rfl)
    have hh : handed x (s.imepSetLinkDownStatus y).calls = handed x s.calls := by
      rw [hcalls]
      simp [handed, handedBy]
    have hseq : (s.imepSetLinkDownStatus y).lastSeq x = s.lastSeq x := by
      have hset : (s.setLink y fun l => { l with status := LINK_DOWN, inExpire := -1, outExpire := -1 }).lastSeq x =
          s.lastSeq x := lastSeq_setLink (fun _ => rfl) fun _ => rfl
      rw [← hset, lastSeq_eq, lastSeq_eq, findLink, findLink, hlinks]
    have hw : waiting x (s.imepSetLinkDownStatus y) = waiting x s ∨ waiting x (s.imepSetLinkDownStatus y) = [] := by
      unfold waiting
      rw [hq]
      by_cases hx : x = y
      · subst hx
        rw [entry_deleteDst_self]
        exact .inr rfl
      · rw [entry_deleteDst_of_ne hx]
        exact .inl rfl
    refine ⟨⟨hh, hw, fun ha => ?_, .inl hseq, fun _ _ => hseq⟩, fun hs => ?_⟩
    · rw [hq]
      exact apart_deleteDst ha y
    · by_cases hx : x = y
      · subst hx
        exact status_down_self
      · rw [status_down_of_ne hx]
        exact hs

lemma lowers_delete (hy : s.status y = LINK_DOWN) : Lowers x s (s.deleteLink y) := by
  by_cases hx : x = y
  · subst hx
    have hl : (s.deleteLink x).lastSeq x = 0 := by
      rw [lastSeq_eq, findLink_deleteLink_self]
      rfl
    have hst : (s.deleteLink x).status x = LINK_DOWN := by
      rw [status_eq, findLink_deleteLink_self]
      rfl
    exact ⟨⟨rfl, .inl rfl, id, .inr hl, fun hs => absurd hy hs⟩, fun _ => hst⟩
  · have hl : (s.deleteLink y).lastSeq x = s.lastSeq x := by
      rw [lastSeq_eq, lastSeq_eq, findLink_deleteLink_of_ne hx]
    refine ⟨frame_of_eq rfl rfl hl, fun hs => ?_⟩
    rw [status_eq, findLink_deleteLink_of_ne hx, ← status_eq]
    exact hs

lemma lowers_purgeOne : Lowers x s (s.purgeOne now y) := by
  unfold purgeOne
  extract_lets s₁ s₂
  have h₁ : Lowers x s s₁ := by
    have hl : s₁.lastSeq x = s.lastSeq x := lastSeq_setLink (fun _ => rfl) fun _ => rfl
    refine ⟨frame_of_eq rfl rfl hl, fun hs => ?_⟩
    by_cases hx : x = y
    · subst hx
      have hself : s₁.findLink x = (s.findLink x).map (Link.expired now) := findLink_setLink_self fun _ => rfl
      rw [status_eq] at hs
      rw [status_eq, hself]
      cases hf : s.findLink x with
      | none => rfl
      | some l =>
        simp only [hf, Option.map_some, Option.getD_some] at hs
        simp [Link.expired, hs, LINK_DOWN]
    · have hne : s₁.status x = s.status x := status_setLink_of_ne (fun _ => rfl) hx
      rw [hne]
      exact hs
  have h₂ : Lowers x s s₂ := by
    dsimp only [s₂]
    split_ifs
    · exact h₁.trans lowers_down
    · exact h₁
  split_ifs with hd
  · exact h₂.trans (lowers_delete hd)
  · exact h₂

lemma lowers_beacon : Lowers x s (s.handlerBeaconTimer now) := by
  unfold handlerBeaconTimer purgeLink
  refine List.foldlRecOn (motive := Lowers x s) _ _ ?_ fun t ht y _ => ht.trans (lowers_call rfl)
  exact List.foldlRecOn (motive := Lowers x s) _ _ lowers_refl fun t ht y _ => ht.trans lowers_purgeOne

lemma lowers_punt {id fuel i : ℕ} : Lowers x s (s.punt id fuel i) := by
  induction fuel generalizing s i with
  | zero => exact lowers_refl
  | succ fuel ih =>
    unfold punt
    split
    · exact lowers_refl
    · split_ifs
      · exact lowers_down.trans ih
      · exact lowers_refl

lemma lowers_rexmit : Lowers x s (s.handlerReXmitTimer now) := by
  unfold handlerReXmitTimer
  split
  · exact lowers_refl
  next e es hq =>
    split_ifs
    · exact lowers_punt
    · exact ⟨frame_of_eq (by simp [handed, handedBy]) rfl rfl, id⟩
    · exact lowers_refl

lemma raises_aggregate {found : List ℤ → ℕ → ℤ} : Raises x s (s.aggregateObjectBlock now found) := by
  unfold aggregateObjectBlock
  extract_lets responses s₁
  have h₁ : Raises x s s₁ := ⟨frame_of_eq (by simp [s₁, handed, handedBy]) rfl rfl, id⟩
  split_ifs
  · exact h₁.trans ⟨frame_of_eq rfl rfl rfl, id⟩
  · exact h₁

/-! ### Objects -/

lemma raises_lastSeq_of_ne (hx : x ≠ y) (g : Link → ℕ) :
    Raises x s (s.setLink y fun l => { l with lastSeq := g l }) :=
  ⟨frame_of_eq rfl rfl (lastSeq_setLink_of_ne (fun _ => rfl) hx), fun h => by rwa [status_lastSeq]⟩

lemma raises_queue {q : DstQueue ℕ} (hq : (entry x q).txents = waiting x s) (ha : Apart s.incomingQ → Apart q) :
    Raises x s { s with incomingQ := q } := ⟨⟨rfl, .inl hq, ha, .inl rfl, fun _ _ => rfl⟩, id⟩

lemma raises_process_of_ne (hx : x ≠ y) (p : ℕ) : Raises x s (s.call (.imep_object_process y p)) :=
  raises_call (if_neg (Ne.symm hx))

lemma deliver_of_ne {fuel : ℕ} (hx : x ≠ y) : Raises x s (s.deliver y fuel) ∧
    entry x (s.deliver y fuel).incomingQ = entry x s.incomingQ := by
  induction fuel generalizing s with
  | zero => exact ⟨raises_refl, rfl⟩
  | succ fuel ih =>
    unfold deliver
    split
    · exact ⟨raises_refl, rfl⟩
    next q p hq =>
      have hentry : entry x q = entry x s.incomingQ := by
        have h := entry_getPacket_of_ne (q := s.incomingQ) hx (s.lastSeq y + 1)
        rwa [hq] at h
      have hapart : Apart s.incomingQ → Apart q := by
        intro ha
        have h := apart_getPacket ha y (s.lastSeq y + 1)
        rwa [hq] at h
      have h₁ := (raises_queue (congrArg Dstent.txents hentry) hapart).trans (raises_lastSeq_of_ne hx fun l => (l.lastSeq + 1) % 256)
      obtain ⟨h₂, he⟩ := ih (s := ({ s with incomingQ := q }.setLink y
        fun l => { l with lastSeq := (l.lastSeq + 1) % 256 }).call (.imep_object_process y p))
      exact ⟨(h₁.trans (raises_process_of_ne hx p)).trans h₂, he.trans hentry⟩

lemma raises_ack_object {saddr : ℤ} {ob : ObjectBlock ℕ} : Raises x s (s.imep_ack_object saddr ob) := by
  unfold imep_ack_object
  split_ifs
  · exact raises_call rfl
  · exact raises_refl

lemma raises_object_of_ne {ob : ObjectBlock ℕ} (hx : x ≠ y) : Raises x s (s.imep_object_input now y ob) := by
  unfold imep_object_input
  extract_lets s₁ s₂ s₃
  have h₂ : Raises x s s₂ := by
    dsimp only [s₂]
    split_ifs
    · exact raises_ack_object.trans (raises_lastSeq_of_ne hx _)
    · exact raises_ack_object
  split_ifs
  · exact h₂
  · have h₃ : Raises x s₂ s₃ := by
      dsimp only [s₃]
      split_ifs
      · exact (raises_process_of_ne hx ob.pkt).trans (raises_lastSeq_of_ne hx _)
      · exact raises_queue (congrArg Dstent.txents (entry_addEntry_of_ne hx _ _ _)) fun ha => apart_addEntry ha _ _ _ _
    exact (h₂.trans h₃).trans (deliver_of_ne hx).1

/-- `L` has just been handed up, and what is queued comes after it. -/
structure Stand (x : ℤ) (L : ℕ) (s : Agent ℕ) : Prop where
  apart : Apart s.incomingQ
  increasing : (handed x s.calls).Pairwise (· < ·)
  last : last x s = some L
  up : s.status x ≠ LINK_DOWN
  lastSeq : s.lastSeq x = L % 256
  window : Window L (waiting x s)

/-- The packet `n` is handed up. -/
lemma handUp {q : DstQueue ℕ} {g : Link → ℕ} (ha : Apart q) (hi : (handed x s.calls).Pairwise (· < ·))
    (hlast : ∀ m ∈ handed x s.calls, m < n) (hup : s.status x ≠ LINK_DOWN)
    (hg : ∀ l, s.findLink x = some l → g l = n % 256) (hw : Window n (entry x q).txents) :
    Stand x n (({ s with incomingQ := q }.setLink x fun l => { l with lastSeq := g l }).call
      (.imep_object_process x n)) := by
  have hcalls : handed x (s.calls ++ [.imep_object_process x n]) = handed x s.calls ++ [n] := by
    rw [handed_append]
    simp [handed, handedBy]
  refine ⟨ha, ?_, ?_, ?_, ?_, hw⟩
  · rw [calls_call]
    change (handed x (s.calls ++ [.imep_object_process x n])).Pairwise (· < ·)
    rw [hcalls]
    refine List.pairwise_append.mpr ⟨hi, List.pairwise_singleton _ _, fun m hm k hk => ?_⟩
    rw [List.mem_singleton.mp hk]
    exact hlast m hm
  · unfold Agent.last
    change (handed x (s.calls ++ [.imep_object_process x n])).getLast? = some n
    rw [hcalls, List.getLast?_append, List.getLast?_singleton, Option.some_or]
  · rw [status_call, status_lastSeq]
    exact hup
  · have hself : (({ s with incomingQ := q } : Agent ℕ).setLink x fun l => { l with lastSeq := g l }).findLink x =
        (s.findLink x).map fun l => { l with lastSeq := g l } := findLink_setLink_self fun _ => rfl
    obtain ⟨l, hl⟩ := Option.isSome_iff_exists.mp (findLink_isSome_of_status hup)
    rw [lastSeq_call, lastSeq_eq, hself, hl]
    exact hg l hl

lemma lastSeq_of_findLink {l : Link} (h : s.findLink x = some l) : s.lastSeq x = l.lastSeq := by
  rw [lastSeq_eq, h]
  rfl

/-- The loop over the packets in sequence hands up one after the other, and stops at a gap or after 255. -/
lemma Stand.deliver {fuel : ℕ} (h : Stand x L s) (hf : (waiting x s).length ≤ fuel) :
    ∃ n front, Stand x (L + n) (s.deliver x fuel) ∧ waiting x s = front ++ waiting x (s.deliver x fuel) ∧
      (∀ i, L < i → i ≤ L + n → ∃ u ∈ front, u.pkt = i) ∧ (∀ u ∈ front, u.pkt ≤ L + n) ∧
      (entry x (s.deliver x fuel).incomingQ).seqno = (entry x s.incomingQ).seqno ∧
      ∀ u ∈ waiting x (s.deliver x fuel), u.pkt = L + n + 1 → (L + n) % 256 = 255 := by
  induction fuel generalizing s L with
  | zero =>
    have hnil : waiting x s = [] := List.eq_nil_of_length_eq_zero (Nat.le_zero.mp hf)
    refine ⟨0, [], h, rfl, fun i h₁ h₂ => absurd h₁ (by omega), by simp, rfl, fun u hu => ?_⟩
    have hu' : u ∈ waiting x s := hu
    rw [hnil] at hu'
    cases hu'
  | succ fuel ih =>
    obtain ⟨hget, hentry⟩ := getPacket_self (q := s.incomingQ) (x := x) (s.lastSeq x + 1)
    rw [h.lastSeq] at hget hentry
    by_cases hnext : ∃ u us, waiting x s = u :: us ∧ u.pkt = L + 1 ∧ L % 256 ≠ 255
    · obtain ⟨u, us, hw, hpkt, hwrap⟩ := hnext
      have hhead := (entry x s.incomingQ).getPacket_next hw h.window hpkt hwrap
      rw [hhead] at hget hentry
      have hstep : s.deliver x (fuel + 1) = ((({ s with incomingQ := (s.incomingQ.getPacket x (L % 256 + 1)).1 }.setLink x
          fun l => { l with lastSeq := (l.lastSeq + 1) % 256 }).call (.imep_object_process x u.pkt)).deliver x fuel) := by
        rw [Agent.deliver, h.lastSeq]
        cases hq : s.incomingQ.getPacket x (L % 256 + 1) with
        | mk q r =>
          rw [hq] at hget
          simp only at hget
          rw [hget]
      have hwin : Window u.pkt (entry x (s.incomingQ.getPacket x (L % 256 + 1)).1).txents := by
        rw [hentry]
        have hws := h.window
        rw [hw] at hws
        exact hws.after_head
      have hstand : Stand x (L + 1) (({ s with incomingQ := (s.incomingQ.getPacket x (L % 256 + 1)).1 }.setLink x
          fun l => { l with lastSeq := (l.lastSeq + 1) % 256 }).call (.imep_object_process x u.pkt)) := by
        rw [← hpkt]
        refine handUp (apart_getPacket h.apart x _) h.increasing (fun m hm => ?_) h.up (fun l hl => ?_) hwin
        · have hle := le_last h.increasing h.last m hm
          omega
        · have hl' := lastSeq_of_findLink hl
          rw [h.lastSeq] at hl'
          rw [← hl', hpkt]
          omega
      have hws : waiting x (({ s with incomingQ := (s.incomingQ.getPacket x (L % 256 + 1)).1 }.setLink x
          fun l => { l with lastSeq := (l.lastSeq + 1) % 256 }).call (.imep_object_process x u.pkt)) = us := by
        unfold waiting
        rw [incomingQ_call, incomingQ_setLink, hentry]
      obtain ⟨n, front, hs', hsplit, hrun, hle, hseq, hwrap'⟩ := ih hstand (by
        rw [hws]
        rw [hw, List.length_cons] at hf
        omega)
      rw [hstep]
      refine ⟨n + 1, u :: front, ?_, ?_, fun i h₁ h₂ => ?_, fun v hv => ?_, ?_, fun v hv hvp => ?_⟩
      · rwa [show L + (n + 1) = L + 1 + n by omega]
      · rw [hw, ← hws, hsplit]
        rfl
      · by_cases hi : i = L + 1
        · exact ⟨u, List.mem_cons_self, by omega⟩
        · obtain ⟨v, hv, hvi⟩ := hrun i (by omega) (by omega)
          exact ⟨v, List.mem_cons_of_mem _ hv, hvi⟩
      · rcases List.mem_cons.mp hv with rfl | hv
        · omega
        · have := hle v hv
          omega
      · rw [hseq, incomingQ_call, incomingQ_setLink, hentry]
      · have := hwrap' v hv (by omega)
        rwa [show L + (n + 1) = L + 1 + n by omega]
    · have hno : L % 256 = 255 ∨ ∀ u ∈ waiting x s, u.pkt ≠ L + 1 := by
        by_contra hcon
        push Not at hcon
        obtain ⟨hwrap, u, hu, hpkt⟩ := hcon
        cases hw : waiting x s with
        | nil =>
          rw [hw] at hu
          cases hu
        | cons v vs =>
          have hws := h.window
          rw [hw] at hws hu
          rcases List.mem_cons.mp hu with rfl | hu
          · exact hnext ⟨u, vs, hw, hpkt, hwrap⟩
          · exact hws.not_next u hu hpkt
      have hnone := (entry x s.incomingQ).getPacket_none h.window hno
      rw [hnone] at hget
      have hstep : s.deliver x (fuel + 1) = s := by
        rw [Agent.deliver, h.lastSeq]
        cases hq : s.incomingQ.getPacket x (L % 256 + 1) with
        | mk q r =>
          rw [hq] at hget
          simp only at hget
          rw [hget]
      rw [hstep]
      refine ⟨0, [], h, rfl, fun i h₁ h₂ => absurd h₁ (by omega), by simp, rfl, fun u hu hpkt => ?_⟩
      rcases hno with hwrap | hno
      · exact hwrap
      · exact absurd hpkt (hno u hu)

lemma Ordered.stand (h : Ordered x s) (hL : Agent.last x s = some L) : Stand x L s :=
  ⟨h.apart, h.increasing, hL, h.up L hL, h.lastSeq L hL, h.window L hL⟩

lemma Stand.toOrdered (h : Stand x L s) (hnext : ∀ u ∈ waiting x s, u.pkt ≠ L + 1) : Ordered x s := by
  have hlast : ∀ M, Agent.last x s = some M → M = L := fun M hM => Option.some.inj (hM.symm.trans h.last)
  refine ⟨h.apart, h.increasing, fun hnil => absurd hnil (handed_ne_nil h.last), fun M _ => h.up, fun M hM => ?_,
    fun M hM => ?_, fun M hM => ?_⟩
  · rw [hlast M hM]
    exact h.lastSeq
  · rw [hlast M hM]
    exact h.window
  · rw [hlast M hM]
    exact hnext

lemma Stand.raises (h : Stand x L s) (hr : Raises x s s') : Stand x L s' := by
  refine ⟨hr.apart h.apart, ?_, ?_, hr.stays h.up, ?_, ?_⟩
  · rw [hr.handed]
    exact h.increasing
  · rw [Agent.last, hr.handed]
    exact h.last
  · rw [hr.toFrame.up h.up (hr.stays h.up)]
    exact h.lastSeq
  · rcases hr.waiting with hw | hw
    · rw [hw]
      exact h.window
    · rw [hw]
      exact Window.nil

/-- The loop leaves no packet behind that is the next one, if it does not go beyond 255. -/
lemma Stand.ordered {fuel : ℕ} (h : Stand x L s) (hf : (waiting x s).length ≤ fuel) (hc : ¬Crosses L (waiting x s)) :
    Ordered x (s.deliver x fuel) := by
  obtain ⟨n, front, hs, hsplit, hrun, -, -, hwrap⟩ := h.deliver hf
  refine hs.toOrdered fun u hu hpkt => hc ?_
  rw [hsplit]
  exact crosses_of_front hrun hu hpkt (hwrap u hu hpkt) le_rfl (Nat.le_add_right L n)

end Agent
end NetworkSimulator.Imep
