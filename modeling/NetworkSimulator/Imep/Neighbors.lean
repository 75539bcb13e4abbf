import NetworkSimulator.Imep.Incoming
import NetworkSimulator.Imep.RexmitQueue

/-!
# Response lists and neighbours

The packets that wait for acknowledgements keep their numbers apart. When a response list is read as it
was written, it has bidirectional neighbours only, each once: a link that goes down is taken off all
lists at once.
-/

namespace NetworkSimulator.Imep.Agent

open Library

variable {π : Type*} {s s' t : Agent π} {x y : ℤ} {now : ℚ} {f : Link → Link}

/-- The calls that say what becomes of response lists. -/
def ofLists : Call π → Bool
  | .createResponseList _ _ | .imep_ack _ _ | .purgeReXmitQ _ | .imepSetLinkDownStatus _ => true
  | _ => false

/-- What the routines for incoming objects leave alone. -/
structure SameLinks (s s' : Agent π) : Prop where
  rexmitq : s'.rexmitq = s.rexmitq
  lists : s'.calls.filter ofLists = s.calls.filter ofLists
  controlSequence : s'.controlSequence = s.controlSequence
  ipaddr : s'.ipaddr = s.ipaddr
  indices : s'.links.map Link.index = s.links.map Link.index
  status : ∀ x, s'.status x = s.status x

lemma SameLinks.refl (s : Agent π) : SameLinks s s := ⟨rfl, rfl, rfl, rfl, rfl, fun _ => rfl⟩

lemma SameLinks.trans (h : SameLinks s s') (h' : SameLinks s' t) : SameLinks s t :=
  ⟨h'.rexmitq.trans h.rexmitq, h'.lists.trans h.lists, h'.controlSequence.trans h.controlSequence,
    h'.ipaddr.trans h.ipaddr, h'.indices.trans h.indices, fun x => (h'.status x).trans (h.status x)⟩

lemma sameLinks_call (s : Agent π) {c : Call π} (hc : ofLists c = false) : SameLinks s (s.call c) :=
  ⟨rfl, by simp [hc], rfl, rfl, rfl, fun _ => rfl⟩

lemma sameLinks_queue (s : Agent π) (q : DstQueue π) : SameLinks s { s with incomingQ := q } :=
  ⟨rfl, rfl, rfl, rfl, rfl, fun _ => rfl⟩

lemma indices_setLink (hf : ∀ l, (f l).index = l.index) :
    (s.setLink y f).links.map Link.index = s.links.map Link.index := by
  unfold setLink
  rw [List.map_map]
  refine List.map_congr_left fun l _ => ?_
  simp only [Function.comp_apply]
  split_ifs
  · exact hf l
  · rfl

lemma sameLinks_lastSeq (s : Agent π) (g : Link → ℕ) :
    SameLinks s (s.setLink y fun l => { l with lastSeq := g l }) :=
  ⟨rfl, rfl, rfl, rfl, indices_setLink fun _ => rfl, fun _ => status_lastSeq g⟩

lemma sameLinks_deliver {fuel : ℕ} : SameLinks s (s.deliver y fuel) := by
  induction fuel generalizing s with
  | zero => exact SameLinks.refl s
  | succ fuel ih =>
    unfold deliver
    split
    · exact SameLinks.refl s
    next q p hq =>
      exact (((sameLinks_queue s q).trans (sameLinks_lastSeq _ _)).trans (sameLinks_call _ rfl)).trans ih

lemma sameLinks_object {saddr : ℤ} {ob : ObjectBlock π} : SameLinks s (s.imep_object_input now saddr ob) := by
  have h₁ : SameLinks s (s.imep_ack_object saddr ob) := by
    unfold imep_ack_object
    split_ifs
    · exact sameLinks_call _ rfl
    · exact SameLinks.refl s
  unfold imep_object_input
  extract_lets s₁ s₂ s₃
  have h₂ : SameLinks s s₂ := by
    dsimp only [s₂]
    split_ifs
    · exact h₁.trans (sameLinks_lastSeq _ _)
    · exact h₁
  split_ifs
  · exact h₂
  · have h₃ : SameLinks s₂ s₃ := by
      dsimp only [s₃]
      split_ifs
      · exact (sameLinks_call _ rfl).trans (sameLinks_lastSeq _ _)
      · exact sameLinks_queue _ _
    exact (h₂.trans h₃).trans sameLinks_deliver

lemma sameLinks_retireHoles {fuel : ℕ} (hs : s.retireHoles now fuel = some s') : SameLinks s s' := by
  induction fuel generalizing s with
  | zero =>
    obtain rfl := Option.some.inj hs
    exact SameLinks.refl _
  | succ fuel ih =>
    unfold retireHoles at hs
    split at hs
    next q hq =>
      obtain rfl := Option.some.inj hs
      exact sameLinks_queue s q
    next q index t hq =>
      split_ifs at hs
      have h₁ := ((sameLinks_queue s q).trans (sameLinks_call _ (c := .rtNotifyLinkDN index) rfl)).trans
        (sameLinks_call _ (c := .rtNotifyLinkUP index) rfl)
      have h₂ := (h₁.trans (sameLinks_lastSeq (y := index) _ fun _ => t.seqno % 256)).trans
        (sameLinks_call _ (c := .imep_object_process index t.pkt) rfl)
      exact (h₂.trans sameLinks_deliver).trans (ih hs)

lemma sameLinks_incoming (hs : s.handlerIncomingTimer now = some s') : SameLinks s s' := by
  simp only [handlerIncomingTimer, Option.bind_eq_bind, Option.bind_eq_some_iff] at hs
  obtain ⟨t, ht, hs⟩ := hs
  split_ifs at hs
  obtain rfl := Option.some.inj hs
  exact sameLinks_retireHoles ht

/-- What setting a bit leaves alone. -/
structure MoreLinks (s s' : Agent π) : Prop where
  rexmitq : s'.rexmitq = s.rexmitq
  lists : s'.calls.filter ofLists = s.calls.filter ofLists
  controlSequence : s'.controlSequence = s.controlSequence
  ipaddr : s'.ipaddr = s.ipaddr
  indices : (s.links.map Link.index).Nodup → (s'.links.map Link.index).Nodup
  status : ∀ x, s.status x = LINK_BI → s'.status x = LINK_BI

lemma MoreLinks.trans (h : MoreLinks s s') (h' : MoreLinks s' t) : MoreLinks s t :=
  ⟨h'.rexmitq.trans h.rexmitq, h'.lists.trans h.lists, h'.controlSequence.trans h.controlSequence,
    h'.ipaddr.trans h.ipaddr, fun hn => h'.indices (h.indices hn), fun x hx => h'.status x (h.status x hx)⟩

lemma SameLinks.more (h : SameLinks s s') : MoreLinks s s' :=
  ⟨h.rexmitq, h.lists, h.controlSequence, h.ipaddr, fun hn => by rwa [h.indices], fun x hx => (h.status x).trans hx⟩

lemma more_setLink (hf : ∀ l, (f l).index = l.index) (hs : ∀ l, (f l).status = l.status) :
    MoreLinks s (s.setLink y f) :=
  ⟨rfl, rfl, rfl, rfl, fun hn => by rwa [indices_setLink hf], fun x hx => (status_setLink hf hs).trans hx⟩

lemma more_setStatus {g : Status → Status} (hg : g LINK_BI = LINK_BI) : MoreLinks s (s.setStatus y g) := by
  have hlinks : (s.setStatus y g).links = (s.setLink y fun l => { l with status := g l.status }).links := by
    unfold setStatus
    simp only
    split_ifs <;> rfl
  refine ⟨rexmitq_setStatus g, ?_, ?_, ?_, fun hn => ?_, fun x hx => ?_⟩
  · unfold setStatus
    simp only
    split_ifs
    · simp [ofLists]
    · rfl
  · unfold setStatus
    simp only
    split_ifs <;> rfl
  · unfold setStatus
    simp only
    split_ifs <;> rfl
  · have hi := indices_setLink (s := s) (y := y) (f := fun l => { l with status := g l.status }) fun _ => rfl
    rwa [hlinks, hi]
  · have hl : (s.setLink y fun l => { l with status := g l.status }).status x = LINK_BI := by
      by_cases hxy : x = y
      · subst hxy
        have hsome := findLink_isSome_of_status (by rw [hx]; decide)
        have hself : (s.setLink x fun l => { l with status := g l.status }).findLink x =
            (s.findLink x).map fun l => { l with status := g l.status } := findLink_setLink_self fun _ => rfl
        obtain ⟨l, hls⟩ := Option.isSome_iff_exists.mp hsome
        rw [status_eq, hls] at hx
        rw [status_eq, hself, hls]
        exact (congrArg g hx).trans hg
      · have hne : (s.setLink y fun l => { l with status := g l.status }).status x = s.status x :=
          status_setLink_of_ne (fun _ => rfl) hxy
        exact hne.trans hx
    rwa [status_eq, findLink, hlinks, ← findLink, ← status_eq]

lemma more_newLink : MoreLinks s (s.newLink y) := by
  refine ⟨rexmitq_newLink, by rw [calls_newLink], ?_, ?_, fun hn => ?_, fun x hx => by rwa [status_newLink]⟩
  · unfold newLink
    split_ifs <;> rfl
  · unfold newLink
    split_ifs <;> rfl
  · unfold newLink
    split_ifs with hy
    · refine List.nodup_cons.mpr ⟨fun hmem => ?_, hn⟩
      obtain ⟨l, hl, he⟩ := List.mem_map.mp hmem
      have hno := List.find?_eq_none.mp (Option.isNone_iff_eq_none.mp hy) l hl
      exact absurd he (by simpa using hno)
    · exact hn

lemma more_in : MoreLinks s (s.imepSetLinkInStatus now y) := by
  unfold imepSetLinkInStatus
  extract_lets s₁ s₂
  have h₂ : MoreLinks s s₂ := by
    dsimp only [s₂]
    split_ifs
    · have hset : MoreLinks s₁ (s₁.setLink y fun l => { l with lastSeq := 0, outExpire := -1 }) :=
        more_setLink (fun _ => rfl) fun _ => rfl
      exact (more_newLink.trans hset).trans (sameLinks_call _ rfl).more
    · exact more_newLink
  have h₃ : MoreLinks s₂ (s₂.setStatus y fun st => { st with linkIn := true }) := more_setStatus rfl
  exact (h₂.trans h₃).trans (more_setLink (fun _ => rfl) fun _ => rfl)

lemma more_bi : MoreLinks s (s.imepSetLinkBiStatus now y) := by
  unfold imepSetLinkBiStatus imepSetLinkOutStatus
  have h : MoreLinks (s.imepSetLinkInStatus now y)
      ((s.imepSetLinkInStatus now y).setStatus y fun st => { st with linkOut := true }) := more_setStatus rfl
  exact (more_in.trans h).trans (more_setLink (fun _ => rfl) fun _ => rfl)

/-! ### The retransmission queue under each routine -/

/-- What the routines do that take responses off the lists or leave them. -/
structure Shrinks (s s' : Agent π) : Prop where
  rexmitq : ∃ g : Rexent → Option Rexent, s'.rexmitq = s.rexmitq.filterMap g ∧
    ∀ e e', g e = some e' → e'.id = e.id
  controlSequence : s'.controlSequence = s.controlSequence

lemma MoreLinks.shrinks (h : MoreLinks s s') : Shrinks s s' := by
  refine ⟨⟨some, ?_, ?_⟩, h.controlSequence⟩
  · rw [List.filterMap_some]
    exact h.rexmitq
  · rintro e e' ⟨⟩
    rfl

lemma Shrinks.trans (h : Shrinks s s') (h' : Shrinks s' t) : Shrinks s t := by
  obtain ⟨⟨g, hq, hg⟩, hc⟩ := h
  obtain ⟨⟨g', hq', hg'⟩, hc'⟩ := h'
  refine ⟨⟨fun e => (g e).bind g', by rw [hq', hq, List.filterMap_filterMap], ?_⟩, hc'.trans hc⟩
  intro e e' he
  obtain ⟨e₁, h₁, h₂⟩ := Option.bind_eq_some_iff.mp he
  exact (hg' e₁ e' h₂).trans (hg e e₁ h₁)

lemma Shrinks.refl (s : Agent π) : Shrinks s s := (SameLinks.refl s).more.shrinks

lemma shrinks_call (s : Agent π) (c : Call π) : Shrinks s (s.call c) :=
  ⟨(Shrinks.refl s).rexmitq, rfl⟩

lemma Shrinks.numbered (h : Shrinks s s') (hn : Numbered s) : Numbered s' := by
  obtain ⟨⟨g, hq, hg⟩, hc⟩ := h
  exact hn.filterMap hg hq hc

lemma removeResponse_id {e e' : Rexent} (h : e.removeResponse y = some e') : e'.id = e.id :=
  (Rexent.removeResponse_frame h).1

lemma controlSequence_down : (s.imepSetLinkDownStatus y).controlSequence = s.controlSequence := by
  unfold imepSetLinkDownStatus
  simp only
  split_ifs <;> rfl

lemma ipaddr_down : (s.imepSetLinkDownStatus y).ipaddr = s.ipaddr := by
  unfold imepSetLinkDownStatus
  simp only
  split_ifs <;> rfl

lemma shrinks_down : Shrinks s (s.imepSetLinkDownStatus y) := by
  cases hl : s.findLink y with
  | none =>
    rw [down_of_none hl]
    exact shrinks_call _ _
  | some l =>
    exact ⟨⟨_, (down_of_some (by rw [hl]; rfl)).2.2.1, fun _ _ h => removeResponse_id h⟩, controlSequence_down⟩

lemma shrinks_purgeOne : Shrinks s (s.purgeOne now y) := by
  unfold purgeOne
  extract_lets s₁ s₂
  have h₁ : Shrinks s s₁ := ⟨⟨some, by rw [List.filterMap_some]; rfl, by rintro e e' ⟨⟩; rfl⟩, rfl⟩
  have h₂ : Shrinks s s₂ := by
    dsimp only [s₂]
    split_ifs
    · exact h₁.trans shrinks_down
    · exact h₁
  split_ifs
  · exact ⟨h₂.rexmitq, h₂.controlSequence⟩
  · exact h₂

lemma shrinks_beacon : Shrinks s (s.handlerBeaconTimer now) := by
  unfold handlerBeaconTimer purgeLink
  refine List.foldlRecOn (motive := Shrinks s) _ _ ?_
    fun t ht x _ => ht.trans (shrinks_call t (.sendHello x))
  exact List.foldlRecOn (motive := Shrinks s) _ _ (Shrinks.refl s) fun t ht x _ => ht.trans shrinks_purgeOne

lemma shrinks_punt {id fuel i : ℕ} : Shrinks s (s.punt id fuel i) := by
  induction fuel generalizing s i with
  | zero => exact Shrinks.refl s
  | succ fuel ih =>
    unfold punt
    split
    · exact Shrinks.refl s
    · split_ifs
      · exact shrinks_down.trans ih
      · exact Shrinks.refl s

lemma shrinks_ack {saddr : ℤ} {ack : ℤ × ℕ} : Shrinks s (imepAck now saddr s ack) := by
  unfold imepAck
  extract_lets s₁
  split_ifs
  · split
    · exact shrinks_call _ _
    next e he =>
      have h₁ : Shrinks s ((s.call (.imep_ack saddr ack.2)).removeObjectResponse e.id saddr) := by
        refine ⟨⟨_, rfl, fun e₁ e₂ h => ?_⟩, rfl⟩
        split_ifs at h
        · exact removeResponse_id h
        · rw [Option.some.inj h]
      exact h₁.trans more_bi.shrinks
  · exact Shrinks.refl s

lemma shrinks_recv {p : Incoming π} : Shrinks s (s.recv_incoming now p) := by
  unfold recv_incoming
  extract_lets s₁ s₂ s₃
  have h₁ : Shrinks s s₁ := more_in.shrinks
  have h₂ : Shrinks s s₂ :=
    List.foldlRecOn (motive := Shrinks s) _ _ h₁ fun t ht ack _ => ht.trans shrinks_ack
  have h₃ : Shrinks s s₃ := by
    dsimp only [s₃, imep_hello_input]
    split_ifs
    · exact h₂.trans more_bi.shrinks
    · exact h₂
  split_ifs
  · exact h₁.trans (shrinks_call _ _)
  · split
    · exact h₃
    · exact h₃.trans sameLinks_object.more.shrinks

/-- Each object packet has the next number. -/
lemma step_numbered {e : Event π} {o : Unit} (h : Numbered s) (hs : s.step e = some (s', o)) : Numbered s' := by
  cases e with
  | recv now p =>
    obtain ⟨rfl, -⟩ := Prod.mk.inj (Option.some.inj hs)
    exact shrinks_recv.numbered h
  | aggregateObject now found =>
    obtain ⟨rfl, -⟩ := Prod.mk.inj (Option.some.inj hs)
    unfold aggregateObjectBlock
    simp only
    split_ifs
    · constructor
      · rw [(((insertRexent_perm _ _).map Rexent.id).nodup_iff), List.map_cons, List.nodup_cons]
        refine ⟨fun hmem => ?_, h.nodup⟩
        obtain ⟨e, he, hid⟩ := List.mem_map.mp hmem
        have hle := h.le e he
        have hnew : e.id = s.controlSequence + 1 := hid
        omega
      · intro e he
        rcases List.mem_cons.mp ((insertRexent_perm _ _).subset he) with rfl | he
        · exact le_rfl
        · exact (h.le e he).trans (Nat.le_succ _)
    · exact ⟨h.nodup, fun e he => (h.le e he).trans (Nat.le_succ _)⟩
  | beaconTimer now =>
    obtain ⟨rfl, -⟩ := Prod.mk.inj (Option.some.inj hs)
    exact shrinks_beacon.numbered h
  | rexmitTimer now =>
    obtain ⟨rfl, -⟩ := Prod.mk.inj (Option.some.inj hs)
    unfold handlerReXmitTimer
    split
    · exact h
    next e es hq =>
      split_ifs
      · exact shrinks_punt.numbered h
      · have hids : List.Perm ((insertRexent { e with rexmitAt := now + RETRANS_PERIOD, rexmitsLeft := e.rexmitsLeft - 1 }
            es).map Rexent.id) (s.rexmitq.map Rexent.id) := by
          rw [hq]
          exact (insertRexent_perm _ _).map Rexent.id
        refine ⟨hids.nodup_iff.mpr h.nodup, fun e' he' => ?_⟩
        have hmem := hids.subset (List.mem_map_of_mem he')
        obtain ⟨e₀, he₀, hid⟩ := List.mem_map.mp hmem
        rw [← hid]
        exact h.le e₀ he₀
      · exact h
  | incomingTimer now =>
    obtain ⟨t, ht, he⟩ := Option.map_eq_some_iff.mp hs
    obtain ⟨rfl, -⟩ := Prod.mk.inj he
    exact (sameLinks_incoming ht).more.shrinks.numbered h
  | undeliverable inet nextHop =>
    obtain ⟨rfl, -⟩ := Prod.mk.inj (Option.some.inj hs)
    unfold imepPacketUndeliverable
    split_ifs
    · exact shrinks_down.numbered h
    · exact h

/-! ### Lists that are read as they were written -/

/-- The words of a list are found in their places. -/
def ReadsBack (found : List ℤ → ℕ → ℤ) : Prop := ∀ (l : List ℤ) (i : ℕ) (h : i < l.length), found l i = l[i]

/-- There is one record for each neighbour, and packets wait for bidirectional neighbours, `x` apart. -/
structure AnsweringBut (x : Option ℤ) (s : Agent π) : Prop where
  indices : (s.links.map Link.index).Nodup
  nodup : ∀ e ∈ s.rexmitq, e.list.Nodup
  status : ∀ e ∈ s.rexmitq, ∀ y ∈ e.list, some y ≠ x → s.status y = LINK_BI

def Answering (s : Agent π) : Prop := AnsweringBut none s

lemma Answering.bi (h : Answering s) {e : Rexent} (he : e ∈ s.rexmitq) (hy : y ∈ e.list) : s.status y = LINK_BI :=
  h.status e he y hy (by simp)

lemma Answering.more (h : Answering s) (hm : MoreLinks s s') : Answering s' := by
  refine ⟨hm.indices h.indices, fun e he => ?_, fun e he y hy _ => ?_⟩
  · rw [hm.rexmitq] at he
    exact h.nodup e he
  · rw [hm.rexmitq] at he
    exact hm.status y (h.bi he hy)

lemma Answering.call (h : Answering s) (c : Call π) : Answering (s.call c) := ⟨h.indices, h.nodup, h.status⟩

lemma answering_down_of_some (h : AnsweringBut (some y) s) (hy : (s.findLink y).isSome) :
    Answering (s.imepSetLinkDownStatus y) := by
  obtain ⟨-, hlinks, hq, -⟩ := down_of_some hy
  refine ⟨?_, fun e he => ?_, fun e he z hz _ => ?_⟩
  · have hi := indices_setLink (s := s) (y := y)
      (f := fun l => { l with status := LINK_DOWN, inExpire := -1, outExpire := -1 }) fun _ => rfl
    rw [hlinks, hi]
    exact h.indices
  · rw [hq] at he
    obtain ⟨e₀, he₀, hr⟩ := List.mem_filterMap.mp he
    exact (Rexent.removeResponse_sub (h.nodup e₀ he₀) hr).1
  · rw [hq] at he
    obtain ⟨e₀, he₀, hr⟩ := List.mem_filterMap.mp he
    obtain ⟨-, hsub, hnot⟩ := Rexent.removeResponse_sub (h.nodup e₀ he₀) hr
    have hne : z ≠ y := fun he => hnot (he ▸ hz)
    rw [status_down_of_ne hne]
    exact h.status e₀ he₀ z (hsub z hz) (by simpa using hne)

lemma answering_down (h : Answering s) : Answering (s.imepSetLinkDownStatus y) := by
  cases hl : s.findLink y with
  | none =>
    rw [down_of_none hl]
    exact h.call _
  | some l =>
    exact answering_down_of_some ⟨h.indices, h.nodup, fun e he z hz _ => h.bi he hz⟩ (by rw [hl]; rfl)

lemma answering_delete (h : Answering s) (hy : s.status y = LINK_DOWN) : Answering (s.deleteLink y) := by
  refine ⟨h.indices.sublist (List.Sublist.map _ List.filter_sublist), h.nodup, fun e he z hz _ => ?_⟩
  have hz' := h.bi he hz
  have hne : z ≠ y := by
    rintro rfl
    rw [hy] at hz'
    cases hz'
  rw [status_eq, findLink_deleteLink_of_ne hne, ← status_eq]
  exact hz'

lemma answering_purgeOne (h : Answering s) : Answering (s.purgeOne now y) := by
  unfold purgeOne
  extract_lets s₁ s₂
  have hi : (s₁.links.map Link.index).Nodup := by
    have hs : s₁.links.map Link.index = s.links.map Link.index := indices_setLink fun _ => rfl
    rw [hs]
    exact h.indices
  have hother : ∀ x ≠ y, s₁.status x = s.status x := fun x hx => status_setLink_of_ne (fun _ => rfl) hx
  have h₂ : Answering s₂ := by
    by_cases hdown : s.status y = LINK_BI ∧ s₁.status y ≠ LINK_BI
    · have hs : s₂ = s₁.imepSetLinkDownStatus y := if_pos hdown
      rw [hs]
      refine answering_down_of_some ⟨hi, h.nodup, fun e he z hz hne => ?_⟩ ?_
      · rw [hother z (by simpa using hne)]
        exact h.bi he hz
      · have hl : s₁.findLink y = (s.findLink y).map (Link.expired now) := findLink_setLink_self fun _ => rfl
        rw [hl, Option.isSome_map]
        exact findLink_isSome_of_status (by rw [hdown.1]; decide)
    · have hs : s₂ = s₁ := if_neg hdown
      rw [hs]
      refine ⟨hi, h.nodup, fun e he z hz _ => ?_⟩
      have hz' := h.bi he hz
      by_cases hzy : z = y
      · subst hzy
        by_contra hne
        exact hdown ⟨hz', hne⟩
      · rw [hother z hzy]
        exact hz'
  split_ifs with hd
  · exact answering_delete h₂ hd
  · exact h₂

lemma answering_beacon (h : Answering s) : Answering (s.handlerBeaconTimer now) := by
  unfold handlerBeaconTimer purgeLink
  refine List.foldlRecOn (motive := Answering) _ _ ?_ fun t ht x _ => ht.call (.sendHello x)
  exact List.foldlRecOn (motive := Answering) _ _ h fun t ht x _ => answering_purgeOne ht

lemma answering_punt {id fuel i : ℕ} (h : Answering s) : Answering (s.punt id fuel i) := by
  induction fuel generalizing s i with
  | zero => exact h
  | succ fuel ih =>
    unfold punt
    split
    · exact h
    · split_ifs
      · exact ih (answering_down h)
      · exact h

lemma answering_ack {saddr : ℤ} {ack : ℤ × ℕ} (h : Answering s) : Answering (imepAck now saddr s ack) := by
  unfold imepAck
  extract_lets s₁
  split_ifs
  · split
    · exact h.call _
    next e he =>
      refine Answering.more ?_ more_bi
      refine ⟨h.indices, fun e₁ he₁ => ?_, fun e₁ he₁ z hz _ => ?_⟩
      · obtain ⟨e₀, he₀, hr⟩ := List.mem_filterMap.mp he₁
        split_ifs at hr
        · exact (Rexent.removeResponse_sub (h.nodup e₀ he₀) hr).1
        · rw [← Option.some.inj hr]
          exact h.nodup e₀ he₀
      · obtain ⟨e₀, he₀, hr⟩ := List.mem_filterMap.mp he₁
        split_ifs at hr
        · exact h.bi he₀ ((Rexent.removeResponse_sub (h.nodup e₀ he₀) hr).2.1 z hz)
        · rw [← Option.some.inj hr] at hz
          exact h.bi he₀ hz
  · exact h

lemma answering_recv {p : Incoming π} (h : Answering s) : Answering (s.recv_incoming now p) := by
  unfold recv_incoming
  extract_lets s₁ s₂ s₃
  have h₁ : Answering s₁ := h.more more_in
  have h₂ : Answering s₂ := List.foldlRecOn (motive := Answering) _ _ h₁ fun t ht ack _ => answering_ack ht
  have h₃ : Answering s₃ := by
    dsimp only [s₃, imep_hello_input]
    split_ifs
    · exact h₂.more more_bi
    · exact h₂
  split_ifs
  · exact h₁.call _
  · split
    · exact h₃
    · exact h₃.more sameLinks_object.more

lemma findLink_of_mem (h : (s.links.map Link.index).Nodup) {l : Link} (hl : l ∈ s.links) :
    s.findLink l.index = some l := by
  unfold findLink
  generalize s.links = ls at h hl
  induction ls with
  | nil => cases hl
  | cons m ls ih =>
    rw [List.map_cons, List.nodup_cons] at h
    rcases List.mem_cons.mp hl with rfl | hl
    · exact List.find?_cons_of_pos (by simp)
    · have hne : ¬m.index = l.index := fun he => h.1 (List.mem_map.mpr ⟨l, hl, he.symm⟩)
      rw [List.find?_cons_of_neg (by simpa using hne), ih h.2 hl]

lemma status_of_mem_biLinks (h : (s.links.map Link.index).Nodup) (hy : y ∈ s.biLinks) : s.status y = LINK_BI := by
  obtain ⟨l, hl, rfl⟩ := List.mem_map.mp hy
  obtain ⟨hl, hst⟩ := List.mem_filter.mp hl
  rw [status_eq, findLink_of_mem h hl]
  exact of_decide_eq_true hst

lemma answering_aggregate {found : List ℤ → ℕ → ℤ} (hf : ReadsBack found) (h : Answering s) :
    Answering (s.aggregateObjectBlock now found) := by
  have htake : (List.range (s.biLinks.length % 32)).map (found s.biLinks) = s.biLinks.take (s.biLinks.length % 32) := by
    refine List.ext_getElem (by simp [Nat.mod_le]) fun i h₁ h₂ => ?_
    have hi : i < s.biLinks.length := lt_of_lt_of_le (by simpa using h₁) (Nat.mod_le _ _)
    rw [List.getElem_map, List.getElem_range, hf _ _ hi, List.getElem_take]
  have hsub : (s.biLinks.take (s.biLinks.length % 32)).Sublist s.biLinks := List.take_sublist _ _
  have hnodup : s.biLinks.Nodup := h.indices.sublist (List.Sublist.map _ List.filter_sublist)
  unfold aggregateObjectBlock
  simp only
  split_ifs
  · refine ⟨h.indices, fun e he => ?_, fun e he y hy _ => ?_⟩
    · rcases List.mem_cons.mp ((insertRexent_perm _ _).subset he) with rfl | he
      · rw [Rexent.list, htake]
        exact hnodup.sublist hsub
      · exact h.nodup e he
    · rcases List.mem_cons.mp ((insertRexent_perm _ _).subset he) with rfl | he
      · rw [Rexent.list, htake] at hy
        exact status_of_mem_biLinks h.indices (hsub.subset hy)
      · exact h.bi he hy
  · exact ⟨h.indices, h.nodup, h.status⟩

/-- The lists of an event, if it writes one, are read as they were written. -/
def Faithful : Event π → Prop
  | .aggregateObject _ found => ReadsBack found
  | _ => True

lemma step_answering {e : Event π} {o : Unit} (h : Answering s) (he : Faithful e)
    (hs : s.step e = some (s', o)) : Answering s' := by
  cases e with
  | recv now p =>
    obtain ⟨rfl, -⟩ := Prod.mk.inj (Option.some.inj hs)
    exact answering_recv h
  | aggregateObject now found =>
    obtain ⟨rfl, -⟩ := Prod.mk.inj (Option.some.inj hs)
    exact answering_aggregate he h
  | beaconTimer now =>
    obtain ⟨rfl, -⟩ := Prod.mk.inj (Option.some.inj hs)
    exact answering_beacon h
  | rexmitTimer now =>
    obtain ⟨rfl, -⟩ := Prod.mk.inj (Option.some.inj hs)
    unfold handlerReXmitTimer
    split
    · exact h
    next e es hq =>
      split_ifs
      · exact answering_punt h
      · have hmem : ∀ e' ∈ insertRexent { e with rexmitAt := now + RETRANS_PERIOD, rexmitsLeft := e.rexmitsLeft - 1 } es,
            ∃ e₀ ∈ s.rexmitq, e'.list = e₀.list := by
          intro e' he'
          rw [hq]
          rcases List.mem_cons.mp ((insertRexent_perm _ _).subset he') with rfl | he'
          · exact ⟨e, List.mem_cons_self, rfl⟩
          · exact ⟨e', List.mem_cons_of_mem _ he', rfl⟩
        refine ⟨h.indices, fun e' he' => ?_, fun e' he' y hy _ => ?_⟩
        · obtain ⟨e₀, he₀, hl⟩ := hmem e' he'
          rw [hl]
          exact h.nodup e₀ he₀
        · obtain ⟨e₀, he₀, hl⟩ := hmem e' he'
          exact h.bi he₀ (hl ▸ hy)
      · exact h
  | incomingTimer now =>
    obtain ⟨t, ht, he⟩ := Option.map_eq_some_iff.mp hs
    obtain ⟨rfl, -⟩ := Prod.mk.inj he
    exact h.more (sameLinks_incoming ht).more
  | undeliverable inet nextHop =>
    obtain ⟨rfl, -⟩ := Prod.mk.inj (Option.some.inj hs)
    unfold imepPacketUndeliverable
    split_ifs
    · exact answering_down h
    · exact h

end NetworkSimulator.Imep.Agent
