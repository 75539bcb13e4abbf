import Mathlib.Data.Finset.Basic
import NetworkSimulator.Imep.Neighbors

/-!
# When a packet leaves the retransmission queue

What is expected of the neighbours is told from the acknowledgements and the links that went down. The
queue keeps to it as long as no address is looked for that is not on a list and stands in the word behind
it: such a word is what is left of a list that was longer.
-/

namespace NetworkSimulator.Imep

open Library

variable {π : Type*}

/-- The addresses that a packet is expected to be acknowledged by, after one more call. -/
def noted (x : ℕ → Finset ℤ) : Call π → ℕ → Finset ℤ
  | .createResponseList id responses => Function.update x id responses.toFinset
  | .imep_ack saddr seqno => fun id => if id % 256 = seqno then (x id).erase saddr else x id
  | .purgeReXmitQ index => fun id => (x id).erase index
  | _ => x

/-- The addresses of a packet's list that have since then neither acknowledged its sequence number nor been
purged. -/
def expected (calls : List (Call π)) : ℕ → Finset ℤ := calls.foldl noted fun _ => ∅

lemma expected_append (calls cs : List (Call π)) : expected (calls ++ cs) = cs.foldl noted (expected calls) :=
  List.foldl_append

lemma foldl_noted_filter (calls : List (Call π)) (x : ℕ → Finset ℤ) :
    (calls.filter Agent.ofLists).foldl noted x = calls.foldl noted x := by
  induction calls generalizing x with
  | nil => rfl
  | cons c calls ih =>
    cases hc : Agent.ofLists c with
    | true => rw [List.filter_cons_of_pos hc, List.foldl_cons, List.foldl_cons, ih]
    | false =>
      rw [List.filter_cons_of_neg (by simp [hc]), List.foldl_cons, ih]
      have hx : noted x c = x := by
        cases c <;> first | rfl | cases hc
      rw [hx]

lemma expected_congr {calls calls' : List (Call π)} (h : calls'.filter Agent.ofLists = calls.filter Agent.ofLists) :
    expected calls' = expected calls := by
  rw [expected, expected, ← foldl_noted_filter calls', h, foldl_noted_filter]

/-- `index` is on the list, or the word behind the list is another. -/
def Rexent.CleanFor (e : Rexent) (index : ℤ) : Prop := index ∈ e.list ∨ e.response e.numResponses ≠ index

instance (e : Rexent) (index : ℤ) : Decidable (e.CleanFor index) := inferInstanceAs (Decidable (_ ∨ _))

namespace Rexent

variable {e e' : Rexent} {y : ℤ}

/-- A clean removal leaves exactly the other addresses. -/
lemma CleanFor.some (hc : e.CleanFor y) (hd : e.list.Nodup) (h : e.removeResponse y = some e') :
    e'.list.toFinset = e.list.toFinset.erase y ∧ e'.list.Nodup := by
  refine ⟨?_, (removeResponse_sub hd h).1⟩
  by_cases hm : y ∈ e.list
  · have hp := removeResponse_of_mem hm h
    have hnot : y ∉ e'.list := (removeResponse_sub hd h).2.2
    rw [← List.toFinset_eq_of_perm _ _ hp, List.toFinset_cons, Finset.erase_insert (by simpa using hnot)]
  · have hb : e.response e.numResponses ≠ y := hc.resolve_left hm
    obtain rfl := Option.some.inj ((removeResponse_of_not_mem hm hb).symm.trans h)
    rw [Finset.erase_eq_of_notMem (by simpa using hm)]

/-- A packet that is taken off the queue by a clean removal was waiting for this address only. -/
lemma CleanFor.none (hc : e.CleanFor y) (h : e.removeResponse y = none) : e.list.toFinset.erase y = ∅ := by
  by_cases hm : y ∈ e.list
  · have hone := (removeResponse_eq_none_of_mem hm).mp h
    obtain ⟨i, hi, hr⟩ := mem_list.mp hm
    obtain rfl : i = 0 := by omega
    have hl : e.list = [y] := by simp [list, hone, hr]
    rw [hl]
    simp
  · have hb : e.response e.numResponses ≠ y := hc.resolve_left hm
    rw [removeResponse_of_not_mem hm hb] at h
    cases h

end Rexent

namespace Agent

variable {s s' : Agent π} {x y : ℤ} {now : ℚ}

/-- The packets on the queue are those of which something is expected, and they wait for just that. -/
structure Awaited (s : Agent π) : Prop where
  numbered : Numbered s
  sequence : ∀ e ∈ s.rexmitq, e.sequence = e.id % 256
  apart : ∀ e ∈ s.rexmitq, ∀ e' ∈ s.rexmitq, e.sequence = e'.sequence → e.id = e'.id
  nodup : ∀ e ∈ s.rexmitq, e.list.Nodup
  waits : ∀ e ∈ s.rexmitq, e.list.toFinset = expected s.calls e.id
  stays : ∀ id, expected s.calls id ≠ ∅ → ∃ e ∈ s.rexmitq, e.id = id

lemma Awaited.congr (h : Awaited s) (hq : s'.rexmitq = s.rexmitq) (hc : s'.controlSequence = s.controlSequence)
    (hx : expected s'.calls = expected s.calls) : Awaited s' := by
  refine ⟨h.numbered.congr hq hc, ?_, ?_, ?_, ?_, ?_⟩
  · rw [hq]
    exact h.sequence
  · rw [hq]
    exact h.apart
  · rw [hq]
    exact h.nodup
  · rw [hq, hx]
    exact h.waits
  · rw [hq, hx]
    exact h.stays

lemma Awaited.more (h : Awaited s) (hm : MoreLinks s s') : Awaited s' :=
  h.congr hm.rexmitq hm.controlSequence (expected_congr hm.lists)

/-- An address is taken off some lists and nothing more is expected of it for their packets. -/
lemma Awaited.remove (h : Awaited s) (sel : ℕ → Prop) [DecidablePred sel]
    (hq : s'.rexmitq = s.rexmitq.filterMap fun e => if sel e.id then e.removeResponse y else some e)
    (hc : s'.controlSequence = s.controlSequence)
    (hx : ∀ id, expected s'.calls id = if sel id then (expected s.calls id).erase y else expected s.calls id)
    (hclean : ∀ e ∈ s.rexmitq, sel e.id → e.CleanFor y) : Awaited s' := by
  have hid : ∀ e e' : Rexent, (if sel e.id then e.removeResponse y else some e) = some e' → e'.id = e.id := by
    intro e e' he
    split_ifs at he
    · exact removeResponse_id he
    · rw [Option.some.inj he]
  have hfrom : ∀ e' ∈ s'.rexmitq, ∃ e ∈ s.rexmitq, e'.id = e.id ∧ e'.sequence = e.sequence ∧ e'.list.Nodup ∧
      e'.list.toFinset = expected s'.calls e'.id := by
    intro e' he'
    rw [hq] at he'
    obtain ⟨e, he, hr⟩ := List.mem_filterMap.mp he'
    have hide := hid e e' hr
    refine ⟨e, he, hide, ?_⟩
    by_cases hs : sel e.id
    · rw [if_pos hs] at hr
      obtain ⟨hl, hn⟩ := (hclean e he hs).some (h.nodup e he) hr
      refine ⟨(Rexent.removeResponse_frame hr).2.1, hn, ?_⟩
      rw [hl, hide, hx, if_pos hs, h.waits e he]
    · rw [if_neg hs] at hr
      obtain rfl := Option.some.inj hr
      refine ⟨rfl, h.nodup e he, ?_⟩
      rw [hx, if_neg hs, h.waits e he]
  refine ⟨h.numbered.filterMap hid hq hc, fun e' he' => ?_, fun e' he' f' hf' heq => ?_, fun e' he' => ?_,
    fun e' he' => ?_, fun id hne => ?_⟩
  · obtain ⟨e, he, hi, hs, -⟩ := hfrom e' he'
    rw [hs, hi, h.sequence e he]
  · obtain ⟨e, he, hi, hs, -⟩ := hfrom e' he'
    obtain ⟨f, hf, hi', hs', -⟩ := hfrom f' hf'
    rw [hi, hi']
    exact h.apart e he f hf (by rw [← hs, ← hs', heq])
  · obtain ⟨_, -, -, -, hn, -⟩ := hfrom e' he'
    exact hn
  · obtain ⟨_, -, -, -, -, hw⟩ := hfrom e' he'
    exact hw
  · have hold : expected s.calls id ≠ ∅ := by
      intro h0
      rw [hx, h0] at hne
      split_ifs at hne
      · exact hne rfl
      · exact hne rfl
    obtain ⟨e, he, rfl⟩ := h.stays id hold
    cases hr : (if sel e.id then e.removeResponse y else some e) with
    | none =>
      split_ifs at hr with hs
      have hgone := (hclean e he hs).none hr
      rw [hx, if_pos hs, ← h.waits e he] at hne
      exact absurd hgone hne
    | some e' =>
      refine ⟨e', ?_, hid e e' hr⟩
      rw [hq]
      exact List.mem_filterMap.mpr ⟨e, he, hr⟩

/-! ### The routines -/

/-- An address whose link goes down is clean for all lists. -/
def DownClean (s : Agent π) (index : ℤ) : Prop := (s.findLink index).isSome → ∀ e ∈ s.rexmitq, e.CleanFor index

instance (s : Agent π) (index : ℤ) : Decidable (s.DownClean index) := inferInstanceAs (Decidable (_ → _))

lemma awaited_down (h : Awaited s) (hc : DownClean s y) : Awaited (s.imepSetLinkDownStatus y) := by
  cases hl : s.findLink y with
  | none =>
    rw [down_of_none hl]
    exact h.congr rfl rfl (by rw [calls_call, expected_append]; rfl)
  | some l =>
    obtain ⟨hcalls, -, hq, -⟩ := down_of_some (s := s) (y := y) (by rw [hl]; rfl)
    refine h.remove (fun _ => True) (y := y) ?_ controlSequence_down (fun id => ?_)
      fun e he _ => hc (by rw [hl]; rfl) e he
    · simpa using hq
    · rw [hcalls, expected_append, if_pos trivial]
      rfl

/-- The acknowledgement of a packet that waits for it, or of a list behind which another address stands. -/
def AckClean (saddr : ℤ) (s : Agent π) (ack : ℤ × ℕ) : Prop :=
  ack.1 = s.ipaddr → ∀ e ∈ s.rexmitq, e.sequence = ack.2 → e.CleanFor saddr

instance (saddr : ℤ) (s : Agent π) (ack : ℤ × ℕ) : Decidable (AckClean saddr s ack) :=
  inferInstanceAs (Decidable (_ → _))

lemma awaited_ack {saddr : ℤ} {ack : ℤ × ℕ} (h : Awaited s) (hc : AckClean saddr s ack) :
    Awaited (imepAck now saddr s ack) := by
  unfold imepAck
  extract_lets s₁
  split_ifs with hme
  · have hx : ∀ id, expected s₁.calls id =
        if id % 256 = ack.2 then (expected s.calls id).erase saddr else expected s.calls id := by
      intro id
      rw [calls_call, expected_append]
      rfl
    have hclean : ∀ e ∈ s.rexmitq, e.id % 256 = ack.2 → e.CleanFor saddr := fun e he hs =>
      hc hme e he ((h.sequence e he).trans hs)
    split
    next hnone =>
      refine h.remove (fun id => id % 256 = ack.2) (y := saddr) ?_ rfl hx hclean
      have hsame : (s.rexmitq.filterMap fun e => if e.id % 256 = ack.2 then e.removeResponse saddr else some e) =
          s.rexmitq.filterMap some := by
        refine List.filterMap_congr fun e he => if_neg fun hs => ?_
        have hno := List.find?_eq_none.mp hnone e he
        exact absurd ((h.sequence e he).trans hs) (by simpa using hno)
      rw [hsame, List.filterMap_some]
      rfl
    next e₀ hsome =>
      refine Awaited.more ?_ more_bi
      have hmem : e₀ ∈ s.rexmitq := List.mem_of_find?_eq_some hsome
      have hseq : e₀.sequence = ack.2 := by simpa using List.find?_some hsome
      refine h.remove (fun id => id % 256 = ack.2) (y := saddr) ?_ rfl hx hclean
      refine List.filterMap_congr fun e he => ?_
      by_cases hs : e.id % 256 = ack.2
      · have hsame : e.id = e₀.id := h.apart e he e₀ hmem (by rw [h.sequence e he, hs, hseq])
        rw [if_pos hsame, if_pos hs]
      · have hother : ¬e.id = e₀.id := by
          intro heq
          rw [heq, ← h.sequence e₀ hmem, hseq] at hs
          exact hs rfl
        rw [if_neg hother, if_neg hs]
  · exact h

/-- A condition on the state in which each element of a list is handled. -/
def InTurn {α : Type*} (g : Agent π → α → Agent π) (P : Agent π → α → Prop) : Agent π → List α → Prop
  | _, [] => True
  | s, a :: as => P s a ∧ InTurn g P (g s a) as

instance decidableInTurn {α : Type*} (g : Agent π → α → Agent π) (P : Agent π → α → Prop) [∀ s a, Decidable (P s a)] :
    ∀ s as, Decidable (InTurn g P s as)
  | _, [] => inferInstanceAs (Decidable True)
  | s, a :: as =>
    have := decidableInTurn g P (g s a) as
    inferInstanceAs (Decidable (_ ∧ _))

lemma awaited_foldl {α : Type*} {g : Agent π → α → Agent π} {P : Agent π → α → Prop}
    (hg : ∀ s a, Awaited s → P s a → Awaited (g s a)) {as : List α} (h : Awaited s) (hP : InTurn g P s as) :
    Awaited (as.foldl g s) := by
  induction as generalizing s with
  | nil => exact h
  | cons a as ih => exact ih (hg s a h hP.1) hP.2

/-- A link that is no longer bidirectional when its times are over. -/
def PurgeClean (now : ℚ) (s : Agent π) (index : ℤ) : Prop :=
  s.status index = LINK_BI ∧ (s.setLink index (Link.expired now)).status index ≠ LINK_BI →
    ∀ e ∈ s.rexmitq, e.CleanFor index

instance (s : Agent π) (index : ℤ) : Decidable (PurgeClean now s index) := inferInstanceAs (Decidable (_ → _))

lemma awaited_purgeOne (h : Awaited s) (hc : PurgeClean now s y) : Awaited (s.purgeOne now y) := by
  unfold purgeOne
  extract_lets s₁ s₂
  have h₁ : Awaited s₁ := h.congr rfl rfl rfl
  have h₂ : Awaited s₂ := by
    dsimp only [s₂]
    split_ifs with hdown
    · exact awaited_down h₁ fun _ => hc hdown
    · exact h₁
  split_ifs
  · exact h₂.congr rfl rfl rfl
  · exact h₂

lemma awaited_beacon (h : Awaited s) (hc : InTurn (purgeOne now) (PurgeClean now) s (s.links.map Link.index)) :
    Awaited (s.handlerBeaconTimer now) := by
  unfold handlerBeaconTimer purgeLink
  have hp := awaited_foldl (fun s index hs hP => awaited_purgeOne hs hP) h hc
  exact List.foldlRecOn (motive := Awaited) _ _ hp
    fun t ht x _ => ht.more (sameLinks_call t (c := .sendHello x) rfl).more

lemma awaited_recv {p : Incoming π} (h : Awaited s)
    (hc : InTurn (imepAck now p.saddr) (AckClean p.saddr) (s.imepSetLinkInStatus now p.saddr) p.acks) :
    Awaited (s.recv_incoming now p) := by
  unfold recv_incoming
  extract_lets s₁ s₂ s₃
  have h₁ : Awaited s₁ := h.more more_in
  have h₂ : Awaited s₂ := awaited_foldl (fun s ack hs hP => awaited_ack hs hP) h₁ hc
  have h₃ : Awaited s₃ := by
    dsimp only [s₃, imep_hello_input]
    split_ifs
    · exact h₂.more more_bi
    · exact h₂
  split_ifs
  · exact h₁.more (sameLinks_call _ rfl).more
  · split
    · exact h₃
    · exact h₃.more sameLinks_object.more

/-- The list that `findResponseList` finds in a new packet has no address twice, and no packet on the queue
has its sequence number. -/
def NewList (s : Agent π) (found : List ℤ → ℕ → ℤ) : Prop :=
  ((List.range (s.biLinks.length % 32)).map (found s.biLinks)).Nodup ∧
    ∀ e ∈ s.rexmitq, e.sequence ≠ (s.controlSequence + 1) % 256

instance (s : Agent π) (found : List ℤ → ℕ → ℤ) : Decidable (s.NewList found) := inferInstanceAs (Decidable (_ ∧ _))

lemma awaited_aggregate {found : List ℤ → ℕ → ℤ} (h : Awaited s) (hf : NewList s found)
    (hn : Numbered (s.aggregateObjectBlock now found)) : Awaited (s.aggregateObjectBlock now found) := by
  have hx : expected (s.aggregateObjectBlock now found).calls = Function.update (expected s.calls)
      (s.controlSequence + 1) ((List.range (s.biLinks.length % 32)).map (found s.biLinks)).toFinset := by
    have hcalls : (s.aggregateObjectBlock now found).calls = s.calls ++ [.createResponseList (s.controlSequence + 1)
        ((List.range (s.biLinks.length % 32)).map (found s.biLinks))] := by
      unfold aggregateObjectBlock
      extract_lets
      split_ifs <;> rfl
    rw [hcalls, expected_append]
    rfl
  have hold : ∀ e ∈ s.rexmitq, expected (s.aggregateObjectBlock now found).calls e.id = expected s.calls e.id := by
    intro e he
    have hle := h.numbered.le e he
    rw [hx, Function.update_of_ne (by omega)]
  by_cases hpos : 0 < s.biLinks.length % 32
  · obtain ⟨sp, hid, hseq, hlist, hq⟩ : ∃ sp : Rexent, sp.id = s.controlSequence + 1 ∧
        sp.sequence = (s.controlSequence + 1) % 256 ∧
        sp.list = (List.range (s.biLinks.length % 32)).map (found s.biLinks) ∧
        (s.aggregateObjectBlock now found).rexmitq = insertRexent sp s.rexmitq := by
      unfold aggregateObjectBlock
      extract_lets responses s₁
      rw [dif_pos hpos]
      exact ⟨_, rfl, rfl, rfl, rfl⟩
    have hmem : ∀ e ∈ (s.aggregateObjectBlock now found).rexmitq, e = sp ∨ e ∈ s.rexmitq := by
      intro e he
      rw [hq] at he
      exact List.mem_cons.mp ((insertRexent_perm _ _).subset he)
    refine ⟨hn, fun e he => ?_, fun e he e' he' heq => ?_, fun e he => ?_, fun e he => ?_, fun id hne => ?_⟩
    · rcases hmem e he with rfl | he
      · rw [hseq, hid]
      · exact h.sequence e he
    · rcases hmem e he with rfl | he <;> rcases hmem e' he' with rfl | he'
      · rfl
      · exact absurd (heq.symm.trans hseq) (hf.2 e' he')
      · exact absurd (heq.trans hseq) (hf.2 e he)
      · exact h.apart e he e' he' heq
    · rcases hmem e he with rfl | he
      · rw [hlist]
        exact hf.1
      · exact h.nodup e he
    · rcases hmem e he with rfl | he
      · rw [hlist, hx, hid, Function.update_self]
      · rw [hold e he]
        exact h.waits e he
    · by_cases hnew : id = s.controlSequence + 1
      · refine ⟨sp, ?_, hid.trans hnew.symm⟩
        rw [hq]
        exact (insertRexent_perm _ _).symm.subset List.mem_cons_self
      · rw [hx, Function.update_of_ne hnew] at hne
        obtain ⟨e, he, hide⟩ := h.stays id hne
        refine ⟨e, ?_, hide⟩
        rw [hq]
        exact (insertRexent_perm _ _).symm.subset (List.mem_cons_of_mem _ he)
  · have hq : (s.aggregateObjectBlock now found).rexmitq = s.rexmitq := by
      unfold aggregateObjectBlock
      extract_lets responses s₁
      rw [dif_neg hpos]
      rfl
    have hempty : s.biLinks.length % 32 = 0 := Nat.eq_zero_of_not_pos hpos
    refine ⟨hn, ?_, ?_, ?_, fun e he => ?_, fun id hne => ?_⟩
    · rw [hq]
      exact h.sequence
    · rw [hq]
      exact h.apart
    · rw [hq]
      exact h.nodup
    · rw [hq] at he
      rw [hold e he]
      exact h.waits e he
    · rw [hq]
      by_cases hnew : id = s.controlSequence + 1
      · rw [hx, hnew, Function.update_self, hempty] at hne
        exact absurd rfl hne
      · rw [hx, Function.update_of_ne hnew] at hne
        exact h.stays id hne

/-! ### Transmissions that are exhausted -/

/-- The addresses before the last one of the list have no link record, and the last one is clean. -/
def LastOnly (s : Agent π) (e : Rexent) : Prop :=
  (∀ i < e.numResponses, i + 1 < e.numResponses → s.findLink (e.response i) = none) ∧
    DownClean s (e.response (e.numResponses - 1))

instance (s : Agent π) (e : Rexent) : Decidable (s.LastOnly e) := inferInstanceAs (Decidable (_ ∧ _))

/-- The loop over the response list gets to each address when only the last call changes the list. -/
lemma punt_lastOnly {e : Rexent} {fuel i : ℕ} (h : Awaited s) (he : (s.rexmitq.find? fun p => p.id = e.id) = some e)
    (hl : LastOnly s e) (hi : i + (fuel + 1) = e.numResponses) :
    Awaited (s.punt e.id (fuel + 1) i) ∧ ∃ cs, (s.punt e.id (fuel + 1) i).calls = s.calls ++ cs ∧
      ∀ y, .imepSetLinkDownStatus y ∈ cs ↔ ∃ j < e.numResponses, i ≤ j ∧ e.response j = y := by
  induction fuel generalizing s i with
  | zero =>
    have hlast : i = e.numResponses - 1 := by omega
    have hpunt : s.punt e.id (0 + 1) i = s.imepSetLinkDownStatus (e.response i) := by
      unfold punt
      rw [he]
      simp only
      rw [if_pos (by omega)]
      rfl
    have hj : ∀ y, (∃ j < e.numResponses, i ≤ j ∧ e.response j = y) ↔ e.response i = y := by
      intro y
      constructor
      · rintro ⟨j, hlt, hle, rfl⟩
        obtain rfl : i = j := by omega
        rfl
      · exact fun heq => ⟨i, by omega, le_rfl, heq⟩
    rw [hpunt]
    refine ⟨awaited_down h (hlast ▸ hl.2), ?_⟩
    cases hf : s.findLink (e.response i) with
    | none =>
      refine ⟨[.imepSetLinkDownStatus (e.response i)], by rw [down_of_none hf]; rfl, fun y => ?_⟩
      rw [hj]
      simp [eq_comm]
    | some l =>
      refine ⟨_, (down_of_some (by rw [hf]; rfl)).1, fun y => ?_⟩
      rw [hj]
      simp [eq_comm]
  | succ fuel ih =>
    have hnone : s.findLink (e.response i) = none := hl.1 i (by omega) (by omega)
    have hpunt : s.punt e.id (fuel + 1 + 1) i =
        (s.call (.imepSetLinkDownStatus (e.response i))).punt e.id (fuel + 1) (i + 1) := by
      rw [punt, he]
      simp only
      rw [if_pos (by omega), down_of_none hnone]
    have hcall : Awaited (s.call (.imepSetLinkDownStatus (e.response i))) :=
      h.congr rfl rfl (by rw [calls_call, expected_append]; rfl)
    obtain ⟨ha, cs, hcs, hmem⟩ := ih (i := i + 1) hcall he hl (by omega)
    rw [hpunt]
    refine ⟨ha, .imepSetLinkDownStatus (e.response i) :: cs, by rw [hcs, calls_call, List.append_assoc]; rfl,
      fun y => ?_⟩
    rw [List.mem_cons, hmem]
    constructor
    · rintro (heq | ⟨j, hlt, hle, rfl⟩)
      · obtain rfl : y = e.response i := by simpa using heq
        exact ⟨i, by omega, le_rfl, rfl⟩
      · exact ⟨j, hlt, by omega, rfl⟩
    · rintro ⟨j, hlt, hle, rfl⟩
      rcases hle.eq_or_lt with rfl | hle
      · exact .inl rfl
      · exact .inr ⟨j, hlt, hle, rfl⟩

/-- The retransmission timer gives up on exactly the addresses of which the exhausted packet still expects
an acknowledgement. -/
def GivesUp (s : Agent π) : Event π → Prop
  | .rexmitTimer now => ∀ e ∈ s.rexmitq.head?, e.rexmitsLeft = 0 →
      ∃ cs, (s.handlerReXmitTimer now).calls = s.calls ++ cs ∧
        ∀ y, .imepSetLinkDownStatus y ∈ cs ↔ y ∈ expected s.calls e.id
  | _ => True

lemma handler_exhausted {e : Rexent} {es : List Rexent} (hq : s.rexmitq = e :: es) (hleft : e.rexmitsLeft = 0) :
    s.handlerReXmitTimer now = s.punt e.id e.numResponses 0 := by
  unfold handlerReXmitTimer
  rw [hq]
  exact if_pos hleft

lemma exhausted_spec {e : Rexent} {es : List Rexent} (h : Awaited s) (hq : s.rexmitq = e :: es)
    (hleft : e.rexmitsLeft = 0) (hl : LastOnly s e) :
    Awaited (s.handlerReXmitTimer now) ∧ ∃ cs, (s.handlerReXmitTimer now).calls = s.calls ++ cs ∧
      ∀ y, .imepSetLinkDownStatus y ∈ cs ↔ y ∈ expected s.calls e.id := by
  have hfind : (s.rexmitq.find? fun p => p.id = e.id) = some e := by
    rw [hq]
    exact List.find?_cons_of_pos (by simp)
  obtain ⟨n, hn⟩ : ∃ n, e.numResponses = n + 1 := ⟨e.numResponses - 1, by have := e.responses_pos; omega⟩
  obtain ⟨ha, cs, hcs, hmem⟩ := punt_lastOnly (i := 0) h hfind hl (by omega : 0 + (n + 1) = e.numResponses)
  rw [handler_exhausted hq hleft, hn]
  refine ⟨ha, cs, hcs, fun y => ?_⟩
  rw [hmem, ← h.waits e (by rw [hq]; exact List.mem_cons_self), List.mem_toFinset, Rexent.mem_list]
  simp

/-- A packet that is sent again goes to another place of the queue. -/
lemma awaited_again {e : Rexent} {es : List Rexent} (h : Awaited s) (hq : s.rexmitq = e :: es)
    (hleft : e.rexmitsLeft ≠ 0) : Awaited (s.handlerReXmitTimer now) := by
  unfold handlerReXmitTimer
  rw [hq]
  simp only [if_neg hleft]
  split_ifs
  · have hperm : ∀ p, p ∈ insertRexent { e with rexmitAt := now + RETRANS_PERIOD, rexmitsLeft := e.rexmitsLeft - 1 } es →
        ∃ p₀ ∈ s.rexmitq, p.id = p₀.id ∧ p.sequence = p₀.sequence ∧ p.list = p₀.list := by
      intro p hp
      rw [hq]
      rcases List.mem_cons.mp ((insertRexent_perm _ _).subset hp) with rfl | hp
      · exact ⟨e, List.mem_cons_self, rfl, rfl, rfl⟩
      · exact ⟨p, List.mem_cons_of_mem _ hp, rfl, rfl, rfl⟩
    have hids : List.Perm ((insertRexent { e with rexmitAt := now + RETRANS_PERIOD, rexmitsLeft := e.rexmitsLeft - 1 }
        es).map Rexent.id) (s.rexmitq.map Rexent.id) := by
      rw [hq]
      exact (insertRexent_perm _ _).map Rexent.id
    refine ⟨⟨hids.nodup_iff.mpr h.numbered.nodup, fun p hp => ?_⟩, fun p hp => ?_, fun p hp p' hp' heq => ?_,
      fun p hp => ?_, fun p hp => ?_, fun id hne => ?_⟩
    · obtain ⟨p₀, hp₀, hid, -⟩ := hperm p hp
      rw [hid]
      exact h.numbered.le p₀ hp₀
    · obtain ⟨p₀, hp₀, hid, hseq, -⟩ := hperm p hp
      rw [hseq, hid, h.sequence p₀ hp₀]
    · obtain ⟨p₀, hp₀, hid, hseq, -⟩ := hperm p hp
      obtain ⟨p₁, hp₁, hid', hseq', -⟩ := hperm p' hp'
      rw [hid, hid']
      exact h.apart p₀ hp₀ p₁ hp₁ (by rw [← hseq, ← hseq', heq])
    · obtain ⟨p₀, hp₀, -, -, hlist⟩ := hperm p hp
      rw [hlist]
      exact h.nodup p₀ hp₀
    · obtain ⟨p₀, hp₀, hid, -, hlist⟩ := hperm p hp
      rw [hlist, hid, calls_call, expected_append]
      exact h.waits p₀ hp₀
    · rw [calls_call, expected_append] at hne
      obtain ⟨p₀, hp₀, hid⟩ := h.stays id hne
      obtain ⟨p, hp, hid'⟩ := List.mem_map.mp (hids.symm.subset (List.mem_map_of_mem hp₀))
      exact ⟨p, hp, hid'.trans hid⟩
  · exact h

/-! ### Runs -/

/-- The packets that the node sends: no address twice on a list, and a sequence number that is free. -/
def Issued (s : Agent π) : Event π → Prop
  | .aggregateObject _ found => s.NewList found
  | _ => True

/-- No address is looked for that stands behind a list only, and the retransmission timer gives up on one
address. -/
def StaleFree (s : Agent π) : Event π → Prop
  | .recv now p => InTurn (imepAck now p.saddr) (AckClean p.saddr) (s.imepSetLinkInStatus now p.saddr) p.acks
  | .beaconTimer now => InTurn (purgeOne now) (PurgeClean now) s (s.links.map Link.index)
  | .rexmitTimer _ => ∀ e ∈ s.rexmitq.head?, e.rexmitsLeft = 0 → s.LastOnly e
  | .undeliverable inet nextHop => inet = true → s.DownClean nextHop
  | _ => True

instance (s : Agent π) : ∀ e, Decidable (Issued s e)
  | .aggregateObject _ found => inferInstanceAs (Decidable (s.NewList found))
  | .recv _ _ | .beaconTimer _ | .rexmitTimer _ | .incomingTimer _ | .undeliverable _ _ =>
    inferInstanceAs (Decidable True)

instance (s : Agent π) : ∀ e, Decidable (StaleFree s e)
  | .recv now p =>
    inferInstanceAs (Decidable (InTurn (imepAck now p.saddr) (AckClean p.saddr) (s.imepSetLinkInStatus now p.saddr) p.acks))
  | .beaconTimer now => inferInstanceAs (Decidable (InTurn (purgeOne now) (PurgeClean now) s (s.links.map Link.index)))
  | .rexmitTimer _ => inferInstanceAs (Decidable (∀ e ∈ s.rexmitq.head?, e.rexmitsLeft = 0 → s.LastOnly e))
  | .undeliverable inet nextHop => inferInstanceAs (Decidable (inet = true → s.DownClean nextHop))
  | .aggregateObject _ _ | .incomingTimer _ => inferInstanceAs (Decidable True)

lemma step_awaited {e : Event π} {o : Unit} (h : Awaited s) (hP : Issued s e ∧ StaleFree s e)
    (hs : s.step e = some (s', o)) : Awaited s' := by
  cases e with
  | recv now p =>
    obtain ⟨rfl, -⟩ := Prod.mk.inj (Option.some.inj hs)
    exact awaited_recv h hP.2
  | aggregateObject now found =>
    have hn := step_numbered h.numbered hs
    obtain ⟨rfl, -⟩ := Prod.mk.inj (Option.some.inj hs)
    exact awaited_aggregate h hP.1 hn
  | beaconTimer now =>
    obtain ⟨rfl, -⟩ := Prod.mk.inj (Option.some.inj hs)
    exact awaited_beacon h hP.2
  | rexmitTimer now =>
    obtain ⟨rfl, -⟩ := Prod.mk.inj (Option.some.inj hs)
    cases hq : s.rexmitq with
    | nil =>
      unfold handlerReXmitTimer
      rw [hq]
      exact h
    | cons e es =>
      by_cases hleft : e.rexmitsLeft = 0
      · exact (exhausted_spec h hq hleft (hP.2 e (by rw [hq]; rfl) hleft)).1
      · exact awaited_again h hq hleft
  | incomingTimer now =>
    obtain ⟨t, ht, he⟩ := Option.map_eq_some_iff.mp hs
    obtain ⟨rfl, -⟩ := Prod.mk.inj he
    exact h.more (sameLinks_incoming ht).more
  | undeliverable inet nextHop =>
    obtain ⟨rfl, -⟩ := Prod.mk.inj (Option.some.inj hs)
    unfold imepPacketUndeliverable
    split_ifs with hinet
    · exact awaited_down h (hP.2 hinet)
    · exact h

lemma step_givesUp {e : Event π} (h : Awaited s) (hP : Issued s e ∧ StaleFree s e) : GivesUp s e := by
  cases e with
  | rexmitTimer now =>
    intro e he hleft
    obtain ⟨es, hq⟩ := List.head?_eq_some_iff.mp he
    exact (exhausted_spec h hq hleft (hP.2 e he hleft)).2
  | _ => trivial

/-- Two neighbours, and an object for both. -/
def objectForTwo : List (Event ℕ) :=
  [.recv 0 { saddr := 2 }, .recv 0 { saddr := 2, hellos := [1] }, .recv 0 { saddr := 3 },
    .recv 0 { saddr := 3, hellos := [1] }, .aggregateObject 0 fun l i => l.getD i 0]

end Agent
end NetworkSimulator.Imep
