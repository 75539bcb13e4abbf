import Mathlib.Data.List.Perm.Basic
import NetworkSimulator.Imep.Links

/-!
# Response lists on the retransmission queue

Taking an address that is on a response list off it leaves the rest of the list, in some order. For an
address that is not on the list the word behind the list decides.
-/

namespace NetworkSimulator.Imep

namespace Rexent

variable {e e' : Rexent} {index : ℤ}

/-- The addresses that a packet waits for. -/
def list (e : Rexent) : List ℤ := (List.range e.numResponses).map e.response

@[simp] lemma length_list : e.list.length = e.numResponses := by simp [list]

lemma mem_list : index ∈ e.list ↔ ∃ i < e.numResponses, e.response i = index := by simp [list]

lemma search_of_mem (h : index ∈ e.list) :
    e.search index < e.numResponses ∧ e.response (e.search index) = index := by
  unfold search
  cases hf : (List.range e.numResponses).find? fun i => e.response i = index with
  | none =>
    obtain ⟨i, hi, he⟩ := mem_list.mp h
    have hno := List.find?_eq_none.mp hf i (List.mem_range.mpr hi)
    exact absurd he (by simpa using hno)
  | some i =>
    have hi := List.mem_of_find?_eq_some hf
    have he := List.find?_some hf
    exact ⟨List.mem_range.mp hi, of_decide_eq_true he⟩

lemma search_of_not_mem (h : index ∉ e.list) : e.search index = e.numResponses := by
  unfold search
  cases hf : (List.range e.numResponses).find? fun i => e.response i = index with
  | none => rfl
  | some i =>
    have hi := List.mem_of_find?_eq_some hf
    have he := List.find?_some hf
    exact absurd (mem_list.mpr ⟨i, List.mem_range.mp hi, of_decide_eq_true he⟩) h

/-- A list in which one word has been overwritten by the last one. -/
lemma swap_perm (r : ℕ → ℤ) {i n : ℕ} (hi : i ≤ n) :
    List.Perm (r i :: (List.range n).map (Function.update r i (r n))) ((List.range (n + 1)).map r) := by
  rw [List.range_succ, List.map_append, List.map_singleton]
  rcases hi.eq_or_lt with rfl | hlt
  · have hsame : (List.range i).map (Function.update r i (r i)) = (List.range i).map r := by
      rw [Function.update_eq_self]
    rw [hsame]
    exact (List.perm_append_singleton _ _).symm
  · have hset : (List.range n).map (Function.update r i (r n)) = ((List.range n).map r).set i (r n) := by
      refine List.ext_getElem (by simp) fun k h₁ h₂ => ?_
      rw [List.getElem_set, List.getElem_map, List.getElem_range, List.getElem_map, List.getElem_range,
        Function.update_apply]
      exact if_congr eq_comm rfl rfl
    have hlen : i < ((List.range n).map r).length := by simpa using hlt
    have herase : List.Perm (r i :: ((List.range n).map r).eraseIdx i) ((List.range n).map r) := by
      have h := List.getElem_cons_eraseIdx_perm hlen
      rwa [List.getElem_map, List.getElem_range] at h
    rw [hset]
    calc List.Perm (r i :: ((List.range n).map r).set i (r n))
          (r i :: r n :: ((List.range n).map r).eraseIdx i) :=
        (List.set_perm_cons_eraseIdx hlen _).cons _
      List.Perm _ (r n :: r i :: ((List.range n).map r).eraseIdx i) := List.Perm.swap _ _ _
      List.Perm _ (r n :: (List.range n).map r) := herase.cons _
      List.Perm _ ((List.range n).map r ++ [r n]) := (List.perm_append_singleton _ _).symm

lemma removeResponse_eq_none_of_mem (h : index ∈ e.list) :
    e.removeResponse index = none ↔ e.numResponses = 1 := by
  have hs := (search_of_mem h).2
  unfold removeResponse
  rw [if_neg (not_not.mpr hs)]
  split_ifs with h₁
  · simp [h₁]
  · simp [h₁]

/-- An address on the list is taken off it. -/
lemma removeResponse_of_mem (h : index ∈ e.list) (h' : e.removeResponse index = some e') :
    List.Perm (index :: e'.list) e.list := by
  obtain ⟨hlt, hs⟩ := search_of_mem h
  unfold removeResponse at h'
  rw [if_neg (not_not.mpr hs)] at h'
  split_ifs at h' with h₁
  obtain rfl := Option.some.inj h'
  obtain ⟨n, hn⟩ : ∃ n, e.numResponses = n + 1 := ⟨e.numResponses - 1, by have := e.responses_pos; omega⟩
  have hperm := swap_perm e.response (show e.search index ≤ n by omega)
  rw [hs] at hperm
  simpa [list, hn] using hperm

lemma removeResponse_of_not_mem (h : index ∉ e.list) (hb : e.response e.numResponses ≠ index) :
    e.removeResponse index = some e := by
  unfold removeResponse
  rw [search_of_not_mem h, if_pos hb]

/-- An address that is on the list or in the word behind it. -/
lemma removeResponse_stale (h : index ∉ e.list) (hb : e.response e.numResponses = index)
    (h' : e.removeResponse index = some e') : List.Perm (e.response (e.numResponses - 1) :: e'.list) e.list := by
  unfold removeResponse at h'
  rw [search_of_not_mem h, if_neg (not_not.mpr hb)] at h'
  split_ifs at h' with h₁
  obtain rfl := Option.some.inj h'
  obtain ⟨n, hn⟩ : ∃ n, e.numResponses = n + 1 := ⟨e.numResponses - 1, by have := e.responses_pos; omega⟩
  have hfront : (List.range n).map (Function.update e.response (n + 1) (e.response n)) =
      (List.range n).map e.response := by
    refine List.map_congr_left fun i hi => Function.update_of_ne ?_ _ _
    have := List.mem_range.mp hi
    omega
  simp only [list, hn, Nat.add_sub_cancel, hfront, List.range_succ, List.map_append, List.map_singleton]
  exact (List.perm_append_singleton _ _).symm

/-- What a removal leaves of the other fields. -/
lemma removeResponse_frame (h : e.removeResponse index = some e') :
    e'.id = e.id ∧ e'.sequence = e.sequence ∧ e'.rexmitsLeft = e.rexmitsLeft ∧ e'.rexmitAt = e.rexmitAt := by
  unfold removeResponse at h
  split_ifs at h
  all_goals
    obtain rfl := Option.some.inj h
    exact ⟨rfl, rfl, rfl, rfl⟩

/-- A removal never adds to the list, and the address is not on what it leaves. -/
lemma removeResponse_sub (hd : e.list.Nodup) (h : e.removeResponse index = some e') :
    e'.list.Nodup ∧ (∀ x ∈ e'.list, x ∈ e.list) ∧ index ∉ e'.list := by
  by_cases hm : index ∈ e.list
  · have hp := removeResponse_of_mem hm h
    have hn := hp.nodup_iff.mpr hd
    exact ⟨hn.of_cons, fun x hx => hp.subset (List.mem_cons_of_mem _ hx), (List.nodup_cons.mp hn).1⟩
  · by_cases hb : e.response e.numResponses = index
    · have hp := removeResponse_stale hm hb h
      have hn := hp.nodup_iff.mpr hd
      exact ⟨hn.of_cons, fun x hx => hp.subset (List.mem_cons_of_mem _ hx),
        fun hx => hm (hp.subset (List.mem_cons_of_mem _ hx))⟩
    · obtain rfl := Option.some.inj ((removeResponse_of_not_mem hm hb).symm.trans h)
      exact ⟨hd, fun _ hx => hx, hm⟩

end Rexent

/-! ### The packets on the queue -/

namespace Agent

variable {π : Type*} {s s' : Agent π} {y : ℤ} {now : ℚ} {id : ℕ}

/-- No packet is on the queue twice, and none has a number that is still to come. -/
structure Numbered (s : Agent π) : Prop where
  nodup : (s.rexmitq.map Rexent.id).Nodup
  le : ∀ e ∈ s.rexmitq, e.id ≤ s.controlSequence

/-- A packet is found where it was found before, unless it has been taken off. -/
lemma find?_filterMap {q : List Rexent} (hd : (q.map Rexent.id).Nodup) {g : Rexent → Option Rexent}
    (hg : ∀ e e', g e = some e' → e'.id = e.id) :
    ((q.filterMap g).find? fun e => e.id = id) = (q.find? fun e => e.id = id).bind g := by
  induction q with
  | nil => rfl
  | cons e q ih =>
    rw [List.map_cons, List.nodup_cons] at hd
    by_cases he : e.id = id
    · rw [List.find?_cons_of_pos (by simpa using he)]
      cases hge : g e with
      | none =>
        rw [List.filterMap_cons_none hge, ih hd.2, Option.bind_some, hge]
        have hno : (q.find? fun e => e.id = id) = none := by
          rw [List.find?_eq_none]
          intro e' he' heq
          exact hd.1 (List.mem_map.mpr ⟨e', he', (of_decide_eq_true heq).trans he.symm⟩)
        rw [hno]
        rfl
      | some e' =>
        rw [List.filterMap_cons_some hge, List.find?_cons_of_pos (by simp [hg e e' hge, he]), Option.bind_some, hge]
    · rw [List.find?_cons_of_neg (by simpa using he), ← ih hd.2]
      cases hge : g e with
      | none => rw [List.filterMap_cons_none hge]
      | some e' => rw [List.filterMap_cons_some hge, List.find?_cons_of_neg (by simp [hg e e' hge, he])]

lemma map_id_filterMap {q : List Rexent} {g : Rexent → Option Rexent} (hg : ∀ e e', g e = some e' → e'.id = e.id) :
    ((q.filterMap g).map Rexent.id).Sublist (q.map Rexent.id) := by
  induction q with
  | nil => exact List.Sublist.refl _
  | cons e q ih =>
    cases hge : g e with
    | none =>
      rw [List.filterMap_cons_none hge]
      exact ih.cons _
    | some e' =>
      rw [List.filterMap_cons_some hge, List.map_cons, List.map_cons, hg e e' hge]
      exact ih.cons_cons _

lemma Numbered.filterMap (h : Numbered s) {g : Rexent → Option Rexent}
    (hg : ∀ e e', g e = some e' → e'.id = e.id) (hq : s'.rexmitq = s.rexmitq.filterMap g)
    (hc : s'.controlSequence = s.controlSequence) : Numbered s' := by
  refine ⟨?_, fun e he => ?_⟩
  · rw [hq]
    exact h.nodup.sublist (map_id_filterMap hg)
  · rw [hq] at he
    obtain ⟨e₀, he₀, hge⟩ := List.mem_filterMap.mp he
    rw [hg e₀ e hge, hc]
    exact h.le e₀ he₀

lemma Numbered.congr (h : Numbered s) (hq : s'.rexmitq = s.rexmitq)
    (hc : s'.controlSequence = s.controlSequence) : Numbered s' := by
  refine ⟨by rw [hq]; exact h.nodup, fun e he => ?_⟩
  rw [hq] at he
  rw [hc]
  exact h.le e he

lemma insertRexent_perm (e : Rexent) (q : List Rexent) : List.Perm (insertRexent e q) (e :: q) := by
  induction q with
  | nil => exact List.Perm.refl _
  | cons i q ih =>
    unfold insertRexent
    split_ifs
    · exact List.Perm.refl _
    · exact (ih.cons i).trans (List.Perm.swap _ _ _)

end Agent
end NetworkSimulator.Imep
