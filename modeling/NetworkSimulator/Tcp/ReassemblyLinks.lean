import Mathlib.Data.List.Perm.Subperm
import NetworkSimulator.Tcp.ReassemblyQueue

/-!
# The two lists of the reassembly queue

`Shape` says which blocks stand on the FIFO, on the LIFO and in the cache. Every operation on the
links is given its effect on these three lists; none of them touches what the blocks say.
-/

namespace NetworkSimulator
open Library

/-- The FIFO, the LIFO and the cache of free blocks, as lists of names. -/
structure Shape (s : SegLinks) (fifo lifo free : List ℕ) : Prop where
  onFifo : DList s.next s.prev s.head s.tail fifo
  onLifo : DList s.snext s.sprev s.top s.bottom lifo
  cached : Chain s.next s.freelist free
  cached_nodup : free.Nodup
  cached_unused : ∀ a ∈ free, a ∉ fifo ∧ a ∉ lifo
  lt_fresh : ∀ a, a ∈ fifo ∨ a ∈ lifo ∨ a ∈ free → a < s.fresh

namespace ReassemblyQueue
variable {s : ReassemblyQueue} {p n : ℕ} {l r fifo lifo free : List ℕ}

lemma fremove_eq (h : s.prev p ≠ some p) : s.fremove p =
    { s with
      hint := if s.hint = some p then none else s.hint
      next := setAt s.next (s.prev p) (s.next p)
      prev := setAt s.prev (s.next p) (s.prev p)
      head := if (s.prev p).isSome then s.head else s.next p
      tail := if (s.next p).isSome then s.tail else s.prev p } := by
  unfold fremove
  cases hp : s.prev p with
  | none => cases hn : s.next p <;> by_cases hh : s.hint = some p <;> simp [hp, hn, hh, setAt]
  | some a =>
    have hpa : p ≠ a := fun hpa => h (by rw [hp, hpa])
    cases hn : s.next p <;> by_cases hh : s.hint = some p <;>
      simp [hp, hn, hh, setAt, Function.update_of_ne hpa]

lemma sremove_eq (h : s.sprev p ≠ some p) : s.sremove p =
    { s with
      hint := if s.hint = some p then none else s.hint
      snext := setAt s.snext (s.sprev p) (s.snext p)
      sprev := setAt s.sprev (s.snext p) (s.sprev p)
      top := if (s.sprev p).isSome then s.top else s.snext p
      bottom := if (s.snext p).isSome then s.bottom else s.sprev p } := by
  unfold sremove
  cases hp : s.sprev p with
  | none => cases hn : s.snext p <;> by_cases hh : s.hint = some p <;> simp [hp, hn, hh, setAt]
  | some a =>
    have hpa : p ≠ a := fun hpa => h (by rw [hp, hpa])
    cases hn : s.snext p <;> by_cases hh : s.hint = some p <;>
      simp [hp, hn, hh, setAt, Function.update_of_ne hpa]

@[simp] lemma fremove_fresh : (s.fremove p).fresh = s.fresh := by
  grind [fremove]

@[simp] lemma sremove_fresh : (s.sremove p).fresh = s.fresh := by
  grind [sremove]

@[simp] lemma push_fresh : (s.push p).fresh = s.fresh := by
  grind [push]

@[simp] lemma push_next : (s.push p).next = s.next := by
  grind [push]

@[simp] lemma push_prev : (s.push p).prev = s.prev := by
  grind [push]

@[simp] lemma deleteseginfo_fresh : (s.deleteseginfo n).fresh = s.fresh := rfl

lemma fremove_spec (h : Shape s.toSegLinks (l ++ p :: r) lifo free) :
    Shape (s.fremove p).toSegLinks (l ++ r) lifo free ∧
      (s.fremove p).toSegData = s.toSegData := by
  have hprev := h.onFifo.prev_eq
  have hnext := h.onFifo.next_eq
  have hne : s.prev p ≠ some p := by
    rw [hprev]
    intro hlast
    have := h.onFifo.nodup
    exact (List.nodup_append.mp this).2.2 p (List.mem_of_getLast? hlast) p (by simp) rfl
  have hsub : ∀ a, a ∈ l ++ r → a ∈ l ++ p :: r := fun a ha => by simp at ha ⊢; tauto
  rw [fremove_eq hne]
  refine ⟨⟨h.onFifo.unlink, h.onLifo, h.cached.congr fun y hy => ?_, h.cached_nodup, ?_, ?_⟩, rfl⟩
  · refine setAt_of_ne fun hy' => ?_
    rw [hprev] at hy'
    exact (h.cached_unused y hy).1 (by simp [List.mem_of_getLast? hy'])
  · exact fun a ha => ⟨fun hmem => (h.cached_unused a ha).1 (hsub a hmem), (h.cached_unused a ha).2⟩
  · rintro a (ha | ha)
    · exact h.lt_fresh a (Or.inl (hsub a ha))
    · exact h.lt_fresh a (Or.inr ha)

lemma sremove_spec (h : Shape s.toSegLinks fifo lifo free) (hp : p ∈ lifo) :
    Shape (s.sremove p).toSegLinks fifo (lifo.erase p) free ∧
      (s.sremove p).toSegData = s.toSegData := by
  obtain ⟨l, r, rfl⟩ := List.append_of_mem hp
  have hnodup := h.onLifo.nodup
  have hpl : p ∉ l := fun hmem => (List.nodup_append.mp hnodup).2.2 p hmem p (by simp) rfl
  have hne : s.sprev p ≠ some p := by
    rw [h.onLifo.prev_eq]
    exact fun hlast => hpl (List.mem_of_getLast? hlast)
  have hsub : ∀ a, a ∈ l ++ r → a ∈ l ++ p :: r := fun a ha => by simp at ha ⊢; tauto
  rw [sremove_eq hne, List.erase_append_right _ hpl, List.erase_cons_head]
  refine ⟨⟨h.onFifo, h.onLifo.unlink, h.cached, h.cached_nodup, ?_, ?_⟩, rfl⟩
  · exact fun a ha => ⟨(h.cached_unused a ha).1, fun hmem => (h.cached_unused a ha).2 (hsub a hmem)⟩
  · rintro a (ha | ha | ha)
    · exact h.lt_fresh a (Or.inl ha)
    · exact h.lt_fresh a (Or.inr (Or.inl (hsub a ha)))
    · exact h.lt_fresh a (Or.inr (Or.inr ha))

lemma deleteseginfo_spec (h : Shape s.toSegLinks fifo lifo free) (hf : n ∉ fifo) (hl : n ∉ lifo)
    (hc : n ∉ free) (hn : n < s.fresh) :
    Shape (s.deleteseginfo n).toSegLinks fifo lifo (n :: free) ∧
      (s.deleteseginfo n).toSegData = s.toSegData := by
  have hof : ∀ ys : List ℕ, n ∉ ys → ∀ y ∈ ys, Function.update s.next n s.freelist y = s.next y := by
    intro ys hys y hy
    refine Function.update_of_ne ?_ _ _
    rintro rfl
    exact hys hy
  refine ⟨⟨h.onFifo.congr (hof fifo hf) fun _ _ => rfl, h.onLifo, ⟨rfl, ?_⟩,
    List.nodup_cons.mpr ⟨hc, h.cached_nodup⟩, ?_, ?_⟩, rfl⟩
  · have hself : (s.deleteseginfo n).next n = s.freelist := Function.update_self _ _ _
    rw [hself]
    exact h.cached.congr (hof free hc)
  · intro a ha
    rcases List.mem_cons.mp ha with rfl | ha
    · exact ⟨hf, hl⟩
    · exact h.cached_unused a ha
  · rintro a (ha | ha | ha)
    · exact h.lt_fresh a (Or.inl ha)
    · exact h.lt_fresh a (Or.inr (Or.inl ha))
    · rcases List.mem_cons.mp ha with rfl | ha
      · exact hn
      · exact h.lt_fresh a (Or.inr (Or.inr ha))

lemma newseginfo_spec (h : Shape s.toSegLinks fifo lifo free) :
    ∃ n s' free', s.newseginfo = (n, s') ∧ n ∉ fifo ∧ n ∉ lifo ∧ n ∉ free' ∧ n < s'.fresh ∧
      Shape s'.toSegLinks fifo lifo free' ∧ s'.toSegData = s.toSegData := by
  unfold newseginfo
  cases free with
  | nil =>
    have hfree : s.freelist = none := h.cached
    rw [hfree]
    refine ⟨s.fresh, _, [], rfl, ?_, ?_, by simp, Nat.lt_succ_self _,
      ⟨h.onFifo, h.onLifo, rfl, List.nodup_nil, by simp, ?_⟩, rfl⟩
    · exact fun hmem => Nat.lt_irrefl _ (h.lt_fresh _ (Or.inl hmem))
    · exact fun hmem => Nat.lt_irrefl _ (h.lt_fresh _ (Or.inr (Or.inl hmem)))
    · exact fun a ha => Nat.lt_succ_of_lt (h.lt_fresh a ha)
  | cons n free =>
    obtain ⟨hfree, hchain⟩ := h.cached
    rw [hfree]
    obtain ⟨hnf, hnodup⟩ := List.nodup_cons.mp h.cached_nodup
    obtain ⟨hf, hl⟩ := h.cached_unused n (by simp)
    refine ⟨n, _, free, rfl, hf, hl, hnf, h.lt_fresh n (by simp),
      ⟨h.onFifo, h.onLifo, hchain, hnodup, fun a ha => h.cached_unused a (by simp [ha]), ?_⟩, rfl⟩
    rintro a (ha | ha | ha)
    · exact h.lt_fresh a (Or.inl ha)
    · exact h.lt_fresh a (Or.inr (Or.inl ha))
    · exact h.lt_fresh a (by simp [ha])

lemma push_spec (h : Shape s.toSegLinks fifo lifo free) (hn : n ∉ lifo) (hc : n ∉ free)
    (hlt : n < s.fresh) :
    Shape (s.push n).toSegLinks fifo (n :: lifo) free ∧ (s.push n).toSegData = s.toSegData := by
  have heq : s.push n = { s with
      snext := Function.update s.snext n s.top
      sprev := setAt (Function.update s.sprev n none) s.top (some n)
      top := some n
      bottom := if s.top.isSome then s.bottom else some n } := by
    unfold push
    cases ht : s.top <;> simp [setAt]
  have hlink : DList (Function.update s.snext n s.top)
      (setAt (Function.update s.sprev n none) s.top (some n)) (some n)
      (if s.top.isSome then s.bottom else some n) (n :: lifo) := by
    have hof : ∀ (f : ℕ → Option ℕ) v, ∀ y ∈ lifo, Function.update f n v y = f y := by
      intro f v y hy
      refine Function.update_of_ne ?_ _ _
      rintro rfl
      exact hn hy
    have hset := h.onLifo.congr (hof s.snext s.top) (hof s.sprev none)
    have hpush := DList.link (l := []) (x := n) hset hn
      (by rw [Function.update_self, h.onLifo.head_eq]) (Function.update_self _ _ _)
    rw [← h.onLifo.head_eq] at hpush
    exact hpush
  rw [heq]
  refine ⟨⟨h.onFifo, hlink, h.cached, h.cached_nodup, fun a ha => ⟨(h.cached_unused a ha).1, ?_⟩, ?_⟩,
    rfl⟩
  · intro hmem
    rcases List.mem_cons.mp hmem with rfl | hmem
    · exact hc ha
    · exact (h.cached_unused a ha).2 hmem
  · rintro a (ha | ha | ha)
    · exact h.lt_fresh a (Or.inl ha)
    · rcases List.mem_cons.mp ha with rfl | ha
      · exact hlt
      · exact h.lt_fresh a (Or.inr (Or.inl ha))
    · exact h.lt_fresh a (Or.inr (Or.inr ha))

/-- Unlink a block from both lists. -/
lemma unlink_spec (h : Shape s.toSegLinks (l ++ p :: r) lifo free) (hp : p ∈ lifo) :
    Shape ((s.sremove p).fremove p).toSegLinks (l ++ r) (lifo.erase p) free ∧
      ((s.sremove p).fremove p).toSegData = s.toSegData := by
  obtain ⟨h₁, hd₁⟩ := sremove_spec h hp
  obtain ⟨h₂, hd₂⟩ := fremove_spec h₁
  exact ⟨h₂, hd₂.trans hd₁⟩

lemma unlink_spec' (h : Shape s.toSegLinks (l ++ p :: r) lifo free) (hp : p ∈ lifo) :
    Shape ((s.fremove p).sremove p).toSegLinks (l ++ r) (lifo.erase p) free ∧
      ((s.fremove p).sremove p).toSegData = s.toSegData := by
  obtain ⟨h₁, hd₁⟩ := fremove_spec h
  obtain ⟨h₂, hd₂⟩ := sremove_spec h₁ hp
  exact ⟨h₂, hd₂.trans hd₁⟩

/-- What is needed to give an unlinked block back to the cache. -/
lemma unlinked (h : Shape s.toSegLinks (l ++ p :: r) lifo free) :
    p ∉ l ++ r ∧ p ∉ lifo.erase p ∧ p ∉ free ∧ p < s.fresh :=
  ⟨(List.nodup_cons.mp (List.nodup_middle.mp h.onFifo.nodup)).1,
    List.Nodup.not_mem_erase h.onLifo.nodup, fun hmem => (h.cached_unused p hmem).1 (by simp),
    h.lt_fresh p (by simp)⟩

/-- Both unlinkings and the return to the cache, in the order of `clearto`. -/
lemma remove_spec (h : Shape s.toSegLinks (l ++ p :: r) lifo free) (hp : p ∈ lifo) :
    Shape (((s.sremove p).fremove p).deleteseginfo p).toSegLinks (l ++ r) (lifo.erase p)
        (p :: free) ∧
      (((s.sremove p).fremove p).deleteseginfo p).toSegData = s.toSegData := by
  obtain ⟨hf, hl, hc, hlt⟩ := unlinked h
  obtain ⟨hs, hd⟩ := unlink_spec h hp
  obtain ⟨hs', hd'⟩ := deleteseginfo_spec hs hf hl hc (by simpa using hlt)
  exact ⟨hs', hd'.trans hd⟩

/-- Both unlinkings and the return to the cache, in the order of `add`. -/
lemma remove_spec' (h : Shape s.toSegLinks (l ++ p :: r) lifo free) (hp : p ∈ lifo) :
    Shape (((s.fremove p).sremove p).deleteseginfo p).toSegLinks (l ++ r) (lifo.erase p)
        (p :: free) ∧
      (((s.fremove p).sremove p).deleteseginfo p).toSegData = s.toSegData := by
  obtain ⟨hf, hl, hc, hlt⟩ := unlinked h
  obtain ⟨hs, hd⟩ := unlink_spec' h hp
  obtain ⟨hs', hd'⟩ := deleteseginfo_spec hs hf hl hc (by simpa using hlt)
  exact ⟨hs', hd'.trans hd⟩

lemma length_le_fresh (h : Shape s.toSegLinks fifo lifo free) : fifo.length ≤ s.fresh := by
  have hsub : fifo ⊆ List.range s.fresh := fun a ha =>
    List.mem_range.mpr (h.lt_fresh a (Or.inl ha))
  simpa using (List.subperm_of_subset h.onFifo.nodup hsub).length_le

lemma length_lifo_le_fresh (h : Shape s.toSegLinks fifo lifo free) : lifo.length ≤ s.fresh := by
  have hsub : lifo ⊆ List.range s.fresh := fun a ha =>
    List.mem_range.mpr (h.lt_fresh a (Or.inr (Or.inl ha)))
  simpa using (List.subperm_of_subset h.onLifo.nodup hsub).length_le

/-- A new block is tied to its neighbours, its own links being set. -/
lemma linkFifo_spec (h : Shape s.toSegLinks (l ++ r) lifo free) (hn : n ∉ l ++ r) (hc : n ∉ free)
    (hlt : n < s.fresh) (hnext : s.next n = r.head?) (hprev : s.prev n = l.getLast?) :
    Shape (s.linkFifo l.getLast? n r.head?).toSegLinks (l ++ n :: r) lifo free ∧
      (s.linkFifo l.getLast? n r.head?).toSegData = s.toSegData := by
  have heq : s.linkFifo l.getLast? n r.head? = { s with
      next := setAt s.next l.getLast? (some n)
      prev := setAt s.prev r.head? (some n)
      head := if l.getLast?.isSome then s.head else some n
      tail := if r.head?.isSome then s.tail else some n } := by
    unfold linkFifo
    cases l.getLast? <;> cases r.head? <;> rfl
  rw [heq]
  refine ⟨⟨h.onFifo.link hn hnext hprev, h.onLifo, h.cached.congr fun y hy => ?_, h.cached_nodup,
    fun a ha => ⟨fun hmem => ?_, (h.cached_unused a ha).2⟩, ?_⟩, rfl⟩
  · refine setAt_of_ne fun hy' => ?_
    exact (h.cached_unused y hy).1 (by simp [List.mem_of_getLast? hy'])
  · rcases List.mem_cons.mp (List.perm_middle.mem_iff.mp hmem) with rfl | hmem
    · exact hc ha
    · exact (h.cached_unused a ha).1 hmem
  · rintro a (ha | ha)
    · rcases List.mem_cons.mp (List.perm_middle.mem_iff.mp ha) with rfl | ha
      · exact hlt
      · exact h.lt_fresh a (Or.inl ha)
    · exact h.lt_fresh a (Or.inr ha)

end ReassemblyQueue

end NetworkSimulator
