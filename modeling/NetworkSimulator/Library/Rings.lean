import NetworkSimulator.Library.Links
import Mathlib.Algebra.BigOperators.Group.Finset.Basic
import Mathlib.Algebra.Ring.Int.Defs
import Mathlib.Tactic.Ring

/-!
# Rings with a head

The links of a circular list with the node at which it is entered. A node joins behind all others, which is before the
head; a node that leaves has its neighbours tied to each other. `none` stands for a link that was never set.
-/

namespace NetworkSimulator.Library

variable {ι : Type*}

structure RingLinks (ι : Type*) where
  next : ι → Option ι
  prev : ι → Option ι
  head : Option ι

namespace RingLinks

def empty : RingLinks ι := ⟨fun _ => none, fun _ => none, none⟩

section
variable [DecidableEq ι] (k : RingLinks ι) (q : ι)

/-- The node `q` is put before the head. -/
def join : Option (RingLinks ι) :=
  match k.head with
  | some h =>
    (k.prev h).map fun p =>
      let k : RingLinks ι := { k with prev := Function.update k.prev q (some p), next := Function.update k.next q (some h) }
      { k with next := Function.update k.next p (some q), prev := Function.update k.prev h (some q) }
  | none => some ⟨Function.update k.next q (some q), Function.update k.prev q (some q), some q⟩

/-- The neighbours of `q` are tied to each other. -/
def unlink : Option (RingLinks ι) :=
  (k.next q).bind fun n =>
    let k : RingLinks ι := { k with prev := Function.update k.prev n (k.prev q) }
    (k.prev q).map fun p => { k with next := Function.update k.next p (k.next q) }

/-- The head `q` leaves, and the next node takes its place. -/
def leaveHead : Option (RingLinks ι) :=
  if k.next q = some q then some { k with head := none }
  else (k.unlink q).map fun k => { k with head := k.next q }

end

/-- The nodes `l` are linked in a ring that is entered at the head. -/
structure Holds (k : RingLinks ι) (l : List ι) : Prop where
  circle : Circle k.next k.prev l
  nodup : l.Nodup
  head : k.head = l.head?

lemma Holds.empty : Holds (empty : RingLinks ι) [] := ⟨trivial, List.nodup_nil, rfl⟩

variable [DecidableEq ι] {k : RingLinks ι} {q : ι} {l l₁ l₂ : List ι}

lemma Holds.join (h : k.Holds l) (hq : q ∉ l) : ∃ k', k.join q = some k' ∧ k'.Holds (l ++ [q]) := by
  unfold RingLinks.join
  rw [h.head]
  cases l with
  | nil =>
    refine ⟨_, rfl, ?_, List.nodup_singleton q, rfl⟩
    exact Circle.single (Function.update_self _ _ _) (Function.update_self _ _ _)
  | cons c l =>
    have hlast : k.prev c = (c :: l).getLast? := h.circle.prev_eq
    obtain ⟨p, hp⟩ := Option.ne_none_iff_exists'.mp (show (c :: l).getLast? ≠ none by simp)
    rw [hp] at hlast
    simp only [List.head?_cons, hlast, Option.map_some]
    refine ⟨_, rfl, ?_, ?_, rfl⟩
    · have hcircle : Circle (Function.update k.next q (some c)) (Function.update k.prev q (some p)) (c :: l) :=
        h.circle.congr (fun y hy => Function.update_of_ne (ne_of_mem_of_not_mem hy hq) _ _)
          fun y hy => Function.update_of_ne (ne_of_mem_of_not_mem hy hq) _ _
      have hins := hcircle.insert h.nodup (List.cons_ne_nil _ _) hq (Function.update_self _ _ _)
        (by rw [Function.update_self, hp])
      rw [hp] at hins
      exact hins
    · exact List.nodup_append.mpr ⟨h.nodup, List.nodup_singleton q, fun x hx y hy hxy =>
        hq (by rw [← List.mem_singleton.mp hy, ← hxy]; exact hx)⟩

/-- A node that is not alone has its neighbours tied; its own links stay. -/
lemma Holds.unlink (h : k.Holds (l₁ ++ q :: l₂)) (hne : l₂ ++ l₁ ≠ []) :
    ∃ nx pv, k.unlink q = some { k with next := nx, prev := pv } ∧ Circle nx pv (l₁ ++ l₂) ∧ (l₁ ++ l₂).Nodup ∧
      nx q = (l₂ ++ l₁).head? ∧ k.next q = (l₂ ++ l₁).head? := by
  have hring : Circle k.next k.prev (q :: (l₂ ++ l₁)) := h.circle.enter
  obtain ⟨hq, hnd⟩ := List.nodup_cons.mp ((List.perm_append_comm.nodup_iff).mp h.nodup)
  obtain ⟨n, hn⟩ := Option.ne_none_iff_exists'.mp (mt List.head?_eq_none_iff.mp hne)
  obtain ⟨p, hp⟩ := Option.ne_none_iff_exists'.mp (mt List.getLast?_eq_none_iff.mp hne)
  have hqn : q ≠ n := fun heq => hq (heq ▸ List.mem_of_head? hn)
  have hqp : q ≠ p := fun heq => hq (heq ▸ List.mem_of_getLast? hp)
  have hnext : k.next q = some n := by
    rw [hring.next_eq]
    exact congrArg (·.or (some q)) hn
  have hprev : k.prev q = some p := by
    rw [hring.prev_eq, List.getLast?_cons, hp]
    rfl
  refine ⟨Function.update k.next p (some n), Function.update k.prev n (some p), ?_, ?_, List.nodup_append_comm.mp hnd,
    ?_, ?_⟩
  · simp only [RingLinks.unlink, hnext, Option.bind_some, hprev, Function.update_of_ne hqn, Option.map_some]
  · have hrest := hring.remove hnd
    rw [hn, hp] at hrest
    exact Circle.enter hrest
  · rw [Function.update_of_ne hqp, hnext, hn]
  · rw [hnext, hn]

lemma Holds.leaveHead (h : k.Holds (q :: l)) : ∃ k', k.leaveHead q = some k' ∧ k'.Holds l := by
  unfold RingLinks.leaveHead
  cases l with
  | nil =>
    have hnext : k.next q = some q := h.circle.next_eq
    rw [if_pos hnext]
    exact ⟨_, rfl, trivial, List.nodup_nil, rfl⟩
  | cons c l =>
    have hentered : k.Holds ([] ++ q :: c :: l) := h
    obtain ⟨nx, pv, hunlink, hcircle, hnodup, hnx, hnext⟩ := hentered.unlink (by simp)
    have hqc : q ≠ c := fun heq => (List.nodup_cons.mp h.nodup).1 (heq ▸ List.mem_cons_self)
    rw [if_neg (fun heq => hqc (Option.some.inj (heq.symm.trans hnext))), hunlink]
    exact ⟨_, rfl, hcircle, hnodup, by simpa using hnx⟩

end RingLinks

/-! ### Totals over the nodes -/

section
variable {l l₁ l₂ : List ι} {q : ι} {f g : ι → ℤ}

/-- A total over nodes of which one has changed. -/
lemma sum_map_changed (hnd : (l₁ ++ q :: l₂).Nodup) (hother : ∀ x, x ≠ q → g x = f x) :
    ((l₁ ++ q :: l₂).map g).sum = ((l₁ ++ q :: l₂).map f).sum + (g q - f q) := by
  have hq₁ : q ∉ l₁ := fun hq => (List.disjoint_of_nodup_append hnd) hq List.mem_cons_self
  have hq₂ : q ∉ l₂ := (List.nodup_cons.mp hnd.of_append_right).1
  have h₁ : l₁.map g = l₁.map f := List.map_congr_left fun x hx => hother x (ne_of_mem_of_not_mem hx hq₁)
  have h₂ : l₂.map g = l₂.map f := List.map_congr_left fun x hx => hother x (ne_of_mem_of_not_mem hx hq₂)
  simp only [List.map_append, List.map_cons, List.sum_append, List.sum_cons, h₁, h₂]
  ring

/-- A total over the nodes of a ring is one over all nodes when the others count nothing. -/
lemma sum_map_eq_sum [DecidableEq ι] {all : Finset ι} (hnd : l.Nodup) (hall : ∀ x ∈ l, x ∈ all)
    (hzero : ∀ x, x ∉ l → f x = 0) : (l.map f).sum = ∑ x ∈ all, f x := by
  rw [← List.sum_toFinset f hnd]
  exact Finset.sum_subset (fun x hx => hall x (List.mem_toFinset.mp hx)) fun x _ hx =>
    hzero x (mt List.mem_toFinset.mpr hx)

end

end NetworkSimulator.Library
