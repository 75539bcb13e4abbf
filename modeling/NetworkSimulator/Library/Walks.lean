import Mathlib.Algebra.Order.Monoid.Defs
import Mathlib.Algebra.Order.Monoid.Unbundled.Basic
import Mathlib.Data.Finset.Card
import Mathlib.Order.Bounds.Basic
import Mathlib.Tactic.Abel

/-!
# Walks of least cost

A directed graph with costs is a relation `E u v c`, so that parallel edges are allowed. The rules
here are the ones that a proof of Dijkstra's algorithm uses: a walk leaves a settled set by an edge,
the nearest node behind such an edge is at its least cost, and next hops taken from least-cost walks
lead to the target.
-/

namespace NetworkSimulator.Library
variable {V R : Type*}

/-- There is a walk from `u` to `v` of cost `c`. -/
inductive Walk [AddMonoid R] (E : V → V → R → Prop) : V → V → R → Prop
  | nil (u : V) : Walk E u u 0
  | cons {u v w : V} {c d : R} : E u v c → Walk E v w d → Walk E u w (c + d)

/-- The least cost of the walks from `u` to `v`. -/
def IsDist [AddMonoid R] [LE R] (E : V → V → R → Prop) (u v : V) (c : R) : Prop :=
  IsLeast {c | Walk E u v c} c

/-- A walk from `u` to `v` of cost `c` goes to `h` first. -/
def Starts [AddMonoid R] (E : V → V → R → Prop) (u v h : V) (c : R) : Prop :=
  ∃ a b, E u h a ∧ Walk E h v b ∧ a + b = c

/-- A walk from `u` to `v` of least cost goes to `h` first. -/
def FirstHop [AddMonoid R] [LE R] (E : V → V → R → Prop) (u v h : V) : Prop :=
  ∃ c, IsDist E u v c ∧ Starts E u v h c

lemma IsDist.unique [AddMonoid R] [PartialOrder R] {E : V → V → R → Prop} {u v : V} {c d : R}
    (hc : IsDist E u v c) (hd : IsDist E u v d) : c = d :=
  IsLeast.unique hc hd

section Monoid
variable [AddMonoid R] {E F : V → V → R → Prop} {u v w x h : V} {a b c d e : R}

lemma Walk.edge (he : E u v c) : Walk E u v c :=
  add_zero c ▸ .cons he (.nil v)

lemma Walk.append (hp : Walk E u v c) (hq : Walk E v w d) : Walk E u w (c + d) := by
  induction hp with
  | nil => rwa [zero_add]
  | cons he _ ih =>
    rw [add_assoc]
    exact .cons he (ih hq)

lemma Walk.snoc (hp : Walk E u v c) (he : E v w d) : Walk E u w (c + d) :=
  hp.append (.edge he)

lemma Walk.mono (hEF : ∀ u v c, E u v c → F u v c) (hp : Walk E u v c) : Walk F u v c := by
  induction hp with
  | nil => exact .nil _
  | cons he _ ih => exact .cons (hEF _ _ _ he) ih

/-- The first edge of a walk. -/
lemma Walk.first (hp : Walk E u v c) :
    (u = v ∧ c = 0) ∨ ∃ y a b, E u y a ∧ Walk E y v b ∧ a + b = c := by
  cases hp with
  | nil => exact Or.inl ⟨rfl, rfl⟩
  | cons he hp => exact Or.inr ⟨_, _, _, he, hp, rfl⟩

/-- The last edge of a walk. -/
lemma Walk.last (hp : Walk E u v c) :
    (u = v ∧ c = 0) ∨ ∃ x a e, Walk E u x a ∧ E x v e ∧ a + e = c := by
  induction hp with
  | nil => exact Or.inl ⟨rfl, rfl⟩
  | @cons u v w c d he hp ih =>
    right
    rcases ih with ⟨rfl, rfl⟩ | ⟨x, a, e, hx, hlast, rfl⟩
    · exact ⟨u, 0, c, .nil u, he, by rw [zero_add, add_zero]⟩
    · exact ⟨x, c + a, e, .cons he hx, hlast, add_assoc c a e⟩

/-- A walk out of a set leaves it by an edge. -/
lemma Walk.exits {S : V → Prop} (hp : Walk E u v c) (hu : S u) (hv : ¬S v) :
    ∃ x y a e b, S x ∧ ¬S y ∧ Walk E u x a ∧ E x y e ∧ Walk E y v b ∧ a + e + b = c := by
  induction hp with
  | nil => exact absurd hu hv
  | @cons u y w c d he hp ih =>
    by_cases hy : S y
    · obtain ⟨x, z, a, e, b, hx, hz, hleft, hedge, hright, rfl⟩ := ih hy hv
      exact ⟨x, z, c + a, e, b, hx, hz, .cons he hleft, hedge, hright, by simp only [add_assoc]⟩
    · exact ⟨u, y, 0, c, d, hu, hy, .nil u, he, hp, by rw [zero_add]⟩

lemma Starts.walk (hs : Starts E u v h c) : Walk E u v c := by
  obtain ⟨a, b, he, hp, rfl⟩ := hs
  exact .cons he hp

lemma Starts.edge (he : E u v c) : Starts E u v v c :=
  ⟨c, 0, he, .nil v, add_zero c⟩

lemma Starts.snoc (hs : Starts E u v h c) (he : E v w d) : Starts E u w h (c + d) := by
  obtain ⟨a, b, hfirst, hp, rfl⟩ := hs
  exact ⟨a, b + d, hfirst, hp.snoc he, (add_assoc a b d).symm⟩

/-- The last edge of a walk that goes to `h` first. -/
lemma Starts.last (hs : Starts E u v h c) :
    (h = v ∧ E u v c) ∨ ∃ x a e, Starts E u x h a ∧ E x v e ∧ a + e = c := by
  obtain ⟨a, b, hfirst, hp, rfl⟩ := hs
  rcases hp.last with ⟨rfl, rfl⟩ | ⟨x, d, e, hx, he, rfl⟩
  · exact Or.inl ⟨rfl, by rwa [add_zero]⟩
  · exact Or.inr ⟨x, a + d, e, ⟨a, d, hfirst, hx, rfl⟩, he, add_assoc a d e⟩

end Monoid

section Order
variable [AddCommMonoid R] [LinearOrder R] [IsOrderedCancelAddMonoid R]
variable {E : V → V → R → Prop} {s u v w x h : V} {a b c d e m : R}

lemma Walk.nonneg (hE : ∀ u v c, E u v c → 0 ≤ c) (hp : Walk E u v c) : 0 ≤ c := by
  induction hp with
  | nil => exact le_rfl
  | cons he _ ih => exact add_nonneg (hE _ _ _ he) ih

lemma Walk.pos (hE : ∀ u v c, E u v c → 0 < c) (hp : Walk E u v c) (huv : u ≠ v) : 0 < c := by
  cases hp with
  | nil => exact absurd rfl huv
  | cons he hp => exact add_pos_of_pos_of_nonneg (hE _ _ _ he) (hp.nonneg fun u v c h => (hE u v c h).le)

lemma Starts.pos (hE : ∀ u v c, E u v c → 0 < c) (hs : Starts E u v h c) : 0 < c := by
  obtain ⟨a, b, he, hp, rfl⟩ := hs
  exact add_pos_of_pos_of_nonneg (hE _ _ _ he) (hp.nonneg fun u v c h => (hE u v c h).le)

lemma isDist_self (hE : ∀ u v c, E u v c → 0 ≤ c) (u : V) : IsDist E u u 0 :=
  ⟨.nil u, fun _ hp => hp.nonneg hE⟩

/-- A walk is as long as its way to the first node outside the settled set. -/
lemma Walk.frontier_le {S : V → Prop} {dist : V → R} (hE : ∀ u v c, E u v c → 0 ≤ c)
    (hdist : ∀ x, S x → IsDist E s x (dist x)) (hs : S s) (hv : ¬S v) (hp : Walk E s v c) :
    ∃ x y e, S x ∧ ¬S y ∧ E x y e ∧ dist x + e ≤ c := by
  obtain ⟨x, y, a, e, b, hx, hy, hleft, he, hright, rfl⟩ := hp.exits hs hv
  have hle : dist x ≤ a := (hdist x hx).2 hleft
  have hb : 0 ≤ b := hright.nonneg hE
  exact ⟨x, y, e, hx, hy, he, le_add_of_le_of_nonneg (add_le_add_left hle e) hb⟩

/-- The node nearest to the settled set is at its least cost. -/
lemma isDist_of_nearest {S : V → Prop} {dist : V → R} (hE : ∀ u v c, E u v c → 0 ≤ c)
    (hdist : ∀ x, S x → IsDist E s x (dist x)) (hs : S s) (hv : ¬S v) (hp : Walk E s v m)
    (hmin : ∀ x y e, S x → ¬S y → E x y e → m ≤ dist x + e) : IsDist E s v m := by
  refine ⟨hp, fun c hc => ?_⟩
  obtain ⟨x, y, e, hx, hy, he, hle⟩ := Walk.frontier_le hE hdist hs hv hc
  exact (hmin x y e hx hy he).trans hle

/-- The way of a least-cost walk to its last edge is of least cost. -/
lemma IsDist.init (hd : IsDist E u v (a + e)) (hp : Walk E u x a) (he : E x v e) :
    IsDist E u x a :=
  ⟨hp, fun _ hc => le_of_add_le_add_right (hd.2 (Walk.snoc hc he))⟩

/-- The rest of a least-cost walk is of least cost. -/
lemma IsDist.tail (hd : IsDist E u v (a + b)) (he : E u h a) (hp : Walk E h v b) :
    IsDist E h v b :=
  ⟨hp, fun _ hc => le_of_add_le_add_left (hd.2 (Walk.cons he hc))⟩

/-- When each node hands over to one that is nearer to the target, by an edge that accounts for the
difference, the target is reached at the cost that the distances say. -/
lemma walk_of_next {f : V → V} {dist : V → R} {N : Finset V} (hE : ∀ u v c, E u v c → 0 < c)
    (ht : dist v = 0)
    (hnext : ∀ u ∈ N, u ≠ v → f u ∈ N ∧ ∃ c, E u (f u) c ∧ dist u = c + dist (f u))
    (hu : u ∈ N) : Walk (fun a b c => a ≠ v ∧ b = f a ∧ E a b c) u v (dist u) := by
  induction hk : (N.filter fun x => dist x < dist u).card using Nat.strong_induction_on
    generalizing u with
  | _ k ih =>
    by_cases huv : u = v
    · rw [huv, ht]
      exact .nil v
    · obtain ⟨hmem, c, he, hsum⟩ := hnext u hu huv
      have hlt : dist (f u) < dist u := hsum ▸ lt_add_of_pos_left _ (hE _ _ _ he)
      have hsub : (N.filter fun x => dist x < dist (f u)) ⊂ N.filter fun x => dist x < dist u := by
        refine Finset.ssubset_iff_subset_ne.mpr ⟨fun x hx => ?_, fun heq => ?_⟩
        · simp only [Finset.mem_filter] at hx ⊢
          exact ⟨hx.1, hx.2.trans hlt⟩
        · have hin : f u ∈ N.filter fun x => dist x < dist u := by
            simp only [Finset.mem_filter]
            exact ⟨hmem, hlt⟩
          rw [← heq, Finset.mem_filter] at hin
          exact lt_irrefl _ hin.2
      rw [hsum]
      exact .cons ⟨huv, rfl, he⟩ (ih _ (hk ▸ Finset.card_lt_card hsub) hmem rfl)

end Order

end NetworkSimulator.Library
