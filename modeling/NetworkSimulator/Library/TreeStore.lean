import Mathlib.Logic.Function.Basic
import Mathlib.Data.List.Nodup
import Mathlib.Tactic.Common

/-!
# Binary trees in memory

Nodes are names, and the memory gives each location (the root, or a child field of a node) the
node it points to. `InOrder m d p xs` says that the links from `p` form a tree whose nodes, walked
with side `d` first, are `xs`; the shape of the tree is left open. A memory that agrees on the
nodes of a tree holds the same tree, so an update is followed by looking at the nodes alone.
-/

namespace NetworkSimulator.Library

inductive Side where
  | left
  | right
deriving DecidableEq, Repr

def Side.other : Side → Side
  | .left => .right
  | .right => .left

@[simp] lemma Side.other_left : Side.left.other = Side.right := rfl
@[simp] lemma Side.other_right : Side.right.other = Side.left := rfl
@[simp] lemma Side.other_other (d : Side) : d.other.other = d := by cases d <;> rfl
@[simp] lemma Side.other_ne (d : Side) : d.other ≠ d := by cases d <;> simp
@[simp] lemma Side.ne_other (d : Side) : d ≠ d.other := by cases d <;> simp

variable {ι : Type*}

/-- A place that holds a pointer to a node. -/
inductive Loc (ι : Type*) where
  | root
  | child (d : Side) (a : ι)
deriving DecidableEq

/-- The location is a field of one of the nodes. -/
def Loc.Inside (xs : List ι) : Loc ι → Prop
  | .root => False
  | .child _ a => a ∈ xs

@[simp] lemma Loc.inside_child {xs : List ι} {d : Side} {a : ι} :
    (Loc.child d a).Inside xs ↔ a ∈ xs := Iff.rfl

lemma Loc.Inside.mono {xs ys : List ι} {p : Loc ι} (h : p.Inside xs) (hs : ∀ a ∈ xs, a ∈ ys) :
    p.Inside ys := by
  cases p with
  | root => exact h
  | child d a => exact hs a h

abbrev TreeStore (ι : Type*) := Loc ι → Option ι

/-- The tree below a pointer, listed with side `d` first. -/
inductive InOrder (m : TreeStore ι) (d : Side) : Option ι → List ι → Prop
  | nil : InOrder m d none []
  | node {a : ι} {xs ys : List ι} (hx : InOrder m d (m (.child d a)) xs)
      (hy : InOrder m d (m (.child d.other a)) ys) : InOrder m d (some a) (xs ++ a :: ys)

namespace InOrder
variable {m m' : TreeStore ι} {d : Side} {p : Option ι} {a : ι} {xs ys zs : List ι}

lemma eq_nil (h : InOrder m d none xs) : xs = [] := by
  cases h
  rfl

lemma of_node (h : InOrder m d (some a) zs) : ∃ xs ys, zs = xs ++ a :: ys ∧
    InOrder m d (m (.child d a)) xs ∧ InOrder m d (m (.child d.other a)) ys := by
  cases h with
  | node hx hy => exact ⟨_, _, rfl, hx, hy⟩

lemma mem (h : InOrder m d (some a) zs) : a ∈ zs := by
  obtain ⟨xs, ys, rfl, -, -⟩ := h.of_node
  simp

lemma none_of_nil (h : InOrder m d p []) : p = none := by
  cases p with
  | none => rfl
  | some a => exact absurd h.mem (by simp)

/-- Frame rule: only the fields of the nodes of the tree matter. -/
lemma congr (h : InOrder m d p xs) (hm : ∀ q : Loc ι, q.Inside xs → m' q = m q) :
    InOrder m' d p xs := by
  induction h with
  | nil => exact nil
  | @node a xs ys _ _ ihx ihy =>
    have hx := ihx fun q hq => hm q (hq.mono fun b hb => by simp [hb])
    have hy := ihy fun q hq => hm q (hq.mono fun b hb => by simp [hb])
    rw [← hm (.child d a) (by simp)] at hx
    rw [← hm (.child d.other a) (by simp)] at hy
    exact node hx hy

lemma reverse (h : InOrder m d p xs) : InOrder m d.other p xs.reverse := by
  induction h with
  | nil => exact nil
  | @node a xs ys _ _ ihx ihy =>
    rw [List.reverse_append, List.reverse_cons, List.append_assoc]
    exact node ihy (by rwa [Side.other_other])

/-- Writing to a location outside the tree. -/
lemma update [DecidableEq ι] (h : InOrder m d p xs) {q : Loc ι} (hq : ¬q.Inside xs)
    (v : Option ι) : InOrder (Function.update m q v) d p xs := by
  refine h.congr fun q' hq' => Function.update_of_ne ?_ _ _
  rintro rfl
  exact hq hq'

end InOrder

/-- Outside the nodes `xs` and the locations `ps` the two memories are the same. -/
def SameOutside (m m' : TreeStore ι) (xs : List ι) (ps : List (Loc ι)) : Prop :=
  ∀ q : Loc ι, ¬q.Inside xs → q ∉ ps → m' q = m q

lemma SameOutside.inOrder {m m' : TreeStore ι} {xs ys : List ι} {ps : List (Loc ι)} {d : Side}
    {p : Option ι} (h : SameOutside m m' xs ps) (hy : InOrder m d p ys)
    (hxs : ∀ a ∈ ys, a ∉ xs) (hps : ∀ q ∈ ps, ¬q.Inside ys) : InOrder m' d p ys := by
  refine hy.congr fun q hq => h q ?_ fun hmem => hps q hmem hq
  cases q with
  | root => exact id
  | child d' a => exact hxs a hq

end NetworkSimulator.Library
