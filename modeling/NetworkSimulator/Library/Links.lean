import Mathlib.Data.List.Nodup
import Mathlib.Logic.Function.Basic
import Mathlib.Tactic.Common

/-!
# Linked lists in memory

Nodes are names and each link is a map from nodes to an optional node. `DSeg next prev b xs a` is a
doubly linked segment `xs` between the node `b` before it and the node `a` after it; a whole list
is a segment between nothing and nothing. Segments split and join, and an end is tied to another
neighbour by one write; that is all an insertion or a removal does.
-/

namespace NetworkSimulator.Library

variable {ι : Type*} {next prev next' prev' : ι → Option ι} {b a v : Option ι} {x : ι}
  {l r : List ι}

/-- Write `v` into the link of `o`, if there is a node `o`. -/
def setAt [DecidableEq ι] (f : ι → Option ι) (o v : Option ι) : ι → Option ι :=
  match o with
  | some y => Function.update f y v
  | none => f

lemma setAt_of_ne [DecidableEq ι] {f : ι → Option ι} {o v : Option ι} {x : ι} (h : o ≠ some x) :
    setAt f o v x = f x := by
  cases o with
  | none => rfl
  | some y => exact Function.update_of_ne (fun hxy => h (by rw [hxy])) _ _

/-- A doubly linked segment with its neighbours. -/
def DSeg (next prev : ι → Option ι) (b : Option ι) : List ι → Option ι → Prop
  | [], _ => True
  | x :: l, a => prev x = b ∧ next x = l.head?.or a ∧ DSeg next prev (some x) l a

namespace DSeg

lemma congr (h : DSeg next prev b l a) (hn : ∀ y ∈ l, next' y = next y)
    (hp : ∀ y ∈ l, prev' y = prev y) : DSeg next' prev' b l a := by
  induction l generalizing b with
  | nil => trivial
  | cons x l ih =>
    obtain ⟨h₁, h₂, h₃⟩ := h
    refine ⟨by rw [hp x (by simp), h₁], by rw [hn x (by simp), h₂], ?_⟩
    exact ih h₃ (fun y hy => hn y (by simp [hy])) fun y hy => hp y (by simp [hy])

lemma append_iff : DSeg next prev b (l ++ r) a ↔
    DSeg next prev b l (r.head?.or a) ∧ DSeg next prev (l.getLast?.or b) r a := by
  induction l generalizing b with
  | nil => simp [DSeg]
  | cons x l ih =>
    have hlast : (x :: l).getLast?.or b = l.getLast?.or (some x) := by
      cases l with
      | nil => rfl
      | cons y l =>
        rw [List.getLast?_cons_cons]
        have hne : (y :: l).getLast? ≠ none := by simp
        obtain ⟨z, hz⟩ := Option.ne_none_iff_exists'.mp hne
        rw [hz]
        rfl
    have hhead : (l ++ r).head?.or a = l.head?.or (r.head?.or a) := by
      rw [List.head?_append, Option.or_assoc]
    rw [List.cons_append, DSeg, ih, DSeg, hlast, hhead]
    tauto

lemma prev_eq (h : DSeg next prev b (l ++ x :: r) a) : prev x = l.getLast?.or b :=
  (append_iff.mp h).2.1

lemma next_eq (h : DSeg next prev b (l ++ x :: r) a) : next x = r.head?.or a :=
  (append_iff.mp h).2.2.1

lemma reverse (h : DSeg next prev b l a) : DSeg prev next a l.reverse b := by
  induction l generalizing b with
  | nil => trivial
  | cons x l ih =>
    obtain ⟨h₁, h₂, h₃⟩ := h
    rw [List.reverse_cons, append_iff]
    refine ⟨ih h₃, ?_, ?_, trivial⟩
    · rw [h₂, List.getLast?_reverse]
    · rw [h₁]
      rfl

variable [DecidableEq ι]

/-- The last node is tied to what follows. -/
lemma setLast (h : DSeg next prev b l a) (hl : l.Nodup) :
    DSeg (setAt next l.getLast? v) prev b l v := by
  induction l generalizing b with
  | nil => trivial
  | cons x l ih =>
    obtain ⟨h₁, h₂, h₃⟩ := h
    obtain ⟨hx, hl'⟩ := List.nodup_cons.mp hl
    cases l with
    | nil => exact ⟨h₁, Function.update_self _ _ _, trivial⟩
    | cons y l =>
      rw [List.getLast?_cons_cons]
      refine ⟨h₁, ?_, ih h₃ hl'⟩
      rw [setAt_of_ne, h₂]
      · rfl
      · intro hlast
        exact hx (List.mem_of_getLast? hlast)

/-- The first node is tied to what comes before. -/
lemma setFirst (h : DSeg next prev b l a) (hl : l.Nodup) :
    DSeg next (setAt prev l.head? v) v l a := by
  cases l with
  | nil => trivial
  | cons x l =>
    obtain ⟨-, h₂, h₃⟩ := h
    refine ⟨Function.update_self _ _ _, h₂, h₃.congr (fun _ _ => rfl) fun y hy => ?_⟩
    refine Function.update_of_ne ?_ _ _
    rintro rfl
    exact (List.nodup_cons.mp hl).1 hy

/-- Taking the node `x` out: its neighbours are tied to each other. -/
lemma unlink (h : DSeg next prev none (l ++ x :: r) none) (hnodup : (l ++ x :: r).Nodup) :
    DSeg (setAt next l.getLast? r.head?) (setAt prev r.head? l.getLast?) none (l ++ r) none := by
  obtain ⟨hl, hxr⟩ := append_iff.mp h
  obtain ⟨-, -, hr⟩ := hxr
  obtain ⟨hnl, hnr, hdisj⟩ := List.nodup_append.mp hnodup
  have hnr' := (List.nodup_cons.mp hnr).2
  refine append_iff.mpr ⟨?_, ?_⟩
  · refine (hl.setLast hnl).congr (fun y _ => by rw [Option.or_none]) fun y hy => ?_
    refine setAt_of_ne fun hy' => ?_
    exact hdisj y hy y (List.mem_cons_of_mem _ (List.mem_of_head? hy')) rfl
  · rw [Option.or_none]
    refine (hr.setFirst hnr').congr (fun y hy => ?_) fun _ _ => rfl
    refine setAt_of_ne fun hy' => ?_
    exact hdisj y (List.mem_of_getLast? hy') y (by simp [hy]) rfl

/-- Putting the node `x` in, whose own links are already set. -/
lemma link (h : DSeg next prev none (l ++ r) none) (hnodup : (l ++ r).Nodup) (hx : x ∉ l ++ r)
    (hn : next x = r.head?) (hp : prev x = l.getLast?) :
    DSeg (setAt next l.getLast? (some x)) (setAt prev r.head? (some x)) none (l ++ x :: r) none := by
  obtain ⟨hl, hr⟩ := append_iff.mp h
  obtain ⟨hnl, hnr, hdisj⟩ := List.nodup_append.mp hnodup
  have hxl : l.getLast? ≠ some x := fun h => hx (by simp [List.mem_of_getLast? h])
  have hxr : r.head? ≠ some x := fun h => hx (by simp [List.mem_of_head? h])
  refine append_iff.mpr ⟨?_, ?_, ?_, ?_⟩
  · refine (hl.setLast hnl).congr (fun y _ => rfl) fun y hy => ?_
    refine setAt_of_ne fun hy' => ?_
    exact hdisj y hy y (List.mem_of_head? hy') rfl
  · rw [setAt_of_ne hxr, hp, Option.or_none]
  · rw [setAt_of_ne hxl, hn, Option.or_none]
  · refine (hr.setFirst hnr).congr (fun y hy => ?_) fun _ _ => rfl
    refine setAt_of_ne fun hy' => ?_
    exact hdisj y (List.mem_of_getLast? hy') y hy rfl

end DSeg

/-- A doubly linked list with the pointers to its ends. -/
structure DList (next prev : ι → Option ι) (head tail : Option ι) (xs : List ι) : Prop where
  seg : DSeg next prev none xs none
  head_eq : head = xs.head?
  tail_eq : tail = xs.getLast?
  nodup : xs.Nodup

namespace DList
variable {head tail : Option ι} {xs : List ι}

lemma congr (h : DList next prev head tail xs) (hn : ∀ y ∈ xs, next' y = next y)
    (hp : ∀ y ∈ xs, prev' y = prev y) : DList next' prev' head tail xs :=
  ⟨h.seg.congr hn hp, h.head_eq, h.tail_eq, h.nodup⟩

lemma prev_eq (h : DList next prev head tail (l ++ x :: r)) : prev x = l.getLast? := by
  rw [h.seg.prev_eq, Option.or_none]

lemma next_eq (h : DList next prev head tail (l ++ x :: r)) : next x = r.head? := by
  rw [h.seg.next_eq, Option.or_none]

lemma nil_iff (h : DList next prev head tail xs) : head = none ↔ xs = [] := by
  rw [h.head_eq, List.head?_eq_none_iff]

variable [DecidableEq ι]

/-- The writes of an unlinking: each neighbour, or the end of the list, takes over the link. -/
lemma unlink (h : DList next prev head tail (l ++ x :: r)) :
    DList (setAt next (prev x) (next x)) (setAt prev (next x) (prev x))
      (if (prev x).isSome then head else next x) (if (next x).isSome then tail else prev x)
      (l ++ r) := by
  rw [h.prev_eq, h.next_eq]
  refine ⟨h.seg.unlink h.nodup, ?_, ?_, ?_⟩
  · rw [h.head_eq]
    cases l <;> simp
  · rw [h.tail_eq]
    cases r <;> simp [List.getLast?_cons]
  · exact h.nodup.sublist ((List.sublist_cons_self x r).append_left l)

/-- The writes of an insertion between `l` and `r`. -/
lemma link (h : DList next prev head tail (l ++ r)) (hx : x ∉ l ++ r) (hn : next x = r.head?)
    (hp : prev x = l.getLast?) :
    DList (setAt next l.getLast? (some x)) (setAt prev r.head? (some x))
      (if l.getLast?.isSome then head else some x) (if r.head?.isSome then tail else some x)
      (l ++ x :: r) := by
  refine ⟨h.seg.link h.nodup hx hn hp, ?_, ?_, ?_⟩
  · rw [h.head_eq]
    cases l <;> simp
  · rw [h.tail_eq]
    cases r <;> simp [List.getLast?_cons]
  · exact List.nodup_middle.mpr (List.nodup_cons.mpr ⟨hx, h.nodup⟩)

end DList

/-- The nodes are linked in a circle: the last one is followed by the first one. -/
def Circle (next prev : ι → Option ι) (l : List ι) : Prop :=
  DSeg next prev l.getLast? l l.head?

namespace Circle

lemma single (hn : next x = some x) (hp : prev x = some x) : Circle next prev [x] :=
  ⟨hp, hn, trivial⟩

lemma congr (h : Circle next prev l) (hn : ∀ y ∈ l, next' y = next y) (hp : ∀ y ∈ l, prev' y = prev y) :
    Circle next' prev' l :=
  DSeg.congr h hn hp

lemma next_eq (h : Circle next prev (x :: l)) : next x = l.head?.or (some x) :=
  h.2.1

lemma prev_eq (h : Circle next prev (x :: l)) : prev x = (x :: l).getLast? :=
  h.1

/-- The circle may be entered one node later. -/
lemma rotate (h : Circle next prev (x :: l)) : Circle next prev (l ++ [x]) := by
  obtain ⟨hp, hn, hrest⟩ := h
  unfold Circle
  rw [List.getLast?_concat, DSeg.append_iff]
  cases l with
  | nil => exact ⟨trivial, hp, hn, trivial⟩
  | cons y l => exact ⟨hrest, hp.trans (by rw [List.getLast?_cons_cons, List.getLast?_cons]; rfl), hn, trivial⟩

/-- The circle entered at any of its nodes. -/
lemma enter (h : Circle next prev (l ++ r)) : Circle next prev (r ++ l) := by
  induction l generalizing r with
  | nil => simpa using h
  | cons y l ih =>
    have hrot := ih (r := r ++ [y]) (by simpa using h.rotate)
    simpa using hrot

variable [DecidableEq ι]

/-- A new node behind the last one. -/
lemma insert (h : Circle next prev l) (hl : l.Nodup) (hne : l ≠ []) (hx : x ∉ l) (hn : next x = l.head?)
    (hp : prev x = l.getLast?) :
    Circle (setAt next l.getLast? (some x)) (setAt prev l.head? (some x)) (l ++ [x]) := by
  have hxl : l.getLast? ≠ some x := fun h => hx (List.mem_of_getLast? h)
  have hxh : l.head? ≠ some x := fun h => hx (List.mem_of_head? h)
  have hseg : DSeg (setAt next l.getLast? (some x)) (setAt prev l.head? (some x)) (some x) l (some x) :=
    ((DSeg.setLast h hl).setFirst hl)
  unfold Circle
  rw [List.getLast?_concat, DSeg.append_iff, List.head?_append_of_ne_nil l hne]
  obtain ⟨y, l, rfl⟩ := List.exists_cons_of_ne_nil hne
  refine ⟨hseg, ?_, ?_, trivial⟩
  · rw [setAt_of_ne hxh, hp, List.getLast?_cons]
    rfl
  · rw [setAt_of_ne hxl, hn]
    rfl

/-- The first node is taken out. -/
lemma remove (h : Circle next prev (x :: l)) (hl : l.Nodup) :
    Circle (setAt next l.getLast? l.head?) (setAt prev l.head? l.getLast?) l := by
  obtain ⟨-, -, hrest⟩ := h
  exact (hrest.setLast hl).setFirst hl

end Circle

/-- Follow a link while the nodes satisfy `p`; `none` when the fuel is used up. -/
def walk (next : ι → Option ι) (p : ι → Bool) : ℕ → Option ι → Option (Option ι)
  | 0, _ => none
  | _ + 1, none => some none
  | n + 1, some x => if p x then walk next p n (next x) else some (some x)

lemma walk_eq {p : ι → Bool} {n : ℕ} (h : DSeg next prev b l none) (hn : l.length < n) :
    walk next p n l.head? = some (l.dropWhile p).head? := by
  induction l generalizing b n with
  | nil =>
    obtain ⟨m, rfl⟩ : ∃ m, n = m + 1 := ⟨n - 1, by simp at hn; omega⟩
    rfl
  | cons x l ih =>
    obtain ⟨m, rfl⟩ : ∃ m, n = m + 1 := ⟨n - 1, by simp at hn; omega⟩
    obtain ⟨-, h₂, h₃⟩ := h
    rw [Option.or_none] at h₂
    rw [List.head?_cons, walk, List.dropWhile_cons]
    by_cases hp : p x = true
    · rw [if_pos hp, if_pos hp, h₂]
      exact ih h₃ (by simp at hn; omega)
    · rw [if_neg hp, if_neg hp]
      rfl

/-- The nodes on the way along a link. -/
def follow (next : ι → Option ι) : ℕ → Option ι → List ι
  | 0, _ => []
  | _ + 1, none => []
  | n + 1, some x => x :: follow next n (next x)

lemma follow_eq {n : ℕ} (h : DSeg next prev b l none) (hn : l.length ≤ n) :
    follow next n l.head? = l := by
  induction l generalizing b n with
  | nil => cases n <;> rfl
  | cons x l ih =>
    obtain ⟨m, rfl⟩ : ∃ m, n = m + 1 := ⟨n - 1, by simp at hn; omega⟩
    obtain ⟨-, h₂, h₃⟩ := h
    rw [Option.or_none] at h₂
    rw [List.head?_cons, follow, h₂, ih h₃ (by simpa using hn)]

/-- A singly linked list. -/
def Chain (next : ι → Option ι) : Option ι → List ι → Prop
  | p, [] => p = none
  | p, x :: l => p = some x ∧ Chain next (next x) l

lemma Chain.congr {p : Option ι} (h : Chain next p l) (hn : ∀ y ∈ l, next' y = next y) :
    Chain next' p l := by
  induction l generalizing p with
  | nil => exact h
  | cons x l ih =>
    refine ⟨h.1, ?_⟩
    rw [hn x (by simp)]
    exact ih h.2 fun y hy => hn y (by simp [hy])

namespace Chain
variable {p : Option ι}

lemma head_eq (h : Chain next p l) : p = l.head? := by
  cases l with
  | nil => exact h
  | cons x l => exact h.1

/-- A node may be left out by the link before it. -/
lemma remove [DecidableEq ι] {y : ι} (h : Chain next p (l ++ y :: x :: r)) (hl : (l ++ y :: x :: r).Nodup) :
    Chain (Function.update next y (next x)) p (l ++ y :: r) := by
  induction l generalizing p with
  | nil =>
    obtain ⟨hp, hx, hr⟩ := h
    refine ⟨hp, ?_⟩
    rw [Function.update_self]
    refine hr.congr fun z hz => Function.update_of_ne ?_ _ _
    rintro rfl
    exact (List.nodup_cons.mp hl).1 (List.mem_cons_of_mem x hz)
  | cons z l ih =>
    obtain ⟨hz, hl'⟩ := List.nodup_cons.mp hl
    refine ⟨h.1, ?_⟩
    rw [Function.update_of_ne]
    · exact ih h.2 hl'
    · rintro rfl
      exact hz (by simp)

/-- A node behind the last one. -/
lemma concat [DecidableEq ι] {y : ι} (h : Chain next p (l ++ [y])) (hl : (l ++ [y]).Nodup) (hx : x ∉ l ++ [y])
    (hn : next x = none) : Chain (Function.update next y (some x)) p (l ++ [y] ++ [x]) := by
  induction l generalizing p with
  | nil =>
    have hxy : x ≠ y := by simpa using hx
    refine ⟨h.1, Function.update_self _ _ _, ?_⟩
    rw [Function.update_of_ne hxy]
    exact hn
  | cons z l ih =>
    obtain ⟨hz, hl'⟩ := List.nodup_cons.mp hl
    refine ⟨h.1, ?_⟩
    rw [Function.update_of_ne]
    · exact ih h.2 hl' fun hmem => hx (List.mem_cons_of_mem z hmem)
    · rintro rfl
      exact hz (by simp)

lemma follow_eq {n : ℕ} (h : Chain next p l) (hn : l.length ≤ n) : follow next n p = l := by
  induction l generalizing p n with
  | nil =>
    subst h
    cases n <;> rfl
  | cons x l ih =>
    obtain ⟨m, rfl⟩ : ∃ m, n = m + 1 := ⟨n - 1, by simp at hn; omega⟩
    obtain ⟨rfl, hl⟩ := h
    rw [follow, ih hl (by simpa using hn)]

end Chain

/-- The first node that satisfies `test`, with the node before it; `none` when the fuel is used up. -/
def search (next : ι → Option ι) (test : ι → Bool) : ℕ → Option ι → Option ι → Option (Option ι × Option ι)
  | 0, _, _ => none
  | _ + 1, none, prev => some (none, prev)
  | n + 1, some p, prev => if test p then some (some p, prev) else search next test n (next p) (some p)

lemma search_none {test : ι → Bool} {n : ℕ} {p q : Option ι} (h : Chain next p l) (hn : l.length < n)
    (hall : ∀ y ∈ l, test y = false) : search next test n p q = some (none, l.getLast?.or q) := by
  induction l generalizing p q n with
  | nil =>
    obtain ⟨m, rfl⟩ : ∃ m, n = m + 1 := ⟨n - 1, by simp at hn; omega⟩
    subst h
    rfl
  | cons x l ih =>
    obtain ⟨m, rfl⟩ : ∃ m, n = m + 1 := ⟨n - 1, by simp at hn; omega⟩
    obtain ⟨rfl, hl⟩ := h
    rw [search, hall x List.mem_cons_self, if_neg Bool.false_ne_true,
      ih hl (by simpa using hn) fun y hy => hall y (List.mem_cons_of_mem x hy), List.getLast?_cons]
    cases l.getLast? <;> rfl

lemma search_some {test : ι → Bool} {n : ℕ} {p q : Option ι} (h : Chain next p (l ++ x :: r))
    (hn : (l ++ x :: r).length < n) (hall : ∀ y ∈ l, test y = false) (hx : test x = true) :
    search next test n p q = some (some x, l.getLast?.or q) := by
  induction l generalizing p q n with
  | nil =>
    obtain ⟨m, rfl⟩ : ∃ m, n = m + 1 := ⟨n - 1, by simp at hn; omega⟩
    obtain ⟨rfl, -⟩ := h
    rw [search, if_pos hx]
    rfl
  | cons y l ih =>
    obtain ⟨m, rfl⟩ : ∃ m, n = m + 1 := ⟨n - 1, by simp at hn; omega⟩
    obtain ⟨rfl, hl⟩ := h
    rw [search, hall y List.mem_cons_self, if_neg Bool.false_ne_true,
      ih hl (by simpa using hn) fun z hz => hall z (List.mem_cons_of_mem y hz), List.getLast?_cons]
    cases l.getLast? <;> rfl

end NetworkSimulator.Library
