import Mathlib.Data.Finset.Card
import Mathlib.Data.Finset.Image
import Mathlib.Data.Finset.Range
import Mathlib.Tactic.IntervalCases
import Mathlib.Tactic.Ring
import NetworkSimulator.Nix.NixNode

/-!
# The vectors follow shortest paths

The queue of the search is ordered by distance and spans at most two layers, so a node that has left
it has all its neighbours at most one layer further out. The width of an index at a node is the same
for the writer and for the reader, and so is the numbering of the neighbours.
-/

namespace NetworkSimulator
open Library

namespace NixVec
variable {l h n v : ℕ} {bits ext : List Bool}

@[simp] lemma length_bitsOf : (bitsOf l n).length = l := by
  induction l with
  | zero => rfl
  | succ l ih => simp [bitsOf, ih]

lemma foldl_bitsOf : (bitsOf l n).foldl (fun n bit => 2 * n + bit.toNat) v = v * 2 ^ l + n % 2 ^ l := by
  induction l generalizing v with
  | zero => simp [bitsOf, Nat.mod_one]
  | succ l ih =>
    rw [bitsOf, List.foldl_cons, ih, Nat.mod_pow_succ, ← Nat.toNat_testBit, pow_succ]
    ring

lemma ofBits_bitsOf (hn : n < 2 ^ l) : ofBits (bitsOf l n) = n := by
  unfold ofBits
  rw [foldl_bitsOf, Nat.mod_eq_of_lt hn, Nat.zero_mul, Nat.zero_add]

/-- What has been added can be extracted, whatever is added later. -/
lemma extract_append (hn : n < 2 ^ l) :
    (NixVec.mk (bits ++ bitsOf l n ++ ext)).extract l bits.length = (n, bits.length + l) := by
  have hroom : ¬bits.length + l > (NixVec.mk (bits ++ bitsOf l n ++ ext)).alth := by
    simp [alth]
  unfold extract
  rw [if_neg hroom]
  simp [List.append_assoc, ofBits_bitsOf hn]

lemma highestBit_pos : 0 < highestBit l h := by
  induction h with
  | zero => simp [highestBit]
  | succ h ih =>
    unfold highestBit
    split
    · exact Nat.succ_pos _
    · exact ih

lemma lt_two_pow_highestBit (hl : l < 2 ^ (h + 1)) : l < 2 ^ highestBit l h := by
  induction h with
  | zero => simpa [highestBit] using hl
  | succ h ih =>
    unfold highestBit
    split_ifs with hbit
    · exact hl
    · apply ih
      apply Nat.lt_pow_two_of_testBit
      intro i hi
      rcases Nat.eq_or_lt_of_le hi with rfl | hlt
      · simpa using hbit
      · exact Nat.testBit_lt_two_pow (hl.trans_le (Nat.pow_le_pow_right (by decide) hlt))

lemma lt_two_pow_sixteen (hl : l < 2 ^ NIX_BPW) (hmask : l &&& 0xFFFF0000 = 0) : l < 2 ^ 16 := by
  apply Nat.lt_pow_two_of_testBit
  intro i hi
  by_cases hlt : i < NIX_BPW
  · have hbit := congrArg (·.testBit i) hmask
    have hone : Nat.testBit 0xFFFF0000 i = true := by
      unfold NIX_BPW at hlt
      interval_cases i <;> decide
    simpa [Nat.testBit_and, hone] using hbit
  · exact Nat.testBit_lt_two_pow (hl.trans_le (Nat.pow_le_pow_right (by decide) (Nat.not_lt.mp hlt)))

/-- Every value up to `l` fits in the width for `l`. -/
lemma lt_two_pow_getBitl (hl : l < 2 ^ NIX_BPW) : l < 2 ^ getBitl l := by
  unfold getBitl
  apply lt_two_pow_highestBit
  split_ifs with hmask
  · exact lt_two_pow_sixteen hl hmask
  · exact hl

end NixVec

namespace NixNodes
variable {N : NixNodes} {s s' s'' : Search} {root v w t i fuel : ℕ} {u node : NixNode}

/-- How many nodes have still to be taken from the queue. -/
def pending (N : NixNodes) (s : Search) : ℕ :=
  s.Q.length + ((Finset.range N.nodes.length).filter (fun v => s.B v = false)).card

/-- The nodes that have been reached have their distances, the queue is ordered by them, and every
node that has left the queue has been followed along all its edges. -/
structure Layered (N : NixNodes) (root : ℕ) (s : Search) : Prop where
  origin : s.B root = true ∧ s.D root = 0
  inside : ∀ v, s.B v = true → v < N.nodes.length
  reached : ∀ v, s.B v = true → v ≠ root →
    s.B (s.parent v) = true ∧ N.Edge (s.parent v) v 1 ∧ s.D v = s.D (s.parent v) + 1
  fresh : ∀ v, s.B v = false → s.parent v = NODE_NONE
  queued : ∀ u ∈ s.Q, s.B u.id = true ∧ N.nodes[u.id]? = some u
  sorted : s.Q.Pairwise (fun u w => s.D u.id ≤ s.D w.id)
  near : ∀ u ∈ s.Q, ∀ v, s.B v = true → s.D v ≤ s.D u.id + 1
  closed : ∀ v node, s.B v = true → N.nodes[v]? = some node → node ∉ s.Q →
    ∀ w ∈ node.adj, s.B w = true ∧ s.D w ≤ s.D v + 1

/-- What the scan of one node's neighbours leaves as it is. -/
structure Extends (N : NixNodes) (s s' : Search) : Prop where
  kept : ∀ v, s.B v = true → s'.B v = true ∧ s'.D v = s.D v
  queue : ∃ ext, s'.Q = s.Q ++ ext
  pending : N.pending s' = N.pending s

lemma Extends.refl : N.Extends s s :=
  ⟨fun _ hv => ⟨hv, rfl⟩, ⟨[], by simp⟩, rfl⟩

lemma Extends.trans (h : N.Extends s s') (h' : N.Extends s' s'') : N.Extends s s'' := by
  obtain ⟨ext, hext⟩ := h.queue
  obtain ⟨ext', hext'⟩ := h'.queue
  constructor
  · intro v hv
    obtain ⟨hv', hD⟩ := h.kept v hv
    obtain ⟨hv'', hD'⟩ := h'.kept v hv'
    exact ⟨hv'', hD'.trans hD⟩
  · exact ⟨ext ++ ext', by rw [hext', hext, List.append_assoc]⟩
  · exact h'.pending.trans h.pending

lemma Layered.iterator {prev : Option EdgeIt} (h : N.Layered root s) :
    N.Layered root { s with prev := prev } :=
  ⟨h.origin, h.inside, h.reached, h.fresh, h.queued, h.sorted, h.near, h.closed⟩

lemma Extends.iterator {prev : Option EdgeIt} (h : N.Extends { s with prev := prev } s') :
    N.Extends s s' :=
  ⟨h.kept, h.queue, h.pending⟩

lemma Layered.mem_ne (h : N.Layered root s) (hv : s.B v = true) : v ≠ NODE_NONE :=
  Nat.ne_of_lt ((h.inside v hv).trans_le N.size_le)

/-- The unreached `node` joins the queue as a neighbour of `u`. -/
structure Joined (s s' : Search) (u node : NixNode) : Prop where
  free : s.B node.id = false
  others : ∀ v, v ≠ node.id → s'.B v = s.B v ∧ s'.D v = s.D v ∧ s'.parent v = s.parent v
  found : s'.B node.id = true ∧ s'.D node.id = s.D u.id + 1 ∧ s'.parent node.id = u.id
  queue : s'.Q = s.Q ++ [node]

lemma Joined.ne (h : Joined s s' u node) (hv : s.B v = true) : v ≠ node.id := by
  rintro rfl
  simp [h.free] at hv

lemma Joined.kept (h : Joined s s' u node) (hv : s.B v = true) :
    s'.B v = true ∧ s'.D v = s.D v := by
  obtain ⟨hB, hD, -⟩ := h.others v (h.ne hv)
  exact ⟨hB.trans hv, hD⟩

lemma Joined.extends (h : Joined s s' u node) (hlt : node.id < N.nodes.length) : N.Extends s s' := by
  refine ⟨fun v => h.kept, ⟨[node], h.queue⟩, ?_⟩
  have hmem : node.id ∈ (Finset.range N.nodes.length).filter (fun v => s.B v = false) :=
    Finset.mem_filter.mpr ⟨Finset.mem_range.mpr hlt, h.free⟩
  have herase : (Finset.range N.nodes.length).filter (fun v => s'.B v = false) =
      ((Finset.range N.nodes.length).filter (fun v => s.B v = false)).erase node.id := by
    ext v
    simp only [Finset.mem_filter, Finset.mem_erase]
    by_cases hv : v = node.id
    · simp [hv, h.found.1]
    · simp [hv, (h.others v hv).1]
  have hcard := Finset.card_erase_add_one hmem
  unfold pending
  rw [herase, h.queue, List.length_append, List.length_singleton]
  omega

lemma Layered.joined (h : N.Layered root s) (hj : Joined s s' u node) (hhead : s.Q.head? = some u)
    (hnode : N.nodes[node.id]? = some node) (hedge : node.id ∈ u.adj) : N.Layered root s' := by
  obtain ⟨rest, hQ⟩ : ∃ rest, s.Q = u :: rest := List.head?_eq_some_iff.mp hhead
  have hu : u ∈ s.Q := by simp [hQ]
  obtain ⟨hBu, hNu⟩ := h.queued u hu
  have hle : ∀ q ∈ s.Q, s.D u.id ≤ s.D q.id := by
    intro q hq
    rw [hQ] at hq
    rcases List.mem_cons.mp hq with rfl | hq
    · exact le_rfl
    · exact (List.pairwise_cons.mp (hQ ▸ h.sorted)).1 q hq
  have hDq : ∀ q ∈ s.Q, s'.D q.id = s.D q.id := fun q hq => (hj.kept (h.queued q hq).1).2
  constructor
  · obtain ⟨hB, hD⟩ := hj.kept h.origin.1
    exact ⟨hB, hD.trans h.origin.2⟩
  · intro v hv
    by_cases heq : v = node.id
    · exact heq ▸ (List.getElem?_eq_some_iff.mp hnode).1
    · exact h.inside v ((hj.others v heq).1 ▸ hv)
  · intro v hv hroot
    by_cases heq : v = node.id
    · obtain ⟨hB, hD⟩ := hj.kept hBu
      rw [heq, hj.found.2.2, hj.found.2.1, hD]
      exact ⟨hB, ⟨u, hNu, hedge, rfl⟩, rfl⟩
    · obtain ⟨hBv, hDv, hpv⟩ := hj.others v heq
      obtain ⟨hB, hE, hD⟩ := h.reached v (hBv ▸ hv) hroot
      obtain ⟨hB', hD'⟩ := hj.kept hB
      rw [hpv, hDv, hD']
      exact ⟨hB', hE, hD⟩
  · intro v hv
    have heq : v ≠ node.id := by
      rintro rfl
      simp [hj.found.1] at hv
    obtain ⟨hBv, -, hpv⟩ := hj.others v heq
    exact hpv.trans (h.fresh v (hBv ▸ hv))
  · intro q hq
    rcases List.mem_append.mp (hj.queue ▸ hq) with hq | hq
    · obtain ⟨hB, hN⟩ := h.queued q hq
      exact ⟨(hj.kept hB).1, hN⟩
    · obtain rfl := List.mem_singleton.mp hq
      exact ⟨hj.found.1, hnode⟩
  · rw [hj.queue, List.pairwise_append]
    refine ⟨h.sorted.imp_of_mem ?_, List.pairwise_singleton _ _, ?_⟩
    · intro a b ha hb hab
      rwa [hDq a ha, hDq b hb]
    · intro a ha b hb
      obtain rfl := List.mem_singleton.mp hb
      rw [hDq a ha, hj.found.2.1]
      exact h.near u hu a.id (h.queued a ha).1
  · intro q hq v hv
    have hDv : s'.D v ≤ s.D u.id + 1 := by
      by_cases heq : v = node.id
      · exact heq ▸ hj.found.2.1.le
      · obtain ⟨hBv, hDv, -⟩ := hj.others v heq
        exact hDv ▸ h.near u hu v (hBv ▸ hv)
    rcases List.mem_append.mp (hj.queue ▸ hq) with hq | hq
    · have hq' := hle q hq
      rw [hDq q hq]
      omega
    · obtain rfl := List.mem_singleton.mp hq
      rw [hj.found.2.1]
      omega
  · intro v x hv hx hout w hw
    rw [hj.queue, List.mem_append, List.mem_singleton, not_or] at hout
    have heq : v ≠ node.id := by
      rintro rfl
      exact hout.2 (Option.some.inj (hx.symm.trans hnode))
    obtain ⟨hBv, hDv, -⟩ := hj.others v heq
    obtain ⟨hB, hD⟩ := h.closed v x (hBv ▸ hv) hx hout.1 w hw
    obtain ⟨hB', hD'⟩ := hj.kept hB
    rw [hDv, hD']
    exact ⟨hB', hD⟩

lemma enqueue_free (hfree : s.B node.id = false) (hnode : N.nodes[node.id]? = some node) :
    ∃ s', N.enqueue root u node.id s = some s' ∧ Joined s s' u node ∧ s'.prev = s.prev := by
  unfold enqueue
  rw [if_pos hfree, hnode]
  refine ⟨_, rfl, ⟨hfree, ?_, ?_, rfl⟩, rfl⟩
  · intro v hv
    exact ⟨Function.update_of_ne hv .., Function.update_of_ne hv .., Function.update_of_ne hv ..⟩
  · exact ⟨Function.update_self .., Function.update_self .., Function.update_self ..⟩

/-- One neighbour of the node at the head of the queue. -/
lemma enqueue_some (h : N.Layered root s) (hhead : s.Q.head? = some u) (hw : w ∈ u.adj) :
    ∃ s', N.enqueue root u w s = some s' ∧ N.Layered root s' ∧ N.Extends s s' ∧
      s'.prev = s.prev ∧ s'.B w = true ∧ s'.D w ≤ s'.D u.id + 1 := by
  have hu : u ∈ s.Q := List.mem_of_mem_head? hhead
  obtain ⟨hBu, hNu⟩ := h.queued u hu
  by_cases hfree : s.B w = false
  · have hlt : w < N.nodes.length := N.closed u (List.mem_of_getElem? hNu) w hw
    obtain ⟨node, hnode⟩ : ∃ node, N.nodes[w]? = some node := ⟨_, List.getElem?_eq_getElem hlt⟩
    obtain rfl : node.id = w := N.ids w node hnode
    obtain ⟨s', hs', hj, hp⟩ : ∃ s', N.enqueue root u node.id s = some s' ∧ Joined s s' u node ∧
      s'.prev = s.prev := enqueue_free hfree hnode
    refine ⟨s', hs', h.joined hj hhead hnode hw, hj.extends hlt, hp, hj.found.1, ?_⟩
    rw [hj.found.2.1, (hj.kept hBu).2]
  · have hset : s.B w = true := by simpa using hfree
    refine ⟨s, ?_, h, .refl, rfl, hset, h.near u hu w hset⟩
    unfold enqueue
    rw [if_neg hfree]

/-- The rest of the scan, with the iterator on the neighbour `v` at position `i`. -/
lemma adjacent_some (h : N.Layered root s) (hhead : s.Q.head? = some u)
    (hprev : s.prev = some ⟨u, i⟩) (hv : u.adj[i]? = some v) (hfuel : u.adj.length < fuel + i + 1)
    (hdone : ∀ w ∈ u.adj.take (i + 1), s.B w = true ∧ s.D w ≤ s.D u.id + 1) :
    ∃ s', N.adjacent root u fuel v s = some s' ∧ N.Layered root s' ∧ N.Extends s s' ∧
      ∀ w ∈ u.adj, s'.B w = true ∧ s'.D w ≤ s'.D u.id + 1 := by
  obtain ⟨hi, -⟩ := List.getElem?_eq_some_iff.mp hv
  have hBv : s.B v = true := (hdone v (List.mem_take_iff_getElem.mpr ⟨i, by omega, by grind⟩)).1
  induction fuel generalizing s i v with
  | zero => omega
  | succ fuel ih =>
    have hnext : u.nextAdj v s.prev = if i + 1 = u.adj.length then some (NODE_NONE, some ⟨u, i + 1⟩)
        else u.adj[i + 1]?.map (fun next => (next, some ⟨u, i + 1⟩)) := by
      unfold NixNode.nextAdj
      rw [if_neg (h.mem_ne hBv), hprev]
      simp only [Option.bind_eq_bind, Option.bind_some, hv, true_and, if_true]
      split_ifs
      · rfl
      · cases u.adj[i + 1]? <;> rfl
    unfold adjacent
    rw [hnext]
    by_cases hend : i + 1 = u.adj.length
    · rw [if_pos hend]
      refine ⟨_, rfl, h.iterator, Extends.refl.iterator, ?_⟩
      rwa [hend, List.take_length] at hdone
    · have hlt : i + 1 < u.adj.length := by omega
      obtain ⟨next, hnext⟩ : ∃ next, u.adj[i + 1]? = some next := ⟨_, List.getElem?_eq_getElem hlt⟩
      have hmem : next ∈ u.adj := List.mem_of_getElem? hnext
      have hit : N.Layered root { s with prev := some ⟨u, i + 1⟩ } := h.iterator
      obtain ⟨s', hs', hl, hext, hp, hB, hD⟩ := enqueue_some hit hhead hmem
      have hhead' : s'.Q.head? = some u := by
        obtain ⟨ext, hQ⟩ := hext.queue
        rw [hQ, List.head?_append, hhead]
        rfl
      have hBu : s.B u.id = true := (h.queued u (List.mem_of_mem_head? hhead)).1
      have hdone' : ∀ w ∈ u.adj.take (i + 1 + 1), s'.B w = true ∧ s'.D w ≤ s'.D u.id + 1 := by
        intro w hw
        rw [List.take_add_one, hnext] at hw
        rcases List.mem_append.mp hw with hw | hw
        · obtain ⟨hBw, hDw⟩ := hdone w hw
          obtain ⟨hBw', hDw'⟩ := hext.kept w hBw
          exact ⟨hBw', by rw [hDw', (hext.kept _ hBu).2]; exact hDw⟩
        · obtain rfl : w = next := by simpa using hw
          exact ⟨hB, hD⟩
      obtain ⟨r, hr, hlr, hextr, hall⟩ := ih hl hhead' hp hnext (by omega) hdone' hlt hB
      refine ⟨r, ?_, hlr, hext.iterator.trans hextr, hall⟩
      rw [if_neg hend, hnext]
      simp only [Option.map_some, Option.bind_eq_bind, Option.bind_some, if_neg (hl.mem_ne hB), hs', hr]

/-- The scan of the node at the head of the queue. -/
lemma adjacent_head (h : N.Layered root s) (hhead : s.Q.head? = some u) :
    ∃ s', N.adjacent root u (u.adj.length + 1) NODE_NONE s = some s' ∧ N.Layered root s' ∧
      N.Extends s s' ∧ ∀ w ∈ u.adj, s'.B w = true ∧ s'.D w ≤ s'.D u.id + 1 := by
  have hit : N.Layered root { s with prev := some ⟨u, 0⟩ } := h.iterator
  unfold adjacent NixNode.nextAdj
  rw [if_pos rfl]
  simp only [Option.bind_eq_bind, Option.bind_some]
  cases hadj : u.adj with
  | nil =>
    refine ⟨{ s with prev := some ⟨u, 0⟩ }, ?_, hit, Extends.refl.iterator, ?_⟩
    · simp
    · intro w hw
      simp at hw
  | cons v rest =>
    have hv : v ∈ u.adj := by simp [hadj]
    obtain ⟨s', hs', hl, hext, hp, hB, hD⟩ := enqueue_some hit hhead hv
    have hhead' : s'.Q.head? = some u := by
      obtain ⟨ext, hQ⟩ := hext.queue
      rw [hQ, List.head?_append, hhead]
      rfl
    have hdone : ∀ w ∈ u.adj.take 1, s'.B w = true ∧ s'.D w ≤ s'.D u.id + 1 := by
      intro w hw
      obtain rfl : w = v := by simpa [hadj] using hw
      exact ⟨hB, hD⟩
    have hfirst : u.adj[0]? = some v := by simp [hadj]
    obtain ⟨r, hr, hlr, hextr, hall⟩ := adjacent_some hl hhead' hp hfirst (Nat.lt_succ_self _) hdone
    refine ⟨r, ?_, hlr, hext.iterator.trans hextr, hadj ▸ hall⟩
    rw [hadj] at hr
    simp only [List.head?_cons, Option.getD_some, if_neg (hl.mem_ne hB), hs', Option.bind_some]
    exact hr

/-- The node at the head leaves the queue when all its neighbours have been reached. -/
lemma Layered.pop (h : N.Layered root s) (hhead : s.Q.head? = some u)
    (hall : ∀ w ∈ u.adj, s.B w = true ∧ s.D w ≤ s.D u.id + 1) :
    N.Layered root { s with Q := s.Q.tail } := by
  obtain ⟨rest, hQ⟩ : ∃ rest, s.Q = u :: rest := List.head?_eq_some_iff.mp hhead
  refine ⟨h.origin, h.inside, h.reached, h.fresh, ?_, ?_, ?_, ?_⟩
  · intro q hq
    exact h.queued q (List.mem_of_mem_tail hq)
  · exact h.sorted.tail
  · intro q hq
    exact h.near q (List.mem_of_mem_tail hq)
  · intro v node hv hnode hout w hw
    by_cases heq : node = u
    · subst heq
      rw [← N.ids v node hnode]
      exact hall w hw
    · refine h.closed v node hv hnode ?_ w hw
      rw [hQ, List.mem_cons, not_or]
      exact ⟨heq, by simpa [hQ] using hout⟩

/-- The outer loop empties the queue. -/
lemma search_some (h : N.Layered root s) (hfuel : N.pending s < fuel) :
    ∃ s', N.search root fuel s = some s' ∧ N.Layered root s' ∧ s'.Q = [] := by
  induction fuel generalizing s with
  | zero => exact absurd hfuel (Nat.not_lt_zero _)
  | succ fuel ih =>
    unfold search
    cases hQ : s.Q with
    | nil => exact ⟨s, rfl, h, hQ⟩
    | cons u rest =>
      have hhead : s.Q.head? = some u := by simp [hQ]
      obtain ⟨s', hs', hl, hext, hall⟩ := adjacent_head h hhead
      obtain ⟨ext, hQ'⟩ := hext.queue
      have hhead' : s'.Q.head? = some u := by simp [hQ', hQ]
      have hless : N.pending { s' with Q := s'.Q.tail } < fuel := by
        have hpending := hext.pending
        unfold pending at hfuel hpending ⊢
        simp only [hQ', hQ, List.cons_append, List.tail_cons, List.length_cons] at hfuel hpending ⊢
        omega
      obtain ⟨r, hr, hlr, hend⟩ := ih (hl.pop hhead' hall) hless
      refine ⟨r, ?_, hlr, hend⟩
      simp only [hs', Option.bind_eq_bind, Option.bind_some, hr]

/-- The search ends, with every node that can be reached followed along all its edges. -/
lemma bfs_some (hroot : root < N.nodes.length) (prev : Option EdgeIt) :
    ∃ s, N.bfs root prev = some s ∧ N.Layered root s ∧ s.Q = [] := by
  obtain ⟨u, hu⟩ : ∃ u, N.nodes[root]? = some u := ⟨_, List.getElem?_eq_getElem hroot⟩
  obtain rfl : u.id = root := N.ids root u hu
  unfold bfs
  rw [hu]
  apply search_some
  · refine ⟨by simp, ?_, ?_, fun _ _ => rfl, ?_, by simp, ?_, ?_⟩
    · intro v hv
      simpa [Function.update_apply] using (by simpa [Function.update_apply] using hv : v = u.id) ▸ hroot
    · intro v hv hne
      simp [hne] at hv
    · simpa using hu
    · intro q hq v hv
      obtain rfl : q = u := by simpa using hq
      obtain rfl : v = q.id := by simpa [Function.update_apply] using hv
      exact Nat.le_succ _
    · intro v node hv hnode hout
      obtain rfl : v = u.id := by simpa [Function.update_apply] using hv
      obtain rfl : u = node := Option.some.inj (hu.symm.trans hnode)
      simp at hout
  · have hmem : u.id ∈ Finset.range N.nodes.length := Finset.mem_range.mpr hroot
    have hfilter : (Finset.range N.nodes.length).filter
        (fun v => Function.update (fun _ => false) u.id true v = false) =
        (Finset.range N.nodes.length).erase u.id := by
      ext v
      simp only [Finset.mem_filter, Finset.mem_erase, Function.update_apply]
      split_ifs with hv
      · simp [hv]
      · simp [hv]
    have hcard := Finset.card_erase_add_one hmem
    rw [Finset.card_range] at hcard
    unfold pending
    simp only [hfilter, List.length_singleton]
    omega

section Found
variable {p k : ℕ} {nv : NixVec} (h : N.Layered root s) (hend : s.Q = [])
include h

lemma Layered.eq_root (hv : s.B v = true) (hD : s.D v = 0) : v = root := by
  by_contra hne
  obtain ⟨-, -, hD'⟩ := h.reached v hv hne
  omega

lemma Layered.walk (hv : s.B v = true) : Walk N.Edge root v (s.D v) := by
  generalize hk : s.D v = k
  induction k generalizing v with
  | zero =>
    rw [h.eq_root hv hk]
    exact .nil root
  | succ k ih =>
    have hne : v ≠ root := by
      rintro rfl
      have hD := h.origin.2
      omega
    obtain ⟨hB, hE, hD⟩ := h.reached v hv hne
    exact (ih hB (by omega)).snoc hE

lemma Layered.layers (hv : s.B v = true) : ∀ k ≤ s.D v, ∃ w, s.B w = true ∧ s.D w = k := by
  generalize hd : s.D v = d
  induction d generalizing v with
  | zero =>
    intro k hk
    exact ⟨v, hv, by omega⟩
  | succ d ih =>
    intro k hk
    rcases Nat.eq_or_lt_of_le hk with rfl | hlt
    · exact ⟨v, hv, hd⟩
    · have hne : v ≠ root := by
        rintro rfl
        have hD := h.origin.2
        omega
      obtain ⟨hB, -, hD⟩ := h.reached v hv hne
      exact ih hB (by omega) k (Nat.le_of_lt_succ hlt)

/-- There is a node at each distance up to that of a reached node, so there are more nodes than that. -/
lemma Layered.dist_lt (hv : s.B v = true) : s.D v < N.nodes.length := by
  have hsub : Finset.range (s.D v + 1) ⊆ (Finset.range N.nodes.length).image s.D := by
    intro k hk
    obtain ⟨w, hw, hD⟩ := h.layers hv k (Nat.le_of_lt_succ (Finset.mem_range.mp hk))
    exact Finset.mem_image.mpr ⟨w, Finset.mem_range.mpr (h.inside w hw), hD⟩
  have hcard := (Finset.card_le_card hsub).trans Finset.card_image_le
  rwa [Finset.card_range, Finset.card_range] at hcard

include hend

lemma Layered.le_walk (hv : s.B v = true) {c : ℕ} (hp : Walk N.Edge v w c) :
    s.B w = true ∧ s.D w ≤ s.D v + c := by
  induction hp with
  | nil => exact ⟨hv, le_rfl⟩
  | cons he _ ih =>
    obtain ⟨node, hnode, hmem, rfl⟩ := he
    obtain ⟨hB, hD⟩ := h.closed _ node hv hnode (by simp [hend]) _ hmem
    obtain ⟨hB', hD'⟩ := ih hB
    exact ⟨hB', by omega⟩

/-- The distances of the search are those of the graph. -/
lemma Layered.isDist (hv : s.B v = true) : IsDist N.Edge root v (s.D v) := by
  refine ⟨h.walk hv, ?_⟩
  intro c hc
  have hle := (h.le_walk hend h.origin.1 hc).2
  rw [h.origin.2] at hle
  omega

end Found

lemma getNix_eq (hmem : w ∈ u.adj) : u.getNix w = (u.adj.idxOf w, u.getNixl) :=
  if_pos hmem

/-- An index fits in the width of the node. -/
lemma idxOf_lt_getNixl (hu : u ∈ N.nodes) (hmem : w ∈ u.adj) :
    u.adj.idxOf w < 2 ^ u.getNixl := by
  have hidx : u.adj.idxOf w < u.adj.length := List.idxOf_lt_length_iff.mpr hmem
  have hdegree : u.adj.length < 2 ^ NIX_BPW := (N.degree_le u hu).trans_lt (by decide)
  have hwrap : (u.adj.length + (2 ^ NIX_BPW - 1)) % 2 ^ NIX_BPW = u.adj.length - 1 := by
    unfold NIX_BPW at hdegree ⊢
    omega
  unfold NixNode.getNixl
  rw [hwrap]
  exact (Nat.le_sub_one_of_lt hidx).trans_lt (NixVec.lt_two_pow_getBitl (by omega))

lemma getNixl_pos : 0 < u.getNixl :=
  NixVec.highestBit_pos

lemma travel_succ {daddr k used : ℕ} {nv : NixVec} (hk : N.travel root daddr nv k = some (v, used))
    (hnode : N.nodes[v]? = some u) (hne : daddr ≠ v)
    (hextract : nv.extract u.getNixl used = (i, w)) (hi : u.adj[i]? = some t) :
    N.travel root daddr nv (k + 1) = some (t, w) := by
  have hid : u.id = v := N.ids v u hnode
  unfold travel find NixNode.getNeighbor
  simp [hk, hnode, hid, hne, hextract, hi]

/-- The vector for `p` leads from the root to `p`, also as the beginning of the vector for a node that
is at least as far away. -/
lemma nixPred_some (h : N.Layered root s) (hv : s.B v = true) (hfuel : s.D v < fuel) :
    ∃ nv, N.nixPred s.parent root fuel v {} = some nv ∧
      ∀ t ext, s.B t = true → s.D v ≤ s.D t →
        N.travel root t ⟨nv.bits ++ ext⟩ (s.D v) = some (v, nv.bits.length) := by
  induction fuel generalizing v with
  | zero => exact absurd hfuel (Nat.not_lt_zero _)
  | succ fuel ih =>
    unfold nixPred
    by_cases hroot : root = v
    · subst hroot
      rw [if_pos rfl, h.origin.2]
      exact ⟨{}, rfl, fun _ _ _ _ => rfl⟩
    · obtain ⟨hB, ⟨u, hu, hmem, -⟩, hD⟩ := h.reached v hv (Ne.symm hroot)
      obtain ⟨nv, hnv, htravel⟩ := ih hB (by omega)
      have hN : u ∈ N.nodes := List.mem_of_getElem? hu
      have hidx : u.adj.idxOf v < u.adj.length := List.idxOf_lt_length_iff.mpr hmem
      have hne : u.adj.idxOf v ≠ NIX_NONE := Nat.ne_of_lt (hidx.trans_le (N.degree_le u hN))
      have hneighbor : u.adj[u.adj.idxOf v]? = some v := by
        rw [List.getElem?_eq_getElem hidx, List.getElem_idxOf hidx]
      refine ⟨nv.add (u.getNix v), ?_, ?_⟩
      · rw [if_neg hroot, if_neg (h.mem_ne hB), hnv, hu]
        simp only [Option.bind_eq_bind, Option.bind_some, getNix_eq hmem, if_neg hne]
      · intro t ext ht hle
        have hadd : nv.add (u.getNix v) = ⟨nv.bits ++ NixVec.bitsOf u.getNixl (u.adj.idxOf v)⟩ := by
          unfold NixVec.add
          rw [getNix_eq hmem, if_neg getNixl_pos.ne']
        have hbefore := htravel t (NixVec.bitsOf u.getNixl (u.adj.idxOf v) ++ ext) ht (by omega)
        have hfar : t ≠ s.parent v := by
          rintro rfl
          omega
        rw [← List.append_assoc] at hbefore
        rw [hadd, hD, travel_succ hbefore hu hfar (NixVec.extract_append (idxOf_lt_getNixl hN hmem))
          hneighbor]
        simp

lemma nixPred_none {pred : ℕ → ℕ} (hne : root ≠ v) (hnone : pred v = NODE_NONE) (hfuel : 0 < fuel) :
    N.nixPred pred root fuel v {} = some {} := by
  obtain ⟨fuel, rfl⟩ := Nat.exists_eq_succ_of_ne_zero hfuel.ne'
  unfold nixPred
  rw [if_neg hne, if_pos hnone]

/-- Following the vector from `s` leads to `t` in as many hops as a shortest path has, using all the
bits; for a node that cannot be reached the vector is empty. -/
theorem nixVector_shortest (N : NixNodes) (s t : Fin N.nodes.length) (prev : Option EdgeIt) :
    ∃ nv prev', N.computeNixVector s t prev = some (nv, prev') ∧
      ((∃ d, IsDist N.Edge s t d ∧ N.travel s t nv d = some (t.val, nv.alth) ∧
          N.find t t nv nv.alth = some (.dmux, nv.alth)) ∨
        (∀ d, ¬Walk N.Edge s t d) ∧ nv.alth = 0) := by
  obtain ⟨found, hfound, h, hend⟩ := N.bfs_some s.isLt prev
  unfold computeNixVector
  rw [hfound]
  by_cases ht : found.B t = true
  · obtain ⟨nv, hnv, htravel⟩ := N.nixPred_some h ht (h.dist_lt ht)
    refine ⟨nv, found.prev, ?_, Or.inl ⟨found.D t, h.isDist hend ht, ?_, ?_⟩⟩
    · simp [hnv]
    · have htravel' := htravel t [] ht le_rfl
      rwa [List.append_nil] at htravel'
    · have hnode := List.getElem?_eq_getElem t.isLt
      unfold find
      simp [N.ids t _ hnode]
  · have hunreached : ∀ d, ¬Walk N.Edge s t d := by
      intro d hp
      exact ht (h.le_walk hend h.origin.1 hp).1
    have hne : s.val ≠ t.val := by
      intro heq
      exact ht (heq ▸ h.origin.1)
    have hempty : N.nixPred found.parent s N.nodes.length t {} = some {} :=
      nixPred_none hne (h.fresh t (by simpa using ht)) (Nat.zero_lt_of_lt t.isLt)
    refine ⟨{}, found.prev, ?_, Or.inr ⟨hunreached, rfl⟩⟩
    simp [hempty]

end NixNodes
end NetworkSimulator
