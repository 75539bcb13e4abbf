import NetworkSimulator.Routing.RouteLogic

/-!
# The routes are least-cost routes

For one source, the nodes of the subtree that has been routed are at their least costs and the others
at the least costs of walks through it. The tables of different sources break ties differently, but
every next hop is on some least-cost walk, so following them comes nearer with each hop.
-/

namespace NetworkSimulator
open Library

namespace RouteLogic
variable {ε : Type*} {r : RouteLogic ε} {s t : Sweep ε} {i j k o u v w : ℕ} {c : ℚ}

def IsNode (r : RouteLogic ε) (v : ℕ) : Prop := 1 ≤ v ∧ v < r.size

def Link (r : RouteLogic ε) (i j : ℕ) (c : ℚ) : Prop :=
  r.IsNode i ∧ r.IsNode j ∧ c = r.adjCost i j ∧ c ≠ INFINITY

lemma INDEX_inj {N : ℕ} (hj : j < N) (hv : v < N) : INDEX i j N = INDEX k v N ↔ i = k ∧ j = v := by
  refine ⟨fun h => ?_, fun h => by rw [h.1, h.2]⟩
  unfold INDEX at h
  have hi : i = k := by
    have hdiv := congrArg (· / N) h
    simpa [Nat.mul_add_div (Nat.zero_lt_of_lt hj), Nat.div_eq_of_lt hj, Nat.div_eq_of_lt hv] using hdiv
  subst hi
  exact ⟨rfl, Nat.add_left_cancel h⟩

lemma at_setRoute {e : RouteEntry ε} (hv : v < r.size) (hj : j < r.size) :
    (s.setRoute r k v e).at r i j = if i = k ∧ j = v then e else s.at r i j := by
  unfold Sweep.at Sweep.setRoute
  simp only [Function.update_apply, INDEX_inj hj hv]

/-- The rows of the other sources stay as they are. -/
def SameRows (r : RouteLogic ε) (k : ℕ) (s t : Sweep ε) : Prop :=
  ∀ i j, j < r.size → i ≠ k → t.at r i j = s.at r i j

lemma SameRows.setRoute {e : RouteEntry ε} (h : r.SameRows k s t) (hv : v < r.size) :
    r.SameRows k s (t.setRoute r k v e) := by
  intro i j hj hi
  rw [at_setRoute hv hj, if_neg fun heq => hi heq.1, h i j hj hi]

lemma SameRows.neighbours (h : r.SameRows k s t) (hv : v < r.size) :
    r.SameRows k s (r.neighbours k v t) := by
  unfold RouteLogic.neighbours
  split
  · have hhop : r.SameRows k s { t with hopcnt := Function.update t.hopcnt v (r.adjCost k v) } := h
    dsimp only
    split
    · exact hhop.setRoute hv
    · exact hhop
  · exact h

lemma SameRows.relax (h : r.SameRows k s t) (hw : w < r.size) :
    r.SameRows k s (r.relax k o w t) := by
  unfold RouteLogic.relax
  split
  · exact h.setRoute hw
  · exact h

lemma SameRows.settle (h : r.SameRows k s t) : r.SameRows k s (r.settle k t) := by
  unfold RouteLogic.settle
  extract_lets t₁ o t₂
  have ht₂ : r.SameRows k s t₂ := h
  split
  · exact ht₂
  · exact forLoop_keeps ht₂ fun w _ _ hw h => SameRows.relax h hw

lemma sameRows_source : r.SameRows k s (r.source k s) := by
  unfold source
  extract_lets s₁ s₂
  have hs₁ : r.SameRows k s s₁ := fun _ _ _ _ => rfl
  have hs₂ : r.SameRows k s s₂ := forLoop_keeps hs₁ fun v _ _ hv h => SameRows.neighbours h hv
  exact forLoop_keeps hs₂ fun _ _ _ _ h => SameRows.settle h

/-- The cost of a node of the subtree that has been routed. -/
def Sweep.dist (s : Sweep ε) (k v : ℕ) : ℚ := if v = k then 0 else s.hopcnt v

/-- What the arrays say while the routes of the source `k` are computed. -/
structure Routed (r : RouteLogic ε) (k : ℕ) (s : Sweep ε) : Prop where
  source : s.parent k = k
  settled : ∀ v, r.IsNode v → s.parent v = k → IsDist r.Link k v (s.dist k v)
  below : ∀ v, r.IsNode v → s.parent v = k → v ≠ k → s.hopcnt v < INFINITY
  frontier : ∀ u v c, s.parent u = k → s.parent v ≠ k → r.Link u v c → s.hopcnt v ≤ s.dist k u + c
  found : ∀ v, r.IsNode v → v ≠ k → s.hopcnt v < INFINITY →
    Starts r.Link k v (s.at r k v).nextHop (s.hopcnt v)
  unreached : ∀ v, r.IsNode v → (∀ c, ¬Walk r.Link k v c) →
    s.hopcnt v = INFINITY ∧ (s.at r k v).nextHop = 0

lemma Routed.congr (h : r.Routed k s) (hk : r.IsNode k) (hparent : ∀ v, r.IsNode v → t.parent v = s.parent v)
    (hhop : ∀ v, r.IsNode v → t.hopcnt v = s.hopcnt v) (hroute : t.route = s.route) :
    r.Routed k t := by
  have hdist : ∀ v, r.IsNode v → t.dist k v = s.dist k v := fun v hv => by
    unfold Sweep.dist
    rw [hhop v hv]
  have hat : ∀ v, t.at r k v = s.at r k v := fun v => by
    unfold Sweep.at
    rw [hroute]
  refine ⟨?_, fun v hv hset => ?_, fun v hv hset => ?_, fun u v c hu hv he => ?_, fun v hv hne hlt => ?_,
    fun v hv hno => ?_⟩
  · rw [hparent k hk]
    exact h.source
  · rw [hdist v hv]
    exact h.settled v hv (hparent v hv ▸ hset)
  · rw [hhop v hv]
    exact h.below v hv (hparent v hv ▸ hset)
  · rw [hhop v he.2.1, hdist u he.1]
    exact h.frontier u v c (hparent u he.1 ▸ hu) (hparent v he.2.1 ▸ hv) he
  · rw [hhop v hv] at hlt ⊢
    rw [hat]
    exact h.found v hv hne hlt
  · rw [hhop v hv, hat]
    exact h.unreached v hv hno

lemma neighbours_parent : (r.neighbours k v s).parent = s.parent := by
  unfold neighbours
  split
  · dsimp only
    split <;> rfl
  · rfl

lemma neighbours_of_ne (hi : r.IsNode i) (hv : r.IsNode v) (hne : v ≠ i) :
    (r.neighbours k i s).hopcnt v = s.hopcnt v ∧ (r.neighbours k i s).at r k v = s.at r k v := by
  have hhop : Function.update s.hopcnt i (r.adjCost k i) v = s.hopcnt v :=
    Function.update_of_ne hne _ _
  unfold neighbours
  split
  · dsimp only
    split
    · refine ⟨hhop, ?_⟩
      rw [at_setRoute hi.2 hv.2, if_neg fun h => hne h.2]
      rfl
    · exact ⟨hhop, rfl⟩
  · exact ⟨rfl, rfl⟩

lemma neighbours_self (hi : r.IsNode i) (hparent : s.parent i ≠ k) :
    (r.neighbours k i s).hopcnt i = r.adjCost k i ∧ ((r.neighbours k i s).at r k i).nextHop =
      if r.adjCost k i = INFINITY then (s.at r k i).nextHop else i := by
  have hhop : Function.update s.hopcnt i (r.adjCost k i) i = r.adjCost k i :=
    Function.update_self ..
  unfold neighbours
  rw [if_pos hparent]
  dsimp only
  split
  · rename_i hcost
    rw [if_neg (hhop ▸ hcost), at_setRoute hi.2 hi.2, if_pos ⟨rfl, rfl⟩]
    exact ⟨hhop, rfl⟩
  · rename_i hcost
    rw [if_pos (hhop ▸ not_not.mp hcost)]
    exact ⟨hhop, rfl⟩

/-- What the neighbours' loop has written for `v` when it has come to node `i`. -/
def Reached (r : RouteLogic ε) (k i : ℕ) (s : Sweep ε) : Prop :=
  ∀ v, r.IsNode v → s.parent v = v ∧ (v ≠ k → (i ≤ v → (s.at r k v).nextHop = 0) ∧
    (v < i → s.hopcnt v = r.adjCost k v ∧
      (s.at r k v).nextHop = if r.adjCost k v = INFINITY then 0 else v))

lemma Reached.neighbours (h : r.Reached k i s) (hi : r.IsNode i) :
    r.Reached k (i + 1) (r.neighbours k i s) := by
  intro v hv
  rw [neighbours_parent]
  refine ⟨(h v hv).1, fun hvk => ?_⟩
  obtain ⟨hparent, hrest⟩ := h v hv
  obtain ⟨hlater, hbefore⟩ := hrest hvk
  by_cases hvi : v = i
  · subst hvi
    obtain ⟨hhop, hroute⟩ := neighbours_self hi (k := k) (hparent ▸ hvk)
    rw [hlater le_rfl] at hroute
    exact ⟨fun hle => absurd hle (Nat.not_succ_le_self v), fun _ => ⟨hhop, hroute⟩⟩
  · obtain ⟨hhop, hroute⟩ := neighbours_of_ne (k := k) (s := s) hi hv hvi
    rw [hhop, hroute]
    exact ⟨fun hle => hlater (Nat.le_of_succ_le hle), fun hlt => hbefore (by omega)⟩

/-- No node outside the subtree can be routed any more. -/
def Stuck (r : RouteLogic ε) (k : ℕ) (s : Sweep ε) : Prop :=
  ∀ w, r.IsNode w → s.parent w ≠ k → INFINITY ≤ s.hopcnt w

lemma nearest_spec (hsize : 1 ≤ r.size) (hzero : s.hopcnt 0 = INFINITY) :
    (r.nearest k s = 0 ∧ r.Stuck k s) ∨
      (r.IsNode (r.nearest k s) ∧ s.parent (r.nearest k s) ≠ k ∧
        s.hopcnt (r.nearest k s) < INFINITY ∧
        ∀ w, r.IsNode w → s.parent w ≠ k → s.hopcnt (r.nearest k s) ≤ s.hopcnt w) := by
  have hloop : (r.nearest k s = 0 ∨ (r.IsNode (r.nearest k s) ∧ s.parent (r.nearest k s) ≠ k ∧
      s.hopcnt (r.nearest k s) < INFINITY)) ∧
      ∀ w, 1 ≤ w → w < r.size → s.parent w ≠ k → s.hopcnt (r.nearest k s) ≤ s.hopcnt w := by
    refine forLoop_invariant (P := fun i o => (o = 0 ∨ (r.IsNode o ∧ s.parent o ≠ k ∧
      s.hopcnt o < INFINITY)) ∧ ∀ w, 1 ≤ w → w < i → s.parent w ≠ k → s.hopcnt o ≤ s.hopcnt w)
      hsize ⟨Or.inl rfl, fun w h₁ hlt => absurd h₁ (not_le.mpr hlt)⟩ ?_
    intro i o h₁ hi ho
    obtain ⟨hnode, hmin⟩ := ho
    have hle : s.hopcnt o ≤ INFINITY := by
      rcases hnode with rfl | h
      · exact hzero.le
      · exact h.2.2.le
    split
    · rename_i hlt
      refine ⟨Or.inr ⟨⟨h₁, hi⟩, hlt.1, hlt.2.trans_le hle⟩, fun w hw hwi hset => ?_⟩
      rcases Nat.lt_succ_iff_lt_or_eq.mp hwi with hwi | rfl
      · exact hlt.2.le.trans (hmin w hw hwi hset)
      · exact le_rfl
    · rename_i hge
      refine ⟨hnode, fun w hw hwi hset => ?_⟩
      rcases Nat.lt_succ_iff_lt_or_eq.mp hwi with hwi | rfl
      · exact hmin w hw hwi hset
      · exact not_lt.mp fun h => hge ⟨hset, h⟩
  obtain ⟨hnode, hmin⟩ := hloop
  rcases hnode with h | h
  · refine Or.inl ⟨h, fun w hw hset => ?_⟩
    rw [← hzero, ← h]
    exact hmin w hw.1 hw.2 hset
  · exact Or.inr ⟨h.1, h.2.1, h.2.2, fun w hw hset => hmin w hw.1 hw.2 hset⟩

/-- A node is nearer through `o`. -/
def Nearer (r : RouteLogic ε) (k o w : ℕ) (s : Sweep ε) : Prop :=
  s.parent w ≠ k ∧ s.hopcnt o + r.adjCost o w < s.hopcnt w

/-- The costs and the routes after `relax` has come to node `i`. -/
def Relaxed (r : RouteLogic ε) (k o i : ℕ) (s t : Sweep ε) : Prop :=
  t.parent = s.parent ∧ ∀ w, r.IsNode w →
    (w < i → r.Nearer k o w s →
      t.hopcnt w = s.hopcnt o + r.adjCost o w ∧ t.at r k w = s.at r k o) ∧
    (¬(w < i ∧ r.Nearer k o w s) → t.hopcnt w = s.hopcnt w ∧ t.at r k w = s.at r k w)

lemma Relaxed.relax (h : r.Relaxed k o i s t) (ho : r.IsNode o) (hset : s.parent o = k)
    (hi : r.IsNode i) : r.Relaxed k o (i + 1) s (r.relax k o i t) := by
  obtain ⟨hparent, hnodes⟩ := h
  have hsame : t.hopcnt o = s.hopcnt o ∧ t.at r k o = s.at r k o :=
    (hnodes o ho).2 fun hn => hn.2.1 hset
  have hi' : t.hopcnt i = s.hopcnt i ∧ t.at r k i = s.at r k i :=
    (hnodes i hi).2 fun hn => lt_irrefl i hn.1
  have hiff : (t.parent i ≠ k ∧ t.hopcnt o + r.adjCost o i < t.hopcnt i) ↔ r.Nearer k o i s := by
    unfold Nearer
    rw [hparent, hsame.1, hi'.1]
  unfold RouteLogic.relax
  split
  · rename_i hnear
    refine ⟨hparent, fun w hw => ?_⟩
    dsimp only
    by_cases hwi : w = i
    · subst hwi
      have hat : (t.setRoute r k w (t.at r k o)).at r k w = s.at r k o := by
        rw [at_setRoute hw.2 hw.2, if_pos ⟨rfl, rfl⟩, hsame.2]
      refine ⟨fun _ _ => ⟨?_, hat⟩, fun hno => absurd ⟨w.lt_succ_self, hiff.mp hnear⟩ hno⟩
      rw [Function.update_self]
      exact congrArg (· + r.adjCost o w) hsame.1
    · have hhop : Function.update t.hopcnt i (t.hopcnt o + r.adjCost o i) w = t.hopcnt w :=
        Function.update_of_ne hwi _ _
      have hat : (t.setRoute r k i (t.at r k o)).at r k w = t.at r k w := by
        rw [at_setRoute hi.2 hw.2, if_neg fun h => hwi h.2]
      refine ⟨fun hlt hn => ?_, fun hno => ?_⟩
      · have := (hnodes w hw).1 (by omega) hn
        exact ⟨hhop.trans this.1, hat.trans this.2⟩
      · have := (hnodes w hw).2 fun h => hno ⟨by omega, h.2⟩
        exact ⟨hhop.trans this.1, hat.trans this.2⟩
  · rename_i hnear
    refine ⟨hparent, fun w hw => ?_⟩
    by_cases hwi : w = i
    · subst hwi
      exact ⟨fun _ hn => absurd (hiff.mpr hn) hnear, fun _ => hi'⟩
    · exact ⟨fun hlt hn => (hnodes w hw).1 (by omega) hn,
        fun hno => (hnodes w hw).2 fun h => hno ⟨by omega, h.2⟩⟩

lemma relaxed_loop (hset : s.parent o = k) (ho : r.IsNode o) :
    r.Relaxed k o r.size s (forLoop 1 r.size (r.relax k o) s) := by
  refine forLoop_invariant (P := fun i t => r.Relaxed k o i s t) (ho.1.trans ho.2.le)
    ⟨rfl, fun w hw => ?_⟩ fun i t h₁ hi h => h.relax ho hset ⟨h₁, hi⟩
  exact ⟨fun hlt => absurd hw.1 (not_le.mpr hlt), fun _ => ⟨rfl, rfl⟩⟩

section Positive
variable (hpos : ∀ i j, r.IsNode i → r.IsNode j → 0 < r.adjCost i j)
include hpos

lemma link_pos (i j : ℕ) (c : ℚ) (he : r.Link i j c) : 0 < c :=
  he.2.2.1 ▸ hpos i j he.1 he.2.1

/-- Before the first node is taken, the neighbours of the source have the costs of their links. -/
lemma routed_neighbours (hk : r.IsNode k) (hparent : ∀ v, r.IsNode v → s.parent v = v)
    (hzero : ∀ v, r.IsNode v → (s.at r k v).nextHop = 0) :
    r.Routed k (forLoop 1 r.size (r.neighbours k) s) := by
  have hloop : r.Reached k r.size (forLoop 1 r.size (r.neighbours k) s) := by
    refine forLoop_invariant (hk.1.trans hk.2.le) (fun v hv => ?_) fun i _ h₁ hi h =>
      h.neighbours ⟨h₁, hi⟩
    exact ⟨hparent v hv, fun _ => ⟨fun _ => hzero v hv, fun hlt => absurd hv.1 (not_le.mpr hlt)⟩⟩
  generalize forLoop 1 r.size (r.neighbours k) s = t at hloop ⊢
  have hcost : ∀ v, r.IsNode v → v ≠ k → t.hopcnt v = r.adjCost k v ∧
      (t.at r k v).nextHop = if r.adjCost k v = INFINITY then 0 else v := fun v hv hvk =>
    ((hloop v hv).2 hvk).2 hv.2
  have hsource : ∀ v, r.IsNode v → t.parent v = k → v = k := fun v hv h =>
    (hloop v hv).1.symm.trans h
  refine ⟨(hloop k hk).1, fun v hv hset => ?_, fun v hv hset hvk => ?_, fun u v c hu hv he => ?_,
    fun v hv hvk hlt => ?_, fun v hv hno => ?_⟩
  · obtain rfl := hsource v hv hset
    unfold Sweep.dist
    rw [if_pos rfl]
    exact isDist_self (fun i j c he => (link_pos hpos i j c he).le) v
  · exact absurd (hsource v hv hset) hvk
  · obtain rfl := hsource u he.1 hu
    have hvk : v ≠ u := fun h => hv (h ▸ (hloop u he.1).1)
    unfold Sweep.dist
    rw [if_pos rfl, zero_add, (hcost v he.2.1 hvk).1, he.2.2.1]
  · obtain ⟨hhop, hroute⟩ := hcost v hv hvk
    have hlink : r.adjCost k v ≠ INFINITY := fun h => by
      rw [hhop, h] at hlt
      exact lt_irrefl _ hlt
    rw [hroute, hhop, if_neg hlink]
    exact Starts.edge ⟨hk, hv, rfl, hlink⟩
  · have hvk : v ≠ k := fun h => hno 0 (h ▸ .nil v)
    obtain ⟨hhop, hroute⟩ := hcost v hv hvk
    have hlink : r.adjCost k v = INFINITY := by
      by_contra h
      exact hno _ (Walk.edge ⟨hk, hv, rfl, h⟩)
    rw [hroute, hhop, if_pos hlink]
    exact ⟨hlink, rfl⟩

/-- The nearest node is at its least cost. -/
lemma Routed.isDist_nearest (h : r.Routed k s) (hk : r.IsNode k) (ho : r.IsNode o)
    (hopen : s.parent o ≠ k) (hbelow : s.hopcnt o < INFINITY)
    (hmin : ∀ w, r.IsNode w → s.parent w ≠ k → s.hopcnt o ≤ s.hopcnt w) :
    IsDist r.Link k o (s.hopcnt o) := by
  have hok : o ≠ k := fun heq => hopen (heq ▸ h.source)
  refine isDist_of_nearest (S := fun x => r.IsNode x ∧ s.parent x = k)
    (fun i j c he => (link_pos hpos i j c he).le)
    (fun x hx => h.settled x hx.1 hx.2) ⟨hk, h.source⟩ (fun hS => hopen hS.2)
    (h.found o ho hok hbelow).walk fun x y e hx hy he => ?_
  have hyopen : s.parent y ≠ k := fun heq => hy ⟨he.2.1, heq⟩
  exact (hmin y he.2.1 hyopen).trans (h.frontier x y e hx.2 hyopen he)

/-- A node that is nearer through `o` is at the end of a link. -/
lemma Routed.link_of_nearer (h : r.Routed k s) (ho : r.IsNode o) (hok : o ≠ k)
    (hbelow : s.hopcnt o < INFINITY) (hw : r.IsNode w) (hlt : s.hopcnt o + r.adjCost o w < INFINITY) :
    r.Link o w (r.adjCost o w) := by
  have hposo : 0 < s.hopcnt o := (h.found o ho hok hbelow).pos (link_pos hpos)
  exact ⟨ho, hw, rfl, by linarith⟩

/-- The nearest node is settled, and the others are offered the walks through it. -/
lemma Routed.relaxed (h : r.Routed k s) (hk : r.IsNode k) (ho : r.IsNode o) (hopen : s.parent o ≠ k)
    (hbelow : s.hopcnt o < INFINITY)
    (hmin : ∀ w, r.IsNode w → s.parent w ≠ k → s.hopcnt o ≤ s.hopcnt w)
    (ht : r.Relaxed k o r.size { s with parent := Function.update s.parent o k } t) :
    r.Routed k t := by
  have hok : o ≠ k := fun heq => hopen (heq ▸ h.source)
  have hset : ∀ v, t.parent v = k ↔ v = o ∨ s.parent v = k := fun v => by
    have hparent : t.parent = Function.update s.parent o k := ht.1
    rw [hparent, Function.update_apply]
    split_ifs with hvo
    · simp [hvo]
    · simp [hvo]
  have hold : ∀ v, r.IsNode v → t.parent v = k →
      t.hopcnt v = s.hopcnt v ∧ t.at r k v = s.at r k v := fun v hv hv' =>
    (ht.2 v hv).2 fun hn => hn.2.1 (ht.1 ▸ hv')
  have hdist : ∀ v, r.IsNode v → s.parent v = k → t.dist k v = s.dist k v := fun v hv hv' => by
    unfold Sweep.dist
    rw [(hold v hv ((hset v).mpr (Or.inr hv'))).1]
  have hdisto : t.dist k o = s.hopcnt o := by
    unfold Sweep.dist
    rw [if_neg hok, (hold o ho ((hset o).mpr (Or.inl rfl))).1]
  -- a node outside the subtree is offered the walk through `o`, or keeps what it had
  have hnew : ∀ v, r.IsNode v → t.parent v ≠ k →
      (s.hopcnt o + r.adjCost o v < s.hopcnt v ∧ t.hopcnt v = s.hopcnt o + r.adjCost o v ∧
        t.at r k v = s.at r k o) ∨
      (s.hopcnt v ≤ s.hopcnt o + r.adjCost o v ∧ t.hopcnt v = s.hopcnt v ∧
        t.at r k v = s.at r k v) := by
    intro v hv hv'
    by_cases hlt : s.hopcnt o + r.adjCost o v < s.hopcnt v
    · exact Or.inl ⟨hlt, (ht.2 v hv).1 hv.2 ⟨ht.1 ▸ hv', hlt⟩⟩
    · exact Or.inr ⟨not_lt.mp hlt, (ht.2 v hv).2 fun hn => hlt hn.2.2⟩
  refine ⟨(hset k).mpr (Or.inr h.source), fun v hv hv' => ?_, fun v hv hv' hvk => ?_,
    fun u v c hu hv he => ?_, fun v hv hvk hlt => ?_, fun v hv hno => ?_⟩
  · rcases (hset v).mp hv' with rfl | hsv
    · rw [hdisto]
      exact h.isDist_nearest hpos hk ho hopen hbelow hmin
    · rw [hdist v hv hsv]
      exact h.settled v hv hsv
  · rw [(hold v hv hv').1]
    rcases (hset v).mp hv' with rfl | hsv
    · exact hbelow
    · exact h.below v hv hsv hvk
  · have hsv : s.parent v ≠ k := fun heq => hv ((hset v).mpr (Or.inr heq))
    rcases (hset u).mp hu with rfl | hsu
    · rw [hdisto, he.2.2.1]
      rcases hnew v he.2.1 hv with ⟨-, heq, -⟩ | ⟨hle, heq, -⟩
      · exact heq.le
      · exact heq.trans_le hle
    · rw [hdist u he.1 hsu]
      have hle := h.frontier u v c hsu hsv he
      rcases hnew v he.2.1 hv with ⟨hlt, heq, -⟩ | ⟨-, heq, -⟩
      · exact (heq.trans_lt hlt).le.trans hle
      · exact heq.trans_le hle
  · by_cases hv' : t.parent v = k
    · rw [(hold v hv hv').1] at hlt ⊢
      rw [(hold v hv hv').2]
      exact h.found v hv hvk hlt
    · rcases hnew v hv hv' with ⟨-, heq, hat⟩ | ⟨-, heq, hat⟩
      · rw [heq] at hlt ⊢
        rw [hat]
        exact (h.found o ho hok hbelow).snoc (h.link_of_nearer hpos ho hok hbelow hv hlt)
      · rw [heq] at hlt ⊢
        rw [hat]
        exact h.found v hv hvk hlt
  · obtain ⟨hinf, hzero⟩ := h.unreached v hv hno
    by_cases hv' : t.parent v = k
    · rw [(hold v hv hv').1, (hold v hv hv').2]
      exact ⟨hinf, hzero⟩
    · rcases hnew v hv hv' with ⟨hlt, -, -⟩ | ⟨-, heq, hat⟩
      · rw [hinf] at hlt
        exact absurd ((h.found o ho hok hbelow).walk.snoc
          (h.link_of_nearer hpos ho hok hbelow hv hlt)) (hno _)
      · rw [heq, hat]
        exact ⟨hinf, hzero⟩

end Positive

/-- The nodes that are not yet in the subtree. -/
def unsettled (r : RouteLogic ε) (k : ℕ) (s : Sweep ε) : Finset ℕ :=
  (Finset.Ico 1 r.size).filter fun v => s.parent v ≠ k

/-- Each pass settles a node, unless no further node can be routed. -/
lemma Routed.settle (hpos : ∀ i j, r.IsNode i → r.IsNode j → 0 < r.adjCost i j) (h : r.Routed k s)
    (hk : r.IsNode k) (hleft : r.Stuck k s ∨ (r.unsettled k s).card + i ≤ r.size) :
    r.Routed k (r.settle k s) ∧
      (r.Stuck k (r.settle k s) ∨ (r.unsettled k (r.settle k s)).card + (i + 1) ≤ r.size) := by
  unfold RouteLogic.settle
  extract_lets s₁ o s₂
  have hhop : ∀ v, r.IsNode v → s₁.hopcnt v = s.hopcnt v := fun v hv =>
    Function.update_of_ne (Nat.one_le_iff_ne_zero.mp hv.1) _ _
  have hs₁ : r.Routed k s₁ := h.congr hk (fun _ _ => rfl) hhop rfl
  have hzero : s₁.hopcnt 0 = INFINITY := Function.update_self 0 INFINITY s.hopcnt
  rcases nearest_spec (k := k) (hk.1.trans hk.2.le) hzero with ⟨ho, hstuck⟩ | ⟨ho, hopen, hbelow, hmin⟩
  · have hparent : ∀ v, r.IsNode v → s₂.parent v = s₁.parent v := fun v hv =>
      Function.update_of_ne (fun heq => by have := hv.1; omega) _ _
    rw [if_pos ho]
    exact ⟨hs₁.congr hk hparent (fun _ _ => rfl) rfl,
      Or.inl fun w hw hw' => hstuck w hw (hparent w hw ▸ hw')⟩
  · have hpos' : o ≠ 0 := Nat.one_le_iff_ne_zero.mp ho.1
    rw [if_neg hpos']
    have hself : s₂.parent o = k := Function.update_self o k s₁.parent
    have hrel := relaxed_loop hself ho
    refine ⟨hs₁.relaxed hpos hk ho hopen hbelow hmin hrel, Or.inr ?_⟩
    rcases hleft with hstuck | hcard
    · exact absurd (hstuck o ho hopen) (not_le.mpr ((hhop o ho) ▸ hbelow))
    · have hsub : r.unsettled k (forLoop 1 r.size (r.relax k o) s₂) ⊂ r.unsettled k s := by
        unfold unsettled
        rw [hrel.1]
        refine Finset.ssubset_iff_subset_ne.mpr ⟨fun v hv => ?_, fun heq => ?_⟩
        · simp only [Finset.mem_filter] at hv ⊢
          refine ⟨hv.1, fun hvk => hv.2 ?_⟩
          by_cases hvo : v = o
          · rw [hvo]
            exact hself
          · exact (Function.update_of_ne hvo _ _).trans hvk
        · have hin : o ∈ (Finset.Ico 1 r.size).filter fun v => s.parent v ≠ k := by
            simp only [Finset.mem_filter, Finset.mem_Ico]
            exact ⟨ho, hopen⟩
          rw [← heq, Finset.mem_filter] at hin
          exact hin.2 hself
      have := Finset.card_lt_card hsub
      omega

/-- A row of the table: 0 where there is no route, else the first hop of a least-cost walk. -/
def RowCorrect (r : RouteLogic ε) (k : ℕ) (s : Sweep ε) : Prop :=
  ∀ v, r.IsNode v → k ≠ v →
    ((∀ c, ¬Walk r.Link k v c) → (s.at r k v).nextHop = 0) ∧
    ((∃ c, Walk r.Link k v c) → FirstHop r.Link k v (s.at r k v).nextHop)

lemma Routed.rowCorrect (hpos : ∀ i j, r.IsNode i → r.IsNode j → 0 < r.adjCost i j)
    (hshort : ∀ k v c, Walk r.Link k v c → ∃ c' < INFINITY, Walk r.Link k v c') (h : r.Routed k s)
    (hk : r.IsNode k) (hstuck : r.Stuck k s) : r.RowCorrect k s := by
  intro v hv hkv
  refine ⟨fun hno => (h.unreached v hv hno).2, fun ⟨c, hc⟩ => ?_⟩
  have hset : s.parent v = k := by
    by_contra hopen
    obtain ⟨c', hlt, hc'⟩ := hshort k v c hc
    obtain ⟨x, y, e, hx, hy, he, hle⟩ := Walk.frontier_le
      (S := fun x => r.IsNode x ∧ s.parent x = k) (fun i j c he => (link_pos hpos i j c he).le)
      (fun x hx => h.settled x hx.1 hx.2) ⟨hk, h.source⟩ (fun hS => hopen hS.2) hc'
    have hyopen : s.parent y ≠ k := fun heq => hy ⟨he.2.1, heq⟩
    have := hstuck y he.2.1 hyopen
    have := h.frontier x y e hx.2 hyopen he
    linarith
  have hdist := h.settled v hv hset
  unfold Sweep.dist at hdist
  rw [if_neg hkv.symm] at hdist
  exact ⟨_, hdist, h.found v hv hkv.symm (h.below v hv hset hkv.symm)⟩

lemma source_correct (hpos : ∀ i j, r.IsNode i → r.IsNode j → 0 < r.adjCost i j)
    (hshort : ∀ k v c, Walk r.Link k v c → ∃ c' < INFINITY, Walk r.Link k v c') (hk : r.IsNode k)
    (hzero : ∀ v, r.IsNode v → (s.at r k v).nextHop = 0) : r.RowCorrect k (r.source k s) := by
  unfold source
  extract_lets s₁ s₂
  have hs₂ : r.Routed k s₂ := by
    refine routed_neighbours hpos hk (fun v hv => ?_) hzero
    exact if_pos hv.2
  have hcard : (r.unsettled k s₂).card + 1 ≤ r.size := by
    have hle := Finset.card_filter_le (Finset.Ico 1 r.size) fun v => s₂.parent v ≠ k
    have hsize := hk.1.trans hk.2.le
    rw [Nat.card_Ico] at hle
    unfold unsettled
    omega
  have hloop := forLoop_invariant
    (P := fun i s => r.Routed k s ∧ (r.Stuck k s ∨ (r.unsettled k s).card + i ≤ r.size))
    (hk.1.trans hk.2.le) ⟨hs₂, Or.inr hcard⟩ fun i s _ _ h => h.1.settle hpos hk h.2
  generalize forLoop 1 r.size (fun _ => r.settle k) s₂ = t at hloop ⊢
  refine hloop.1.rowCorrect hpos hshort hk (hloop.2.elim id fun hle w hw hopen => ?_)
  have hempty : r.unsettled k t = ∅ := Finset.card_eq_zero.mp (by omega)
  have hin : w ∈ r.unsettled k t := Finset.mem_filter.mpr ⟨Finset.mem_Ico.mpr hw, hopen⟩
  rw [hempty] at hin
  exact absurd hin (Finset.notMem_empty w)

lemma RowCorrect.congr (h : r.RowCorrect k s)
    (hst : ∀ v, r.IsNode v → k ≠ v → t.at r k v = s.at r k v) : r.RowCorrect k t := by
  intro v hv hkv
  rw [hst v hv hkv]
  exact h v hv hkv

/-- From any node, the routes lead to `v` along a walk of the least cost. -/
lemma follow_routes (hpos : ∀ i j, r.IsNode i → r.IsNode j → 0 < r.adjCost i j)
    (hrows : ∀ k, r.IsNode k → r.RowCorrect k s) (hv : r.IsNode v) (hk : r.IsNode k)
    (hc : Walk r.Link k v c) : ∃ d, IsDist r.Link k v d ∧
      Walk (fun a b c => a ≠ v ∧ b = (s.at r a v).nextHop ∧ r.Link a b c) k v d := by
  classical
  have hE := link_pos hpos
  have hexists : ∀ u, r.IsNode u → (∃ c, Walk r.Link u v c) → ∃ d, IsDist r.Link u v d := by
    intro u hu hreach
    by_cases huv : u = v
    · exact ⟨0, huv ▸ isDist_self (fun i j c he => (hE i j c he).le) v⟩
    · obtain ⟨d, hd, -⟩ := (hrows u hu v hv huv).2 hreach
      exact ⟨d, hd⟩
  obtain ⟨dist, hdist⟩ : ∃ dist : ℕ → ℚ, ∀ u, r.IsNode u → (∃ c, Walk r.Link u v c) →
      IsDist r.Link u v (dist u) := by
    refine ⟨fun u => if h : ∃ d, IsDist r.Link u v d then h.choose else 0, fun u hu hreach => ?_⟩
    dsimp only
    rw [dif_pos (hexists u hu hreach)]
    exact (hexists u hu hreach).choose_spec
  refine ⟨dist k, hdist k hk ⟨c, hc⟩, ?_⟩
  refine walk_of_next (f := fun u => (s.at r u v).nextHop)
    (N := (Finset.Ico 1 r.size).filter fun u => ∃ c, Walk r.Link u v c) hE
    ((hdist v hv ⟨0, .nil v⟩).unique (isDist_self (fun i j c he => (hE i j c he).le) v)) (fun u hu huv => ?_) ?_
  · obtain ⟨hnode, hreach⟩ := Finset.mem_filter.mp hu
    have hu' : r.IsNode u := Finset.mem_Ico.mp hnode
    obtain ⟨d, hd, a, b, he, hw, hab⟩ := (hrows u hu' v hv huv).2 hreach
    subst hab
    have hb := (hdist _ he.2.1 ⟨b, hw⟩).unique (hd.tail he hw)
    refine ⟨Finset.mem_filter.mpr ⟨Finset.mem_Ico.mpr he.2.1, b, hw⟩, a, he, ?_⟩
    rw [hb]
    exact (hdist u hu' hreach).unique hd
  · exact Finset.mem_filter.mpr ⟨Finset.mem_Ico.mpr hk, c, hc⟩

/-- Every node with a cost has a route, as soon as the neighbours have theirs; the costs may be of any sign. -/
structure Served (r : RouteLogic ε) (k : ℕ) (s : Sweep ε) : Prop where
  source : s.parent k = k
  found : ∀ v, r.IsNode v → v ≠ k → s.hopcnt v ≠ INFINITY → (s.at r k v).nextHop ≠ 0
  neighbour : ∀ v, r.IsNode v → v ≠ k → r.adjCost k v ≠ INFINITY → (s.at r k v).nextHop ≠ 0

lemma Served.congr (h : r.Served k s) (hparent : t.parent k = k)
    (hhop : ∀ v, r.IsNode v → t.hopcnt v = s.hopcnt v) (hroute : t.route = s.route) : r.Served k t := by
  have hat : ∀ v, t.at r k v = s.at r k v := fun v => by
    unfold Sweep.at
    rw [hroute]
  refine ⟨hparent, fun v hv hvk hcost => ?_, fun v hv hvk hcost => ?_⟩
  · rw [hat]
    exact h.found v hv hvk (hhop v hv ▸ hcost)
  · rw [hat]
    exact h.neighbour v hv hvk hcost

lemma served_neighbours (hk : r.IsNode k) (hparent : ∀ v, r.IsNode v → s.parent v = v)
    (hzero : ∀ v, r.IsNode v → (s.at r k v).nextHop = 0) :
    r.Served k (forLoop 1 r.size (r.neighbours k) s) := by
  have hloop : r.Reached k r.size (forLoop 1 r.size (r.neighbours k) s) := by
    refine forLoop_invariant (hk.1.trans hk.2.le) (fun v hv => ?_) fun i _ h₁ hi h =>
      h.neighbours ⟨h₁, hi⟩
    exact ⟨hparent v hv, fun _ => ⟨fun _ => hzero v hv, fun hlt => absurd hv.1 (not_le.mpr hlt)⟩⟩
  generalize forLoop 1 r.size (r.neighbours k) s = t at hloop ⊢
  have hnext : ∀ v, r.IsNode v → v ≠ k → r.adjCost k v ≠ INFINITY → (t.at r k v).nextHop ≠ 0 := by
    intro v hv hvk hcost
    rw [(((hloop v hv).2 hvk).2 hv.2).2, if_neg hcost]
    exact Nat.one_le_iff_ne_zero.mp hv.1
  refine ⟨(hloop k hk).1, fun v hv hvk hcost => hnext v hv hvk ?_, hnext⟩
  rwa [← (((hloop v hv).2 hvk).2 hv.2).1]

lemma Served.settle (h : r.Served k s) (hk : r.IsNode k) : r.Served k (r.settle k s) := by
  unfold RouteLogic.settle
  extract_lets s₁ o s₂
  have hs₁ : r.Served k s₁ := h.congr h.source
    (fun v hv => Function.update_of_ne (Nat.one_le_iff_ne_zero.mp hv.1) _ _) rfl
  have hzero : s₁.hopcnt 0 = INFINITY := Function.update_self 0 INFINITY s.hopcnt
  have hparent : s₂.parent k = k := by
    by_cases hko : k = o
    · exact (congrArg s₂.parent hko).trans (Function.update_self o k s₁.parent)
    · exact (Function.update_of_ne hko _ _).trans hs₁.source
  have hs₂ : r.Served k s₂ := hs₁.congr hparent (fun _ _ => rfl) rfl
  rcases nearest_spec (k := k) (hk.1.trans hk.2.le) hzero with ⟨ho, -⟩ | ⟨ho, hopen, hbelow, -⟩
  · rw [if_pos ho]
    exact hs₂
  · rw [if_neg (Nat.one_le_iff_ne_zero.mp ho.1)]
    have hok : o ≠ k := fun heq => hopen ((congrArg s₁.parent heq).trans hs₁.source)
    have hroute : (s₂.at r k o).nextHop ≠ 0 := hs₂.found o ho hok hbelow.ne
    obtain ⟨hsame, hnodes⟩ := relaxed_loop (s := s₂) (Function.update_self o k s₁.parent) ho
    generalize forLoop 1 r.size (r.relax k o) s₂ = t at hsame hnodes ⊢
    refine ⟨(congrFun hsame k).trans hparent, fun v hv hvk hcost => ?_, fun v hv hvk hcost => ?_⟩
    all_goals
      by_cases hnear : r.Nearer k o v s₂
      · rw [((hnodes v hv).1 hv.2 hnear).2]
        exact hroute
      · obtain ⟨hhop, hat⟩ := (hnodes v hv).2 fun hn => hnear hn.2
        rw [hat]
        first
          | exact hs₂.found v hv hvk (hhop ▸ hcost)
          | exact hs₂.neighbour v hv hvk hcost

/-- The tables have a route for every link, whatever its cost. -/
lemma nextHop_ne_zero (hk : r.IsNode k) (hv : r.IsNode v) (hvk : v ≠ k) (hcost : r.adjCost k v ≠ INFINITY)
    (parent : ℕ → ℕ) (hopcnt : ℕ → ℚ) : ((r.computeRoutes parent hopcnt).at r k v).nextHop ≠ 0 := by
  unfold computeRoutes
  have hsources := forLoop_invariant (P := fun i (s : Sweep ε) =>
      (k < i → (s.at r k v).nextHop ≠ 0) ∧ (i ≤ k → ∀ v, r.IsNode v → (s.at r k v).nextHop = 0))
    (f := r.source) (s := ⟨parent, hopcnt, fun _ => ⟨0, none⟩⟩) (hk.1.trans hk.2.le)
    ⟨fun hlt => absurd hk.1 (not_le.mpr hlt), fun _ _ _ => rfl⟩ ?_
  · refine forLoop_keeps (P := fun s : Sweep ε => (s.at r k v).nextHop ≠ 0) (hsources.1 hk.2)
      fun i s h₁ hi h => ?_
    rwa [at_setRoute hi hv.2, if_neg fun heq => hvk (heq.2.trans heq.1.symm)]
  · intro i s h₁ hi h
    by_cases hki : k = i
    · subst hki
      refine ⟨fun _ => ?_, fun hle => absurd hle (Nat.not_succ_le_self k)⟩
      unfold source
      extract_lets s₁ s₂
      have hs₂ : r.Served k s₂ := served_neighbours hk (fun v hv => if_pos hv.2) (h.2 le_rfl)
      exact (forLoop_keeps hs₂ fun _ _ _ _ h => h.settle hk).neighbour v hv hvk hcost
    · have hrow : ∀ v, r.IsNode v → (r.source i s).at r k v = s.at r k v := fun v hv =>
        sameRows_source k v hv.2 hki
      refine ⟨fun hlt => ?_, fun hle v hv => ?_⟩
      · rw [hrow v hv]
        exact h.1 (by omega)
      · rw [hrow v hv]
        exact h.2 (by omega) v hv

/-- Three nodes, where the direct link between the first and the last is expensive. -/
def triangle : RouteLogic Unit where
  size := 4
  adj i := ⟨if i ∈ [INDEX 1 3 4, INDEX 3 1 4] then 5 else 1, none⟩

example : ((triangle.computeRoutes id fun _ => 0).at triangle 1 3).nextHop = 2 := by
  decide +kernel

lemma triangle_pos (i j : ℕ) (_ : triangle.IsNode i) (_ : triangle.IsNode j) :
    0 < triangle.adjCost i j := by
  unfold adjCost triangle
  dsimp only
  split <;> norm_num

lemma triangle_edge {i j : ℕ} (hi : triangle.IsNode i) (hj : triangle.IsNode j) :
    ∃ c < INFINITY, Walk triangle.Link i j c := by
  have hcost : triangle.adjCost i j < INFINITY := by
    unfold adjCost triangle INFINITY
    dsimp only
    split <;> norm_num
  exact ⟨_, hcost, Walk.edge ⟨hi, hj, rfl, hcost.ne⟩⟩

end RouteLogic

end NetworkSimulator
