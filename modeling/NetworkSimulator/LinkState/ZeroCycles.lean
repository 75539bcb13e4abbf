import NetworkSimulator.LinkState.Labels
import Mathlib.Data.Int.LeastGreatest
import Mathlib.Data.Prod.Lex
import Mathlib.Algebra.BigOperators.Group.Finset.Basic
import Mathlib.Algebra.Order.BigOperators.Group.Finset

/-!
# Cycles of cost 0

A path that is popped hands on paths that are not shorter. So the loop of `_computeRoutes` comes to its end
when no links of cost 0 lead in a circle. Around such a circle the paths are handed on for ever, since a
path that is as good as the one in the paths is put among the tentative ones again.
-/

namespace NetworkSimulator
open Library

namespace LsRouting

/-- Up links of cost 0 lead in a circle, and the node has a path to it. -/
def ZeroCycle (db : LsTopoMap) (myNodeId : ℤ) : Prop :=
  ∃ u v c, Walk (UpLink db) myNodeId u c ∧ c ≤ LS_MAX_COST ∧ UpLink db u v 0 ∧ Walk (UpLink db) v u 0

variable {db : LsTopoMap} {myNodeId : ℤ} {paths tentative : LsPaths} {ep : LsEqualPaths}
  {u v c d e : ℤ}

open Classical in
/-- The nodes behind a link of cost 0 and further such links. -/
noncomputable def zeroReach (db : LsTopoMap) (v : ℤ) : Finset ℤ :=
  (linkEnds db).filter fun x => ∃ y, UpLink db v y 0 ∧ Walk (UpLink db) y x 0

lemma mem_zeroReach : u ∈ zeroReach db v ↔
    u ∈ linkEnds db ∧ ∃ y, UpLink db v y 0 ∧ Walk (UpLink db) y u 0 := by
  classical
  unfold zeroReach
  exact Finset.mem_filter

/-- How much further a path of cost `c` to `v` can be handed on. -/
noncomputable def range (db : LsTopoMap) (v c : ℤ) : ℕ ×ₗ ℕ :=
  toLex ((LS_MAX_COST + 1 - c).toNat, (zeroReach db v).card)

/-- A path that is handed on has less range. -/
lemma range_lt (hno : ¬ZeroCycle db myNodeId) (hw : Walk (UpLink db) myNodeId v c) (hc : c ≤ LS_MAX_COST)
    (he : UpLink db v u e) (hpos : 0 ≤ e) : range db u (c + e) < range db v c := by
  unfold range
  rw [Prod.Lex.toLex_lt_toLex]
  rcases hpos.lt_or_eq with hlt | rfl
  · refine Or.inl ?_
    dsimp only
    omega
  · rw [add_zero]
    refine Or.inr ⟨rfl, ?_⟩
    dsimp only
    apply Finset.card_lt_card
    have hmem : u ∈ zeroReach db v :=
      mem_zeroReach.mpr ⟨he.mem_linkEnds, u, he, .nil u⟩
    refine (Finset.ssubset_iff_of_subset fun x hx => ?_).mpr ⟨u, hmem, fun hu => ?_⟩
    · obtain ⟨hx, y, hy, hxy⟩ := mem_zeroReach.mp hx
      exact mem_zeroReach.mpr ⟨hx, u, he, zero_add (0 : ℤ) ▸ Walk.cons hy hxy⟩
    · obtain ⟨-, y, hy, hyu⟩ := mem_zeroReach.mp hu
      exact hno ⟨u, y, c, add_zero c ▸ hw.snoc he, hc, hy, hyu⟩

/-- The next hops of a tentative entry, as the range that each of them has. -/
noncomputable def held (db : LsTopoMap) (tentative : LsPaths) (v : ℤ) : Multiset (ℕ ×ₗ ℕ) :=
  (tentative.find v).elim 0 fun ep => Multiset.replicate ep.nextHopList.length (range db v ep.cost)

noncomputable def stock (db : LsTopoMap) (tentative : LsPaths) : Multiset (ℕ ×ₗ ℕ) :=
  ∑ v ∈ linkEnds db, held db tentative v

/-- No entry has got more next hops of range `i` or further. -/
def NoMore (db : LsTopoMap) (i : ℕ ×ₗ ℕ) (t' t : LsPaths) : Prop :=
  ∀ v j, i ≤ j → (held db t' v).count j ≤ (held db t v).count j

lemma NoMore.stock_lt {i : ℕ ×ₗ ℕ} {t' t : LsPaths} (hle : NoMore db i t' t) (hv : v ∈ linkEnds db)
    (hlt : (held db t' v).count i < (held db t v).count i) :
    (stock db t').IsDershowitzMannaLT (stock db t) := by
  refine isDershowitzMannaLT_of_count (i := i) ?_ fun j hj => ?_
  · unfold stock
    rw [Multiset.count_sum', Multiset.count_sum']
    exact Finset.sum_lt_sum (fun w _ => hle w i le_rfl) ⟨v, hv, hlt⟩
  · unfold stock
    rw [Multiset.count_sum', Multiset.count_sum']
    exact Finset.sum_le_sum fun w _ => hle w j hj.le

lemma count_replicate_of_lt {α : Type*} [LinearOrder α] {i j k : α} {n : ℕ} (hlt : k < i) (hle : i ≤ j) :
    (Multiset.replicate n k).count j = 0 := by
  rw [Multiset.count_replicate, if_neg (hlt.trans_le hle).ne]

lemma noMore_insert {i : ℕ ×ₗ ℕ} {l : List ℤ} (hlt : range db d e < i) :
    NoMore db i (tentative.insertNextHopList d e l) tentative := by
  intro v j hj
  by_cases hv : v = d
  · subst hv
    unfold held
    rcases LsPaths.insertNextHopList_self tentative v e l with
      ⟨old, hold, -, hnew⟩ | ⟨hnew, -⟩ | ⟨old, -, -, hnew⟩
    · rw [hnew, hold]
    · rw [hnew, Option.elim_some, count_replicate_of_lt hlt hj]
      exact Nat.zero_le _
    · rw [hnew, Option.elim_some, count_replicate_of_lt hlt hj]
      exact Nat.zero_le _
  · unfold held
    rw [LsPaths.insertNextHopList_of_ne hv]

/-- A round takes a next hop away, and gives less range to those that it adds. -/
lemma Round.stock_lt {t paths' : LsPaths} (hcost : ∀ u v c, UpLink db u v c → 0 ≤ c)
    (hno : ¬ZeroCycle db myNodeId) (hr : Round db myNodeId paths tentative v ep t paths')
    (hs : Labels db myNodeId paths tentative none) :
    (stock db (handOn db myNodeId paths' t v)).IsDershowitzMannaLT (stock db tentative) := by
  obtain ⟨hops, hfound, hlabel⟩ := hr.found hs
  obtain ⟨h, rest, hhops, -, ht⟩ := hr.popped
  have hhand : NoMore db (range db v ep.cost) (handOn db myNodeId paths' t v) t := by
    refine handOn_keeps (P := fun t' => NoMore db (range db v ep.cost) t' t) hfound
      (fun _ _ _ => le_rfl) fun t' d e l ht' he _ _ => ?_
    have hlt := range_lt hno hlabel.walk hr.bound he (hcost _ _ _ he)
    exact fun w j hj => (noMore_insert hlt w j hj).trans (ht' w j hj)
  have hpopped : (held db t v).count (range db v ep.cost) + 1 =
      (held db tentative v).count (range db v ep.cost) := by
    unfold held
    rw [hr.tried, ht, Option.elim_some, Multiset.count_replicate_self, hhops]
    split
    · rename_i hrest
      rw [hrest]
      rfl
    · rw [Option.elim_some, Multiset.count_replicate_self, List.length_cons]
  refine NoMore.stock_lt (i := range db v ep.cost) (fun w j hj => (hhand w j hj).trans ?_)
    (hs.tried v ep hr.tried).2 ((hhand v _ le_rfl).trans_lt ?_)
  · by_cases hwv : w = v
    · subst hwv
      unfold held
      rw [hr.tried, ht, Option.elim_some, hhops]
      split
      · exact Nat.zero_le _
      · exact Multiset.count_le_of_le j (Multiset.replicate_le_replicate _ |>.mpr (Nat.le_succ _))
    · unfold held
      rw [hr.kept w hwv]
  · omega

/-- Without a cycle of cost 0 the machine comes to its end. -/
lemma Labels.ends (hcost : ∀ u v c, UpLink db u v c → 0 ≤ c) (hno : ¬ZeroCycle db myNodeId)
    (hs : Labels db myNodeId paths tentative none) :
    ∃ n, Outcome db myNodeId ((Loop.step db myNodeId)^[n] (.pop paths tentative)) := by
  refine iterate_terminates (P := fun s => ∃ p t, s = .pop p t ∧ Labels db myNodeId p t none)
    Multiset.wellFounded_isDershowitzMannaLT
    (fun s => match s with | .pop _ t => stock db t | _ => 0) ?_ ⟨paths, tentative, rfl, hs⟩
  rintro s ⟨p, t, rfl, hs⟩
  rcases hs.round with ⟨hempty, hstep⟩ | ⟨hne, hstep, hover⟩ | ⟨v, ep, t', p', hr, n, hstep⟩
  · refine Or.inl ⟨1, ?_⟩
    rw [Function.iterate_one, hstep]
    exact .returned hs hempty
  · refine Or.inl ⟨1, ?_⟩
    rw [Function.iterate_one, hstep]
    exact .aborted hs hne hover
  · refine Or.inr ⟨n + 1, ?_⟩
    rw [hstep]
    exact ⟨⟨p', _, rfl, hr.labels hs⟩, hr.stock_lt hcost hno hs⟩

/-- The nodes of a circle of links of cost 0, all at the least cost `D`. -/
structure Circle (db : LsTopoMap) (myNodeId : ℤ) (K : ℤ → Prop) (D : ℤ) : Prop where
  next : ∀ x, K x → ∃ y, K y ∧ UpLink db x y 0
  least : ∀ x c, K x → Walk (UpLink db) myNodeId x c → D ≤ c
  reached : ∃ x, K x ∧ Walk (UpLink db) myNodeId x D
  bound : D ≤ LS_MAX_COST

lemma ZeroCycle.circle (hcost : ∀ u v c, UpLink db u v c → 0 ≤ c) (h : ZeroCycle db myNodeId) :
    ∃ K D, Circle db myNodeId K D := by
  obtain ⟨u, v, c, hw, hc, he, hback⟩ := h
  obtain ⟨D, hD, hleast⟩ := Int.exists_least_of_bdd (P := fun d => Walk (UpLink db) myNodeId u d)
    ⟨0, fun _ hd => hd.nonneg hcost⟩ ⟨c, hw⟩
  refine ⟨fun x => Walk (UpLink db) u x 0 ∧ Walk (UpLink db) x u 0, D, fun x hx => ?_, fun x c hx hc => ?_,
    ⟨u, ⟨.nil u, .nil u⟩, hD⟩, (hleast c hw).trans hc⟩
  · obtain ⟨hux, hxu⟩ := hx
    rcases hxu.first with ⟨rfl, -⟩ | ⟨y, a, b, hxy, hyu, hsum⟩
    · exact ⟨v, ⟨.edge he, hback⟩, he⟩
    · have ha := hcost _ _ _ hxy
      have hb := hyu.nonneg hcost
      obtain ⟨rfl, rfl⟩ : a = 0 ∧ b = 0 := by omega
      exact ⟨y, ⟨zero_add (0 : ℤ) ▸ hux.snoc hxy, hyu⟩, hxy⟩
  · exact hleast c (add_zero c ▸ hc.append hx.2)

section Circles
variable {K : ℤ → Prop} {D : ℤ}

/-- When the circle has been reached in the paths, one of its nodes is among the tentative ones. -/
def Circling (K : ℤ → Prop) (D : ℤ) (paths tentative : LsPaths) : Prop :=
  (∃ x ep, K x ∧ paths.find x = some ep ∧ ep.cost = D) → ∃ y, K y ∧ Within tentative y D

/-- A node of the circle hands its path on to the next one. -/
lemma Circle.handOn {pending : Option ℤ} (hK : Circle db myNodeId K D)
    (hs : Labels db myNodeId paths tentative pending) (hv : K v) (hfind : paths.find v = some ep)
    (hD : ep.cost = D) {t : LsPaths} : ∃ y, K y ∧ Within (handOn db myNodeId paths t v) y D := by
  obtain ⟨y, hy, he⟩ := hK.next v hv
  refine ⟨y, hy, ?_⟩
  rcases handOn_within hfind he with hlt | h
  · exfalso
    have hbound := hK.bound
    cases hold : paths.find y with
    | none =>
      rw [LsPaths.lookupCost_of_none hold] at hlt
      omega
    | some old =>
      rw [LsPaths.lookupCost_eq hold] at hlt
      have := hK.least y old.cost hy (hs.settled y old hold).1.walk
      omega
  · exact h.mono (by omega)

variable (hcost : ∀ u v c, UpLink db u v c → 0 ≤ c)
include hcost

/-- Before and after the circle has been reached there is a tentative path to pop. -/
lemma Circle.exists_within (hK : Circle db myNodeId K D) (hs : Labels db myNodeId paths tentative none)
    (ha : Circling K D paths tentative) : ∃ y, Within tentative y D := by
  obtain ⟨x, hx, hw⟩ := hK.reached
  rcases hs.frontier hcost hw (hK.bound.trans (Int.le_add_one le_rfl)) with ⟨ep, hfind, hle⟩ | h
  · have hge := hK.least x ep.cost hx (hs.settled x ep hfind).1.walk
    obtain ⟨y, -, hy⟩ := ha ⟨x, ep, hx, hfind, le_antisymm hle hge⟩
    exact ⟨y, hy⟩
  · exact h

variable (hvalid : ∀ v c, Walk (UpLink db) myNodeId v c → v ≠ LS_INVALID_NODE_ID)
include hvalid

/-- The machine comes from pop to pop as long as there is a circle. -/
lemma Circle.round (hK : Circle db myNodeId K D) (hs : Labels db myNodeId paths tentative none)
    (ha : Circling K D paths tentative) : ∃ n p t,
    (Loop.step db myNodeId)^[n + 1] (.pop paths tentative) = .pop p t ∧ Labels db myNodeId p t none ∧
      Circling K D p t := by
  obtain ⟨y, ep, hy, hle⟩ := hK.exists_within hcost hs ha
  rcases hs.round with ⟨hempty, -⟩ | ⟨-, -, hover⟩ | ⟨v, epv, t, p, hr, n, hstep⟩
  · simp [SortedMap.isEmpty_iff.mp hempty y] at hy
  · exact absurd (hle.trans hK.bound) (hover hvalid y ep hy).not_ge
  · refine ⟨n, p, _, hstep, hr.labels hs, fun ⟨x, epx, hx, hfind, hcostx⟩ => ?_⟩
    obtain ⟨hops, hfound, hlabel⟩ := hr.found hs
    by_cases hv : K v ∧ epv.cost = D
    · exact hK.handOn (hr.labels hs) hv.1 hfound hv.2
    · have hxv : x ≠ v := by
        rintro rfl
        obtain rfl := Option.some.inj (hfound.symm.trans hfind)
        exact hv ⟨hx, hcostx⟩
      obtain ⟨z, hz, epz, hfindz, hlez⟩ := ha ⟨x, epx, hx, hr.other hxv ▸ hfind, hcostx⟩
      have hzv : z ≠ v := by
        rintro rfl
        obtain rfl := Option.some.inj (hr.tried.symm.trans hfindz)
        exact hv ⟨hz, le_antisymm hlez (hK.least z _ hz hlabel.walk)⟩
      exact ⟨z, hz, Within.handOn hfound ⟨epz, (hr.kept z hzv).trans hfindz, hlez⟩⟩

end Circles

lemma Loop.step_of_ended {s : Loop} (hs : s.Ended) : Loop.step db myNodeId s = s := by
  rcases hs with rfl | ⟨paths, rfl⟩
  · rfl
  · rfl

lemma Outcome.ended {s : Loop} (hs : Outcome db myNodeId s) : s.Ended := by
  cases hs with
  | returned _ _ => exact Or.inr ⟨_, rfl⟩
  | aborted _ _ _ => exact Or.inl rfl

/-- The first state of the machine, with the paths that the links of the node itself hand on. -/
lemma start_spec (db : LsTopoMap) (myNodeId : ℤ) : ∃ p t, Labels db myNodeId p t none ∧
    (∀ v ep, p.find v = some ep → v = myNodeId ∧ ep.cost = 0) ∧
    (∃ ep, p.find myNodeId = some ep) ∧ t = handOn db myNodeId p SortedMap.empty myNodeId ∧
    ((Loop.start db myNodeId = .returned p ∧ db.find myNodeId = none) ∨
      Loop.step db myNodeId (Loop.start db myNodeId) = .pop p t) := by
  have hself : ∀ v ep, (LsPaths.insertPathNoChecking SortedMap.empty ⟨myNodeId, 0, myNodeId⟩).find v =
      some ep → v = myNodeId ∧ ep = ⟨0, [myNodeId]⟩ := by
    intro v ep hv
    rw [find_toSelf] at hv
    split_ifs at hv with hme
    exact ⟨hme, (Option.some.inj hv).symm⟩
  have hfind : (LsPaths.insertPathNoChecking SortedMap.empty ⟨myNodeId, 0, myNodeId⟩).find myNodeId =
      some ⟨0, [myNodeId]⟩ := by
    rw [find_toSelf, if_pos rfl]
  have hlabels : Labels db myNodeId (LsPaths.insertPathNoChecking SortedMap.empty ⟨myNodeId, 0, myNodeId⟩)
      SortedMap.empty (some myNodeId) := by
    refine ⟨⟨_, hfind, le_rfl⟩, fun v ep hv => ?_, fun v ep hv => by simp at hv, fun v ep hv => by simp at hv,
      fun v ep ep' _ hv => by simp at hv, fun u v ep e hu hu' => ?_⟩
    · obtain ⟨rfl, rfl⟩ := hself v ep hv
      refine ⟨⟨.nil v, List.cons_ne_nil _ _, fun h hh => ⟨0, ?_⟩⟩, (by decide : (0 : ℤ) ≤ LS_MAX_COST)⟩
      rw [List.mem_singleton.mp hh]
      exact .nil v
    · exact absurd (congrArg some (hself u ep hu').1) hu
  refine ⟨_, _, hlabels.handOn hfind, fun v ep hv => ?_, ⟨_, hfind⟩, rfl, ?_⟩
  · obtain ⟨rfl, rfl⟩ := hself v ep hv
    exact ⟨rfl, rfl⟩
  · unfold Loop.start
    dsimp only
    cases hlsl : db.find myNodeId with
    | none => exact Or.inl ⟨rfl, rfl⟩
    | some lsl =>
      right
      unfold LsRouting.handOn Loop.step
      dsimp only
      rw [hlsl, if_pos rfl]
      rfl

section Ends
variable (hcost : ∀ u v c, UpLink db u v c → 0 ≤ c)
include hcost

/-- Around a circle the machine goes on for ever. -/
lemma Circle.not_ends {K : ℤ → Prop} {D : ℤ} (hK : Circle db myNodeId K D)
    (hvalid : ∀ v c, Walk (UpLink db) myNodeId v c → v ≠ LS_INVALID_NODE_ID) : ¬Ends db myNodeId := by
  rintro ⟨k, hk⟩
  obtain ⟨p, t, hs, hself, ⟨ep, hme⟩, rfl, ⟨-, hnone⟩ | hstep⟩ := start_spec db myNodeId
  · have hnolink : ∀ v e, ¬UpLink db myNodeId v e := by
      rintro v e ⟨lsl, hlsl, -⟩
      simp [hnone] at hlsl
    obtain ⟨x, hx, hw⟩ := hK.reached
    obtain ⟨rfl, -⟩ := hw.first.resolve_right fun ⟨y, a, b, he, _⟩ => hnolink y a he
    obtain ⟨y, -, he⟩ := hK.next _ hx
    exact hnolink y 0 he
  · have ha : Circling K D p (LsRouting.handOn db myNodeId p SortedMap.empty myNodeId) := by
      rintro ⟨x, epx, hx, hfind, hD⟩
      obtain ⟨rfl, -⟩ := hself x epx hfind
      exact hK.handOn hs hx hfind hD
    obtain ⟨m, hm, p', t', hpop, -⟩ := iterate_returns
      (P := fun s => ∃ p t, s = Loop.pop p t ∧ Labels db myNodeId p t none ∧ Circling K D p t)
      (fun s hP => by
        obtain ⟨p, t, rfl, hs, ha⟩ := hP
        exact hK.round hcost hvalid hs ha) ⟨p, _, rfl, hs, ha⟩ k
    rw [← hstep, ← Function.iterate_succ_apply] at hpop
    rw [← iterate_of_done (fun s => Loop.step_of_ended) hk (hm.trans m.le_succ), hpop] at hk
    simp [Loop.Ended] at hk

/-- Without a cycle of cost 0 `_computeRoutes` comes to its end. -/
lemma exists_outcome (hno : ¬ZeroCycle db myNodeId) :
    ∃ n, Outcome db myNodeId ((Loop.step db myNodeId)^[n] (Loop.start db myNodeId)) := by
  obtain ⟨p, t, hs, -, -, rfl, ⟨hstart, hnone⟩ | hstep⟩ := start_spec db myNodeId
  · refine ⟨0, ?_⟩
    rw [Function.iterate_zero_apply, hstart]
    refine .returned hs ?_
    unfold handOn
    rw [hnone]
    rfl
  · obtain ⟨n, hn⟩ := hs.ends hcost hno
    exact ⟨n + 1, by rwa [Function.iterate_succ_apply, hstep]⟩

/-- Paths are returned when no node is just too far away. -/
lemma Outcome.far {s : Loop} (hs : Outcome db myNodeId s)
    (hvalid : ∀ v c, Walk (UpLink db) myNodeId v c → v ≠ LS_INVALID_NODE_ID) :
    (∃ paths, s = .returned paths) ↔ ∀ v, ¬IsDist (UpLink db) myNodeId v (LS_MAX_COST + 1) := by
  cases hs with
  | @returned paths tentative hs hempty =>
    refine ⟨fun _ v hdist => ?_, fun _ => ⟨paths, rfl⟩⟩
    rcases hs.frontier hcost hdist.1 le_rfl with ⟨ep, hv, -⟩ | ⟨y, ep, hy, -⟩
    · obtain ⟨hlabel, hle⟩ := hs.settled v ep hv
      have := hdist.2 hlabel.walk
      omega
    · simp [SortedMap.isEmpty_iff.mp hempty y] at hy
  | @aborted paths tentative hs hne hover =>
    refine ⟨fun ⟨_, h⟩ => by simp at h, fun hfar => ?_⟩
    obtain ⟨y, ep, hy⟩ := SortedMap.exists_find_of_not_isEmpty hne
    refine absurd ⟨?_, fun c hc => ?_⟩ (hfar y)
    · have heq : ep.cost = LS_MAX_COST + 1 :=
        le_antisymm (hs.bound y ep hy) (Int.add_one_le_iff.mpr (hover hvalid y ep hy))
      exact heq ▸ (hs.tried y ep hy).1.walk
    · by_contra hlt
      have hlt' : c < LS_MAX_COST + 1 := not_le.mp hlt
      rcases hs.frontier hcost hc hlt'.le with ⟨old, hold, hle⟩ | ⟨z, epz, hz, hle⟩
      · have := hs.lower y old ep hold hy
        have := hover hvalid y ep hy
        omega
      · have := hover hvalid z epz hz
        omega

end Ends

/-- `_computeRoutes` comes to an end unless links of cost 0 lead in a circle. Where no node has the reserved
id this is exact, and it returns the paths when moreover no node is just too far away. -/
theorem computeRoutes_ends_iff (db : LsTopoMap) (myNodeId : ℤ)
    (hcost : ∀ u v c, UpLink db u v c → 0 ≤ c) :
    (¬ZeroCycle db myNodeId → Ends db myNodeId) ∧
    ((∀ v c, Walk (UpLink db) myNodeId v c → v ≠ LS_INVALID_NODE_ID) →
      (Ends db myNodeId ↔ ¬ZeroCycle db myNodeId) ∧
      ((∃ fuel paths, computeRoutes db myNodeId fuel = some paths) ↔
        ¬ZeroCycle db myNodeId ∧ ∀ v, ¬IsDist (UpLink db) myNodeId v (LS_MAX_COST + 1))) := by
  have hends : ¬ZeroCycle db myNodeId → Ends db myNodeId := fun hno => by
    obtain ⟨n, hn⟩ := exists_outcome hcost hno
    exact ⟨n, hn.ended⟩
  refine ⟨hends, fun hvalid => ?_⟩
  have hiff : Ends db myNodeId ↔ ¬ZeroCycle db myNodeId := by
    refine ⟨fun he hcycle => ?_, hends⟩
    obtain ⟨K, D, hK⟩ := hcycle.circle hcost
    exact hK.not_ends hcost hvalid he
  refine ⟨hiff, ⟨fun ⟨fuel, paths, h⟩ => ?_, fun ⟨hno, hfar⟩ => ?_⟩⟩
  · obtain ⟨m, hm⟩ := computeRoutes_eq_some_iff.mp ⟨fuel, h⟩
    have hended : ((Loop.step db myNodeId)^[m] (Loop.start db myNodeId)).Ended := Or.inr ⟨paths, hm⟩
    have hno := hiff.mp ⟨m, hended⟩
    obtain ⟨n, hn⟩ := exists_outcome hcost hno
    refine ⟨hno, (hn.far hcost hvalid).mp ⟨paths, ?_⟩⟩
    rw [iterate_done_unique (fun s => Loop.step_of_ended) hn.ended hended, hm]
  · obtain ⟨n, hn⟩ := exists_outcome hcost hno
    obtain ⟨paths, hp⟩ := (hn.far hcost hvalid).mpr hfar
    obtain ⟨fuel, h⟩ := computeRoutes_eq_some_iff.mpr ⟨n, hp⟩
    exact ⟨fuel, paths, h⟩

theorem computeRoutes_ends_parallel : Ends (parallelLinks 2) 1 ∧
    ∃ fuel paths, computeRoutes (parallelLinks 2) 1 fuel = some paths := by
  have hno : ¬ZeroCycle (parallelLinks 2) 1 := fun ⟨u, v, _, _, _, he, _⟩ =>
    absurd (parallelLinks_pos u v 0 he) (lt_irrefl 0)
  obtain ⟨hends, hiff⟩ := computeRoutes_ends_iff (parallelLinks 2) 1
    fun u v c he => (parallelLinks_pos u v c he).le
  refine ⟨hends hno, (hiff fun v c hw => ?_).2.mpr ⟨hno, fun v hdist => ?_⟩⟩
  · rcases hw.last with ⟨rfl, -⟩ | ⟨x, a, e, -, he, -⟩
    · decide
    · rw [(upLink_parallelLinks he).2.1]
      decide
  · obtain ⟨c, hc, hw⟩ := parallelLinks_cost v _ hdist.1
    have := hdist.2 hw
    omega

/-- Node 1 has a link of cost 1 to node 2, and nodes 2 and 3 have links of cost 0 to each other. -/
def freeLinks : LsTopoMap :=
  ((SortedMap.empty.set 1 [⟨2, .up, 1, 0⟩]).set 2 [⟨3, .up, 0, 0⟩]).set 3 [⟨2, .up, 0, 0⟩]

lemma upLink_freeLinks (he : UpLink freeLinks u v c) : (v = 2 ∨ v = 3) ∧ 0 ≤ c ∧ c ≤ 1 := by
  obtain ⟨lsl, hfind, l, hl, -, rfl, rfl⟩ := he
  unfold freeLinks at hfind
  rw [SortedMap.find_set, SortedMap.find_set, SortedMap.find_set, SortedMap.find_empty] at hfind
  split_ifs at hfind
  all_goals
    obtain rfl := Option.some.inj hfind
    obtain rfl := List.mem_singleton.mp hl
    decide

/-- Node 1 hands nodes 2 and 3 the same path again and again. -/
theorem computeRoutes_loops :
    (∀ u v c, UpLink freeLinks u v c → 0 ≤ c ∧ c ≤ LS_MAX_COST) ∧ ¬Ends freeLinks 1 := by
  refine ⟨fun u v c he => ?_, ?_⟩
  · obtain ⟨-, hge, hle⟩ := upLink_freeLinks he
    exact ⟨hge, hle.trans (by decide)⟩
  · have hcost : ∀ u v c, UpLink freeLinks u v c → 0 ≤ c := fun u v c he => (upLink_freeLinks he).2.1
    have hfirst : UpLink freeLinks 1 2 1 := ⟨_, rfl, ⟨2, .up, 1, 0⟩, List.mem_cons_self, rfl, rfl, rfl⟩
    have hout : UpLink freeLinks 2 3 0 := ⟨_, rfl, ⟨3, .up, 0, 0⟩, List.mem_cons_self, rfl, rfl, rfl⟩
    have hback : UpLink freeLinks 3 2 0 := ⟨_, rfl, ⟨2, .up, 0, 0⟩, List.mem_cons_self, rfl, rfl, rfl⟩
    have hcycle : ZeroCycle freeLinks 1 := ⟨2, 3, 1, .edge hfirst, by decide, hout, .edge hback⟩
    obtain ⟨K, D, hK⟩ := hcycle.circle hcost
    refine hK.not_ends hcost fun v c hw => ?_
    rcases hw.last with ⟨rfl, -⟩ | ⟨x, a, e, -, he, -⟩
    · decide
    · rcases (upLink_freeLinks he).1 with rfl | rfl
      · decide
      · decide

end LsRouting

end NetworkSimulator
