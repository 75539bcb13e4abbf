import NetworkSimulator.LinkState.Loop

/-!
# The labels of the route computation

What holds from pop to pop when links may cost 0. A destination can come back among the tentative paths
after it has been settled, so the search is read as one that corrects its labels, and nothing is said about
least costs.
-/

namespace NetworkSimulator
open Library

namespace LsRouting
variable {db : LsTopoMap} {myNodeId : ℤ} {paths tentative : LsPaths} {u v c d e h : ℤ}

/-- There is an entry for `v`, of cost at most `c`. -/
def Within (paths : LsPaths) (v c : ℤ) : Prop :=
  ∃ ep, paths.find v = some ep ∧ ep.cost ≤ c

/-- What an entry says, whatever the links cost. -/
structure Label (db : LsTopoMap) (myNodeId v : ℤ) (ep : LsEqualPaths) : Prop where
  walk : Walk (UpLink db) myNodeId v ep.cost
  hops : ep.nextHopList ≠ []
  first : ∀ h ∈ ep.nextHopList, ∃ c, Walk (UpLink db) myNodeId h c

/-- What the paths and the tentative paths say, when the links of the nodes other than `pending` have been
tried with their costs. -/
structure Labels (db : LsTopoMap) (myNodeId : ℤ) (paths tentative : LsPaths) (pending : Option ℤ) :
    Prop where
  self : Within paths myNodeId 0
  settled : ∀ v ep, paths.find v = some ep → Label db myNodeId v ep ∧ ep.cost ≤ LS_MAX_COST
  tried : ∀ v ep, tentative.find v = some ep → Label db myNodeId v ep ∧ v ∈ linkEnds db
  bound : ∀ v ep, tentative.find v = some ep → ep.cost ≤ LS_MAX_COST + 1
  lower : ∀ v ep ep', paths.find v = some ep → tentative.find v = some ep' → ep'.cost ≤ ep.cost
  offered : ∀ u v ep e, some u ≠ pending → paths.find u = some ep → UpLink db u v e →
    ep.cost + e ≤ LS_MAX_COST + 1 → Within paths v (ep.cost + e) ∨ Within tentative v (ep.cost + e)

lemma Within.mono (hw : Within paths v c) (hle : c ≤ d) : Within paths v d := by
  obtain ⟨ep, hfind, hc⟩ := hw
  exact ⟨ep, hfind, hc.trans hle⟩

lemma Within.insert {l : List ℤ} (hw : Within tentative v c) :
    Within (tentative.insertNextHopList d e l) v c := by
  obtain ⟨ep, hfind, hc⟩ := hw
  by_cases hv : v = d
  · subst hv
    rcases LsPaths.insertNextHopList_self tentative v e l with
      ⟨old, hold, -, hnew⟩ | ⟨hnew, hlt⟩ | ⟨old, hold, heq, hnew⟩
    · obtain rfl := Option.some.inj (hold.symm.trans hfind)
      exact ⟨old, hnew, hc⟩
    · exact ⟨_, hnew, (hlt ep hfind).le.trans hc⟩
    · obtain rfl := Option.some.inj (hold.symm.trans hfind)
      exact ⟨_, hnew, heq ▸ hc⟩
  · exact ⟨ep, (LsPaths.insertNextHopList_of_ne hv).trans hfind, hc⟩

lemma within_insert {l : List ℤ} : Within (tentative.insertNextHopList d e l) d e := by
  rcases LsPaths.insertNextHopList_self tentative d e l with
    ⟨old, -, hlt, hnew⟩ | ⟨hnew, -⟩ | ⟨old, -, -, hnew⟩
  · exact ⟨old, hnew, hlt.le⟩
  · exact ⟨_, hnew, le_rfl⟩
  · exact ⟨_, hnew, le_rfl⟩

lemma Labels.insert {l : List ℤ} {pending : Option ℤ} (hs : Labels db myNodeId paths tentative pending)
    (hnew : Label db myNodeId d ⟨e, l⟩) (hend : d ∈ linkEnds db) (hbound : e ≤ LS_MAX_COST + 1)
    (hlow : ∀ ep, paths.find d = some ep → e ≤ ep.cost) :
    Labels db myNodeId paths (tentative.insertNextHopList d e l) pending := by
  have hentry : ∀ v ep, (tentative.insertNextHopList d e l).find v = some ep →
      (Label db myNodeId v ep ∧ v ∈ linkEnds db) ∧ ep.cost ≤ LS_MAX_COST + 1 ∧
      ∀ old, paths.find v = some old → ep.cost ≤ old.cost := by
    intro v ep hfind
    by_cases hv : v = d
    · subst hv
      rcases LsPaths.insertNextHopList_self tentative v e l with
        ⟨old, hold, -, h⟩ | ⟨h, -⟩ | ⟨old, hold, heq, h⟩
      · obtain rfl := Option.some.inj (h.symm.trans hfind)
        exact ⟨hs.tried v old hold, hs.bound v old hold, fun ep' hv => hs.lower v ep' old hv hold⟩
      · obtain rfl := Option.some.inj (h.symm.trans hfind)
        exact ⟨⟨hnew, hend⟩, hbound, hlow⟩
      · obtain rfl := Option.some.inj (h.symm.trans hfind)
        refine ⟨⟨⟨hnew.walk, fun hempty => ?_, fun h hh => ?_⟩, hend⟩, hbound, hlow⟩
        · obtain ⟨a, ha⟩ := List.exists_mem_of_ne_nil _ hnew.hops
          have hmem : a ∈ appendUnique old.nextHopList l := mem_appendUnique.mpr (Or.inr ha)
          rw [show appendUnique old.nextHopList l = [] from hempty] at hmem
          exact List.not_mem_nil hmem
        · rcases mem_appendUnique.mp hh with hh | hh
          · exact (hs.tried v old hold).1.first h hh
          · exact hnew.first h hh
    · rw [LsPaths.insertNextHopList_of_ne hv] at hfind
      exact ⟨hs.tried v ep hfind, hs.bound v ep hfind, fun ep' hv => hs.lower v ep' ep hv hfind⟩
  exact ⟨hs.self, hs.settled, fun v ep h => (hentry v ep h).1, fun v ep h => (hentry v ep h).2.1,
    fun v ep ep' hv h => (hentry v ep' h).2.2 ep hv, fun u v ep e hu hfind he hle =>
    (hs.offered u v ep e hu hfind he hle).imp_right Within.insert⟩

/-- The links of a node are tried, if its link state is known. -/
def handOn (db : LsTopoMap) (myNodeId : ℤ) (paths tentative : LsPaths) (v : ℤ) : LsPaths :=
  ((db.find v).getD []).foldl (tryLink myNodeId paths v
    ((if v = myNodeId then some [] else paths.lookupNextHopList v).getD [])) tentative

variable {ep : LsEqualPaths}

/-- What each path that is handed on keeps. -/
lemma handOn_keeps {P : LsPaths → Prop} (hv : paths.find v = some ep) (hP : P tentative)
    (hstep : ∀ t d e l, P t → UpLink db v d e → ep.cost + e ≤ paths.lookupCost d →
      (if v = myNodeId then l = [d] else l = ep.nextHopList) →
      P (t.insertNextHopList d (ep.cost + e) l)) : P (handOn db myNodeId paths tentative v) := by
  unfold handOn
  cases hlsl : db.find v with
  | none => exact hP
  | some lsl =>
    refine List.foldlRecOn lsl _ hP fun t ht link hlink => ?_
    unfold tryLink
    split
    · exact ht
    · rename_i hup
      dsimp only
      rw [LsPaths.lookupCost_eq hv, add_comm link.cost]
      split
      · exact ht
      · rename_i hle
        refine hstep t _ _ _ ht ⟨lsl, hlsl, link, hlink, not_not.mp hup, rfl, rfl⟩ (not_lt.mp hle) ?_
        split
        · rfl
        · rw [LsPaths.lookupNextHopList, hv]
          rfl

lemma Within.handOn (hv : paths.find v = some ep) (hw : Within tentative u c) :
    Within (handOn db myNodeId paths tentative v) u c :=
  handOn_keeps (P := fun t => Within t u c) hv hw fun _ _ _ _ ht _ _ _ => Within.insert ht

/-- Each link of the node hands its path on, unless a better one is in the paths. -/
lemma handOn_within (hv : paths.find v = some ep) (he : UpLink db v d e) :
    paths.lookupCost d < ep.cost + e ∨ Within (handOn db myNodeId paths tentative v) d (ep.cost + e) := by
  obtain ⟨lsl, hlsl, link, hlink, hup, rfl, rfl⟩ := he
  by_cases hlt : paths.lookupCost link.neighborId < ep.cost + link.cost
  · exact Or.inl hlt
  · right
    obtain ⟨front, back, rfl⟩ := List.append_of_mem hlink
    unfold LsRouting.handOn
    rw [hlsl, Option.getD_some, List.foldl_append, List.foldl_cons]
    refine List.foldlRecOn (motive := fun t => Within t link.neighborId (ep.cost + link.cost)) back _ ?_
      fun t ht l _ => ?_
    · unfold tryLink
      rw [if_neg (not_not.mpr hup)]
      dsimp only
      rw [LsPaths.lookupCost_eq hv, add_comm link.cost, if_neg hlt]
      exact within_insert
    · unfold tryLink
      split
      · exact ht
      · dsimp only
        split
        · exact ht
        · exact ht.insert

lemma Labels.lookupCost_le {pending : Option ℤ} (hs : Labels db myNodeId paths tentative pending) (v : ℤ) :
    paths.lookupCost v ≤ LS_MAX_COST + 1 := by
  cases hv : paths.find v with
  | none => rw [LsPaths.lookupCost_of_none hv]
  | some ep =>
    rw [LsPaths.lookupCost_eq hv]
    exact (hs.settled v ep hv).2.trans (Int.le_add_one le_rfl)

lemma Labels.handOn (hs : Labels db myNodeId paths tentative (some v)) (hv : paths.find v = some ep) :
    Labels db myNodeId paths (handOn db myNodeId paths tentative v) none := by
  have hkeep : Labels db myNodeId paths (LsRouting.handOn db myNodeId paths tentative v) (some v) := by
    refine handOn_keeps (P := fun t => Labels db myNodeId paths t (some v)) hv hs
      fun t d e l ht he hle hl => ?_
    obtain ⟨hlabel, -⟩ := hs.settled v ep hv
    refine ht.insert ⟨hlabel.walk.snoc he, ?_, ?_⟩ he.mem_linkEnds (hle.trans (hs.lookupCost_le d))
      fun ep' hd => ?_
    · split at hl
      · exact hl ▸ List.cons_ne_nil _ _
      · exact hl ▸ hlabel.hops
    · split at hl
      · rename_i hme
        rintro h hh
        obtain rfl := List.mem_singleton.mp (hl ▸ hh)
        exact ⟨e, .edge (hme ▸ he)⟩
      · exact hl ▸ hlabel.first
    · rwa [LsPaths.lookupCost_eq hd] at hle
  refine ⟨hkeep.self, hkeep.settled, hkeep.tried, hkeep.bound, hkeep.lower, fun u w ep' e _ hu he hle => ?_⟩
  by_cases huv : u = v
  · subst huv
    obtain rfl := Option.some.inj (hv.symm.trans hu)
    refine (handOn_within hv he).imp_left fun hlt => ?_
    cases hw : paths.find w with
    | none =>
      rw [LsPaths.lookupCost_of_none hw] at hlt
      exact absurd hle hlt.not_ge
    | some old =>
      rw [LsPaths.lookupCost_eq hw] at hlt
      exact ⟨old, hw, hlt.le⟩
  · exact hkeep.offered u w ep' e (fun h => huv (Option.some.inj h)) hu he hle

/-- What a pop and the links of its node do to the paths and the tentative paths. -/
structure Round (db : LsTopoMap) (myNodeId : ℤ) (paths tentative : LsPaths) (v : ℤ) (ep : LsEqualPaths)
    (t paths' : LsPaths) : Prop where
  tried : tentative.find v = some ep
  bound : ep.cost ≤ LS_MAX_COST
  least : ∀ w ep', tentative.find w = some ep' → ep.cost ≤ ep'.cost
  popped : ∃ h rest, ep.nextHopList = h :: rest ∧ paths' = paths.insertPath ⟨v, ep.cost, h⟩ ∧
    t.find v = if rest = [] then none else some ⟨ep.cost, rest⟩
  kept : ∀ w, w ≠ v → t.find w = tentative.find w

lemma Round.other {t paths' : LsPaths} (hr : Round db myNodeId paths tentative v ep t paths') (hu : u ≠ v) :
    paths'.find u = paths.find u := by
  obtain ⟨h, rest, -, rfl, -⟩ := hr.popped
  exact LsPaths.insertPath_of_ne (p := ⟨v, ep.cost, h⟩) hu

lemma Round.found {t paths' : LsPaths} (hr : Round db myNodeId paths tentative v ep t paths')
    (hs : Labels db myNodeId paths tentative none) :
    ∃ hops, paths'.find v = some ⟨ep.cost, hops⟩ ∧ Label db myNodeId v ⟨ep.cost, hops⟩ := by
  obtain ⟨h, rest, hhops, rfl, -⟩ := hr.popped
  obtain ⟨hlabel, -⟩ := hs.tried v ep hr.tried
  obtain ⟨hops, hfind, hne, hmem⟩ := LsPaths.insertPath_self (p := ⟨v, ep.cost, h⟩) fun old hold =>
    ⟨hs.lower v old ep hold hr.tried, (hs.settled v old hold).1.hops⟩
  refine ⟨hops, hfind, hlabel.walk, hne, fun g hg => ?_⟩
  rcases hmem g hg with rfl | ⟨old, hold, hg⟩
  · exact hlabel.first g (hhops ▸ List.mem_cons_self)
  · exact (hs.settled v old hold).1.first g hg

lemma Round.labels {t paths' : LsPaths} (hr : Round db myNodeId paths tentative v ep t paths')
    (hs : Labels db myNodeId paths tentative none) :
    Labels db myNodeId paths' (handOn db myNodeId paths' t v) none := by
  obtain ⟨hops, hfound, hlabel⟩ := hr.found hs
  suffices hpop : Labels db myNodeId paths' t (some v) from hpop.handOn hfound
  refine ⟨?_, fun w ep' hw => ?_, fun w ep' hw => ?_, fun w ep' hw => ?_, fun w ep₁ ep₂ h₁ h₂ => ?_,
    fun x w ep' e hx hfind he hle => ?_⟩
  · by_cases hme : myNodeId = v
    · obtain ⟨old, hold, hle⟩ := hs.self
      exact ⟨⟨ep.cost, hops⟩, hme ▸ hfound, (hs.lower v old ep (hme ▸ hold) hr.tried).trans hle⟩
    · unfold Within
      rw [hr.other hme]
      exact hs.self
  · by_cases hwv : w = v
    · subst hwv
      obtain rfl := Option.some.inj (hfound.symm.trans hw)
      exact ⟨hlabel, hr.bound⟩
    · exact hs.settled w ep' (hr.other hwv ▸ hw)
  · by_cases hwv : w = v
    · subst hwv
      obtain ⟨h, rest, hhops, -, ht⟩ := hr.popped
      obtain ⟨hold, hend⟩ := hs.tried w ep hr.tried
      rw [ht] at hw
      split at hw
      · simp at hw
      · rename_i hrest
        obtain rfl := Option.some.inj hw
        exact ⟨⟨hold.walk, hrest, fun g hg => hold.first g (hhops ▸ List.mem_cons_of_mem h hg)⟩, hend⟩
    · exact hs.tried w ep' (hr.kept w hwv ▸ hw)
  · by_cases hwv : w = v
    · subst hwv
      obtain ⟨h, rest, -, -, ht⟩ := hr.popped
      rw [ht] at hw
      split at hw
      · simp at hw
      · obtain rfl := Option.some.inj hw
        exact hs.bound w ep hr.tried
    · exact hs.bound w ep' (hr.kept w hwv ▸ hw)
  · by_cases hwv : w = v
    · subst hwv
      obtain rfl := Option.some.inj (hfound.symm.trans h₁)
      obtain ⟨h, rest, -, -, ht⟩ := hr.popped
      rw [ht] at h₂
      split at h₂
      · simp at h₂
      · obtain rfl := Option.some.inj h₂
        exact le_rfl
    · exact hs.lower w ep₁ ep₂ (hr.other hwv ▸ h₁) (hr.kept w hwv ▸ h₂)
  · have hxv : x ≠ v := fun h => hx (congrArg some h)
    rw [hr.other hxv] at hfind
    by_cases hwv : w = v
    · subst hwv
      refine Or.inl ⟨_, hfound, ?_⟩
      rcases hs.offered x w ep' e (by simp) hfind he hle with ⟨old, hold, hc⟩ | ⟨old, hold, hc⟩
      · exact (hs.lower w old ep hold hr.tried).trans hc
      · exact (hr.least w old hold).trans hc
    · refine (hs.offered x w ep' e (by simp) hfind he hle).imp (fun h => ?_) fun h => ?_
      · unfold Within
        rwa [hr.other hwv]
      · unfold Within
        rwa [hr.kept w hwv]

/-- From a pop the machine comes to its end, or to the next pop. -/
lemma Labels.round (hs : Labels db myNodeId paths tentative none) :
    (tentative.isEmpty ∧ Loop.step db myNodeId (.pop paths tentative) = .returned paths) ∨
    (¬tentative.isEmpty ∧ Loop.step db myNodeId (.pop paths tentative) = .aborted ∧
      ((∀ v c, Walk (UpLink db) myNodeId v c → v ≠ LS_INVALID_NODE_ID) →
        ∀ v ep, tentative.find v = some ep → LS_MAX_COST < ep.cost)) ∨
    ∃ v ep t paths', Round db myNodeId paths tentative v ep t paths' ∧ ∃ n,
      (Loop.step db myNodeId)^[n + 1] (.pop paths tentative) =
        .pop paths' (LsRouting.handOn db myNodeId paths' t v) := by
  have hmin := LsPaths.findMinEqualPaths_spec fun v ep hv => (hs.tried v ep hv).1.hops
  rcases step_pop db myNodeId 0 paths tentative with
    ⟨hempty, hstep, -⟩ | ⟨hempty, hinvalid, hstep, -⟩ | ⟨path, t, hpop, -, hstep⟩
  · exact Or.inl ⟨hempty, hstep⟩
  · refine Or.inr (Or.inl ⟨hempty, hstep, fun hvalid => ?_⟩)
    rcases hmin with ⟨-, hmin⟩ | ⟨v, ep, hmin, hv, hle, -⟩
    · exact hmin
    · obtain ⟨hlabel, -⟩ := hs.tried v ep hv
      obtain ⟨h, rest, hhops⟩ := List.exists_cons_of_ne_nil hlabel.hops
      obtain ⟨t, hpop, -⟩ := LsPaths.popShortestPath_eq hmin hhops
      obtain ⟨c, hc⟩ := hlabel.first h (hhops ▸ List.mem_cons_self)
      refine absurd ?_ (hinvalid _ hpop)
      have hcost : ep.cost ≠ LS_INVALID_COST := by
        unfold LS_INVALID_COST
        unfold LS_MAX_COST at hle
        omega
      unfold LsPath.isValid
      exact decide_eq_true ⟨hvalid v _ hlabel.walk, hcost, hvalid h c hc⟩
  · rcases hmin with ⟨hmin, -⟩ | ⟨v, ep, hmin, hv, hle, hleast⟩
    · rw [LsPaths.popShortestPath, hmin] at hpop
      simp at hpop
    · obtain ⟨hlabel, -⟩ := hs.tried v ep hv
      obtain ⟨h, rest, hhops⟩ := List.exists_cons_of_ne_nil hlabel.hops
      obtain ⟨t', hpop', hkept, hself⟩ := LsPaths.popShortestPath_eq hmin hhops
      obtain ⟨rfl, rfl⟩ := Prod.mk.inj (Option.some.inj (hpop'.symm.trans hpop))
      have hr : Round db myNodeId paths tentative v ep t' (paths.insertPath ⟨v, ep.cost, h⟩) :=
        ⟨hv, hle, hleast, ⟨h, rest, hhops, rfl, hself⟩, hkept⟩
      refine Or.inr (Or.inr ⟨v, ep, t', _, hr, ?_⟩)
      rcases hstep with ⟨lsl, hlsl, hstep, -⟩ | ⟨hlsl, hstep, -⟩
      · obtain ⟨hops, hfound, -⟩ := hr.found hs
        rcases step_expand db myNodeId 0 (paths.insertPath ⟨v, ep.cost, h⟩) t' v lsl with
          ⟨hnone, -, -⟩ | ⟨nhl, t, hnhl, rfl, hexpand, -⟩
        · rw [LsPaths.lookupNextHopList, hfound] at hnone
          split at hnone <;> simp at hnone
        · refine ⟨1, (iterate_step_of_eq hstep).trans ?_⟩
          unfold LsRouting.handOn
          rw [hlsl, hnhl]
          exact hexpand
      · refine ⟨0, hstep.trans ?_⟩
        unfold LsRouting.handOn
        rw [hlsl]
        rfl

/-- How the machine comes to its end. -/
inductive Outcome (db : LsTopoMap) (myNodeId : ℤ) : Loop → Prop
  | returned {paths tentative : LsPaths} : Labels db myNodeId paths tentative none → tentative.isEmpty →
      Outcome db myNodeId (.returned paths)
  | aborted {paths tentative : LsPaths} : Labels db myNodeId paths tentative none → ¬tentative.isEmpty →
      ((∀ v c, Walk (UpLink db) myNodeId v c → v ≠ LS_INVALID_NODE_ID) →
        ∀ v ep, tentative.find v = some ep → LS_MAX_COST < ep.cost) → Outcome db myNodeId .aborted

section Frontier
variable (hcost : ∀ u v c, UpLink db u v c → 0 ≤ c)
include hcost

lemma Labels.frontier_from (hs : Labels db myNodeId paths tentative none) (hu : paths.find u = some ep)
    (hw : Walk (UpLink db) u v c) (hle : ep.cost + c ≤ LS_MAX_COST + 1) :
    Within paths v (ep.cost + c) ∨ ∃ y, Within tentative y (ep.cost + c) := by
  induction hw generalizing ep with
  | nil => exact Or.inl ⟨ep, hu, (add_zero _).ge⟩
  | @cons u y w c d he hw ih =>
    have hd := hw.nonneg hcost
    rcases hs.offered u y ep c (by simp) hu he (by omega) with ⟨ep', hy, hc⟩ | hy
    · rcases ih hy (by omega) with h | ⟨z, h⟩
      · exact Or.inl (h.mono (by omega))
      · exact Or.inr ⟨z, h.mono (by omega)⟩
    · exact Or.inr ⟨y, hy.mono (by omega)⟩

/-- A walk leads to a node in the paths, or by a tentative path. -/
lemma Labels.frontier (hs : Labels db myNodeId paths tentative none) (hw : Walk (UpLink db) myNodeId v c)
    (hle : c ≤ LS_MAX_COST + 1) : Within paths v c ∨ ∃ y, Within tentative y c := by
  obtain ⟨ep, hme, hzero⟩ := hs.self
  rcases hs.frontier_from hcost hme hw (by omega) with h | ⟨y, h⟩
  · exact Or.inl (h.mono (by omega))
  · exact Or.inr ⟨y, h.mono (by omega)⟩

end Frontier

end LsRouting

end NetworkSimulator
