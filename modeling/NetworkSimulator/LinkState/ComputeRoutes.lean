import NetworkSimulator.Library.Walks
import NetworkSimulator.LinkState.Paths
import Mathlib.Data.Finset.Prod

/-!
# Equal-cost multipath routes

`_computeRoutes` takes the tentative paths one next hop at a time. A destination is expanded again
after each of its next hops, with the list that it has so far, so all its next hops have been handed
on when the search has moved to a higher cost.
-/

namespace NetworkSimulator
open Library

namespace LsRouting
variable (db : LsTopoMap) (myNodeId : ℤ)

/-- One link of the node that has just been put in the paths. -/
def tryLink (paths : LsPaths) (newNodeId : ℤ) (nhl : List ℤ) (tentative : LsPaths)
    (link : LsLinkState) : LsPaths :=
  if link.status ≠ .up then tentative
  else
    let dest := link.neighborId
    let pathCost := link.cost + paths.lookupCost newNodeId
    if paths.lookupCost dest < pathCost then tentative
    else tentative.insertNextHopList dest pathCost (if newNodeId = myNodeId then [dest] else nhl)

/-- Pops paths until one leads to a node whose link state is known; `none` is an invalid path, or that
the fuel is spent. -/
def popPaths : ℕ → LsPaths → LsPaths → Option (LsPaths × LsPaths × Option (ℤ × List LsLinkState))
  | 0, _, _ => none
  | fuel + 1, paths, tentative =>
    if tentative.isEmpty then some (paths, tentative, none)
    else
      tentative.popShortestPath.bind fun r =>
        if !r.1.isValid then none
        else
          let paths := paths.insertPath r.1
          match db.find r.1.destination with
          | some lsl => some (paths, r.2, some (r.1.destination, lsl))
          | none => popPaths fuel paths r.2

def expandNodes : ℕ → LsPaths → LsPaths → ℤ → List LsLinkState → Option LsPaths
  | 0, _, _, _, _ => none
  | fuel + 1, paths, tentative, newNodeId, lsl =>
    (if newNodeId = myNodeId then some [] else paths.lookupNextHopList newNodeId).bind fun nhl =>
      let tentative := lsl.foldl (tryLink myNodeId paths newNodeId nhl) tentative
      (popPaths db (fuel + 1) paths tentative).bind fun r =>
        match r.2.2 with
        | none => some r.1
        | some (newNodeId, lsl) => expandNodes fuel r.1 r.2.1 newNodeId lsl

/-- `_computeRoutes`, with a bound on the passes of its loops. -/
def computeRoutes (fuel : ℕ) : Option LsPaths :=
  let paths := LsPaths.insertPathNoChecking SortedMap.empty ⟨myNodeId, 0, myNodeId⟩
  match db.find myNodeId with
  | none => some paths
  | some lsl => expandNodes db myNodeId fuel paths SortedMap.empty myNodeId lsl

/-- An up link. -/
def UpLink (u v c : ℤ) : Prop :=
  ∃ lsl, db.find u = some lsl ∧ ∃ l ∈ lsl, l.status = .up ∧ l.neighborId = v ∧ l.cost = c

variable {db myNodeId} {paths tentative : LsPaths} {u v c h : ℤ}

/-- A node in the paths offers its neighbour a path through each of its next hops. -/
def Offer (db : LsTopoMap) (myNodeId : ℤ) (paths : LsPaths) (u v c h : ℤ) : Prop :=
  ∃ ep e, paths.find u = some ep ∧ UpLink db u v e ∧ ep.cost + e = c ∧
    (if u = myNodeId then h = v else h ∈ ep.nextHopList)

/-- An entry for `v` is better than an offer, or has taken it. -/
def Beats (paths : LsPaths) (v c h : ℤ) : Prop :=
  ∃ ep, paths.find v = some ep ∧ (ep.cost < c ∨ (ep.cost = c ∧ h ∈ ep.nextHopList))

def Covered (paths tentative : LsPaths) (v c h : ℤ) : Prop :=
  LS_MAX_COST < c ∨ Beats paths v c h ∨ Beats tentative v c h

/-- What an entry of the tentative paths, or of the paths, says. -/
structure Entry (db : LsTopoMap) (myNodeId v : ℤ) (ep : LsEqualPaths) : Prop where
  other : v ≠ myNodeId
  hops : ep.nextHopList ≠ []
  nodup : ep.nextHopList.Nodup
  starts : ∀ h ∈ ep.nextHopList, Starts (UpLink db) myNodeId v h ep.cost

/-- What the paths and the tentative paths say, when the offers of the nodes other than `pending` have
been made. -/
structure Search (db : LsTopoMap) (myNodeId : ℤ) (paths tentative : LsPaths) (pending : Option ℤ) :
    Prop where
  self : paths.find myNodeId = some ⟨0, [myNodeId]⟩
  found : ∀ v ep, paths.find v = some ep → v ≠ myNodeId →
    Entry db myNodeId v ep ∧ IsDist (UpLink db) myNodeId v ep.cost ∧ ep.cost ≤ LS_MAX_COST
  tried : ∀ v ep, tentative.find v = some ep → Entry db myNodeId v ep
  later : ∀ u v ep ep', paths.find u = some ep → tentative.find v = some ep' → ep.cost ≤ ep'.cost
  both : ∀ v ep ep', paths.find v = some ep → tentative.find v = some ep' →
    ep.cost = ep'.cost ∧ ep.nextHopList.Disjoint ep'.nextHopList
  offered : ∀ u v c h, some u ≠ pending → Offer db myNodeId paths u v c h →
    Covered paths tentative v c h

lemma Beats.insert {d e : ℤ} {l : List ℤ} (hb : Beats tentative v c h) :
    Beats (tentative.insertNextHopList d e l) v c h := by
  obtain ⟨ep, hfind, hcost⟩ := hb
  by_cases hv : v = d
  · subst hv
    rcases LsPaths.insertNextHopList_self tentative v e l with
      ⟨old, hold, -, hnew⟩ | ⟨hnew, hlt⟩ | ⟨old, hold, heq, hnew⟩
    · exact ⟨old, hnew, (Option.some.inj (hold.symm.trans hfind)) ▸ hcost⟩
    · exact ⟨_, hnew, Or.inl ((hlt ep hfind).trans_le (hcost.elim le_of_lt fun h => h.1.le))⟩
    · obtain rfl := Option.some.inj (hold.symm.trans hfind)
      refine ⟨_, hnew, hcost.imp (fun hlt => heq ▸ hlt) fun hmem => ⟨heq ▸ hmem.1, ?_⟩⟩
      exact mem_appendUnique.mpr (Or.inl hmem.2)
  · exact ⟨ep, (LsPaths.insertNextHopList_of_ne hv).trans hfind, hcost⟩

/-- The next hops that are inserted have been taken, unless the entry is better. -/
lemma beats_insert {d e : ℤ} {l : List ℤ} (hh : h ∈ l) :
    Beats (tentative.insertNextHopList d e l) d e h := by
  rcases LsPaths.insertNextHopList_self tentative d e l with
    ⟨old, -, hlt, hnew⟩ | ⟨hnew, -⟩ | ⟨old, -, -, hnew⟩
  · exact ⟨old, hnew, Or.inl hlt⟩
  · exact ⟨_, hnew, Or.inr ⟨rfl, hh⟩⟩
  · exact ⟨_, hnew, Or.inr ⟨rfl, mem_appendUnique.mpr (Or.inr hh)⟩⟩

/-- An offer for a node that is not in the paths is taken. -/
lemma Search.insert {pending : Option ℤ} {d e : ℤ} {l : List ℤ}
    (hs : Search db myNodeId paths tentative pending) (hnew : Entry db myNodeId d ⟨e, l⟩)
    (hlater : ∀ u ep, paths.find u = some ep → ep.cost ≤ e) (hnone : paths.find d = none) :
    Search db myNodeId paths (tentative.insertNextHopList d e l) pending := by
  have hentry : ∀ v ep, (tentative.insertNextHopList d e l).find v = some ep →
      Entry db myNodeId v ep ∧ ∀ u ep', paths.find u = some ep' → ep'.cost ≤ ep.cost := by
    intro v ep hfind
    by_cases hv : v = d
    · subst hv
      rcases LsPaths.insertNextHopList_self tentative v e l with
        ⟨old, hold, -, h⟩ | ⟨h, -⟩ | ⟨old, hold, heq, h⟩
      · obtain rfl := Option.some.inj (h.symm.trans hfind)
        exact ⟨hs.tried v old hold, fun u ep' hu => hs.later u v ep' old hu hold⟩
      · obtain rfl := Option.some.inj (h.symm.trans hfind)
        exact ⟨hnew, hlater⟩
      · obtain rfl := Option.some.inj (h.symm.trans hfind)
        have hold' := hs.tried v old hold
        refine ⟨⟨hnew.other, fun hempty => ?_, nodup_appendUnique hold'.nodup, fun h hh => ?_⟩, hlater⟩
        · obtain ⟨a, ha⟩ := List.exists_mem_of_ne_nil _ hnew.hops
          have hmem : a ∈ appendUnique old.nextHopList l := mem_appendUnique.mpr (Or.inr ha)
          rw [show appendUnique old.nextHopList l = [] from hempty] at hmem
          exact List.not_mem_nil hmem
        · rcases mem_appendUnique.mp hh with hh | hh
          · exact heq ▸ hold'.starts h hh
          · exact hnew.starts h hh
    · rw [LsPaths.insertNextHopList_of_ne hv] at hfind
      exact ⟨hs.tried v ep hfind, fun u ep' hu => hs.later u v ep' ep hu hfind⟩
  refine ⟨hs.self, hs.found, fun v ep hfind => (hentry v ep hfind).1,
    fun u v ep ep' hu hfind => (hentry v ep' hfind).2 u ep hu, fun v ep ep' hv hfind => ?_,
    fun u v c h hu hoffer => ?_⟩
  · have hvd : v ≠ d := by
      rintro rfl
      simp [hnone] at hv
    rw [LsPaths.insertNextHopList_of_ne hvd] at hfind
    exact hs.both v ep ep' hv hfind
  · exact (hs.offered u v c h hu hoffer).imp_right (Or.imp_right Beats.insert)

section Expand
variable {ep : LsEqualPaths} {nhl : List ℤ} {link : LsLinkState}

lemma tryLink_covered (hc : Covered paths tentative v c h) :
    Covered paths (tryLink myNodeId paths u nhl tentative link) v c h := by
  unfold tryLink
  split
  · exact hc
  · dsimp only
    split
    · exact hc
    · exact hc.imp_right (Or.imp_right Beats.insert)

/-- After a link has been tried, the offers through it are covered. -/
lemma tryLink_covers (hu : paths.find u = some ep) (hup : link.status = .up)
    (hh : h ∈ if u = myNodeId then [link.neighborId] else nhl) :
    Covered paths (tryLink myNodeId paths u nhl tentative link) link.neighborId
      (ep.cost + link.cost) h := by
  unfold tryLink
  rw [if_neg (not_not.mpr hup)]
  dsimp only
  rw [LsPaths.lookupCost_eq hu, add_comm link.cost]
  split
  · rename_i hlt
    cases hfind : paths.find link.neighborId with
    | none =>
      rw [LsPaths.lookupCost_of_none hfind] at hlt
      exact Or.inl (by omega)
    | some ep' =>
      rw [LsPaths.lookupCost_eq hfind] at hlt
      exact Or.inr (Or.inl ⟨ep', hfind, Or.inl hlt⟩)
  · exact Or.inr (Or.inr (beats_insert hh))

variable (hpos : ∀ u v c, UpLink db u v c → 0 < c)
include hpos

lemma Search.tryLink (hs : Search db myNodeId paths tentative (some u)) (hu : paths.find u = some ep)
    (hmax : ∀ w ep', paths.find w = some ep' → ep'.cost ≤ ep.cost)
    (hnhl : u ≠ myNodeId → nhl = ep.nextHopList)
    (hlink : link.status = .up → UpLink db u link.neighborId link.cost) :
    Search db myNodeId paths (tryLink myNodeId paths u nhl tentative link) (some u) := by
  unfold LsRouting.tryLink
  split
  · exact hs
  · rename_i hup
    have hedge := hlink (not_not.mp hup)
    have hcost := hpos _ _ _ hedge
    dsimp only
    rw [LsPaths.lookupCost_eq hu, add_comm link.cost]
    split
    · exact hs
    · rename_i hge
      have hnone : paths.find link.neighborId = none := by
        cases hfind : paths.find link.neighborId with
        | none => rfl
        | some ep' =>
          rw [LsPaths.lookupCost_eq hfind] at hge
          have := hmax _ ep' hfind
          omega
      have hother : link.neighborId ≠ myNodeId := fun heq => by
        rw [heq, hs.self] at hnone
        exact Option.some_ne_none _ hnone
      refine hs.insert ?_ (fun w ep' hw => (hmax w ep' hw).trans (by omega)) hnone
      by_cases hme : u = myNodeId
      · rw [if_pos hme]
        have hzero : ep.cost = 0 := by
          subst hme
          exact congrArg (·.cost) (Option.some.inj (hu.symm.trans hs.self))
        refine ⟨hother, List.cons_ne_nil _ _, List.nodup_singleton _, fun h hh => ?_⟩
        obtain rfl := List.mem_singleton.mp hh
        rw [hzero, zero_add]
        exact Starts.edge (hme ▸ hedge)
      · rw [if_neg hme, hnhl hme]
        obtain ⟨hentry, -, -⟩ := hs.found u ep hu hme
        exact ⟨hother, hentry.hops, hentry.nodup, fun h hh => (hentry.starts h hh).snoc hedge⟩

/-- When all links of a node have been tried, its offers have been made. -/
lemma Search.expand {lsl : List LsLinkState} (hs : Search db myNodeId paths tentative (some u))
    (hu : paths.find u = some ep) (hmax : ∀ w ep', paths.find w = some ep' → ep'.cost ≤ ep.cost)
    (hnhl : u ≠ myNodeId → nhl = ep.nextHopList) (hlsl : db.find u = some lsl) :
    Search db myNodeId paths (lsl.foldl (LsRouting.tryLink myNodeId paths u nhl) tentative) none := by
  have hfold : ∀ (ls : List LsLinkState) (t : LsPaths), (∀ l ∈ ls, l ∈ lsl) → Search db myNodeId paths t (some u) →
      Search db myNodeId paths (ls.foldl (LsRouting.tryLink myNodeId paths u nhl) t) (some u) ∧
      (∀ v c h, Covered paths t v c h →
        Covered paths (ls.foldl (LsRouting.tryLink myNodeId paths u nhl) t) v c h) ∧
      ∀ l ∈ ls, l.status = .up → ∀ h, (h ∈ if u = myNodeId then [l.neighborId] else nhl) →
        Covered paths (ls.foldl (LsRouting.tryLink myNodeId paths u nhl) t) l.neighborId
          (ep.cost + l.cost) h := by
    intro ls
    induction ls with
    | nil => exact fun t _ ht => ⟨ht, fun _ _ _ hc => hc, fun l hl => absurd hl List.not_mem_nil⟩
    | cons a ls ih =>
      intro t hmem ht
      have ha : a.status = .up → UpLink db u a.neighborId a.cost := fun hup =>
        ⟨lsl, hlsl, a, hmem a List.mem_cons_self, hup, rfl, rfl⟩
      obtain ⟨hsearch, hkeep, hcover⟩ := ih _ (fun l hl => hmem l (List.mem_cons_of_mem a hl))
        (Search.tryLink hpos ht hu hmax hnhl ha)
      refine ⟨hsearch, fun v c h hc => hkeep v c h (tryLink_covered hc), fun l hl hup h hh => ?_⟩
      rcases List.mem_cons.mp hl with rfl | hl
      · exact hkeep _ _ _ (tryLink_covers hu hup hh)
      · exact hcover l hl hup h hh
  obtain ⟨hsearch, -, hcover⟩ := hfold lsl tentative (fun _ hl => hl) hs
  refine ⟨hsearch.self, hsearch.found, hsearch.tried, hsearch.later, hsearch.both,
    fun w v c h _ hoffer => ?_⟩
  by_cases hw : w = u
  · subst hw
    obtain ⟨ep', e, hfind, ⟨lsl', hlsl', l, hl, hup, rfl, rfl⟩, rfl, hh⟩ := hoffer
    obtain rfl := Option.some.inj (hfind.symm.trans hu)
    obtain rfl := Option.some.inj (hlsl'.symm.trans hlsl)
    refine hcover l hl hup h ?_
    split at hh
    · rename_i hme
      rw [if_pos hme]
      exact List.mem_singleton.mpr hh
    · rename_i hme
      rw [if_neg hme, hnhl hme]
      exact hh
  · exact hsearch.offered w v c h (fun heq => hw (Option.some.inj heq)) hoffer

end Expand

section Pop
variable (hpos : ∀ u v c, UpLink db u v c → 0 < c)
include hpos

lemma Search.isDist {ep : LsEqualPaths} {pending : Option ℤ}
    (hs : Search db myNodeId paths tentative pending) (hv : paths.find v = some ep) :
    IsDist (UpLink db) myNodeId v ep.cost := by
  by_cases hme : v = myNodeId
  · subst hme
    obtain rfl := Option.some.inj (hs.self.symm.trans hv)
    exact isDist_self (fun u v c he => (hpos u v c he).le) v
  · exact (hs.found v ep hv hme).2.1

/-- A walk to a node that is not in the paths comes by a tentative path. -/
lemma Search.frontier (hs : Search db myNodeId paths tentative none) (hv : paths.find v = none)
    (hw : Walk (UpLink db) myNodeId v c) (hc : c ≤ LS_MAX_COST) :
    ∃ y ep, tentative.find y = some ep ∧ ep.cost ≤ c := by
  obtain ⟨x, y, e, ⟨ep, hx⟩, hy, he, hle⟩ := Walk.frontier_le
    (S := fun x => ∃ ep, paths.find x = some ep) (fun u v c he => (hpos u v c he).le)
    (fun x ⟨ep, hx⟩ => LsPaths.lookupCost_eq hx ▸ hs.isDist hpos hx) ⟨_, hs.self⟩
    (fun ⟨ep, hep⟩ => by simp [hv] at hep) hw
  rw [LsPaths.lookupCost_eq hx] at hle
  obtain ⟨h, hh⟩ : ∃ h, if x = myNodeId then h = y else h ∈ ep.nextHopList := by
    by_cases hme : x = myNodeId
    · exact ⟨y, by rw [if_pos hme]⟩
    · obtain ⟨h, hh⟩ := List.exists_mem_of_ne_nil _ (hs.found x ep hx hme).1.hops
      exact ⟨h, by rwa [if_neg hme]⟩
  rcases hs.offered x y _ h (by simp) ⟨ep, e, hx, he, rfl, hh⟩ with hbig | ⟨ep', hfind, -⟩ | hbeats
  · exact absurd (hle.trans hc) (not_le.mpr hbig)
  · exact absurd ⟨ep', hfind⟩ hy
  · obtain ⟨ep', hfind, hcost⟩ := hbeats
    exact ⟨y, ep', hfind, (hcost.elim le_of_lt fun h => h.1.le).trans hle⟩

variable (hcost : ∀ v c, Walk (UpLink db) myNodeId v c →
  ∃ c' ≤ LS_MAX_COST, Walk (UpLink db) myNodeId v c')
include hcost

/-- The least tentative path is a least-cost path. -/
lemma Search.min (hs : Search db myNodeId paths tentative none) (hne : ¬tentative.isEmpty) :
    ∃ v ep, tentative.findMinEqualPaths = some ⟨v, ep⟩ ∧ tentative.find v = some ep ∧
      ep.cost ≤ LS_MAX_COST ∧ IsDist (UpLink db) myNodeId v ep.cost ∧
      ∀ w ep', tentative.find w = some ep' → ep.cost ≤ ep'.cost := by
  have hwalk : ∀ v ep, tentative.find v = some ep → Walk (UpLink db) myNodeId v ep.cost := by
    intro v ep hv
    obtain ⟨h, hh⟩ := List.exists_mem_of_ne_nil _ (hs.tried v ep hv).hops
    exact ((hs.tried v ep hv).starts h hh).walk
  rcases LsPaths.findMinEqualPaths_spec fun v ep hv => (hs.tried v ep hv).hops with
    ⟨-, hbig⟩ | ⟨v, ep, hmin, hv, hle, hleast⟩
  · obtain ⟨v, ep, hv⟩ := SortedMap.exists_find_of_not_isEmpty hne
    have hnone : paths.find v = none := by
      cases hfind : paths.find v with
      | none => rfl
      | some ep' =>
        have hcost' := (hs.found v ep' hfind (hs.tried v ep hv).other).2.2
        have := hbig v ep hv
        rw [(hs.both v ep' ep hfind hv).1] at hcost'
        omega
    obtain ⟨c', hc', hw⟩ := hcost v ep.cost (hwalk v ep hv)
    obtain ⟨y, ep', hy, hle⟩ := hs.frontier hpos hnone hw hc'
    have := hbig y ep' hy
    omega
  · refine ⟨v, ep, hmin, hv, hle, ?_, hleast⟩
    cases hfind : paths.find v with
    | some ep' =>
      rw [← (hs.both v ep' ep hfind hv).1]
      exact hs.isDist hpos hfind
    | none =>
      refine ⟨hwalk v ep hv, fun c hc => ?_⟩
      by_cases hcm : c ≤ LS_MAX_COST
      · obtain ⟨y, ep', hy, hle'⟩ := hs.frontier hpos hfind hc hcm
        exact (hleast y ep' hy).trans hle'
      · exact hle.trans (not_le.mp hcm).le

end Pop

/-- The next hop that is popped is added to those that the paths have for the destination. -/
lemma insertPath_popped {ep : LsEqualPaths} {rest : List ℤ} {pending : Option ℤ}
    (hs : Search db myNodeId paths tentative pending) (hv : tentative.find v = some ep)
    (hhops : ep.nextHopList = h :: rest) :
    ∃ old, (paths.insertPath ⟨v, ep.cost, h⟩).find v = some ⟨ep.cost, old ++ [h]⟩ ∧
      (paths.find v = some ⟨ep.cost, old⟩ ∨ paths.find v = none ∧ old = []) := by
  cases hfind : paths.find v with
  | none => exact ⟨[], LsPaths.insertPath_of_none (p := ⟨v, ep.cost, h⟩) hfind, Or.inr ⟨rfl, rfl⟩⟩
  | some ep' =>
    obtain ⟨heq, hdisj⟩ := hs.both v ep' ep hfind hv
    have hnew : h ∉ ep'.nextHopList := fun hmem => hdisj hmem (hhops ▸ List.mem_cons_self)
    refine ⟨ep'.nextHopList, LsPaths.insertPath_of_equal (p := ⟨v, ep.cost, h⟩) hfind heq hnew,
      Or.inl ?_⟩
    rw [← heq]

/-- Moving the least next hop to the paths leaves only the offers of its destination to be made. -/
lemma Search.pop {ep : LsEqualPaths} {rest : List ℤ} {t : LsPaths}
    (hs : Search db myNodeId paths tentative none) (hv : tentative.find v = some ep)
    (hle : ep.cost ≤ LS_MAX_COST) (hdist : IsDist (UpLink db) myNodeId v ep.cost)
    (hleast : ∀ w ep', tentative.find w = some ep' → ep.cost ≤ ep'.cost)
    (hhops : ep.nextHopList = h :: rest) (hother : ∀ w, w ≠ v → t.find w = tentative.find w)
    (hself : t.find v = if rest = [] then none else some ⟨ep.cost, rest⟩) :
    Search db myNodeId (paths.insertPath ⟨v, ep.cost, h⟩) t (some v) ∧
      ∀ w ep', (paths.insertPath ⟨v, ep.cost, h⟩).find w = some ep' → ep'.cost ≤ ep.cost := by
  have hentry := hs.tried v ep hv
  obtain ⟨old, hnew, hold⟩ := insertPath_popped hs hv hhops
  have hsame : ∀ w, w ≠ v → (paths.insertPath ⟨v, ep.cost, h⟩).find w = paths.find w := fun w hw =>
    LsPaths.insertPath_of_ne hw
  have hnodup : h ∉ rest ∧ rest.Nodup := List.nodup_cons.mp (hhops ▸ hentry.nodup)
  have holdEntry : old.Nodup ∧ (∀ h ∈ old, Starts (UpLink db) myNodeId v h ep.cost) ∧
      old.Disjoint (h :: rest) := by
    rcases hold with hfind | ⟨-, rfl⟩
    · obtain ⟨hentry', -, -⟩ := hs.found v _ hfind hentry.other
      exact ⟨hentry'.nodup, hentry'.starts, hhops ▸ (hs.both v _ ep hfind hv).2⟩
    · exact ⟨List.nodup_nil, fun h hh => absurd hh List.not_mem_nil, List.disjoint_nil_left _⟩
  have hmax : ∀ w ep', (paths.insertPath ⟨v, ep.cost, h⟩).find w = some ep' → ep'.cost ≤ ep.cost := by
    intro w ep' hw
    by_cases hwv : w = v
    · subst hwv
      obtain rfl := Option.some.inj (hnew.symm.trans hw)
      exact le_rfl
    · exact hs.later w v ep' ep (hsame w hwv ▸ hw) hv
  have hrest : ∀ ep', t.find v = some ep' → ep' = ⟨ep.cost, rest⟩ ∧ rest ≠ [] := by
    intro ep' hep'
    rw [hself] at hep'
    split_ifs at hep' with hempty
    exact ⟨(Option.some.inj hep').symm, hempty⟩
  refine ⟨⟨?_, fun w ep' hw hwme => ?_, fun w ep' hw => ?_, fun u w ep₁ ep₂ hu hw => ?_,
    fun w ep₁ ep₂ h₁ h₂ => ?_, fun u w c g hu hoffer => ?_⟩, hmax⟩
  · rw [hsame myNodeId (Ne.symm hentry.other)]
    exact hs.self
  · by_cases hwv : w = v
    · subst hwv
      obtain rfl := Option.some.inj (hnew.symm.trans hw)
      refine ⟨⟨hwme, by simp, ?_, fun g hg => ?_⟩, hdist, hle⟩
      · exact holdEntry.1.append (List.nodup_singleton h) fun g hg hg' =>
          holdEntry.2.2 hg (List.mem_singleton.mp hg' ▸ List.mem_cons_self)
      · rcases List.mem_append.mp hg with hg | hg
        · exact holdEntry.2.1 g hg
        · exact hentry.starts g (hhops ▸ List.mem_singleton.mp hg ▸ List.mem_cons_self)
    · exact hs.found w ep' (hsame w hwv ▸ hw) hwme
  · by_cases hwv : w = v
    · subst hwv
      obtain ⟨rfl, hne⟩ := hrest ep' hw
      exact ⟨hentry.other, hne, hnodup.2, fun g hg =>
        hentry.starts g (hhops ▸ List.mem_cons_of_mem h hg)⟩
    · exact hs.tried w ep' (hother w hwv ▸ hw)
  · refine (hmax u ep₁ hu).trans ?_
    by_cases hwv : w = v
    · subst hwv
      obtain ⟨rfl, -⟩ := hrest ep₂ hw
      exact le_rfl
    · exact hleast w ep₂ (hother w hwv ▸ hw)
  · by_cases hwv : w = v
    · subst hwv
      obtain rfl := Option.some.inj (hnew.symm.trans h₁)
      obtain ⟨rfl, -⟩ := hrest ep₂ h₂
      refine ⟨rfl, fun g hg hg' => ?_⟩
      rcases List.mem_append.mp hg with hg | hg
      · exact holdEntry.2.2 hg (List.mem_cons_of_mem h hg')
      · exact hnodup.1 (List.mem_singleton.mp hg ▸ hg')
    · exact hs.both w ep₁ ep₂ (hsame w hwv ▸ h₁) (hother w hwv ▸ h₂)
  · have huv : u ≠ v := fun heq => hu (congrArg some heq)
    obtain ⟨ep', e, hfind, he, rfl, hg⟩ := hoffer
    have hoffer' : Offer db myNodeId paths u w (ep'.cost + e) g :=
      ⟨ep', e, hsame u huv ▸ hfind, he, rfl, hg⟩
    rcases hs.offered u w _ g (by simp) hoffer' with hbig | ⟨ep₁, h₁, hc⟩ | ⟨ep₁, h₁, hc⟩
    · exact Or.inl hbig
    · by_cases hwv : w = v
      · subst hwv
        rcases hold with hfind | ⟨hnone, -⟩
        · obtain rfl := Option.some.inj (hfind.symm.trans h₁)
          exact Or.inr (Or.inl ⟨_, hnew, hc.imp_right fun h => ⟨h.1, List.mem_append_left _ h.2⟩⟩)
        · simp [hnone] at h₁
      · exact Or.inr (Or.inl ⟨ep₁, (hsame w hwv).trans h₁, hc⟩)
    · by_cases hwv : w = v
      · subst hwv
        obtain rfl := Option.some.inj (hv.symm.trans h₁)
        rcases hc with hlt | ⟨heq, hmem⟩
        · exact Or.inr (Or.inl ⟨_, hnew, Or.inl hlt⟩)
        · rcases List.mem_cons.mp (hhops ▸ hmem) with rfl | hmem
          · exact Or.inr (Or.inl ⟨_, hnew, Or.inr ⟨heq, by simp⟩⟩)
          · have hne : rest ≠ [] := List.ne_nil_of_mem hmem
            exact Or.inr (Or.inr ⟨⟨ep.cost, rest⟩, by rw [hself, if_neg hne], Or.inr ⟨heq, hmem⟩⟩)
      · exact Or.inr (Or.inr ⟨ep₁, (hother w hwv).trans h₁, hc⟩)

/-- The ends of the links of the database. -/
def linkEnds (db : LsTopoMap) : Finset ℤ :=
  (db.entries.flatMap fun e => e.2.map (·.neighborId)).toFinset

lemma UpLink.mem_linkEnds (he : UpLink db u v c) : v ∈ linkEnds db := by
  obtain ⟨lsl, hlsl, l, hl, -, rfl, -⟩ := he
  unfold linkEnds
  rw [List.mem_toFinset, List.mem_flatMap]
  exact ⟨⟨u, lsl⟩, SortedMap.mem_entries_iff.mpr hlsl, List.mem_map_of_mem hl⟩

/-- The next hops that may still be put in the paths. -/
def left (db : LsTopoMap) (paths : LsPaths) : Finset (ℤ × ℤ) :=
  (linkEnds db ×ˢ linkEnds db).filter fun x => x.2 ∉ (paths.lookupNextHopList x.1).getD []

lemma Starts.mem_linkEnds (hs : Starts (UpLink db) u v h c) : v ∈ linkEnds db ∧ h ∈ linkEnds db := by
  refine ⟨?_, ?_⟩
  · rcases hs.last with ⟨-, he⟩ | ⟨x, a, e, -, he, -⟩
    · exact he.mem_linkEnds
    · exact he.mem_linkEnds
  · obtain ⟨a, b, he, -, -⟩ := hs
    exact he.mem_linkEnds

lemma left_insertPath {ep : LsEqualPaths} {rest : List ℤ} {pending : Option ℤ}
    (hs : Search db myNodeId paths tentative pending) (hv : tentative.find v = some ep)
    (hhops : ep.nextHopList = h :: rest) :
    (left db (paths.insertPath ⟨v, ep.cost, h⟩)).card < (left db paths).card := by
  obtain ⟨old, hnew, hold⟩ := insertPath_popped hs hv hhops
  have hlookup : (paths.lookupNextHopList v).getD [] = old := by
    unfold LsPaths.lookupNextHopList
    rcases hold with hfind | ⟨hfind, rfl⟩
    · rw [hfind]
      rfl
    · rw [hfind]
      rfl
  have hlookup' : ((paths.insertPath ⟨v, ep.cost, h⟩).lookupNextHopList v).getD [] = old ++ [h] := by
    unfold LsPaths.lookupNextHopList
    rw [hnew]
    rfl
  have hfresh : h ∉ old := by
    rcases hold with hfind | ⟨-, rfl⟩
    · exact fun hmem => (hs.both v _ ep hfind hv).2 hmem (hhops ▸ List.mem_cons_self)
    · exact List.not_mem_nil
  have hends : v ∈ linkEnds db ∧ h ∈ linkEnds db :=
    Starts.mem_linkEnds ((hs.tried v ep hv).starts h (hhops ▸ List.mem_cons_self))
  refine Finset.card_lt_card (Finset.ssubset_iff_subset_ne.mpr ⟨fun x hx => ?_, fun heq => ?_⟩)
  · simp only [left, Finset.mem_filter] at hx ⊢
    refine ⟨hx.1, fun hmem => hx.2 ?_⟩
    by_cases hxv : x.1 = v
    · rw [hxv, hlookup] at hmem
      rw [hxv, hlookup']
      exact List.mem_append_left _ hmem
    · unfold LsPaths.lookupNextHopList at hmem ⊢
      rwa [LsPaths.insertPath_of_ne (p := ⟨v, ep.cost, h⟩) hxv]
  · have hin : (v, h) ∈ left db paths := by
      simp only [left, Finset.mem_filter, Finset.mem_product]
      exact ⟨hends, hlookup ▸ hfresh⟩
    rw [← heq] at hin
    simp only [left, Finset.mem_filter] at hin
    exact hin.2 (hlookup' ▸ by simp)

/-- With the id of no other node reserved, a least-cost path is a valid one. -/
lemma isValid_of_starts (hpos : ∀ u v c, UpLink db u v c → 0 < c)
    (hvalid : ∀ v c, Walk (UpLink db) myNodeId v c → v ≠ myNodeId → v ≠ LS_INVALID_NODE_ID)
    (hother : v ≠ myNodeId) (hle : c ≤ LS_MAX_COST) (hdist : IsDist (UpLink db) myNodeId v c)
    (hs : Starts (UpLink db) myNodeId v h c) : (⟨v, c, h⟩ : LsPath).isValid = true := by
  have hv := hvalid v c hdist.1 hother
  have hh : h ≠ LS_INVALID_NODE_ID := by
    obtain ⟨a, b, he, hw, rfl⟩ := hs
    refine hvalid h a (Walk.edge he) ?_
    rintro rfl
    have := hpos _ _ _ he
    have := hdist.2 hw
    omega
  have hc : c ≠ LS_INVALID_COST := by
    unfold LS_INVALID_COST
    unfold LS_MAX_COST at hle
    omega
  unfold LsPath.isValid
  exact decide_eq_true ⟨hv, hc, hh⟩

section Run
variable (hpos : ∀ u v c, UpLink db u v c → 0 < c)
variable (hcost : ∀ v c, Walk (UpLink db) myNodeId v c →
  ∃ c' ≤ LS_MAX_COST, Walk (UpLink db) myNodeId v c')
variable (hvalid : ∀ v c, Walk (UpLink db) myNodeId v c → v ≠ myNodeId → v ≠ LS_INVALID_NODE_ID)
include hpos hcost hvalid

/-- The paths that are popped are valid, and there is an end to them. -/
lemma popPaths_spec {fuel : ℕ} (hs : Search db myNodeId paths tentative none)
    (hfuel : (left db paths).card < fuel) :
    ∃ paths' t, (popPaths db fuel paths tentative = some (paths', t, none) ∧
        Search db myNodeId paths' t none ∧ t.isEmpty) ∨
      ∃ u lsl ep, popPaths db fuel paths tentative = some (paths', t, some (u, lsl)) ∧
        Search db myNodeId paths' t (some u) ∧ db.find u = some lsl ∧ paths'.find u = some ep ∧
        u ≠ myNodeId ∧ (∀ w ep', paths'.find w = some ep' → ep'.cost ≤ ep.cost) ∧
        (left db paths').card < (left db paths).card := by
  induction fuel generalizing paths tentative with
  | zero => exact absurd hfuel (Nat.not_lt_zero _)
  | succ fuel ih =>
    by_cases hempty : tentative.isEmpty
    · refine ⟨paths, tentative, Or.inl ⟨?_, hs, hempty⟩⟩
      rw [popPaths, if_pos hempty]
    · obtain ⟨v, ep, hmin, hv, hle, hdist, hleast⟩ := hs.min hpos hcost hempty
      have hentry := hs.tried v ep hv
      obtain ⟨h, rest, hhops⟩ := List.exists_cons_of_ne_nil hentry.hops
      have hstarts : Starts (UpLink db) myNodeId v h ep.cost :=
        hentry.starts h (hhops ▸ List.mem_cons_self)
      obtain ⟨t, hpop, hother, hself⟩ := LsPaths.popShortestPath_eq hmin hhops
      obtain ⟨hs', hmax⟩ := hs.pop hv hle hdist hleast hhops hother hself
      have hcard := left_insertPath hs hv hhops
      have hok : (⟨v, ep.cost, h⟩ : LsPath).isValid = true :=
        isValid_of_starts hpos hvalid hentry.other hle hdist hstarts
      have hstep : popPaths db (fuel + 1) paths tentative =
          match db.find v with
          | some lsl => some (paths.insertPath ⟨v, ep.cost, h⟩, t, some (v, lsl))
          | none => popPaths db fuel (paths.insertPath ⟨v, ep.cost, h⟩) t := by
        rw [popPaths, if_neg hempty, hpop, Option.bind_some]
        exact if_neg (by simp [hok])
      rw [hstep]
      cases hfind : db.find v with
      | some lsl =>
        obtain ⟨old, hnew, -⟩ := insertPath_popped hs hv hhops
        exact ⟨_, t, Or.inr ⟨v, lsl, _, rfl, hs', hfind, hnew, hentry.other, hmax, hcard⟩⟩
      | none =>
        have hnone : Search db myNodeId (paths.insertPath ⟨v, ep.cost, h⟩) t none := by
          refine ⟨hs'.self, hs'.found, hs'.tried, hs'.later, hs'.both, fun u w c g _ hoffer => ?_⟩
          refine hs'.offered u w c g (fun heq => ?_) hoffer
          obtain ⟨-, e, -, ⟨lsl, hlsl, -⟩, -⟩ := hoffer
          rw [Option.some.inj heq, hfind] at hlsl
          simp at hlsl
        obtain ⟨paths', t', hres⟩ := ih hnone (by omega)
        refine ⟨paths', t', hres.imp_right ?_⟩
        rintro ⟨u, lsl, ep', hpop', hsearch, hlsl, hu, hme, hmax', hlt⟩
        exact ⟨u, lsl, ep', hpop', hsearch, hlsl, hu, hme, hmax', hlt.trans hcard⟩

/-- The search ends with all offers made and no tentative path left. -/
lemma expandNodes_spec {fuel : ℕ} {ep : LsEqualPaths} {lsl : List LsLinkState}
    (hs : Search db myNodeId paths tentative (some u)) (hu : paths.find u = some ep)
    (hmax : ∀ w ep', paths.find w = some ep' → ep'.cost ≤ ep.cost) (hlsl : db.find u = some lsl)
    (hfuel : (left db paths).card < fuel) :
    ∃ paths' t, expandNodes db myNodeId fuel paths tentative u lsl = some paths' ∧
      Search db myNodeId paths' t none ∧ t.isEmpty := by
  induction fuel generalizing paths tentative u ep lsl with
  | zero => exact absurd hfuel (Nat.not_lt_zero _)
  | succ fuel ih =>
    obtain ⟨nhl, hnhl, hlist⟩ : ∃ nhl, (if u = myNodeId then some [] else
        paths.lookupNextHopList u) = some nhl ∧ (u ≠ myNodeId → nhl = ep.nextHopList) := by
      by_cases hme : u = myNodeId
      · exact ⟨[], if_pos hme, fun h => absurd hme h⟩
      · refine ⟨ep.nextHopList, ?_, fun _ => rfl⟩
        rw [if_neg hme, LsPaths.lookupNextHopList, hu, Option.map_some]
    rw [expandNodes, hnhl, Option.bind_some]
    dsimp only
    have hexpand := hs.expand hpos hu hmax hlist hlsl
    obtain ⟨paths', t, ⟨hpop, hsearch, hempty⟩ | ⟨v, lsl', ep', hpop, hsearch, hv, hfind, hme, hmax', hlt⟩⟩ :=
      popPaths_spec hpos hcost hvalid hexpand hfuel
    · rw [hpop, Option.bind_some]
      exact ⟨paths', t, rfl, hsearch, hempty⟩
    · rw [hpop, Option.bind_some]
      exact ih hsearch hfind hmax' hv (hlt.trans_le (Nat.lt_succ_iff.mp hfuel))

end Run

/-- When no tentative path is left, every node that can be reached is in the paths. -/
lemma Search.complete (hpos : ∀ u v c, UpLink db u v c → 0 < c)
    (hcost : ∀ v c, Walk (UpLink db) myNodeId v c →
      ∃ c' ≤ LS_MAX_COST, Walk (UpLink db) myNodeId v c')
    (hs : Search db myNodeId paths tentative none) (hempty : tentative.isEmpty)
    (hw : Walk (UpLink db) myNodeId v c) : ∃ ep, paths.find v = some ep := by
  by_contra hno
  have hnone : paths.find v = none := Option.eq_none_iff_forall_ne_some.mpr fun ep h => hno ⟨ep, h⟩
  obtain ⟨c', hc', hw'⟩ := hcost v c hw
  obtain ⟨y, ep, hy, -⟩ := hs.frontier hpos hnone hw' hc'
  simp [SortedMap.isEmpty_iff.mp hempty y] at hy

/-- When no tentative path is left, the first hop of each least-cost walk is a next hop. -/
lemma Search.mem_nextHopList (hpos : ∀ u v c, UpLink db u v c → 0 < c)
    (hcost : ∀ v c, Walk (UpLink db) myNodeId v c →
      ∃ c' ≤ LS_MAX_COST, Walk (UpLink db) myNodeId v c')
    (hs : Search db myNodeId paths tentative none) (hempty : tentative.isEmpty) {ep : LsEqualPaths}
    (hv : paths.find v = some ep) (hme : v ≠ myNodeId) (hdist : IsDist (UpLink db) myNodeId v c)
    (hh : Starts (UpLink db) myNodeId v h c) : h ∈ ep.nextHopList := by
  induction hk : c.toNat using Nat.strong_induction_on generalizing v c ep with
  | _ k ih =>
    obtain ⟨-, hdist', hle⟩ := hs.found v ep hv hme
    obtain rfl := hdist'.unique hdist
    have htaken : ∀ u, Offer db myNodeId paths u v ep.cost h → h ∈ ep.nextHopList := by
      intro u hoffer
      rcases hs.offered u v _ h (by simp) hoffer with hbig | ⟨ep', hfind, hbeats⟩ | ⟨ep', hfind, -⟩
      · exact absurd hle (not_le.mpr hbig)
      · obtain rfl := Option.some.inj (hfind.symm.trans hv)
        rcases hbeats with hlt | ⟨-, hmem⟩
        · exact absurd hlt (lt_irrefl _)
        · exact hmem
      · simp [SortedMap.isEmpty_iff.mp hempty v] at hfind
    rcases hh.last with ⟨rfl, he⟩ | ⟨x, a, e, hx, he, hsum⟩
    · exact htaken myNodeId ⟨_, ep.cost, hs.self, he, zero_add _, by rw [if_pos rfl]⟩
    · rw [← hsum] at hdist
      have hdistx := hdist.init hx.walk he
      have ha := hx.pos hpos
      have hxme : x ≠ myNodeId := by
        rintro rfl
        exact ha.ne' (hdistx.unique (isDist_self (fun u v c he => (hpos u v c he).le) x))
      obtain ⟨epx, hepx⟩ := hs.complete hpos hcost hempty hx.walk
      have hcostx := (hs.found x epx hepx hxme).2.1.unique hdistx
      have hlt : a.toNat < k := by
        have := hpos _ _ _ he
        omega
      refine htaken x ⟨epx, e, hepx, he, hcostx ▸ hsum, ?_⟩
      rw [if_neg hxme]
      exact ih a.toNat hlt hepx hxme hdistx hx rfl

/-- What `_computeRoutes` returns: the nodes that can be reached, with their least costs and the first
hops of their least-cost walks. -/
structure Routes (db : LsTopoMap) (myNodeId : ℤ) (paths : LsPaths) : Prop where
  reached : ∀ v, (∃ ep, paths.find v = some ep) ↔ ∃ c, Walk (UpLink db) myNodeId v c
  cost : ∀ v ep, paths.find v = some ep → IsDist (UpLink db) myNodeId v ep.cost
  nodup : ∀ v ep, paths.find v = some ep → ep.nextHopList.Nodup
  hops : ∀ v ep, paths.find v = some ep → v ≠ myNodeId →
    ∀ h, h ∈ ep.nextHopList ↔ FirstHop (UpLink db) myNodeId v h

lemma Search.routes (hpos : ∀ u v c, UpLink db u v c → 0 < c)
    (hcost : ∀ v c, Walk (UpLink db) myNodeId v c →
      ∃ c' ≤ LS_MAX_COST, Walk (UpLink db) myNodeId v c')
    (hs : Search db myNodeId paths tentative none) (hempty : tentative.isEmpty) :
    Routes db myNodeId paths := by
  refine ⟨fun v => ⟨fun ⟨ep, hv⟩ => ⟨ep.cost, (hs.isDist hpos hv).1⟩, fun ⟨c, hw⟩ =>
    hs.complete hpos hcost hempty hw⟩, fun v ep hv => hs.isDist hpos hv, fun v ep hv => ?_,
    fun v ep hv hme h => ⟨fun hh => ?_, fun ⟨c, hdist, hh⟩ => ?_⟩⟩
  · by_cases hme : v = myNodeId
    · subst hme
      obtain rfl := Option.some.inj (hs.self.symm.trans hv)
      exact List.nodup_singleton v
    · exact (hs.found v ep hv hme).1.nodup
  · obtain ⟨hentry, hdist, -⟩ := hs.found v ep hv hme
    exact ⟨ep.cost, hdist, hentry.starts h hh⟩
  · exact hs.mem_nextHopList hpos hcost hempty hv hme hdist hh

/-- The paths before the search: the node itself. -/
lemma find_toSelf : (LsPaths.insertPathNoChecking SortedMap.empty ⟨myNodeId, 0, myNodeId⟩).find v =
    if v = myNodeId then some ⟨0, [myNodeId]⟩ else none := by
  unfold LsPaths.insertPathNoChecking
  rw [SortedMap.insert_of_none SortedMap.find_empty, SortedMap.find_set, SortedMap.find_empty]

lemma search_toSelf (db : LsTopoMap) (myNodeId : ℤ) : Search db myNodeId
    (LsPaths.insertPathNoChecking SortedMap.empty ⟨myNodeId, 0, myNodeId⟩) SortedMap.empty
    (some myNodeId) := by
  refine ⟨by rw [find_toSelf, if_pos rfl], fun v ep hv hme => ?_, fun v ep hv => ?_,
    fun u v ep ep' _ hv => ?_, fun v ep ep' _ hv => ?_, fun u v c h hu hoffer => ?_⟩
  · simp [find_toSelf, hme] at hv
  · simp at hv
  · simp at hv
  · simp at hv
  · obtain ⟨ep, e, hfind, -⟩ := hoffer
    have hme : u ≠ myNodeId := fun heq => hu (congrArg some heq)
    simp [find_toSelf, hme] at hfind

/-- A database in which node 1 has two links of cost 1 to node `d`. -/
def parallelLinks (d : ℤ) : LsTopoMap :=
  SortedMap.empty.set 1 [⟨d, .up, 1, 0⟩, ⟨d, .up, 1, 0⟩]

lemma upLink_parallelLinks {d : ℤ} (he : UpLink (parallelLinks d) u v c) :
    u = 1 ∧ v = d ∧ c = 1 := by
  obtain ⟨lsl, hfind, l, hl, -, rfl, rfl⟩ := he
  unfold parallelLinks at hfind
  rw [SortedMap.find_set, SortedMap.find_empty] at hfind
  split_ifs at hfind with hu
  obtain rfl := Option.some.inj hfind
  have : l = ⟨d, .up, 1, 0⟩ := by simpa using hl
  exact ⟨hu, by rw [this], by rw [this]⟩

lemma parallelLinks_pos {d : ℤ} (u v c : ℤ) (he : UpLink (parallelLinks d) u v c) : 0 < c :=
  (upLink_parallelLinks he).2.2 ▸ Int.one_pos

lemma parallelLinks_cost {d : ℤ} (v c : ℤ) (hw : Walk (UpLink (parallelLinks d)) 1 v c) :
    ∃ c' ≤ LS_MAX_COST, Walk (UpLink (parallelLinks d)) 1 v c' := by
  have hlink : UpLink (parallelLinks d) 1 d 1 :=
    ⟨_, rfl, ⟨d, .up, 1, 0⟩, List.mem_cons_self, rfl, rfl, rfl⟩
  rcases hw.last with ⟨rfl, -⟩ | ⟨x, a, e, -, he, -⟩
  · exact ⟨0, by decide, .nil 1⟩
  · obtain ⟨-, rfl, -⟩ := upLink_parallelLinks he
    exact ⟨1, by decide, Walk.edge hlink⟩

end LsRouting

end NetworkSimulator
