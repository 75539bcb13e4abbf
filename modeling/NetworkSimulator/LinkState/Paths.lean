import NetworkSimulator.Library.SortedMap
import Mathlib.Algebra.Order.Ring.Int
import Mathlib.Tactic.Common

/-!
# The link states and the paths of a node

The link-state database maps a node to its links, and `LsPaths` maps a destination to the cost of the
paths to it and the list of their next hops.
-/

namespace NetworkSimulator
open Library

def LS_INVALID_NODE_ID : ℤ := 65535
def LS_INVALID_COST : ℤ := 65535
def LS_MAX_COST : ℤ := 65534

inductive LsStatus
  | down
  | up
  deriving DecidableEq

structure LsLinkState where
  neighborId : ℤ
  status : LsStatus
  cost : ℤ
  sequenceNumber : ℕ
  deriving DecidableEq

/-- The link-state database. -/
abbrev LsTopoMap := SortedMap ℤ (List LsLinkState)

/-- `appendUnique`, without the count that it returns. -/
def appendUnique (l x : List ℤ) : List ℤ :=
  x.foldl (fun l i => if i ∈ l then l else l ++ [i]) l

lemma mem_appendUnique {l x : List ℤ} {a : ℤ} : a ∈ appendUnique l x ↔ a ∈ l ∨ a ∈ x := by
  unfold appendUnique
  induction x generalizing l with
  | nil => simp
  | cons b x ih =>
    rw [List.foldl_cons, ih]
    split
    · rename_i hb
      rw [List.mem_cons]
      refine ⟨Or.imp_right Or.inr, ?_⟩
      rintro (ha | rfl | ha)
      · exact Or.inl ha
      · exact Or.inl hb
      · exact Or.inr ha
    · rw [List.mem_append, List.mem_singleton, List.mem_cons, or_assoc]

lemma nodup_appendUnique {l x : List ℤ} (hl : l.Nodup) : (appendUnique l x).Nodup := by
  unfold appendUnique
  induction x generalizing l with
  | nil => exact hl
  | cons b x ih =>
    rw [List.foldl_cons]
    apply ih
    split
    · exact hl
    · rename_i hb
      exact hl.append (List.nodup_singleton b) (by simpa using hb)

structure LsPath where
  destination : ℤ
  cost : ℤ
  nextHop : ℤ

def LsPath.isValid (p : LsPath) : Bool :=
  p.destination ≠ LS_INVALID_NODE_ID ∧ p.cost ≠ LS_INVALID_COST ∧ p.nextHop ≠ LS_INVALID_COST

structure LsEqualPaths where
  cost : ℤ
  nextHopList : List ℤ
  deriving DecidableEq

abbrev LsPaths := SortedMap ℤ LsEqualPaths

namespace LsPaths
variable (paths : LsPaths)

def lookupCost (destId : ℤ) : ℤ :=
  match paths.find destId with
  | none => LS_MAX_COST + 1
  | some ep => ep.cost

def lookupNextHopList (destId : ℤ) : Option (List ℤ) :=
  (paths.find destId).map (·.nextHopList)

def insertPathNoChecking (path : LsPath) : LsPaths :=
  paths.insert path.destination ⟨path.cost, [path.nextHop]⟩

def insertPath (path : LsPath) : LsPaths :=
  match paths.find path.destination with
  | none => paths.insertPathNoChecking path
  | some ep =>
    if ep.cost < path.cost then paths
    else if ep.cost > path.cost then paths.set path.destination ⟨path.cost, [path.nextHop]⟩
    else if path.nextHop ∈ ep.nextHopList then paths
    else paths.set path.destination { ep with nextHopList := ep.nextHopList ++ [path.nextHop] }

def insertNextHopList (destId cost : ℤ) (nextHopList : List ℤ) : LsPaths :=
  match paths.find destId with
  | none => paths.insert destId ⟨cost, nextHopList⟩
  | some ep =>
    if ep.cost < cost then paths
    else if ep.cost > cost then paths.set destId ⟨cost, nextHopList⟩
    else paths.set destId { ep with nextHopList := appendUnique ep.nextHopList nextHopList }

/-- `minCost`, where the iterator is at `min`. -/
def minCost (min : Option ((_ : ℤ) × LsEqualPaths)) : ℤ :=
  min.elim (LS_MAX_COST + 1) (·.2.cost)

def cheaper (min : Option ((_ : ℤ) × LsEqualPaths)) (e : (_ : ℤ) × LsEqualPaths) :
    Option ((_ : ℤ) × LsEqualPaths) :=
  if minCost min > e.2.cost ∧ !e.2.nextHopList.isEmpty then some e else min

/-- `findMinEqualPaths`: the first destination of the least cost, when that is below
`LS_MAX_COST + 1`. -/
def findMinEqualPaths : Option ((_ : ℤ) × LsEqualPaths) :=
  paths.entries.foldl cheaper none

/-- `popShortestPath`: a path with the first next hop of the destination of least cost, `none` for an
invalid path. -/
def popShortestPath : Option (LsPath × LsPaths) :=
  match paths.findMinEqualPaths with
  | none => none
  | some ⟨destination, ep⟩ =>
    match ep.nextHopList with
    | [] => none
    | nextHop :: rest =>
      some (⟨destination, ep.cost, nextHop⟩,
        if rest.isEmpty then paths.erase destination
        else paths.set destination { ep with nextHopList := rest })

variable {paths} {d v : ℤ} {c : ℤ} {l : List ℤ} {ep : LsEqualPaths}

lemma lookupCost_eq (h : paths.find d = some ep) : paths.lookupCost d = ep.cost := by
  unfold lookupCost
  rw [h]

lemma lookupCost_of_none (h : paths.find d = none) : paths.lookupCost d = LS_MAX_COST + 1 := by
  unfold lookupCost
  rw [h]

lemma insertNextHopList_of_ne (h : v ≠ d) : (paths.insertNextHopList d c l).find v = paths.find v := by
  unfold insertNextHopList
  split
  · rename_i hd
    rw [SortedMap.insert_of_none hd, SortedMap.find_set_of_ne h]
  · split_ifs
    · rfl
    · exact SortedMap.find_set_of_ne h
    · exact SortedMap.find_set_of_ne h

/-- The entry of the destination: the better one of the two, or both of them. -/
lemma insertNextHopList_self (paths : LsPaths) (d c : ℤ) (l : List ℤ) :
    (∃ old, paths.find d = some old ∧ old.cost < c ∧
      (paths.insertNextHopList d c l).find d = some old) ∨
    ((paths.insertNextHopList d c l).find d = some ⟨c, l⟩ ∧
      ∀ old, paths.find d = some old → c < old.cost) ∨
    (∃ old, paths.find d = some old ∧ old.cost = c ∧
      (paths.insertNextHopList d c l).find d = some ⟨c, appendUnique old.nextHopList l⟩) := by
  unfold insertNextHopList
  cases h : paths.find d with
  | none =>
    refine Or.inr (Or.inl ⟨?_, fun old hold => by simp at hold⟩)
    rw [SortedMap.insert_of_none h, SortedMap.find_set_self]
  | some old =>
    dsimp only
    split_ifs with hlt hgt
    · exact Or.inl ⟨old, rfl, hlt, h⟩
    · refine Or.inr (Or.inl ⟨SortedMap.find_set_self, fun old' hold => ?_⟩)
      obtain rfl := Option.some.inj hold
      exact hgt
    · have heq : old.cost = c := le_antisymm (not_lt.mp hgt) (not_lt.mp hlt)
      refine Or.inr (Or.inr ⟨old, rfl, heq, ?_⟩)
      rw [SortedMap.find_set_self, heq]

lemma insertPath_of_ne {p : LsPath} (h : v ≠ p.destination) :
    (paths.insertPath p).find v = paths.find v := by
  unfold insertPath
  split
  · rename_i hd
    rw [insertPathNoChecking, SortedMap.insert_of_none hd, SortedMap.find_set_of_ne h]
  · split_ifs
    · rfl
    · exact SortedMap.find_set_of_ne h
    · rfl
    · exact SortedMap.find_set_of_ne h

lemma insertPath_of_none {p : LsPath} (h : paths.find p.destination = none) :
    (paths.insertPath p).find p.destination = some ⟨p.cost, [p.nextHop]⟩ := by
  unfold insertPath
  rw [h]
  exact (congrArg (·.find p.destination) (SortedMap.insert_of_none h)).trans SortedMap.find_set_self

lemma insertPath_of_equal {p : LsPath} (h : paths.find p.destination = some ep)
    (hcost : ep.cost = p.cost) (hnew : p.nextHop ∉ ep.nextHopList) :
    (paths.insertPath p).find p.destination =
      some ⟨p.cost, ep.nextHopList ++ [p.nextHop]⟩ := by
  unfold insertPath
  rw [h]
  dsimp only
  rw [if_neg hcost.not_lt, if_neg hcost.symm.not_lt, if_neg hnew, SortedMap.find_set_self, hcost]

/-- A path that is not worse than the entry of its destination gives it its cost. -/
lemma insertPath_self {p : LsPath}
    (hle : ∀ old, paths.find p.destination = some old → p.cost ≤ old.cost ∧ old.nextHopList ≠ []) :
    ∃ hops, (paths.insertPath p).find p.destination = some ⟨p.cost, hops⟩ ∧ hops ≠ [] ∧
      ∀ h ∈ hops, h = p.nextHop ∨ ∃ old, paths.find p.destination = some old ∧ h ∈ old.nextHopList := by
  cases hfind : paths.find p.destination with
  | none =>
    exact ⟨_, insertPath_of_none hfind, List.cons_ne_nil _ _, fun h hh => Or.inl (List.mem_singleton.mp hh)⟩
  | some old =>
    obtain ⟨hcost, hne⟩ := hle old hfind
    unfold insertPath
    rw [hfind]
    dsimp only
    rw [if_neg hcost.not_gt]
    rcases hcost.lt_or_eq with hlt | heq
    · rw [if_pos hlt]
      exact ⟨_, SortedMap.find_set_self, List.cons_ne_nil _ _, fun h hh => Or.inl (List.mem_singleton.mp hh)⟩
    · rw [if_neg heq.symm.not_gt]
      split
      · exact ⟨old.nextHopList, by rw [hfind, heq], hne, fun h hh => Or.inr ⟨old, rfl, hh⟩⟩
      · refine ⟨old.nextHopList ++ [p.nextHop], by rw [SortedMap.find_set_self, heq], by simp, fun h hh => ?_⟩
        rcases List.mem_append.mp hh with hh | hh
        · exact Or.inr ⟨old, rfl, hh⟩
        · exact Or.inl (List.mem_singleton.mp hh)

/-- What the search for the least entry comes to. -/
lemma foldl_cheaper (es : List ((_ : ℤ) × LsEqualPaths)) (min : Option ((_ : ℤ) × LsEqualPaths)) :
    (es.foldl cheaper min = min ∨ ∃ e ∈ es, es.foldl cheaper min = some e ∧
      e.2.nextHopList ≠ [] ∧ e.2.cost < minCost min) ∧
      minCost (es.foldl cheaper min) ≤ minCost min ∧
      ∀ e ∈ es, e.2.nextHopList ≠ [] → minCost (es.foldl cheaper min) ≤ e.2.cost := by
  induction es generalizing min with
  | nil => exact ⟨Or.inl rfl, le_rfl, fun e he => absurd he List.not_mem_nil⟩
  | cons a es ih =>
    rw [List.foldl_cons]
    obtain ⟨hbest, hle, hmin⟩ := ih (cheaper min a)
    by_cases ha : minCost min > a.2.cost ∧ !a.2.nextHopList.isEmpty
    · have hstep : cheaper min a = some a := if_pos ha
      have hcost : minCost (cheaper min a) = a.2.cost := congrArg minCost hstep
      rw [hcost] at hle hbest
      refine ⟨Or.inr ?_, hle.trans ha.1.le, fun e he hne => ?_⟩
      · rcases hbest with h | ⟨e, he, h, hne, hlt⟩
        · exact ⟨a, List.mem_cons_self, h.trans hstep, by simpa using ha.2, ha.1⟩
        · exact ⟨e, List.mem_cons_of_mem a he, h, hne, hlt.trans ha.1⟩
      · rcases List.mem_cons.mp he with rfl | he
        · exact hle
        · exact hmin e he hne
    · have hstep : cheaper min a = min := if_neg ha
      rw [hstep] at hbest hle hmin ⊢
      refine ⟨hbest.imp_right fun ⟨e, he, h⟩ => ⟨e, List.mem_cons_of_mem a he, h⟩, hle,
        fun e he hne => ?_⟩
      rcases List.mem_cons.mp he with rfl | he
      · exact hle.trans (not_lt.mp fun hlt => ha ⟨hlt, by simpa using hne⟩)
      · exact hmin e he hne

/-- Where all entries have next hops, the least one is found, unless none is at most `LS_MAX_COST`. -/
lemma findMinEqualPaths_spec (hne : ∀ v ep, paths.find v = some ep → ep.nextHopList ≠ []) :
    (paths.findMinEqualPaths = none ∧ ∀ v ep, paths.find v = some ep → LS_MAX_COST < ep.cost) ∨
      ∃ v ep, paths.findMinEqualPaths = some ⟨v, ep⟩ ∧ paths.find v = some ep ∧
        ep.cost ≤ LS_MAX_COST ∧ ∀ w ep', paths.find w = some ep' → ep.cost ≤ ep'.cost := by
  obtain ⟨hbest, -, hmin⟩ := foldl_cheaper paths.entries none
  have hle : ∀ w ep', paths.find w = some ep' → minCost paths.findMinEqualPaths ≤ ep'.cost :=
    fun w ep' h => hmin ⟨w, ep'⟩ (SortedMap.mem_entries_iff.mpr h) (hne w ep' h)
  rcases hbest with h | ⟨⟨v, ep⟩, he, h, -, hlt⟩
  · have hnone : paths.findMinEqualPaths = none := h
    rw [hnone] at hle
    exact Or.inl ⟨hnone, fun v ep hv => Int.add_one_le_iff.mp (hle v ep hv)⟩
  · have hsome : paths.findMinEqualPaths = some ⟨v, ep⟩ := h
    rw [hsome] at hle
    exact Or.inr ⟨v, ep, hsome, SortedMap.mem_entries_iff.mp he, Int.lt_add_one_iff.mp hlt, hle⟩

/-- The next hop at the front leaves the list of its destination, and the last one takes the entry
with it. -/
lemma popShortestPath_eq {h : ℤ} {rest : List ℤ} (hmin : paths.findMinEqualPaths = some ⟨v, ep⟩)
    (hhops : ep.nextHopList = h :: rest) :
    ∃ t, paths.popShortestPath = some (⟨v, ep.cost, h⟩, t) ∧
      (∀ w, w ≠ v → t.find w = paths.find w) ∧
      t.find v = if rest = [] then none else some ⟨ep.cost, rest⟩ := by
  refine ⟨if rest.isEmpty then paths.erase v else paths.set v { ep with nextHopList := rest }, ?_, ?_, ?_⟩
  · unfold popShortestPath
    rw [hmin]
    dsimp only
    rw [hhops]
  · intro w hw
    split
    · exact SortedMap.find_erase_of_ne hw
    · exact SortedMap.find_set_of_ne hw
  · by_cases hrest : rest = []
    · rw [if_pos (by simpa using hrest), if_pos hrest, SortedMap.find_erase_self]
    · rw [if_neg (by simpa using hrest), if_neg hrest, SortedMap.find_set_self]

end LsPaths

end NetworkSimulator
