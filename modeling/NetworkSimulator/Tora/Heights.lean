import Mathlib.Algebra.Order.Ring.Rat
import Mathlib.Data.Prod.Lex

/-!
# The heights of a TORA destination

A node keeps, for a destination, a height of its own and the last height heard from each neighbour. A link is
directed from the greater height to the smaller one, and packets follow it downstream. The log and the times that
are only logged are left out.
-/

namespace NetworkSimulator

structure Height where
  /-- The time at which the reference level was created. -/
  tau : ℚ
  /-- The router that created the reference level. -/
  oid : ℤ
  /-- The flag of a reflected reference level. -/
  r : ℤ
  delta : ℤ
  /-- The router that has the height. -/
  id : ℤ
  deriving DecidableEq

namespace Height

/-- A new height. -/
def new (id : ℤ) : Height := ⟨-1, -1, -1, -1, id⟩

def isNull (h : Height) : Bool := h.tau = -1 ∧ h.oid = -1 ∧ h.r = -1 ∧ h.delta = -1

/-- `compare`: positive when the other height is the greater one. -/
def compare (h other : Height) : ℤ :=
  if other.tau > h.tau then 1 else if h.tau > other.tau then -1
  else if other.oid > h.oid then 1 else if h.oid > other.oid then -1
  else if other.r > h.r then 1 else if h.r > other.r then -1
  else if other.delta > h.delta then 1 else if h.delta > other.delta then -1
  else if other.id > h.id then 1 else if h.id > other.id then -1
  else 0

/-- `Zero` -/
def zero (h : Height) : Height := ⟨0, 0, 0, 0, h.id⟩

/-- `Null` -/
def null (h : Height) : Height := ⟨-1, -1, -1, -1, h.id⟩

/-- The heights in the order in which `compare` puts them. -/
def key (h : Height) : ℚ ×ₗ ℤ ×ₗ ℤ ×ₗ ℤ ×ₗ ℤ :=
  toLex (h.tau, toLex (h.oid, toLex (h.r, toLex (h.delta, h.id))))

section Order
variable {α β : Type*} [LinearOrder α] [LinearOrder β] {x y : α} {u v : β} {c : ℤ}

lemma step_pos (hc : c > 0 ↔ u < v) :
    (if y > x then 1 else if x > y then -1 else c) > 0 ↔ toLex (x, u) < toLex (y, v) := by
  rw [Prod.Lex.toLex_lt_toLex]
  rcases lt_trichotomy x y with h | rfl | h
  · rw [if_pos h]
    exact ⟨fun _ => Or.inl h, fun _ => Int.one_pos⟩
  · rw [if_neg (lt_irrefl x), if_neg (lt_irrefl x), hc]
    exact ⟨fun h => Or.inr ⟨rfl, h⟩, fun h => h.elim (fun h => absurd h (lt_irrefl x)) And.right⟩
  · rw [if_neg h.not_gt, if_pos h]
    exact ⟨nofun, fun h' => h'.elim (fun h' => absurd h h'.not_gt) fun h' => absurd h'.1 h.ne'⟩

lemma step_neg (hc : c < 0 ↔ v < u) :
    (if y > x then 1 else if x > y then -1 else c) < 0 ↔ toLex (y, v) < toLex (x, u) := by
  rw [Prod.Lex.toLex_lt_toLex]
  rcases lt_trichotomy x y with h | rfl | h
  · rw [if_pos h]
    exact ⟨nofun, fun h' => h'.elim (fun h' => absurd h h'.not_gt) fun h' => absurd h'.1 h.ne'⟩
  · rw [if_neg (lt_irrefl x), if_neg (lt_irrefl x), hc]
    exact ⟨fun h => Or.inr ⟨rfl, h⟩, fun h => h.elim (fun h => absurd h (lt_irrefl x)) And.right⟩
  · rw [if_neg h.not_gt, if_pos h]
    exact ⟨fun _ => Or.inl h, fun _ => by decide⟩

end Order

variable {a b : Height}

lemma compare_pos : a.compare b > 0 ↔ a.key < b.key := by
  refine step_pos (step_pos (step_pos (step_pos ?_)))
  split_ifs with h₁ h₂
  · exact ⟨fun _ => h₁, fun _ => Int.one_pos⟩
  · exact ⟨nofun, fun h => absurd h h₁⟩
  · exact ⟨nofun, fun h => absurd h h₁⟩

lemma compare_neg : a.compare b < 0 ↔ b.key < a.key := by
  refine step_neg (step_neg (step_neg (step_neg ?_)))
  split_ifs with h₁ h₂
  · exact ⟨nofun, fun h => absurd h h₁.not_gt⟩
  · exact ⟨fun _ => h₂, fun _ => by decide⟩
  · exact ⟨nofun, fun h => absurd h h₂⟩

end Height

inductive LinkStatus
  /-- The neighbour is upstream. -/
  | up
  /-- The neighbour is downstream. -/
  | dn
  | un
  deriving DecidableEq

structure ToraNeighbor where
  index : ℤ
  height : Height
  lnkStat : LinkStatus
  /-- The time at which the link became active. -/
  timeAct : ℚ
  deriving DecidableEq

def ToraNeighbor.updateLinkStatus (tn : ToraNeighbor) (h : Height) : ToraNeighbor :=
  { tn with
    lnkStat :=
      if tn.height.isNull then .un
      else if h.isNull then .dn
      else if tn.height.compare h > 0 then .dn
      else if tn.height.compare h < 0 then .up
      else tn.lnkStat }

structure ToraDest where
  index : ℤ
  height : Height
  /-- A route is required. -/
  rtReq : Bool
  /-- The time at which the last UPD was sent. -/
  timeUpd : ℚ
  nblist : List ToraNeighbor
  numActive : ℤ
  numDown : ℤ
  numUp : ℤ
  deriving DecidableEq

/-- The first member with `p` becomes its image under `f`. -/
def updateFirst {α : Type*} (p : α → Bool) (f : α → α) : List α → List α
  | [] => []
  | a :: l => if p a then f a :: l else a :: updateFirst p f l

namespace ToraDest
variable (td : ToraDest)

def new (id : ℤ) : ToraDest := ⟨id, .new id, false, 0, [], 0, 0, 0⟩

def nbAdd (now : ℚ) (id : ℤ) : ToraDest :=
  let tn : ToraNeighbor := ⟨id, .new id, .un, now⟩
  if id = td.index then
    { td with
      nblist := { tn with height := tn.height.zero, lnkStat := .dn } :: td.nblist
      numActive := td.numActive + 1
      numDown := td.numDown + 1 }
  else { td with nblist := tn :: td.nblist, numActive := td.numActive + 1 }

def nbFind (id : ℤ) : Option ToraNeighbor := td.nblist.find? (·.index = id)

def pick (p : ToraNeighbor → Bool) (beats : ToraNeighbor → ToraNeighbor → Bool) (best : Option ToraNeighbor)
    (tn : ToraNeighbor) : Option ToraNeighbor :=
  if p tn ∧ best.all (beats tn) then some tn else best

/-- The first neighbour with `p` that no other one with `p` beats. -/
def nbBest (p : ToraNeighbor → Bool) (beats : ToraNeighbor → ToraNeighbor → Bool) : Option ToraNeighbor :=
  td.nblist.foldl (pick p beats) none

def lower (tn best : ToraNeighbor) : Bool := best.height.compare tn.height < 0

def nbFindNextHop : Option ToraNeighbor :=
  td.nbBest (fun tn => ¬tn.height.isNull ∧ tn.lnkStat = .dn) lower

def nbFindMinHeight (r : ℤ) : Option ToraNeighbor := td.nbBest (·.height.r = r) lower

def nbFindMinNonnullHeight (h : Height) : Option ToraNeighbor :=
  td.nbBest (fun tn => ¬tn.height.isNull ∧ tn.height.tau = h.tau ∧ tn.height.oid = h.oid ∧ tn.height.r = h.r)
    lower

def nbFindMaxHeight : Option ToraNeighbor :=
  td.nbBest (fun tn => ¬tn.height.isNull) fun tn best => best.height.compare tn.height > 0

/-- All neighbours whose height is not null have the reference level of the first such one. -/
def nbCheckSameRef : Bool :=
  match td.nblist.find? (¬·.height.isNull) with
  | none => true
  | some tref => td.nblist.all fun tn => tn.height.isNull ∨
      tn.height.tau = tref.height.tau ∧ tn.height.oid = tref.height.oid ∧ tn.height.r = tref.height.r

/-- 1 for a link with the status `st`. -/
def counts (st : LinkStatus) (tn : ToraNeighbor) : ℤ := if tn.lnkStat = st then 1 else 0

/-- `update_height`: the status of every link is determined anew, and the links are counted. -/
def updateHeight (h : Height) : ToraDest :=
  let nblist := td.nblist.map (·.updateLinkStatus h)
  { td with
    height := h
    nblist := nblist
    numActive := nblist.length
    numDown := (nblist.map (counts .dn)).sum
    numUp := (nblist.map (counts .up)).sum }

/-- `update_height_nb` for the neighbour `tn` that `nb_find` has found. -/
def updateHeightNb (tn : ToraNeighbor) (h : Height) : ToraDest :=
  let tn' := { tn with height := h }.updateLinkStatus td.height
  { td with
    nblist := updateFirst (·.index = tn.index) (fun _ => tn') td.nblist
    numDown := td.numDown - counts .dn tn + counts .dn tn'
    numUp := td.numUp - counts .up tn + counts .up tn' }

/-- The entry of a neighbour is removed and no longer counted. -/
def removeNb (tn : ToraNeighbor) : ToraDest :=
  { td with
    nblist := td.nblist.eraseP (·.index = tn.index)
    numActive := td.numActive - 1
    numDown := td.numDown - counts .dn tn
    numUp := td.numUp - counts .up tn }

/-- `nb_del`, with whether an UPD is to be sent. -/
def nbDel (now : ℚ) (id : ℤ) : ToraDest × Bool :=
  match td.nbFind id with
  | none => (td, false)
  | some tn =>
    let td := td.removeNb tn
    if td.numDown = 0 then
      if td.numUp > 0 then (td.updateHeight ⟨now, td.index, 0, 0, td.index⟩, true)
      else (td.updateHeight ⟨-1, -1, -1, -1, td.index⟩, true)
    else (td, false)

/-- The loop over the neighbours when all heights are erased. -/
def clearNbs : List ToraNeighbor :=
  td.nblist.map fun tn =>
    if tn.index = td.index then { tn with height := tn.height.zero, lnkStat := .dn }
    else { tn with height := tn.height.null, lnkStat := .un }

variable {td} {p : ToraNeighbor → Bool} {beats : ToraNeighbor → ToraNeighbor → Bool} {tn : ToraNeighbor}

lemma pick_none {best : Option ToraNeighbor} (h : pick p beats best tn = none) : ¬p tn := by
  intro hp
  unfold pick at h
  cases best with
  | none => simp [hp] at h
  | some b => split_ifs at h

lemma foldl_pick (p : ToraNeighbor → Bool) (beats : ToraNeighbor → ToraNeighbor → Bool) (l : List ToraNeighbor) (best : Option ToraNeighbor) :
    (l.foldl (pick p beats) best = best ∨ ∃ tn ∈ l, p tn ∧ l.foldl (pick p beats) best = some tn) ∧
      (l.foldl (pick p beats) best = none → ∀ tn ∈ l, ¬p tn) := by
  induction l generalizing best with
  | nil => exact ⟨Or.inl rfl, fun _ _ htn => absurd htn List.not_mem_nil⟩
  | cons a l ih =>
    rw [List.foldl_cons]
    obtain ⟨hsome, hnone⟩ := ih (pick p beats best a)
    have hpick : pick p beats best a = best ∨ p a ∧ pick p beats best a = some a := by
      unfold pick
      split_ifs with h
      · exact Or.inr ⟨h.1, rfl⟩
      · exact Or.inl rfl
    refine ⟨?_, fun hend tn htn => ?_⟩
    · rcases hsome with heq | ⟨tn, htn, hp, heq⟩
      · rw [heq]
        exact hpick.imp_right fun ⟨hp, h⟩ => ⟨a, List.mem_cons_self, hp, h⟩
      · exact Or.inr ⟨tn, List.mem_cons_of_mem a htn, hp, heq⟩
    · rcases List.mem_cons.mp htn with rfl | htn
      · rcases hsome with heq | ⟨b, -, -, heq⟩
        · exact pick_none (heq.symm.trans hend)
        · rw [hend] at heq
          cases heq
      · exact hnone hend tn htn

lemma of_nbBest (h : td.nbBest p beats = some tn) : tn ∈ td.nblist ∧ p tn := by
  obtain ⟨hnone | ⟨tn', hmem, hp, hsome⟩, -⟩ := foldl_pick p beats td.nblist none
  · rw [nbBest, hnone] at h
    cases h
  · rw [nbBest, hsome] at h
    obtain rfl := Option.some.inj h
    exact ⟨hmem, hp⟩

lemma exists_nbBest (p : ToraNeighbor → Bool) (beats : ToraNeighbor → ToraNeighbor → Bool) (hmem : tn ∈ td.nblist) (hp : p tn) : ∃ best, td.nbBest p beats = some best := by
  by_contra hnone
  push Not at hnone
  exact (foldl_pick p beats td.nblist none).2 (Option.eq_none_iff_forall_ne_some.mpr hnone) tn hmem hp

end ToraDest

end NetworkSimulator
