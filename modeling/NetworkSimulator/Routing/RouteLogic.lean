import NetworkSimulator.Library.Loops
import NetworkSimulator.Library.Walks
import Mathlib.Algebra.Order.Ring.Rat
import Mathlib.Data.Finset.Card
import Mathlib.Order.Interval.Finset.Nat
import Mathlib.Tactic.Linarith

/-!
# Static routes

`RouteLogic` keeps the costs of the links in one array, indexed by source and destination, and
computes from it another one with the next hops. Node 0 is not used.
-/

namespace NetworkSimulator
open Library

/-- The cost of a link that is not there. -/
def INFINITY : ℚ := 0x3fff

def INDEX (i j N : ℕ) : ℕ := N * i + j

structure AdjEntry (ε : Type*) where
  cost : ℚ
  entry : Option ε

structure RouteEntry (ε : Type*) where
  nextHop : ℕ
  entry : Option ε

structure RouteLogic (ε : Type*) where
  size : ℕ
  adj : ℕ → AdjEntry ε

namespace RouteLogic
variable {ε : Type*} (r : RouteLogic ε)

def adjCost (i j : ℕ) : ℚ := (r.adj (INDEX i j r.size)).cost

def adjEntry (i j : ℕ) : Option ε := (r.adj (INDEX i j r.size)).entry

/-- The arrays of `compute_routes`. A node other than `k` is in the subtree that has been routed when
its parent is the source `k`. -/
structure Sweep (ε : Type*) where
  parent : ℕ → ℕ
  hopcnt : ℕ → ℚ
  route : ℕ → RouteEntry ε

/-- `ROUTE(k, v)` with its entry. -/
def Sweep.at (s : Sweep ε) (k v : ℕ) : RouteEntry ε := s.route (INDEX k v r.size)

def Sweep.setRoute (s : Sweep ε) (k v : ℕ) (e : RouteEntry ε) : Sweep ε :=
  { s with route := Function.update s.route (INDEX k v r.size) e }

/-- Set the route for all neighbours first. -/
def neighbours (k v : ℕ) (s : Sweep ε) : Sweep ε :=
  if s.parent v ≠ k then
    let s := { s with hopcnt := Function.update s.hopcnt v (r.adjCost k v) }
    if s.hopcnt v ≠ INFINITY then s.setRoute r k v ⟨v, r.adjEntry k v⟩ else s
  else s

/-- The node that is the nearest to the subtree that has been routed, or 0. -/
def nearest (k : ℕ) (s : Sweep ε) : ℕ :=
  forLoop 1 r.size (fun w o => if s.parent w ≠ k ∧ s.hopcnt w < s.hopcnt o then w else o) 0

/-- Update the distance counts for the nodes that are adjacent to `o`. -/
def relax (k o w : ℕ) (s : Sweep ε) : Sweep ε :=
  if s.parent w ≠ k ∧ s.hopcnt o + r.adjCost o w < s.hopcnt w then
    let s := s.setRoute r k w (s.at r k o)
    { s with hopcnt := Function.update s.hopcnt w (s.hopcnt o + r.adjCost o w) }
  else s

def settle (k : ℕ) (s : Sweep ε) : Sweep ε :=
  let s := { s with hopcnt := Function.update s.hopcnt 0 INFINITY }
  let o := r.nearest k s
  let s := { s with parent := Function.update s.parent o k }
  if o = 0 then s else forLoop 1 r.size (r.relax k o) s

def source (k : ℕ) (s : Sweep ε) : Sweep ε :=
  let s := { s with parent := fun v => if v < r.size then v else s.parent v }
  let s := forLoop 1 r.size (r.neighbours k) s
  forLoop 1 r.size (fun _ => r.settle k) s

/-- `compute_routes`, with the arrays `parent` and `hopcnt` as `new` leaves them. -/
def computeRoutes (parent : ℕ → ℕ) (hopcnt : ℕ → ℚ) : Sweep ε :=
  let s := forLoop 1 r.size r.source ⟨parent, hopcnt, fun _ => ⟨0, none⟩⟩
  forLoop 1 r.size (fun k s => s.setRoute r k k ⟨k, none⟩) s

end RouteLogic

end NetworkSimulator
