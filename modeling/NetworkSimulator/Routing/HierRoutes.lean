import NetworkSimulator.Routing.RouteLogic

/-!
# Hierarchical routes

`RouteLogic` keeps for each cluster a matrix whose rows and columns are the nodes of the cluster, the
clusters of its domain and the domains. A link between two clusters or two domains is entered into the
matrices of all clusters that see them. Nodes, clusters and domains are counted from 1.
-/

namespace NetworkSimulator
open Library

structure HierAddr where
  domain : ℕ
  cluster : ℕ
  node : ℕ
  deriving DecidableEq

/-- What is sent before the links: `D` and `C d` are one more than the number of domains, and of clusters in
the domain `d`. -/
structure Hierarchy where
  D : ℕ
  C : ℕ → ℕ
  clusterSize : ℕ → ℕ

/-- The largest `C d`, as `hier_init` finds it. -/
def Hierarchy.Cmax (h : Hierarchy) : ℕ :=
  forLoop 1 h.D (fun i m => if h.C i > m then h.C i else m) 0

def N_N_INDEX (i j a b c : ℕ) : ℕ := i * (a + b + c) + j

def N_C_INDEX (i j a b c : ℕ) : ℕ := i * (a + b + c) + (a + j)

def N_D_INDEX (i j a b c : ℕ) : ℕ := i * (a + b + c) + (a + (b - 1) + j)

def C_C_INDEX (i j a b c : ℕ) : ℕ := (a + i) * (a + b + c) + (a + j)

def C_D_INDEX (i j a b c : ℕ) : ℕ := (a + i) * (a + b + c) + (a + (b - 1) + j)

def D_D_INDEX (i j a b c : ℕ) : ℕ := (a + (b - 1) + i) * (a + b + c) + (a + (b - 1) + j)

/-- `INFINITY` in a matrix of integers. -/
def HIER_INFINITY : ℤ := 0x3fff

/-- The matrices, by the index of the cluster; one whose `hsize` is 0 has not been allocated. -/
structure HierRoutes where
  hsize : ℕ → ℕ
  hadj : ℕ → ℕ → ℤ
  hroute : ℕ → ℕ → ℕ

namespace HierRoutes
variable (h : Hierarchy) (t : HierRoutes)

def hierAlloc (i : ℕ) : HierRoutes where
  hsize := Function.update t.hsize i ((h.clusterSize i + h.Cmax + h.D) * (h.clusterSize i + h.Cmax + h.D))
  hadj := Function.update t.hadj i fun _ => HIER_INFINITY
  hroute := Function.update t.hroute i fun _ => 0x3fff

def hierCheck (i : ℕ) : HierRoutes :=
  if t.hsize i > 0 then t else t.hierAlloc h i

/-- `hadj_[i][k] = cost` -/
def setHadj (i k : ℕ) (cost : ℤ) : HierRoutes :=
  { t with hadj := Function.update t.hadj i (Function.update (t.hadj i) k cost) }

/-- `hier_insert`, without the addresses in `hconnect_`. -/
def hierInsert (src dst : HierAddr) (cost : ℤ) : HierRoutes :=
  let d := src.domain
  if src.domain = dst.domain then
    if src.cluster = dst.cluster then
      let i := INDEX d src.cluster h.Cmax
      let n := h.clusterSize i
      (t.hierCheck h i).setHadj i (N_N_INDEX src.node dst.node n (h.C d) h.D) cost
    else
      forLoop 1 (h.C d) (fun y t =>
        let i := INDEX d y h.Cmax
        let n := h.clusterSize i
        let t := (t.hierCheck h i).setHadj i (C_C_INDEX src.cluster dst.cluster n (h.C d) h.D) cost
        if y = src.cluster then t.setHadj i (N_C_INDEX src.node dst.cluster n (h.C d) h.D) cost else t) t
  else
    let t := forLoop 1 h.D (fun x => forLoop 1 (h.C x) fun y t =>
      let i := INDEX x y h.Cmax
      let n := h.clusterSize i
      (t.hierCheck h i).setHadj i (D_D_INDEX src.domain dst.domain n (h.C x) h.D) cost) t
    let t := forLoop 1 (h.C d) (fun y t =>
      let i := INDEX d y h.Cmax
      let n := h.clusterSize i
      (t.hierCheck h i).setHadj i (C_D_INDEX src.cluster dst.domain n (h.C d) h.D) cost) t
    let i := INDEX d src.cluster h.Cmax
    let n := h.clusterSize i
    t.setHadj i (N_D_INDEX src.node dst.domain n (h.C d) h.D) cost

def hierReset (src dst : HierAddr) : HierRoutes :=
  let d := src.domain
  if src.domain = dst.domain then
    if src.cluster = dst.cluster then
      let i := INDEX d src.cluster h.Cmax
      let n := h.clusterSize i
      t.setHadj i (N_N_INDEX src.node dst.node n (h.C d) h.D) HIER_INFINITY
    else
      forLoop 1 (h.C d) (fun y t =>
        let i := INDEX d y h.Cmax
        let n := h.clusterSize i
        let t := t.setHadj i (C_C_INDEX src.cluster dst.cluster n (h.C d) h.D) HIER_INFINITY
        if y = src.cluster then t.setHadj i (N_C_INDEX src.node dst.cluster n (h.C d) h.D) HIER_INFINITY else t) t
  else
    forLoop 1 h.D (fun x => forLoop 1 (h.C x) fun y t =>
      let i := INDEX x y h.Cmax
      let n := h.clusterSize i
      let t := t.setHadj i (D_D_INDEX src.domain dst.domain n (h.C x) h.D) HIER_INFINITY
      if x = src.domain then
        let t := t.setHadj i (C_D_INDEX src.cluster dst.domain n (h.C x) h.D) HIER_INFINITY
        if y = src.cluster then t.setHadj i (N_D_INDEX src.node dst.domain n (h.C x) h.D) HIER_INFINITY else t
      else t) t

/-- The matrix of the cluster `i` of domain `j`, as `hier_compute` copies it for `hier_compute_routes`, which
has the loops of `compute_routes` without the entries. -/
def clusterLogic (i j : ℕ) : RouteLogic Empty where
  size := h.clusterSize i + h.C j + h.D
  adj m := ⟨t.hadj i m, none⟩

/-- The pass of `hier_compute` for the cluster `k` of domain `j`, with the arrays `parent` and `hopcnt` as `new`
leaves them. -/
def computeCluster (parent : ℕ → ℕ → ℕ) (hopcnt : ℕ → ℕ → ℚ) (j k : ℕ) : HierRoutes :=
  let i := INDEX j k h.Cmax
  let r := t.clusterLogic h i j
  let route := (r.computeRoutes (parent i) (hopcnt i)).route
  { t with hroute := Function.update t.hroute i fun m =>
      if m < r.size * r.size then (route m).nextHop else t.hroute i m }

def hierCompute (parent : ℕ → ℕ → ℕ) (hopcnt : ℕ → ℕ → ℚ) : HierRoutes :=
  forLoop 1 h.D (fun j => forLoop 1 (h.C j) fun k t => t.computeCluster h parent hopcnt j k) t

/-- The arrays that `hier_reset` writes have been allocated. -/
def Allocated (src dst : HierAddr) : Prop :=
  if src.domain = dst.domain then
    if src.cluster = dst.cluster then t.hsize (INDEX src.domain src.cluster h.Cmax) ≠ 0
    else ∀ y < h.C src.domain, 1 ≤ y → t.hsize (INDEX src.domain y h.Cmax) ≠ 0
  else ∀ x < h.D, ∀ y < h.C x, 1 ≤ x → 1 ≤ y → t.hsize (INDEX x y h.Cmax) ≠ 0

instance (src dst : HierAddr) : Decidable (t.Allocated h src dst) :=
  by dsimp only [Allocated]; infer_instance

/-- Before the first link. -/
def empty : HierRoutes := ⟨fun _ => 0, fun _ _ => 0, fun _ _ => 0⟩

end HierRoutes

inductive HierOp
  | insert (src dst : HierAddr) (cost : ℤ)
  | reset (src dst : HierAddr)

/-- The routes with the links that have been inserted and not yet reset. -/
structure HierState where
  routes : HierRoutes
  up : List (HierAddr × HierAddr)

/-- One operation; `none` is a write to an array that has not been allocated. -/
def HierState.step (h : Hierarchy) (s : HierState) : HierOp → Option (HierState × Unit)
  | .insert src dst cost => some (⟨s.routes.hierInsert h src dst cost, (src, dst) :: s.up⟩, ())
  | .reset src dst =>
    if s.routes.Allocated h src dst then
      some (⟨s.routes.hierReset h src dst, s.up.filter (· ≠ (src, dst))⟩, ())
    else none

end NetworkSimulator
