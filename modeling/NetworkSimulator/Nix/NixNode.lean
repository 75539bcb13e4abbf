import Mathlib.Data.Nat.Bitwise
import Mathlib.Logic.Function.Basic
import NetworkSimulator.Library.Walks

/-!
# Routing with neighbour-index vectors

A node computes the route to a target by a breadth-first search over all the nodes and writes, for
every hop, the index of the neighbour that the route takes. A packet carries the vector of these
indices, and each node on the way extracts its own. The code takes an `unsigned long` to have
`NIX_BPW` bits.
-/

namespace NetworkSimulator
open Library

def NIX_BPW : ℕ := 32

/-- No node. -/
def NODE_NONE : ℕ := 0xffffffff

/-- No neighbour index. -/
def NIX_NONE : ℕ := 0xffffffff

/-- The entry of a distance vector for a node that has not been reached. -/
def INF : ℕ := 0xffffffff

/-- `NixVec`, as the bits that have been written. -/
structure NixVec where
  bits : List Bool := []
  deriving Repr, DecidableEq

namespace NixVec

/-- The lowest `l` bits of `n`, the highest of them first. -/
def bitsOf : ℕ → ℕ → List Bool
  | 0, _ => []
  | l + 1, n => n.testBit l :: bitsOf l n

def ofBits (bits : List Bool) : ℕ :=
  bits.foldl (fun n bit => 2 * n + bit.toNat) 0

def alth (nv : NixVec) : ℕ :=
  nv.bits.length

def add (nv : NixVec) (p : ℕ × ℕ) : NixVec :=
  if p.2 = 0 then nv else ⟨nv.bits ++ bitsOf p.2 p.1⟩

/-- The next `n` bits after the first `used`, and how many are used then. -/
def extract (nv : NixVec) (n used : ℕ) : ℕ × ℕ :=
  if used + n > nv.alth then (NIX_NONE, used)
  else (ofBits ((nv.bits.drop used).take n), used + n)

/-- The loop of `GetBitl` from bit `h` downward. -/
def highestBit (l : ℕ) : ℕ → ℕ
  | 0 => 1
  | h + 1 => if l.testBit (h + 1) then h + 2 else highestBit l h

/-- The number of bits for the values up to `l`. -/
def getBitl (l : ℕ) : ℕ :=
  -- the test for eight bits is `l & (0xFFFFFF00 == 0)`, which never succeeds
  highestBit l (if l &&& 0xFFFF0000 = 0 then 15 else 31)

end NixVec

/-- A node with the other ends of its edges in the order in which they were added. -/
structure NixNode where
  id : ℕ
  adj : List ℕ
  deriving Repr, DecidableEq

/-- An iterator into the adjacencies of `owner`. -/
structure EdgeIt where
  owner : NixNode
  pos : ℕ
  deriving Repr, DecidableEq

namespace NixNode

/-- `NextAdj`: the neighbour after `last`, and the iterator `prev` that all the nodes share. The call
fails where the code exits or there is no edge under the iterator. -/
def nextAdj (u : NixNode) (last : ℕ) (prev : Option EdgeIt) : Option (ℕ × Option EdgeIt) :=
  if last = NODE_NONE then
    -- the first element of an empty vector is at a null pointer
    some (u.adj.head?.getD NODE_NONE, some ⟨u, 0⟩)
  else do
    let it ← prev
    let edge ← it.owner.adj[it.pos]?
    if last = edge then
      if it.owner = u ∧ it.pos + 1 = u.adj.length then
        some (NODE_NONE, some ⟨it.owner, it.pos + 1⟩)
      else do
        let next ← it.owner.adj[it.pos + 1]?
        some (next, some ⟨it.owner, it.pos + 1⟩)
    else none

/-- The width of an index at this node. The difference is that of unsigned numbers. -/
def getNixl (u : NixNode) : ℕ :=
  NixVec.getBitl ((u.adj.length + (2 ^ NIX_BPW - 1)) % 2 ^ NIX_BPW)

/-- The first index of the neighbour `t`, with its width. -/
def getNix (u : NixNode) (t : ℕ) : ℕ × ℕ :=
  if t ∈ u.adj then (u.adj.idxOf t, u.getNixl) else (NIX_NONE, 0)

/-- The code exits on an index that is out of range. -/
def getNeighbor (u : NixNode) (n : ℕ) : Option ℕ :=
  u.adj[n]?

end NixNode

/-- `Nodes`: the nodes in the order of their creation, which is that of their ids. An id or an index
is never the value that stands for none. -/
structure NixNodes where
  nodes : List NixNode
  ids : ∀ (i : ℕ) (u : NixNode), nodes[i]? = some u → u.id = i
  closed : ∀ u ∈ nodes, ∀ v ∈ u.adj, v < nodes.length
  size_le : nodes.length ≤ NODE_NONE
  degree_le : ∀ u ∈ nodes, u.adj.length ≤ NIX_NONE

/-- The local variables of `BFS` and the iterator of `NextAdj`. -/
structure Search where
  B : ℕ → Bool := fun _ => false
  Q : List NixNode := []
  D : ℕ → ℕ := fun _ => INF
  nextHop : ℕ → ℕ := fun _ => NODE_NONE
  parent : ℕ → ℕ := fun _ => NODE_NONE
  prev : Option EdgeIt

namespace NixNodes

/-- The body of the inner loop of `BFS` for the neighbour `v` of `u`. -/
def enqueue (N : NixNodes) (root : ℕ) (u : NixNode) (v : ℕ) (s : Search) : Option Search :=
  if s.B v = false then do
    let w ← N.nodes[v]?
    some { s with
      Q := s.Q ++ [w]
      B := Function.update s.B v true
      D := Function.update s.D v (s.D u.id + 1)
      parent := Function.update s.parent v u.id
      nextHop := Function.update s.nextHop v (if u.id = root then v else s.nextHop u.id) }
  else some s

/-- The inner loop of `BFS`, over the neighbours of `u` after `v`. -/
def adjacent (N : NixNodes) (root : ℕ) (u : NixNode) : ℕ → ℕ → Search → Option Search
  | 0, _, _ => none
  | fuel + 1, v, s => do
    let (next, prev) ← u.nextAdj v s.prev
    if next = NODE_NONE then some { s with prev := prev }
    else do
      let s' ← N.enqueue root u next { s with prev := prev }
      N.adjacent root u fuel next s'

/-- The outer loop of `BFS`. -/
def search (N : NixNodes) (root : ℕ) : ℕ → Search → Option Search
  | 0, _ => none
  | fuel + 1, s =>
    match s.Q with
    | [] => some s
    | u :: _ => do
      let s' ← N.adjacent root u (u.adj.length + 1) NODE_NONE s
      N.search root fuel { s' with Q := s'.Q.tail }

def bfs (N : NixNodes) (root : ℕ) (prev : Option EdgeIt) : Option Search := do
  let u ← N.nodes[root]?
  N.search root (N.nodes.length + 1)
    { B := Function.update (fun _ => false) root true
      Q := [u]
      D := Function.update (fun _ => INF) root 0
      prev := prev }

/-- `NixPred`: writes the route from `s` to `p` along the parents. The recursion ends after as many
calls as there are nodes. -/
def nixPred (N : NixNodes) (pred : ℕ → ℕ) (s : ℕ) : ℕ → ℕ → NixVec → Option NixVec
  | 0, _, _ => none
  | fuel + 1, p, nv =>
    if s = p then some nv
    else if pred p = NODE_NONE then some nv
    else do
      let nv' ← N.nixPred pred s fuel (pred p) nv
      let u ← N.nodes[pred p]?
      if (u.getNix p).1 = NIX_NONE then none else some (nv'.add (u.getNix p))

/-- The vector from `s` to `t`, and the shared iterator afterwards. -/
def computeNixVector (N : NixNodes) (s t : ℕ) (prev : Option EdgeIt) :
    Option (NixVec × Option EdgeIt) := do
  let found ← N.bfs s prev
  let nv ← N.nixPred found.parent s N.nodes.length t {}
  some (nv, found.prev)

/-- What `NixClassifier::find` returns: the demultiplexer of the node, or the head of its link to a
neighbour. -/
inductive Target
  | dmux
  | neighbor (n : ℕ)
  deriving Repr, DecidableEq

/-- `NixClassifier::find` at a node for a packet to `daddr` with the vector `nv` of which it has used
`used` bits. -/
def find (N : NixNodes) (node daddr : ℕ) (nv : NixVec) (used : ℕ) : Option (Target × ℕ) := do
  let u ← N.nodes[node]?
  if daddr = u.id then some (.dmux, used)
  else do
    let n ← u.getNeighbor (nv.extract u.getNixl used).1
    some (.neighbor n, (nv.extract u.getNixl used).2)

/-- Where a packet from `s` is after `k` hops, and how many bits it has used. -/
def travel (N : NixNodes) (s daddr : ℕ) (nv : NixVec) : ℕ → Option (ℕ × ℕ)
  | 0 => some (s, 0)
  | k + 1 =>
    match N.travel s daddr nv k with
    | none => none
    | some (node, used) =>
      match N.find node daddr nv used with
      | some (.neighbor n, used') => some (n, used')
      | _ => none

/-- The edges, each of length one. -/
def Edge (N : NixNodes) (u v c : ℕ) : Prop :=
  ∃ node, N.nodes[u]? = some node ∧ v ∈ node.adj ∧ c = 1

end NixNodes
end NetworkSimulator
