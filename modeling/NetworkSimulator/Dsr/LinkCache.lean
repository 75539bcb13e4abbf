import Mathlib.Algebra.Order.Field.Rat
import Mathlib.Data.Finset.Card
import NetworkSimulator.Dsr.MobiCacheRuns
import NetworkSimulator.Library.Walks

/-!
# The link cache

`LinkCache` of `linkcache.cc` with the constants that the file sets: links go both ways, dead links are not kept, routes
are those of fewest hops and among these the one whose links live longest, the lifetime of a link follows the stability
of its ends, and a link that has expired is found out when a route uses it. The time, the type and the log state of the
ids are for the traces only; the counters of good and bad expiries are left out. A failed assertion is `none`.
-/

namespace NetworkSimulator.Dsr
open Library

def LC_MAX_NODES : ℕ := 200

def INFINITY : ℕ := 0x7fffffff

def MAX_SIMTIME : ℚ := 86400

structure Link where
  ln_dst : ℕ
  /-- `LINK_FLAG_UP` -/
  ln_flags : Bool
  ln_cost : ℕ
  ln_timeout : ℚ
  deriving DecidableEq

/-- The arrays that the search for the shortest paths fills. -/
structure ShortestPaths where
  d : ℕ → ℕ
  dl : ℕ → ℚ
  pi : ℕ → ℕ
  S : ℕ → Bool

structure LinkCache where
  net_id : ID
  MAC_id : ID
  lcache : ℕ → List Link
  dirty : ℚ
  paths : ShortestPaths
  exptable : ℕ → ℚ
  clock : ℚ

/-- The numbers of the nodes; index 0 of the arrays is not used. -/
def lcNodes : List ℕ := List.range' 1 LC_MAX_NODES

lemma mem_lcNodes {v : ℕ} : v ∈ lcNodes ↔ 1 ≤ v ∧ v ≤ LC_MAX_NODES := by
  unfold lcNodes
  rw [List.mem_range'_1]
  omega

/-! ### The shortest paths -/

namespace ShortestPaths

def init_single_source (s : ℕ) : ShortestPaths where
  d := Function.update (fun _ => INFINITY) s 0
  dl := Function.update (fun _ => 0) s MAX_SIMTIME
  pi := fun _ => 0
  S := fun _ => false

def relax (p : ShortestPaths) (u v w : ℕ) (timeout : ℚ) : Option ShortestPaths :=
  if p.d u < INFINITY ∧ w = 1 then
    if p.d v > p.d u + w ∨ (p.d v = p.d u + w ∧ p.dl v < p.dl u ∧ p.dl v < timeout) then
      some { p with
        d := Function.update p.d v (p.d u + w)
        dl := Function.update p.dl v (if p.dl u > timeout then timeout else p.dl u)
        pi := Function.update p.pi v u }
    else some p
  else none

/-- The loop over the links of a node. -/
def relaxAll (u : ℕ) : ShortestPaths → List Link → Option ShortestPaths
  | p, [] => some p
  | p, l :: ls =>
    (if l.ln_flags then p.relax u l.ln_dst l.ln_cost l.ln_timeout else some p).bind fun p => relaxAll u p ls

/-- One round of `extract_min_q`. -/
def pickMin (p : ShortestPaths) (min_u u : ℕ) : ℕ :=
  if p.S u = false ∧ p.d u < INFINITY ∧
      (min_u = 0 ∨ p.d u < p.d min_u ∨ (p.d u = p.d min_u ∧ p.dl u > p.dl min_u)) then u
  else min_u

def extract_min_q (p : ShortestPaths) : ℕ := lcNodes.foldl p.pickMin 0

/-- The loop of `dijkstra`, with a bound on its rounds. -/
def settle (lcache : ℕ → List Link) : ℕ → ShortestPaths → Option ShortestPaths
  | 0, _ => none
  | fuel + 1, p =>
    let u := p.extract_min_q
    if u = 0 then some p
    else (relaxAll u { p with S := Function.update p.S u true } (lcache u)).bind (settle lcache fuel)

end ShortestPaths

/-! ### The cache -/

/-- `lc_gen_use_bonus`, `lc_table_init_val`, `lc_table_mult_by`, `lc_exp_add_amt`, `lc_exp_div_amt`, `lc_minlifetime` -/
def lc_gen_use_bonus : ℚ := 300

def lc_table_init_val : ℚ := 50

def lc_table_mult_by : ℚ := 1 / 2

def lc_exp_add_amt : ℚ := 2

def lc_exp_div_amt : ℚ := 2

def lc_minlifetime : ℚ := 2

def Link.expired (l : Link) (now : ℚ) : Bool := l.ln_timeout ≤ now

def Link.prolong (l : Link) : Link := { l with ln_timeout := l.ln_timeout + lc_gen_use_bonus }

/-- The first link of a list to a node is changed. -/
def updateLink (dst : ℕ) (f : Link → Link) : List Link → List Link
  | [] => []
  | l :: ls => if l.ln_dst = dst then f l :: ls else l :: updateLink dst f ls

namespace LinkCache

def initial (net_id MAC_id : ID) (paths : ShortestPaths) : LinkCache :=
  ⟨net_id, MAC_id, fun _ => [], -1, paths, fun _ => lc_table_init_val, 0⟩

/-- Every round settles a node, and there are `LC_MAX_NODES` of them. -/
def dijkstra (c : LinkCache) : Option LinkCache :=
  (ShortestPaths.settle c.lcache (LC_MAX_NODES + 1) (.init_single_source c.net_id.addr)).map fun paths =>
    { c with paths, dirty := MAX_SIMTIME }

def findLink (c : LinkCache) (u v : ℕ) : Option Link := (c.lcache u).find? fun l => l.ln_dst = v

def find_timeout (c : LinkCache) (a b : ℕ) : ℚ :=
  let lifetime := (if c.exptable a > c.exptable b then c.exptable b else c.exptable a) * lc_table_mult_by
  c.clock + (if lifetime < lc_minlifetime then lc_minlifetime else lifetime)

/-- One direction of `addLink`, for a link that is up. -/
def addDirection (c : LinkCache) (u v : ℕ) (timeout : ℚ) : LinkCache :=
  match c.findLink u v with
  | none =>
    { c with lcache := Function.update c.lcache u (⟨v, true, 1, timeout⟩ :: c.lcache u), dirty := c.clock }
  | some l =>
    { c with
      lcache := Function.update c.lcache u
        (updateLink v (fun l => { l with ln_flags := true, ln_cost := 1, ln_timeout := timeout }) (c.lcache u))
      dirty := if l.ln_flags then c.dirty else c.clock }

def addLink (c : LinkCache) (u v : ℕ) (timeout : ℚ) : LinkCache :=
  (c.addDirection u v timeout).addDirection v u timeout

/-- The link is taken out of the list that it is in. -/
def removeLink (c : LinkCache) (u v : ℕ) : LinkCache :=
  { c with
    lcache := Function.update c.lcache u ((c.lcache u).eraseP fun l => l.ln_dst = v)
    dirty := c.clock }

def delDirection (c : LinkCache) (u v : ℕ) : LinkCache := if (c.findLink u v).isSome then c.removeLink u v else c

def delLink (c : LinkCache) (u v : ℕ) : LinkCache := (c.delDirection u v).delDirection v u

/-- Each link of a path is added. -/
def addPath (c : LinkCache) : List ℕ → LinkCache
  | u :: v :: rest => (c.addLink u v (c.find_timeout u v)).addPath (v :: rest)
  | _ => c

/-- What both caches take from `RouteCache`. -/
def routeCache (c : LinkCache) : MobiCache := .initial c.net_id c.MAC_id

def addRoute (c : LinkCache) (route : Path) : Option LinkCache :=
  (c.routeCache.pre_addRoute route).map fun rt => rt.elim c fun rt => c.addPath (rt.path.map ID.addr)

def noticeRouteUsed (c : LinkCache) (p : Path) : Option LinkCache :=
  (c.routeCache.pre_noticeRouteUsed p).map fun stub => stub.elim c fun stub => c.addPath (stub.path.map ID.addr)

/-- The ends of a link that goes down are taken to be less stable. -/
def noticeDeadLink (c : LinkCache) (u v : ℕ) : LinkCache :=
  match c.findLink u v with
  | none => c
  | some l =>
    let halve (t : ℕ → ℚ) (a : ℕ) := Function.update t a (t a / lc_exp_div_amt)
    { c with exptable := if l.ln_flags then halve (halve c.exptable u) v else c.exptable }.delLink u v

/-- The nodes from the destination back; where the loop stops, and the array with its last entry in front. -/
def traceBack (c : LinkCache) : ℕ → ℕ → List ℕ → ℕ × List ℕ
  | 0, v, rpath => (v, rpath)
  | room + 1, v, rpath =>
    if c.paths.d v < INFINITY then
      if v = c.net_id.addr then (v, v :: rpath) else c.traceBack room (c.paths.pi v) (v :: rpath)
    else (v, rpath)

/-- The first link of a path that has expired. -/
def firstExpired (c : LinkCache) : List ℕ → Option (Option (ℕ × ℕ))
  | u :: v :: rest =>
    match c.findLink u v with
    | none => none
    | some l => if l.expired c.clock then some (some (u, v)) else c.firstExpired (v :: rest)
  | _ => some none

/-- The links of a route that is given out. -/
def useLinks (c : LinkCache) (for_me : Bool) : List ℕ → Option LinkCache
  | u :: v :: rest =>
    match c.findLink u v with
    | none => none
    | some l =>
      if l.expired c.clock then none
      else
        let add (t : ℕ → ℚ) (a : ℕ) := Function.update t a (t a + lc_exp_add_amt)
        { c with
          lcache := if for_me then
              Function.update c.lcache u (updateLink v Link.prolong (c.lcache u))
            else c.lcache
          exptable := add (add c.exptable u) v }.useLinks for_me (v :: rest)
  | _ => some c

/-- A route whose links have not expired; `fuel` bounds the calls that find out a link. -/
def findRoute : ℕ → LinkCache → ID → Bool → Option (LinkCache × Option Path)
  | 0, _, _, _ => none
  | fuel + 1, c, dest, for_me =>
    (if c.dirty ≤ c.clock then c.dijkstra else some c).bind fun c =>
      let r := c.traceBack MAX_SR_LEN dest.addr []
      if r.2.length < 2 ∨ c.paths.d r.1 = INFINITY ∨ r.2.length ≥ MAX_SR_LEN then some (c, none)
      else (c.firstExpired r.2).bind fun expired =>
        match expired with
        | some link => findRoute fuel (c.removeLink link.1 link.2) dest for_me
        | none => (c.useLinks for_me r.2).bind fun c =>
          (Path.empty.appendEach (r.2.map fun a => ⟨a, .IP⟩)).map fun route => (c, some route)

/-- The number of links. -/
def size (c : LinkCache) : ℕ := (lcNodes.map fun u => (c.lcache u).length).sum

/-- The calls of the agent; every call that finds out a link makes the cache smaller. -/
def step (c : LinkCache) (now : ℚ) : CacheCall → Option (LinkCache × Option Path)
  | .addRoute route => (addRoute { c with clock := now } route).map fun c => (c, none)
  | .noticeRouteUsed p => (noticeRouteUsed { c with clock := now } p).map fun c => (c, none)
  | .findRoute dest for_me => findRoute (c.size + 1) { c with clock := now } dest for_me
  | .noticeDeadLink dead₁ dead₂ => some (noticeDeadLink { c with clock := now } dead₁.addr dead₂.addr, none)

end LinkCache

/-- There is a link that is up. -/
def LinkedTo (lcache : ℕ → List Link) (u v k : ℕ) : Prop := k = 1 ∧ ∃ l ∈ lcache u, l.ln_dst = v ∧ l.ln_flags = true

/-- Nodes have numbers within the arrays, and a hop costs one. -/
structure InRange (lcache : ℕ → List Link) : Prop where
  dst : ∀ u, ∀ l ∈ lcache u, l.ln_dst ∈ lcNodes
  cost : ∀ u, ∀ l ∈ lcache u, l.ln_cost = 1

namespace ShortestPaths
variable {lcache : ℕ → List Link} {s : ℕ} {p : ShortestPaths}

/-- A label that is finite is the cost of a walk. A node that has been settled has no larger label than the others, and
its links have been followed; `rest` is what is still to be followed for the node `u`. -/
structure Labels (lcache : ℕ → List Link) (s u : ℕ) (rest : List Link) (p : ShortestPaths) : Prop where
  source : p.d s = 0
  walk : ∀ v, p.d v < INFINITY → v ∈ lcNodes ∧ Walk (LinkedTo lcache) s v (p.d v)
  settled : ∀ x, p.S x = true → p.d x < INFINITY
  count : ∀ v, p.d v < INFINITY → p.d v ≤ {x ∈ lcNodes.toFinset | p.S x = true}.card
  tree : ∀ v, p.d v < INFINITY → v ≠ s → p.S (p.pi v) = true ∧ LinkedTo lcache (p.pi v) v 1 ∧ p.d v = p.d (p.pi v) + 1
  order : ∀ x y, p.S x = true → p.S y = false → p.d y < INFINITY → p.d x ≤ p.d y
  edges : ∀ x, p.S x = true → ∀ l ∈ lcache x, l.ln_flags = true → p.d l.ln_dst ≤ p.d x + 1 ∨ (x = u ∧ l ∈ rest)

/-- What a relaxation does: the label is low enough, or it is made so. -/
lemma relax_eq {u v : ℕ} (timeout : ℚ) (hu : p.d u < INFINITY) :
    (p.relax u v 1 timeout = some p ∧ p.d v ≤ p.d u + 1) ∨
      (p.d u + 1 ≤ p.d v ∧ ∃ dl, p.relax u v 1 timeout = some { p with
        d := Function.update p.d v (p.d u + 1), dl, pi := Function.update p.pi v u }) := by
  unfold relax
  rw [if_pos ⟨hu, rfl⟩]
  by_cases hlower : p.d v > p.d u + 1 ∨ (p.d v = p.d u + 1 ∧ p.dl v < p.dl u ∧ p.dl v < timeout)
  · right
    rw [if_pos hlower]
    refine ⟨?_, _, rfl⟩
    rcases hlower with hlt | ⟨heq, -⟩
    · exact hlt.le
    · exact heq.ge
  · left
    rw [if_neg hlower]
    exact ⟨rfl, not_lt.mp fun hlt => hlower (Or.inl hlt)⟩

/-- One link of the node that is being settled is followed. -/
lemma Labels.relax {u : ℕ} {l : Link} {rest : List Link} (h : Labels lcache s u (l :: rest) p) (hr : InRange lcache)
    (hu : p.S u = true) (hl : l ∈ lcache u) (hflag : l.ln_flags = true)
    (hfirst : ∀ x, p.S x = true → p.d x ≤ p.d u) (hsmall : p.d u + 1 < INFINITY)
    (hcount : p.d u + 1 ≤ {x ∈ lcNodes.toFinset | p.S x = true}.card) :
    ∃ p', p.relax u l.ln_dst l.ln_cost l.ln_timeout = some p' ∧ Labels lcache s u rest p' ∧ p'.S = p.S ∧
      p'.d u = p.d u ∧ ∀ x, p'.S x = true → p'.d x ≤ p'.d u := by
  have hufin := h.settled u hu
  rw [hr.cost u l hl]
  rcases relax_eq (v := l.ln_dst) l.ln_timeout hufin with ⟨hrelax, hle⟩ | ⟨hle, dl, hrelax⟩
  · refine ⟨p, hrelax, ⟨h.source, h.walk, h.settled, h.count, h.tree, h.order, ?_⟩, rfl, rfl, hfirst⟩
    intro x hx l' hl' hflag'
    rcases h.edges x hx l' hl' hflag' with hdone | ⟨rfl, hmem⟩
    · exact Or.inl hdone
    · rcases List.mem_cons.mp hmem with rfl | hmem
      · exact Or.inl hle
      · exact Or.inr ⟨rfl, hmem⟩
  · -- a settled node has a smaller label than the one that is lowered
    have hne : ∀ x, p.S x = true → x ≠ l.ln_dst := by
      intro x hx heq
      have hxu := hfirst x hx
      rw [heq] at hxu
      omega
    have hkeep : ∀ x, p.S x = true → Function.update p.d l.ln_dst (p.d u + 1) x = p.d x := fun x hx =>
      Function.update_of_ne (hne x hx) _ _
    have hedge : LinkedTo lcache u l.ln_dst 1 := ⟨rfl, l, hl, rfl, hflag⟩
    have hs : s ≠ l.ln_dst := by
      intro heq
      have hsource := h.source
      rw [heq] at hsource
      omega
    refine ⟨_, hrelax, ⟨?_, ?_, ?_, ?_, ?_, ?_, ?_⟩, rfl, hkeep u hu, ?_⟩
    · dsimp only
      rw [Function.update_of_ne hs]
      exact h.source
    · intro v hv
      dsimp only at hv ⊢
      by_cases hvl : v = l.ln_dst
      · subst hvl
        rw [Function.update_self]
        exact ⟨hr.dst u l hl, (h.walk u hufin).2.snoc hedge⟩
      · rw [Function.update_of_ne hvl] at hv ⊢
        exact h.walk v hv
    · intro x hx
      dsimp only at hx ⊢
      rw [hkeep x hx]
      exact h.settled x hx
    · intro v hv
      dsimp only at hv ⊢
      by_cases hvl : v = l.ln_dst
      · subst hvl
        rw [Function.update_self]
        exact hcount
      · rw [Function.update_of_ne hvl] at hv ⊢
        exact h.count v hv
    · intro v hv hvs
      dsimp only at hv ⊢
      by_cases hvl : v = l.ln_dst
      · subst hvl
        rw [Function.update_self, Function.update_self, hkeep u hu]
        exact ⟨hu, hedge, rfl⟩
      · rw [Function.update_of_ne hvl] at hv
        obtain ⟨hS, hlink, hd⟩ := h.tree v hv hvs
        rw [Function.update_of_ne hvl, Function.update_of_ne hvl, hkeep _ hS]
        exact ⟨hS, hlink, hd⟩
    · intro x y hx hy hyfin
      dsimp only at hx hy hyfin ⊢
      rw [hkeep x hx]
      by_cases hyl : y = l.ln_dst
      · subst hyl
        rw [Function.update_self]
        exact (hfirst x hx).trans (Nat.le_succ _)
      · rw [Function.update_of_ne hyl] at hyfin ⊢
        exact h.order x y hx hy hyfin
    · intro x hx l' hl' hflag'
      dsimp only at hx ⊢
      rw [hkeep x hx]
      by_cases hdst : l'.ln_dst = l.ln_dst
      · left
        rw [hdst, Function.update_self]
        rcases h.edges x hx l' hl' hflag' with hdone | ⟨rfl, -⟩
        · rw [hdst] at hdone
          exact hle.trans hdone
        · exact le_rfl
      · rw [Function.update_of_ne hdst]
        rcases h.edges x hx l' hl' hflag' with hdone | ⟨rfl, hmem⟩
        · exact Or.inl hdone
        · rcases List.mem_cons.mp hmem with rfl | hmem
          · exact absurd rfl hdst
          · exact Or.inr ⟨rfl, hmem⟩
    · intro x hx
      dsimp only at hx ⊢
      rw [hkeep x hx, hkeep u hu]
      exact hfirst x hx

/-- All links of the node that is being settled are followed. -/
lemma Labels.relaxAll {u : ℕ} (ls : List Link) (h : Labels lcache s u ls p) (hr : InRange lcache) (hu : p.S u = true)
    (hls : ∀ l ∈ ls, l ∈ lcache u) (hfirst : ∀ x, p.S x = true → p.d x ≤ p.d u) (hsmall : p.d u + 1 < INFINITY)
    (hcount : p.d u + 1 ≤ {x ∈ lcNodes.toFinset | p.S x = true}.card) :
    ∃ p', p.relaxAll u ls = some p' ∧ Labels lcache s u [] p' ∧ p'.S = p.S := by
  induction ls generalizing p with
  | nil => exact ⟨p, rfl, h, rfl⟩
  | cons l ls ih =>
    have hl := hls l List.mem_cons_self
    have hrest : ∀ l' ∈ ls, l' ∈ lcache u := fun l' hl' => hls l' (List.mem_cons_of_mem l hl')
    rw [ShortestPaths.relaxAll]
    by_cases hflag : l.ln_flags = true
    · obtain ⟨p', hrelax, hlabels, hS, hd, hfirst'⟩ := h.relax hr hu hl hflag hfirst hsmall hcount
      rw [if_pos hflag, hrelax, Option.bind_some]
      rw [← hd] at hsmall hcount
      rw [← hS] at hu hcount
      obtain ⟨p'', hall, hlabels', hS'⟩ := ih hlabels hu hrest hfirst' hsmall hcount
      exact ⟨p'', hall, hlabels', hS'.trans hS⟩
    · rw [if_neg hflag, Option.bind_some]
      refine ih ⟨h.source, h.walk, h.settled, h.count, h.tree, h.order, ?_⟩ hu hrest hfirst hsmall hcount
      intro x hx l' hl' hflag'
      rcases h.edges x hx l' hl' hflag' with hdone | ⟨rfl, hmem⟩
      · exact Or.inl hdone
      · rcases List.mem_cons.mp hmem with rfl | hmem
        · exact absurd hflag' hflag
        · exact Or.inr ⟨rfl, hmem⟩

/-- The candidate of `extract_min_q` after some nodes. -/
lemma pickMin_foldl (seen nodes : List ℕ) {m : ℕ} (hseen : ∀ x ∈ seen, x ≠ 0) (hnodes : ∀ x ∈ nodes, x ≠ 0)
    (hm : m = 0 ∧ (∀ x ∈ seen, p.S x = false → ¬p.d x < INFINITY) ∨
      m ∈ seen ∧ p.S m = false ∧ p.d m < INFINITY ∧ ∀ x ∈ seen, p.S x = false → p.d m ≤ p.d x) :
    nodes.foldl p.pickMin m = 0 ∧ (∀ x ∈ seen ++ nodes, p.S x = false → ¬p.d x < INFINITY) ∨
      nodes.foldl p.pickMin m ∈ seen ++ nodes ∧ p.S (nodes.foldl p.pickMin m) = false ∧
        p.d (nodes.foldl p.pickMin m) < INFINITY ∧
          ∀ x ∈ seen ++ nodes, p.S x = false → p.d (nodes.foldl p.pickMin m) ≤ p.d x := by
  induction nodes generalizing seen m with
  | nil => simpa using hm
  | cons u nodes ih =>
    have hu := hnodes u List.mem_cons_self
    have hseen' : ∀ x ∈ seen ++ [u], x ≠ 0 := by
      intro x hx
      rcases List.mem_append.mp hx with hx | hx
      · exact hseen x hx
      · rwa [List.mem_singleton.mp hx]
    rw [List.foldl_cons, List.append_cons]
    apply ih (seen ++ [u]) hseen' (fun x hx => hnodes x (List.mem_cons_of_mem u hx))
    unfold pickMin
    by_cases hpick : p.S u = false ∧ p.d u < INFINITY ∧
        (m = 0 ∨ p.d u < p.d m ∨ (p.d u = p.d m ∧ p.dl u > p.dl m))
    · rw [if_pos hpick]
      obtain ⟨hS, hfin, hless⟩ := hpick
      right
      refine ⟨List.mem_append_right _ (List.mem_singleton_self u), hS, hfin, ?_⟩
      intro x hx hxS
      rcases List.mem_append.mp hx with hx | hx
      · rcases hm with ⟨-, hinf⟩ | ⟨hmem, -, -, hmin⟩
        · exact hfin.le.trans (not_lt.mp (hinf x hx hxS))
        · have hle : p.d u ≤ p.d m := by
            rcases hless with rfl | hlt | ⟨heq, -⟩
            · exact absurd rfl (hseen 0 hmem)
            · exact hlt.le
            · exact heq.le
          exact hle.trans (hmin x hx hxS)
      · rw [List.mem_singleton.mp hx]
    · rw [if_neg hpick]
      rcases hm with ⟨rfl, hinf⟩ | ⟨hmem, hS, hfin, hmin⟩
      · left
        refine ⟨rfl, ?_⟩
        intro x hx hxS
        rcases List.mem_append.mp hx with hx | hx
        · exact hinf x hx hxS
        · obtain rfl := List.mem_singleton.mp hx
          exact fun hxfin => hpick ⟨hxS, hxfin, Or.inl rfl⟩
      · right
        refine ⟨List.mem_append_left _ hmem, hS, hfin, ?_⟩
        intro x hx hxS
        rcases List.mem_append.mp hx with hx | hx
        · exact hmin x hx hxS
        · obtain rfl := List.mem_singleton.mp hx
          exact not_lt.mp fun hlt => hpick ⟨hxS, hlt.trans hfin, Or.inr (Or.inl hlt)⟩

/-- The node that `extract_min_q` takes, none when every node with a label is settled. -/
lemma extract_min_q_spec (p : ShortestPaths) :
    p.extract_min_q = 0 ∧ (∀ x ∈ lcNodes, p.S x = false → ¬p.d x < INFINITY) ∨
      p.extract_min_q ∈ lcNodes ∧ p.S p.extract_min_q = false ∧ p.d p.extract_min_q < INFINITY ∧
        ∀ x ∈ lcNodes, p.S x = false → p.d p.extract_min_q ≤ p.d x := by
  have hnodes : ∀ x ∈ lcNodes, x ≠ 0 := fun x hx => (Nat.lt_of_succ_le (mem_lcNodes.mp hx).1).ne'
  exact p.pickMin_foldl [] lcNodes (fun _ hx => absurd hx List.not_mem_nil) hnodes
    (Or.inl ⟨rfl, fun _ hx => absurd hx List.not_mem_nil⟩)

lemma card_settled_le (S : ℕ → Bool) : {x ∈ lcNodes.toFinset | S x = true}.card ≤ LC_MAX_NODES := calc
  {x ∈ lcNodes.toFinset | S x = true}.card ≤ lcNodes.toFinset.card := Finset.card_filter_le _ _
  _ ≤ lcNodes.length := lcNodes.toFinset_card_le
  _ = LC_MAX_NODES := List.length_range'

lemma Labels.small {u : ℕ} {rest : List Link} (h : Labels lcache s u rest p) {v : ℕ} (hv : p.d v < INFINITY) :
    p.d v + 1 < INFINITY := by
  have hcount := (h.count v hv).trans (card_settled_le p.S)
  unfold LC_MAX_NODES at hcount
  unfold INFINITY
  omega

/-- The nearest node that is not settled is settled next. -/
lemma Labels.settleNext {u u₀ : ℕ} (h : Labels lcache s u₀ [] p) (hnode : u ∈ lcNodes) (hS : p.S u = false)
    (hfin : p.d u < INFINITY) (hmin : ∀ x ∈ lcNodes, p.S x = false → p.d u ≤ p.d x) :
    Labels lcache s u (lcache u) { p with S := Function.update p.S u true } ∧
      (∀ x, Function.update p.S u true x = true → p.d x ≤ p.d u) ∧
      p.d u + 1 ≤ {x ∈ lcNodes.toFinset | Function.update p.S u true x = true}.card := by
  have hold : ∀ x, Function.update p.S u true x = true ↔ x = u ∨ p.S x = true := by
    intro x
    by_cases hxu : x = u
    · rw [hxu, Function.update_self]
      simp
    · rw [Function.update_of_ne hxu, or_iff_right hxu]
  have hinsert : {x ∈ lcNodes.toFinset | Function.update p.S u true x = true} =
      insert u {x ∈ lcNodes.toFinset | p.S x = true} := by
    ext x
    rw [Finset.mem_insert, Finset.mem_filter, Finset.mem_filter, hold, List.mem_toFinset]
    constructor
    · rintro ⟨hx, rfl | hxS⟩
      · exact Or.inl rfl
      · exact Or.inr ⟨hx, hxS⟩
    · rintro (rfl | ⟨hx, hxS⟩)
      · exact ⟨hnode, Or.inl rfl⟩
      · exact ⟨hx, Or.inr hxS⟩
  have hcard : {x ∈ lcNodes.toFinset | Function.update p.S u true x = true}.card =
      {x ∈ lcNodes.toFinset | p.S x = true}.card + 1 := by
    rw [hinsert]
    apply Finset.card_insert_of_notMem
    intro hmem
    rw [Finset.mem_filter, hS] at hmem
    exact Bool.false_ne_true hmem.2
  have hfirst : ∀ x, Function.update p.S u true x = true → p.d x ≤ p.d u := by
    intro x hx
    rcases (hold x).mp hx with rfl | hx
    · exact le_rfl
    · exact h.order x u hx hS hfin
  refine ⟨⟨h.source, h.walk, ?_, ?_, ?_, ?_, ?_⟩, hfirst, ?_⟩
  · intro x hx
    rcases (hold x).mp hx with rfl | hx
    · exact hfin
    · exact h.settled x hx
  · intro v hv
    dsimp only
    rw [hcard]
    exact (h.count v hv).trans (Nat.le_succ _)
  · intro v hv hvs
    obtain ⟨hparent, hlink, hd⟩ := h.tree v hv hvs
    exact ⟨(hold _).mpr (Or.inr hparent), hlink, hd⟩
  · intro x y hx hy hyfin
    have hyS : p.S y = false := by
      rw [← Bool.not_eq_true]
      intro hyS
      dsimp only at hy
      rw [(hold y).mpr (Or.inr hyS)] at hy
      cases hy
    rcases (hold x).mp hx with rfl | hx
    · exact hmin y (h.walk y hyfin).1 hyS
    · exact h.order x y hx hyS hyfin
  · intro x hx l hl hflag
    rcases (hold x).mp hx with rfl | hx
    · exact Or.inr ⟨rfl, hl⟩
    · left
      rcases h.edges x hx l hl hflag with hdone | ⟨-, hmem⟩
      · exact hdone
      · exact absurd hmem List.not_mem_nil
  · rw [hcard]
    exact Nat.succ_le_succ (h.count u hfin)

/-- The loop ends within its bound. -/
lemma Labels.settle {u₀ : ℕ} (h : Labels lcache s u₀ [] p) (hr : InRange lcache) {fuel : ℕ}
    (hfuel : {x ∈ lcNodes.toFinset | p.S x = false}.card < fuel) :
    ∃ p' u, settle lcache fuel p = some p' ∧ Labels lcache s u [] p' ∧
      ∀ x ∈ lcNodes, p'.S x = false → ¬p'.d x < INFINITY := by
  induction fuel generalizing p u₀ with
  | zero => exact absurd hfuel (Nat.not_lt_zero _)
  | succ fuel ih =>
    rw [ShortestPaths.settle]
    rcases p.extract_min_q_spec with ⟨hzero, hdone⟩ | ⟨hnode, hS, hfin, hmin⟩
    · rw [if_pos hzero]
      exact ⟨p, u₀, rfl, h, hdone⟩
    · have hne : p.extract_min_q ≠ 0 := (Nat.lt_of_succ_le (mem_lcNodes.mp hnode).1).ne'
      rw [if_neg hne]
      obtain ⟨hlabels, hfirst, hcount⟩ := h.settleNext hnode hS hfin hmin
      generalize p.extract_min_q = u at hnode hS hfin hlabels hfirst hcount ⊢
      obtain ⟨p', hall, hlabels', hS'⟩ := hlabels.relaxAll (lcache u) hr (Function.update_self u true p.S)
        (fun l hl => hl) hfirst (h.small hfin) hcount
      rw [hall, Option.bind_some]
      dsimp only at hS'
      apply ih hlabels'
      refine lt_of_lt_of_le (Finset.card_lt_card ?_) (Nat.lt_succ_iff.mp hfuel)
      rw [hS', Finset.ssubset_iff_of_subset]
      · refine ⟨u, Finset.mem_filter.mpr ⟨List.mem_toFinset.mpr hnode, hS⟩, ?_⟩
        intro hmem
        have hu := (Finset.mem_filter.mp hmem).2
        rw [Function.update_self] at hu
        cases hu
      · intro x hx
        obtain ⟨hx, hxS⟩ := Finset.mem_filter.mp hx
        refine Finset.mem_filter.mpr ⟨hx, ?_⟩
        rwa [Function.update_of_ne] at hxS
        rintro rfl
        rw [Function.update_self] at hxS
        cases hxS

/-- The labels are the numbers of hops, and every node hangs on one that is a hop nearer. -/
structure Exact (lcache : ℕ → List Link) (s : ℕ) (p : ShortestPaths) : Prop where
  source : p.d s = 0
  dist : ∀ v, p.d v < INFINITY → IsDist (LinkedTo lcache) s v (p.d v)
  reached : ∀ v k, Walk (LinkedTo lcache) s v k → p.d v < INFINITY
  tree : ∀ v, p.d v < INFINITY → v ≠ s → p.d (p.pi v) < INFINITY ∧ LinkedTo lcache (p.pi v) v 1 ∧
    p.d v = p.d (p.pi v) + 1

/-- No walk is shorter than the label once every label has been followed. -/
lemma Labels.walk_le {u : ℕ} (h : Labels lcache s u [] p) (hdone : ∀ x ∈ lcNodes, p.S x = false → ¬p.d x < INFINITY)
    {x v k : ℕ} (hwalk : Walk (LinkedTo lcache) x v k) (hx : p.d x < INFINITY) :
    p.d v < INFINITY ∧ p.d v ≤ p.d x + k := by
  induction hwalk with
  | nil => exact ⟨hx, le_rfl⟩
  | @cons x w v c k hedge _ ih =>
    obtain ⟨rfl, l, hl, rfl, hflag⟩ := hedge
    have hS : p.S x = true := by
      rw [← Bool.not_eq_false]
      exact fun hS => hdone x (h.walk x hx).1 hS hx
    have hle : p.d l.ln_dst ≤ p.d x + 1 := by
      rcases h.edges x hS l hl hflag with hle | ⟨-, hmem⟩
      · exact hle
      · exact absurd hmem List.not_mem_nil
    obtain ⟨hv, hvle⟩ := ih (hle.trans_lt (h.small hx))
    exact ⟨hv, by omega⟩

lemma labels_init (hs : s ∈ lcNodes) (u : ℕ) : Labels lcache s u [] (init_single_source s) := by
  have hfin : ∀ v, (init_single_source s).d v < INFINITY → v = s := by
    intro v hv
    by_contra hne
    unfold init_single_source at hv
    dsimp only at hv
    rw [Function.update_of_ne hne] at hv
    exact lt_irrefl _ hv
  have hsource : (init_single_source s).d s = 0 := by
    unfold init_single_source
    dsimp only
    rw [Function.update_self]
  refine ⟨hsource, ?_, ?_, ?_, ?_, ?_, ?_⟩
  · intro v hv
    obtain rfl := hfin v hv
    rw [hsource]
    exact ⟨hs, Walk.nil v⟩
  · exact fun x hx => absurd hx Bool.false_ne_true
  · intro v hv
    obtain rfl := hfin v hv
    rw [hsource]
    exact Nat.zero_le _
  · exact fun v hv hvs => absurd (hfin v hv) hvs
  · exact fun x _ hx => absurd hx Bool.false_ne_true
  · exact fun x hx => absurd hx Bool.false_ne_true

/-- The search finds the shortest paths. -/
lemma settle_exact (hs : s ∈ lcNodes) (hr : InRange lcache) :
    ∃ p, settle lcache (LC_MAX_NODES + 1) (init_single_source s) = some p ∧ p.Exact lcache s := by
  have hcard : {x ∈ lcNodes.toFinset | (init_single_source s).S x = false}.card < LC_MAX_NODES + 1 := calc
    {x ∈ lcNodes.toFinset | (init_single_source s).S x = false}.card ≤ lcNodes.toFinset.card :=
      Finset.card_filter_le _ _
    _ ≤ lcNodes.length := lcNodes.toFinset_card_le
    _ = LC_MAX_NODES := List.length_range'
    _ < LC_MAX_NODES + 1 := Nat.lt_succ_self _
  obtain ⟨p, u, hsettle, hlabels, hdone⟩ := (labels_init hs s).settle hr hcard
  have hfin : p.d s < INFINITY := by
    rw [hlabels.source]
    exact Nat.succ_pos _
  refine ⟨p, hsettle, hlabels.source, ?_, ?_, ?_⟩
  · intro v hv
    refine ⟨(hlabels.walk v hv).2, ?_⟩
    intro k hk
    have hle := (hlabels.walk_le hdone hk hfin).2
    rwa [hlabels.source, zero_add] at hle
  · exact fun v k hk => (hlabels.walk_le hdone hk hfin).1
  · intro v hv hvs
    obtain ⟨hS, hlink, hd⟩ := hlabels.tree v hv hvs
    exact ⟨hlabels.settled _ hS, hlink, hd⟩

end ShortestPaths

end NetworkSimulator.Dsr
