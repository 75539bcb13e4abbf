import NetworkSimulator.Dsr.Path

/-!
# The route cache

`MobiCache` of `mobicache.cc` with the checks of `routecache.cc` that its calls start with: two
fixed arrays of paths, the primary one for routes a node asked for and the secondary one for routes
it overheard. The time, the link type, the owner and the log state of an entry are written for the
traces only and are left out. A failed assertion is `none`.
-/

namespace NetworkSimulator.Dsr

structure Cache where
  cache : List Path
  victim_ptr : Nat
  deriving DecidableEq

namespace Cache

def new (size : Nat) : Cache := ⟨List.replicate size Path.empty, 0⟩

def size (c : Cache) : Nat := c.cache.length

/-- The search over the entries from `index` on: place of `dest` in the path, the path and its
index. -/
def searchRoute.go (dest : ID) : List Path → Nat → Option (Nat × Path × Nat)
  | [], _ => none
  | p :: ps, index =>
    match p.path.idxOf? dest with
    | some n => some (n, p, index)
    | none => searchRoute.go dest ps (index + 1)

def searchRoute (c : Cache) (dest : ID) (index : Nat) : Option (Nat × Path × Nat) :=
  searchRoute.go dest (c.cache.drop index) index

/-- The first unused entry, else the entries in turn. -/
def pickVictim (c : Cache) : Nat × Cache :=
  match c.cache.findIdx? fun p => p.length = 0 with
  | some i => (i, c)
  | none => (c.victim_ptr,
      { c with victim_ptr := if c.victim_ptr + 1 = c.size then 0 else c.victim_ptr + 1 })

/-- One of the entry and the route is a beginning of the other. -/
def comparable (path entry : Path) : Bool :=
  commonPrefix entry.path path.path = entry.length ∨ commonPrefix entry.path path.path = path.length

/-- The cache with the route in it and how much of the route its entry had before. -/
def addRoute (c : Cache) (path : Path) : Option (Cache × Nat) :=
  match c.cache.findIdx? (comparable path) with
  | some index => do
    let entry ← c.cache[index]?
    let n := commonPrefix entry.path path.path
    if n = entry.length then do
      let entry ← entry.appendEach (path.path.drop n)
      some ({ c with cache := c.cache.set index entry }, n)
    else some (c, n)
  | none => do
    let (victim, c) := c.pickVictim
    let entry ← c.cache[victim]?
    let entry ← CopyIntoPath entry.reset path 0 (path.length - 1)
    some ({ c with cache := c.cache.set victim entry }, 0)

/-- An entry is cut in front of the dead link; cut to its first id it is given up. -/
def truncate (dead₁ dead₂ : ID) (p : Path) : Option Path :=
  match firstLink dead₁ dead₂ p.path with
  | none => some p
  | some n => if n = 0 then some p.reset else p.setLength (n + 1)

def noticeDeadLink (c : Cache) (dead₁ dead₂ : ID) : Option Cache :=
  (c.cache.mapM (truncate dead₁ dead₂)).map fun cache => { c with cache := cache }

end Cache

structure MobiCache where
  net_id : ID
  MAC_id : ID
  primary_cache : Cache
  secondary_cache : Cache

/-- The locals of `findRoute`. -/
structure Found where
  route : Path
  min_index : Option Nat
  min_length : Nat
  min_cache : Nat

namespace Found

def none : Found := ⟨Path.empty, .none, MAX_SR_LEN + 1, 0⟩

def seePrimary (f : Found) (len : Nat) (path : Path) (_ : Nat) : Found :=
  let f := { f with min_cache := 2 }
  if len < f.min_length then { f with min_length := len, route := path } else f

def seeSecondary (f : Found) (len : Nat) (path : Path) (index : Nat) : Found :=
  if len < f.min_length then ⟨path, some index, len, 1⟩ else f

end Found

/-- The loop over the hits of `searchRoute`; every round moves on in the array, so its size bounds
the number of rounds. -/
def Cache.searchEach (c : Cache) (dest : ID) (see : Found → Nat → Path → Nat → Found) :
    Nat → Nat → Found → Found
  | 0, _, f => f
  | fuel + 1, index, f =>
    match c.searchRoute dest index with
    | none => f
    | some (len, path, index) => searchEach c dest see fuel (index + 1) (see f len path index)

namespace MobiCache

/-- The cache of a node before its first call. -/
def initial (net_id MAC_id : ID) : MobiCache := ⟨net_id, MAC_id, .new 30, .new 64⟩

def isOwn (m : MobiCache) (id : ID) : Bool := id = m.net_id ∨ id = m.MAC_id

/-- The route to add, `none` inside for one that is turned away. -/
def pre_addRoute (m : MobiCache) (route : Path) : Option (Option Path) :=
  if m.net_id = invalid_addr then none
  else if route.length < 2 then some none
  else
    match route.path.head? with
    | none => none
    | some first => if ¬m.isOwn first then some none else some (some route)

/-- The part of a route in use that starts at this node. A route the node is not on has been
overheard from the node in front of its iterator, and a link to that node is assumed. -/
def pre_noticeRouteUsed (m : MobiCache) (p : Path) : Option (Option Path) :=
  if p.length < 2 then some none
  else
    let c := p.path.findIdx m.isOwn
    if c = p.length - 1 then some none
    else if c = p.length then
      if p.index = 0 then some none
      else
        let i := p.index - 1
        if i < 0 then none
        else do
          let stub ← Path.empty.appendToPath m.net_id
          let stub ← stub.appendWhileRoom (p.path.drop i.toNat)
          some (some stub)
    else (CopyIntoPath Path.empty p c (p.length - 1)).map some

def addRoute (m : MobiCache) (route : Path) : Option MobiCache := do
  match ← m.pre_addRoute route with
  | none => some m
  | some rt =>
    let (primary_cache, _) ← m.primary_cache.addRoute rt
    some { m with primary_cache := primary_cache }

def noticeRouteUsed (m : MobiCache) (p : Path) : Option MobiCache := do
  match ← m.pre_noticeRouteUsed p with
  | none => some m
  | some stub =>
    let (secondary_cache, _) ← m.secondary_cache.addRoute stub
    some { m with secondary_cache := secondary_cache }

def noticeDeadLink (m : MobiCache) (dead₁ dead₂ : ID) : Option MobiCache := do
  let primary_cache ← m.primary_cache.noticeDeadLink dead₁ dead₂
  let secondary_cache ← m.secondary_cache.noticeDeadLink dead₁ dead₂
  some { m with primary_cache := primary_cache, secondary_cache := secondary_cache }

/-- What `findRoute` knows after both searches. -/
def search (m : MobiCache) (dest : ID) : Found :=
  m.secondary_cache.searchEach dest Found.seeSecondary m.secondary_cache.size 0
    (m.primary_cache.searchEach dest Found.seePrimary m.primary_cache.size 0 Found.none)

/-- An entry that shared some ids with the primary cache is cut to these first. -/
def cutTo (path : Path) (prefix_len : Nat) : Option Path :=
  if 0 < prefix_len then path.setLength prefix_len else some path

/-- The entry found in the secondary cache moves to the primary one. -/
def promote (m : MobiCache) (f : Found) : Option MobiCache := do
  let min_index ← f.min_index
  let path ← m.secondary_cache.cache[min_index]?
  let (primary_cache, prefix_len) ← m.primary_cache.addRoute path
  let path ← cutTo path prefix_len
  let path ← path.setLength 0
  some { m with
    primary_cache := primary_cache
    secondary_cache :=
      { m.secondary_cache with cache := m.secondary_cache.cache.set min_index path } }

def findRoute (m : MobiCache) (dest : ID) (for_me : Bool) : Option (MobiCache × Option Path) :=
  if m.net_id = invalid_addr then none
  else
    let f := m.search dest
    (if f.min_cache = 1 ∧ for_me then m.promote f else some m).bind fun m =>
      if f.min_cache ≠ 0 then (f.route.setLength (f.min_length + 1)).map fun route => (m, some route)
      else some (m, none)

end MobiCache

inductive CacheCall
  | addRoute (route : Path)
  | noticeRouteUsed (p : Path)
  | findRoute (dest : ID) (for_me : Bool)
  | noticeDeadLink (dead₁ dead₂ : ID)
  deriving DecidableEq

/-- One call; the output is what a call of `findRoute` answers. -/
def MobiCache.step (m : MobiCache) : CacheCall → Option (MobiCache × Option Path)
  | .addRoute route => (m.addRoute route).map fun m => (m, none)
  | .noticeRouteUsed p => (m.noticeRouteUsed p).map fun m => (m, none)
  | .findRoute dest for_me => m.findRoute dest for_me
  | .noticeDeadLink dead₁ dead₂ => (m.noticeDeadLink dead₁ dead₂).map fun m => (m, none)

end NetworkSimulator.Dsr
