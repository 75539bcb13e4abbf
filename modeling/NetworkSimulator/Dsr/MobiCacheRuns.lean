import NetworkSimulator.Dsr.MobiCache
import NetworkSimulator.Library.Runs

/-!
# What the route cache may hold and answer

The caches hold paths from this node over links that are live: supplied by some call, and not
noticed dead since. One lemma for each operation of a single cache and for each call, and the run
theorem over every sequence of calls.
-/

namespace NetworkSimulator.Dsr

open Library

/-- What a cached path is, for the ids of this node and the links that are live. -/
structure IsRoute (own : ID → Bool) (live : ID → ID → Prop) (ids : List ID) : Prop where
  lengths : ids.length = 0 ∨ 2 ≤ ids.length ∧ ids.length ≤ MAX_SR_LEN
  starts : ∀ a ∈ ids.head?, own a
  nodup : ids.Nodup
  links : ∀ a b, [a, b] <:+: ids → live a b

section routes

variable {own : ID → Bool} {live live' : ID → ID → Prop} {ids : List ID}

lemma isRoute_nil : IsRoute own live [] where
  lengths := .inl rfl
  starts := by simp
  nodup := List.nodup_nil
  links := by simp

lemma IsRoute.length_le (h : IsRoute own live ids) : ids.length ≤ MAX_SR_LEN := by
  have := h.lengths
  omega

lemma IsRoute.two_le_of_mem {a : ID} (h : IsRoute own live ids) (ha : a ∈ ids) :
    2 ≤ ids.length := by
  have hpos := List.length_pos_of_mem ha
  have := h.lengths
  omega

lemma IsRoute.mono (h : IsRoute own live ids)
    (hl : ∀ a b, [a, b] <:+: ids → live a b → live' a b) : IsRoute own live' ids :=
  ⟨h.lengths, h.starts, h.nodup, fun a b hab => hl a b hab (h.links a b hab)⟩

lemma IsRoute.take {n : Nat} (h : IsRoute own live ids) (hn : 1 < n) :
    IsRoute own live (ids.take n) where
  lengths := by
    rw [List.length_take]
    have := h.lengths
    omega
  starts := by
    intro a ha
    rw [List.head?_take, if_neg (by omega)] at ha
    exact h.starts a ha
  nodup := h.nodup.sublist (List.take_sublist n ids)
  links a b hab := h.links a b (hab.trans (List.take_prefix n ids).isInfix)

end routes

section cache

variable {own : ID → Bool} {live live' : ID → ID → Prop} {c : Cache} {path : Path}

/-- Every entry is a route, and there is an entry to overwrite. -/
structure Cache.Sound (own : ID → Bool) (live : ID → ID → Prop) (c : Cache) : Prop where
  entries : ∀ e ∈ c.cache, IsRoute own live e.path
  room : c.victim_ptr < c.cache.length

lemma Cache.sound_new {size : Nat} (h : 0 < size) : (Cache.new size).Sound own live where
  entries e he := by
    rw [List.eq_of_mem_replicate he]
    exact isRoute_nil
  room := by simpa [Cache.new] using h

lemma Cache.Sound.mono (h : c.Sound own live) (hl : ∀ a b, live a b → live' a b) :
    c.Sound own live' :=
  ⟨fun e he => (h.entries e he).mono fun a b _ => hl a b, h.room⟩

lemma Cache.Sound.set {entry : Path} (h : c.Sound own live) (i : Nat)
    (he : IsRoute own live entry.path) :
    Cache.Sound own live { c with cache := c.cache.set i entry } where
  entries e hmem := by
    rcases List.mem_or_eq_of_mem_set hmem with hold | rfl
    · exact h.entries e hold
    · exact he
  room := by simpa using h.room

lemma Cache.pickVictim_spec (h : c.Sound own live) :
    ∃ i victim_ptr, c.pickVictim = (i, { c with victim_ptr := victim_ptr }) ∧
      i < c.cache.length ∧ victim_ptr < c.cache.length := by
  rw [Cache.pickVictim]
  cases hf : c.cache.findIdx? fun p => p.length = 0 with
  | some i =>
    obtain ⟨hi, -⟩ := List.findIdx?_eq_some_iff_getElem.mp hf
    exact ⟨i, c.victim_ptr, rfl, hi, h.room⟩
  | none =>
    refine ⟨c.victim_ptr, _, rfl, h.room, ?_⟩
    have hroom := h.room
    have hsize : c.size = c.cache.length := rfl
    split_ifs
    · omega
    · omega

lemma Cache.addRoute_spec (h : c.Sound own live) (hp : IsRoute own live path.path) :
    ∃ c' prefix_len, c.addRoute path = some (c', prefix_len) ∧ c'.Sound own live ∧
      prefix_len ≤ path.length := by
  rw [Cache.addRoute]
  cases hf : c.cache.findIdx? (Cache.comparable path) with
  | some index =>
    obtain ⟨hi, hcmp, -⟩ := List.findIdx?_eq_some_iff_getElem.mp hf
    have hle := (commonPrefix_le c.cache[index].path path.path).2
    simp only [List.getElem?_eq_getElem hi, Option.bind_eq_bind, Option.bind_some]
    by_cases hn : commonPrefix c.cache[index].path path.path = c.cache[index].length
    · -- the entry is a beginning of the route and becomes the route
      have hwhole := append_drop_commonPrefix hn
      have hroom : c.cache[index].length +
          (path.path.drop (commonPrefix c.cache[index].path path.path)).length ≤ MAX_SR_LEN := by
        rw [Path.length, ← List.length_append, hwhole]
        exact hp.length_le
      rw [if_pos hn, Path.appendEach_eq hroom, hwhole]
      exact ⟨_, _, rfl, h.set index hp, hle⟩
    · rw [if_neg hn]
      exact ⟨_, _, rfl, h, hle⟩
  | none =>
    obtain ⟨i, victim_ptr, hv, hi, hptr⟩ := Cache.pickVictim_spec h
    simp only [hv, List.getElem?_eq_getElem hi, Option.bind_eq_bind, Option.bind_some]
    have hpos : 0 < path.length := by
      by_contra hzero
      have hall := List.findIdx?_eq_none_iff.mp hf c.cache[i] (List.getElem_mem hi)
      have hle := (commonPrefix_le c.cache[i].path path.path).2
      have hne : ¬commonPrefix c.cache[i].path path.path = path.length := by
        intro heq
        simp [Cache.comparable, heq] at hall
      simp only [Path.length] at hne hzero
      omega
    have hcopy := @CopyIntoPath_tail path 0 hpos
    rw [Int.natCast_zero, List.drop_zero] at hcopy
    rw [show c.cache[i].reset = Path.empty from rfl, hcopy]
    refine ⟨_, _, rfl, ?_, Nat.zero_le _⟩
    have hptr' : Cache.Sound own live { c with victim_ptr := victim_ptr } := ⟨h.entries, hptr⟩
    exact hptr'.set i hp

/-- A cut entry is a route that does not use the dead link. -/
lemma Cache.truncate_spec (dead₁ dead₂ : ID) (h : IsRoute own live path.path) :
    ∃ path', Cache.truncate dead₁ dead₂ path = some path' ∧
      IsRoute own (fun a b => live a b ∧ ¬(a = dead₁ ∧ b = dead₂)) path'.path := by
  rw [Cache.truncate]
  cases hf : firstLink dead₁ dead₂ path.path with
  | none =>
    refine ⟨path, rfl, h.mono fun a b hab hl => ⟨hl, ?_⟩⟩
    rintro ⟨rfl, rfl⟩
    exact firstLink_eq_none hf hab
  | some n =>
    obtain ⟨hlt, hno⟩ := firstLink_eq_some hf
    by_cases hn : n = 0
    · rw [hn]
      exact ⟨path.reset, rfl, isRoute_nil⟩
    · have hle := h.length_le
      simp only [hn, if_false]
      rw [Path.setLength, if_pos (by rw [Path.length]; omega)]
      refine ⟨_, rfl, (h.take (by omega)).mono fun a b hab hl => ⟨hl, ?_⟩⟩
      rintro ⟨rfl, rfl⟩
      exact hno hab

lemma Cache.noticeDeadLink_spec (dead₁ dead₂ : ID) (h : c.Sound own live) :
    ∃ c', c.noticeDeadLink dead₁ dead₂ = some c' ∧
      c'.Sound own fun a b => live a b ∧ ¬(a = dead₁ ∧ b = dead₂) := by
  have hall : ∀ entries : List Path, (∀ e ∈ entries, IsRoute own live e.path) →
      ∃ cut, entries.mapM (Cache.truncate dead₁ dead₂) = some cut ∧
        cut.length = entries.length ∧
        ∀ e ∈ cut, IsRoute own (fun a b => live a b ∧ ¬(a = dead₁ ∧ b = dead₂)) e.path := by
    intro entries hent
    induction entries with
    | nil => exact ⟨[], rfl, rfl, by simp⟩
    | cons e entries ih =>
      obtain ⟨e', he', hr⟩ := Cache.truncate_spec dead₁ dead₂
        (hent e List.mem_cons_self)
      obtain ⟨cut, hcut, hlen, hcr⟩ := ih fun e he => hent e (List.mem_cons_of_mem _ he)
      refine ⟨e' :: cut, ?_, by simp [hlen], ?_⟩
      · rw [List.mapM_cons, he', hcut]
        rfl
      · rintro f (_ | ⟨_, hf⟩)
        · exact hr
        · exact hcr f hf
  obtain ⟨cut, hcut, hlen, hcr⟩ := hall c.cache h.entries
  refine ⟨{ c with cache := cut }, ?_, hcr, ?_⟩
  · rw [Cache.noticeDeadLink, hcut]
    rfl
  · show c.victim_ptr < cut.length
    rw [hlen]
    exact h.room

end cache

section search

variable {c : Cache} {dest : ID} {see : Found → Nat → Path → Nat → Found}

lemma searchRoute_go_none {ps : List Path} {k : Nat}
    (h : Cache.searchRoute.go dest ps k = none) : ∀ p ∈ ps, dest ∉ p.path := by
  induction ps generalizing k with
  | nil => simp
  | cons p ps ih =>
    rw [Cache.searchRoute.go] at h
    split at h
    · simp at h
    · rename_i hp
      rintro q (_ | ⟨_, hq⟩)
      · exact List.idxOf?_eq_none_iff.mp hp
      · exact ih h q hq

/-- The answer of a search is the first entry from its start on that has the destination. -/
lemma searchRoute_go_some {ps : List Path} {k n j : Nat} {p : Path}
    (h : Cache.searchRoute.go dest ps k = some (n, p, j)) :
    ∃ i, j = k + i ∧ ps[i]? = some p ∧ p.path.idxOf? dest = some n ∧
      ∀ q ∈ ps.take i, dest ∉ q.path := by
  induction ps generalizing k with
  | nil => simp [Cache.searchRoute.go] at h
  | cons q ps ih =>
    rw [Cache.searchRoute.go] at h
    split at h
    · rename_i m hm
      simp only [Option.some.injEq, Prod.mk.injEq] at h
      obtain ⟨rfl, rfl, rfl⟩ := h
      exact ⟨0, by simp, by simp, hm, by simp⟩
    · rename_i hq
      obtain ⟨i, rfl, hi, hidx, hbefore⟩ := ih h
      refine ⟨i + 1, by omega, by simpa using hi, hidx, ?_⟩
      rw [List.take_succ_cons]
      rintro r (_ | ⟨_, hr⟩)
      · exact List.idxOf?_eq_none_iff.mp hq
      · exact hbefore r hr

/-- Rule for a search: what is kept by an entry without the destination and by a hit holds of all
the entries in the end. -/
lemma searchEach_rule (c : Cache) (dest : ID) (see : Found → Nat → Path → Nat → Found)
    {P : List Path → Found → Prop}
    (hskip : ∀ seen p f, P seen f → dest ∉ p.path → P (seen ++ [p]) f)
    (hsee : ∀ p f n i, P (c.cache.take i) f → c.cache[i]? = some p → p.path.idxOf? dest = some n →
      P (c.cache.take i ++ [p]) (see f n p i))
    {f : Found} (h : P [] f) : P c.cache (c.searchEach dest see c.size 0 f) := by
  have hmiss : ∀ ps seen f, P seen f → (∀ p ∈ ps, dest ∉ p.path) → P (seen ++ ps) f := by
    intro ps
    induction ps with
    | nil => simp
    | cons p ps ih =>
      intro seen f hP hps
      have hp := hskip seen p f hP (hps p List.mem_cons_self)
      rw [List.append_cons]
      exact ih _ f hp fun q hq => hps q (List.mem_cons_of_mem _ hq)
  suffices hgen : ∀ fuel index f, c.size ≤ index + fuel → P (c.cache.take index) f →
      P c.cache (c.searchEach dest see fuel index f) from hgen c.size 0 f (by omega) (by simpa using h)
  intro fuel
  induction fuel with
  | zero =>
    intro index f hfuel hP
    rw [Cache.searchEach]
    rwa [List.take_of_length_le (show c.cache.length ≤ index from hfuel)] at hP
  | succ fuel ih =>
    intro index f hfuel hP
    rw [Cache.searchEach, Cache.searchRoute]
    split
    · rename_i hnone
      have hall := hmiss _ _ _ hP (searchRoute_go_none hnone)
      rwa [List.take_append_drop] at hall
    · rename_i len path j hsome
      obtain ⟨i, rfl, hi, hidx, hbefore⟩ := searchRoute_go_some hsome
      have hP' := hmiss _ _ _ hP hbefore
      rw [← List.take_add] at hP'
      have hentry : c.cache[index + i]? = some path := by
        rwa [List.getElem?_drop] at hi
      have hlt := (List.getElem?_eq_some_iff.mp hentry).1
      have hsize : c.size = c.cache.length := rfl
      refine ih _ _ (by omega) ?_
      rw [List.take_add_one, hentry]
      exact hsee path f len _ hP' hentry hidx

/-- After the entries `seen`, the secondary cache `other` included as far as it was searched, the
locals hold a shortest way to the destination. -/
structure Found.Best (other : List Path) (dest : ID) (seen : List Path) (f : Found) : Prop where
  hit : f.min_cache ≠ 0 → f.route ∈ seen ∧ f.route.path.idxOf? dest = some f.min_length
  least : ∀ p ∈ seen, ∀ n, p.path.idxOf? dest = some n → f.min_cache ≠ 0 ∧ f.min_length ≤ n
  index : f.min_cache = 1 → ∃ i, f.min_index = some i ∧ other[i]? = some f.route
  start : f.min_cache = 0 → f.min_length = MAX_SR_LEN + 1

variable {other seen : List Path} {f : Found} {p : Path}

lemma Found.best_none : Found.none.Best other dest [] where
  hit h := absurd rfl h
  least p hp := absurd hp List.not_mem_nil
  index h := by simp [Found.none] at h
  start _ := rfl

lemma Found.Best.skip (h : f.Best other dest seen) (hp : dest ∉ p.path) :
    f.Best other dest (seen ++ [p]) where
  hit h0 := ⟨List.mem_append_left _ (h.hit h0).1, (h.hit h0).2⟩
  least q hq n hn := by
    rcases List.mem_append.mp hq with hq | hq
    · exact h.least q hq n hn
    · obtain rfl := List.mem_singleton.mp hq
      rw [List.idxOf?_eq_none_iff.mpr hp] at hn
      simp at hn
  index := h.index
  start := h.start

/-- A hit that is shorter takes over, in whichever cache. -/
lemma Found.Best.shorter {n : Nat} {f' : Found} (h : f.Best other dest seen)
    (hn : p.path.idxOf? dest = some n) (hlt : n < f.min_length) (hroute : f'.route = p)
    (hlen : f'.min_length = n) (hcache : f'.min_cache ≠ 0)
    (hindex : f'.min_cache = 1 → ∃ i, f'.min_index = some i ∧ other[i]? = some p) :
    f'.Best other dest (seen ++ [p]) where
  hit _ := by
    rw [hroute, hlen]
    exact ⟨List.mem_append_right _ List.mem_cons_self, hn⟩
  least q hq m hm := by
    refine ⟨hcache, ?_⟩
    rw [hlen]
    rcases List.mem_append.mp hq with hq | hq
    · have := (h.least q hq m hm).2
      omega
    · obtain rfl := List.mem_singleton.mp hq
      rw [hn, Option.some.injEq] at hm
      omega
  index h1 := by
    rw [hroute]
    exact hindex h1
  start h0 := absurd h0 hcache

lemma Found.Best.longer {n : Nat} {f' : Found} (h : f.Best other dest seen)
    (hn : p.path.idxOf? dest = some n) (hmax : n ≤ MAX_SR_LEN) (hle : ¬n < f.min_length)
    (hroute : f'.route = f.route) (hlen : f'.min_length = f.min_length)
    (hindex : f'.min_cache = 1 → f.min_cache = 1 ∧ f'.min_index = f.min_index)
    (hcache : f.min_cache ≠ 0 → f'.min_cache ≠ 0) : f'.Best other dest (seen ++ [p]) := by
  have h0 : f.min_cache ≠ 0 := by
    intro h0
    have := h.start h0
    omega
  refine ⟨fun _ => ?_, fun q hq m hm => ⟨hcache h0, ?_⟩, fun h1 => ?_, fun h1 => absurd h1 (hcache h0)⟩
  · rw [hroute, hlen]
    exact ⟨List.mem_append_left _ (h.hit h0).1, (h.hit h0).2⟩
  · rw [hlen]
    rcases List.mem_append.mp hq with hq | hq
    · exact (h.least q hq m hm).2
    · obtain rfl := List.mem_singleton.mp hq
      rw [hn, Option.some.injEq] at hm
      omega
  · obtain ⟨hc, hi⟩ := hindex h1
    rw [hroute, hi]
    exact h.index hc

end search

namespace MobiCache

variable {m : MobiCache} {live live' : ID → ID → Prop} {dest : ID} {route : Path}

/-- All the entries, used or not. -/
def cached (m : MobiCache) : List Path := m.primary_cache.cache ++ m.secondary_cache.cache

structure Sound (live : ID → ID → Prop) (m : MobiCache) : Prop where
  primary : m.primary_cache.Sound m.isOwn live
  secondary : m.secondary_cache.Sound m.isOwn live

lemma Sound.entries (h : m.Sound live) : ∀ e ∈ m.cached, IsRoute m.isOwn live e.path := by
  intro e he
  rcases List.mem_append.mp he with he | he
  · exact h.primary.entries e he
  · exact h.secondary.entries e he

lemma Sound.mono (h : m.Sound live) (hl : ∀ a b, live a b → live' a b) : m.Sound live' :=
  ⟨h.primary.mono hl, h.secondary.mono hl⟩

lemma sound_initial (net_id MAC_id : ID) : (initial net_id MAC_id).Sound live :=
  ⟨Cache.sound_new (by decide), Cache.sound_new (by decide)⟩

lemma idxOf_le_of_entry {c : Cache} {own : ID → Bool} {p : Path} {n : Nat} (h : c.Sound own live)
    (hp : p ∈ c.cache) (hn : p.path.idxOf? dest = some n) : n ≤ MAX_SR_LEN := by
  have hlt : n < p.path.length := by
    rw [List.idxOf?, List.findIdx?_eq_some_iff_getElem] at hn
    exact hn.1
  have := (h.entries p hp).length_le
  omega

/-- Both searches together find a shortest way to the destination over all the entries. -/
lemma search_spec (h : m.Sound live) (dest : ID) :
    (m.search dest).Best m.secondary_cache.cache dest m.cached := by
  have hprimary := searchEach_rule m.primary_cache dest Found.seePrimary
    (P := fun seen f => f.Best m.secondary_cache.cache dest seen ∧ f.min_cache ≠ 1)
    (fun seen p f hP hp => ⟨hP.1.skip hp, hP.2⟩) ?_ (f := Found.none) ⟨Found.best_none, by decide⟩
  · rw [search]
    refine searchEach_rule m.secondary_cache dest Found.seeSecondary
      (P := fun seen f => f.Best m.secondary_cache.cache dest (m.primary_cache.cache ++ seen))
      ?_ ?_ (by simpa using hprimary.1)
    · intro seen p f hP hp
      rw [← List.append_assoc]
      exact hP.skip hp
    · intro p f n i hP hi hn
      rw [← List.append_assoc, Found.seeSecondary]
      split_ifs with hlt
      · exact hP.shorter hn hlt rfl rfl Nat.one_ne_zero fun _ => ⟨i, rfl, hi⟩
      · exact hP.longer hn (idxOf_le_of_entry h.secondary (List.mem_of_getElem? hi) hn) hlt rfl rfl
          (fun h1 => ⟨h1, rfl⟩) id
  · intro p f n i hP hi hn
    rw [Found.seePrimary]
    split_ifs with hlt
    · refine ⟨hP.1.shorter hn hlt rfl rfl (by simp) (by simp), by simp⟩
    · exact ⟨hP.1.longer hn (idxOf_le_of_entry h.primary (List.mem_of_getElem? hi) hn) hlt rfl rfl
        (by simp) (by simp), by simp⟩

/-- A route of the least length from this node to the destination among the cached paths. -/
structure Shortest (m : MobiCache) (dest : ID) (route : Path) : Prop where
  cached : ∃ e ∈ m.cached, route.path <+: e.path
  first : ∀ a ∈ route.path.head?, m.isOwn a
  last : route.path.getLast? = some dest
  least : ∀ e ∈ m.cached, ∀ ids, ids <+: e.path → ids.getLast? = some dest →
    route.length ≤ ids.length

lemma Sound.shortest {f : Found} (hs : m.Sound live)
    (h : f.Best m.secondary_cache.cache dest m.cached) (h0 : f.min_cache ≠ 0) :
    m.Shortest dest { f.route with path := f.route.path.take (f.min_length + 1) } := by
  obtain ⟨hmem, hidx⟩ := h.hit h0
  rw [List.idxOf?, List.findIdx?_eq_some_iff_getElem] at hidx
  obtain ⟨hlt, hdest, -⟩ := hidx
  refine ⟨⟨f.route, hmem, List.take_prefix _ _⟩, fun a ha => ?_, ?_, ?_⟩
  · rw [List.head?_take, if_neg (Nat.succ_ne_zero _)] at ha
    exact (hs.entries f.route hmem).starts a ha
  · simp only [List.take_add_one, List.getElem?_eq_getElem hlt, Option.toList_some,
      List.getLast?_append, List.getLast?_singleton, Option.some_or, Option.some.injEq]
    simpa using hdest
  · intro e he ids hids hlast
    obtain ⟨rest, hrest⟩ := hids
    have hin : dest ∈ ids := List.mem_of_getLast? hlast
    have hin' : dest ∈ e.path := by
      rw [← hrest]
      exact List.mem_append_left rest hin
    cases hn : e.path.idxOf? dest with
    | none => exact absurd hin' (List.idxOf?_eq_none_iff.mp hn)
    | some n =>
      have hleast := (h.least e he n hn).2
      have hn' : n < ids.length := by
        by_contra hge
        rw [List.idxOf?, List.findIdx?_eq_some_iff_getElem] at hn
        obtain ⟨hlt', -, hno⟩ := hn
        obtain ⟨k, hk, hget⟩ := List.getElem_of_mem hin
        refine hno k (by omega) ?_
        have hk' : k < e.path.length := by omega
        have : e.path[k] = dest := by
          simp only [← hrest, List.getElem_append_left hk, hget]
        simpa using this
      simp only [Path.length, List.length_take]
      omega

lemma promote_spec {f : Found} (h : m.Sound live)
    (hf : f.Best m.secondary_cache.cache dest m.cached) (h1 : f.min_cache = 1) :
    ∃ m', m.promote f = some m' ∧ m'.net_id = m.net_id ∧ m'.MAC_id = m.MAC_id ∧ m'.Sound live := by
  obtain ⟨i, hi, hentry⟩ := hf.index h1
  have hroute := h.secondary.entries f.route (List.mem_of_getElem? hentry)
  obtain ⟨primary, prefix_len, hadd, hsound, hle⟩ := Cache.addRoute_spec h.primary hroute
  have hkept : ∃ kept, cutTo f.route prefix_len = some kept := by
    rw [cutTo]
    split_ifs with hpos
    · have hmax : f.route.length ≤ MAX_SR_LEN := hroute.length_le
      exact ⟨_, by rw [Path.setLength, if_pos ⟨hle, hle.trans hmax⟩]⟩
    · exact ⟨_, rfl⟩
  obtain ⟨kept, hk⟩ := hkept
  have hkill : kept.setLength 0 = some { kept with path := [] } := by
    rw [Path.setLength, if_pos ⟨Nat.zero_le _, Nat.zero_le _⟩, List.take_zero]
  refine ⟨⟨m.net_id, m.MAC_id, primary, { m.secondary_cache with
    cache := m.secondary_cache.cache.set i { kept with path := [] } }⟩, ?_, rfl, rfl, hsound,
    h.secondary.set i isRoute_nil⟩
  simp only [promote, hi, hentry, hadd, Option.bind_eq_bind, Option.bind_some, hk, hkill]

/-- What a call of `findRoute` answers in a sound state. -/
lemma findRoute_spec (h : m.Sound live) (hid : m.net_id ≠ invalid_addr) (dest : ID)
    (for_me : Bool) :
    ∃ m' answer, m.findRoute dest for_me = some (m', answer) ∧ m'.net_id = m.net_id ∧
      m'.MAC_id = m.MAC_id ∧ m'.Sound live ∧
      (answer.isSome ↔ ∃ e ∈ m.cached, dest ∈ e.path) ∧
      ∀ route ∈ answer, m.Shortest dest route := by
  have hbest := search_spec h dest
  obtain ⟨m', hm', hnet, hmac, hsound⟩ : ∃ m', (if (m.search dest).min_cache = 1 ∧ for_me
      then m.promote (m.search dest) else some m) = some m' ∧ m'.net_id = m.net_id ∧
      m'.MAC_id = m.MAC_id ∧ m'.Sound live := by
    split_ifs with hp
    · exact promote_spec h hbest hp.1
    · exact ⟨m, rfl, rfl, rfl, h⟩
  rw [findRoute, if_neg hid]
  simp only [hm', Option.bind_some]
  by_cases h0 : (m.search dest).min_cache = 0
  · rw [if_neg (not_not.mpr h0)]
    refine ⟨m', none, rfl, hnet, hmac, hsound, ?_, by simp⟩
    simp only [Option.isSome_none, Bool.false_eq_true, false_iff]
    rintro ⟨e, he, hdest⟩
    cases hn : e.path.idxOf? dest with
    | none => exact List.idxOf?_eq_none_iff.mp hn hdest
    | some n => exact (hbest.least e he n hn).1 h0
  · obtain ⟨hmem, hidx⟩ := hbest.hit h0
    rw [if_pos h0]
    have hlt : (m.search dest).min_length < (m.search dest).route.path.length := by
      rw [List.idxOf?, List.findIdx?_eq_some_iff_getElem] at hidx
      exact hidx.1
    have hmax := (h.entries _ hmem).length_le
    have hfits : (m.search dest).min_length + 1 ≤ (m.search dest).route.length ∧
        (m.search dest).min_length + 1 ≤ MAX_SR_LEN := by
      simp only [Path.length]
      omega
    rw [Path.setLength, if_pos hfits]
    refine ⟨m', _, rfl, hnet, hmac, hsound, ?_, ?_⟩
    · refine iff_of_true rfl ⟨_, hmem, ?_⟩
      by_contra hno
      rw [List.idxOf?_eq_none_iff.mpr hno] at hidx
      simp at hidx
    · intro route hroute
      obtain rfl := Option.some.inj hroute
      exact h.shortest hbest h0

lemma noticeDeadLink_spec (dead₁ dead₂ : ID) (h : m.Sound live) :
    ∃ m', m.noticeDeadLink dead₁ dead₂ = some m' ∧ m'.net_id = m.net_id ∧ m'.MAC_id = m.MAC_id ∧
      m'.Sound fun a b => live a b ∧ ¬(a = dead₁ ∧ b = dead₂) := by
  obtain ⟨primary, hp, hps⟩ := Cache.noticeDeadLink_spec dead₁ dead₂ h.primary
  obtain ⟨secondary, hd, hds⟩ :=
    Cache.noticeDeadLink_spec dead₁ dead₂ h.secondary
  refine ⟨{ m with primary_cache := primary, secondary_cache := secondary }, ?_, rfl, rfl, hps, hds⟩
  rw [noticeDeadLink]
  simp only [hp, hd, Option.bind_eq_bind, Option.bind_some]

end MobiCache

/-- The links a call tells of: those of the path, and for a path this node is not on the link to
the node it was overheard from. -/
def CacheCall.Supplies (m : MobiCache) : CacheCall → ID → ID → Prop
  | .addRoute route, a, b => [a, b] <:+: route.path
  | .noticeRouteUsed p, a, b => [a, b] <:+: p.path ∨
      (∀ id ∈ p.path, ¬m.isOwn id) ∧ a = m.net_id ∧ p.path[(p.index - 1).toNat]? = some b
  | .findRoute _ _, _, _ => False
  | .noticeDeadLink _ _, _, _ => False

/-- The supplied paths repeat no id, fit the header and have their iterator in the path. -/
def CacheCall.Fits : CacheCall → Prop
  | .addRoute route => route.path.Nodup ∧ route.length ≤ MAX_SR_LEN
  | .noticeRouteUsed p =>
    p.path.Nodup ∧ p.length ≤ MAX_SR_LEN ∧ 0 ≤ p.index ∧ p.index ≤ p.length
  | .findRoute _ _ => True
  | .noticeDeadLink _ _ => True

namespace MobiCache

variable {m : MobiCache} {live live' : ID → ID → Prop} {dest : ID} {route p : Path}

lemma pre_addRoute_spec (hid : m.net_id ≠ invalid_addr) (hfit : (CacheCall.addRoute route).Fits)
    (hlive : ∀ a b, (CacheCall.addRoute route).Supplies m a b → live a b) :
    ∃ rt, m.pre_addRoute route = some rt ∧ ∀ r ∈ rt, IsRoute m.isOwn live r.path := by
  rw [pre_addRoute, if_neg hid]
  split_ifs with hlen
  · exact ⟨none, rfl, by simp⟩
  · cases hh : route.path.head? with
    | none =>
      rw [List.head?_eq_none_iff] at hh
      simp [Path.length, hh] at hlen
    | some first =>
      by_cases hown : m.isOwn first
      · refine ⟨some route, by simp [hown], ?_⟩
        rintro r hr
        obtain rfl := Option.some.inj hr
        refine ⟨.inr ⟨Nat.not_lt.mp hlen, hfit.2⟩, ?_, hfit.1, hlive⟩
        intro a ha
        rw [hh] at ha
        exact Option.some.inj ha ▸ hown
      · exact ⟨none, by simp [hown], by simp⟩

/-- The part of a path that starts at this node. -/
lemma isRoute_drop {c : Nat} (hfit : (CacheCall.noticeRouteUsed p).Fits)
    (hlive : ∀ a b, (CacheCall.noticeRouteUsed p).Supplies m a b → live a b)
    (hc : p.path.findIdx m.isOwn = c) (hlen : c + 1 < p.length) :
    IsRoute m.isOwn live (p.path.drop c) where
  lengths := by
    rw [List.length_drop]
    have := hfit.2.1
    simp only [Path.length] at this hlen
    omega
  starts := by
    intro a ha
    have hlt : c < p.path.length := by
      simp only [Path.length] at hlen
      omega
    rw [List.head?_drop, List.getElem?_eq_getElem hlt] at ha
    rw [← Option.some.inj ha]
    subst hc
    exact List.findIdx_getElem
  nodup := hfit.1.sublist (List.drop_sublist c p.path)
  links a b hab := hlive a b (.inl (hab.trans (List.drop_suffix c p.path).isInfix))

/-- The rest of an overheard path behind this node. -/
lemma isRoute_overheard {i k : Nat} (hfit : (CacheCall.noticeRouteUsed p).Fits)
    (hlive : ∀ a b, (CacheCall.noticeRouteUsed p).Supplies m a b → live a b)
    (hout : ∀ id ∈ p.path, ¬m.isOwn id) (hi : (p.index - 1).toNat = i) (hlt : i < p.length)
    (hk : k + 2 = MAX_SR_LEN) :
    IsRoute m.isOwn live (m.net_id :: (p.path.drop i).take (k + 1)) where
  lengths := by
    rw [List.length_cons, List.length_take, List.length_drop]
    simp only [Path.length] at hlt
    omega
  starts := by simp [isOwn]
  nodup := by
    have hsub := (List.take_sublist (k + 1) _).trans (List.drop_sublist i p.path)
    refine List.nodup_cons.mpr ⟨fun hmem => ?_, hfit.1.sublist hsub⟩
    exact hout m.net_id (hsub.subset hmem) (by simp [isOwn])
  links := by
    intro a b hab
    rw [List.infix_cons_iff] at hab
    rcases hab with hab | hab
    · have hget : p.path[i]? = some b := by
        rw [List.drop_eq_getElem_cons hlt, List.take_succ_cons] at hab
        simp only [List.cons_prefix_cons, List.nil_prefix, and_true] at hab
        rw [hab.2, List.getElem?_eq_getElem hlt]
      rw [List.cons_prefix_cons] at hab
      exact hlive a b (.inr ⟨hout, hab.1, by rwa [hi]⟩)
    · have hinf := (List.take_prefix (k + 1) (p.path.drop i)).isInfix
      exact hlive a b (.inl ((hab.trans hinf).trans (List.drop_suffix i p.path).isInfix))

lemma pre_noticeRouteUsed_spec (hfit : (CacheCall.noticeRouteUsed p).Fits)
    (hlive : ∀ a b, (CacheCall.noticeRouteUsed p).Supplies m a b → live a b) :
    ∃ stub, m.pre_noticeRouteUsed p = some stub ∧ ∀ r ∈ stub, IsRoute m.isOwn live r.path := by
  unfold pre_noticeRouteUsed
  dsimp only
  have hle : p.path.findIdx m.isOwn ≤ p.length := List.findIdx_le_length
  split_ifs with hlen hlast hout hidx hneg
  · exact ⟨none, rfl, by simp⟩
  · exact ⟨none, rfl, by simp⟩
  · exact ⟨none, rfl, by simp⟩
  · have := hfit.2.2.1
    omega
  · -- overheard
    have hi : (p.index - 1).toNat < p.length := by
      have := hfit.2.2.2
      omega
    have hown : ∀ id ∈ p.path, ¬m.isOwn id := by
      intro id hid
      have := List.findIdx_eq_length.mp hout id hid
      simp [this]
    have hroom : Path.appendToPath Path.empty m.net_id = some ⟨[m.net_id], 0⟩ := rfl
    have hfull : (⟨[m.net_id], 0⟩ : Path).length ≤ MAX_SR_LEN := Nat.le_add_left 1 15
    simp only [hroom, Option.bind_eq_bind, Option.bind_some, Path.appendWhileRoom_eq hfull]
    refine ⟨_, rfl, fun r hr => ?_⟩
    obtain rfl := Option.some.inj hr
    exact isRoute_overheard (k := 14) hfit hlive hown rfl hi rfl
  · -- on the path
    have hlt : p.path.findIdx m.isOwn + 1 < p.length := by omega
    rw [CopyIntoPath_tail (by omega)]
    refine ⟨_, rfl, fun r hr => ?_⟩
    obtain rfl := Option.some.inj hr
    exact isRoute_drop hfit hlive rfl hlt

lemma addRoute_spec (hs : m.Sound live) (hid : m.net_id ≠ invalid_addr)
    (hfit : (CacheCall.addRoute route).Fits)
    (hlive : ∀ a b, (CacheCall.addRoute route).Supplies m a b → live a b) :
    ∃ m', m.addRoute route = some m' ∧ m'.net_id = m.net_id ∧ m'.MAC_id = m.MAC_id ∧
      m'.Sound live := by
  obtain ⟨rt, hpre, hrt⟩ := pre_addRoute_spec hid hfit hlive
  cases rt with
  | none => exact ⟨m, by simp [addRoute, hpre], rfl, rfl, hs⟩
  | some r =>
    obtain ⟨primary, n, hadd, hsound, -⟩ := Cache.addRoute_spec hs.primary (hrt r rfl)
    exact ⟨{ m with primary_cache := primary }, by simp [addRoute, hpre, hadd], rfl, rfl, hsound,
      hs.secondary⟩

lemma noticeRouteUsed_spec (hs : m.Sound live) (hfit : (CacheCall.noticeRouteUsed p).Fits)
    (hlive : ∀ a b, (CacheCall.noticeRouteUsed p).Supplies m a b → live a b) :
    ∃ m', m.noticeRouteUsed p = some m' ∧ m'.net_id = m.net_id ∧ m'.MAC_id = m.MAC_id ∧
      m'.Sound live := by
  obtain ⟨stub, hpre, hstub⟩ := pre_noticeRouteUsed_spec hfit hlive
  cases stub with
  | none => exact ⟨m, by simp [noticeRouteUsed, hpre], rfl, rfl, hs⟩
  | some r =>
    obtain ⟨secondary, n, hadd, hsound, -⟩ := Cache.addRoute_spec hs.secondary (hstub r rfl)
    exact ⟨{ m with secondary_cache := secondary }, by simp [noticeRouteUsed, hpre, hadd], rfl,
      rfl, hs.primary, hsound⟩

/-- A link is live after the calls: one of them supplied it, and none after that noticed it dead. -/
def Live (m : MobiCache) (calls : List CacheCall) (a b : ID) : Prop :=
  ∃ before call after, calls = before ++ call :: after ∧ call.Supplies m a b ∧
    CacheCall.noticeDeadLink a b ∉ after

lemma Live.snoc {calls : List CacheCall} {a b : ID} (h : m.Live calls a b) (call : CacheCall)
    (hne : call ≠ .noticeDeadLink a b) : m.Live (calls ++ [call]) a b := by
  obtain ⟨before, c, after, rfl, hsup, hdead⟩ := h
  refine ⟨before, c, after ++ [call], by simp, hsup, fun hmem => ?_⟩
  rcases List.mem_append.mp hmem with hmem | hmem
  · exact hdead hmem
  · exact hne (List.mem_singleton.mp hmem).symm

lemma live_supplied {calls : List CacheCall} {call : CacheCall} {a b : ID}
    (h : call.Supplies m a b) : m.Live (calls ++ [call]) a b :=
  ⟨calls, call, [], rfl, h, List.not_mem_nil⟩

/-- A live link has been supplied again since it was last noticed dead. -/
lemma Live.since {before after : List CacheCall} {a b : ID}
    (h : m.Live (before ++ CacheCall.noticeDeadLink a b :: after) a b) :
    ∃ call ∈ after, call.Supplies m a b := by
  obtain ⟨front, call, rest, heq, hsup, hdead⟩ := h
  rcases List.append_eq_append_iff.mp heq with ⟨mid, rfl, hmid⟩ | ⟨mid, rfl, hmid⟩
  · cases mid with
    | nil =>
      rw [List.nil_append, List.cons.injEq] at hmid
      rw [← hmid.1] at hsup
      exact hsup.elim
    | cons x mid =>
      rw [List.cons_append, List.cons.injEq] at hmid
      exact ⟨call, hmid.2 ▸ List.mem_append_right mid List.mem_cons_self, hsup⟩
  · cases mid with
    | nil =>
      rw [List.nil_append, List.cons.injEq] at hmid
      rw [hmid.1] at hsup
      exact hsup.elim
    | cons x mid =>
      rw [List.cons_append, List.cons.injEq] at hmid
      exact absurd (hmid.2 ▸ List.mem_append_right mid List.mem_cons_self) hdead

/-- A link is supplied by the same calls whatever the caches hold. -/
lemma supplies_congr {m' : MobiCache} (hnet : m'.net_id = m.net_id) (hmac : m'.MAC_id = m.MAC_id)
    (call : CacheCall) (a b : ID) : call.Supplies m' a b ↔ call.Supplies m a b := by
  cases call <;> simp only [CacheCall.Supplies, isOwn, hnet, hmac]

lemma live_congr {m' : MobiCache} (hnet : m'.net_id = m.net_id) (hmac : m'.MAC_id = m.MAC_id)
    (calls : List CacheCall) (a b : ID) : m'.Live calls a b ↔ m.Live calls a b := by
  simp only [Live, supplies_congr hnet hmac]

/-- Step lemma: a call keeps the caches sound for the links live after it. -/
lemma step_sound {calls : List CacheCall} {call : CacheCall} (hs : m.Sound (m.Live calls))
    (hid : m.net_id ≠ invalid_addr) (hfit : call.Fits) :
    ∃ m' answer, m.step call = some (m', answer) ∧ m'.net_id = m.net_id ∧ m'.MAC_id = m.MAC_id ∧
      m'.Sound (m.Live (calls ++ [call])) := by
  cases call with
  | addRoute route =>
    have hs' := hs.mono fun a b hab => hab.snoc (.addRoute route) (by simp)
    obtain ⟨m', hm', hnet, hmac, hsound⟩ := addRoute_spec hs' hid hfit fun a b => live_supplied
    exact ⟨m', none, by simp [step, hm'], hnet, hmac, hsound⟩
  | noticeRouteUsed p =>
    have hs' := hs.mono fun a b hab => hab.snoc (.noticeRouteUsed p) (by simp)
    obtain ⟨m', hm', hnet, hmac, hsound⟩ := noticeRouteUsed_spec hs' hfit fun a b => live_supplied
    exact ⟨m', none, by simp [step, hm'], hnet, hmac, hsound⟩
  | findRoute dest for_me =>
    have hs' := hs.mono fun a b hab => hab.snoc (.findRoute dest for_me) (by simp)
    obtain ⟨m', answer, hm', hnet, hmac, hsound, -⟩ := findRoute_spec hs' hid dest for_me
    exact ⟨m', answer, hm', hnet, hmac, hsound⟩
  | noticeDeadLink dead₁ dead₂ =>
    obtain ⟨m', hm', hnet, hmac, hsound⟩ := noticeDeadLink_spec dead₁ dead₂ hs
    refine ⟨m', none, by simp [step, hm'], hnet, hmac, hsound.mono fun a b hab => ?_⟩
    refine hab.1.snoc _ fun heq => hab.2 ?_
    simp only [CacheCall.noticeDeadLink.injEq] at heq
    exact ⟨heq.1.symm, heq.2.symm⟩

/-- Run lemma: the caches stay sound for the links live after the calls. -/
lemma run_sound (net_id MAC_id : ID) (hid : net_id ≠ invalid_addr) (calls : List CacheCall)
    (hfit : ∀ call ∈ calls, call.Fits) :
    ∃ m answers, run step (initial net_id MAC_id) calls = some (m, answers) ∧
      m.net_id = net_id ∧ m.MAC_id = MAC_id ∧ m.Sound ((initial net_id MAC_id).Live calls) := by
  refine run_history (R := fun (m : MobiCache) calls => m.net_id = net_id ∧ m.MAC_id = MAC_id ∧
    m.Sound ((initial net_id MAC_id).Live calls)) (fun m calls call hR hfits => ?_)
    ⟨rfl, rfl, sound_initial net_id MAC_id⟩ (EachStep.of_mem hfit)
  obtain ⟨hnet, hmac, hs⟩ := hR
  have hs' := hs.mono fun a b => (live_congr hnet hmac calls a b).mpr
  obtain ⟨m', answer, hm', hnet', hmac', hsound⟩ :=
    step_sound hs' (by rw [hnet]; exact hid) hfits
  exact ⟨m', answer, hm', hnet'.trans hnet, hmac'.trans hmac,
    hsound.mono fun a b => (live_congr hnet hmac _ a b).mp⟩

/-- The id of a node with the given address. -/
def ip (addr : Nat) : ID := ⟨addr, .IP⟩

/-- A route in use that is overheard and found, cut at a dead link and found again. -/
def overheardCalls : List CacheCall :=
  [.noticeRouteUsed ⟨[ip 2, ip 3, ip 4], 1⟩, .findRoute (ip 4) true, .noticeDeadLink (ip 2) (ip 3)]

end MobiCache

end NetworkSimulator.Dsr
