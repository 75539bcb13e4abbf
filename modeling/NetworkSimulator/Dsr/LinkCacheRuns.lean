import Mathlib.Algebra.Order.BigOperators.Group.List
import NetworkSimulator.Dsr.LinkCache
import NetworkSimulator.Library.Runs

/-!
# Runs of the link cache

Over every run of calls the cache holds only links that have been told of and not been given up since, its search arrays
are exact whenever they are not due again, and so a route that it gives out is one of fewest hops whose links have not
expired.
-/

namespace NetworkSimulator.Dsr
open Library

section update
variable {v : ℕ} {f : Link → Link} {ls : List Link}

lemma map_updateLink (hf : ∀ l, (f l).ln_dst = l.ln_dst) :
    (updateLink v f ls).map Link.ln_dst = ls.map Link.ln_dst := by
  induction ls with
  | nil => rfl
  | cons l ls ih =>
    rw [updateLink]
    split_ifs
    · rw [List.map_cons, List.map_cons, hf]
    · rw [List.map_cons, List.map_cons, ih]

lemma mem_updateLink {l : Link} (h : l ∈ updateLink v f ls) : l ∈ ls ∨ ∃ l' ∈ ls, l'.ln_dst = v ∧ l = f l' := by
  induction ls with
  | nil => exact absurd h List.not_mem_nil
  | cons l' ls ih =>
    rw [updateLink] at h
    split_ifs at h with hdst
    · rcases List.mem_cons.mp h with rfl | h
      · exact Or.inr ⟨l', List.mem_cons_self, hdst, rfl⟩
      · exact Or.inl (List.mem_cons_of_mem l' h)
    · rcases List.mem_cons.mp h with rfl | h
      · exact Or.inl List.mem_cons_self
      · rcases ih h with h | ⟨l'', hl'', hdst', rfl⟩
        · exact Or.inl (List.mem_cons_of_mem l' h)
        · exact Or.inr ⟨l'', List.mem_cons_of_mem l' hl'', hdst', rfl⟩

lemma find?_updateLink (hf : ∀ l, (f l).ln_dst = l.ln_dst) (w : ℕ) :
    (updateLink v f ls).find? (fun l => l.ln_dst = w) =
      (ls.find? fun l => l.ln_dst = w).map fun l => if w = v then f l else l := by
  induction ls with
  | nil => rfl
  | cons l ls ih =>
    rw [updateLink]
    by_cases hv : l.ln_dst = v
    · rw [if_pos hv]
      by_cases hw : l.ln_dst = w
      · rw [List.find?_cons_of_pos (by simpa [hf] using hw), List.find?_cons_of_pos (by simpa using hw),
          Option.map_some, if_pos (hw.symm.trans hv)]
      · have hne : w ≠ v := fun heq => hw (hv.trans heq.symm)
        rw [List.find?_cons_of_neg (by simpa [hf] using hw), List.find?_cons_of_neg (by simpa using hw)]
        simp only [if_neg hne, Option.map_id']
    · rw [if_neg hv]
      by_cases hw : l.ln_dst = w
      · have hne : w ≠ v := fun heq => hv (hw.trans heq)
        rw [List.find?_cons_of_pos (by simpa using hw), List.find?_cons_of_pos (by simpa using hw), Option.map_some,
          if_neg hne]
      · rw [List.find?_cons_of_neg (by simpa using hw), List.find?_cons_of_neg (by simpa using hw), ih]

end update

lemma ShortestPaths.Exact.congr {lcache lcache' : ℕ → List Link} {s : ℕ} {p : ShortestPaths}
    (h : p.Exact lcache s) (hlinked : LinkedTo lcache' = LinkedTo lcache) : p.Exact lcache' s := by
  refine ⟨h.source, ?_, ?_, ?_⟩ <;> rw [hlinked]
  · exact h.dist
  · exact h.reached
  · exact h.tree

namespace LinkCache

/-- The cache holds live links between nodes of the arrays, and the arrays are exact unless they are due. -/
structure Sound (live : ℕ → ℕ → Prop) (c : LinkCache) : Prop where
  self : c.net_id.addr ∈ lcNodes
  nodes : ∀ u, ∀ l ∈ c.lcache u, u ∈ lcNodes
  range : InRange c.lcache
  up : ∀ u, ∀ l ∈ c.lcache u, l.ln_flags = true
  live : ∀ u, ∀ l ∈ c.lcache u, live u l.ln_dst
  distinct : ∀ u, ((c.lcache u).map Link.ln_dst).Nodup
  fresh : c.dirty ≤ c.clock ∨ c.paths.Exact c.lcache c.net_id.addr

/-- What stays the same in every call. -/
structure Same (c c' : LinkCache) : Prop where
  net_id : c'.net_id = c.net_id
  MAC_id : c'.MAC_id = c.MAC_id
  clock : c'.clock = c.clock

variable {live live' : ℕ → ℕ → Prop} {c : LinkCache} {u v : ℕ} {timeout : ℚ}

lemma Same.trans {c' c'' : LinkCache} (h : Same c c') (h' : Same c' c'') : Same c c'' :=
  ⟨h'.net_id.trans h.net_id, h'.MAC_id.trans h.MAC_id, h'.clock.trans h.clock⟩

lemma findLink_eq_none : c.findLink u v = none ↔ v ∉ (c.lcache u).map Link.ln_dst := by
  unfold findLink
  rw [List.find?_eq_none, List.mem_map]
  constructor
  · rintro h ⟨l, hl, hdst⟩
    exact h l hl (decide_eq_true hdst)
  · intro h l hl hdst
    exact h ⟨l, hl, of_decide_eq_true hdst⟩

lemma findLink_eq_some {l : Link} (h : c.findLink u v = some l) : l ∈ c.lcache u ∧ l.ln_dst = v :=
  ⟨List.mem_of_find?_eq_some h, by simpa using List.find?_some h⟩

lemma linkedTo_congr {lcache lcache' : ℕ → List Link}
    (hdst : ∀ u, (lcache' u).map Link.ln_dst = (lcache u).map Link.ln_dst)
    (hup : ∀ u, ∀ l ∈ lcache u, l.ln_flags = true) (hup' : ∀ u, ∀ l ∈ lcache' u, l.ln_flags = true) :
    LinkedTo lcache' = LinkedTo lcache := by
  have hmem : ∀ (m : ℕ → List Link), (∀ u, ∀ l ∈ m u, l.ln_flags = true) → ∀ u v k,
      LinkedTo m u v k ↔ k = 1 ∧ v ∈ (m u).map Link.ln_dst := by
    intro m hm u v k
    unfold LinkedTo
    rw [List.mem_map]
    refine and_congr_right fun _ => ⟨?_, ?_⟩
    · rintro ⟨l, hl, hdst, -⟩
      exact ⟨l, hl, hdst⟩
    · rintro ⟨l, hl, hdst⟩
      exact ⟨l, hl, hdst, hm u l hl⟩
  funext u v k
  rw [hmem lcache' hup', hmem lcache hup, hdst]

/-- The data of links change but not their ends. -/
lemma Sound.relabel (h : c.Sound live) {f : Link → Link} (hdst : ∀ l, (f l).ln_dst = l.ln_dst)
    (hcost : ∀ l, l.ln_cost = 1 → (f l).ln_cost = 1) (hflag : ∀ l, l.ln_flags = true → (f l).ln_flags = true)
    (exptable : ℕ → ℚ) :
    Sound live { c with lcache := Function.update c.lcache u (updateLink v f (c.lcache u)), exptable } := by
  have hsame : ∀ w, (Function.update c.lcache u (updateLink v f (c.lcache u)) w).map Link.ln_dst =
      (c.lcache w).map Link.ln_dst := by
    intro w
    by_cases hw : w = u
    · rw [hw, Function.update_self, map_updateLink hdst]
    · rw [Function.update_of_ne hw]
  have hold : ∀ w, ∀ l ∈ Function.update c.lcache u (updateLink v f (c.lcache u)) w,
      ∃ l' ∈ c.lcache w, l = l' ∨ l = f l' := by
    intro w l hl
    by_cases hw : w = u
    · rw [hw, Function.update_self] at hl
      rcases mem_updateLink hl with hl | ⟨l', hl', -, rfl⟩
      · exact ⟨l, hw ▸ hl, Or.inl rfl⟩
      · exact ⟨l', hw ▸ hl', Or.inr rfl⟩
    · rw [Function.update_of_ne hw] at hl
      exact ⟨l, hl, Or.inl rfl⟩
  have hup : ∀ w, ∀ l ∈ Function.update c.lcache u (updateLink v f (c.lcache u)) w, l.ln_flags = true := by
    intro w l hl
    obtain ⟨l', hl', rfl | rfl⟩ := hold w l hl
    · exact h.up w l hl'
    · exact hflag l' (h.up w l' hl')
  refine ⟨h.self, ?_, ⟨?_, ?_⟩, hup, ?_, ?_, ?_⟩
  · intro w l hl
    obtain ⟨l', hl', -⟩ := hold w l hl
    exact h.nodes w l' hl'
  · intro w l hl
    obtain ⟨l', hl', rfl | rfl⟩ := hold w l hl
    · exact h.range.dst w l hl'
    · rw [hdst]
      exact h.range.dst w l' hl'
  · intro w l hl
    obtain ⟨l', hl', rfl | rfl⟩ := hold w l hl
    · exact h.range.cost w l hl'
    · exact hcost l' (h.range.cost w l' hl')
  · intro w l hl
    obtain ⟨l', hl', rfl | rfl⟩ := hold w l hl
    · exact h.live w l hl'
    · rw [hdst]
      exact h.live w l' hl'
  · intro w
    dsimp only
    rw [hsame]
    exact h.distinct w
  · exact h.fresh.imp_right fun hexact => hexact.congr (linkedTo_congr hsame h.up hup)

variable (timeout) in
lemma Sound.addDirection (h : c.Sound live) (hu : u ∈ lcNodes) (hv : v ∈ lcNodes) (hlive : live u v) :
    (c.addDirection u v timeout).Sound live ∧ Same c (c.addDirection u v timeout) := by
  unfold LinkCache.addDirection
  cases hfind : c.findLink u v with
  | none =>
    have hold : ∀ w, ∀ l ∈ Function.update c.lcache u (⟨v, true, 1, timeout⟩ :: c.lcache u) w,
        l ∈ c.lcache w ∨ w = u ∧ l = ⟨v, true, 1, timeout⟩ := by
      intro w l hl
      by_cases hw : w = u
      · rw [hw, Function.update_self] at hl
        rcases List.mem_cons.mp hl with rfl | hl
        · exact Or.inr ⟨hw, rfl⟩
        · exact Or.inl (hw ▸ hl)
      · rw [Function.update_of_ne hw] at hl
        exact Or.inl hl
    refine ⟨⟨h.self, ?_, ⟨?_, ?_⟩, ?_, ?_, ?_, Or.inl le_rfl⟩, ⟨rfl, rfl, rfl⟩⟩
    · intro w l hl
      rcases hold w l hl with hl | ⟨rfl, -⟩
      · exact h.nodes w l hl
      · exact hu
    · intro w l hl
      rcases hold w l hl with hl | ⟨-, rfl⟩
      · exact h.range.dst w l hl
      · exact hv
    · intro w l hl
      rcases hold w l hl with hl | ⟨-, rfl⟩
      · exact h.range.cost w l hl
      · rfl
    · intro w l hl
      rcases hold w l hl with hl | ⟨-, rfl⟩
      · exact h.up w l hl
      · rfl
    · intro w l hl
      rcases hold w l hl with hl | ⟨rfl, rfl⟩
      · exact h.live w l hl
      · exact hlive
    · intro w
      dsimp only
      by_cases hw : w = u
      · rw [hw, Function.update_self, List.map_cons, List.nodup_cons]
        exact ⟨findLink_eq_none.mp hfind, h.distinct u⟩
      · rw [Function.update_of_ne hw]
        exact h.distinct w
  | some l =>
    obtain ⟨hl, -⟩ := findLink_eq_some hfind
    have hsound := h.relabel (u := u) (v := v)
      (f := fun l => { l with ln_flags := true, ln_cost := 1, ln_timeout := timeout }) (fun _ => rfl) (fun _ _ => rfl)
      (fun _ _ => rfl) c.exptable
    dsimp only
    rw [if_pos (h.up u l hl)]
    exact ⟨hsound, ⟨rfl, rfl, rfl⟩⟩

variable (timeout) in
lemma Sound.addLink (h : c.Sound live) (hu : u ∈ lcNodes) (hv : v ∈ lcNodes) (huv : live u v) (hvu : live v u) :
    (c.addLink u v timeout).Sound live ∧ Same c (c.addLink u v timeout) := by
  obtain ⟨hsound, hsame⟩ := h.addDirection timeout hu hv huv
  obtain ⟨hsound', hsame'⟩ := hsound.addDirection timeout hv hu hvu
  exact ⟨hsound', hsame.trans hsame'⟩

lemma Sound.addPath (ids : List ID) (h : c.Sound live)
    (hlive : ∀ a b, [a, b] <:+: ids → a.addr ∈ lcNodes ∧ b.addr ∈ lcNodes ∧ live a.addr b.addr ∧ live b.addr a.addr) :
    (c.addPath (ids.map ID.addr)).Sound live ∧ Same c (c.addPath (ids.map ID.addr)) := by
  induction ids generalizing c with
  | nil => exact ⟨h, rfl, rfl, rfl⟩
  | cons a ids ih =>
    cases ids with
    | nil => exact ⟨h, rfl, rfl, rfl⟩
    | cons b ids =>
      obtain ⟨ha, hb, hab, hba⟩ := hlive a b ⟨[], ids, rfl⟩
      obtain ⟨hsound, hsame⟩ := h.addLink (c.find_timeout a.addr b.addr) ha hb hab hba
      obtain ⟨hsound', hsame'⟩ := ih hsound fun x y hxy => hlive x y (hxy.trans (List.suffix_cons a _).isInfix)
      exact ⟨hsound', hsame.trans hsame'⟩

/-- A link is taken out. -/
lemma Sound.removeLink (h : c.Sound live) (u v : ℕ) :
    (c.removeLink u v).Sound live ∧ Same c (c.removeLink u v) ∧ (c.removeLink u v).findLink u v = none := by
  have hsub : ∀ w, (Function.update c.lcache u ((c.lcache u).eraseP fun l => l.ln_dst = v) w).Sublist (c.lcache w) := by
    intro w
    by_cases hw : w = u
    · rw [hw, Function.update_self]
      exact List.eraseP_sublist
    · rw [Function.update_of_ne hw]
  refine ⟨⟨h.self, ?_, ⟨?_, ?_⟩, ?_, ?_, ?_, Or.inl le_rfl⟩, ⟨rfl, rfl, rfl⟩, ?_⟩
  · exact fun w l hl => h.nodes w l ((hsub w).subset hl)
  · exact fun w l hl => h.range.dst w l ((hsub w).subset hl)
  · exact fun w l hl => h.range.cost w l ((hsub w).subset hl)
  · exact fun w l hl => h.up w l ((hsub w).subset hl)
  · exact fun w l hl => h.live w l ((hsub w).subset hl)
  · exact fun w => (h.distinct w).sublist ((hsub w).map Link.ln_dst)
  · rw [findLink_eq_none]
    unfold LinkCache.removeLink
    dsimp only
    rw [Function.update_self]
    intro hmem
    obtain ⟨l, hl, hdst⟩ := List.mem_map.mp hmem
    cases hfind : c.findLink u v with
    | none => exact findLink_eq_none.mp hfind (List.mem_map.mpr ⟨l, List.mem_of_mem_eraseP hl, hdst⟩)
    | some l' =>
      obtain ⟨hl', hdst'⟩ := findLink_eq_some hfind
      obtain ⟨x, l₁, l₂, hbefore, hx, heq, herase⟩ := List.exists_of_eraseP (p := fun l => l.ln_dst = v) hl'
        (decide_eq_true hdst')
      have hdistinct := h.distinct u
      rw [heq, List.map_append, List.map_cons, List.nodup_middle, List.nodup_cons] at hdistinct
      rw [herase] at hl
      apply hdistinct.1
      rw [of_decide_eq_true hx, ← hdst, ← List.map_append]
      exact List.mem_map_of_mem hl

lemma Sound.delDirection (h : c.Sound live) (u v : ℕ) :
    (c.delDirection u v).Sound live ∧ Same c (c.delDirection u v) ∧ (c.delDirection u v).findLink u v = none ∧
      ∀ a b, c.findLink a b = none → (c.delDirection u v).findLink a b = none := by
  unfold LinkCache.delDirection
  split_ifs with hfind
  · obtain ⟨hsound, hsame, hnone⟩ := h.removeLink u v
    refine ⟨hsound, hsame, hnone, ?_⟩
    intro a b hab
    rw [findLink_eq_none] at hab ⊢
    intro hmem
    apply hab
    unfold LinkCache.removeLink at hmem
    dsimp only at hmem
    by_cases ha : a = u
    · rw [ha, Function.update_self] at hmem
      rw [ha]
      exact (List.eraseP_sublist.map Link.ln_dst).subset hmem
    · rwa [Function.update_of_ne ha] at hmem
  · exact ⟨h, ⟨rfl, rfl, rfl⟩, Option.not_isSome_iff_eq_none.mp hfind, fun _ _ hab => hab⟩

/-- A link that is noticed dead is in the cache no more. -/
lemma Sound.noticeDeadLink (h : c.Sound live) (u v : ℕ) :
    (c.noticeDeadLink u v).Sound live ∧ Same c (c.noticeDeadLink u v) ∧ (c.noticeDeadLink u v).findLink u v = none := by
  unfold LinkCache.noticeDeadLink
  cases hfind : c.findLink u v with
  | none => exact ⟨h, ⟨rfl, rfl, rfl⟩, hfind⟩
  | some l =>
    have hexp : ∀ exptable, Sound live { c with exptable } := fun exptable =>
      ⟨h.self, h.nodes, h.range, h.up, h.live, h.distinct, h.fresh⟩
    dsimp only
    generalize (if l.ln_flags = true then _ else c.exptable) = exptable
    have hstart : Same c { c with exptable } := ⟨rfl, rfl, rfl⟩
    obtain ⟨hsound, hsame, hnone, -⟩ := (hexp exptable).delDirection u v
    obtain ⟨hsound', hsame', -, hkept⟩ := hsound.delDirection v u
    exact ⟨hsound', hstart.trans (hsame.trans hsame'), hkept u v hnone⟩

lemma Sound.mono (h : c.Sound live) (hmono : ∀ u v, (c.findLink u v).isSome → live u v → live' u v) :
    c.Sound live' := by
  refine ⟨h.self, h.nodes, h.range, h.up, ?_, h.distinct, h.fresh⟩
  intro u l hl
  refine hmono u l.ln_dst ?_ (h.live u l hl)
  rw [Option.isSome_iff_ne_none]
  intro hnone
  exact findLink_eq_none.mp hnone (List.mem_map_of_mem hl)

lemma Sound.tick (h : c.Sound live) {now : ℚ} (hnow : c.clock ≤ now) : Sound live { c with clock := now } :=
  ⟨h.self, h.nodes, h.range, h.up, h.live, h.distinct, h.fresh.imp_left fun hdirty => hdirty.trans hnow⟩

/-- The arrays are exact when a route is looked for. -/
lemma Sound.refresh (h : c.Sound live) :
    ∃ c', (if c.dirty ≤ c.clock then c.dijkstra else some c) = some c' ∧ c'.Sound live ∧ Same c c' ∧
      c'.lcache = c.lcache ∧ c'.paths.Exact c'.lcache c'.net_id.addr := by
  by_cases hdirty : c.dirty ≤ c.clock
  · rw [if_pos hdirty]
    obtain ⟨p, hsettle, hexact⟩ := ShortestPaths.settle_exact h.self h.range
    unfold LinkCache.dijkstra
    rw [hsettle]
    exact ⟨_, rfl, ⟨h.self, h.nodes, h.range, h.up, h.live, h.distinct, Or.inr hexact⟩, ⟨rfl, rfl, rfl⟩, rfl, hexact⟩
  · rw [if_neg hdirty]
    exact ⟨c, rfl, h, ⟨rfl, rfl, rfl⟩, rfl, h.fresh.resolve_left hdirty⟩

/-! ### Routes -/

/-- The nodes of the array are linked, from this node to the destination, and there are as many as the label says. -/
structure Traced (c : LinkCache) (dest : ℕ) (nodes : List ℕ) : Prop where
  first : nodes.head? = some c.net_id.addr
  last : nodes.getLast? = some dest
  length : nodes.length = c.paths.d dest + 1
  linked : ∀ a b, [a, b] <:+: nodes → ∃ l, c.findLink a b = some l

/-- The loop goes back over the nodes by which the destination was reached. -/
lemma traceBack_spec (hexact : c.paths.Exact c.lcache c.net_id.addr)
    {v : ℕ} (room : ℕ) (rest : List ℕ) (hfin : c.paths.d v < INFINITY) :
    c.paths.d v < room ∧ (∃ front, c.traceBack room v rest = (c.net_id.addr, front ++ v :: rest) ∧
        Traced c v (front ++ [v])) ∨
      room ≤ c.paths.d v ∧ ((c.traceBack room v rest).2.length = room + rest.length) := by
  induction room generalizing v rest with
  | zero => exact Or.inr ⟨Nat.zero_le _, (Nat.zero_add _).symm⟩
  | succ room ih =>
    rw [traceBack, if_pos hfin]
    by_cases hv : v = c.net_id.addr
    · rw [if_pos hv, hv, hexact.source]
      refine Or.inl ⟨Nat.succ_pos _, [], rfl, rfl, rfl, ?_, ?_⟩
      · rw [hexact.source]
        rfl
      · intro a b hab
        have hlen := hab.length_le
        simp at hlen
    · rw [if_neg hv]
      obtain ⟨hfin', ⟨-, l, hl, hdst, -⟩, hd⟩ := hexact.tree v hfin hv
      rw [hd]
      rcases ih (v :: rest) hfin' with ⟨hroom, front, htrace, htraced⟩ | ⟨hroom, hlen⟩
      · left
        refine ⟨Nat.succ_lt_succ hroom, front ++ [c.paths.pi v], ?_, ?_, ?_, ?_, ?_⟩
        · rw [htrace, List.append_assoc]
          rfl
        · have hfirst := htraced.first
          rw [List.head?_append_of_ne_nil _ (List.append_ne_nil_of_right_ne_nil _ (List.cons_ne_nil _ _))]
          exact hfirst
        · rw [List.getLast?_concat]
        · rw [List.length_append, htraced.length, hd]
          rfl
        · intro a b hab
          rcases List.infix_concat_iff.mp hab with hsuffix | hinfix
          · obtain ⟨t, ht⟩ := hsuffix
            rw [List.append_assoc] at ht
            have hsplit := List.append_inj' (show t ++ [a, b] = _ ++ [c.paths.pi v, v] from ht) rfl
            obtain ⟨-, hpair⟩ := hsplit
            obtain ⟨ha, hb⟩ : a = c.paths.pi v ∧ b = v := by simpa using hpair
            rw [ha, hb]
            rw [← Option.isSome_iff_exists, Option.isSome_iff_ne_none]
            intro hnone
            exact findLink_eq_none.mp hnone (List.mem_map.mpr ⟨l, hl, hdst⟩)
          · exact htraced.linked a b hinfix
      · right
        refine ⟨Nat.succ_le_succ hroom, ?_⟩
        rw [hlen, List.length_cons]
        omega

/-- The links of a route in the cache. -/
def Fresh (c : LinkCache) (nodes : List ℕ) : Prop :=
  ∀ a b, [a, b] <:+: nodes → ∃ l, c.findLink a b = some l ∧ l.expired c.clock = false

/-- The links are looked up, and the first one that has expired is found out. -/
lemma firstExpired_spec {nodes : List ℕ} (h : ∀ a b, [a, b] <:+: nodes → ∃ l, c.findLink a b = some l) :
    (c.firstExpired nodes = some none ∧ c.Fresh nodes) ∨
      ∃ u v l, c.firstExpired nodes = some (some (u, v)) ∧ c.findLink u v = some l := by
  induction nodes with
  | nil => exact Or.inl ⟨rfl, fun a b hab => absurd hab.length_le (by simp)⟩
  | cons a nodes ih =>
    cases nodes with
    | nil => exact Or.inl ⟨rfl, fun x y hxy => absurd hxy.length_le (by simp)⟩
    | cons b nodes =>
      obtain ⟨l, hl⟩ := h a b ⟨[], nodes, rfl⟩
      rw [firstExpired, hl]
      dsimp only
      by_cases hexpired : l.expired c.clock = true
      · rw [if_pos hexpired]
        exact Or.inr ⟨a, b, l, rfl, hl⟩
      · rw [if_neg hexpired]
        rcases ih fun x y hxy => h x y (hxy.trans (List.suffix_cons a _).isInfix) with ⟨heq, hfresh⟩ | hfound
        · refine Or.inl ⟨heq, ?_⟩
          intro x y hxy
          rcases List.infix_cons_iff.mp hxy with hprefix | hinfix
          · obtain ⟨rfl, hrest⟩ := List.cons_prefix_cons.mp hprefix
            obtain ⟨rfl, -⟩ := List.cons_prefix_cons.mp hrest
            exact ⟨l, hl, Bool.eq_false_iff.mpr hexpired⟩
          · exact hfresh x y hinfix
        · exact Or.inr hfound

/-- The links of the route are good for some more time. -/
lemma Sound.useLinks (for_me : Bool) {nodes : List ℕ} (h : c.Sound live) (hfresh : c.Fresh nodes) :
    ∃ c', c.useLinks for_me nodes = some c' ∧ c'.Sound live ∧ Same c c' ∧ LinkedTo c'.lcache = LinkedTo c.lcache ∧
      ∀ ids : List ℕ, c.Fresh ids → c'.Fresh ids := by
  induction nodes generalizing c with
  | nil => exact ⟨c, rfl, h, ⟨rfl, rfl, rfl⟩, rfl, fun _ hids => hids⟩
  | cons a nodes ih =>
    cases nodes with
    | nil => exact ⟨c, rfl, h, ⟨rfl, rfl, rfl⟩, rfl, fun _ hids => hids⟩
    | cons b nodes =>
      obtain ⟨l, hl, hexpired⟩ := hfresh a b ⟨[], nodes, rfl⟩
      rw [LinkCache.useLinks, hl]
      dsimp only
      rw [if_neg (Bool.eq_false_iff.mp hexpired)]
      generalize Function.update _ b _ = exptable
      cases for_me with
      | false =>
        simp only [Bool.false_eq_true, if_false]
        have hsound : Sound live { c with exptable } := ⟨h.self, h.nodes, h.range, h.up, h.live, h.distinct, h.fresh⟩
        obtain ⟨c', huse, hsound', hsame, hlinked, hkept⟩ := ih hsound fun x y hxy =>
          hfresh x y (hxy.trans (List.suffix_cons a _).isInfix)
        exact ⟨c', huse, hsound', ⟨hsame.net_id, hsame.MAC_id, hsame.clock⟩, hlinked, hkept⟩
      | true =>
        simp only [if_true]
        have hsound := h.relabel (u := a) (v := b) (f := Link.prolong) (fun _ => rfl) (fun _ hcost => hcost)
          (fun _ hflag => hflag) exptable
        have hlinked : LinkedTo (Function.update c.lcache a (updateLink b Link.prolong (c.lcache a))) =
            LinkedTo c.lcache := by
          refine linkedTo_congr ?_ h.up hsound.up
          intro w
          by_cases hw : w = a
          · rw [hw, Function.update_self]
            exact map_updateLink fun _ => rfl
          · rw [Function.update_of_ne hw]
        have hfresh' : ∀ ids : List ℕ, c.Fresh ids → Fresh { c with
            lcache := Function.update c.lcache a (updateLink b Link.prolong (c.lcache a))
            exptable } ids := by
          intro ids hids x y hxy
          obtain ⟨l', hl', hexpired'⟩ := hids x y hxy
          have hdst : ∀ l, (Link.prolong l).ln_dst = l.ln_dst := fun _ => rfl
          unfold findLink at hl' ⊢
          dsimp only
          by_cases hx : x = a
          · rw [hx] at hl' ⊢
            rw [Function.update_self, find?_updateLink hdst, hl', Option.map_some]
            refine ⟨_, rfl, ?_⟩
            split_ifs
            · unfold Link.expired Link.prolong lc_gen_use_bonus at *
              rw [decide_eq_false_iff_not, not_le] at hexpired' ⊢
              exact hexpired'.trans (lt_add_of_pos_right _ (by norm_num))
            · exact hexpired'
          · rw [Function.update_of_ne hx]
            exact ⟨l', hl', hexpired'⟩
        obtain ⟨c', huse, hsound', hsame, hlinked', hkept⟩ := ih hsound fun x y hxy =>
          hfresh' _ hfresh x y (hxy.trans (List.suffix_cons a _).isInfix)
        exact ⟨c', huse, hsound', ⟨hsame.net_id, hsame.MAC_id, hsame.clock⟩, hlinked'.trans hlinked,
          fun ids hids => hkept ids (hfresh' ids hids)⟩

lemma size_removeLink (h : c.Sound live) {l : Link} (hl : c.findLink u v = some l) :
    (c.removeLink u v).size < c.size := by
  obtain ⟨hmem, hdst⟩ := findLink_eq_some hl
  have hle : ∀ w, (Function.update c.lcache u ((c.lcache u).eraseP fun l => l.ln_dst = v) w).length ≤
      (c.lcache w).length := by
    intro w
    by_cases hw : w = u
    · rw [hw, Function.update_self]
      exact List.length_eraseP_le
    · rw [Function.update_of_ne hw]
  apply List.sum_lt_sum
  · exact fun w _ => hle w
  · refine ⟨u, h.nodes u l hmem, ?_⟩
    unfold removeLink
    dsimp only
    rw [Function.update_self, List.length_eraseP_of_mem hmem (decide_eq_true hdst)]
    exact Nat.sub_lt (List.length_pos_of_mem hmem) Nat.one_pos

/-- A route from this node to the destination whose links have not expired, with as few hops as there can be; without
one, the destination is this node or too far away. -/
def Answers (c : LinkCache) (dest : ℕ) : Option Path → Prop
  | some route => ∃ nodes : List ℕ, route.path = nodes.map (fun a => ⟨a, .IP⟩) ∧
      nodes.head? = some c.net_id.addr ∧ nodes.getLast? = some dest ∧ c.Fresh nodes ∧
      IsDist (LinkedTo c.lcache) c.net_id.addr dest (nodes.length - 1)
  | none => dest = c.net_id.addr ∨ ∀ k, Walk (LinkedTo c.lcache) c.net_id.addr dest k → MAX_SR_LEN - 1 ≤ k

lemma findRoute_spec {fuel : ℕ} (h : c.Sound live) (dest : ID) (for_me : Bool) (hfuel : c.size < fuel) :
    ∃ c' r, findRoute fuel c dest for_me = some (c', r) ∧ c'.Sound live ∧ Same c c' ∧ c'.Answers dest.addr r := by
  induction fuel generalizing c with
  | zero => exact absurd hfuel (Nat.not_lt_zero _)
  | succ fuel ih =>
    obtain ⟨c₁, hrefresh, hsound, hsame, hlcache, hexact⟩ := h.refresh
    have hsize : c₁.size = c.size := by
      unfold size
      rw [hlcache]
    rw [findRoute, hrefresh, Option.bind_some]
    dsimp only
    by_cases hfin : c₁.paths.d dest.addr < INFINITY
    · rcases traceBack_spec hexact MAX_SR_LEN [] hfin with ⟨hroom, front, htrace, htraced⟩ | ⟨hroom, hlen⟩
      · rw [htrace]
        dsimp only
        have hlength := htraced.length
        have hzero : c₁.paths.d c₁.net_id.addr ≠ INFINITY := by
          rw [hexact.source]
          exact nofun
        by_cases hbad : (front ++ [dest.addr]).length < 2 ∨ c₁.paths.d c₁.net_id.addr = INFINITY ∨
            (front ++ [dest.addr]).length ≥ MAX_SR_LEN
        · rw [if_pos hbad]
          refine ⟨c₁, none, rfl, hsound, hsame, ?_⟩
          rcases hbad with hshort | hinf | hlong
          · left
            cases front with
            | nil => exact Option.some.inj htraced.first
            | cons a front => exact absurd hshort (by simp)
          · exact absurd hinf hzero
          · right
            intro k hk
            have hle := (hexact.dist dest.addr hfin).2 hk
            rw [hlength] at hlong
            exact (Nat.sub_le_of_le_add hlong).trans hle
        · rw [if_neg hbad]
          have hroute : c₁.paths.d dest.addr + 1 ≤ MAX_SR_LEN := hroom
          rcases firstExpired_spec htraced.linked with ⟨hnone, hfresh⟩ | ⟨u, v, l, hexpired, hl⟩
          · obtain ⟨c₂, huse, hsound', hsame', hlinked, hkept⟩ := hsound.useLinks for_me hfresh
            have hroom' : Path.empty.length + ((front ++ [dest.addr]).map fun a => (⟨a, .IP⟩ : ID)).length ≤
                MAX_SR_LEN := by
              rw [List.length_map, hlength]
              exact (Nat.zero_add _).trans_le hroute
            rw [hnone, Option.bind_some]
            dsimp only
            rw [huse, Option.bind_some, Path.appendEach_eq hroom']
            refine ⟨c₂, _, rfl, hsound', hsame.trans hsame', front ++ [dest.addr], rfl, ?_, htraced.last,
              hkept _ hfresh, ?_⟩
            · rw [hsame'.net_id]
              exact htraced.first
            · rw [hlinked, hsame'.net_id, hlength]
              exact hexact.dist dest.addr hfin
          · rw [hexpired, Option.bind_some]
            obtain ⟨hsound', hsame', -⟩ := hsound.removeLink u v
            have hless := size_removeLink hsound hl
            obtain ⟨c₂, r, hroute, hsound'', hsame'', hanswer⟩ := ih hsound' (by omega)
            exact ⟨c₂, r, hroute, hsound'', hsame.trans (hsame'.trans hsame''), hanswer⟩
      · rw [if_pos (Or.inr (Or.inr (by rw [hlen]; exact Nat.le_add_right _ _)))]
        refine ⟨c₁, none, rfl, hsound, hsame, Or.inr ?_⟩
        intro k hk
        have hle := (hexact.dist dest.addr hfin).2 hk
        exact (Nat.sub_le _ _).trans (hroom.trans hle)
    · have htrace : c₁.traceBack MAX_SR_LEN dest.addr [] = (dest.addr, []) := by
        unfold MAX_SR_LEN
        rw [traceBack, if_neg hfin]
      rw [htrace]
      dsimp only
      rw [if_pos (Or.inl (show ([] : List ℕ).length < 2 from Nat.two_pos))]
      refine ⟨c₁, none, rfl, hsound, hsame, Or.inr ?_⟩
      exact fun k hk => absurd (hexact.reached _ k hk) hfin

/-! ### Runs -/

end LinkCache

/-- A call tells of a link, in one direction or the other. -/
def CacheCall.Tells (m : MobiCache) (call : CacheCall) (u v : ℕ) : Prop :=
  ∃ a b, call.Supplies m a b ∧ (a.addr = u ∧ b.addr = v ∨ a.addr = v ∧ b.addr = u)

def CacheCall.kills (u v : ℕ) : CacheCall → Bool
  | .noticeDeadLink dead₁ dead₂ => dead₁.addr = u ∧ dead₂.addr = v
  | _ => false

/-- The numbers of the nodes are within the arrays. -/
def CacheCall.WithinArrays : CacheCall → Prop
  | .addRoute route => ∀ id ∈ route.path, id.addr ∈ lcNodes
  | .noticeRouteUsed p => ∀ id ∈ p.path, id.addr ∈ lcNodes
  | .findRoute dest _ => dest.addr ∈ lcNodes
  | .noticeDeadLink dead₁ dead₂ => dead₁.addr ∈ lcNodes ∧ dead₂.addr ∈ lcNodes

namespace LinkCache
variable {live : ℕ → ℕ → Prop} {c : LinkCache}

/-- A link has been told of and not been noticed dead since. -/
def Live (m : MobiCache) (calls : List CacheCall) (u v : ℕ) : Prop :=
  ∃ before call after, calls = before ++ call :: after ∧ call.Tells m u v ∧ ∀ dead ∈ after, dead.kills u v = false

lemma Live.concat {m : MobiCache} {calls : List CacheCall} {u v : ℕ} (h : Live m calls u v) {call : CacheCall}
    (hcall : call.kills u v = false) : Live m (calls ++ [call]) u v := by
  obtain ⟨before, told, after, rfl, htold, hafter⟩ := h
  refine ⟨before, told, after ++ [call], by simp, htold, ?_⟩
  intro dead hdead
  rcases List.mem_append.mp hdead with hdead | hdead
  · exact hafter dead hdead
  · rwa [List.mem_singleton.mp hdead]

lemma live_told {m : MobiCache} (calls : List CacheCall) {call : CacheCall} {u v : ℕ} (h : call.Tells m u v) :
    Live m (calls ++ [call]) u v := ⟨calls, call, [], rfl, h, fun _ hdead => absurd hdead List.not_mem_nil⟩

/-- A path in which both caches believe is added link by link. -/
lemma Sound.addBelieved {m : MobiCache} {calls : List CacheCall} {call : CacheCall} {r : Path}
    (h : c.Sound (Live m (calls ++ [call]))) {own : ID → Bool}
    (hroute : IsRoute own (fun a b => call.Supplies m a b ∧ a.addr ∈ lcNodes ∧ b.addr ∈ lcNodes) r.path) :
    (c.addPath (r.path.map ID.addr)).Sound (Live m (calls ++ [call])) ∧ Same c (c.addPath (r.path.map ID.addr)) := by
  apply h.addPath
  intro a b hab
  obtain ⟨hsupplies, ha, hb⟩ := hroute.links a b hab
  exact ⟨ha, hb, live_told calls ⟨a, b, hsupplies, Or.inl ⟨rfl, rfl⟩⟩,
    live_told calls ⟨a, b, hsupplies, Or.inr ⟨rfl, rfl⟩⟩⟩

/-- The ends of a link that a call supplies have numbers within the arrays. -/
lemma supplies_range {m : MobiCache} {call : CacheCall} (hself : m.net_id.addr ∈ lcNodes) (hrange : call.WithinArrays)
    {a b : ID} (h : call.Supplies m a b) : call.Supplies m a b ∧ a.addr ∈ lcNodes ∧ b.addr ∈ lcNodes := by
  refine ⟨h, ?_⟩
  cases call with
  | addRoute route => exact ⟨hrange a (h.subset (by simp)), hrange b (h.subset (by simp))⟩
  | noticeRouteUsed p =>
    rcases h with h | ⟨-, rfl, hb⟩
    · exact ⟨hrange a (h.subset (by simp)), hrange b (h.subset (by simp))⟩
    · exact ⟨hself, hrange b (List.mem_of_getElem? hb)⟩
  | findRoute dest for_me => exact h.elim
  | noticeDeadLink dead₁ dead₂ => exact h.elim

lemma Sound.step {net_id MAC_id : ID} {calls : List CacheCall} {call : CacheCall} {now : ℚ}
    (h : c.Sound (Live (.initial net_id MAC_id) calls)) (hnet : c.net_id = net_id) (hmac : c.MAC_id = MAC_id)
    (hvalid : net_id ≠ invalid_addr) (hnow : c.clock ≤ now) (hfits : call.Fits) (hrange : call.WithinArrays) :
    ∃ c' r, c.step now call = some (c', r) ∧ c'.Sound (Live (.initial net_id MAC_id) (calls ++ [call])) ∧
      Same { c with clock := now } c' ∧ ∀ dest for_me, call = .findRoute dest for_me → c'.Answers dest.addr r := by
  have hticked := h.tick hnow
  have hself : (MobiCache.initial net_id MAC_id).net_id.addr ∈ lcNodes := hnet ▸ h.self
  have hcache : routeCache { c with clock := now } = .initial net_id MAC_id := by
    unfold routeCache
    rw [hnet, hmac]
  have hkeep (hkills : ∀ u v, call.kills u v = false) :
      Sound (Live (.initial net_id MAC_id) (calls ++ [call])) { c with clock := now } :=
    hticked.mono fun u v _ hlive => hlive.concat (hkills u v)
  have hsupplied : ∀ a b, call.Supplies (.initial net_id MAC_id) a b →
      call.Supplies (.initial net_id MAC_id) a b ∧ a.addr ∈ lcNodes ∧ b.addr ∈ lcNodes := fun a b =>
    supplies_range hself hrange
  cases call with
  | addRoute route =>
    have hsound := hkeep fun _ _ => rfl
    obtain ⟨rt, hpre, hrt⟩ := MobiCache.pre_addRoute_spec hvalid hfits hsupplied
    unfold LinkCache.step LinkCache.addRoute
    dsimp only
    rw [hcache, hpre]
    cases rt with
    | none => exact ⟨_, _, rfl, hsound, ⟨rfl, rfl, rfl⟩, nofun⟩
    | some r =>
      obtain ⟨hsound', hsame⟩ := hsound.addBelieved (hrt r rfl)
      exact ⟨_, _, rfl, hsound', hsame, nofun⟩
  | noticeRouteUsed p =>
    have hsound := hkeep fun _ _ => rfl
    obtain ⟨stub, hpre, hstub⟩ := MobiCache.pre_noticeRouteUsed_spec hfits hsupplied
    unfold LinkCache.step LinkCache.noticeRouteUsed
    dsimp only
    rw [hcache, hpre]
    cases stub with
    | none => exact ⟨_, _, rfl, hsound, ⟨rfl, rfl, rfl⟩, nofun⟩
    | some r =>
      obtain ⟨hsound', hsame⟩ := hsound.addBelieved (hstub r rfl)
      exact ⟨_, _, rfl, hsound', hsame, nofun⟩
  | findRoute dest for_me =>
    have hsound := hkeep fun _ _ => rfl
    obtain ⟨c', r, hroute, hsound', hsame, hanswers⟩ := findRoute_spec hsound dest for_me (Nat.lt_succ_self _)
    refine ⟨c', r, hroute, hsound', hsame, ?_⟩
    rintro dest' for_me' heq
    obtain ⟨rfl, -⟩ := CacheCall.findRoute.inj heq
    exact hanswers
  | noticeDeadLink dead₁ dead₂ =>
    obtain ⟨hsound, hsame, hnone⟩ := hticked.noticeDeadLink dead₁.addr dead₂.addr
    refine ⟨_, _, rfl, hsound.mono ?_, hsame, nofun⟩
    intro u v hsome hlive
    apply hlive.concat
    rw [← Bool.not_eq_true]
    intro hkills
    obtain ⟨rfl, rfl⟩ := of_decide_eq_true hkills
    rw [hnone] at hsome
    cases hsome

/-- What the calls of a run may be. -/
def Proper (c : LinkCache) (i : ℚ × CacheCall) : Prop := c.clock ≤ i.1 ∧ i.2.Fits ∧ i.2.WithinArrays

instance : ∀ call : CacheCall, Decidable call.Fits
  | .addRoute route => inferInstanceAs (Decidable (route.path.Nodup ∧ _))
  | .noticeRouteUsed p => inferInstanceAs (Decidable (p.path.Nodup ∧ _ ∧ _ ∧ _))
  | .findRoute _ _ => instDecidableTrue
  | .noticeDeadLink _ _ => instDecidableTrue

instance : ∀ call : CacheCall, Decidable call.WithinArrays
  | .addRoute route => inferInstanceAs (Decidable (∀ id ∈ route.path, id.addr ∈ lcNodes))
  | .noticeRouteUsed p => inferInstanceAs (Decidable (∀ id ∈ p.path, id.addr ∈ lcNodes))
  | .findRoute dest _ => inferInstanceAs (Decidable (dest.addr ∈ lcNodes))
  | .noticeDeadLink _ _ => inferInstanceAs (Decidable (_ ∧ _))

instance (c : LinkCache) (i : ℚ × CacheCall) : Decidable (c.Proper i) := inferInstanceAs (Decidable (_ ∧ _ ∧ _))

lemma sound_initial {net_id : ID} (hself : net_id.addr ∈ lcNodes) (MAC_id : ID) (paths : ShortestPaths) :
    (initial net_id MAC_id paths).Sound live := by
  have hempty : ∀ u, ∀ l, l ∉ (initial net_id MAC_id paths).lcache u := fun _ _ => List.not_mem_nil
  refine ⟨hself, ?_, ⟨?_, ?_⟩, ?_, ?_, fun _ => List.nodup_nil, Or.inl ?_⟩
  · exact fun u l hl => absurd hl (hempty u l)
  · exact fun u l hl => absurd hl (hempty u l)
  · exact fun u l hl => absurd hl (hempty u l)
  · exact fun u l hl => absurd hl (hempty u l)
  · exact fun u l hl => absurd hl (hempty u l)
  · unfold initial
    norm_num

/-- Node 1 learns of a route by way of node 2, looks for node 3 and loses the second link. -/
def lostLink : List (ℚ × CacheCall) :=
  [(0, .addRoute ⟨[⟨1, .IP⟩, ⟨2, .IP⟩, ⟨3, .IP⟩], 0⟩), (1, .findRoute ⟨3, .IP⟩ true),
    (2, .noticeDeadLink ⟨2, .IP⟩ ⟨3, .IP⟩)]

end LinkCache

end NetworkSimulator.Dsr
