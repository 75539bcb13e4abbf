import NetworkSimulator.Scheduler.Splay

/-!
# The in-order walk of the splay tree

What `insert`, `deque` and `cancel` do to the in-order walk. The loop of `insert` leaves two holes,
`RIGHT(l)` and `LEFT(r)`, and what it puts into them is the walk of the remaining tree cut in two
at the new time; the loop of `deque` takes the first event of the walk; the search of `cancel`
follows the order of `(time_, uid_)`.
-/

namespace NetworkSimulator
open Library

namespace SplayScheduler
variable {T : Type} [LinearOrder T]

section Insert
variable {d : Side} {same : Event T → Bool} {m m' : TreeStore (Event T)} {near far t : Event T}
  {zs : List (Event T)}

/-- The tree `zs`, walked from side `d`, has been cut into the part that is `same`, which hangs
in the field `d` of `near`, and the part that is not, which hangs in the other field of `far`. -/
def Cut (d : Side) (same : Event T → Bool) (m m' : TreeStore (Event T)) (near far : Event T)
    (zs : List (Event T)) : Prop :=
  ∃ fs ns, zs = fs ++ ns ∧ InOrder m' d (m' (.child d near)) ns ∧
    InOrder m' d (m' (.child d.other far)) fs ∧ (∀ x ∈ ns, same x = true) ∧
    (∀ x ∈ fs, same x = false) ∧
    SameOutside m m' zs [.child d near, .child d.other far]

lemma Cut.reverse (h : Cut d same m m' near far zs) :
    Cut d.other (fun x => !same x) m m' far near zs.reverse := by
  obtain ⟨fs, ns, rfl, hn, hf, hns, hfs, hsame⟩ := h
  refine ⟨ns.reverse, fs.reverse, List.reverse_append, hf.reverse, ?_, ?_, ?_, ?_⟩
  · rw [Side.other_other]
    exact hn.reverse
  · intro x hx
    simp [hfs x (List.mem_reverse.mp hx)]
  · intro x hx
    simp [hns x (List.mem_reverse.mp hx)]
  · intro q hq hps
    refine hsame q (fun hin => hq (hin.mono fun a ha => List.mem_reverse.mpr ha)) ?_
    simpa [or_comm] using hps

/-- `LINK_RIGHT` or `LINK_LEFT`, and the rest of the loop. -/
lemma link_spec {next : TreeStore (Event T) → Event T → Event T → Option (TreeStore (Event T))}
    {xs ys : List (Event T)} (hx : InOrder m d (m (.child d t)) xs)
    (hy : InOrder m d (m (.child d.other t)) ys) (hnodup : (xs ++ t :: ys).Nodup)
    (hnear : near ∉ xs ++ t :: ys) (hfar : far ∉ xs ++ t :: ys)
    (hsame : ∀ x ∈ t :: ys, same x = true)
    (hnext : ∀ m₁ t', InOrder m₁ d (some t') xs →
      ∃ m', next m₁ t t' = some m' ∧ Cut d same m₁ m' t far xs) :
    ∃ m', (match Function.update m (.child d near) (some t) (.child d t) with
      | none => some (Function.update (Function.update m (.child d near) (some t))
          (.child d.other far) none)
      | some t' => next (Function.update m (.child d near) (some t)) t t') = some m' ∧
      Cut d same m m' near far (xs ++ t :: ys) := by
  have hnt : near ≠ t := fun h => hnear (by simp [h])
  have hft : far ≠ t := fun h => hfar (by simp [h])
  set m₁ := Function.update m (.child d near) (some t) with hm₁
  have hm₁_of : ∀ q : Loc (Event T), q ≠ .child d near → m₁ q = m q :=
    fun q hq => Function.update_of_ne hq _ _
  have hmt : m₁ (.child d t) = m (.child d t) := hm₁_of _ (by simp [hnt.symm])
  cases ht : m (.child d t) with
  | none =>
    rw [ht] at hx hmt
    obtain rfl := hx.eq_nil
    set m₂ := Function.update m₁ (.child d.other far) none with hm₂
    have hm₂_of : ∀ q : Loc (Event T), q ≠ .child d near → q ≠ .child d.other far → m₂ q = m q := by
      intro q hq hq'
      rw [hm₂, Function.update_of_ne hq', hm₁_of q hq]
    have htree : InOrder m d (some t) ([] ++ t :: ys) := InOrder.node (by rw [ht]; exact .nil) hy
    refine ⟨m₂, by rw [hmt], [], t :: ys, rfl, ?_, ?_, hsame, by simp, ?_⟩
    · have hval : m₂ (.child d near) = some t := by
        rw [hm₂, Function.update_of_ne (by simp), hm₁, Function.update_self]
      rw [hval]
      refine htree.congr fun q hq => hm₂_of q ?_ ?_
      · rintro rfl
        exact hnear hq
      · rintro rfl
        exact hfar hq
    · rw [hm₂, Function.update_self]
      exact .nil
    · intro q _ hps
      simp only [List.mem_cons, List.not_mem_nil, or_false, not_or] at hps
      exact hm₂_of q hps.1 hps.2
  | some t' =>
    rw [ht] at hx hmt
    have hx₁ : InOrder m₁ d (some t') xs :=
      hx.update (by simpa using fun h => hnear (by simp [h])) _
    obtain ⟨m', heq, fs, ns, hxs, hn, hf, hns, hfs, hout⟩ := hnext m₁ t' hx₁
    have htxs : t ∉ xs := fun h => (List.nodup_append.mp hnodup).2.2 t h t (by simp) rfl
    have hout' : ∀ q : Loc (Event T), ¬q.Inside xs → q ≠ .child d t → q ≠ .child d.other far →
        m' q = m₁ q := fun q h₁ h₂ h₃ => hout q h₁ (by simp [h₂, h₃])
    refine ⟨m', by rw [hmt]; exact heq, fs, ns ++ t :: ys, by rw [hxs]; simp, ?_, hf, ?_, hfs, ?_⟩
    · have hval : m' (.child d near) = some t := by
        rw [hout' _ (by simpa using fun h => hnear (by simp [h])) (by simp [hnt]) (by simp), hm₁,
          Function.update_self]
      rw [hval]
      refine .node hn ?_
      have hother : m' (.child d.other t) = m (.child d.other t) := by
        rw [hout' _ (by simpa using htxs) (by simp) (by simpa using hft.symm), hm₁_of _ (by simp)]
      rw [hother]
      refine hy.congr fun q hq => ?_
      cases q with
      | root => exact hq.elim
      | child d' a =>
        have ha : a ∈ ys := hq
        have hne : ∀ b, b ∉ xs ++ t :: ys → a ≠ b := by
          rintro b hb rfl
          exact hb (by simp [ha])
        have hat : a ≠ t := by
          rintro rfl
          simp [List.nodup_append, ha] at hnodup
        have haxs : a ∉ xs := fun h => by
          have := (List.nodup_append.mp hnodup).2.2 a h a (by simp [ha])
          exact this rfl
        rw [hout' _ (by simpa using haxs) (by simp [hat]) (by simp [hne far hfar]),
          hm₁_of _ (by simp [hne near hnear])]
    · intro x hx
      rcases List.mem_append.mp hx with hx | hx
      · exact hns x hx
      · exact hsame x hx
    · intro q hq hps
      simp only [List.mem_cons, List.not_mem_nil, or_false, not_or] at hps
      have hqxs : ¬q.Inside xs := fun h => hq (h.mono fun a ha => by simp [ha])
      have hqt : q ≠ .child d t := by
        rintro rfl
        exact hq (by simp)
      rw [hout' q hqxs hqt hps.2, hm₁_of q hps.1]

lemma Cut.of_inside {m₁ : TreeStore (Event T)} (h : Cut d same m₁ m' near far zs)
    (hm : ∀ q : Loc (Event T), ¬q.Inside zs → m₁ q = m q) : Cut d same m m' near far zs := by
  obtain ⟨fs, ns, hzs, hn, hf, hns, hfs, hout⟩ := h
  exact ⟨fs, ns, hzs, hn, hf, hns, hfs, fun q hq hps => (hout q hq hps).trans (hm q hq)⟩

/-- A rotation keeps the walk. -/
lemma rotate_spec {x : Event T} {xl xr ys : List (Event T)}
    (hnodup : (xl ++ x :: (xr ++ t :: ys)).Nodup) (hl : InOrder m d (m (.child d x)) xl)
    (hr : InOrder m d (m (.child d.other x)) xr) (hy : InOrder m d (m (.child d.other t)) ys) :
    InOrder (rotate d m t x) d (rotate d m t x (.child d x)) xl ∧
      InOrder (rotate d m t x) d (rotate d m t x (.child d.other x)) (xr ++ t :: ys) ∧
      ∀ q : Loc (Event T), ¬q.Inside (xl ++ x :: (xr ++ t :: ys)) → rotate d m t x q = m q := by
  obtain ⟨-, hnx, hdisj⟩ := List.nodup_append.mp hnodup
  obtain ⟨hxr, hnr⟩ := List.nodup_cons.mp hnx
  obtain ⟨-, hnt, hdisj'⟩ := List.nodup_append.mp hnr
  have hty : t ∉ ys := (List.nodup_cons.mp hnt).1
  have hxt : x ≠ t := fun h => hxr (by simp [h])
  have hval : ∀ q : Loc (Event T), q ≠ .child d t → q ≠ .child d.other x → rotate d m t x q = m q := by
    intro q h₁ h₂
    rw [rotate, Function.update_of_ne h₂, Function.update_of_ne h₁]
  have hkeep : ∀ ws : List (Event T), t ∉ ws → x ∉ ws → ∀ q : Loc (Event T), q.Inside ws →
      rotate d m t x q = m q := by
    intro ws h₁ h₂ q hq
    refine hval q ?_ ?_
    · rintro rfl
      exact h₁ hq
    · rintro rfl
      exact h₂ hq
  have htl : t ∉ xl := fun h => hdisj t h t (by simp) rfl
  have hxl : x ∉ xl := fun h => hdisj x h x (by simp) rfl
  have htr : t ∉ xr := fun h => hdisj' t h t (by simp) rfl
  have hxr' : x ∉ xr := fun h => hxr (by simp [h])
  have hxy : x ∉ ys := fun h => hxr (by simp [h])
  refine ⟨?_, ?_, ?_⟩
  · rw [hval _ (by simp [hxt]) (by simp)]
    exact hl.congr (hkeep xl htl hxl)
  · have h₁ : rotate d m t x (.child d.other x) = some t := by rw [rotate, Function.update_self]
    have h₂ : rotate d m t x (.child d t) = m (.child d.other x) := by
      rw [rotate, Function.update_of_ne (by simp), Function.update_self]
    have h₃ : rotate d m t x (.child d.other t) = m (.child d.other t) :=
      hval _ (by simp) (by simp [hxt.symm])
    rw [h₁]
    refine .node ?_ ?_
    · rw [h₂]
      exact hr.congr (hkeep xr htr hxr')
    · rw [h₃]
      exact hy.congr (hkeep ys hty hxy)
  · intro q hq
    refine hval q ?_ ?_
    · rintro rfl
      exact hq (by simp)
    · rintro rfl
      exact hq (by simp)

/-- One round of the loop of `insert`, given what the rest of the loop does to a smaller tree. -/
lemma splayArm_spec {next : TreeStore (Event T) → Event T → Event T → Option (TreeStore (Event T))}
    (h : InOrder m d (some t) zs) (hnodup : zs.Nodup) (hnear : near ∉ zs) (hfar : far ∉ zs)
    (hup : zs.Pairwise fun a b => same a = true → same b = true) (ht : same t = true)
    (hnext : ∀ m₁ t₁ t' xs, InOrder m₁ d (some t') xs → xs.Sublist zs → xs.length < zs.length →
      t₁ ∈ zs → t₁ ∉ xs → ∃ m', next m₁ t₁ t' = some m' ∧ Cut d same m₁ m' t₁ far xs) :
    ∃ m', splayArm d same next m near far t = some m' ∧ Cut d same m m' near far zs := by
  obtain ⟨xs, ys, rfl, hx, hy⟩ := h.of_node
  have hlink := fun m₁ t₁ xs₁ ys₁ (hzs : xs ++ t :: ys = xs₁ ++ t₁ :: ys₁) t' h₁ =>
    hnext m₁ t₁ t' xs₁ h₁ (by rw [hzs]; exact List.sublist_append_left _ _)
      (by rw [hzs]; simp) (by rw [hzs]; simp)
      (fun hmem => (List.nodup_append.mp (hzs ▸ hnodup)).2.2 t₁ hmem t₁ (by simp) rfl)
  have hafter : ∀ xs₁ t₁ ys₁, xs ++ t :: ys = xs₁ ++ t₁ :: ys₁ → same t₁ = true →
      ∀ y ∈ t₁ :: ys₁, same y = true := by
    intro xs₁ t₁ ys₁ hzs ht₁ y hy
    rw [hzs] at hup
    rcases List.mem_cons.mp hy with rfl | hy
    · exact ht₁
    · exact (List.pairwise_cons.mp (List.pairwise_append.mp hup).2.1).1 y hy ht₁
  have hnt : near ≠ t := fun h => hnear (by simp [h])
  have hplain := link_spec hx hy hnodup hnear hfar (hafter xs t ys rfl ht)
    fun m₁ t' h₁ => hlink m₁ t xs ys rfl t' h₁
  unfold splayArm
  cases hmx : m (.child d t) with
  | none =>
    rw [Function.update_of_ne (by simp [hnt.symm]), hmx] at hplain
    exact hplain
  | some x =>
    by_cases hsx : same x = true
    · rw [hmx] at hx
      obtain ⟨xl, xr, rfl, hl, hr⟩ := hx.of_node
      have hzs : xl ++ x :: xr ++ t :: ys = xl ++ x :: (xr ++ t :: ys) := by simp
      rw [hzs] at hnodup hnear hfar ⊢
      obtain ⟨hl₁, hr₁, hout₁⟩ := rotate_spec hnodup hl hr hy
      obtain ⟨m', heq, hcut⟩ := link_spec hl₁ hr₁ hnodup hnear hfar
        (hafter xl x _ hzs hsx) fun m₁ t' h₁ => hlink m₁ x xl _ hzs t' h₁
      simp only [if_pos hsx]
      exact ⟨m', heq, hcut.of_inside hout₁⟩
    · simp only [if_neg hsx]
      exact hplain

/-- The loop of `insert` cuts the tree at the new time. -/
lemma splay_spec (time : T) (fuel : ℕ) {l r : Event T} (h : InOrder m .left (some t) zs)
    (hnodup : zs.Nodup) (hl : l ∉ zs) (hr : r ∉ zs) (ho : Ordered Event.time zs)
    (hfuel : zs.length ≤ fuel) :
    ∃ m', splay time fuel m l r t = some m' ∧
      Cut .left (fun x => decide (time < x.time)) m m' r l zs := by
  induction fuel generalizing m l r t zs with
  | zero =>
    have := List.length_pos_of_mem h.mem
    omega
  | succ fuel ih =>
    rw [splay]
    by_cases ht : time < t.time
    · rw [if_pos ht]
      refine splayArm_spec h hnodup hr hl ?_ (by simpa using ht) ?_
      · refine ho.imp fun hab ha => ?_
        simp only [decide_eq_true_eq] at ha ⊢
        exact ha.trans_le hab
      · intro m₁ t₁ t' xs hx hsub hlen ht₁ hnot
        exact ih hx (hnodup.sublist hsub) (fun hmem => hl (hsub.subset hmem)) hnot
          (ho.sublist hsub) (by omega)
    · rw [if_neg ht]
      have hsame : (fun x : Event T => !decide (time < x.time)) =
          fun x => decide (x.time ≤ time) := by
        funext x
        rw [← decide_not, decide_eq_decide, not_lt]
      have hnot_same : (fun x : Event T => !decide (x.time ≤ time)) =
          fun x => decide (time < x.time) := by
        funext x
        rw [← decide_not, decide_eq_decide, not_le]
      have harm : ∃ m', splayArm .right (fun x => decide (x.time ≤ time))
          (fun m l t => splay time fuel m l r t) m l r t = some m' ∧
          Cut .right (fun x => decide (x.time ≤ time)) m m' l r zs.reverse := by
        refine splayArm_spec h.reverse (List.nodup_reverse.mpr hnodup) (by simpa using hl)
          (by simpa using hr) ?_ (by simpa using ht) ?_
        · refine (List.pairwise_reverse.mpr ho).imp fun hba ha => ?_
          simp only [decide_eq_true_eq] at ha ⊢
          exact hba.trans ha
        · intro m₁ t₁ t' xs hx hsub hlen ht₁ hnot
          have hsub' : xs.reverse.Sublist zs := by simpa using hsub.reverse
          obtain ⟨m', heq, hcut⟩ := ih (m := m₁) (l := t₁) (r := r) (t := t')
            (show InOrder m₁ .left (some t') xs.reverse from hx.reverse) (hnodup.sublist hsub')
            (by simpa using hnot) (fun hmem => hr (hsub'.subset hmem)) (ho.sublist hsub')
            (by simp only [List.length_reverse] at hlen ⊢; omega)
          refine ⟨m', heq, ?_⟩
          have hrev := hcut.reverse
          rw [List.reverse_reverse, hsame] at hrev
          exact hrev
      obtain ⟨m', heq, hcut⟩ := harm
      refine ⟨m', heq, ?_⟩
      have hrev := hcut.reverse
      rw [List.reverse_reverse, hnot_same] at hrev
      exact hrev

end Insert

/-- The in-order walk of the tree. -/
def Walk (s : SplayScheduler T) (xs : List (Event T)) : Prop :=
  InOrder s.link .left (s.link .root) xs

lemma insert_walk {s : SplayScheduler T} {xs : List (Event T)} (h : s.Walk xs)
    (hnodup : xs.Nodup) (ho : Ordered Event.time xs) (hsize : s.qsize = xs.length) {n : Event T}
    (hn : n ∉ xs) :
    ∃ s', s.insert n = some s' ∧ s'.Walk (insertLast Event.time n xs) ∧ s'.qsize = xs.length + 1 := by
  unfold insert
  cases hroot : s.link .root with
  | none =>
    rw [Walk, hroot] at h
    obtain rfl := h.eq_nil
    refine ⟨_, rfl, ?_, by simp [hsize]⟩
    simp only [Walk, Function.update_self]
    have hnil : ∀ m : TreeStore (Event T), m (LEFT n) = none → m (RIGHT n) = none →
        InOrder m .left (some n) ([] ++ n :: []) := by
      intro m hl hr
      exact .node (by rw [hl]; exact .nil) (by rw [Side.other_left, hr]; exact .nil)
    exact hnil _ (by simp) (by simp)
  | some t =>
    rw [Walk, hroot] at h
    have h₁ : InOrder (Function.update s.link .root (some n)) .left (some t) xs :=
      h.update id _
    obtain ⟨m, heq, fs, ns, rfl, hright, hleft, hns, hfs, hout⟩ :=
      splay_spec n.time (s.qsize + 1) h₁ hnodup hn hn ho (by omega)
    have hi : insertLast Event.time n (fs ++ ns) = fs ++ n :: ns :=
      insertLast_append _ (fun x hx => by simpa using hfs x hx) fun x hx => by simpa using hns x hx
    have hm : m .root = some n := by
      rw [hout _ id (by simp), Function.update_self]
    refine ⟨⟨Function.update (Function.update m (LEFT n) (m (RIGHT n))) (RIGHT n) (m (LEFT n)),
      s.qsize + 1⟩, by simp only [heq, Option.map_some], ?_, by rw [hsize]⟩
    have hin : ∀ (ws : List (Event T)), n ∉ ws → ∀ q : Loc (Event T), q.Inside ws →
        Function.update (Function.update m (LEFT n) (m (RIGHT n))) (RIGHT n) (m (LEFT n)) q =
          m q := by
      intro ws hw q hq
      rw [Function.update_of_ne, Function.update_of_ne]
      · rintro rfl
        exact hw hq
      · rintro rfl
        exact hw hq
    simp only [Walk]
    rw [hi, Function.update_of_ne (by simp), Function.update_of_ne (by simp), hm]
    refine .node ?_ ?_
    · rw [Function.update_of_ne (by simp), Function.update_self]
      exact hleft.congr (hin fs fun h => hn (by simp [h]))
    · rw [Side.other_left, Function.update_self]
      exact hright.congr (hin ns fun h => hn (by simp [h]))

/-- The loop of `deque` takes the first event below `LEFT(t)`. -/
lemma dequeLoop_spec (fuel : ℕ) {m : TreeStore (Event T)} {t l : Event T} {xs : List (Event T)}
    (h : InOrder m .left (some l) xs) (hl : m (LEFT t) = some l) (hnodup : xs.Nodup) (ht : t ∉ xs)
    (hfuel : xs.length ≤ fuel) :
    ∃ e m' rest, dequeLoop fuel m t l = some (e, m') ∧ xs = e :: rest ∧
      InOrder m' .left (m' (LEFT t)) rest ∧ SameOutside m m' xs [LEFT t] := by
  induction fuel generalizing m t l xs with
  | zero =>
    have := List.length_pos_of_mem h.mem
    omega
  | succ fuel ih =>
    obtain ⟨ls, rs, rfl, hls, hrs⟩ := h.of_node
    rw [Side.other_left] at hrs
    obtain ⟨-, hnl, hdisj⟩ := List.nodup_append.mp hnodup
    have hlls : l ∉ ls := fun h => hdisj l h l (by simp) rfl
    have hlrs : l ∉ rs := (List.nodup_cons.mp hnl).1
    have htl : t ≠ l := fun h => ht (by simp [h])
    have htls : t ∉ ls := fun h => ht (by simp [h])
    have htrs : t ∉ rs := fun h => ht (by simp [h])
    rw [dequeLoop]
    cases hll : m (LEFT l) with
    | none =>
      rw [hll] at hls
      obtain rfl := hls.eq_nil
      refine ⟨l, _, rs, rfl, rfl, ?_, ?_⟩
      · rw [Function.update_self]
        exact hrs.update (by simpa using htrs) _
      · intro q _ hps
        exact Function.update_of_ne (by simpa using hps) _ _
    | some ll =>
      rw [hll] at hls
      obtain ⟨lls, lrs, rfl, hlls', hlrs'⟩ := hls.of_node
      rw [Side.other_left] at hlrs'
      have hlll : ll ≠ l := fun h => hlls (by simp [h])
      obtain ⟨-, hnll, hdisj'⟩ := List.nodup_append.mp (List.nodup_append.mp hnodup).1
      have hll_lls : ll ∉ lls := fun h => hdisj' ll h ll (by simp) rfl
      have hll_lrs : ll ∉ lrs := (List.nodup_cons.mp hnll).1
      have hll_rs : ll ∉ rs := fun h => hdisj ll (by simp) ll (by simp [h]) rfl
      simp only
      cases hlll' : m (LEFT ll) with
      | none =>
        rw [hlll'] at hlls'
        obtain rfl := hlls'.eq_nil
        refine ⟨ll, _, lrs ++ l :: rs, rfl, by simp, ?_, ?_⟩
        · rw [Function.update_of_ne (by simpa using htl), hl]
          refine .node ?_ ?_
          · rw [Function.update_self]
            exact hlrs'.update (by simpa using fun h => hlls (by simp [h])) _
          · rw [Side.other_left, Function.update_of_ne (by simp)]
            exact hrs.update (by simpa using hlrs) _
        · intro q hq _
          refine Function.update_of_ne ?_ _ _
          rintro rfl
          exact hq (by simp)
      | some lll =>
        have htls' : t ∉ lls ++ ll :: (lrs ++ l :: rs) := by simpa using ht
        have hnodup' : (lls ++ ll :: (lrs ++ l :: rs)).Nodup := by simpa using hnodup
        have hsub : ∀ ws : List (Event T), t ∉ ws → ∀ q : Loc (Event T), q.Inside ws →
            Function.update m (LEFT t) (some ll) q = m q := by
          intro ws hw q hq
          refine Function.update_of_ne ?_ _ _
          rintro rfl
          exact hw hq
        have hval : ∀ (d : Side) (a : Event T), a ≠ t →
            Function.update m (LEFT t) (some ll) (.child d a) = m (.child d a) :=
          fun d a ha => Function.update_of_ne (by simp [ha]) _ _
        have htll : ll ≠ t := by
          rintro rfl
          exact htls' (by simp)
        obtain ⟨hlls₁, hrot, hout₁⟩ := rotate_spec (m := Function.update m (LEFT t) (some ll))
          hnodup' (by rw [hval _ _ htll]; exact hlls'.congr (hsub lls fun h => htls' (by simp [h])))
          (by rw [hval _ _ htll]; exact hlrs'.congr (hsub lrs fun h => htls' (by simp [h])))
          (by rw [hval _ _ htl.symm]; exact hrs.congr (hsub rs htrs))
        set m₁ := rotate .left (Function.update m (LEFT t) (some ll)) l ll with hm₁
        have hleft₁ : m₁ (LEFT ll) = some lll := by
          rw [hm₁, rotate, Function.update_of_ne (by simp), Function.update_of_ne (by simp [hlll]),
            hval _ _ htll, hlll']
        rw [hleft₁] at hlls₁
        obtain ⟨e, m', rest, heq, rfl, hrest, hout⟩ := ih hlls₁ hleft₁
          (List.nodup_append.mp hnodup').1 hll_lls (by simp at hfuel; omega)
        refine ⟨e, m', rest ++ ll :: (lrs ++ l :: rs), heq, by simp, ?_, ?_⟩
        · have hroot : m' (LEFT t) = some ll := by
            rw [hout (LEFT t) (fun h => htls' (List.mem_append_left _ h)) (by simpa using htll.symm),
              hout₁ (LEFT t) htls', Function.update_self]
          have hright : m' (RIGHT ll) = m₁ (RIGHT ll) := hout (RIGHT ll) hll_lls (by simp)
          rw [hroot]
          refine .node hrest ?_
          rw [Side.other_left, hright]
          refine hout.inOrder hrot (fun a ha ha' => ?_) ?_
          · exact (List.nodup_append.mp hnodup').2.2 a ha' a (List.mem_cons_of_mem _ ha) rfl
          · have hllnot := (List.nodup_cons.mp (List.nodup_append.mp hnodup').2.1).1
            simpa using hllnot
        · intro q hq hps
          have hq' : ¬q.Inside (e :: rest ++ ll :: (lrs ++ l :: rs)) := by simpa using hq
          have hqll : q ≠ LEFT ll := by
            rintro rfl
            exact hq (by simp)
          rw [hout q (fun h => hq' (h.mono fun a ha => List.mem_append_left _ ha))
            (by simpa using hqll), hout₁ q hq', Function.update_of_ne (by simpa using hps)]

lemma deque_walk {s : SplayScheduler T} {e : Event T} {xs : List (Event T)} (h : s.Walk (e :: xs))
    (hnodup : (e :: xs).Nodup) (hsize : s.qsize = xs.length + 1) :
    ∃ s', s.deque = some (some e, s') ∧ s'.Walk xs ∧ s'.qsize = xs.length := by
  unfold deque
  cases hroot : s.link .root with
  | none =>
    rw [Walk, hroot] at h
    exact absurd h.eq_nil (by simp)
  | some t =>
    rw [Walk, hroot] at h
    obtain ⟨ls, rs, hxs, hls, hrs⟩ := h.of_node
    rw [Side.other_left] at hrs
    have ht : t ∉ ls := by
      rw [hxs] at hnodup
      exact fun h => (List.nodup_append.mp hnodup).2.2 t h t (by simp) rfl
    simp only
    cases hl : s.link (LEFT t) with
    | none =>
      rw [hl] at hls
      obtain rfl := hls.eq_nil
      obtain ⟨rfl, rfl⟩ := List.cons.inj hxs
      refine ⟨_, rfl, ?_, by simp [hsize]⟩
      simp only [Walk, Function.update_self]
      exact hrs.update id _
    | some l =>
      rw [hl] at hls
      have hnodup' := hxs ▸ hnodup
      have hlen : ls.length ≤ s.qsize := by
        have := congrArg List.length hxs
        simp at this
        omega
      obtain ⟨e', m', rest, heq, rfl, hrest, hout⟩ :=
        dequeLoop_spec s.qsize hls hl (List.nodup_append.mp hnodup').1 ht hlen
      obtain ⟨rfl, rfl⟩ := List.cons.inj hxs
      refine ⟨⟨m', s.qsize - 1⟩, by simp only [heq, Option.map_some], ?_, by simp [hsize]⟩
      have hroot' : m' .root = some t := by rw [hout _ id (by simp), hroot]
      simp only [Walk, hroot']
      refine .node hrest ?_
      have hright : m' (RIGHT t) = s.link (RIGHT t) := hout _ ht (by simp)
      rw [Side.other_left, hright]
      refine hout.inOrder hrs (fun a ha ha' => ?_) ?_
      · exact (List.nodup_append.mp hnodup').2.2 a ha' a (by simp [ha]) rfl
      · have := (List.nodup_cons.mp (List.nodup_append.mp hnodup').2.1).1
        simpa using this

/-- The order of `(time_, uid_)`, in which `cancel` searches. -/
abbrev Before : Event T → Event T → Prop := Earlier Event.time Event.uid

/-- The location `t` in the tree below `a` points to `e`, and whatever tree is put there in place
of the one below `e`, the rest of the walk stays. -/
def Hangs (d : Side) (m : TreeStore (Event T)) (a e : Event T) (t : Loc (Event T))
    (xs : List (Event T)) : Prop :=
  ∃ pre es post, xs = pre ++ (es ++ post) ∧ m t = some e ∧ InOrder m d (some e) es ∧
    t.Inside xs ∧ ¬t.Inside es ∧
    ∀ m' ys, InOrder m' d (m' t) ys → SameOutside m m' es [t] →
      InOrder m' d (some a) (pre ++ (ys ++ post))

section Hangs
variable {d : Side} {m : TreeStore (Event T)} {a b e : Event T} {t : Loc (Event T)}
  {xs ys : List (Event T)}

lemma Hangs.reverse (h : Hangs d m a e t xs) : Hangs d.other m a e t xs.reverse := by
  obtain ⟨pre, es, post, rfl, hte, hes, hin, hout, hctx⟩ := h
  have hmem : ∀ ws : List (Event T), t.Inside ws.reverse ↔ t.Inside ws := by
    intro ws
    cases t <;> simp [Loc.Inside]
  refine ⟨post.reverse, es.reverse, pre.reverse, by simp, hte, hes.reverse, (hmem _).mpr hin,
    fun h => hout ((hmem es).mp h), fun m' ys hys hm' => ?_⟩
  have hys' := hys.reverse
  rw [Side.other_other] at hys'
  have hctx' := (hctx m' ys.reverse hys' fun q hq hps => hm' q (fun h => hq ?_) hps).reverse
  · simpa using hctx'
  · exact h.mono fun b hb => List.mem_reverse.mp hb

/-- The node itself is what the rest of the tree hangs on. -/
lemma node_of_child {m' : TreeStore (Event T)} {zs : List (Event T)}
    (hy : InOrder m d (m (.child d.other a)) ys) (hay : a ∉ ys)
    (hz : InOrder m' d (m' (.child d a)) zs)
    (hm' : ∀ q : Loc (Event T), q.Inside (a :: ys) → q ≠ .child d a → m' q = m q) :
    InOrder m' d (some a) (zs ++ a :: ys) := by
  refine .node hz ?_
  rw [hm' _ (by simp) (by simp)]
  refine hy.congr fun q hq => hm' q (hq.mono fun b hb => by simp [hb]) ?_
  rintro rfl
  exact hay hq

lemma hangs_child (hx : InOrder m d (m (.child d a)) xs)
    (hy : InOrder m d (m (.child d.other a)) ys) (hnodup : (xs ++ a :: ys).Nodup)
    (ha : m (.child d a) = some e) : Hangs d m a e (.child d a) (xs ++ a :: ys) := by
  obtain ⟨-, hny, hdisj⟩ := List.nodup_append.mp hnodup
  have hax : a ∉ xs := fun h => hdisj a h a (by simp) rfl
  refine ⟨[], xs, a :: ys, rfl, ha, ha ▸ hx, by simp, hax, fun m' zs hz hm' => ?_⟩
  refine node_of_child hy (List.nodup_cons.mp hny).1 hz fun q hq hne => hm' q ?_ (by simpa using hne)
  cases q with
  | root => exact id
  | child d' b => exact fun hb => hdisj b hb b hq rfl

lemma Hangs.of_child (h : Hangs d m b e t xs) (hy : InOrder m d (m (.child d.other a)) ys)
    (hnodup : (xs ++ a :: ys).Nodup) (ha : m (.child d a) = some b) :
    Hangs d m a e t (xs ++ a :: ys) := by
  obtain ⟨pre, es, post, rfl, hte, hes, hin, hout, hctx⟩ := h
  obtain ⟨-, hny, hdisj⟩ := List.nodup_append.mp hnodup
  refine ⟨pre, es, post ++ a :: ys, by simp, hte, hes, hin.mono fun b hb => by simp at hb ⊢; tauto,
    hout, fun m' zs hz hm' => ?_⟩
  have hkeep : ∀ q : Loc (Event T), q.Inside (a :: ys) → m' q = m q := by
    intro q hq
    cases q with
    | root => exact hq.elim
    | child d' b =>
      refine hm' _ (fun hb => hdisj b ?_ b hq rfl) ?_
      · exact List.mem_append_right _ (List.mem_append_left _ hb)
      · rw [List.mem_singleton]
        rintro rfl
        exact hdisj b hin b hq rfl
  have hz' := hctx m' zs hz hm'
  rw [← ha, ← hkeep (.child d a) (by simp)] at hz'
  have hnode := node_of_child hy (List.nodup_cons.mp hny).1 hz' fun q hq _ => hkeep q hq
  simpa using hnode

end Hangs

/-- The search of `cancel` finds the location of `e`: it follows the order of the walk. -/
lemma search_spec (fuel : ℕ) {m : TreeStore (Event T)} {e a : Event T} {t : Loc (Event T)}
    {xs : List (Event T)} (h : InOrder m .left (some a) xs) (hta : m t = some a)
    (hs : xs.Pairwise Before) (hnodup : xs.Nodup) (he : e ∈ xs) (hea : e ≠ a)
    (hfuel : xs.length ≤ fuel) :
    ∃ t', search m e fuel t = some t' ∧ Hangs .left m a e t' xs := by
  induction fuel generalizing t a xs with
  | zero =>
    have := List.length_pos_of_mem he
    omega
  | succ fuel ih =>
    obtain ⟨ls, rs, rfl, hls, hrs⟩ := h.of_node
    rw [Side.other_left] at hrs
    obtain ⟨hsl, hsr, hcross⟩ := List.pairwise_append.mp hs
    obtain ⟨har, hsr'⟩ := List.pairwise_cons.mp hsr
    obtain ⟨hnl, hnr, -⟩ := List.nodup_append.mp hnodup
    -- one step down, to the side where `e` is
    have hdown : ∀ (d : Side) (ws : List (Event T)), ws.Pairwise Before → ws.Nodup →
        ws.length ≤ fuel → e ∈ ws → InOrder m .left (m (.child d a)) ws →
        (∀ {b t'}, m (.child d a) = some b → Hangs .left m b e t' ws →
          Hangs .left m a e t' (ls ++ a :: rs)) →
        (m (.child d a) = some e → Hangs .left m a e (.child d a) (ls ++ a :: rs)) →
        ∃ t', (if m (.child d a) = some e then some (.child d a)
          else search m e fuel (.child d a)) = some t' ∧ Hangs .left m a e t' (ls ++ a :: rs) := by
      intro d ws hsw hnw hlen hew hws hstep hhere
      by_cases hroot : m (.child d a) = some e
      · exact ⟨_, if_pos hroot, hhere hroot⟩
      · rw [if_neg hroot]
        cases hb : m (.child d a) with
        | none =>
          rw [hb] at hws
          simp [hws.eq_nil] at hew
        | some b =>
          rw [hb] at hws
          obtain ⟨t', heq, hh⟩ := ih hws hb hsw hnw hew (fun h => hroot (by rw [hb, h])) hlen
          exact ⟨t', heq, hstep hb hh⟩
    have hnodup' : (rs.reverse ++ a :: ls.reverse).Nodup := by
      have := List.nodup_reverse.mpr hnodup
      simpa using this
    have hls' : InOrder m .right (m (LEFT a)) ls.reverse := hls.reverse
    have hlen : ls.length + rs.length ≤ fuel := by
      simp only [List.length_append, List.length_cons] at hfuel
      omega
    rw [search, hta]
    by_cases hcmp : e.time > a.time ∨ e.time = a.time ∧ e.uid > a.uid
    · have hae : Before a e := by
        rcases hcmp with h | ⟨h, h'⟩
        · exact Or.inl h
        · exact Or.inr ⟨h.symm, h'⟩
      have hers : e ∈ rs := by
        rcases List.mem_append.mp he with he | he
        · exact absurd hae (hcross e he a (by simp)).asymm
        · exact (List.mem_cons.mp he).resolve_left hea
      simp only [if_pos hcmp]
      refine hdown .right rs hsr' (List.nodup_cons.mp hnr).2 (by omega) hers hrs
        (fun hb hh => ?_) fun hb => ?_
      · have := (hh.reverse.of_child hls' hnodup' hb).reverse
        simpa using this
      · have := (hangs_child (d := .right) hrs.reverse hls' hnodup' hb).reverse
        simpa using this
    · have hels : e ∈ ls := by
        rcases List.mem_append.mp he with he | he
        · exact he
        · rcases List.mem_cons.mp he with he | he
          · exact absurd he hea
          · rcases har e he with h | ⟨h, h'⟩
            · exact absurd (Or.inl h) hcmp
            · exact absurd (Or.inr ⟨h.symm, h'⟩) hcmp
      simp only [if_neg hcmp]
      exact hdown .left ls hsl hnl (by omega) hels hls
        (fun hb hh => hh.of_child hrs hnodup hb) fun hb => hangs_child hls hrs hnodup hb

/-- The successor is the first event of the walk below `q`, and taking it out leaves the rest. -/
lemma successor_spec (fuel : ℕ) {m : TreeStore (Event T)} {p q : Event T} {xs : List (Event T)}
    (h : InOrder m .left (some q) xs) (hp : m (LEFT p) = some q) (hnodup : xs.Nodup) (hpx : p ∉ xs)
    (hfuel : xs.length ≤ fuel) :
    ∃ p' q' rest, successor m fuel p q = some (p', q') ∧ xs = q' :: rest ∧ (p' = p ∨ p' ∈ rest) ∧
      ∀ m' : TreeStore (Event T), m' (LEFT p') = m (RIGHT q') →
        (∀ r : Loc (Event T), r.Inside (p :: rest) → r ≠ LEFT p' → m' r = m r) →
        InOrder m' .left (m' (LEFT p)) rest := by
  induction fuel generalizing p q xs with
  | zero =>
    have := List.length_pos_of_mem h.mem
    omega
  | succ fuel ih =>
    obtain ⟨ls, rs, rfl, hls, hrs⟩ := h.of_node
    rw [Side.other_left] at hrs
    obtain ⟨hnl, hnr, hdisj⟩ := List.nodup_append.mp hnodup
    have hqls : q ∉ ls := fun h => hdisj q h q (by simp) rfl
    rw [successor]
    cases hq : m (LEFT q) with
    | none =>
      rw [hq] at hls
      obtain rfl := hls.eq_nil
      refine ⟨p, q, rs, rfl, rfl, Or.inl rfl, fun m' hval hm' => ?_⟩
      rw [hval]
      refine hrs.congr fun r hr => hm' r (hr.mono fun b hb => by simp [hb]) ?_
      rintro rfl
      exact hpx (List.mem_cons_of_mem _ hr)
    | some q₂ =>
      rw [hq] at hls
      obtain ⟨p', q', rest, heq, rfl, hp', hrest⟩ := ih hls hq hnl hqls
        (by simp only [List.length_append, List.length_cons] at hfuel; omega)
      have hp'in : p' ∈ rest ++ q :: rs := by
        rcases hp' with rfl | hp'
        · simp
        · simp [hp']
      refine ⟨p', q', rest ++ q :: rs, heq, by simp, Or.inr hp'in, fun m' hval hm' => ?_⟩
      have hpp' : p ≠ p' := by
        rintro rfl
        exact hpx (List.mem_cons_of_mem _ hp'in)
      have hroot : m' (LEFT p) = some q := by
        rw [hm' _ (by simp) (by simpa using hpp'), hp]
      have hp'rs : p' ∉ rs := by
        intro hmem
        rcases hp' with rfl | hp'
        · exact (List.nodup_cons.mp hnr).1 hmem
        · exact hdisj p' (by simp [hp']) p' (by simp [hmem]) rfl
      rw [hroot]
      refine .node (hrest m' hval fun r hr hne => hm' r (hr.mono fun b hb => ?_) hne) ?_
      · rcases List.mem_cons.mp hb with rfl | hb
        · simp
        · simp [hb]
      · rw [Side.other_left, hm' (RIGHT q) (by simp) (by simp)]
        refine hrs.congr fun r hr => hm' r (hr.mono fun b hb => by simp [hb]) ?_
        rintro rfl
        exact hp'rs hr

/-- What `m'` changes are `t`, the links of `e`, and the links that move `q'`, the successor of `e`
and first event below `LEFT(p)`, into the place of `e`. -/
lemma splice_successor {m m' : TreeStore (Event T)} {e p p' q' : Event T} {t : Loc (Event T)}
    {ls rest rs : List (Event T)} (hls : InOrder m .left (m (LEFT e)) ls)
    (hrs : InOrder m .left (m (RIGHT p)) rs) (hp : m (RIGHT e) = some p)
    (hnodup : (ls ++ e :: (q' :: rest ++ p :: rs)).Nodup)
    (ht : ¬t.Inside (ls ++ e :: (q' :: rest ++ p :: rs))) (hp' : p' = p ∨ p' ∈ rest)
    (hrest : ∀ m' : TreeStore (Event T), m' (LEFT p') = m (RIGHT q') →
      (∀ r : Loc (Event T), r.Inside (p :: rest) → r ≠ LEFT p' → m' r = m r) →
      InOrder m' .left (m' (LEFT p)) rest)
    (h₁ : m' t = some q') (h₂ : m' (LEFT p') = m (RIGHT q')) (h₃ : m' (LEFT q') = m (LEFT e))
    (h₄ : m' (RIGHT q') = m (RIGHT e))
    (hm' : ∀ r : Loc (Event T), r ≠ t → r ≠ LEFT p' → ¬r.Inside [q', e] → m' r = m r) :
    InOrder m' .left (m' t) (ls ++ (q' :: rest ++ p :: rs)) := by
  have hne : ∀ a, a ∈ ls ++ e :: (q' :: rest ++ p :: rs) → ∀ d, Loc.child d a ≠ t := by
    rintro a ha d rfl
    exact ht ha
  have hkeep : ∀ ws : List (Event T), (∀ a ∈ ws, a ∈ ls ++ e :: (q' :: rest ++ p :: rs)) →
      q' ∉ ws → e ∉ ws → ∀ r : Loc (Event T), r.Inside ws → r ≠ LEFT p' → m' r = m r := by
    intro ws hws hq' he r hr hrp
    cases r with
    | root => exact hr.elim
    | child d a =>
      refine hm' _ (hne a (hws a hr) d) hrp ?_
      simp only [Loc.inside_child, List.mem_cons, List.not_mem_nil, or_false, not_or]
      constructor
      · rintro rfl
        exact hq' hr
      · rintro rfl
        exact he hr
  have hp'r : p' ∈ rest ++ [p] := by
    rcases hp' with rfl | hp' <;> simp [*]
  simp only [List.nodup_append, List.nodup_cons, List.cons_append, List.mem_cons, List.mem_append,
    not_or, ne_eq] at hnodup
  obtain ⟨-, ⟨⟨hee, her, hep, hers⟩, ⟨hqr, hqp, hqrs⟩, -, ⟨hprs, -⟩, hrr⟩, hlr⟩ := hnodup
  have hp'ls : p' ∉ ls := fun h => by
    rcases hp' with rfl | hp'
    · exact hlr p' h p' (by simp) rfl
    · exact hlr p' h p' (by simp [hp']) rfl
  have hp'rs : p' ∉ rs := fun h => by
    rcases hp' with rfl | hp'
    · exact hprs h
    · exact hrr p' hp' p' (Or.inr h) rfl
  have hof : ∀ (ws : List (Event T)) (o : Option (Event T)), p' ∉ ws →
      (∀ a ∈ ws, a ∈ ls ++ e :: (q' :: rest ++ p :: rs)) → q' ∉ ws → e ∉ ws →
      InOrder m .left o ws → InOrder m' .left o ws := by
    intro ws o hpw hws hqw hew hin
    refine hin.congr fun r hr => hkeep ws hws hqw hew r hr ?_
    rintro rfl
    exact hpw hr
  rw [h₁]
  refine .node ?_ ?_
  · rw [h₃]
    exact hof ls _ hp'ls (fun a ha => by simp [ha]) (fun h => hlr q' h q' (by simp) rfl)
      (fun h => hlr e h e (by simp) rfl) hls
  · rw [Side.other_left, h₄, hp]
    refine .node (hrest m' h₂ ?_) ?_
    · exact hkeep (p :: rest) (fun a ha => by simp at ha ⊢; tauto)
        (by simp [hqp, hqr]) (by simp [hep, her])
    · have hright : m' (RIGHT p) = m (RIGHT p) :=
        hkeep [p] (by simp) (by simp [hqp]) (by simp [hep]) _ (by simp) (by simp)
      rw [Side.other_left, hright]
      exact hof rs _ hp'rs (fun a ha => by simp [ha]) hqrs hers hrs

/-- The unlinking takes one event out of the walk and leaves the order of the others. -/
lemma splice_spec (fuel : ℕ) {m : TreeStore (Event T)} {e : Event T} {t : Loc (Event T)}
    {es : List (Event T)} (h : InOrder m .left (some e) es) (ht : ¬t.Inside es)
    (hnodup : es.Nodup) (hfuel : es.length ≤ fuel) :
    ∃ m', splice fuel m t e = some m' ∧ InOrder m' .left (m' t) (es.erase e) ∧
      SameOutside m m' es [t] := by
  obtain ⟨ls, rs, rfl, hls, hrs⟩ := h.of_node
  rw [Side.other_left] at hrs
  obtain ⟨hnl, hnr, hdisj⟩ := List.nodup_append.mp hnodup
  have hels : e ∉ ls := fun h => hdisj e h e (by simp) rfl
  have hers : e ∉ rs := (List.nodup_cons.mp hnr).1
  have herase : (ls ++ e :: rs).erase e = ls ++ rs := by
    rw [List.erase_append_right _ hels, List.erase_cons_head]
  have hte : ∀ d a, a ∈ ls ++ e :: rs → t ≠ .child d a := by
    rintro d a ha rfl
    exact ht ha
  have htl := hte .left e (by simp)
  have htr := hte .right e (by simp)
  have hout : ∀ m' : TreeStore (Event T), (∀ q, q ≠ t → q ≠ LEFT e → q ≠ RIGHT e → m' q = m q) →
      SameOutside m m' (ls ++ e :: rs) [t] := by
    intro m' hm' q hq hps
    refine hm' q (by simpa using hps) ?_ ?_
    · rintro rfl
      exact hq (by simp)
    · rintro rfl
      exact hq (by simp)
  have hkeep : ∀ (m' : TreeStore (Event T)) (p : Option (Event T)) (ws : List (Event T)),
      (∀ q, q ≠ t → q ≠ LEFT e → q ≠ RIGHT e → m' q = m q) → (∀ a ∈ ws, a ∈ ls ++ rs) →
      InOrder m .left p ws → InOrder m' .left p ws := by
    intro m' p ws hm' hws hin
    have hmem : ∀ a ∈ ls ++ rs, a ≠ e := by
      rintro a ha rfl
      rcases List.mem_append.mp ha with ha | ha
      · exact hels ha
      · exact hers ha
    refine hin.congr fun q hq => ?_
    cases q with
    | root => exact hq.elim
    | child d a =>
      have ha := hws a hq
      have hae := hmem a ha
      exact hm' _ (hte d a (by simp at ha ⊢; tauto)).symm (by simp [hae]) (by simp [hae])
  rw [herase]
  unfold splice
  cases hr : m (RIGHT e) with
  | none =>
    rw [hr] at hrs
    obtain rfl := hrs.eq_nil
    have hm' : ∀ q, q ≠ t → q ≠ LEFT e → q ≠ RIGHT e →
        Function.update (Function.update m t (m (LEFT e))) (LEFT e) none q = m q := by
      intro q h₁ h₂ _
      rw [Function.update_of_ne h₂, Function.update_of_ne h₁]
    refine ⟨_, rfl, ?_, hout _ hm'⟩
    rw [Function.update_of_ne htl, Function.update_self, List.append_nil]
    exact hkeep _ _ _ hm' (fun a ha => by simp [ha]) hls
  | some p =>
    simp only
    cases hl : m (LEFT e) with
    | none =>
      rw [hl] at hls
      obtain rfl := hls.eq_nil
      have hm' : ∀ q, q ≠ t → q ≠ LEFT e → q ≠ RIGHT e →
          Function.update (Function.update m t (m (RIGHT e))) (RIGHT e) none q = m q := by
        intro q h₁ _ h₃
        rw [Function.update_of_ne h₃, Function.update_of_ne h₁]
      rw [hr] at hm'
      refine ⟨_, rfl, ?_, hout _ hm'⟩
      rw [hr] at hrs
      rw [Function.update_of_ne htr, Function.update_self, List.nil_append]
      exact hkeep _ _ _ hm' (fun a ha => by simp [ha]) hrs
    | some l =>
      rw [hr] at hrs
      obtain ⟨ps, prs, rfl, hps, hprs⟩ := hrs.of_node
      rw [Side.other_left] at hprs
      have hep : e ≠ p := fun h => hers (by simp [h])
      have htp := hte .left p (by simp)
      have hpps : p ∉ ps := fun h => by
        have := (List.nodup_append.mp (List.nodup_cons.mp hnr).2).2.2 p h p (by simp)
        exact this rfl
      simp only
      cases hq : m (LEFT p) with
      | none =>
        rw [hq] at hps
        obtain rfl := hps.eq_nil
        have hreads : Function.update m t (some p) (LEFT e) = m (LEFT e) :=
          Function.update_of_ne htl.symm _ _
        have hlsp : p ∉ ls := fun h => hdisj p h p (by simp) rfl
        have hprs' : p ∉ prs := by simpa using (List.nodup_cons.mp (List.nodup_cons.mp hnr).2).1
        have hset : ∀ (ws : List (Event T)) (o : Option (Event T)), p ∉ ws → ¬t.Inside ws →
            InOrder m .left o ws → InOrder (Function.update (Function.update m t (some p)) (LEFT p)
              (m (LEFT e))) .left o ws :=
          fun ws o hpw htw hin => (hin.update htw _).update (q := LEFT p) hpw _
        rw [hreads]
        refine ⟨_, rfl, ?_, ?_⟩
        · rw [Function.update_of_ne htp, Function.update_self]
          refine .node ?_ ?_
          · rw [Function.update_self]
            exact hset ls _ hlsp (fun h => ht (h.mono fun a ha => by simp [ha])) hls
          · rw [Side.other_left, Function.update_of_ne (by simp),
              Function.update_of_ne (hte .right p (by simp)).symm]
            exact hset prs _ hprs' (fun h => ht (h.mono fun a ha => by simp [ha])) hprs
        · intro r hr hps
          rw [Function.update_of_ne, Function.update_of_ne (by simpa using hps)]
          rintro rfl
          exact hr (by simp)
      | some q =>
        rw [hq] at hps
        have hnps := (List.nodup_append.mp (List.nodup_cons.mp hnr).2).1
        obtain ⟨p', q', rest, heq, rfl, hp', hrest⟩ := successor_spec fuel hps hq hnps hpps
          (by simp only [List.length_append, List.length_cons] at hfuel ⊢; omega)
        have hp'in : p' ∈ ls ++ e :: (q' :: rest ++ p :: prs) := by
          rcases hp' with rfl | hp' <;> simp [*]
        have hq'in : q' ∈ ls ++ e :: (q' :: rest ++ p :: prs) := by simp
        have hp'q' : p' ≠ q' := by
          rintro rfl
          rcases hp' with rfl | hp'
          · exact hpps (by simp)
          · exact (List.nodup_cons.mp hnps).1 hp'
        have heq' : e ≠ q' := fun h => hers (by simp [h])
        have hep' : e ≠ p' := by
          rintro rfl
          rcases hp' with rfl | hp'
          · exact hep rfl
          · exact hers (by simp [hp'])
        set m₁ := Function.update m t (some q') with hm₁
        set m₂ := Function.update m₁ (LEFT p') (m₁ (RIGHT q')) with hm₂
        set m₃ := Function.update m₂ (LEFT q') (m₂ (LEFT e)) with hm₃
        set m₄ := Function.update m₃ (RIGHT q') (m₃ (RIGHT e)) with hm₄
        set m₅ := Function.update (Function.update m₄ (LEFT e) none) (RIGHT e) none with hm₅
        have hof₁ : ∀ d a, a ∈ ls ++ e :: (q' :: rest ++ p :: prs) →
            m₁ (.child d a) = m (.child d a) := fun d a ha =>
          Function.update_of_ne (hte d a ha).symm _ _
        have hof₅ : ∀ r : Loc (Event T), r ≠ LEFT e → r ≠ RIGHT e → r ≠ RIGHT q' → r ≠ LEFT q' →
            m₅ r = m₂ r := by
          intro r h₁ h₂ h₃ h₄
          rw [hm₅, Function.update_of_ne h₂, Function.update_of_ne h₁, hm₄,
            Function.update_of_ne h₃, hm₃, Function.update_of_ne h₄]
        refine ⟨m₅, by simp only [heq]; rfl, splice_successor hls hprs hr (by simpa using hnodup) ht hp'
          hrest ?_ ?_ ?_ ?_ ?_, ?_⟩
        · rw [hof₅ t htl htr (hte _ q' hq'in) (hte _ q' hq'in), hm₂,
            Function.update_of_ne (hte _ p' hp'in), hm₁, Function.update_self]
        · rw [hof₅ _ (by simpa using hep'.symm) (by simp) (by simp) (by simpa using hp'q'), hm₂,
            Function.update_self, hof₁ _ q' hq'in]
        · rw [hm₅, Function.update_of_ne (by simp), Function.update_of_ne (by simpa using heq'.symm),
            hm₄, Function.update_of_ne (by simp), hm₃, Function.update_self, hm₂,
            Function.update_of_ne (by simpa using hep'), hof₁ _ e (by simp)]
        · rw [hm₅, Function.update_of_ne (by simpa using heq'.symm), Function.update_of_ne (by simp),
            hm₄, Function.update_self, hm₃, Function.update_of_ne (by simp), hm₂,
            Function.update_of_ne (by simp), hof₁ _ e (by simp)]
        · intro r hrt hrp hrin
          have hne : ∀ d a, a ∈ [q', e] → r ≠ .child d a := by
            rintro d a ha rfl
            exact hrin ha
          rw [hof₅ r (hne _ e (by simp)) (hne _ e (by simp)) (hne _ q' (by simp))
            (hne _ q' (by simp)), hm₂, Function.update_of_ne hrp, hm₁, Function.update_of_ne hrt]
        · intro r hr hrt
          have hne : ∀ d a, a ∈ ls ++ e :: (q' :: rest ++ p :: prs) → r ≠ .child d a := by
            rintro d a ha rfl
            exact hr ha
          rw [hof₅ r (hne _ e (by simp)) (hne _ e (by simp)) (hne _ q' hq'in) (hne _ q' hq'in), hm₂,
            Function.update_of_ne (hne _ p' hp'in), hm₁,
            Function.update_of_ne (by simpa using hrt)]

lemma cancel_walk {s : SplayScheduler T} {e : Event T} {xs : List (Event T)} (h : s.Walk xs)
    (hs : xs.Pairwise Before) (hnodup : xs.Nodup) (he : e ∈ xs) (huid : 0 < e.uid)
    (hsize : s.qsize = xs.length) :
    ∃ s', s.cancel e = some s' ∧ s'.Walk (xs.erase e) ∧ s'.qsize = (xs.erase e).length := by
  have hlen : s.qsize - 1 = (xs.erase e).length := by rw [hsize, List.length_erase_of_mem he]
  unfold cancel
  rw [if_neg (not_le.mpr huid)]
  rw [Walk] at h
  by_cases hroot : s.link .root = some e
  · rw [hroot] at h
    obtain ⟨m, heq, hin, -⟩ := splice_spec s.qsize h (t := .root) id hnodup hsize.ge
    refine ⟨⟨m, s.qsize - 1⟩, ?_, hin, hlen⟩
    simp only [if_pos hroot, Option.bind_some, heq, Option.map_some]
  · cases ha : s.link .root with
    | none =>
      rw [ha] at h
      simp [h.eq_nil] at he
    | some a =>
      rw [ha] at h hroot
      obtain ⟨t, hsearch, pre, es, post, rfl, hte, hes, htin, htout, hctx⟩ :=
        search_spec s.qsize h ha hs hnodup he (fun h => hroot (by rw [h])) hsize.ge
      obtain ⟨-, hn, hdisj⟩ := List.nodup_append.mp hnodup
      have hnes := (List.nodup_append.mp hn).1
      have hepre : e ∉ pre := fun h => hdisj e h e (List.mem_append_left _ hes.mem) rfl
      have herase : (pre ++ (es ++ post)).erase e = pre ++ (es.erase e ++ post) := by
        rw [List.erase_append_right _ hepre, List.erase_append_left _ hes.mem]
      obtain ⟨m, heq, hin, hout⟩ := splice_spec s.qsize hes htout hnes
        (by simp only [List.length_append] at hsize; omega)
      refine ⟨⟨m, s.qsize - 1⟩, ?_, ?_, hlen⟩
      · simp only [if_neg hroot, hsearch, Option.bind_some, heq, Option.map_some]
      · have hm : m .root = some a := by
          rw [hout .root id, ha]
          rw [List.mem_singleton]
          rintro rfl
          exact htin
        simp only [Walk]
        rw [herase, hm]
        exact hctx m _ hin hout

end SplayScheduler

end NetworkSimulator
