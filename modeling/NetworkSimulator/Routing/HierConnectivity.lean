import NetworkSimulator.Library.Runs
import NetworkSimulator.Routing.ComputeRoutes
import NetworkSimulator.Routing.HierRoutes

/-!
# Connectivity between clusters and domains

One entry of a matrix stands for all the links between two clusters or two domains. As long as no link is
reset while another one joins the same two, the entry is finite exactly while one of them is up.
-/

namespace NetworkSimulator
open Library

/-- A row or a column of the matrix of a cluster. -/
inductive Slot
  | node (z : ℕ)
  | cluster (y : ℕ)
  | domain (x : ℕ)
  deriving DecidableEq

/-- Its position, with `a` nodes and `b - 1` clusters. -/
def Slot.index (a b : ℕ) : Slot → ℕ
  | .node z => z
  | .cluster y => a + y
  | .domain x => a + (b - 1) + x

def Slot.Valid (a b c : ℕ) : Slot → Prop
  | .node z => 1 ≤ z ∧ z ≤ a
  | .cluster y => 1 ≤ y ∧ y < b
  | .domain x => 1 ≤ x ∧ x < c

lemma Slot.index_lt {a b c : ℕ} {s : Slot} (hb : 1 ≤ b) (hs : s.Valid a b c) : s.index a b < a + b + c := by
  cases s <;> simp only [Slot.Valid, Slot.index] at * <;> omega

lemma Slot.index_pos {a b c : ℕ} {s : Slot} (hs : s.Valid a b c) : 1 ≤ s.index a b := by
  cases s <;> simp only [Slot.Valid, Slot.index] at * <;> omega

lemma Slot.index_inj {a b c : ℕ} {s t : Slot} (hs : s.Valid a b c) (ht : t.Valid a b c) :
    s.index a b = t.index a b ↔ s = t := by
  refine ⟨fun h => ?_, fun h => congrArg _ h⟩
  cases s <;> cases t <;> simp only [Slot.Valid, Slot.index] at * <;> congr 1 <;> omega

namespace Hierarchy
variable {h : Hierarchy} {x y x' y' : ℕ} {s t s' t' : Slot}

/-- The clusters of the hierarchy. -/
def IsCluster (h : Hierarchy) (x y : ℕ) : Prop :=
  (1 ≤ x ∧ x < h.D) ∧ 1 ≤ y ∧ y < h.C x

def IsAddr (h : Hierarchy) (a : HierAddr) : Prop :=
  h.IsCluster a.domain a.cluster ∧ 1 ≤ a.node ∧ a.node ≤ h.clusterSize (INDEX a.domain a.cluster h.Cmax)

def IsSlot (h : Hierarchy) (x y : ℕ) (s : Slot) : Prop :=
  s.Valid (h.clusterSize (INDEX x y h.Cmax)) (h.C x) h.D

/-- The place of an entry in the matrix of a cluster. -/
def place (h : Hierarchy) (x y : ℕ) (s t : Slot) : ℕ :=
  let a := h.clusterSize (INDEX x y h.Cmax)
  INDEX (s.index a (h.C x)) (t.index a (h.C x)) (a + h.C x + h.D)

lemma le_Cmax (hx : 1 ≤ x ∧ x < h.D) : h.C x ≤ h.Cmax := by
  have hloop := forLoop_invariant (P := fun i m => ∀ x, 1 ≤ x → x < i → h.C x ≤ m)
    (f := fun i m => if h.C i > m then h.C i else m) (s := 0) (hx.1.trans hx.2.le)
    (fun x h₁ hlt => absurd h₁ (not_le.mpr hlt)) fun i m _ _ hm x h₁ hlt => by
      rcases Nat.lt_succ_iff_lt_or_eq.mp hlt with hlt | rfl
      · have := hm x h₁ hlt
        split <;> omega
      · split <;> omega
  exact hloop x hx.1 hx.2

lemma cluster_inj (hc : h.IsCluster x y) (hc' : h.IsCluster x' y') :
    INDEX x y h.Cmax = INDEX x' y' h.Cmax ↔ x = x' ∧ y = y' :=
  RouteLogic.INDEX_inj (hc.2.2.trans_le (le_Cmax hc.1)) (hc'.2.2.trans_le (le_Cmax hc'.1))

lemma place_inj (hc : h.IsCluster x y) (hs : h.IsSlot x y s) (ht : h.IsSlot x y t) (hs' : h.IsSlot x y s')
    (ht' : h.IsSlot x y t') : h.place x y s t = h.place x y s' t' ↔ s = s' ∧ t = t' := by
  have hb : 1 ≤ h.C x := hc.2.1.trans hc.2.2.le
  unfold place
  rw [RouteLogic.INDEX_inj (Slot.index_lt hb ht) (Slot.index_lt hb ht'), Slot.index_inj hs hs',
    Slot.index_inj ht ht']

end Hierarchy

lemma INDEX_lt {i j N : ℕ} (hi : i < N) (hj : j < N) : INDEX i j N < N * N :=
  calc N * i + j < N * i + N := Nat.add_lt_add_left hj _
    _ = N * (i + 1) := (Nat.mul_succ N i).symm
    _ ≤ N * N := Nat.mul_le_mul_left N hi

namespace HierRoutes
variable {h : Hierarchy} {t u v : HierRoutes} {src dst : HierAddr} {i x y : ℕ} {s q : Slot} {c : ℤ}

/-- The cost that an entry stands for; a matrix that has not been allocated has no links. -/
def cost (h : Hierarchy) (t : HierRoutes) (x y : ℕ) (s q : Slot) : ℤ :=
  let i := INDEX x y h.Cmax
  if t.hsize i = 0 then HIER_INFINITY else t.hadj i (h.place x y s q)

/-- The same matrices, except that the entries of `W` now have the cost `c`. -/
structure Wrote (h : Hierarchy) (W : ℕ → ℕ → Slot → Slot → Prop) (c : ℤ) (t u : HierRoutes) : Prop where
  alloc : ∀ x y, t.hsize (INDEX x y h.Cmax) ≠ 0 → u.hsize (INDEX x y h.Cmax) ≠ 0
  new : ∀ x y s q, h.IsCluster x y → h.IsSlot x y s → h.IsSlot x y q → W x y s q →
    u.hsize (INDEX x y h.Cmax) ≠ 0 ∧ u.cost h x y s q = c
  old : ∀ x y s q, h.IsCluster x y → h.IsSlot x y s → h.IsSlot x y q → ¬W x y s q →
    u.cost h x y s q = t.cost h x y s q

variable {W W' : ℕ → ℕ → Slot → Slot → Prop}

lemma Wrote.refl : Wrote h (fun _ _ _ _ => False) c t t :=
  ⟨fun _ _ h => h, fun _ _ _ _ _ _ _ h => h.elim, fun _ _ _ _ _ _ _ _ => rfl⟩

lemma Wrote.congr (hw : Wrote h W c t u)
    (hW : ∀ x y s q, h.IsCluster x y → (W x y s q ↔ W' x y s q)) : Wrote h W' c t u :=
  ⟨hw.alloc, fun x y s q hc hs hq hin => hw.new x y s q hc hs hq ((hW x y s q hc).mpr hin),
    fun x y s q hc hs hq hout => hw.old x y s q hc hs hq fun hin => hout ((hW x y s q hc).mp hin)⟩

lemma hierAlloc_hsize : (t.hierAlloc h i).hsize i = (h.clusterSize i + h.Cmax + h.D) ^ 2 :=
  (Function.update_self ..).trans (sq _).symm

/-- `hier_check` changes nothing that a link has put there. -/
lemma hierCheck_spec (hD : 0 < h.D) : (t.hierCheck h i).hsize i ≠ 0 ∧
    (∀ j, t.hsize j ≠ 0 → (t.hierCheck h i).hsize j ≠ 0) ∧
    ∀ x y s q, (t.hierCheck h i).cost h x y s q = t.cost h x y s q := by
  unfold hierCheck
  split
  · rename_i hpos
    exact ⟨hpos.ne', fun _ hj => hj, fun _ _ _ _ => rfl⟩
  · rename_i hzero
    have hzero : t.hsize i = 0 := Nat.eq_zero_of_not_pos hzero
    have hnew : (t.hierAlloc h i).hsize i ≠ 0 := by
      rw [hierAlloc_hsize]
      exact pow_ne_zero 2 (by omega)
    have hother : ∀ j, j ≠ i → (t.hierAlloc h i).hsize j = t.hsize j ∧
        (t.hierAlloc h i).hadj j = t.hadj j := fun j hj =>
      ⟨Function.update_of_ne hj _ _, Function.update_of_ne hj _ _⟩
    refine ⟨hnew, fun j hj => ?_, fun x y s q => ?_⟩
    · have hji : j ≠ i := fun heq => hj (heq ▸ hzero)
      rwa [(hother j hji).1]
    · unfold cost
      dsimp only
      by_cases hi : INDEX x y h.Cmax = i
      · rw [hi, if_neg hnew, if_pos hzero]
        exact congrFun (Function.update_self i _ t.hadj) _
      · rw [(hother _ hi).1, (hother _ hi).2]

lemma Wrote.hierCheck (hw : Wrote h W c t u) (hD : 0 < h.D) : Wrote h W c t (u.hierCheck h i) := by
  obtain ⟨-, halloc, hcost⟩ := hierCheck_spec (t := u) (i := i) hD
  refine ⟨fun x y hxy => halloc _ (hw.alloc x y hxy), fun x y s q hc hs hq hin => ?_,
    fun x y s q hc hs hq hout => ?_⟩
  · obtain ⟨hsize, hnew⟩ := hw.new x y s q hc hs hq hin
    exact ⟨halloc _ hsize, (hcost x y s q).trans hnew⟩
  · exact (hcost x y s q).trans (hw.old x y s q hc hs hq hout)

lemma place_eq : h.place x y s q =
    s.index (h.clusterSize (INDEX x y h.Cmax)) (h.C x) *
      (h.clusterSize (INDEX x y h.Cmax) + h.C x + h.D) + q.index (h.clusterSize (INDEX x y h.Cmax)) (h.C x) := by
  unfold Hierarchy.place INDEX
  dsimp only
  rw [Nat.mul_comm]

/-- One entry is written. -/
lemma Wrote.setHadj {k : ℕ} (hw : Wrote h W c t u) (hc : h.IsCluster x y) (hs : h.IsSlot x y s)
    (hq : h.IsSlot x y q) (halloc : u.hsize (INDEX x y h.Cmax) ≠ 0) (hk : k = h.place x y s q) :
    Wrote h (fun x' y' s' q' => W x' y' s' q' ∨ (x' = x ∧ y' = y) ∧ s' = s ∧ q' = q) c t
      (u.setHadj (INDEX x y h.Cmax) k c) := by
  subst hk
  have hself : (u.setHadj (INDEX x y h.Cmax) (h.place x y s q) c).cost h x y s q = c := by
    unfold cost HierRoutes.setHadj
    dsimp only
    rw [if_neg halloc, Function.update_self, Function.update_self]
  have hother : ∀ x' y' s' q', h.IsCluster x' y' → h.IsSlot x' y' s' → h.IsSlot x' y' q' →
      ¬((x' = x ∧ y' = y) ∧ s' = s ∧ q' = q) →
      (u.setHadj (INDEX x y h.Cmax) (h.place x y s q) c).cost h x' y' s' q' = u.cost h x' y' s' q' := by
    intro x' y' s' q' hc' hs' hq' hne
    unfold cost HierRoutes.setHadj
    dsimp only
    by_cases hi : INDEX x' y' h.Cmax = INDEX x y h.Cmax
    · obtain ⟨rfl, rfl⟩ := (Hierarchy.cluster_inj hc' hc).mp hi
      have hplace : h.place x' y' s' q' ≠ h.place x' y' s q := fun heq =>
        hne ⟨⟨rfl, rfl⟩, (Hierarchy.place_inj hc hs' hq' hs hq).mp heq⟩
      rw [Function.update_self, Function.update_of_ne hplace]
    · rw [Function.update_of_ne hi]
  refine ⟨hw.alloc, fun x' y' s' q' hc' hs' hq' hin => ?_, fun x' y' s' q' hc' hs' hq' hout => ?_⟩
  · by_cases hlast : (x' = x ∧ y' = y) ∧ s' = s ∧ q' = q
    · obtain ⟨⟨rfl, rfl⟩, rfl, rfl⟩ := hlast
      exact ⟨halloc, hself⟩
    · obtain ⟨hsize, hnew⟩ := hw.new x' y' s' q' hc' hs' hq' (hin.resolve_right hlast)
      exact ⟨hsize, (hother x' y' s' q' hc' hs' hq' hlast).trans hnew⟩
  · rw [hother x' y' s' q' hc' hs' hq' fun hlast => hout (Or.inr hlast)]
    exact hw.old x' y' s' q' hc' hs' hq' fun hin => hout (Or.inl hin)

/-- What the passes of a loop write, together. -/
lemma Wrote.loop {b : ℕ} {f : ℕ → HierRoutes → HierRoutes} {V : ℕ → ℕ → ℕ → Slot → Slot → Prop}
    (hw : Wrote h W c t u)
    (hstep : ∀ j W u, 1 ≤ j → j < b → Wrote h W c t u →
      Wrote h (fun x y s q => W x y s q ∨ V j x y s q) c t (f j u)) :
    Wrote h (fun x y s q => W x y s q ∨ ∃ j, (1 ≤ j ∧ j < b) ∧ V j x y s q) c t (forLoop 1 b f u) := by
  rcases Nat.lt_or_ge b 1 with hb | hb
  · rw [forLoop_of_le hb.le]
    exact hw.congr fun x y s q _ => ⟨Or.inl, fun hin => hin.elim id fun ⟨j, hj, _⟩ => by omega⟩
  · refine forLoop_invariant (P := fun b u =>
      Wrote h (fun x y s q => W x y s q ∨ ∃ j, (1 ≤ j ∧ j < b) ∧ V j x y s q) c t u) hb ?_ ?_
    · exact hw.congr fun x y s q _ => ⟨Or.inl, fun hin => hin.elim id fun ⟨j, hj, _⟩ => by omega⟩
    · intro i u h₁ hi hw
      refine (hstep i _ u h₁ hi hw).congr fun x y s q _ => ⟨?_, ?_⟩
      · rintro ((hin | ⟨j, hj, hV⟩) | hV)
        · exact Or.inl hin
        · exact Or.inr ⟨j, ⟨hj.1, hj.2.trans i.lt_succ_self⟩, hV⟩
        · exact Or.inr ⟨i, ⟨h₁, i.lt_succ_self⟩, hV⟩
      · rintro (hin | ⟨j, hj, hV⟩)
        · exact Or.inl (Or.inl hin)
        · rcases Nat.lt_succ_iff_lt_or_eq.mp hj.2 with hji | rfl
          · exact Or.inl (Or.inr ⟨j, ⟨hj.1, hji⟩, hV⟩)
          · exact Or.inr hV

/-- The entries that `hier_insert` and `hier_reset` write for a link. -/
def Writes (src dst : HierAddr) (x y : ℕ) (s q : Slot) : Prop :=
  if src.domain = dst.domain then
    if src.cluster = dst.cluster then
      (x = src.domain ∧ y = src.cluster) ∧ s = .node src.node ∧ q = .node dst.node
    else x = src.domain ∧ q = .cluster dst.cluster ∧
      (s = .cluster src.cluster ∨ y = src.cluster ∧ s = .node src.node)
  else q = .domain dst.domain ∧ (s = .domain src.domain ∨
    x = src.domain ∧ (s = .cluster src.cluster ∨ y = src.cluster ∧ s = .node src.node))

section Addresses
variable (hsrc : h.IsAddr src) (hdst : h.IsAddr dst)
include hsrc

lemma isSlot_node : h.IsSlot src.domain src.cluster (.node src.node) :=
  hsrc.2

lemma isSlot_cluster : h.IsSlot src.domain y (.cluster src.cluster) :=
  hsrc.1.2

lemma isSlot_domain : h.IsSlot x y (.domain src.domain) :=
  hsrc.1.1

include hdst

/-- The writes for a link inside a cluster. -/
lemma Wrote.nodePass (hdom : src.domain = dst.domain) (hclu : src.cluster = dst.cluster) (hw : Wrote h W c t u)
    (halloc : u.hsize (INDEX src.domain src.cluster h.Cmax) ≠ 0) :
    let i := INDEX src.domain src.cluster h.Cmax
    let n := h.clusterSize i
    Wrote h (fun x y s q => W x y s q ∨ (x = src.domain ∧ y = src.cluster) ∧ s = .node src.node ∧
      q = .node dst.node) c t
      (u.setHadj i (N_N_INDEX src.node dst.node n (h.C src.domain) h.D) c) := by
  have hslot : h.IsSlot src.domain src.cluster (.node dst.node) := by
    rw [hdom, hclu]
    exact isSlot_node hdst
  exact hw.setHadj hsrc.1 (isSlot_node hsrc) hslot halloc (by rw [place_eq]; rfl)

/-- The writes for one cluster of the domain, for a link between two of its clusters. -/
lemma Wrote.clusterPass (hdom : src.domain = dst.domain) (hw : Wrote h W c t u)
    (hy : 1 ≤ y ∧ y < h.C src.domain) (halloc : u.hsize (INDEX src.domain y h.Cmax) ≠ 0) :
    let i := INDEX src.domain y h.Cmax
    let n := h.clusterSize i
    let v := u.setHadj i (C_C_INDEX src.cluster dst.cluster n (h.C src.domain) h.D) c
    Wrote h (fun x' y' s q => W x' y' s q ∨ (x' = src.domain ∧ y' = y) ∧ q = .cluster dst.cluster ∧
        (s = .cluster src.cluster ∨ y = src.cluster ∧ s = .node src.node)) c t
      (if y = src.cluster then v.setHadj i (N_C_INDEX src.node dst.cluster n (h.C src.domain) h.D) c else v) := by
  extract_lets i n v
  have hc : h.IsCluster src.domain y := ⟨hsrc.1.1, hy⟩
  have hto : h.IsSlot src.domain y (.cluster dst.cluster) := hdom ▸ isSlot_cluster hdst
  have hv := hw.setHadj (k := C_C_INDEX src.cluster dst.cluster n (h.C src.domain) h.D) hc
    (isSlot_cluster hsrc) hto halloc (by rw [place_eq]; rfl)
  split
  · rename_i hy₁
    have hnode : h.IsSlot src.domain y (.node src.node) := hy₁ ▸ isSlot_node hsrc
    refine (hv.setHadj hc hnode hto halloc (by rw [place_eq]; rfl)).congr fun x' y' s q _ => ?_
    tauto
  · rename_i hy₁
    refine hv.congr fun x' y' s q _ => ?_
    tauto

/-- The write for one cluster, for a link between two domains. -/
lemma Wrote.domainPass (hw : Wrote h W c t u) (hc : h.IsCluster x y)
    (halloc : u.hsize (INDEX x y h.Cmax) ≠ 0) :
    let i := INDEX x y h.Cmax
    let n := h.clusterSize i
    Wrote h (fun x' y' s q => W x' y' s q ∨ (x' = x ∧ y' = y) ∧ s = .domain src.domain ∧
      q = .domain dst.domain) c t
      (u.setHadj i (D_D_INDEX src.domain dst.domain n (h.C x) h.D) c) :=
  hw.setHadj hc (isSlot_domain hsrc) (isSlot_domain hdst) halloc (by rw [place_eq]; rfl)

/-- The write for one cluster of the domain, for a link to another domain. -/
lemma Wrote.clusterDomainPass (hw : Wrote h W c t u) (hy : 1 ≤ y ∧ y < h.C src.domain)
    (halloc : u.hsize (INDEX src.domain y h.Cmax) ≠ 0) :
    let i := INDEX src.domain y h.Cmax
    let n := h.clusterSize i
    Wrote h (fun x' y' s q => W x' y' s q ∨ (x' = src.domain ∧ y' = y) ∧ s = .cluster src.cluster ∧
      q = .domain dst.domain) c t
      (u.setHadj i (C_D_INDEX src.cluster dst.domain n (h.C src.domain) h.D) c) :=
  hw.setHadj ⟨hsrc.1.1, hy⟩ (isSlot_cluster hsrc) (isSlot_domain hdst) halloc (by rw [place_eq]; rfl)

lemma Wrote.nodeDomainPass (hw : Wrote h W c t u)
    (halloc : u.hsize (INDEX src.domain src.cluster h.Cmax) ≠ 0) :
    let i := INDEX src.domain src.cluster h.Cmax
    let n := h.clusterSize i
    Wrote h (fun x y s q => W x y s q ∨ (x = src.domain ∧ y = src.cluster) ∧ s = .node src.node ∧
      q = .domain dst.domain) c t
      (u.setHadj i (N_D_INDEX src.node dst.domain n (h.C src.domain) h.D) c) :=
  hw.setHadj hsrc.1 (isSlot_node hsrc) (isSlot_domain hdst) halloc (by rw [place_eq]; rfl)

/-- The writes for one cluster, when a link between two domains is reset. -/
lemma Wrote.resetPass (hw : Wrote h W c t u) (hc : h.IsCluster x y)
    (halloc : u.hsize (INDEX x y h.Cmax) ≠ 0) :
    let i := INDEX x y h.Cmax
    let n := h.clusterSize i
    let v := u.setHadj i (D_D_INDEX src.domain dst.domain n (h.C x) h.D) c
    let w := v.setHadj i (C_D_INDEX src.cluster dst.domain n (h.C x) h.D) c
    Wrote h (fun x' y' s q => W x' y' s q ∨ (x' = x ∧ y' = y) ∧ q = .domain dst.domain ∧
        (s = .domain src.domain ∨ x = src.domain ∧
          (s = .cluster src.cluster ∨ y = src.cluster ∧ s = .node src.node))) c t
      (if x = src.domain then
        if y = src.cluster then w.setHadj i (N_D_INDEX src.node dst.domain n (h.C x) h.D) c else w
      else v) := by
  extract_lets i n v w
  have hv := hw.domainPass hsrc hdst hc halloc
  split
  · rename_i hx
    subst hx
    have hw := hv.clusterDomainPass hsrc hdst hc.2 halloc
    split
    · rename_i hy
      subst hy
      refine (hw.nodeDomainPass hsrc hdst halloc).congr fun x' y' s q _ => ?_
      tauto
    · rename_i hy
      refine hw.congr fun x' y' s q _ => ?_
      tauto
  · rename_i hx
    refine hv.congr fun x' y' s q _ => ?_
    tauto

/-- `hier_insert` writes its entries, and allocates the matrices for them. -/
lemma hierInsert_wrote : Wrote h (Writes src dst) c t (t.hierInsert h src dst c) := by
  have hD : 0 < h.D := Nat.zero_lt_of_lt hsrc.1.1.2
  have hcheck {W : ℕ → ℕ → Slot → Slot → Prop} {u : HierRoutes} {j : ℕ} (hw : Wrote h W c t u) :
      Wrote h W c t (u.hierCheck h j) ∧ (u.hierCheck h j).hsize j ≠ 0 :=
    ⟨hw.hierCheck hD, (hierCheck_spec hD).1⟩
  have hnone : Wrote h (fun _ _ _ _ => False) c t t := Wrote.refl
  unfold hierInsert
  dsimp only
  split
  · rename_i hdom
    split
    · rename_i hclu
      obtain ⟨hw, halloc⟩ := hcheck (j := INDEX src.domain src.cluster h.Cmax) hnone
      refine (hw.nodePass hsrc hdst hdom hclu halloc).congr fun x y s q _ => ?_
      rw [Writes, if_pos hdom, if_pos hclu, false_or]
    · rename_i hclu
      have hloop := hnone.loop (b := h.C src.domain) fun y W u h₁ hlt hw => by
        obtain ⟨hw, halloc⟩ := hcheck (j := INDEX src.domain y h.Cmax) hw
        exact hw.clusterPass hsrc hdst hdom ⟨h₁, hlt⟩ halloc
      refine hloop.congr fun x y s q hc => ?_
      rw [Writes, if_pos hdom, if_neg hclu, false_or]
      constructor
      · rintro ⟨j, -, ⟨rfl, rfl⟩, hslots⟩
        exact ⟨rfl, hslots⟩
      · rintro ⟨rfl, hslots⟩
        exact ⟨y, hc.2, ⟨rfl, rfl⟩, hslots⟩
  · rename_i hdom
    have hdomains := hnone.loop (b := h.D) fun x W u h₁ hlt hw =>
      hw.loop (b := h.C x) fun y W u hy hlty hw => by
        obtain ⟨hw, halloc⟩ := hcheck (j := INDEX x y h.Cmax) hw
        exact hw.domainPass hsrc hdst ⟨⟨h₁, hlt⟩, hy, hlty⟩ halloc
    have hclusters := hdomains.loop (b := h.C src.domain) fun y W u hy hlt hw => by
      obtain ⟨hw, halloc⟩ := hcheck (j := INDEX src.domain y h.Cmax) hw
      exact hw.clusterDomainPass hsrc hdst ⟨hy, hlt⟩ halloc
    have halloc := (hclusters.new _ _ _ _ hsrc.1 (isSlot_cluster hsrc) (isSlot_domain hdst)
      (Or.inr ⟨src.cluster, hsrc.1.2, ⟨rfl, rfl⟩, rfl, rfl⟩)).1
    refine (hclusters.nodeDomainPass hsrc hdst halloc).congr fun x y s q hc => ?_
    rw [Writes, if_neg hdom, false_or]
    constructor
    · rintro ((⟨i, -, j, -, ⟨rfl, rfl⟩, rfl, rfl⟩ | ⟨j, -, ⟨rfl, rfl⟩, rfl, rfl⟩) | ⟨⟨rfl, rfl⟩, rfl, rfl⟩)
      · exact ⟨rfl, Or.inl rfl⟩
      · exact ⟨rfl, Or.inr ⟨rfl, Or.inl rfl⟩⟩
      · exact ⟨rfl, Or.inr ⟨rfl, Or.inr ⟨rfl, rfl⟩⟩⟩
    · rintro ⟨rfl, rfl | ⟨rfl, rfl | ⟨rfl, rfl⟩⟩⟩
      · exact Or.inl (Or.inl ⟨x, hc.1, y, hc.2, ⟨rfl, rfl⟩, rfl, rfl⟩)
      · exact Or.inl (Or.inr ⟨y, hc.2, ⟨rfl, rfl⟩, rfl, rfl⟩)
      · exact Or.inr ⟨⟨rfl, rfl⟩, rfl, rfl⟩

/-- `hier_reset` writes the same entries. -/
lemma hierReset_wrote (halloc : t.Allocated h src dst) :
    Wrote h (Writes src dst) HIER_INFINITY t (t.hierReset h src dst) := by
  have hnone : Wrote h (fun _ _ _ _ => False) HIER_INFINITY t t := Wrote.refl
  unfold Allocated at halloc
  unfold hierReset
  dsimp only
  split
  · rename_i hdom
    rw [if_pos hdom] at halloc
    split
    · rename_i hclu
      rw [if_pos hclu] at halloc
      refine (hnone.nodePass hsrc hdst hdom hclu halloc).congr fun x y s q _ => ?_
      rw [Writes, if_pos hdom, if_pos hclu, false_or]
    · rename_i hclu
      rw [if_neg hclu] at halloc
      have hloop := hnone.loop (b := h.C src.domain) fun y W u h₁ hlt hw =>
        hw.clusterPass hsrc hdst hdom ⟨h₁, hlt⟩ (hw.alloc _ _ (halloc y hlt h₁))
      refine hloop.congr fun x y s q hc => ?_
      rw [Writes, if_pos hdom, if_neg hclu, false_or]
      constructor
      · rintro ⟨j, -, ⟨rfl, rfl⟩, hslots⟩
        exact ⟨rfl, hslots⟩
      · rintro ⟨rfl, hslots⟩
        exact ⟨y, hc.2, ⟨rfl, rfl⟩, hslots⟩
  · rename_i hdom
    rw [if_neg hdom] at halloc
    have hloop := hnone.loop (b := h.D) fun x W u h₁ hlt hw =>
      hw.loop (b := h.C x) fun y W u hy hlty hw =>
        hw.resetPass hsrc hdst ⟨⟨h₁, hlt⟩, hy, hlty⟩ (hw.alloc _ _ (halloc x hlt y hlty h₁ hy))
    refine hloop.congr fun x y s q hc => ?_
    rw [Writes, if_neg hdom, false_or]
    constructor
    · rintro ⟨i, -, j, -, ⟨rfl, rfl⟩, hslots⟩
      exact hslots
    · exact fun hslots => ⟨x, hc.1, y, hc.2, ⟨rfl, rfl⟩, hslots⟩

end Addresses

/-- The arrays that a link writes are there, if the matrices of its entries are. -/
lemma allocated_of (hsrc : h.IsAddr src) (hdst : h.IsAddr dst)
    (halloc : ∀ x y s q, h.IsCluster x y → h.IsSlot x y s → h.IsSlot x y q → Writes src dst x y s q →
      t.hsize (INDEX x y h.Cmax) ≠ 0) : t.Allocated h src dst := by
  unfold Allocated
  split
  · rename_i hdom
    split
    · rename_i hclu
      refine halloc src.domain src.cluster (.node src.node) (.node dst.node) hsrc.1 (isSlot_node hsrc) ?_ ?_
      · rw [hdom, hclu]
        exact isSlot_node hdst
      · rw [Writes, if_pos hdom, if_pos hclu]
        exact ⟨⟨rfl, rfl⟩, rfl, rfl⟩
    · rename_i hclu
      intro y hlt hy
      refine halloc src.domain y (.cluster src.cluster) (.cluster dst.cluster) ⟨hsrc.1.1, hy, hlt⟩
        (isSlot_cluster hsrc) (hdom ▸ isSlot_cluster hdst) ?_
      rw [Writes, if_pos hdom, if_neg hclu]
      exact ⟨rfl, rfl, Or.inl rfl⟩
  · rename_i hdom
    intro x hltx y hlty hx hy
    refine halloc x y (.domain src.domain) (.domain dst.domain) ⟨⟨hx, hltx⟩, hy, hlty⟩ (isSlot_domain hsrc)
      (isSlot_domain hdst) ?_
    rw [Writes, if_neg hdom]
    exact ⟨rfl, Or.inl rfl⟩

lemma computeCluster_congr {parent : ℕ → ℕ → ℕ} {hopcnt : ℕ → ℕ → ℚ} (hadj : u.hadj = t.hadj)
    (hroute : u.hroute (INDEX x y h.Cmax) = t.hroute (INDEX x y h.Cmax)) :
    (u.computeCluster h parent hopcnt x y).hroute (INDEX x y h.Cmax) =
      (t.computeCluster h parent hopcnt x y).hroute (INDEX x y h.Cmax) := by
  unfold computeCluster
  dsimp only
  rw [Function.update_self, Function.update_self, hroute]
  unfold clusterLogic
  rw [hadj]

/-- `hier_compute` fills the array of every cluster from its matrix. -/
lemma hierCompute_spec (parent : ℕ → ℕ → ℕ) (hopcnt : ℕ → ℕ → ℚ) (hc : h.IsCluster x y) :
    (t.hierCompute h parent hopcnt).hroute (INDEX x y h.Cmax) =
      (t.computeCluster h parent hopcnt x y).hroute (INDEX x y h.Cmax) := by
  -- The pass for the cluster itself comes once; the others leave its array.
  have hpass : ∀ (j k : ℕ) (u : HierRoutes), h.IsCluster j k → u.hadj = t.hadj →
      u.hroute (INDEX x y h.Cmax) = (if x < j ∨ x = j ∧ y < k then
        (t.computeCluster h parent hopcnt x y).hroute (INDEX x y h.Cmax) else t.hroute (INDEX x y h.Cmax)) →
      (u.computeCluster h parent hopcnt j k).hroute (INDEX x y h.Cmax) = if x < j ∨ x = j ∧ y < k + 1 then
        (t.computeCluster h parent hopcnt x y).hroute (INDEX x y h.Cmax) else t.hroute (INDEX x y h.Cmax) := by
    intro j k u hjk hadj hroute
    by_cases hown : x = j ∧ y = k
    · obtain ⟨rfl, rfl⟩ := hown
      rw [if_neg (by omega)] at hroute
      rw [if_pos (by omega)]
      exact computeCluster_congr hadj hroute
    · have hne : INDEX x y h.Cmax ≠ INDEX j k h.Cmax := fun heq =>
        hown ((Hierarchy.cluster_inj hc hjk).mp heq)
      have hsame : (u.computeCluster h parent hopcnt j k).hroute (INDEX x y h.Cmax) =
          u.hroute (INDEX x y h.Cmax) := Function.update_of_ne hne _ _
      rw [hsame, hroute]
      congr 1
      exact propext ⟨fun h => by omega, fun h => by omega⟩
  have hloop := forLoop_invariant (P := fun j (u : HierRoutes) => u.hadj = t.hadj ∧
      u.hroute (INDEX x y h.Cmax) = if x < j then
        (t.computeCluster h parent hopcnt x y).hroute (INDEX x y h.Cmax) else t.hroute (INDEX x y h.Cmax))
    (f := fun j => forLoop 1 (h.C j) fun k u => u.computeCluster h parent hopcnt j k) (s := t)
    (hc.1.1.trans hc.1.2.le) ⟨rfl, (if_neg (not_lt.mpr hc.1.1)).symm⟩ ?_
  · rw [hierCompute, hloop.2, if_pos hc.1.2]
  · intro j u hj hjD hu
    rcases Nat.lt_or_ge (h.C j) 1 with hC | hC
    · have hne : x ≠ j := fun heq => by
        have := hc.2
        rw [heq] at this
        omega
      rw [forLoop_of_le hC.le, hu.2]
      refine ⟨hu.1, ?_⟩
      congr 1
      exact propext ⟨fun h => by omega, fun h => by omega⟩
    · have hinner := forLoop_invariant (P := fun k (u : HierRoutes) => u.hadj = t.hadj ∧
          u.hroute (INDEX x y h.Cmax) = if x < j ∨ x = j ∧ y < k then
            (t.computeCluster h parent hopcnt x y).hroute (INDEX x y h.Cmax) else t.hroute (INDEX x y h.Cmax))
        (f := fun k u => u.computeCluster h parent hopcnt j k) (s := u) hC ⟨hu.1, ?_⟩ fun k u hk hkC hu =>
          ⟨hu.1, hpass j k u ⟨⟨hj, hjD⟩, hk, hkC⟩ hu.1 hu.2⟩
      · refine ⟨hinner.1, hinner.2.trans ?_⟩
        have hy : x = j → y < h.C j := fun heq => heq ▸ hc.2.2
        congr 1
        exact propext ⟨fun h => by omega, fun h => by omega⟩
      · rw [hu.2]
        have hy := hc.2.1
        congr 1
        exact propext ⟨fun h => by omega, fun h => by omega⟩

/-- Two clusters of a domain, or two domains. -/
inductive Border
  | clusters (x y₁ y₂ : ℕ)
  | domains (x₁ x₂ : ℕ)
  deriving DecidableEq

/-- What a link joins, unless it is inside a cluster. -/
def border (src dst : HierAddr) : Option Border :=
  if src.domain = dst.domain then
    if src.cluster = dst.cluster then none else some (.clusters src.domain src.cluster dst.cluster)
  else some (.domains src.domain dst.domain)

namespace Border
variable {b : Border}

def IsIn (h : Hierarchy) : Border → Prop
  | .clusters x y₁ y₂ => h.IsCluster x y₁ ∧ h.IsCluster x y₂
  | .domains x₁ x₂ => (1 ≤ x₁ ∧ x₁ < h.D) ∧ 1 ≤ x₂ ∧ x₂ < h.D

/-- The clusters in whose matrices there is an entry for it. -/
def Sees (x : ℕ) : Border → Prop
  | .clusters x' _ _ => x = x'
  | .domains _ _ => True

/-- The place of that entry, with `a` nodes, as `hier_insert` computes it. -/
def index (a b c : ℕ) : Border → ℕ
  | .clusters _ y₁ y₂ => C_C_INDEX y₁ y₂ a b c
  | .domains x₁ x₂ => D_D_INDEX x₁ x₂ a b c

def row : Border → Slot
  | .clusters _ y₁ _ => .cluster y₁
  | .domains x₁ _ => .domain x₁

def column : Border → Slot
  | .clusters _ _ y₂ => .cluster y₂
  | .domains _ x₂ => .domain x₂

lemma index_eq : b.index (h.clusterSize (INDEX x y h.Cmax)) (h.C x) h.D = h.place x y b.row b.column := by
  rw [place_eq]
  cases b <;> rfl

lemma isSlot (hin : b.IsIn h) (hsees : b.Sees x) : h.IsSlot x y b.row ∧ h.IsSlot x y b.column := by
  cases b with
  | clusters x' y₁ y₂ =>
    obtain rfl : x = x' := hsees
    exact ⟨hin.1.2, hin.2.2⟩
  | domains x₁ x₂ => exact hin

lemma isIn_of (hsrc : h.IsAddr src) (hdst : h.IsAddr dst) (hb : border src dst = some b) : b.IsIn h := by
  unfold border at hb
  split at hb
  · rename_i hdom
    split at hb
    · cases hb
    · obtain rfl := Option.some.inj hb
      exact ⟨hsrc.1, hdom ▸ hdst.1⟩
  · obtain rfl := Option.some.inj hb
    exact ⟨hsrc.1.1, hdst.1.1⟩

lemma row_ne_column (hb : border src dst = some b) : b.row ≠ b.column := by
  unfold border at hb
  split at hb
  · split at hb
    · cases hb
    · rename_i hclu
      obtain rfl := Option.some.inj hb
      exact fun heq => hclu (Slot.cluster.inj heq)
  · rename_i hdom
    obtain rfl := Option.some.inj hb
    exact fun heq => hdom (Slot.domain.inj heq)

/-- The entry for it is written for the links that join it. -/
lemma writes_iff (hsees : b.Sees x) : Writes src dst x y b.row b.column ↔ border src dst = some b := by
  unfold Writes border
  cases b with
  | clusters x' y₁ y₂ =>
    obtain rfl : x = x' := hsees
    split
    · split
      · simp [row, column]
      · simp [row, column]
        tauto
    · simp [row, column]
  | domains x₁ x₂ =>
    split
    · split
      · simp [row, column]
      · simp [row, column]
    · simp [row, column]
      tauto

end Border

/-- In every matrix with an entry for it, the entry is finite and `hier_compute` finds a route. -/
def Connected (h : Hierarchy) (t : HierRoutes) (b : Border) : Prop :=
  ∀ x y, h.IsCluster x y → b.Sees x →
    let i := INDEX x y h.Cmax
    let k := b.index (h.clusterSize i) (h.C x) h.D
    t.hsize i ≠ 0 ∧ t.hadj i k ≠ HIER_INFINITY ∧
      ∀ parent hopcnt, (t.hierCompute h parent hopcnt).hroute i k ≠ 0

/-- Every matrix that has been allocated has no cost for it. -/
def Disconnected (h : Hierarchy) (t : HierRoutes) (b : Border) : Prop :=
  ∀ x y, h.IsCluster x y → b.Sees x →
    let i := INDEX x y h.Cmax
    t.hsize i ≠ 0 → t.hadj i (b.index (h.clusterSize i) (h.C x) h.D) = HIER_INFINITY

/-- A finite cost gives a route. -/
lemma connected_of {b : Border} (hin : b.IsIn h) (hne : b.row ≠ b.column)
    (hcost : ∀ x y, h.IsCluster x y → b.Sees x → t.hsize (INDEX x y h.Cmax) ≠ 0 ∧
      t.cost h x y b.row b.column ≠ HIER_INFINITY) : Connected h t b := by
  intro x y hc hsees i k
  obtain ⟨halloc, hfin⟩ := hcost x y hc hsees
  have hk : k = h.place x y b.row b.column := Border.index_eq
  have hadj : t.hadj i k ≠ HIER_INFINITY := by
    unfold cost at hfin
    dsimp only at hfin
    rw [if_neg halloc] at hfin
    rwa [hk]
  refine ⟨halloc, hadj, fun parent hopcnt => ?_⟩
  obtain ⟨hrow, hcol⟩ := Border.isSlot (y := y) hin hsees
  have hb : 1 ≤ h.C x := hc.2.1.trans hc.2.2.le
  have hrow' : (t.clusterLogic h i x).IsNode (b.row.index (h.clusterSize i) (h.C x)) :=
    ⟨Slot.index_pos hrow, Slot.index_lt hb hrow⟩
  have hcol' : (t.clusterLogic h i x).IsNode (b.column.index (h.clusterSize i) (h.C x)) :=
    ⟨Slot.index_pos hcol, Slot.index_lt hb hcol⟩
  have hslots : b.column.index (h.clusterSize i) (h.C x) ≠ b.row.index (h.clusterSize i) (h.C x) := fun heq =>
    hne ((Slot.index_inj hcol hrow).mp heq).symm
  have hlink : (t.clusterLogic h i x).adjCost (b.row.index (h.clusterSize i) (h.C x))
      (b.column.index (h.clusterSize i) (h.C x)) ≠ INFINITY := by
    have hentry : (t.clusterLogic h i x).adjCost (b.row.index (h.clusterSize i) (h.C x))
        (b.column.index (h.clusterSize i) (h.C x)) = (t.hadj i k : ℚ) := by
      rw [hk]
      rfl
    rw [hentry, show INFINITY = ((HIER_INFINITY : ℤ) : ℚ) by norm_num [INFINITY, HIER_INFINITY]]
    exact fun heq => hadj (Int.cast_injective heq)
  have hroute := RouteLogic.nextHop_ne_zero hrow' hcol' hslots hlink (parent i) (hopcnt i)
  have hlt : k < (t.clusterLogic h i x).size * (t.clusterLogic h i x).size :=
    hk ▸ INDEX_lt hrow'.2 hcol'.2
  rw [hierCompute_spec parent hopcnt hc]
  unfold computeCluster
  dsimp only
  rw [Function.update_self, if_pos hlt, hk]
  exact hroute

end HierRoutes

/-- The addresses of the link are in the hierarchy, and a cost that is inserted is finite. -/
def HierOp.InRange (h : Hierarchy) : HierOp → Prop
  | .insert src dst cost => (h.IsAddr src ∧ h.IsAddr dst) ∧ cost ≠ HIER_INFINITY
  | .reset src dst => h.IsAddr src ∧ h.IsAddr dst

namespace HierState
open HierRoutes
variable {h : Hierarchy} {s s' : HierState} {op : HierOp} {ops : List HierOp} {os : List Unit}

/-- No link is reset while another one joins the same two clusters or domains. -/
def Alone (s : HierState) : HierOp → Prop
  | .insert _ _ _ => True
  | .reset src dst => ∀ l ∈ s.up, l ≠ (src, dst) → border src dst ≠ none → border l.1 l.2 ≠ border src dst

/-- The links that are reset are up. -/
def Expected (s : HierState) : HierOp → Prop
  | .insert _ _ _ => True
  | .reset src dst => (src, dst) ∈ s.up

/-- The entry for two clusters or domains is finite while one of the links that join them is up. -/
structure Tracks (h : Hierarchy) (s : HierState) : Prop where
  addrs : ∀ l ∈ s.up, h.IsAddr l.1 ∧ h.IsAddr l.2
  alloc : ∀ l ∈ s.up, ∀ x y r q, h.IsCluster x y → h.IsSlot x y r → h.IsSlot x y q → Writes l.1 l.2 x y r q →
    s.routes.hsize (INDEX x y h.Cmax) ≠ 0
  entry : ∀ b x y, b.IsIn h → h.IsCluster x y → b.Sees x →
    (s.routes.cost h x y b.row b.column ≠ HIER_INFINITY ↔ ∃ l ∈ s.up, border l.1 l.2 = some b)

lemma tracks_empty : Tracks h ⟨empty, []⟩ :=
  ⟨nofun, nofun, fun _ _ _ _ _ _ => ⟨fun hne => absurd rfl hne, nofun⟩⟩

lemma Tracks.insert {src dst : HierAddr} {cost : ℤ} (ht : Tracks h s)
    (hop : (HierOp.insert src dst cost).InRange h) :
    Tracks h ⟨s.routes.hierInsert h src dst cost, (src, dst) :: s.up⟩ := by
  obtain ⟨⟨hsrc, hdst⟩, hcost⟩ := hop
  have hw := hierInsert_wrote (t := s.routes) (c := cost) hsrc hdst
  refine ⟨fun l hl => ?_, fun l hl x y r q hc hr hq hwrites => ?_, fun b x y hin hc hsees => ?_⟩
  · rcases List.mem_cons.mp hl with rfl | hl
    · exact ⟨hsrc, hdst⟩
    · exact ht.addrs l hl
  · rcases List.mem_cons.mp hl with rfl | hl
    · exact (hw.new x y r q hc hr hq hwrites).1
    · exact hw.alloc x y (ht.alloc l hl x y r q hc hr hq hwrites)
  · obtain ⟨hrow, hcol⟩ := Border.isSlot (y := y) hin hsees
    by_cases hb : border src dst = some b
    · have hnew := (hw.new x y _ _ hc hrow hcol ((Border.writes_iff hsees).mpr hb)).2
      rw [hnew]
      exact ⟨fun _ => ⟨_, List.mem_cons_self, hb⟩, fun _ => hcost⟩
    · rw [hw.old x y _ _ hc hrow hcol fun hin => hb ((Border.writes_iff hsees).mp hin), ht.entry b x y hin hc hsees]
      refine ⟨fun ⟨l, hl, hlb⟩ => ⟨l, List.mem_cons_of_mem _ hl, hlb⟩, fun ⟨l, hl, hlb⟩ => ⟨l, ?_, hlb⟩⟩
      exact (List.mem_cons.mp hl).resolve_left fun heq => hb ((congrArg (fun l => border l.1 l.2) heq).symm.trans hlb)

lemma Tracks.reset {src dst : HierAddr} (ht : Tracks h s) (hop : (HierOp.reset src dst).InRange h)
    (halone : Alone s (.reset src dst)) (halloc : s.routes.Allocated h src dst) :
    Tracks h ⟨s.routes.hierReset h src dst, s.up.filter (· ≠ (src, dst))⟩ := by
  obtain ⟨hsrc, hdst⟩ := hop
  have hw := hierReset_wrote hsrc hdst halloc
  have hup : ∀ l, l ∈ s.up.filter (· ≠ (src, dst)) ↔ l ∈ s.up ∧ l ≠ (src, dst) := fun l => by
    rw [List.mem_filter, decide_eq_true_iff]
  refine ⟨fun l hl => ht.addrs l ((hup l).mp hl).1, fun l hl x y r q hc hr hq hwrites => ?_,
    fun b x y hin hc hsees => ?_⟩
  · exact hw.alloc x y (ht.alloc l ((hup l).mp hl).1 x y r q hc hr hq hwrites)
  · obtain ⟨hrow, hcol⟩ := Border.isSlot (y := y) hin hsees
    by_cases hb : border src dst = some b
    · have hnew := (hw.new x y _ _ hc hrow hcol ((Border.writes_iff hsees).mpr hb)).2
      rw [hnew]
      refine ⟨fun hne => absurd rfl hne, fun ⟨l, hl, hlb⟩ => ?_⟩
      have hone := halone l ((hup l).mp hl).1 ((hup l).mp hl).2 (by rw [hb]; exact Option.some_ne_none b)
      exact absurd (hlb.trans hb.symm) hone
    · rw [hw.old x y _ _ hc hrow hcol fun hin => hb ((Border.writes_iff hsees).mp hin), ht.entry b x y hin hc hsees]
      refine ⟨fun ⟨l, hl, hlb⟩ => ⟨l, (hup l).mpr ⟨hl, ?_⟩, hlb⟩, fun ⟨l, hl, hlb⟩ => ⟨l, ((hup l).mp hl).1, hlb⟩⟩
      rintro rfl
      exact hb hlb

lemma Tracks.step (ht : Tracks h s) (hop : op.InRange h) (halone : Alone s op)
    (hstep : s.step h op = some (s', ())) : Tracks h s' := by
  cases op with
  | insert src dst cost =>
    obtain ⟨rfl, -⟩ := Prod.mk.inj (Option.some.inj hstep)
    exact ht.insert hop
  | reset src dst =>
    rw [HierState.step] at hstep
    split at hstep
    · rename_i halloc
      obtain ⟨rfl, -⟩ := Prod.mk.inj (Option.some.inj hstep)
      exact ht.reset hop halone halloc
    · cases hstep

/-- An operation on a link that it expects does not fail. -/
lemma Tracks.succeeds (ht : Tracks h s) (hexpected : Expected s op) : (s.step h op).isSome := by
  cases op with
  | insert src dst cost => rfl
  | reset src dst =>
    obtain ⟨hsrc, hdst⟩ := ht.addrs _ hexpected
    rw [HierState.step, if_pos (allocated_of hsrc hdst (ht.alloc _ hexpected))]
    rfl

lemma Tracks.connected {b : Border} (ht : Tracks h s) (hb : ∃ l ∈ s.up, border l.1 l.2 = some b) :
    Connected h s.routes b := by
  obtain ⟨l, hl, hlb⟩ := hb
  obtain ⟨hsrc, hdst⟩ := ht.addrs l hl
  have hin := Border.isIn_of hsrc hdst hlb
  refine connected_of hin (Border.row_ne_column hlb) fun x y hc hsees => ⟨?_, ?_⟩
  · obtain ⟨hrow, hcol⟩ := Border.isSlot (y := y) hin hsees
    exact ht.alloc l hl x y _ _ hc hrow hcol ((Border.writes_iff hsees).mpr hlb)
  · exact (ht.entry b x y hin hc hsees).mpr ⟨l, hl, hlb⟩

lemma Tracks.disconnected {b : Border} (ht : Tracks h s) (hin : b.IsIn h)
    (hb : ∀ l ∈ s.up, border l.1 l.2 ≠ some b) : Disconnected h s.routes b := by
  intro x y hc hsees i halloc
  have hcost : s.routes.cost h x y b.row b.column = HIER_INFINITY := by
    by_contra hne
    obtain ⟨l, hl, hlb⟩ := (ht.entry b x y hin hc hsees).mp hne
    exact hb l hl hlb
  unfold cost at hcost
  dsimp only at hcost
  rw [if_neg halloc] at hcost
  rwa [Border.index_eq]

/-- One domain with two clusters of two nodes. -/
def twoClusters : Hierarchy := ⟨2, fun _ => 3, fun _ => 2⟩

lemma isAddr_twoClusters {y z : ℕ} (hy : 1 ≤ y ∧ y < 3) (hz : 1 ≤ z ∧ z ≤ 2) : twoClusters.IsAddr ⟨1, y, z⟩ :=
  ⟨⟨⟨le_rfl, Nat.lt_succ_self 1⟩, hy⟩, hz⟩

/-- A link and the one in the other direction; the first is reset. -/
def thereAndBack : List HierOp :=
  [.insert ⟨1, 1, 1⟩ ⟨1, 2, 1⟩ 1, .insert ⟨1, 2, 1⟩ ⟨1, 1, 1⟩ 1, .reset ⟨1, 1, 1⟩ ⟨1, 2, 1⟩]

/-- Two links between the same clusters; one is reset. -/
def parallelBorder : List HierOp :=
  [.insert ⟨1, 1, 1⟩ ⟨1, 2, 1⟩ 1, .insert ⟨1, 1, 2⟩ ⟨1, 2, 1⟩ 1, .reset ⟨1, 1, 1⟩ ⟨1, 2, 1⟩]

end HierState

end NetworkSimulator
