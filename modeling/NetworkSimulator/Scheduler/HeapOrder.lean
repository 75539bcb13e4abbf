import NetworkSimulator.Library.BinaryHeap
import NetworkSimulator.Scheduler.Heap

/-!
# The operations of `Heap`

`heap_insert` carries the new element up, `heap_extract_min` carries the last element down from
the root. `heap_delete` carries the victim up without comparing keys; the elements it passes move
down one level each along the path, so every pair away from the root is in order when
`heap_extract_min` removes the root.
-/

namespace NetworkSimulator
open Library

namespace Heap
variable {T : Type} [LinearOrder T]

/-- The order of `KEY_LESS_THAN`. -/
def rank (a : HeapElem T) : T ×ₗ ℕ := toLex (a.key, a.sKey)

lemma keyLessThan_iff {a b : HeapElem T} : keyLessThan a b ↔ rank a < rank b := by
  rw [rank, rank, Prod.Lex.toLex_lt_toLex]
  rfl

lemma rank_le_of_not_keyLessThan {a b : HeapElem T} (h : ¬keyLessThan a b) : rank b ≤ rank a :=
  not_lt.mp (mt keyLessThan_iff.mpr h)

section Positions
variable {i : ℕ}

lemma parent_eq (h : 0 < i) (hi : i < 2 ^ 32) : parent i = parentOf i := by
  unfold parent parentOf
  omega

lemma left_eq (h : i < 2 ^ 31) : left i = 2 * i + 1 := by
  unfold left
  omega

lemma right_eq (h : i + 1 < 2 ^ 31) : right i = 2 * i + 2 := by
  unfold right
  omega

end Positions

section Memory
variable {s : Heap T} {i j : ℕ}

lemma get_eq (h : i < s.maxsize) : s.get i = some (s.elems i) := if_pos h

lemma set_eq (h : i < s.maxsize) (e : HeapElem T) :
    s.set i e = some { s with elems := Function.update s.elems i e } := if_pos h

lemma swap_eq (hi : i < s.maxsize) (hj : j < s.maxsize) :
    s.swap i j = some { s with elems := exchange s.elems i j } := by
  have hf : Function.update (Function.update s.elems i (s.elems j)) j (s.elems i) =
      exchange s.elems i j := by
    funext k
    by_cases hkj : k = j
    · rw [hkj, Function.update_self, exchange_right]
    · rw [Function.update_of_ne hkj]
      by_cases hki : k = i
      · rw [hki, Function.update_self, exchange_left]
      · rw [Function.update_of_ne hki, exchange_of_ne hki hkj]
  unfold swap
  simp only [get_eq hi, get_eq hj, Option.bind_eq_bind, Option.bind_some, set_eq hi]
  rw [set_eq (s := { s with elems := Function.update s.elems i (s.elems j) }) hj, hf]

end Memory

/-- The loop of `heap_insert`: with `e` in place at the position returned, the array is a heap. -/
lemma siftUp_spec {e : HeapElem T} (fuel : ℕ) {s : Heap T} {i : ℕ} (hfuel : i < fuel)
    (hi : i < s.size) (hsize : s.size ≤ s.maxsize) (hmax : s.maxsize ≤ 2 ^ 31)
    (h : HeapExcept rank (Function.update s.elems i e) s.size i)
    (hdown : AboveChildren rank (Function.update s.elems i e) s.size i) :
    ∃ f j, siftUp e fuel s i = some ({ s with elems := f }, j) ∧ j < s.size ∧
      IsHeap rank (Function.update f j e) s.size ∧
      (contents (Function.update f j e) s.size).Perm
        (contents (Function.update s.elems i e) s.size) := by
  induction fuel generalizing s i with
  | zero => omega
  | succ fuel ih =>
    rw [siftUp]
    by_cases h0 : i = 0
    · refine ⟨s.elems, i, if_pos h0, hi, h.isHeap (fun hpos => by omega) hdown, List.Perm.refl _⟩
    have hpos : 0 < i := by omega
    have hlt := parentOf_lt hpos
    rw [if_neg h0, parent_eq hpos (by omega)]
    simp only [get_eq (show parentOf i < s.maxsize by omega), Option.bind_eq_bind, Option.bind_some]
    by_cases hless : keyLessThan e (s.elems (parentOf i))
    · rw [if_pos hless, set_eq (by omega), Option.bind_some]
      have hg : exchange (Function.update s.elems i e) i (parentOf i) =
          Function.update (Function.update s.elems i (s.elems (parentOf i))) (parentOf i) e := by
        funext k
        by_cases hkp : k = parentOf i
        · rw [hkp, exchange_right, Function.update_self, Function.update_self]
        · rw [Function.update_of_ne hkp]
          by_cases hki : k = i
          · rw [hki, exchange_left, Function.update_self, Function.update_of_ne hlt.ne]
          · rw [exchange_of_ne hki hkp, Function.update_of_ne hki, Function.update_of_ne hki]
      have hle : rank (Function.update s.elems i e i) ≤
          rank (Function.update s.elems i e (parentOf i)) := by
        rw [Function.update_self, Function.update_of_ne hlt.ne]
        exact (keyLessThan_iff.mp hless).le
      have h₁ := h.up hpos hi
      have hdown₁ := AboveChildren.up h hpos hi hle
      rw [hg] at h₁ hdown₁
      obtain ⟨f, j, heq, hj, hheap, hperm⟩ := ih (by omega)
        (s := { s with elems := Function.update s.elems i (s.elems (parentOf i)) })
        (hlt.trans hi) hsize hmax h₁ hdown₁
      refine ⟨f, j, heq, hj, hheap, hperm.trans ?_⟩
      rw [← hg]
      exact contents_exchange hi (hlt.trans hi)
    · rw [if_neg hless]
      refine ⟨s.elems, i, rfl, hi, h.isHeap (fun _ _ => ?_) hdown, List.Perm.refl _⟩
      rw [Function.update_self, Function.update_of_ne hlt.ne]
      exact rank_le_of_not_keyLessThan hless

/-- The capacities that doubling from `HEAP_DEFAULT_SIZE` reaches without overflow. -/
def Capacity (m : ℕ) : Prop := ∃ k, k ≤ 26 ∧ m = defaultSize * 2 ^ k

lemma Capacity.le {m : ℕ} (h : Capacity m) : m ≤ 2 ^ 31 := by
  obtain ⟨k, hk, rfl⟩ := h
  have := Nat.pow_le_pow_right (show 0 < 2 by omega) hk
  unfold defaultSize
  omega

lemma Capacity.double {m : ℕ} (h : Capacity m) (hlt : m < 2 ^ 31) :
    Capacity (m * 2 % 2 ^ 32) ∧ m < m * 2 % 2 ^ 32 := by
  obtain ⟨k, hk, rfl⟩ := h
  have hk' : k < 26 := by
    rcases Nat.lt_or_eq_of_le hk with h | rfl
    · exact h
    · unfold defaultSize at hlt
      omega
  have hpow : 0 < 2 ^ k := Nat.two_pow_pos k
  have hmod : defaultSize * 2 ^ k * 2 % 2 ^ 32 = defaultSize * 2 ^ k * 2 := by
    rw [Nat.mod_eq_of_lt]
    omega
  rw [hmod]
  refine ⟨⟨k + 1, hk', by rw [Nat.pow_succ, Nat.mul_assoc]⟩, ?_⟩
  unfold defaultSize
  omega

lemma heapInsert_spec {s : Heap T} (h : IsHeap rank s.elems s.size) (hcap : Capacity s.maxsize)
    (hsize : s.size ≤ s.maxsize) (hlt : s.size < 2 ^ 31) (key : T) (elem : Event T) :
    ∃ f m, s.heapInsert key elem = some ⟨f, (s.sKey + 1) % 2 ^ 32, s.size + 1, m⟩ ∧
      Capacity m ∧ s.size + 1 ≤ m ∧ IsHeap rank f (s.size + 1) ∧
      (contents f (s.size + 1)).Perm (⟨key, s.sKey, elem⟩ :: contents s.elems s.size) := by
  obtain ⟨m, hm, hcapm, hlem⟩ : ∃ m, (if s.maxsize = s.size then s.grow else some s) =
      some { s with maxsize := m } ∧ Capacity m ∧ s.size < m := by
    by_cases hfull : s.maxsize = s.size
    · obtain ⟨hcap', hlt'⟩ := hcap.double (by omega)
      refine ⟨s.maxsize * 2 % 2 ^ 32, ?_, hcap', by omega⟩
      rw [if_pos hfull, grow]
      exact if_pos hlt'.le
    · exact ⟨s.maxsize, if_neg hfull, hcap, by omega⟩
  have hmod : (s.size + 1) % 2 ^ 32 = s.size + 1 := Nat.mod_eq_of_lt (by omega)
  set e : HeapElem T := ⟨key, s.sKey, elem⟩ with he
  have hof : ∀ k, k < s.size → Function.update s.elems s.size e k = s.elems k :=
    fun k hk => Function.update_of_ne hk.ne _ _
  have hheap : IsHeap rank (Function.update s.elems s.size e) s.size := by
    intro j hj hjn
    have := parentOf_lt hj
    rw [hof _ (by omega), hof j hjn]
    exact h j hj hjn
  obtain ⟨f, j, heq, hj, hheap', hperm⟩ := siftUp_spec (e := e) (s.size + 1)
    (s := ⟨s.elems, s.sKey, s.size + 1, m⟩) (i := s.size) (by omega) (Nat.lt_succ_self _)
    hlem hcapm.le hheap.heapExcept_last (aboveChildren_last _ _)
  refine ⟨Function.update f j e, m, ?_, hcapm, hlem, hheap', hperm.trans ?_⟩
  · have hjm : j < m := lt_of_lt_of_le hj hlem
    unfold heapInsert
    simp only [hm, Option.bind_eq_bind, Option.bind_some, hmod, ← he, heq]
    rw [set_eq (s := ⟨f, s.sKey, s.size + 1, m⟩) hjm]
    rfl
  · rw [contents_succ, contents_congr hof, Function.update_self]
    exact List.perm_append_singleton _ _

/-- Either `i` has no children, or the smaller one is chosen. -/
lemma smallerChild_spec {s : Heap T} {i : ℕ} (hi : i < s.size) (hsize : s.size ≤ s.maxsize)
    (hlt : s.size < 2 ^ 31) :
    ∃ x, s.smallerChild i = some x ∧
      (x = i ∧ (∀ j, 0 < j → j < s.size → parentOf j ≠ i) ∨
        0 < x ∧ x < s.size ∧ parentOf x = i ∧
          ∀ j, 0 < j → j < s.size → parentOf j = i → rank (s.elems x) ≤ rank (s.elems j)) := by
  have hl := left_eq (show i < 2 ^ 31 by omega)
  have hr := right_eq (show i + 1 < 2 ^ 31 by omega)
  unfold smallerChild
  rw [hl, hr]
  by_cases hright : 2 * i + 2 < s.size
  · rw [if_pos hright]
    simp only [get_eq (show 2 * i + 1 < s.maxsize by omega),
      get_eq (show 2 * i + 2 < s.maxsize by omega), Option.bind_eq_bind, Option.bind_some]
    by_cases hless : keyLessThan (s.elems (2 * i + 1)) (s.elems (2 * i + 2))
    · refine ⟨2 * i + 1, by rw [if_pos hless], Or.inr ⟨by omega, by omega, ?_, ?_⟩⟩
      · exact (parentOf_eq_iff (by omega)).mpr (Or.inl rfl)
      · intro j hj _ hpar
        rcases (parentOf_eq_iff hj).mp hpar with rfl | rfl
        · exact le_rfl
        · exact (keyLessThan_iff.mp hless).le
    · refine ⟨2 * i + 2, by rw [if_neg hless], Or.inr ⟨by omega, hright, ?_, ?_⟩⟩
      · exact (parentOf_eq_iff (by omega)).mpr (Or.inr rfl)
      · intro j hj _ hpar
        rcases (parentOf_eq_iff hj).mp hpar with rfl | rfl
        · exact rank_le_of_not_keyLessThan hless
        · exact le_rfl
  · rw [if_neg hright]
    by_cases hleft : 2 * i + 1 < s.size
    · refine ⟨2 * i + 1, by rw [if_pos hleft], Or.inr ⟨by omega, hleft, ?_, ?_⟩⟩
      · exact (parentOf_eq_iff (by omega)).mpr (Or.inl rfl)
      · intro j hj hjn hpar
        rcases (parentOf_eq_iff hj).mp hpar with rfl | rfl
        · exact le_rfl
        · omega
    · refine ⟨i, by rw [if_neg hleft], Or.inl ⟨rfl, fun j hj hjn hpar => ?_⟩⟩
      rcases (parentOf_eq_iff hj).mp hpar with rfl | rfl <;> omega

lemma heapify_spec (fuel : ℕ) {s : Heap T} {i : ℕ} (hfuel : s.size < i + fuel)
    (hsize : s.size ≤ s.maxsize) (hlt : s.size < 2 ^ 31) (h : HeapExcept rank s.elems s.size i)
    (hup : 0 < i → i < s.size → rank (s.elems (parentOf i)) ≤ rank (s.elems i)) (hfi : 0 < fuel) :
    ∃ f, heapify fuel s i = some { s with elems := f } ∧ IsHeap rank f s.size ∧
      (contents f s.size).Perm (contents s.elems s.size) := by
  induction fuel generalizing s i with
  | zero => omega
  | succ fuel ih =>
    rw [heapify]
    by_cases hi : i < s.size
    · rw [if_pos hi]
      obtain ⟨x, hx, hcases⟩ := smallerChild_spec hi hsize hlt
      simp only [hx, Option.bind_eq_bind, Option.bind_some]
      rcases hcases with ⟨rfl, hnone⟩ | ⟨hx0, hxn, hxi, hmin⟩
      · rw [if_pos rfl]
        exact ⟨s.elems, rfl, h.isHeap hup fun j hj hjn hpar => absurd hpar (hnone j hj hjn),
          List.Perm.refl _⟩
      · have hix : i < x := hxi ▸ parentOf_lt hx0
        rw [if_neg hix.ne']
        simp only [get_eq (show x < s.maxsize by omega), get_eq (show i < s.maxsize by omega),
          Option.bind_some]
        by_cases hless : keyLessThan (s.elems x) (s.elems i)
        · have hle := (keyLessThan_iff.mp hless).le
          rw [if_pos hless, swap_eq (by omega) (by omega), Option.bind_some]
          have hup' : rank (exchange s.elems i x (parentOf x)) ≤ rank (exchange s.elems i x x) := by
            rw [hxi, exchange_left, exchange_right]
            exact hle
          obtain ⟨f, heq, hheap, hperm⟩ := ih (s := { s with elems := exchange s.elems i x })
            (i := x) (show s.size < x + fuel by omega) hsize hlt (h.down hx0 hxn hxi hmin)
            (fun _ _ => hup') (by omega)
          exact ⟨f, heq, hheap, hperm.trans (contents_exchange hi hxn)⟩
        · rw [if_neg hless]
          refine ⟨s.elems, rfl, h.isHeap hup fun j hj hjn hpar => ?_, List.Perm.refl _⟩
          exact (rank_le_of_not_keyLessThan hless).trans (hmin j hj hjn hpar)
    · rw [if_neg hi]
      refine ⟨s.elems, rfl, h.isHeap hup fun j hj hjn hpar => ?_, List.Perm.refl _⟩
      have := parentOf_lt hj
      omega

/-- `heap_extract_min` removes the root, whatever stands there. -/
lemma heapExtractMin_spec {s : Heap T} {n : ℕ} (hn : s.size = n + 1) (hsize : s.size ≤ s.maxsize)
    (hlt : n < 2 ^ 31) (h : HeapExcept rank s.elems s.size 0) :
    ∃ f, s.heapExtractMin =
        some (some (s.elems 0).elem, { s with elems := f, size := n }) ∧
      IsHeap rank f n ∧ (contents s.elems (n + 1)).Perm (s.elems 0 :: contents f n) := by
  set f₁ := Function.update s.elems 0 (s.elems n) with hf₁
  have h₁ : HeapExcept rank f₁ n 0 := by
    refine HeapExcept.congr ⟨fun j hj hjn hj0 hpar => ?_, fun h0 => absurd h0 (lt_irrefl 0)⟩
      fun j hj => Function.update_of_ne hj _ _
    exact h.others j hj (by omega) hj0 hpar
  obtain ⟨f, heq, hheap, hperm⟩ := heapify_spec (n + 1) (s := { s with elems := f₁, size := n })
    (i := 0) (show n < 0 + (n + 1) by omega) (show n ≤ s.maxsize by omega) hlt h₁
    (fun h0 => absurd h0 (lt_irrefl 0)) (Nat.succ_pos n)
  refine ⟨f, ?_, hheap, ?_⟩
  · have hn0 : ¬n + 1 = 0 := by omega
    unfold heapExtractMin
    rw [hn, if_neg hn0]
    simp only [get_eq (show 0 < s.maxsize by omega), Nat.add_sub_cancel,
      get_eq (show n < s.maxsize by omega), Option.bind_eq_bind, Option.bind_some]
    rw [set_eq (s := { s with size := n }) (show 0 < s.maxsize by omega), Option.bind_some]
    simp only [← hf₁, heq, Option.bind_some]
  · refine List.Perm.trans ?_ (hperm.symm.cons _)
    cases n with
    | zero => exact List.Perm.refl _
    | succ m =>
      have hsucc : ∀ g : ℕ → HeapElem T, contents g (m + 1) = g 0 :: (List.range m).map (g ∘ Nat.succ) := by
        intro g
        rw [contents, List.range_succ_eq_map, List.map_cons, List.map_map]
      have htail : f₁ ∘ Nat.succ = s.elems ∘ Nat.succ := by
        funext k
        exact Function.update_of_ne (Nat.succ_ne_zero k) _ _
      rw [contents_succ s.elems, hsucc s.elems, hsucc f₁, htail, hf₁, Function.update_self,
        List.cons_append]
      exact (List.perm_append_singleton _ _).cons _

/-- The loop of `heap_delete` puts the element at the root and leaves the rest in order. -/
lemma toRoot_spec (fuel : ℕ) {s : Heap T} {i : ℕ} (hfuel : i < fuel) (hi : i < s.size)
    (hsize : s.size ≤ s.maxsize) (hlt : s.size < 2 ^ 31) (h : HeapExcept rank s.elems s.size i) :
    ∃ f, toRoot fuel s i = some { s with elems := f } ∧ f 0 = s.elems i ∧
      HeapExcept rank f s.size 0 ∧ (contents f s.size).Perm (contents s.elems s.size) := by
  induction fuel generalizing s i with
  | zero => omega
  | succ fuel ih =>
    rw [toRoot]
    by_cases h0 : i = 0
    · subst h0
      exact ⟨s.elems, if_pos rfl, rfl, h, List.Perm.refl _⟩
    have hpos : 0 < i := by omega
    have hpar := parentOf_lt hpos
    rw [if_neg h0, parent_eq hpos (by omega), swap_eq (by omega) (by omega)]
    simp only [Option.bind_eq_bind, Option.bind_some]
    obtain ⟨f, heq, hroot, hex, hperm⟩ := ih (s := { s with elems := exchange s.elems i (parentOf i) })
      (i := parentOf i) (by omega) (hpar.trans hi) hsize hlt (h.up hpos hi)
    exact ⟨f, heq, hroot.trans exchange_right, hex,
      hperm.trans (contents_exchange hi (hpar.trans hi))⟩

lemma memberFrom_spec {s : Heap T} (elem : Event T) (n : ℕ) {i : ℕ} (hn : i + n = s.size)
    (hsize : s.size ≤ s.maxsize) (hlt : s.size < 2 ^ 31)
    (hmem : ∃ k, i ≤ k ∧ k < s.size ∧ (s.elems k).elem = elem) :
    ∃ k : ℕ, s.memberFrom elem n i = some ((k : ℤ) + 1) ∧ k < s.size ∧ (s.elems k).elem = elem := by
  induction n generalizing i with
  | zero =>
    obtain ⟨k, hk, hks, -⟩ := hmem
    omega
  | succ n ih =>
    rw [memberFrom, get_eq (by omega)]
    simp only [Option.bind_eq_bind, Option.bind_some]
    by_cases he : (s.elems i).elem = elem
    · refine ⟨i, ?_, by omega, he⟩
      rw [if_pos he, Int.bmod_eq_of_le (by omega) (by omega)]
    · rw [if_neg he]
      refine ih (by omega) ?_
      obtain ⟨k, hk, hks, hke⟩ := hmem
      have hne : k ≠ i := by
        rintro rfl
        exact he hke
      exact ⟨k, by omega, hks, hke⟩

/-- `heap_delete` takes out one element that holds the event, and leaves a heap. -/
lemma heapDelete_spec {s : Heap T} {n : ℕ} (hn : s.size = n + 1) (hsize : s.size ≤ s.maxsize)
    (hlt : s.size < 2 ^ 31) (h : IsHeap rank s.elems s.size) {elem : Event T}
    (hmem : ∃ x ∈ contents s.elems s.size, x.elem = elem) :
    ∃ f x, s.heapDelete elem = some { s with elems := f, size := n } ∧ x.elem = elem ∧
      IsHeap rank f n ∧ (contents s.elems (n + 1)).Perm (x :: contents f n) := by
  obtain ⟨x, hx, hxe⟩ := hmem
  obtain ⟨k₀, hk₀, hk₀x⟩ := mem_contents.mp hx
  obtain ⟨k, heq, hk, hke⟩ := memberFrom_spec elem s.size (Nat.zero_add _) hsize hlt
    ⟨k₀, Nat.zero_le _, hk₀, by rw [hk₀x]; exact hxe⟩
  obtain ⟨f₁, hroot, hf0, hex, hperm₁⟩ := toRoot_spec (k + 1) (Nat.lt_succ_self k) hk hsize hlt
    (h.heapExcept k)
  obtain ⟨f, hext, hheap, hperm⟩ := heapExtractMin_spec (s := { s with elems := f₁ }) hn hsize
    (by omega) hex
  refine ⟨f, f₁ 0, ?_, by rw [hf0]; exact hke, hheap, ?_⟩
  · have hne : ¬(k : ℤ) + 1 = 0 := by omega
    have hne' : ¬(k : ℤ) + 1 = -2 ^ 31 := by omega
    have hidx : (((k : ℤ) + 1 - 1) % 2 ^ 32).toNat = k := by omega
    unfold heapDelete heapMember
    simp only [heq, Option.bind_eq_bind, Option.bind_some, if_neg hne, if_neg hne', hidx, hroot, hext]
  · rw [hn] at hperm₁
    exact hperm₁.symm.trans hperm

end Heap

end NetworkSimulator
