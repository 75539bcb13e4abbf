import NetworkSimulator.Nix.NixWords

/-!
# What is added to a nix-vector and what is extracted

Bit `b` of word `j` is the place `32 * j + 31 - b` of the vector. The entries lie one behind the other, each with
its highest bit first; behind the last one the words are clear. An entry that spans two words leaves the bits that
belong to the first word above the lower half of the second one too, where a word has room for them.
-/

namespace NetworkSimulator
open Library

namespace NixWords
variable {W o o' n used : ℕ} {v : NixWords W} {ws ws' : List (BitVec W)} {p : BitVec W × ℕ} {x y : BitVec W}
  {l : List (BitVec W × ℕ)}

/-- An entry of `n` bits from place `o` on does not fit into the word it begins in. -/
def Spans (o n : ℕ) : Prop := 32 < o % 32 + n

instance : Decidable (Spans o n) := inferInstanceAs (Decidable (_ < _))

/-- An entry lies from place `o` on. -/
def Stored (ws : List (BitVec W)) (o : ℕ) (p : BitVec W × ℕ) : Prop :=
  if Spans o p.2 then
    ∃ x y, ws[o / 32]? = some x ∧ ws[o / 32 + 1]? = some y ∧
      (∀ q, q < 32 - o % 32 → x.getLsbD q = p.1.getLsbD (o % 32 + p.2 - 32 + q)) ∧
      ∀ q, 64 - o % 32 - p.2 + q < W → y.getLsbD (64 - o % 32 - p.2 + q) = p.1.getLsbD q
  else ∃ x, ws[o / 32]? = some x ∧ ∀ q, q < p.2 → x.getLsbD (32 - o % 32 - p.2 + q) = p.1.getLsbD q

/-- There is nothing at and behind a place. -/
def ClearFrom (ws : List (BitVec W)) (used : ℕ) : Prop :=
  ∀ j x b, ws[j]? = some x → used + b < 32 * j + 32 → x.getLsbD b = false

/-- Nothing in front of a place has changed. -/
def Extends (used : ℕ) (ws ws' : List (BitVec W)) : Prop :=
  ∀ j x, ws[j]? = some x → ∃ x', ws'[j]? = some x' ∧ ∀ b, 32 * j + 32 ≤ used + b → x'.getLsbD b = x.getLsbD b

lemma Extends.trans {ws₁ ws₂ : List (BitVec W)} (h : Extends used ws ws₁) (h' : Extends used ws₁ ws₂) :
    Extends used ws ws₂ := by
  intro j x hx
  obtain ⟨x₁, hx₁, hsame⟩ := h j x hx
  obtain ⟨x₂, hx₂, hsame'⟩ := h' j x₁ hx₁
  exact ⟨x₂, hx₂, fun b hb => (hsame' b hb).trans (hsame b hb)⟩

lemma Extends.stored (h : Extends used ws ws') (hs : Stored ws o p) (hle : o + p.2 ≤ used) : Stored ws' o p := by
  have hplace := Nat.div_add_mod o 32
  rw [Stored] at hs ⊢
  by_cases hspan : Spans o p.2
  · have hlt : 32 < o % 32 + p.2 := hspan
    rw [if_pos hspan] at hs ⊢
    obtain ⟨x, y, hx, hy, hfirst, hsecond⟩ := hs
    obtain ⟨x', hx', hsame⟩ := h _ x hx
    obtain ⟨y', hy', hsame'⟩ := h _ y hy
    refine ⟨x', y', hx', hy', fun q hq => ?_, fun q hq => ?_⟩
    · rw [hsame q (by omega), hfirst q hq]
    · rw [hsame' _ (by omega), hsecond q hq]
  · have hle : o % 32 + p.2 ≤ 32 := Nat.not_lt.mp hspan
    rw [if_neg hspan] at hs ⊢
    obtain ⟨x, hx, hbits⟩ := hs
    obtain ⟨x', hx', hsame⟩ := h _ x hx
    exact ⟨x', hx', fun q hq => by rw [hsame _ (by omega), hbits q hq]⟩

/-! ### Words that change -/

lemma orWord_eq {i : ℕ} (h : ws[i]? = some x) : orWord ws i y = some (ws.set i (x ||| y)) := by
  rw [orWord, h, Option.map_some]

lemma getElem?_set_of_some {i j : ℕ} (h : ws[i]? = some x) :
    (ws.set i y)[j]? = if j = i then some y else ws[j]? := by
  by_cases hj : j = i
  · subst hj
    rw [if_pos rfl, List.getElem?_set_self (List.getElem?_eq_some_iff.mp h).1]
  · rw [if_neg hj, List.getElem?_set_ne (Ne.symm hj)]

/-- A word is added. -/
lemma extends_append_zero : Extends used ws (ws ++ [0]) := fun _ x hx =>
  ⟨x, (List.getElem?_append_left (List.getElem?_eq_some_iff.mp hx).1).trans hx, fun _ _ => rfl⟩

lemma ClearFrom.append_zero (h : ClearFrom ws used) : ClearFrom (ws ++ [0]) used := by
  intro j x b hx hb
  by_cases hj : j < ws.length
  · rw [List.getElem?_append_left hj] at hx
    exact h j x b hx hb
  · rw [List.getElem?_append_right (Nat.not_lt.mp hj)] at hx
    obtain rfl : x = 0 := by
      have hmem := List.mem_of_getElem? hx
      exact List.mem_singleton.mp hmem
    exact BitVec.getLsbD_zero

lemma ClearFrom.mono (h : ClearFrom ws used) (hle : used ≤ o) : ClearFrom ws o :=
  fun j x b hx hb => h j x b hx (by omega)

/-- Bits are put into a word behind a place. -/
lemma Extends.set {k : ℕ} (hx : ws[k]? = some x) (hy : ∀ b, 32 * k + 32 ≤ used + b → y.getLsbD b = false) :
    Extends used ws (ws.set k (x ||| y)) := by
  intro j x' hx'
  rw [getElem?_set_of_some hx]
  by_cases hj : j = k
  · subst hj
    obtain rfl := Option.some.inj (hx.symm.trans hx')
    refine ⟨x ||| y, if_pos rfl, fun b hb => ?_⟩
    rw [BitVec.getLsbD_or, hy b hb, Bool.or_false]
  · exact ⟨x', by rw [if_neg hj, hx'], fun _ _ => rfl⟩

lemma ClearFrom.set {k : ℕ} (h : ClearFrom ws o) (hx : ws[k]? = some x)
    (hy : ∀ b, o + b < 32 * k + 32 → y.getLsbD b = false) : ClearFrom (ws.set k (x ||| y)) o := by
  intro j x' b hx' hb
  rw [getElem?_set_of_some hx] at hx'
  by_cases hj : j = k
  · subst hj
    rw [if_pos rfl] at hx'
    obtain rfl := Option.some.inj hx'
    rw [BitVec.getLsbD_or, h j x b hx hb, hy b hb, Bool.or_false]
  · rw [if_neg hj] at hx'
    exact h j x' b hx' hb

/-- An entry that fits is put behind what is in use. -/
lemma put_one (hW : IsWord W) (hclear : ClearFrom ws used) (hx : ws[used / 32]? = some x) (hn : 0 < p.2)
    (hfit : used % 32 + p.2 ≤ 32) (hp : p.1.toNat < 2 ^ p.2) :
    let ws' := ws.set (used / 32) (x ||| (p.1 <<< (32 - used % 32 - p.2)))
    Extends used ws ws' ∧ ClearFrom ws' (used + p.2) ∧ Stored ws' used p := by
  have hplace := Nat.div_add_mod used 32
  have hword : 32 ≤ W := by rcases hW with rfl | rfl <;> decide
  refine ⟨Extends.set hx fun b hb => ?_, (hclear.mono (Nat.le_add_right _ _)).set hx fun b hb => ?_, ?_⟩
  · rw [BitVec.getLsbD_shiftLeft, getLsbD_of_lt hp (by omega), Bool.and_false]
  · rw [BitVec.getLsbD_shiftLeft, decide_eq_true (show b < 32 - used % 32 - p.2 by omega), Bool.not_true,
      Bool.and_false, Bool.false_and]
  · have hone : ¬Spans used p.2 := Nat.not_lt.mpr hfit
    rw [Stored, if_neg hone]
    refine ⟨_, by rw [getElem?_set_of_some hx, if_pos rfl], fun q hq => ?_⟩
    rw [BitVec.getLsbD_or, hclear _ x _ hx (by omega), BitVec.getLsbD_shiftLeft, Nat.add_sub_cancel_left,
      decide_eq_true (show 32 - used % 32 - p.2 + q < W by omega),
      decide_eq_false (show ¬32 - used % 32 - p.2 + q < 32 - used % 32 - p.2 by omega)]
    simp

/-- An entry that does not fit is put into two words. -/
lemma put_two (hclear : ClearFrom ws used) (hx : ws[used / 32]? = some x)
    (hy : ws[used / 32 + 1]? = some 0) (hspan : Spans used p.2) (hn : p.2 ≤ 32) (hp : p.1.toNat < 2 ^ p.2) :
    let ws₁ := ws.set (used / 32) (x ||| (p.1 >>> (used % 32 + p.2 - 32)))
    let ws' := ws₁.set (used / 32 + 1) (0 ||| (p.1 <<< (64 - used % 32 - p.2)))
    ws₁[used / 32 + 1]? = some 0 ∧ Extends used ws ws' ∧ ClearFrom ws' (used + p.2) ∧ Stored ws' used p := by
  have hplace := Nat.div_add_mod used 32
  have hmod := Nat.mod_lt used (show 0 < 32 by decide)
  have hlt : 32 < used % 32 + p.2 := hspan
  intro ws₁ ws'
  have hne : used / 32 + 1 ≠ used / 32 := Nat.succ_ne_self _
  have hy₁ : ws₁[used / 32 + 1]? = some 0 := by rw [getElem?_set_of_some hx, if_neg hne, hy]
  have hx' : ws'[used / 32]? = some (x ||| (p.1 >>> (used % 32 + p.2 - 32))) := by
    rw [getElem?_set_of_some hy₁, if_neg hne.symm, getElem?_set_of_some hx, if_pos rfl]
  have hfirst : ∀ b, 32 - used % 32 ≤ b → (p.1 >>> (used % 32 + p.2 - 32)).getLsbD b = false := fun b hb => by
    rw [BitVec.getLsbD_ushiftRight, getLsbD_of_lt hp (by omega)]
  have hsecond : ∀ b, b < 64 - used % 32 - p.2 → (p.1 <<< (64 - used % 32 - p.2)).getLsbD b = false :=
    fun b hb => by rw [BitVec.getLsbD_shiftLeft, decide_eq_true hb, Bool.not_true, Bool.and_false, Bool.false_and]
  have hext₁ : Extends used ws ws₁ := Extends.set hx fun b hb => hfirst b (by omega)
  have hext : Extends used ws₁ ws' := Extends.set hy₁ fun b hb => by
    rw [BitVec.getLsbD_shiftLeft, getLsbD_of_lt hp (by omega), Bool.and_false]
  have hclear₁ : ClearFrom ws₁ (used + p.2) :=
    (hclear.mono (Nat.le_add_right _ _)).set hx fun b hb => by omega
  refine ⟨hy₁, hext₁.trans hext, hclear₁.set hy₁ fun b hb => hsecond b (by omega), ?_⟩
  · rw [Stored, if_pos hspan]
    refine ⟨_, _, hx', by rw [getElem?_set_of_some hy₁, if_pos rfl], fun q hq => ?_, fun q hq => ?_⟩
    · rw [BitVec.getLsbD_or, hclear _ x _ hx (by omega), Bool.false_or, BitVec.getLsbD_ushiftRight]
    · rw [BitVec.getLsbD_or, BitVec.getLsbD_shiftLeft, Nat.add_sub_cancel_left, decide_eq_true hq,
        decide_eq_false (show ¬64 - used % 32 - p.2 + q < 64 - used % 32 - p.2 by omega)]
      simp

/-! ### `Add` -/

/-- The words of a vector of which all is in use. -/
structure Full (v : NixWords W) (ws : List (BitVec W)) : Prop where
  store : match v.pNV with
    | .value n => v.lth = 32 ∧ ws = [n]
    | .array a => v.lth ≠ 32 ∧ ws = a
  alth : v.alth = v.used
  length : ws.length * 32 = v.lth
  clear : ClearFrom ws v.used

lemma lth_eq (h : v.alth = v.used) : v.lth = if v.used = 0 then 32 else ((v.used - 1) / 32 + 1) * 32 := by
  rw [lth, h]
  rfl

lemma shiftIn_eq {lth : ℕ} (h : used + n ≤ lth) : shiftIn used lth n = lth - used - n := by
  rw [shiftIn, NIX_BPW]
  omega

lemma init_full : Full (init W) [0] where
  store := ⟨rfl, rfl⟩
  alth := rfl
  length := rfl
  clear := by
    intro j x b hx _
    obtain rfl : x = 0 := List.mem_singleton.mp (List.mem_of_getElem? hx)
    exact BitVec.getLsbD_zero

lemma Full.oldWords (h : Full v ws) : v.oldWords = some ws := by
  have hstore := h.store
  have hlen := h.length
  rw [NixWords.oldWords]
  cases hpNV : v.pNV with
  | value n =>
    rw [hpNV] at hstore
    obtain ⟨hlth, rfl⟩ := hstore
    exact if_pos hlth
  | array a =>
    rw [hpNV] at hstore
    obtain ⟨hlth, rfl⟩ := hstore
    have htake : v.lth / NIX_BPW = ws.length := by
      rw [← hlen, NIX_BPW]
      omega
    dsimp only
    rw [if_neg (show ¬v.lth = NIX_BPW from hlth), htake, List.take_length]

/-- There is room in the last word. -/
lemma Full.last (h : Full v ws) (hlt : v.used < v.lth) :
    v.lth = 32 * (v.used / 32) + 32 ∧ ∃ x, ws[v.used / 32]? = some x := by
  have hlth := lth_eq h.alth
  have hlen := h.length
  have hlast : v.lth = 32 * (v.used / 32) + 32 := by
    split at hlth <;> omega
  exact ⟨hlast, _, List.getElem?_eq_getElem (by omega)⟩

/-- The length in words after an entry. -/
lemma lth_add {store : NixStore W} {k : ℕ} (hn : 0 < n) (hlo : 32 * k < used + n) (hhi : used + n ≤ 32 * k + 32) :
    (⟨store, used + n, used + n⟩ : NixWords W).lth = 32 * k + 32 := by
  rw [lth_eq rfl]
  dsimp only
  rw [if_neg (by omega)]
  omega

/-- An entry that fits. -/
lemma addIn_spec (hW : IsWord W) (h : Full v ws) (hn : 0 < p.2) (hp : p.1.toNat < 2 ^ p.2)
    (hfit : v.used + p.2 ≤ v.lth) :
    ∃ v' ws', v.add p = some v' ∧ Full v' ws' ∧ v'.used = v.used + p.2 ∧ Extends v.used ws ws' ∧
      Stored ws' v.used p := by
  obtain ⟨hlth, x, hx⟩ := h.last (by omega)
  have hplace := Nat.div_add_mod v.used 32
  have hshift : shiftIn v.used v.lth p.2 = 32 - v.used % 32 - p.2 := by
    rw [shiftIn_eq hfit]
    omega
  obtain ⟨hext, hclear, hstored⟩ := put_one hW h.clear hx hn (by omega) hp
  have hadd : ∀ store, v.addIn p = some store →
      v.add p = some ⟨store, v.used + p.2, v.used + p.2⟩ := fun store hstore => by
    rw [add, if_neg hn.ne']
    dsimp only
    rw [if_neg (Nat.not_lt.mpr hfit), hstore, Option.map_some,
      if_pos (show v.used + p.2 > v.alth by rw [h.alth]; omega)]
  have hlth' : ∀ store, (⟨store, v.used + p.2, v.used + p.2⟩ : NixWords W).lth = v.lth := fun store => by
    rw [hlth]
    exact lth_add hn (by omega) (by omega)
  have hstore := h.store
  have hlen := h.length
  cases hpNV : v.pNV with
  | value m =>
    rw [hpNV] at hstore
    obtain ⟨hone, rfl⟩ := hstore
    have hzero : v.used / 32 = 0 := by omega
    rw [hzero] at hx
    obtain rfl : m = x := Option.some.inj hx
    rw [hzero] at hext hclear hstored
    have hin : v.addIn p = some (.value (m ||| (p.1 <<< (32 - v.used % 32 - p.2)))) := by
      rw [addIn, hshift, hpNV]
      exact if_pos hone
    refine ⟨_, _, hadd _ hin, ⟨⟨?_, rfl⟩, rfl, ?_, hclear⟩, rfl, hext, hstored⟩
    · rw [hlth', hone]
    · rw [hlth', ← hlen]
      rfl
  | array a =>
    rw [hpNV] at hstore
    obtain ⟨hmany, rfl⟩ := hstore
    have hin : v.addIn p = some (.array (ws.set (v.used / 32) (x ||| (p.1 <<< (32 - v.used % 32 - p.2))))) := by
      rw [addIn, hshift, hpNV]
      dsimp only
      rw [if_neg (show ¬v.lth = NIX_BPW from hmany), NIX_BPW, orWord_eq hx, Option.map_some]
    refine ⟨_, _, hadd _ hin, ⟨⟨?_, rfl⟩, rfl, ?_, hclear⟩, rfl, hext, hstored⟩
    · rw [hlth']
      exact hmany
    · rw [hlth', List.length_set, hlen]

/-- An entry that does not fit. -/
lemma addRoom_spec (hW : IsWord W) (h : Full v ws) (hn : 0 < p.2) (hn' : p.2 ≤ 32) (hp : p.1.toNat < 2 ^ p.2)
    (hroom : v.lth < v.used + p.2) :
    ∃ v' ws', v.add p = some v' ∧ Full v' ws' ∧ v'.used = v.used + p.2 ∧ Extends v.used ws ws' ∧
      Stored ws' v.used p := by
  have hplace := Nat.div_add_mod v.used 32
  have hlen := h.length
  have hlth := lth_eq h.alth
  have hle : v.used ≤ v.lth := by
    split at hlth <;> omega
  have hpos : 0 < v.lth := by
    split at hlth <;> omega
  have hadd : ∀ a, v.addRoom p = some (.array a) →
      v.add p = some ⟨.array a, v.used + p.2, v.used + p.2⟩ := fun a ha => by
    rw [add, if_neg hn.ne']
    dsimp only
    rw [if_pos hroom, ha, Option.map_some,
      if_pos (show v.used + p.2 > v.alth by rw [h.alth]; omega)]
  have hlth' : ∀ store, (⟨store, v.used + p.2, v.used + p.2⟩ : NixWords W).lth = v.lth + 32 := fun store => by
    have hk : v.lth = 32 * (ws.length - 1) + 32 := by
      split at hlth <;> omega
    rw [hk]
    exact lth_add (k := ws.length) hn (by omega) (by omega) |>.trans (by omega)
  have hlast : (ws ++ [0])[ws.length]? = some (0 : BitVec W) := List.getElem?_concat_length
  have hclear₀ := h.clear.append_zero
  by_cases hedge : v.used = v.lth
  · have hword : v.used / 32 = ws.length := by omega
    have hshift : shiftIn v.used (v.lth + NIX_BPW) p.2 = 32 - v.used % 32 - p.2 := by
      rw [NIX_BPW, shiftIn_eq (by omega)]
      omega
    rw [← hword] at hlast
    obtain ⟨hext, hclear, hstored⟩ := put_one hW hclear₀ hlast hn (by omega) hp
    have hin : v.addRoom p =
        some (.array ((ws ++ [0]).set (v.used / 32) (0 ||| (p.1 <<< (32 - v.used % 32 - p.2))))) := by
      rw [addRoom, h.oldWords, Option.bind_some, if_pos hedge, hshift, NIX_BPW, orWord_eq hlast, Option.map_some]
    refine ⟨_, _, hadd _ hin, ⟨⟨?_, rfl⟩, rfl, ?_, hclear⟩, rfl, extends_append_zero.trans hext, hstored⟩
    · rw [hlth']
      omega
    · rw [hlth', List.length_set, List.length_append, List.length_singleton]
      omega
  · obtain ⟨hlth₁, x, hx⟩ := h.last (by omega)
    have hword : v.used / 32 + 1 = ws.length := by omega
    rw [← hword] at hlast
    have hx₀ : (ws ++ [0])[v.used / 32]? = some x := by
      rw [List.getElem?_append_left (by omega), hx]
    have hspan : Spans v.used p.2 := show 32 < v.used % 32 + p.2 by omega
    obtain ⟨hx₁, hext, hclear, hstored⟩ := put_two hclear₀ hx₀ hlast hspan hn' hp
    have hleft : p.2 - (v.lth - v.used) = v.used % 32 + p.2 - 32 := by omega
    have hrest : 32 - (v.used % 32 + p.2 - 32) = 64 - v.used % 32 - p.2 := by omega
    have hin : v.addRoom p =
        some (.array (((ws ++ [0]).set (v.used / 32) (x ||| (p.1 >>> (v.used % 32 + p.2 - 32)))).set
          (v.used / 32 + 1) (0 ||| (p.1 <<< (64 - v.used % 32 - p.2))))) := by
      rw [addRoom, h.oldWords, Option.bind_some, if_neg hedge]
      dsimp only
      rw [hleft, NIX_BPW, orWord_eq hx₀, Option.bind_some, orWord_eq hx₁, Option.map_some, hrest]
    refine ⟨_, _, hadd _ hin, ⟨⟨?_, rfl⟩, rfl, ?_, hclear⟩, rfl, extends_append_zero.trans hext, hstored⟩
    · rw [hlth']
      omega
    · rw [hlth', List.length_set, List.length_set, List.length_append, List.length_singleton]
      omega

lemma add_spec (hW : IsWord W) (h : Full v ws) (hn : 0 < p.2) (hn' : p.2 ≤ 32) (hp : p.1.toNat < 2 ^ p.2) :
    ∃ v' ws', v.add p = some v' ∧ Full v' ws' ∧ v'.used = v.used + p.2 ∧ Extends v.used ws ws' ∧
      Stored ws' v.used p := by
  rcases Nat.lt_or_ge v.lth (v.used + p.2) with hroom | hfit
  · exact addRoom_spec hW h hn hn' hp hroom
  · exact addIn_spec hW h hn hp hfit

/-- The entries lie one behind the other. -/
def StoredAll (ws : List (BitVec W)) : ℕ → List (BitVec W × ℕ) → Prop
  | _, [] => True
  | o, p :: l => Stored ws o p ∧ StoredAll ws (o + p.2) l

/-- A value of at least one bit and at most a word. -/
def Entry (p : BitVec W × ℕ) : Prop := 0 < p.2 ∧ p.2 ≤ 32 ∧ p.1.toNat < 2 ^ p.2

lemma Extends.mono (h : Extends used ws ws') (hle : o ≤ used) : Extends o ws ws' := by
  intro j x hx
  obtain ⟨x', hx', hsame⟩ := h j x hx
  exact ⟨x', hx', fun b hb => hsame b (by omega)⟩

lemma adds_spec (hW : IsWord W) (h : Full v ws) (hl : ∀ p ∈ l, Entry p) :
    ∃ v' ws', l.foldlM add v = some v' ∧ Full v' ws' ∧ v'.used = v.used + (l.map Prod.snd).sum ∧
      Extends v.used ws ws' ∧ StoredAll ws' v.used l := by
  induction l generalizing v ws with
  | nil => exact ⟨v, ws, rfl, h, rfl, fun j x hx => ⟨x, hx, fun _ _ => rfl⟩, trivial⟩
  | cons p l ih =>
    obtain ⟨hn, hn', hp⟩ := hl p List.mem_cons_self
    obtain ⟨v₁, ws₁, hadd, h₁, hused₁, hext₁, hstored⟩ := add_spec hW h hn hn' hp
    obtain ⟨v', ws', hadds, h', hused', hext', hall⟩ := ih h₁ fun q hq => hl q (List.mem_cons_of_mem p hq)
    rw [hused₁] at hext' hall
    refine ⟨v', ws', ?_, h', ?_, hext₁.trans (hext'.mono (Nat.le_add_right _ _)), ?_, hall⟩
    · rw [List.foldlM_cons, hadd, Option.bind_eq_bind, Option.bind_some, hadds]
    · rw [hused', hused₁, List.map_cons, List.sum_cons, Nat.add_assoc]
    · exact hext'.stored hstored le_rfl

/-! ### `Extract` -/

/-- The words that a vector is read from. -/
def Backed (v : NixWords W) (ws : List (BitVec W)) : Prop :=
  match v.pNV with
  | .value n => v.lth = 32 ∧ ws = [n]
  | .array a => v.lth ≠ 32 ∧ ws = a

lemma Backed.getWord {i : ℕ} (h : Backed v ws) (hx : ws[i]? = some x) : v.getWord i = some x := by
  rw [NixWords.getWord]
  rw [Backed] at h
  cases hpNV : v.pNV with
  | value n =>
    rw [hpNV] at h
    obtain ⟨hone, rfl⟩ := h
    obtain rfl : x = n := List.mem_singleton.mp (List.mem_of_getElem? hx)
    exact if_pos hone
  | array a =>
    rw [hpNV] at h
    obtain ⟨hmany, rfl⟩ := h
    exact (if_neg hmany).trans hx

lemma Backed.arrayWord {i : ℕ} (h : Backed v ws) (hy : ws[i + 1]? = some y) : v.arrayWord (i + 1) = some y := by
  rw [NixWords.arrayWord]
  rw [Backed] at h
  cases hpNV : v.pNV with
  | value n =>
    rw [hpNV] at h
    obtain ⟨hone, rfl⟩ := h
    exact absurd (List.getElem?_eq_some_iff.mp hy).1 (by simp)
  | array a =>
    rw [hpNV] at h
    obtain ⟨hmany, rfl⟩ := h
    exact hy

/-- What an entry from place `o` on is extracted as. -/
def extracted (o : ℕ) (p : BitVec W × ℕ) : BitVec W := if Spans o p.2 then p.1 else fieldValue p.1

lemma extractOne_eq (hW : IsWord W) {bit : ℕ} (hp : Entry p) (hfit : bit + p.2 ≤ 32)
    (hbits : ∀ q, q < p.2 → x.getLsbD (32 - bit - p.2 + q) = p.1.getLsbD q) :
    extractOne x bit p.2 = fieldValue p.1 := by
  obtain ⟨hn, hn', hlt⟩ := hp
  have hfield : extractOne x bit p.2 = readField p.2 (32 - bit - p.2) x := by
    have hplace : 32 - (32 - bit - p.2 + p.2) = bit := by omega
    rw [readField, fieldMask, hplace]
    rfl
  refine BitVec.eq_of_getLsbD_eq fun q _ => ?_
  rw [hfield, getLsbD_readField hW hn (by omega), getLsbD_fieldValue hW]
  by_cases hq : q < p.2
  · rw [hbits q hq, decide_eq_decide.mpr (show (q < p.2 ∧ (W = 32 ∨ q = 0)) ↔ (W = 32 ∨ q = 0) from
      ⟨fun h => h.2, fun h => ⟨hq, h⟩⟩)]
  · rw [getLsbD_of_lt hlt (Nat.not_lt.mp hq), Bool.false_and, decide_eq_false (fun h => hq h.1), Bool.and_false]

lemma extractTwo_eq (hW : IsWord W) {bit : ℕ} (hp : Entry p) (hbit : bit < 32) (hspan : 32 < bit + p.2)
    (hfirst : ∀ q, q < 32 - bit → x.getLsbD q = p.1.getLsbD (bit + p.2 - 32 + q))
    (hsecond : ∀ q, 64 - bit - p.2 + q < W → y.getLsbD (64 - bit - p.2 + q) = p.1.getLsbD q) :
    extractTwo x y bit p.2 = p.1 := by
  obtain ⟨hn, hn', hlt⟩ := hp
  have hfield : x &&& (signMask W (32 - bit) >>> bit) = readField (32 - bit) 0 x := by
    have hplace : 32 - (0 + (32 - bit)) = bit := by omega
    rw [readField, fieldMask, hplace, BitVec.ushiftRight_zero]
  have hrest : 32 - (p.2 - (32 - bit)) = 64 - bit - p.2 := by omega
  refine BitVec.eq_of_getLsbD_eq fun i hi => ?_
  rw [extractTwo, NIX_BPW, hfield, hrest, BitVec.getLsbD_or, BitVec.getLsbD_shiftLeft, BitVec.getLsbD_ushiftRight,
    getLsbD_readField hW (by omega) (by omega), Nat.zero_add]
  -- what the first word gives agrees with the value
  have hpart : (decide (i < W) && !decide (i < p.2 - (32 - bit)) &&
      (x.getLsbD (i - (p.2 - (32 - bit))) && decide (i - (p.2 - (32 - bit)) < 32 - bit ∧
        (W = 32 ∨ i - (p.2 - (32 - bit)) = 0)))) = true → p.1.getLsbD i = true := by
    intro h
    simp only [Bool.and_eq_true, Bool.not_eq_true', decide_eq_true_eq, decide_eq_false_iff_not] at h
    obtain ⟨⟨-, hge⟩, hx, hq, -⟩ := h
    rw [hfirst _ hq] at hx
    rwa [show bit + p.2 - 32 + (i - (p.2 - (32 - bit))) = i by omega] at hx
  by_cases hin : 64 - bit - p.2 + i < W
  · rw [hsecond i hin]
    cases hv : p.1.getLsbD i with
    | true => rw [Bool.or_true]
    | false =>
      rw [Bool.or_false]
      exact Bool.eq_false_iff.mpr fun h => by rw [hpart h] at hv; cases hv
  · rw [BitVec.getLsbD_of_ge _ _ (Nat.not_lt.mp hin), Bool.or_false]
    by_cases hq : i < p.2
    · have hW : W = 32 := by
        rcases hW with h | h <;> omega
      rw [hfirst _ (by omega), show bit + p.2 - 32 + (i - (p.2 - (32 - bit))) = i by omega, decide_eq_true hi,
        decide_eq_false (show ¬i < p.2 - (32 - bit) by omega),
        decide_eq_true (show i - (p.2 - (32 - bit)) < 32 - bit ∧ (W = 32 ∨ i - (p.2 - (32 - bit)) = 0) from
          ⟨by omega, .inl hW⟩)]
      simp
    · have hv := getLsbD_of_lt hlt (Nat.not_lt.mp hq)
      rw [hv]
      exact Bool.eq_false_iff.mpr fun h => by rw [hpart h] at hv; cases hv

/-- An entry that is stored is extracted as far as the mask reaches. -/
lemma extract_spec (hW : IsWord W) (h : Backed v ws) (hp : Entry p) (hle : v.used + p.2 ≤ v.alth)
    (hs : Stored ws v.used p) : v.extract p.2 = some ({ v with used := v.used + p.2 }, extracted v.used p) := by
  have hmod := Nat.mod_lt v.used (show 0 < 32 by decide)
  have hbit : v.used - v.used / 32 * 32 = v.used % 32 := by
    have hplace := Nat.div_add_mod v.used 32
    omega
  rw [Stored] at hs
  rw [extract, NIX_BPW, if_neg (Nat.not_lt.mpr hle), hbit, extracted]
  by_cases hspan : Spans v.used p.2
  · have hlt : 32 < v.used % 32 + p.2 := hspan
    rw [if_pos hspan] at hs ⊢
    obtain ⟨x, y, hx, hy, hfirst, hsecond⟩ := hs
    rw [h.getWord hx, Option.bind_some, if_neg (Nat.not_le.mpr hlt), h.arrayWord hy, Option.map_some, Option.map_some,
      extractTwo_eq hW hp hmod hlt hfirst hsecond]
  · have hfit : v.used % 32 + p.2 ≤ 32 := Nat.not_lt.mp hspan
    rw [if_neg hspan] at hs ⊢
    obtain ⟨x, hx, hbits⟩ := hs
    rw [h.getWord hx, Option.bind_some, if_pos hfit, Option.map_some, extractOne_eq hW hp hfit hbits]

/-- What the entries from place `o` on are extracted as. -/
def extractedAll : ℕ → List (BitVec W × ℕ) → List (BitVec W)
  | _, [] => []
  | o, p :: l => extracted o p :: extractedAll (o + p.2) l

lemma extractAll_spec (hW : IsWord W) (h : Backed v ws) (hl : ∀ p ∈ l, Entry p)
    (hle : v.used + (l.map Prod.snd).sum ≤ v.alth) (hs : StoredAll ws v.used l) :
    v.extractAll (l.map Prod.snd) = some (extractedAll v.used l) := by
  induction l generalizing v with
  | nil => rfl
  | cons p l ih =>
    rw [List.map_cons, List.sum_cons] at hle
    have hfirst := extract_spec hW h (hl p List.mem_cons_self) (by omega) hs.1
    have hrest : extractAll { v with used := v.used + p.2 } (l.map Prod.snd) = some (extractedAll (v.used + p.2) l) :=
      ih (v := { v with used := v.used + p.2 }) h (fun q hq => hl q (List.mem_cons_of_mem p hq))
        (show v.used + p.2 + _ ≤ v.alth by omega) hs.2
    rw [List.map_cons, extractAll, hfirst, Option.bind_some, hrest]
    rfl

/-- Every entry is 0 or 1, or spans two words. -/
def Readable : ℕ → List (BitVec W × ℕ) → Prop
  | _, [] => True
  | o, p :: l => (p.1.toNat ≤ 1 ∨ Spans o p.2) ∧ Readable (o + p.2) l

lemma extractedAll_eq_iff (hW : IsWord W) : extractedAll o l = l.map Prod.fst ↔ W = 32 ∨ Readable o l := by
  induction l generalizing o with
  | nil => exact ⟨fun _ => .inr trivial, fun _ => rfl⟩
  | cons p l ih =>
    have hp : extracted o p = p.1 ↔ W = 32 ∨ (p.1.toNat ≤ 1 ∨ Spans o p.2) := by
      rw [extracted]
      split
      · next h => exact ⟨fun _ => .inr (.inr h), fun _ => rfl⟩
      · next h => rw [fieldValue_eq_iff hW, or_iff_left h]
    rw [extractedAll, List.map_cons, List.cons.injEq, ih, hp, Readable, or_and_left]

/-- Nothing spans two words in a vector of one word. -/
lemma readable_of_short (hl : ∀ p ∈ l, Entry p) (hle : o + (l.map Prod.snd).sum ≤ 32) :
    Readable o l ↔ ∀ p ∈ l, p.1.toNat ≤ 1 := by
  induction l generalizing o with
  | nil => exact ⟨fun _ p hp => absurd hp List.not_mem_nil, fun _ => trivial⟩
  | cons p l ih =>
    rw [List.map_cons, List.sum_cons] at hle
    have hpos := (hl p List.mem_cons_self).1
    have hone : ¬Spans o p.2 := Nat.not_lt.mpr (by omega)
    rw [Readable, or_iff_left hone, ih (fun q hq => hl q (List.mem_cons_of_mem p hq)) (by omega), List.forall_mem_cons]

/-! ### Copies -/

lemma copyWords_getElem? {lth i k : ℕ} {junk : ℕ → BitVec W} :
    (copyWords lth junk i ws)[k]? =
      ws[k]?.map fun w => copyBytes (min (W / 8) (lth / 8 - (i + k) * (W / 8))) w (junk (i + k)) := by
  induction ws generalizing i k with
  | nil => rfl
  | cons w ws ih =>
    cases k with
    | zero => rfl
    | succ k =>
      rw [copyWords, List.getElem?_cons_succ, List.getElem?_cons_succ, ih, Nat.add_right_comm, Nat.add_assoc]

lemma copyBytes_zero {w junk : BitVec W} : copyBytes 0 w junk = junk := by
  refine BitVec.eq_of_getLsbD_eq fun i hi => ?_
  simp [copyBytes, hi]

lemma copyBytes_all {m : ℕ} {w junk : BitVec W} (h : W ≤ 8 * m) : copyBytes m w junk = w := by
  refine BitVec.eq_of_getLsbD_eq fun i hi => ?_
  simp [copyBytes, hi, show i < 8 * m by omega]

/-- Where a word has 32 bits all bytes are copied. -/
lemma copyWords_narrow {junk : ℕ → BitVec 32} {ws : List (BitVec 32)} :
    copyWords (ws.length * 32) junk 0 ws = ws := by
  refine List.ext_getElem? fun k => ?_
  rw [copyWords_getElem?]
  by_cases hk : k < ws.length
  · rw [List.getElem?_eq_getElem hk, Option.map_some, copyBytes_all (by omega)]
  · rw [List.getElem?_eq_none (Nat.not_lt.mp hk), Option.map_none]

/-- Where a word has 64 bits half of the bytes are copied, and the last word is left as it was. -/
lemma copyWords_wide {k : ℕ} {junk : ℕ → BitVec 64} {ws : List (BitVec 64)} (hlen : ws.length = k + 1) (hk : 0 < k) :
    (copyWords (ws.length * 32) junk 0 ws)[k]? = some (junk k) := by
  have hlt : k < ws.length := by omega
  have hbytes : min (64 / 8) (ws.length * 32 / 8 - (0 + k) * (64 / 8)) = 0 := by omega
  rw [copyWords_getElem?, List.getElem?_eq_getElem hlt, Option.map_some, hbytes, copyBytes_zero, Nat.zero_add]

lemma extract_used {r : NixWords W × BitVec W} (hle : v.used + n ≤ v.alth) (h : v.extract n = some r) :
    r.1 = { v with used := v.used + n } := by
  rw [extract, NIX_BPW, if_neg (Nat.not_lt.mpr hle), Option.bind_eq_some_iff] at h
  obtain ⟨w, -, h⟩ := h
  obtain ⟨x, -, rfl⟩ := Option.map_eq_some_iff.mp h
  rfl

/-- The last of the entries that are extracted. -/
lemma extractAll_last {ns : List ℕ} {rs : List (BitVec W)} (hle : v.used + (ns ++ [n]).sum ≤ v.alth)
    (h : v.extractAll (ns ++ [n]) = some rs) :
    ∃ r, rs.getLast? = some r.2 ∧ extract { v with used := v.used + ns.sum } n = some r := by
  induction ns generalizing v rs with
  | nil =>
    rw [List.nil_append, extractAll, Option.bind_eq_some_iff] at h
    obtain ⟨r, hr, hrs⟩ := h
    obtain rfl : [r.2] = rs := Option.some.inj hrs
    exact ⟨r, rfl, hr⟩
  | cons m ns ih =>
    rw [List.cons_append, List.sum_cons] at hle
    rw [List.cons_append, extractAll, Option.bind_eq_some_iff] at h
    obtain ⟨r₁, hr₁, hrest⟩ := h
    obtain ⟨rs', hrs', rfl⟩ := Option.map_eq_some_iff.mp hrest
    rw [extract_used (by omega) hr₁] at hrs'
    obtain ⟨r, hlast, hr⟩ := ih (v := { v with used := v.used + m }) (show v.used + m + _ ≤ v.alth by omega) hrs'
    refine ⟨r, ?_, ?_⟩
    · rw [List.getLast?_cons, hlast, Option.getD_some]
    · rw [List.sum_cons, ← Nat.add_assoc]
      exact hr

/-- The lowest bit of the last entry is a bit of the last word. -/
lemma extract_last_bit (hW : IsWord W) {k alth : ℕ} {β : Bool} {r : NixWords W × BitVec W} (hn : 0 < n) (hn' : n ≤ 32)
    (hend : o + n = alth) (hk : 0 < k) (hlo : 32 * k < alth) (hhi : alth ≤ 32 * k + 32) (hy : ws[k]? = some y)
    (hbits : ∀ b, b < 32 → y.getLsbD b = β) (h : extract ⟨.array ws, o, alth⟩ n = some r) :
    r.2.getLsbD 0 = β := by
  have hplace := Nat.div_add_mod o 32
  have hmod := Nat.mod_lt o (show 0 < 32 by decide)
  have hbit : o - o / 32 * 32 = o % 32 := by omega
  have hmany : (⟨.array ws, o, alth⟩ : NixWords W).lth ≠ 32 := by
    rw [lth, if_neg (show ¬alth = 0 by omega), NIX_BPW]
    dsimp only
    omega
  rw [extract, NIX_BPW, if_neg (show ¬o + n > alth by omega), Option.bind_eq_some_iff] at h
  obtain ⟨w, hw, h⟩ := h
  obtain ⟨x, hx, rfl⟩ := Option.map_eq_some_iff.mp h
  dsimp only at hx ⊢
  rw [hbit] at hx
  by_cases hfit : o % 32 + n ≤ 32
  · rw [if_pos hfit] at hx
    obtain rfl := Option.some.inj hx
    have hw : ws[o / 32]? = some w := (if_neg hmany).symm.trans hw
    rw [show o / 32 = k by omega] at hw
    obtain rfl := Option.some.inj (hw.symm.trans hy)
    have hfield : extractOne w (o % 32) n = readField n (32 - o % 32 - n) w := by
      rw [readField, fieldMask, show 32 - (32 - o % 32 - n + n) = o % 32 by omega]
      rfl
    rw [hfield, getLsbD_readField hW hn (by omega), Nat.add_zero, hbits _ (by omega),
      decide_eq_true ⟨hn, .inr rfl⟩, Bool.and_true]
  · rw [if_neg hfit] at hx
    obtain ⟨next, hnext, rfl⟩ := Option.map_eq_some_iff.mp hx
    have hnext : ws[o / 32 + 1]? = some next := hnext
    rw [show o / 32 + 1 = k by omega] at hnext
    obtain rfl := Option.some.inj (hnext.symm.trans hy)
    rw [extractTwo, NIX_BPW, BitVec.getLsbD_or, BitVec.getLsbD_shiftLeft, BitVec.getLsbD_ushiftRight,
      decide_eq_true (show 0 < n - (32 - o % 32) by omega), Nat.add_zero, hbits _ (by omega)]
    simp

/-- A copy of more than one word of 64 bits shows what the memory held. -/
lemma copy_wide_fails {v : NixWords 64} {ws : List (BitVec 64)} {l : List (BitVec 64 × ℕ)} (h : Full v ws)
    (hl : ∀ p ∈ l, Entry p) (hused : v.used = (l.map Prod.snd).sum) (hlong : 32 < v.used) :
    ¬∀ junk, (v.copy junk).bind (fun c => c.extractAll (l.map Prod.snd)) = some (l.map Prod.fst) := by
  intro hcopy
  have hlth := lth_eq h.alth
  have hlen := h.length
  have hstore := h.store
  rw [if_neg (by omega)] at hlth
  obtain ⟨l, p, rfl⟩ := (List.eq_nil_or_concat' l).resolve_left (by
    rintro rfl
    exact absurd hlong (by rw [hused]; decide))
  obtain ⟨hn, hn', -⟩ := hl p (by simp)
  rw [List.map_append, List.map_singleton] at hused hcopy
  have harray : v.pNV = .array ws := by
    cases hpNV : v.pNV with
    | value m =>
      rw [hpNV] at hstore
      omega
    | array a =>
      rw [hpNV] at hstore
      rw [hstore.2]
  -- both words of zeros and of ones are read as the last value
  have hread : ∀ β (y : BitVec 64), (∀ b, b < 32 → y.getLsbD b = β) → p.1.getLsbD 0 = β := by
    intro β y hbits
    have hrun := hcopy fun _ => y
    rw [copy, if_pos (show v.lth > NIX_BPW by rw [NIX_BPW]; omega), harray, Option.bind_some] at hrun
    have hle : 0 + ((l.map Prod.snd) ++ [p.2]).sum ≤ v.alth := by
      rw [h.alth, hused, Nat.zero_add]
    obtain ⟨r, hlast, hr⟩ := extractAll_last hle hrun
    rw [List.map_append, List.map_singleton, List.getLast?_concat] at hlast
    rw [Option.some.inj hlast]
    rw [List.sum_append, List.sum_singleton] at hused
    have hword : (copyWords v.lth (fun _ => y) 0 ws)[ws.length - 1]? = some y := by
      rw [← hlen]
      exact copyWords_wide (k := ws.length - 1) (by omega) (by omega)
    exact extract_last_bit (k := ws.length - 1) (.inr rfl) hn hn' (by rw [h.alth, hused, Nat.zero_add]) (by omega)
      (by rw [h.alth]; omega) (by rw [h.alth]; omega) hword hbits hr
  have hzero := hread false 0 fun b _ => BitVec.getLsbD_zero
  have hone := hread true (BitVec.allOnes 64) fun b hb => by
    rw [BitVec.getLsbD_allOnes, decide_eq_true (by omega)]
  rw [hzero] at hone
  cases hone

/-- What is added to a vector is extracted again just when a word has 32 bits, or every value is 0 or 1 or spans
two words; from every copy just when a word has 32 bits, or all values are 0 or 1 and fit into one word. -/
theorem round_trip_iff (hW : IsWord W) (l : List (BitVec W × ℕ)) (hl : ∀ p ∈ l, Entry p) :
    ∃ v, l.foldlM add (init W) = some v ∧
      (v.reset.extractAll (l.map Prod.snd) = some (l.map Prod.fst) ↔ W = 32 ∨ Readable 0 l) ∧
      ((∀ junk, (v.copy junk).bind (fun c => c.extractAll (l.map Prod.snd)) = some (l.map Prod.fst)) ↔
        W = 32 ∨ ((l.map Prod.snd).sum ≤ 32 ∧ ∀ p ∈ l, p.1.toNat ≤ 1)) := by
  obtain ⟨v, ws, hrun, h, hused, -, hstored⟩ := adds_spec hW init_full hl
  have hused : v.used = (l.map Prod.snd).sum := hused.trans (Nat.zero_add _)
  have hread : ∀ c : NixWords W, Backed c ws → c.used = 0 → c.alth = v.alth →
      (c.extractAll (l.map Prod.snd) = some (l.map Prod.fst) ↔ W = 32 ∨ Readable 0 l) := by
    intro c hback hzero halth
    have hall := extractAll_spec hW hback hl (by rw [hzero, halth, h.alth, hused, Nat.zero_add]) (hzero ▸ hstored)
    rw [hall, Option.some.injEq, hzero, extractedAll_eq_iff hW]
  refine ⟨v, hrun, hread v.reset h.store rfl rfl, ?_⟩
  have hlth := lth_eq h.alth
  by_cases hshort : v.used ≤ 32
  · have hone : ¬v.lth > NIX_BPW := by
      rw [NIX_BPW]
      split at hlth <;> omega
    have hcopy : ∀ junk, v.copy junk = some ⟨v.pNV, 0, v.alth⟩ := fun junk => if_neg hone
    have hvalues := readable_of_short (o := 0) hl (by rw [Nat.zero_add, ← hused]; exact hshort)
    simp only [hcopy, Option.bind_some, forall_const]
    rw [hread ⟨v.pNV, 0, v.alth⟩ h.store rfl rfl, hvalues, ← hused, and_iff_right hshort]
  · rcases hW with rfl | rfl
    · refine ⟨fun _ => .inl rfl, fun _ junk => ?_⟩
      have hstore := h.store
      have hcopy : v.copy junk = some ⟨.array ws, 0, v.alth⟩ := by
        rw [copy, if_pos (show v.lth > NIX_BPW by rw [NIX_BPW]; split at hlth <;> omega)]
        cases hpNV : v.pNV with
        | value m =>
          rw [hpNV] at hstore
          split at hlth <;> omega
        | array a =>
          rw [hpNV] at hstore
          obtain ⟨-, rfl⟩ := hstore
          rw [← h.length]
          dsimp only
          rw [copyWords_narrow]
      have hmany : (⟨.array ws, 0, v.alth⟩ : NixWords 32).lth ≠ 32 := by
        change v.lth ≠ 32
        split at hlth <;> omega
      rw [hcopy, Option.bind_some]
      exact (hread ⟨.array ws, 0, v.alth⟩ ⟨hmany, rfl⟩ rfl rfl).mpr (.inl rfl)
    · refine iff_of_false (copy_wide_fails h hl hused (Nat.not_le.mp hshort)) ?_
      rintro (h | ⟨h, -⟩)
      · cases h
      · rw [← hused] at h
        exact hshort h

/-- Three entries in words of 32 bits, the second of which spans two of them. -/
theorem round_trip_narrow :
    ∃ v, [(5#32, 20), (1000, 15), (1, 1)].foldlM add (init 32) = some v ∧
      v.reset.extractAll [20, 15, 1] = some [5, 1000, 1] ∧
      (v.copy fun _ => 7).bind (fun c => c.extractAll [20, 15, 1]) = some [5, 1000, 1] := by
  obtain ⟨v, hrun, hread, hcopy⟩ := round_trip_iff (.inl rfl) [(5#32, 20), (1000, 15), (1, 1)]
    (by simp only [Entry]; decide)
  exact ⟨v, hrun, hread.mpr (.inl rfl), hcopy.mpr (.inl rfl) _⟩

/-- Where `unsigned long` has 64 bits an entry of two bits with the value 2 is extracted as 0. -/
theorem round_trip_wide :
    ([(2#64, 2)].foldlM add (init 64)).bind (fun v => v.reset.extractAll [2]) = some [0] := by decide +kernel

end NixWords

end NetworkSimulator
