import Mathlib.Algebra.Order.Ring.Nat
import Mathlib.Data.Nat.Init
import NetworkSimulator.Library.BitFields

/-!
# `BitMap`

The map of `routealgo/rbitmap.h` and `routealgo/rbitmap.cc` on a platform whose `u_long` has `W` bits: entries of
a number of bits each in the lower 32 bits of each word. `none` is a failed assertion or a word that is not there.
-/

namespace NetworkSimulator
open Library

def BITS_ULONG : ℕ := 32

/-- `m_pM`, which is the data itself where one word is enough. -/
inductive BitMapWords (W : ℕ)
  | data (w : BitVec W)
  | array (a : List (BitVec W))

structure BitMap (W : ℕ) where
  size : ℕ
  bpe : ℕ -- bits per entry
  words : ℕ
  epw : ℕ -- entries per word
  pM : BitMapWords W

namespace BitMap
variable {W : ℕ}

def init (W size bitsPerEntry : ℕ) : BitMap W :=
  let epw := BITS_ULONG / bitsPerEntry
  let words := (size + epw - 1) / epw
  ⟨size, bitsPerEntry, words, epw, if words > 1 then .array (List.replicate words 0) else .data 0⟩

/-- What `GetWordAddress` points to. -/
def getWord (b : BitMap W) (which : ℕ) : Option (BitVec W) :=
  if which < b.size then
    match b.pM with
    | .data w => if b.words = 1 then some w else none
    | .array a => if b.words = 1 then none else a[which / b.epw]?
  else none

/-- The word that `GetWordAddress` points to is written. -/
def putWord (b : BitMap W) (which : ℕ) (w : BitVec W) : BitMap W :=
  match b.pM with
  | .data _ => { b with pM := .data w }
  | .array a => { b with pM := .array (a.set (which / b.epw) w) }

def getShiftCount (b : BitMap W) (which : ℕ) : ℕ := (which - which / b.epw * b.epw) * b.bpe

def getBitMask (b : BitMap W) (which : ℕ) : BitVec W :=
  (BitVec.ofNat W 0x80000000).sshiftRight (b.bpe - 1) >>> (32 - (b.getShiftCount which + b.bpe))

def set (b : BitMap W) (which : ℕ) (value : BitVec W) : Option (BitMap W) :=
  (b.getWord which).map fun w =>
    b.putWord which ((w &&& ~~~b.getBitMask which) ||| (value <<< b.getShiftCount which))

def get (b : BitMap W) (which : ℕ) : Option (BitVec W) :=
  (b.getWord which).map fun w => (w &&& b.getBitMask which) >>> b.getShiftCount which

variable {b b' : BitMap W} {i j : ℕ} {v w : BitVec W}

lemma set_eq : b.set i v =
    (b.getWord i).map fun w => b.putWord i (writeField b.bpe (b.getShiftCount i) v w) := rfl

lemma get_eq : b.get i = (b.getWord i).map (readField b.bpe (b.getShiftCount i)) := rfl

/-- Entries have a size that the words have room for, and there is a word for each. -/
structure WellFormed (b : BitMap W) : Prop where
  bpe_pos : 0 < b.bpe
  bpe_le : b.bpe ≤ 32
  epw : b.epw = 32 / b.bpe
  inRange : ∀ i, i < b.size → i / b.epw < b.words
  stored : 0 < b.size → match b.pM with
    | .data _ => b.words = 1
    | .array a => b.words ≠ 1 ∧ a.length = b.words

lemma WellFormed.epw_pos (h : WellFormed b) : 0 < b.epw := by
  rw [h.epw]
  exact Nat.div_pos h.bpe_le h.bpe_pos

lemma getShiftCount_eq (b : BitMap W) (i : ℕ) : b.getShiftCount i = i % b.epw * b.bpe := by
  rw [getShiftCount, Nat.mul_comm (i / b.epw), Nat.mod_eq_sub]

lemma WellFormed.field_le (h : WellFormed b) (i : ℕ) : b.getShiftCount i + b.bpe ≤ 32 := by
  have hmod : i % b.epw + 1 ≤ b.epw := Nat.mod_lt i h.epw_pos
  calc b.getShiftCount i + b.bpe = (i % b.epw + 1) * b.bpe := by rw [getShiftCount_eq, Nat.add_mul, Nat.one_mul]
    _ ≤ b.epw * b.bpe := Nat.mul_le_mul_right _ hmod
    _ ≤ 32 := by rw [h.epw]; exact Nat.div_mul_le_self 32 b.bpe

/-- Entries of one word lie beside each other. -/
lemma WellFormed.disjoint (hword : i / b.epw = j / b.epw) (hne : i ≠ j) :
    b.getShiftCount i + b.bpe ≤ b.getShiftCount j ∨ b.getShiftCount j + b.bpe ≤ b.getShiftCount i := by
  rw [getShiftCount_eq, getShiftCount_eq]
  have hi := Nat.div_add_mod i b.epw
  have hj := Nat.div_add_mod j b.epw
  rw [hword] at hi
  rcases Nat.lt_or_ge (i % b.epw) (j % b.epw) with hlt | hge
  · refine .inl ?_
    calc i % b.epw * b.bpe + b.bpe = (i % b.epw + 1) * b.bpe := by rw [Nat.add_mul, Nat.one_mul]
      _ ≤ j % b.epw * b.bpe := Nat.mul_le_mul_right _ hlt
  · refine .inr ?_
    calc j % b.epw * b.bpe + b.bpe = (j % b.epw + 1) * b.bpe := by rw [Nat.add_mul, Nat.one_mul]
      _ ≤ i % b.epw * b.bpe := Nat.mul_le_mul_right _ (by omega)

lemma init_wellFormed {size n : ℕ} (hn : 0 < n) (hn' : n ≤ 32) : WellFormed (init W size n) where
  bpe_pos := hn
  bpe_le := hn'
  epw := rfl
  inRange := by
    intro i hi
    have hepw : 0 < 32 / n := Nat.div_pos hn' hn
    have hle : i + 32 / n ≤ size + 32 / n - 1 := by
      have hi : i < size := hi
      omega
    calc i / (32 / n) < i / (32 / n) + 1 := Nat.lt_succ_self _
      _ = (i + 32 / n) / (32 / n) := (Nat.add_div_right i hepw).symm
      _ ≤ (size + 32 / n - 1) / (32 / n) := Nat.div_le_div_right hle
  stored := by
    intro hsize
    rw [init]
    by_cases hmany : (size + BITS_ULONG / n - 1) / (BITS_ULONG / n) > 1
    · simp only [if_pos hmany]
      exact ⟨hmany.ne', List.length_replicate⟩
    · simp only [if_neg hmany]
      have hepw : 0 < BITS_ULONG / n := Nat.div_pos hn' hn
      have hsize : 0 < size := hsize
      have hpos : 0 < (size + BITS_ULONG / n - 1) / (BITS_ULONG / n) := Nat.div_pos (by omega) hepw
      exact Nat.le_antisymm (Nat.not_lt.mp hmany) hpos

/-- Each entry of a map is in a word. -/
lemma WellFormed.getWord (h : WellFormed b) (hi : i < b.size) : ∃ w, b.getWord i = some w := by
  have hstored := h.stored (Nat.zero_lt_of_lt hi)
  have hlt := h.inRange i hi
  rw [BitMap.getWord, if_pos hi]
  cases hpM : b.pM with
  | data w =>
    rw [hpM] at hstored
    exact ⟨w, if_pos hstored⟩
  | array a =>
    rw [hpM] at hstored
    obtain ⟨hne, hlen⟩ := hstored
    exact ⟨_, (if_neg hne).trans (List.getElem?_eq_getElem (hlen ▸ hlt))⟩

@[simp] lemma putWord_size : (b.putWord i w).size = b.size := by
  rw [putWord]
  split <;> rfl

@[simp] lemma putWord_bpe : (b.putWord i w).bpe = b.bpe := by
  rw [putWord]
  split <;> rfl

@[simp] lemma putWord_epw : (b.putWord i w).epw = b.epw := by
  rw [putWord]
  split <;> rfl

@[simp] lemma putWord_words : (b.putWord i w).words = b.words := by
  rw [putWord]
  split <;> rfl

@[simp] lemma putWord_getShiftCount : (b.putWord i w).getShiftCount j = b.getShiftCount j := by
  rw [getShiftCount, getShiftCount, putWord_epw, putWord_bpe]

lemma WellFormed.putWord (h : WellFormed b) : WellFormed (b.putWord i w) where
  bpe_pos := by
    rw [putWord_bpe]
    exact h.bpe_pos
  bpe_le := by
    rw [putWord_bpe]
    exact h.bpe_le
  epw := by rw [putWord_epw, putWord_bpe, h.epw]
  inRange := by
    rw [putWord_size, putWord_epw, putWord_words]
    exact h.inRange
  stored := by
    rw [putWord_size, putWord_words]
    intro hsize
    have hstored := h.stored hsize
    rw [BitMap.putWord]
    cases hpM : b.pM with
    | data w =>
      rw [hpM] at hstored
      exact hstored
    | array a =>
      rw [hpM] at hstored
      exact ⟨hstored.1, List.length_set.trans hstored.2⟩

/-- A word that is written is read back, and no other word is written. -/
lemma getWord_putWord (h : WellFormed b) (hi : i < b.size) (hj : j < b.size) :
    (b.putWord i w).getWord j = if j / b.epw = i / b.epw then some w else b.getWord j := by
  have hstored := h.stored (Nat.zero_lt_of_lt hi)
  have hilt := h.inRange i hi
  have hjlt := h.inRange j hj
  rw [BitMap.getWord, putWord_size, if_pos hj, putWord_words, putWord_epw, BitMap.getWord, if_pos hj, BitMap.putWord]
  cases hpM : b.pM with
  | data w' =>
    rw [hpM] at hstored
    rw [hstored] at hilt hjlt
    simp only [if_pos hstored]
    rw [if_pos ((Nat.lt_one_iff.mp hjlt).trans (Nat.lt_one_iff.mp hilt).symm)]
  | array a =>
    rw [hpM] at hstored
    obtain ⟨hne, hlen⟩ := hstored
    simp only [if_neg hne]
    by_cases hword : j / b.epw = i / b.epw
    · rw [if_pos hword, hword, List.getElem?_set_self (hlen ▸ hilt)]
    · rw [if_neg hword, List.getElem?_set_ne (Ne.symm hword)]

/-- An entry that is set is read back as far as the mask reaches, and no other entry is changed. -/
lemma set_spec (hW : IsWord W) (h : WellFormed b) (hi : i < b.size) (hv : v.toNat < 2 ^ b.bpe) :
    ∃ b', b.set i v = some b' ∧ WellFormed b' ∧ b'.size = b.size ∧ b'.bpe = b.bpe ∧
      ∀ j, j < b.size → b'.get j = if j = i then some (fieldValue v) else b.get j := by
  obtain ⟨w, hw⟩ := h.getWord hi
  refine ⟨_, by rw [set_eq, hw, Option.map_some], h.putWord, putWord_size, putWord_bpe, fun j hj => ?_⟩
  rw [get_eq, getWord_putWord h hi hj, putWord_getShiftCount, putWord_bpe]
  by_cases hji : j = i
  · subst hji
    rw [if_pos rfl, if_pos rfl, Option.map_some, readField_writeField hW h.bpe_pos (h.field_le j) hv]
  rw [if_neg hji]
  by_cases hword : j / b.epw = i / b.epw
  · have hsame : b.getWord j = some w := by
      rw [← hw, BitMap.getWord, BitMap.getWord, if_pos hi, if_pos hj, hword]
    rw [if_pos hword, get_eq, hsame, Option.map_some, Option.map_some,
      readField_writeField_of_disjoint hW h.bpe_pos (h.field_le i) h.bpe_pos (h.field_le j) hv
        (WellFormed.disjoint hword.symm (Ne.symm hji))]
  · rw [if_neg hword, get_eq]

/-- The value that was last set at an entry, 0 if there is none. -/
def lastSet (sets : List (ℕ × BitVec W)) (i : ℕ) : BitVec W :=
  sets.foldl (fun x p => if p.1 = i then p.2 else x) 0

lemma init_get {size n : ℕ} (hW : IsWord W) (hn : 0 < n) (hn' : n ≤ 32) (hi : i < size) :
    (init W size n).get i = some 0 := by
  have hwf : WellFormed (init W size n) := init_wellFormed hn hn'
  obtain ⟨w, hw⟩ := hwf.getWord hi
  have hzero : w = 0 := by
    rw [getWord, if_pos (show i < (init W size n).size from hi), init] at hw
    by_cases hmany : (size + BITS_ULONG / n - 1) / (BITS_ULONG / n) > 1
    · simp only [if_pos hmany, if_neg hmany.ne'] at hw
      rw [List.getElem?_replicate] at hw
      split at hw
      · exact (Option.some.inj hw).symm
      · cases hw
    · simp only [if_neg hmany] at hw
      split at hw
      · exact (Option.some.inj hw).symm
      · cases hw
  rw [get_eq, hw, hzero, Option.map_some]
  refine congrArg some (BitVec.eq_of_getLsbD_eq fun q _ => ?_)
  rw [getLsbD_readField hW hwf.bpe_pos (hwf.field_le i)]
  simp

/-- After a run of sets each entry reads as what the mask leaves of the value that was last set there. -/
lemma sets_spec (hW : IsWord W) (h : WellFormed b) (f : ℕ → BitVec W) (sets : List (ℕ × BitVec W))
    (hsets : ∀ p ∈ sets, p.1 < b.size ∧ p.2.toNat < 2 ^ b.bpe) (hb : ∀ i, i < b.size → b.get i = some (fieldValue (f i))) :
    ∃ b', sets.foldlM (fun b p => b.set p.1 p.2) b = some b' ∧ WellFormed b' ∧ b'.size = b.size ∧ b'.bpe = b.bpe ∧
      ∀ i, i < b.size → b'.get i = some (fieldValue (sets.foldl (fun x p => if p.1 = i then p.2 else x) (f i))) := by
  induction sets generalizing b f with
  | nil => exact ⟨b, rfl, h, rfl, rfl, hb⟩
  | cons p sets ih =>
    obtain ⟨hp, hv⟩ := hsets p List.mem_cons_self
    obtain ⟨b₁, hset, h₁, hsize₁, hbpe₁, hget₁⟩ := set_spec hW h hp hv
    have hb₁ : ∀ i, i < b₁.size → b₁.get i = some (fieldValue (if p.1 = i then p.2 else f i)) := by
      intro i hi
      rw [hsize₁] at hi
      rw [hget₁ i hi, hb i hi]
      by_cases hpi : i = p.1
      · rw [if_pos hpi, if_pos hpi.symm]
      · rw [if_neg hpi, if_neg (Ne.symm hpi)]
    have hrest : ∀ q ∈ sets, q.1 < b₁.size ∧ q.2.toNat < 2 ^ b₁.bpe := by
      rw [hsize₁, hbpe₁]
      exact fun q hq => hsets q (List.mem_cons_of_mem p hq)
    obtain ⟨b', hrun, h', hsize', hbpe', hget'⟩ := ih h₁ _ hrest hb₁
    refine ⟨b', ?_, h', hsize'.trans hsize₁, hbpe'.trans hbpe₁, fun i hi => ?_⟩
    · rw [List.foldlM_cons, hset, Option.bind_eq_bind, Option.bind_some, hrun]
    · rw [hget' i (hsize₁.symm ▸ hi), List.foldl_cons]

/-- After every run of sets an entry reads back the value that was last set there just when a word has 32 bits or
the value is 0 or 1; a set changes no other entry. -/
theorem get_sets_iff (hW : IsWord W) (size n : ℕ) (hn : 0 < n) (hn' : n ≤ 32) (sets : List (ℕ × BitVec W))
    (hsets : ∀ p ∈ sets, p.1 < size ∧ p.2.toNat < 2 ^ n) :
    ∃ b, sets.foldlM (fun b p => b.set p.1 p.2) (init W size n) = some b ∧
      (∀ i, i < size → (b.get i = some (lastSet sets i) ↔ W = 32 ∨ (lastSet sets i).toNat ≤ 1)) ∧
      ∀ i v, i < size → v.toNat < 2 ^ n →
        ∃ b', b.set i v = some b' ∧ ∀ j, j < size → j ≠ i → b'.get j = b.get j := by
  have hzero : ∀ i, i < (init W size n).size → (init W size n).get i = some (fieldValue 0) := by
    intro i hi
    have hvalue : fieldValue (0 : BitVec W) = 0 := by
      rw [fieldValue_eq_iff hW]
      exact .inr (by simp)
    rw [init_get hW hn hn' (show i < size from hi), hvalue]
  obtain ⟨b, hrun, h, hsize, hbpe, hget⟩ := sets_spec hW (init_wellFormed hn hn') (fun _ => 0) sets hsets hzero
  have hin : ∀ i, i < size → i < b.size := fun i hi => hsize.symm ▸ hi
  refine ⟨b, hrun, fun i hi => ?_, fun i v hi hv => ?_⟩
  · rw [hget i hi, Option.some.injEq]
    exact fieldValue_eq_iff hW
  · obtain ⟨b', hset, -, -, -, hget'⟩ := set_spec hW h (hin i hi) (by rw [hbpe]; exact hv)
    exact ⟨b', hset, fun j hj hne => by rw [hget' j (hin j hj), if_neg hne]⟩

/-- Entries of five bits are set in words of 32 bits. -/
theorem get_sets_narrow :
    ∃ b, [(2, 17#32), (7, 9), (2, 30)].foldlM (fun b p => b.set p.1 p.2) (init 32 8 5) = some b ∧
      b.get 2 = some 30 ∧ b.get 7 = some 9 := by
  obtain ⟨b, hrun, hget, -⟩ :=
    get_sets_iff (.inl rfl) 8 5 (by decide) (by decide) [(2, 17#32), (7, 9), (2, 30)] (by decide)
  exact ⟨b, hrun, (hget 2 (by decide)).mpr (.inl rfl), (hget 7 (by decide)).mpr (.inl rfl)⟩

/-- Where `long` has 64 bits an entry of two bits that is set to 2 reads 0. -/
theorem get_set_wide : ((init 64 4 2).set 1 2).bind (fun b => b.get 1) = some 0 := by decide +kernel

end BitMap

end NetworkSimulator
