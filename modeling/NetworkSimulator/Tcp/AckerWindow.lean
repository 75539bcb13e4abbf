import NetworkSimulator.Tcp.Sacker
import Mathlib.Data.Nat.ModEq
import Mathlib.Tactic.Ring

/-!
# The window of received packets

Between the next packet expected and the one after the last seen, the ring holds what has been stored for each
packet; its size is a power of two, so no two packets of the window share a slot.
-/

namespace NetworkSimulator
open Library

namespace Acker
variable {a b : Acker} {st : ℕ → ℕ} {seq numBytes i j m n : ℕ}

lemma slot_inj (hm : ∃ k, m + 1 = 2 ^ (k + 2)) (hij : i < j + (m + 1)) (hji : j < i + (m + 1)) :
    i &&& m = j &&& m ↔ i = j := by
  obtain ⟨k, hk⟩ := hm
  obtain rfl : m = 2 ^ (k + 2) - 1 := by omega
  refine ⟨fun h => ?_, fun h => by rw [h]⟩
  rw [Nat.and_two_pow_sub_one_eq_mod, Nat.and_two_pow_sub_one_eq_mod] at h
  rcases Nat.le_total i j with hle | hle
  · have hdvd : 2 ^ (k + 2) ∣ j - i := (Nat.modEq_iff_dvd' hle).mp h
    have := Nat.eq_zero_of_dvd_of_lt hdvd (by omega)
    omega
  · have hdvd : 2 ^ (k + 2) ∣ i - j := (Nat.modEq_iff_dvd' hle).mp h.symm
    have := Nat.eq_zero_of_dvd_of_lt hdvd (by omega)
    omega

lemma seenAt_setSeen (hm : ∃ k, a.wndmask + 1 = 2 ^ (k + 2)) (hij : i < j + (a.wndmask + 1))
    (hji : j < i + (a.wndmask + 1)) : (a.setSeen i n).seenAt j = if j = i then n else a.seenAt j := by
  unfold setSeen seenAt
  simp only [Function.update_apply, slot_inj hm hji hij]

/-- The ring holds what `st` says of the packets from `lo` to `hi`. -/
structure Window (st : ℕ → ℕ) (lo hi : ℕ) (a : Acker) : Prop where
  mask : ∃ k, a.wndmask + 1 = 2 ^ (k + 2)
  room : hi < lo + a.wndmask
  seen : ∀ i, lo ≤ i → i ≤ hi → a.seenAt i = st i

lemma Window.congr {lo hi : ℕ} (h : a.Window st lo hi) (hmask : b.wndmask = a.wndmask)
    (hseen : b.seen = a.seen) : b.Window st lo hi := by
  refine ⟨hmask ▸ h.mask, hmask ▸ h.room, fun i hi hi' => ?_⟩
  rw [seenAt, hmask, hseen]
  exact h.seen i hi hi'

lemma Window.setSeen {lo hi : ℕ} (h : a.Window st lo hi) (hlo : lo ≤ i) (hhi : i ≤ hi) :
    (a.setSeen i n).Window (Function.update st i n) lo hi := by
  refine ⟨h.mask, h.room, fun j hj hj' => ?_⟩
  have hroom := h.room
  rw [seenAt_setSeen h.mask (by omega) (by omega), Function.update_apply, h.seen j hj hj']

/-- One more packet, at the end of the window. -/
lemma Window.snoc {lo hi : ℕ} (h : a.Window st lo hi) (hroom : hi + 1 < lo + a.wndmask)
    (hi' : st (hi + 1) = n) : (a.setSeen (hi + 1) n).Window st lo (hi + 1) := by
  refine ⟨h.mask, hroom, fun j hj hj' => ?_⟩
  rw [seenAt_setSeen h.mask (by omega) (by omega)]
  split
  · rename_i heq
    rw [heq, hi']
  · exact h.seen j hj (by omega)

/-- The window between `next` and the packet after the last seen, with what has been stored for each packet; 0
stands for a packet that has not been received. -/
structure Stores (st : ℕ → ℕ) (a : Acker) : Prop where
  window : a.Window st a.next (a.maxseen + 1)
  inOrder : ∀ i < a.next, st i ≠ 0
  next : st a.next = 0
  max : ∀ i, st i ≠ 0 → i ≤ a.maxseen

lemma Stores.next_le (h : Stores st a) : a.next ≤ a.maxseen + 1 := by
  rcases Nat.eq_zero_or_pos a.next with hzero | hpos
  · omega
  · have := h.max _ (h.inOrder (a.next - 1) (by omega))
    omega

lemma stores_init : Stores (fun _ => 0) init :=
  ⟨⟨⟨4, rfl⟩, by decide, fun _ _ _ => rfl⟩, nofun, rfl, fun _ h => absurd rfl h⟩

lemma Stores.reset (h : Stores st a) : Stores (fun _ => 0) a.reset := by
  obtain ⟨k, hk⟩ := h.window.mask
  have hroom : a.reset.maxseen + 1 < a.reset.next + a.reset.wndmask := by
    have := Nat.one_le_two_pow (n := k)
    rw [pow_add] at hk
    show 0 + 1 < 0 + a.wndmask
    omega
  refine ⟨⟨⟨k, hk⟩, hroom, fun i _ _ => ?_⟩, nofun, rfl, fun _ h => absurd rfl h⟩
  unfold Acker.reset seenAt
  dsimp only
  exact if_pos (Nat.lt_succ_of_le Nat.and_le_right)

lemma resizeBuffers_window (h : a.Window st a.next (a.maxseen + 1)) (hle : a.next ≤ a.maxseen + 2) :
    (a.resizeBuffers ((a.wndmask + 1) * 2)).Window st a.next (a.maxseen + 1) := by
  obtain ⟨⟨k, hk⟩, hroom, hseen⟩ := h
  have hmask : ∃ k, (a.wndmask + 1) * 2 - 1 + 1 = 2 ^ (k + 2) := ⟨k + 1, by rw [pow_succ, pow_succ] at *; omega⟩
  refine ⟨hmask, ?_, fun i hi hi' => ?_⟩
  · unfold resizeBuffers
    dsimp only
    omega
  · have hloop := forLoop_invariant (P := fun b (seen : ℕ → ℕ) => ∀ j, a.next ≤ j → j < b →
        seen (j &&& ((a.wndmask + 1) * 2 - 1)) = a.seenAt j)
      (f := fun i seen => Function.update seen (i &&& ((a.wndmask + 1) * 2 - 1)) (a.seenAt i))
      (s := fun _ => 0) hle (fun j h₁ h₂ => absurd h₁ (not_le.mpr h₂)) fun b seen hb hb' hs j h₁ h₂ => by
        rw [Function.update_apply]
        by_cases hjb : j = b
        · rw [if_pos (by rw [hjb]), hjb]
        · rw [if_neg fun heq => hjb ((slot_inj hmask (by omega) (by omega)).mp heq)]
          exact hs j h₁ (by omega)
    exact (hloop i hi (by omega)).trans (hseen i hi hi')

lemma Stores.resizeBuffers (h : Stores st a) : Stores st (a.resizeBuffers ((a.wndmask + 1) * 2)) :=
  ⟨resizeBuffers_window h.window (h.next_le.trans (Nat.le_succ _)), h.inOrder, h.next, h.max⟩

/-- The ring has grown until there is room for `seq`. -/
lemma grow_spec {fuel : ℕ} (h : Stores st a) (hfuel : seq + 1 < a.next + a.wndmask + fuel) :
    Stores st (grow seq fuel a) ∧ (grow seq fuel a).next = a.next ∧ (grow seq fuel a).maxseen = a.maxseen ∧
      (grow seq fuel a).isDup = a.isDup ∧ seq + 1 < a.next + (grow seq fuel a).wndmask := by
  induction fuel generalizing a with
  | zero => exact ⟨h, rfl, rfl, rfl, hfuel⟩
  | succ fuel ih =>
    unfold grow
    split
    · refine ih h.resizeBuffers ?_
      unfold Acker.resizeBuffers
      dsimp only
      omega
    · rename_i hfit
      exact ⟨h, rfl, rfl, rfl, by omega⟩

/-- Everything but the ring. -/
def SameAs (a b : Acker) : Prop :=
  b.next = a.next ∧ b.maxseen = a.maxseen ∧ b.wndmask = a.wndmask ∧ b.isDup = a.isDup

lemma markHighest_spec (numBytes : ℕ) (h : Stores st a) (hseq : a.maxseen < seq) (hroom : seq + 1 < a.next + a.wndmask) :
    (a.markHighest seq numBytes).Window (Function.update st seq numBytes) a.next (seq + 1) ∧
      (a.markHighest seq numBytes).next = a.next ∧ (a.markHighest seq numBytes).maxseen = seq ∧
      (a.markHighest seq numBytes).isDup = a.isDup := by
  have hnext := h.next_le
  have hzero : ∀ i, a.maxseen < i → st i = 0 := fun i hi => by
    by_contra hne
    exact absurd (h.max i hne) (not_le.mpr hi)
  unfold markHighest
  extract_lets a₁ a₂
  have hloop : a.SameAs a₁ ∧ a₁.Window st a.next (seq - 1) := by
    have hinv := forLoop_invariant (P := fun i b => a.SameAs b ∧ b.Window st a.next (i - 1))
      (f := fun i (b : Acker) => b.setSeen i 0) (s := a) hseq ⟨⟨rfl, rfl, rfl, rfl⟩, ?_⟩ fun i b hi hi' hb => ?_
    · exact hinv
    · exact ⟨h.window.mask, by omega, fun i hi hi' => h.window.seen i hi (by omega)⟩
    · refine ⟨hb.1, ?_⟩
      have hmask := hb.1.2.2.1
      obtain ⟨i, rfl⟩ : ∃ k, i = k + 1 := ⟨i - 1, by omega⟩
      exact hb.2.snoc (by omega) (hzero _ (by omega))
  obtain ⟨hsame, hwin⟩ := hloop
  refine ⟨?_, hsame.1, rfl, hsame.2.2.2⟩
  have hmask : a₂.wndmask = a.wndmask := hsame.2.2.1
  obtain ⟨k, rfl⟩ : ∃ k, seq = k + 1 := ⟨seq - 1, by omega⟩
  have hold : a₂.Window (Function.update st (k + 1) numBytes) a.next k :=
    ⟨hwin.mask, by omega, fun i hi hi' => by
      rw [Function.update_of_ne (by omega)]
      exact hwin.seen i hi hi'⟩
  have hnew := hold.snoc (n := numBytes) (by omega) (Function.update_self ..)
  refine hnew.snoc ?_ ?_
  · show k + 1 + 1 < a.next + a₂.wndmask
    omega
  · rw [Function.update_of_ne (by omega)]
    exact hzero _ (by omega)

/-- The packets in order end at the first hole. -/
lemma deliver_spec (fuel num : ℕ) {hi : ℕ} (h : a.Window st i hi) (hin : n ≤ hi) (hlo : i ≤ n) (hhole : st hi = 0)
    (hfuel : hi + 1 - n ≤ fuel) : n ≤ (a.deliver fuel n num).1 ∧ (a.deliver fuel n num).1 ≤ hi ∧
      st (a.deliver fuel n num).1 = 0 ∧ ∀ j, n ≤ j → j < (a.deliver fuel n num).1 → st j ≠ 0 := by
  induction fuel generalizing n num with
  | zero => omega
  | succ fuel ih =>
    unfold deliver
    rw [h.seen n hlo hin]
    split
    · rename_i hseen
      have hne : n ≠ hi := fun heq => hseen (heq ▸ hhole)
      obtain ⟨h₁, h₂, h₃, h₄⟩ := ih (n := n + 1) (num + st n) (by omega) (by omega) (by omega)
      refine ⟨by omega, h₂, h₃, fun j hj hj' => ?_⟩
      rcases Nat.eq_or_lt_of_le hj with rfl | hlt
      · exact hseen
      · exact h₄ j hlt hj'
    · rename_i hseen
      exact ⟨le_rfl, hin, not_not.mp hseen, fun j hj hj' => absurd hj (not_le.mpr hj')⟩

/-- What is stored for the packets after `seq` has arrived; below the next one expected nothing changes. -/
def record (st : ℕ → ℕ) (next seq numBytes : ℕ) : ℕ → ℕ :=
  if seq < next then st else Function.update st seq numBytes

lemma record_of_le (h : a.next ≤ seq) : record st a.next seq numBytes = Function.update st seq numBytes :=
  if_neg (not_lt.mpr h)

lemma record_ne_zero_iff (h : Stores st a) (hpos : 0 < numBytes) :
    record st a.next seq numBytes i ≠ 0 ↔ st i ≠ 0 ∨ i = seq := by
  unfold record
  split
  · rename_i hlt
    exact ⟨Or.inl, fun hi => hi.elim id fun heq => heq ▸ h.inOrder seq hlt⟩
  · rw [Function.update_apply]
    split
    · rename_i heq
      exact ⟨fun _ => Or.inr heq, fun _ => hpos.ne'⟩
    · rename_i hne
      exact ⟨Or.inl, fun hi => hi.resolve_right hne⟩

/-- The last part of `update`, when the packet is in the window. -/
lemma deliver_stores (h : Stores st a)
    (hwin : b.Window (Function.update st seq numBytes) a.next (m + 1)) (hmax : b.maxseen = m)
    (hold : a.maxseen ≤ m) (hlo : a.next ≤ seq) (hhi : seq ≤ m) :
    let r := b.deliver (m + 2 - a.next) a.next 0
    Stores (Function.update st seq numBytes) { b with next := r.1 } ∧ a.next ≤ r.1 := by
  extract_lets r
  have hle := h.next_le
  have hend : Function.update st seq numBytes (m + 1) = 0 := by
    rw [Function.update_of_ne (by omega)]
    by_contra hne
    have := h.max _ hne
    omega
  obtain ⟨h₁, h₂, h₃, h₄⟩ := deliver_spec (n := a.next) (m + 2 - a.next) 0 hwin (by omega)
    le_rfl hend (by omega)
  refine ⟨⟨⟨hwin.mask, ?_, fun i hi hi' => ?_⟩, fun i hi => ?_, h₃, fun i hi => ?_⟩, h₁⟩
  · have hroom := hwin.room
    have h₁ : a.next ≤ r.1 := h₁
    show b.maxseen + 1 < r.1 + b.wndmask
    omega
  · exact hwin.seen i (h₁.trans hi) (hmax ▸ hi')
  · rcases Nat.lt_or_ge i a.next with hlt | hge
    · rw [Function.update_of_ne (by omega)]
      exact h.inOrder i hlt
    · exact h₄ i hge hi
  · show i ≤ b.maxseen
    rw [hmax]
    by_cases heq : i = seq
    · exact heq ▸ hhi
    · rw [Function.update_of_ne heq] at hi
      exact (h.max i hi).trans hold

/-- After `update` the packet is stored, and the ring still has the window of before. -/
structure Updated (st : ℕ → ℕ) (a : Acker) (seq numBytes : ℕ) (b : Acker) : Prop where
  stores : Stores (record st a.next seq numBytes) b
  dup : b.isDup = true ↔ st seq ≠ 0
  next_le : a.next ≤ b.next
  window : a.next ≤ seq → b.Window (record st a.next seq numBytes) a.next (b.maxseen + 1)

lemma update_spec (seq numBytes : ℕ) (h : Stores st a) :
    Updated st a seq numBytes (a.update seq numBytes).1 := by
  have hinit : Stores st { a with isDup := false } :=
    ⟨h.window.congr rfl rfl, h.inOrder, h.next, h.max⟩
  unfold update
  extract_lets a₁ just a₂ a₃ a₄ a₅ r
  obtain ⟨h₁, hnext, hmax, hdup, hroom⟩ : Stores st a₁ ∧ a₁.next = a.next ∧ a₁.maxseen = a.maxseen ∧
      a₁.isDup = false ∧ seq + 1 < a.next + a₁.wndmask := grow_spec hinit (by dsimp only; omega)
  have hle := h₁.next_le
  by_cases hnew : seq > a₁.maxseen
  · -- The highest packet so far: it is not a duplicate.
    obtain ⟨hmark, hnext₂, hmax₂, hdup₂⟩ := markHighest_spec numBytes h₁ hnew (by omega)
    have ha₂ : a₂ = a₁.markHighest seq numBytes := if_pos hnew
    have ha₃ : a₃ = a₂ := if_neg (by rw [ha₂, hnext₂]; omega)
    have ha₄ : a₄ = a₃ := if_neg fun hand => hand.2 (decide_eq_true hnew)
    have hcond : seq ≥ a₃.next ∧ seq ≤ a₃.maxseen := by
      rw [ha₃, ha₂, hnext₂, hmax₂]
      omega
    have hwin₅ : a₅.Window (Function.update st seq numBytes) a₁.next (seq + 1) := by
      have hset := hmark.setSeen (i := seq) (n := numBytes) (by omega) (by omega)
      rw [Function.update_idem, ← ha₂, ← ha₃, ← ha₄] at hset
      exact hset
    have hmax₅ : a₅.maxseen = seq := by
      show a₄.maxseen = seq
      rw [ha₄, ha₃, ha₂, hmax₂]
    have hnext₅ : a₅.next = a₁.next := by
      show a₄.next = a₁.next
      rw [ha₄, ha₃, ha₂, hnext₂]
    have hdup₅ : a₅.isDup = false := by
      show a₄.isDup = false
      rw [ha₄, ha₃, ha₂, hdup₂, hdup]
    have hr : r = a₅.deliver (seq + 2 - a₁.next) a₁.next 0 := by
      show a₅.deliver (a₅.maxseen + 2 - a₅.next) a₅.next 0 = _
      rw [hmax₅, hnext₅]
    obtain ⟨hstores, hge⟩ := deliver_stores h₁ hwin₅ hmax₅ hnew.le (by omega) le_rfl
    have hrec : record st a.next seq numBytes = Function.update st seq numBytes := record_of_le (by omega)
    rw [if_pos hcond]
    rw [← hr] at hstores hge
    rw [← hrec] at hstores
    rw [← hrec, hnext] at hwin₅
    have hwin : a₅.Window (record st a.next seq numBytes) a.next (a₅.maxseen + 1) := by
      rw [hmax₅]
      exact hwin₅
    refine ⟨hstores, ?_, hnext ▸ hge, fun _ => hwin.congr rfl rfl⟩
    show a₅.isDup = true ↔ st seq ≠ 0
    rw [hdup₅]
    exact ⟨fun h => absurd h Bool.false_ne_true, fun hne => absurd (h₁.max seq hne) (not_le.mpr hnew)⟩
  · have ha₂ : a₂ = a₁ := if_neg hnew
    by_cases hbelow : seq < a.next
    · -- The packet is to the left of the window.
      have ha₃ : a₃ = { a₂ with isDup := true } := if_pos (by rw [ha₂, hnext]; exact hbelow)
      have hcond : ¬(seq ≥ a₃.next ∧ seq ≤ a₃.maxseen) := by
        rw [ha₃, ha₂]
        dsimp only
        omega
      have hrec : record st a.next seq numBytes = st := if_pos hbelow
      rw [if_neg hcond, ha₃, ha₂]
      refine ⟨?_, ⟨fun _ => h.inOrder seq hbelow, fun _ => rfl⟩, hnext.ge, fun hge => absurd hge (not_le.mpr hbelow)⟩
      rw [hrec]
      exact ⟨h₁.window.congr rfl rfl, h₁.inOrder, h₁.next, h₁.max⟩
    · -- The packet is in the window.
      have ha₃ : a₃ = a₁ := (if_neg (by rw [ha₂, hnext]; exact hbelow)).trans ha₂
      have hcond : seq ≥ a₃.next ∧ seq ≤ a₃.maxseen := by
        rw [ha₃]
        omega
      have hseen : a₃.seenAt seq = st seq := by
        rw [ha₃]
        exact h₁.window.seen seq (by omega) (by omega)
      have hjust : just = false := decide_eq_false hnew
      have ha₄ : a₄ = { a₁ with isDup := decide (st seq ≠ 0) } := by
        show (if a₃.seenAt seq ≠ 0 ∧ ¬just = true then { a₃ with isDup := true } else a₃) = _
        rw [hseen, hjust, ha₃]
        by_cases hzero : st seq = 0
        · rw [if_neg fun h => h.1 hzero]
          simp [hzero, ← hdup]
        · rw [if_pos ⟨hzero, Bool.false_ne_true⟩]
          simp [hzero]
      have hwin₅ : a₅.Window (Function.update st seq numBytes) a₁.next (a₁.maxseen + 1) := by
        have hbase : a₄.Window st a₁.next (a₁.maxseen + 1) := by
          rw [ha₄]
          exact h₁.window.congr rfl rfl
        exact hbase.setSeen (by omega) (by omega)
      have hmax₅ : a₅.maxseen = a₁.maxseen := by
        show a₄.maxseen = a₁.maxseen
        rw [ha₄]
      have hnext₅ : a₅.next = a₁.next := by
        show a₄.next = a₁.next
        rw [ha₄]
      have hr : r = a₅.deliver (a₁.maxseen + 2 - a₁.next) a₁.next 0 := by
        show a₅.deliver (a₅.maxseen + 2 - a₅.next) a₅.next 0 = _
        rw [hmax₅, hnext₅]
      obtain ⟨hstores, hge⟩ := deliver_stores h₁ hwin₅ hmax₅ le_rfl (by omega) (by omega)
      have hrec : record st a.next seq numBytes = Function.update st seq numBytes := record_of_le (by omega)
      rw [if_pos hcond]
      rw [← hr] at hstores hge
      rw [← hrec] at hstores
      rw [← hrec, ← hmax₅, hnext] at hwin₅
      refine ⟨hstores, ?_, hnext ▸ hge, fun _ => hwin₅.congr rfl rfl⟩
      show a₄.isDup = true ↔ st seq ≠ 0
      rw [ha₄]
      exact decide_eq_true_iff

/-- The first slot from `i` on that is empty, up to the packet after the last seen. -/
lemma holeRight_seen (hi : i ≤ a.maxseen + 1) :
    i ≤ a.holeRight i ∧ a.holeRight i ≤ a.maxseen + 1 ∧
      (∀ j, i ≤ j → j < a.holeRight i → a.seenAt j ≠ 0) ∧
      (a.holeRight i ≤ a.maxseen → a.seenAt (a.holeRight i) = 0) := by
  unfold holeRight
  cases hfind : (List.range' i (a.maxseen + 1 - i)).find? fun i => a.seenAt i = 0 with
  | none =>
    rw [List.find?_range'_eq_none] at hfind
    refine ⟨hi, le_rfl, fun j hj hj' => ?_, fun hle => absurd hle (Nat.not_succ_le_self _)⟩
    have hj' : j < a.maxseen + 1 := hj'
    simpa using hfind j hj (by omega)
  | some r =>
    obtain ⟨hzero, hmem, hfirst⟩ := List.find?_range'_eq_some.mp hfind
    have hr := List.mem_range'_1.mp hmem
    refine ⟨hr.1, ?_, fun j hj hj' => ?_, fun _ => by simpa using hzero⟩
    · show r ≤ a.maxseen + 1
      omega
    · simpa using hfirst j hj hj'

/-- The first hole at or after a packet of the window. -/
lemma holeRight_spec {lo : ℕ} (h : a.Window st lo (a.maxseen + 1)) (hlo : lo ≤ i) (hi : i ≤ a.maxseen + 1)
    (hhole : st (a.maxseen + 1) = 0) :
    i ≤ a.holeRight i ∧ a.holeRight i ≤ a.maxseen + 1 ∧ st (a.holeRight i) = 0 ∧
      ∀ j, i ≤ j → j < a.holeRight i → st j ≠ 0 := by
  obtain ⟨h₁, h₂, hseen, hzero⟩ := holeRight_seen hi
  refine ⟨h₁, h₂, ?_, fun j hj hj' => ?_⟩
  · rcases Nat.lt_or_ge a.maxseen (a.holeRight i) with hlt | hge
    · rw [show a.holeRight i = a.maxseen + 1 by omega, hhole]
    · rw [← h.seen _ (hlo.trans h₁) h₂]
      exact hzero hge
  · rw [← h.seen j (hlo.trans hj) (by omega)]
    exact hseen j hj hj'

/-- A scan that starts below the next packet expected stops there. -/
lemma holeRight_le_next (h : Stores st a) (hi : i ≤ a.next) (hnext : a.next ≤ a.maxseen) :
    a.holeRight i ≤ a.next := by
  by_contra hlt
  refine (holeRight_seen (a := a) (i := i) (by omega)).2.2.1 a.next hi (not_le.mp hlt) ?_
  rw [h.window.seen _ le_rfl (by omega)]
  exact h.next

/-- The start of the run that ends before `r`. -/
lemma holeLeft_spec {r : ℕ} (h : Stores st a) (hr : a.next < r) (hr' : r ≤ a.maxseen + 1) :
    ∃ l : ℕ, a.holeLeft r = l ∧ a.next < l ∧ l ≤ r ∧ st (l - 1) = 0 ∧ ∀ j, l ≤ j → j < r → st j ≠ 0 := by
  induction r with
  | zero => omega
  | succ i ih =>
    unfold holeLeft
    have hseqno : (i : ℤ) > a.seqno := by
      unfold seqno
      omega
    rw [if_pos hseqno, h.window.seen i (by omega) (by omega)]
    split
    · rename_i hzero
      exact ⟨i + 1, by push_cast; rfl, hr, le_rfl, hzero, fun j hj hj' => by omega⟩
    · rename_i hseen
      have hne : a.next ≠ i := fun heq => hseen (heq ▸ h.next)
      obtain ⟨l, hl, h₁, h₂, h₃, h₄⟩ := ih (by omega) (by omega)
      refine ⟨l, hl, h₁, by omega, h₃, fun j hj hj' => ?_⟩
      rcases Nat.lt_succ_iff_lt_or_eq.mp hj' with hlt | rfl
      · exact h₄ j hj hlt
      · exact hseen

end Acker

end NetworkSimulator
