import NetworkSimulator.Library.CircularArray
import NetworkSimulator.Library.Runs
import Mathlib.Data.Rat.Defs

/-!
# The table of send timestamps

With `bugfix_ts_` the time at which a packet has been sent is kept in the slot of its number. When the packets in
flight take more than nine tenths of the table, it is copied to one of twice the size.
-/

namespace NetworkSimulator
open Library

structure TimestampTable where
  tss : Option (ℤ → ℚ)
  tss_size : ℤ
  highest_ack : ℤ
  maxseq : ℤ

namespace TimestampTable

/-- How a call ends early: at `exit(1)`, or by an index outside of an array. -/
inductive Fault
  | exit
  | index

/-- The loop that copies the table, from `i` on; the sum is an `int`, and `%` has the sign of its first operand. -/
def growLoop (tss : ℤ → ℚ) (tss_size highest_ack : ℤ) : ℕ → ℤ → (ℤ → ℚ) → Option (ℤ → ℚ)
  | 0, _, ntss => some ntss
  | k + 1, i, ntss =>
    let dest := ((highest_ack + i).bmod (2 ^ 32)).tmod (tss_size * 2)
    let source := ((highest_ack + i).bmod (2 ^ 32)).tmod tss_size
    if 0 ≤ dest ∧ dest < tss_size * 2 ∧ 0 ≤ source ∧ source < tss_size then
      growLoop tss tss_size highest_ack k (i + 1) (Function.update ntss dest (tss source))
    else none

/-- A size that is not an `int` is negative, and `calloc` returns no memory for it. -/
def grow (s : TimestampTable) : Except Fault TimestampTable :=
  match s.tss with
  | none => .error .index
  | some tss =>
    if 2 ^ 31 ≤ s.tss_size * 2 then .error .exit
    else
      match growLoop tss s.tss_size s.highest_ack s.tss_size.toNat 0 fun _ => 0 with
      | none => .error .index
      | some ntss => .ok { s with tss := some ntss, tss_size := s.tss_size * 2 }

/-- `tss[seqno % tss_size_] = tcph->ts()` -/
def stamp (s : TimestampTable) (seqno : ℤ) (now : ℚ) : Except Fault TimestampTable :=
  match s.tss with
  | none => .ok s
  | some tss =>
    let i := seqno.tmod s.tss_size
    if 0 ≤ i ∧ i < s.tss_size then .ok { s with tss := some (Function.update tss i now) } else .error .index

/-- `output` with what it does to the table and to `maxseq_`; it may abort the connection at the packet that opens
it. -/
def output (bugfix_ts : Bool) (s : TimestampTable) (seqno : ℤ) (now : ℚ) (aborts : Bool) :
    Except Fault TimestampTable :=
  let s := if bugfix_ts && s.tss.isNone then { s with tss := some fun _ => 0 } else s
  let grown := if bugfix_ts && decide (9 * s.tss_size < 10 * (seqno - s.highest_ack)) then s.grow else .ok s
  grown.bind fun s => (s.stamp seqno now).map fun s =>
    if seqno > s.maxseq && !aborts then { s with maxseq := seqno } else s

/-! ### The copy -/

variable {tss ntss : ℤ → ℚ} {n h i : ℤ} {k : ℕ}

lemma growLoop_eq (hn : 0 < n) (hpos : 0 ≤ h + i) (hlt : h + i + k ≤ 2 ^ 31) :
    growLoop tss n h k i ntss = some (copySlots tss n (n * 2) k (h + i) ntss) := by
  induction k generalizing i ntss with
  | zero => rfl
  | succ k ih =>
    push_cast at hlt
    have hsum : (h + i).bmod (2 ^ 32) = h + i := Int.bmod_eq_of_le (by omega) (by omega)
    rw [growLoop, hsum, Int.tmod_eq_emod_of_nonneg hpos, Int.tmod_eq_emod_of_nonneg hpos]
    rw [if_pos ⟨Int.emod_nonneg _ (by omega), Int.emod_lt_of_pos _ (by omega), Int.emod_nonneg _ hn.ne',
      Int.emod_lt_of_pos _ hn⟩, ih (by omega) (by omega), ← add_assoc]
    rfl

/-- Where the copy goes through, all indices are in the table. -/
lemma index_of_growLoop {t : ℤ → ℚ} (hloop : growLoop tss n h k i ntss = some t) {j : ℤ} (hij : i ≤ j)
    (hj : j < i + k) : 0 ≤ ((h + j).bmod (2 ^ 32)).tmod n := by
  induction k generalizing i ntss with
  | zero => omega
  | succ k ih =>
    rw [growLoop] at hloop
    split at hloop
    next hin =>
      push_cast at hj
      by_cases heq : j = i
      · rw [heq]
        exact hin.2.2.1
      · exact ih hloop (by omega) (by omega)
    next => cases hloop

/-- The copy goes through when the numbers that it starts from and ends at are `int`s that are not negative. -/
lemma growLoop_iff (hn : 0 < n) (hdvd : 25 ∣ n) (hlow : -1 ≤ h) (hhigh : h < 2 ^ 31) :
    (∃ t, growLoop tss n h n.toNat 0 ntss = some t) ↔ 0 ≤ h ∧ h + n ≤ 2 ^ 31 := by
  constructor
  · rintro ⟨t, ht⟩
    constructor
    · by_contra hneg
      have hindex := index_of_growLoop ht le_rfl (by omega)
      obtain rfl : h = -1 := by omega
      have hone : (1 : ℤ).tmod n = 1 := Int.tmod_eq_of_lt zero_le_one (by omega)
      rw [show ((-1 : ℤ) + 0).bmod (2 ^ 32) = -1 by decide, Int.neg_tmod, hone] at hindex
      omega
    · by_contra hlt
      have hindex : 0 ≤ ((h + (2 ^ 31 - h)).bmod (2 ^ 32)).tmod n := index_of_growLoop ht (by omega) (by omega)
      rw [add_sub_cancel, show (2 ^ 31 : ℤ).bmod (2 ^ 32) = -2 ^ 31 by decide, Int.neg_tmod] at hindex
      have hzero : (2 ^ 31 : ℤ).tmod n = 0 := le_antisymm (by omega) (Int.tmod_nonneg n (by omega))
      have hdvd' : (25 : ℤ) ∣ 2 ^ 31 := hdvd.trans (Int.dvd_of_tmod_eq_zero hzero)
      omega
  · rintro ⟨hpos, hle⟩
    exact ⟨_, growLoop_eq hn (by omega) (by omega)⟩

/-! ### Runs -/

inductive TimestampEvent
  | output (seqno : ℤ) (now : ℚ) (aborts : Bool)
  | ack (highest_ack : ℤ)

/-- Beside the table stands when each number was output last. -/
def step (s : TimestampTable × (ℤ → Option ℚ)) : TimestampEvent → Option ((TimestampTable × (ℤ → Option ℚ)) × Unit)
  | .output seqno now aborts => (s.1.output true seqno now aborts).toOption.map fun t =>
      ((t, Function.update s.2 seqno (some now)), ())
  | .ack highest_ack => some (({ s.1 with highest_ack := highest_ack }, s.2), ())

/-- Nothing has been sent, as the constructor and `reset` leave it. -/
def start : TimestampTable × (ℤ → Option ℚ) := (⟨none, 100, -1, -1⟩, fun _ => none)

/-- What is sent has not been acknowledged, and follows on what has been sent before or has been sent before; the
numbers are `int`s, and `highest_ack_` never decreases. -/
def Legal (s : TimestampTable × (ℤ → Option ℚ)) : TimestampEvent → Prop
  | .output seqno _ _ => s.1.highest_ack < seqno ∧ seqno ≤ s.1.maxseq + 1 ∧ seqno < 2 ^ 31
  | .ack highest_ack => s.1.highest_ack ≤ highest_ack ∧ highest_ack < 2 ^ 31

instance (s : TimestampTable × (ℤ → Option ℚ)) (e : TimestampEvent) : Decidable (Legal s e) :=
  match e with
  | .output _ _ _ => inferInstanceAs (Decidable (_ ∧ _ ∧ _))
  | .ack _ => inferInstanceAs (Decidable (_ ∧ _))

/-- The table has the time of the last output of each number that is not acknowledged. -/
def Records (s : TimestampTable × (ℤ → Option ℚ)) : Prop :=
  ∀ i t, s.1.highest_ack < i → i ≤ s.1.maxseq → s.2 i = some t →
    ∃ tss, s.1.tss = some tss ∧ Library.slot tss s.1.tss_size i = t

/-- All indices are inside of their arrays, and the table is right afterwards. -/
def Sound (s : TimestampTable × (ℤ → Option ℚ)) (e : TimestampEvent) : Prop :=
  (∀ seqno now aborts, e = .output seqno now aborts → s.1.output true seqno now aborts ≠ .error .index) ∧
    ∀ t o, step s e = some (t, o) → Records t

/-- The table grows only after the first acknowledgement, and not when a number of the new table is not an `int`. -/
def GrowsInside (s : TimestampTable × (ℤ → Option ℚ)) : TimestampEvent → Prop
  | .output seqno _ _ => 9 * s.1.tss_size < 10 * (seqno - s.1.highest_ack) →
      2 ^ 31 ≤ s.1.tss_size * 2 ∨ 0 ≤ s.1.highest_ack ∧ s.1.highest_ack + s.1.tss_size ≤ 2 ^ 31
  | .ack _ => True

structure Books (s : TimestampTable × (ℤ → Option ℚ)) : Prop where
  size : 0 < s.1.tss_size
  dvd : 25 ∣ s.1.tss_size
  low : -1 ≤ s.1.highest_ack
  high : s.1.highest_ack < 2 ^ 31
  window : 10 * (s.1.maxseq - s.1.highest_ack) ≤ 9 * s.1.tss_size
  records : Records s

variable {s t : TimestampTable} {last : ℤ → Option ℚ} {seqno : ℤ} {now : ℚ} {aborts : Bool}

/-- The table as it is when it is needed first. -/
def allocated (s : TimestampTable) : TimestampTable :=
  if s.tss.isNone then { s with tss := some fun _ => 0 } else s

lemma Books.allocated (h : Books (s, last)) : Books (s.allocated, last) ∧ s.allocated.tss.isSome ∧
    s.allocated.tss_size = s.tss_size ∧ s.allocated.highest_ack = s.highest_ack ∧ s.allocated.maxseq = s.maxseq := by
  unfold TimestampTable.allocated
  cases htss : s.tss with
  | some a => exact ⟨h, by rw [if_neg (by simp), htss]; rfl, rfl, rfl, rfl⟩
  | none =>
    refine ⟨⟨h.size, h.dvd, h.low, h.high, h.window, fun i t hi hle hlast => ?_⟩, rfl, rfl, rfl, rfl⟩
    obtain ⟨a, ha, -⟩ := h.records i t hi hle hlast
    cases htss.symm.trans ha

/-- The window is still there in the table of twice the size. -/
lemma Books.grow {a : ℤ → ℚ} (h : Books (s, last)) (ha : s.tss = some a) (hsize : ¬2 ^ 31 ≤ s.tss_size * 2)
    (hpos : 0 ≤ s.highest_ack) (hle : s.highest_ack + s.tss_size ≤ 2 ^ 31) :
    ∃ t, s.grow = .ok t ∧ Books (t, last) ∧ t.tss.isSome ∧ t.tss_size = s.tss_size * 2 ∧
      t.highest_ack = s.highest_ack ∧ t.maxseq = s.maxseq := by
  have hn : (s.tss_size.toNat : ℤ) = s.tss_size := Int.toNat_of_nonneg h.size.le
  have hwindow := h.window
  have hloop : growLoop a s.tss_size s.highest_ack s.tss_size.toNat 0 (fun _ => 0) = some
      (copySlots a s.tss_size (s.tss_size * 2) s.tss_size.toNat (s.highest_ack + 0) fun _ => 0) :=
    growLoop_eq h.size (by omega) (by omega)
  rw [add_zero] at hloop
  refine ⟨{ s with
    tss := some (copySlots a s.tss_size (s.tss_size * 2) s.tss_size.toNat s.highest_ack fun _ => 0)
    tss_size := s.tss_size * 2 }, ?_, ⟨?_, ?_, h.low, h.high, ?_, fun i t hi hmax hlast => ⟨_, rfl, ?_⟩⟩, rfl, rfl, rfl, rfl⟩
  · rw [TimestampTable.grow, ha]
    dsimp only
    rw [if_neg hsize, hloop]
  · exact mul_pos h.size two_pos
  · exact h.dvd.mul_right 2
  · have := h.size
    show 10 * (s.maxseq - s.highest_ack) ≤ 9 * (s.tss_size * 2)
    dsimp only at hwindow this
    omega
  · obtain ⟨a', ha', hslot⟩ := h.records i t hi hmax hlast
    obtain rfl := Option.some.inj (ha.symm.trans ha')
    dsimp only at hi hmax hwindow hslot ⊢
    have hpos' := h.size
    dsimp only at hpos'
    rw [slot_copySlots (by omega) (by omega) (by omega), hslot]

lemma Books.grow_error {a : ℤ → ℚ} (h : Books (s, last)) (ha : s.tss = some a) (hsize : ¬2 ^ 31 ≤ s.tss_size * 2)
    (hnot : ¬(0 ≤ s.highest_ack ∧ s.highest_ack + s.tss_size ≤ 2 ^ 31)) : s.grow = .error .index := by
  have hnone : growLoop a s.tss_size s.highest_ack s.tss_size.toNat 0 (fun _ => 0) = none := by
    rw [Option.eq_none_iff_forall_ne_some]
    exact fun t ht => hnot ((growLoop_iff h.size h.dvd h.low h.high).mp ⟨t, ht⟩)
  rw [TimestampTable.grow, ha]
  dsimp only
  rw [if_neg hsize, hnone]

/-- `maxseq_` after an output. -/
def sent (s : TimestampTable) (seqno : ℤ) (aborts : Bool) : TimestampTable :=
  if seqno > s.maxseq && !aborts then { s with maxseq := seqno } else s

variable (now aborts) in
lemma Books.stamp (h : Books (s, last)) (hsome : s.tss.isSome) (hlow : s.highest_ack < seqno)
    (hnext : seqno ≤ s.maxseq + 1) (hroom : 10 * (seqno - s.highest_ack) ≤ 9 * s.tss_size) :
    ∃ t, s.stamp seqno now = .ok t ∧ Books (t.sent seqno aborts, Function.update last seqno (some now)) := by
  obtain ⟨a, ha⟩ := Option.isSome_iff_exists.mp hsome
  have hsize := h.size
  have hmin := h.low
  have hwindow := h.window
  dsimp only at hsize hmin hwindow
  have hindex : seqno.tmod s.tss_size = seqno % s.tss_size := Int.tmod_eq_emod_of_nonneg (by omega)
  have hin : 0 ≤ seqno % s.tss_size ∧ seqno % s.tss_size < s.tss_size :=
    ⟨Int.emod_nonneg _ hsize.ne', Int.emod_lt_of_pos _ hsize⟩
  have hstamp : s.stamp seqno now = .ok { s with tss := some (setSlot a s.tss_size seqno now) } := by
    rw [TimestampTable.stamp, ha]
    dsimp only
    rw [hindex, if_pos hin]
    rfl
  have hrecords : ∀ i t, s.highest_ack < i → i ≤ s.maxseq ∨ i = seqno →
      Function.update last seqno (some now) i = some t →
          Library.slot (setSlot a s.tss_size seqno now) s.tss_size i = t := by
    intro i t hi hmax hlast
    by_cases hne : i = seqno
    · subst hne
      rw [Function.update_self] at hlast
      rw [slot_setSlot_self, Option.some.inj hlast]
    · rw [Function.update_of_ne hne] at hlast
      have hle := hmax.resolve_right hne
      obtain ⟨a', ha', hslot⟩ := h.records i t hi hle hlast
      obtain rfl := Option.some.inj (ha.symm.trans ha')
      rw [slot_setSlot_of_ne hne (by omega) (by omega)]
      exact hslot
  refine ⟨_, hstamp, ?_⟩
  unfold sent
  split
  · refine ⟨hsize, h.dvd, hmin, h.high, hroom, fun i t hi hmax hlast => ⟨_, rfl, hrecords i t hi ?_ hlast⟩⟩
    change i ≤ seqno at hmax
    omega
  · exact ⟨hsize, h.dvd, hmin, h.high, hwindow, fun i t hi hmax hlast => ⟨_, rfl, hrecords i t hi (Or.inl hmax) hlast⟩⟩

variable (now aborts) in
/-- What `output` does, once the table is there. -/
lemma Books.output (h : Books (s, last)) (hlow : s.highest_ack < seqno) (hnext : seqno ≤ s.maxseq + 1) :
    (s.output true seqno now aborts = .error .exit ∧ GrowsInside (s, last) (.output seqno now aborts)) ∨
      (s.output true seqno now aborts = .error .index ∧ ¬GrowsInside (s, last) (.output seqno now aborts)) ∨
      GrowsInside (s, last) (.output seqno now aborts) ∧ ∃ t, s.output true seqno now aborts = .ok t ∧
        Books (t, Function.update last seqno (some now)) := by
  obtain ⟨hbooks, hsome, hsize, hack, hmax⟩ := h.allocated
  obtain ⟨a, ha⟩ := Option.isSome_iff_exists.mp hsome
  have hout : s.output true seqno now aborts =
      (if 9 * s.allocated.tss_size < 10 * (seqno - s.allocated.highest_ack) then s.allocated.grow
        else .ok s.allocated).bind fun s => (s.stamp seqno now).map fun s => s.sent seqno aborts := by
    unfold TimestampTable.output
    simp only [Bool.true_and, decide_eq_true_eq]
    rfl
  rw [hsize, hack] at hout
  rw [hout]
  by_cases hgrow : 9 * s.tss_size < 10 * (seqno - s.highest_ack)
  · rw [if_pos hgrow]
    by_cases hexit : 2 ^ 31 ≤ s.tss_size * 2
    · left
      refine ⟨?_, fun _ => Or.inl hexit⟩
      rw [TimestampTable.grow, ha]
      dsimp only
      rw [if_pos (by rwa [hsize])]
      rfl
    · right
      by_cases hin : 0 ≤ s.highest_ack ∧ s.highest_ack + s.tss_size ≤ 2 ^ 31
      · right
        obtain ⟨t, ht, hbooks', hsome', hsize', hack', hmax'⟩ :=
          hbooks.grow ha (by rwa [hsize]) (by rw [hack]; exact hin.1) (by rw [hack, hsize]; exact hin.2)
        rw [hack] at hack'
        rw [hmax] at hmax'
        rw [hsize] at hsize'
        have hroom : 10 * (seqno - s.highest_ack) ≤ 9 * (s.tss_size * 2) := by
          have hwindow := h.window
          have hpos := h.size
          have hdvd := h.dvd
          dsimp only at hwindow hpos hdvd
          omega
        obtain ⟨u, hu, hbooks''⟩ := hbooks'.stamp now aborts hsome' (by rwa [hack'])
          (by rwa [hmax']) (by rwa [hack', hsize'])
        refine ⟨fun _ => Or.inr hin, u.sent seqno aborts, ?_, hbooks''⟩
        rw [ht]
        show (t.stamp seqno now).map _ = _
        rw [hu]
        rfl
      · left
        refine ⟨?_, fun hc => ?_⟩
        · rw [hbooks.grow_error ha (by rwa [hsize]) (by rwa [hack, hsize])]
          rfl
        · exact (hc hgrow).elim hexit hin
  · rw [if_neg hgrow]
    right; right
    obtain ⟨u, hu, hbooks'⟩ := hbooks.stamp now aborts hsome (by rwa [hack]) (by rwa [hmax])
      (by rw [hack, hsize]; exact not_lt.mp hgrow)
    refine ⟨fun hc => absurd hc hgrow, u.sent seqno aborts, ?_, hbooks'⟩
    show (s.allocated.stamp seqno now).map _ = _
    rw [hu]
    rfl

/-- An output that does not end early. -/
lemma step_output {s t : TimestampTable × (ℤ → Option ℚ)} {o : Unit}
    (hstep : step s (.output seqno now aborts) = some (t, o)) :
    s.1.output true seqno now aborts = .ok t.1 ∧ t.2 = Function.update s.2 seqno (some now) := by
  obtain ⟨u, hu, heq⟩ := Option.map_eq_some_iff.mp hstep
  obtain ⟨rfl, -⟩ := Prod.mk.inj heq
  cases hout : s.1.output true seqno now aborts with
  | error _ =>
    rw [hout] at hu
    cases hu
  | ok u' =>
    rw [hout] at hu
    exact ⟨congrArg Except.ok (Option.some.inj hu), rfl⟩

lemma Books.step {s t : TimestampTable × (ℤ → Option ℚ)} {e : TimestampEvent} {o : Unit} (h : Books s)
    (hlegal : Legal s e) (hstep : TimestampTable.step s e = some (t, o)) : Books t := by
  cases e with
  | output seqno now aborts =>
    obtain ⟨hout, hlast⟩ := step_output hstep
    rcases h.output now aborts hlegal.1 hlegal.2.1 with ⟨hexit, -⟩ | ⟨hindex, -⟩ | ⟨-, u, hu, hbooks⟩
    · cases hexit.symm.trans hout
    · cases hindex.symm.trans hout
    · obtain rfl := Except.ok.inj (hu.symm.trans hout)
      rw [← hlast] at hbooks
      exact hbooks
  | ack highest_ack =>
    obtain ⟨rfl, -⟩ := Prod.mk.inj (Option.some.inj hstep)
    obtain ⟨hle, hlt⟩ := hlegal
    have hlow := h.low
    have hwindow := h.window
    exact ⟨h.size, h.dvd, hlow.trans hle, hlt, by dsimp only; omega,
      fun i t hi => h.records i t (hle.trans_lt hi)⟩

lemma Books.sound_iff {s : TimestampTable × (ℤ → Option ℚ)} {e : TimestampEvent} (h : Books s) (hlegal : Legal s e) :
    Sound s e ↔ GrowsInside s e := by
  have hrecords : ∀ t o, TimestampTable.step s e = some (t, o) → Records t :=
    fun t o hstep => (h.step hlegal hstep).records
  refine (and_iff_left hrecords).trans ?_
  cases e with
  | output seqno now aborts =>
    have hfault : (∀ seqno' now' aborts', TimestampEvent.output seqno now aborts = .output seqno' now' aborts' →
        s.1.output true seqno' now' aborts' ≠ .error .index) ↔ s.1.output true seqno now aborts ≠ .error .index := by
      refine ⟨fun hall => hall seqno now aborts rfl, fun hne seqno' now' aborts' heq => ?_⟩
      obtain ⟨rfl, rfl, rfl⟩ := TimestampEvent.output.inj heq
      exact hne
    rw [hfault]
    rcases h.output now aborts hlegal.1 hlegal.2.1 with ⟨hexit, hin⟩ | ⟨hindex, hnot⟩ | ⟨hin, u, hu, -⟩
    · refine iff_of_true (fun hbad => ?_) hin
      cases hexit.symm.trans hbad
    · exact iff_of_false (fun hne => hne hindex) hnot
    · refine iff_of_true (fun hbad => ?_) hin
      cases hu.symm.trans hbad
  | ack highest_ack => exact iff_of_true (fun _ _ _ he => nomatch he) trivial

lemma books_start : Books start := ⟨by decide, by decide, by decide, by decide, by decide, fun i t _ _ h => nomatch h⟩

/-- The table is a sound ring as long as it does not grow before the first acknowledgement, and no longer. -/
theorem table_sound_iff {es : List TimestampEvent} (hlegal : EachStep step Legal start es) :
    EachStep step Sound start es ↔ EachStep step GrowsInside start es := by
  have hiff : EachStep step (fun s e => Sound s e ∧ Legal s e) start es ↔
      EachStep step (fun s e => GrowsInside s e ∧ Legal s e) start es :=
    EachStep.iff (fun s e (hs : Books s) => and_congr_left hs.sound_iff)
      (fun s e t o hs h hstep => hs.step h.2 hstep) books_start
  exact ⟨fun h => (hiff.mp (h.and hlegal)).mono fun _ _ h => h.1, fun h => (hiff.mpr (h.and hlegal)).mono fun _ _ h => h.1⟩

/-- Two packets, the acknowledgement of the first and a retransmission. -/
theorem table_sound_retransmission :
    EachStep step Sound start [.output 0 1 false, .output 1 2 false, .ack 0, .output 1 5 false] ↔
      EachStep step GrowsInside start [.output 0 1 false, .output 1 2 false, .ack 0, .output 1 5 false] := by
  have hguarded : ((run (guarded step Legal) start
      [.output 0 1 false, .output 1 2 false, .ack 0, .output 1 5 false]).map fun _ => decide True) = some true := by
    decide +kernel
  obtain ⟨-, -, hlegal, -, -⟩ := run_guarded_of (fun _ _ => True) hguarded
  exact table_sound_iff hlegal

/-- A number of packets one after the other. -/
def burst (n : ℕ) : List TimestampEvent := (List.range n).map fun i : ℕ => .output i i false

/-- With 91 packets on the way and no acknowledgement, the copy of the table starts at index -1. -/
theorem grows_before_ack :
    EachStep step Legal start (burst 90 ++ [.output 90 90 false]) ∧
      ¬EachStep step Sound start (burst 90 ++ [.output 90 90 false]) := by
  obtain ⟨t, os, hlegal, hrun, hlast, hindex⟩ := run_guarded_of (fun (t : TimestampTable × (ℤ → Option ℚ)) (_ : List Unit) =>
    Legal t (.output 90 90 false) ∧ (t.1.output true 90 90 false matches .error .index) = true)
    (show ((run (guarded step Legal) start (burst 90)).map fun r => decide (Legal r.1 (.output 90 90 false) ∧
      (r.1.1.output true 90 90 false matches .error .index) = true)) = some true by decide +kernel)
  constructor
  · refine hlegal.append fun t' os' hrun' => ?_
    obtain ⟨rfl, -⟩ := Prod.mk.inj (Option.some.inj (hrun.symm.trans hrun'))
    exact ⟨hlast, fun _ _ _ => trivial⟩
  · intro hsound
    refine (hsound.right hrun).1.1 90 90 false rfl ?_
    revert hindex
    cases t.1.output true 90 90 false with
    | error f => cases f <;> simp
    | ok _ => simp

end TimestampTable
end NetworkSimulator
