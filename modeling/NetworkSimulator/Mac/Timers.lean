import Mathlib.Algebra.Order.Floor.Ring
import Mathlib.Data.Rat.Floor
import Mathlib.Tactic.Linarith

/-!
# The timers of the 802.11 MAC

`MacTimer` and `BackoffTimer` with exact times. The backoff counts slots down while the medium is idle; the first
DIFS of an idle period does not count. A failed assertion is `none`.
-/

namespace NetworkSimulator

/-- An assertion in front of the rest of a function. -/
def asserting {α : Type*} (p : Prop) [Decidable p] (x : Option α) : Option α := if p then x else none

lemma asserting_pos {α : Type*} {p : Prop} [Decidable p] (h : p) (x : Option α) : asserting p x = x := if_pos h

lemma asserting_eq_some {α : Type*} {p : Prop} [Decidable p] {x : Option α} {a : α} :
    asserting p x = some a ↔ p ∧ x = some a := by
  unfold asserting
  split_ifs with h
  · simp [h]
  · simp [h]

structure MacTimer where
  busy : Bool
  stime : ℚ
  rtime : ℚ
  deriving DecidableEq

namespace MacTimer

def free : MacTimer := ⟨false, 0, 0⟩

/-- When a busy timer goes off. -/
def due (t : MacTimer) : ℚ := t.stime + t.rtime

def expire (t : MacTimer) (now : ℚ) : ℚ := t.stime + t.rtime - now

def start (t : MacTimer) (now time : ℚ) : Option MacTimer :=
  asserting (¬t.busy) <| asserting (0 ≤ time) <| some ⟨true, now, time⟩

def stop (t : MacTimer) : Option MacTimer := asserting t.busy <| some free

lemma start_eq {t : MacTimer} {now time : ℚ} (hb : ¬t.busy) (ht : 0 ≤ time) :
    t.start now time = some ⟨true, now, time⟩ := by
  rw [start, asserting_pos hb, asserting_pos ht]

lemma start_eq_some {t u : MacTimer} {now time : ℚ} (h : t.start now time = some u) :
    ¬t.busy ∧ 0 ≤ time ∧ u = ⟨true, now, time⟩ := by
  rw [start, asserting_eq_some, asserting_eq_some] at h
  exact ⟨h.1, h.2.1, (Option.some.inj h.2.2).symm⟩

lemma stop_eq {t : MacTimer} (hb : t.busy) : t.stop = some free := by rw [stop, asserting_pos hb]

lemma stop_eq_some {t u : MacTimer} (h : t.stop = some u) : t.busy ∧ u = free := by
  rw [stop, asserting_eq_some] at h
  exact ⟨h.1, (Option.some.inj h.2).symm⟩

end MacTimer

structure BackoffTimer where
  busy : Bool
  paused : Bool
  stime : ℚ
  rtime : ℚ
  difsWait : ℚ
  deriving DecidableEq

namespace BackoffTimer

def free : BackoffTimer := ⟨false, false, 0, 0, 0⟩

/-- When a busy timer that is not paused goes off. -/
def due (b : BackoffTimer) : ℚ := b.stime + b.difsWait + b.rtime

/-- `start`, with the random number it draws. -/
def start (b : BackoffTimer) (slotTime : ℚ) (cw : ℕ) (idle : Bool) (difs now : ℚ) (random : ℕ) :
    Option BackoffTimer :=
  asserting (¬b.busy) <|
    let rtime := (random % cw : ℕ) * slotTime
    asserting (idle → 0 ≤ rtime + difs) <| some ⟨true, !idle, now, rtime, difs⟩

/-- The slots that have passed when the timer is paused, `int` being truncation. -/
def slotsPassed (b : BackoffTimer) (slotTime now : ℚ) : ℕ :=
  ⌊(now - (b.stime + b.difsWait)) / slotTime⌋.toNat

def pause (b : BackoffTimer) (slotTime now : ℚ) : Option BackoffTimer :=
  asserting (b.busy ∧ ¬b.paused) <|
    let rtime := b.rtime - b.slotsPassed slotTime now * slotTime
    asserting (0 ≤ rtime) <| some { b with paused := true, rtime := rtime, difsWait := 0 }

def resume (b : BackoffTimer) (difs now : ℚ) : Option BackoffTimer :=
  asserting (b.busy ∧ b.paused) <| asserting (0 ≤ b.rtime + difs) <|
    some { b with paused := false, stime := now, difsWait := difs }

variable {b c : BackoffTimer} {slotTime difs now : ℚ} {cw random : ℕ} {idle : Bool}

lemma start_eq (hb : ¬b.busy) (hslot : 0 ≤ slotTime) (hdifs : 0 ≤ difs) :
    b.start slotTime cw idle difs now random =
      some ⟨true, !idle, now, (random % cw : ℕ) * slotTime, difs⟩ := by
  have hpos : (0 : ℚ) ≤ (random % cw : ℕ) * slotTime := by positivity
  unfold start
  dsimp only
  rw [asserting_pos hb, asserting_pos fun _ => by linarith]

lemma start_eq_some (h : b.start slotTime cw idle difs now random = some c) :
    ¬b.busy ∧ c = ⟨true, !idle, now, (random % cw : ℕ) * slotTime, difs⟩ := by
  unfold start at h
  dsimp only at h
  rw [asserting_eq_some, asserting_eq_some] at h
  exact ⟨h.1, (Option.some.inj h.2.2).symm⟩

/-- The slots that have passed are fewer than those that are left as long as the timer is not overdue. -/
lemma slotsPassed_mul_le (hslot : 0 < slotTime) (hr : 0 ≤ b.rtime) (hdue : now ≤ b.due) :
    b.slotsPassed slotTime now * slotTime ≤ b.rtime := by
  unfold slotsPassed
  rcases le_or_gt 0 ⌊(now - (b.stime + b.difsWait)) / slotTime⌋ with hf | hf
  · have hcast : ((⌊(now - (b.stime + b.difsWait)) / slotTime⌋.toNat : ℕ) : ℚ) =
        (⌊(now - (b.stime + b.difsWait)) / slotTime⌋ : ℤ) := by
      rw [← Int.cast_natCast, Int.toNat_of_nonneg hf]
    have hfloor := Int.floor_le ((now - (b.stime + b.difsWait)) / slotTime)
    rw [le_div_iff₀ hslot] at hfloor
    rw [hcast]
    unfold due at hdue
    linarith
  · rw [Int.toNat_of_nonpos hf.le]
    simpa using hr

lemma pause_eq (hb : b.busy) (hp : ¬b.paused) (hslot : 0 < slotTime) (hr : 0 ≤ b.rtime) (hdue : now ≤ b.due) :
    b.pause slotTime now =
      some { b with paused := true, rtime := b.rtime - b.slotsPassed slotTime now * slotTime, difsWait := 0 } := by
  have hle := slotsPassed_mul_le hslot hr hdue
  unfold pause
  dsimp only
  rw [asserting_pos ⟨hb, hp⟩, asserting_pos (by linarith)]

lemma pause_eq_some (h : b.pause slotTime now = some c) :
    b.busy ∧ ¬b.paused ∧
      c = { b with paused := true, rtime := b.rtime - b.slotsPassed slotTime now * slotTime, difsWait := 0 } ∧
      0 ≤ c.rtime := by
  unfold pause at h
  dsimp only at h
  rw [asserting_eq_some, asserting_eq_some] at h
  obtain rfl := Option.some.inj h.2.2
  exact ⟨h.1.1, h.1.2, rfl, h.2.1⟩

lemma resume_eq (hb : b.busy) (hp : b.paused) (hr : 0 ≤ b.rtime + difs) :
    b.resume difs now = some { b with paused := false, stime := now, difsWait := difs } := by
  rw [resume, asserting_pos ⟨hb, hp⟩, asserting_pos hr]

lemma resume_eq_some (h : b.resume difs now = some c) :
    b.busy ∧ b.paused ∧ c = { b with paused := false, stime := now, difsWait := difs } := by
  rw [resume, asserting_eq_some, asserting_eq_some] at h
  exact ⟨h.1.1, h.1.2, (Option.some.inj h.2.2).symm⟩

end BackoffTimer

end NetworkSimulator
