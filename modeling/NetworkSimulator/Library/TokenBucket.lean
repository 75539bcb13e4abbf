import Mathlib.Algebra.BigOperators.Group.List.Basic
import Mathlib.Algebra.Order.Ring.Defs
import Mathlib.Data.List.Infix
import Mathlib.Tactic.Linarith
import Mathlib.Tactic.Ring

/-!
# Token buckets

A bucket of a given depth that fills at a given rate, and the list of what has been taken out of it. The level is the
largest amount that can be taken now such that no window of the list has more than the depth and what the rate gives
in the time of the window. A bucket that is never overdrawn takes exactly what conforms.
-/

namespace NetworkSimulator.Library

variable {K : Type*} [CommRing K] [LinearOrder K] [IsStrictOrderedRing K]

structure Take (K : Type*) where
  time : K
  size : K
  deriving DecidableEq

def total (l : List (Take K)) : K := (l.map Take.size).sum

omit [LinearOrder K] [IsStrictOrderedRing K] in
@[simp] lemma total_nil : total ([] : List (Take K)) = 0 := rfl

omit [LinearOrder K] [IsStrictOrderedRing K] in
@[simp] lemma total_cons (a : Take K) (l : List (Take K)) : total (a :: l) = a.size + total l := by
  simp [total]

omit [LinearOrder K] [IsStrictOrderedRing K] in
@[simp] lemma total_append (l m : List (Take K)) : total (l ++ m) = total l + total m := by
  simp [total]

/-- No window has more than the depth and what the rate gives in its time. -/
def Conforms (rate depth : K) (l : List (Take K)) : Prop :=
  ∀ a m, a :: m <:+: l → total (a :: m) ≤ depth + rate * (((a :: m).getLast (List.cons_ne_nil a m)).time - a.time)

/-- An amount that the windows up to now leave. -/
def Leaves (rate depth : K) (l : List (Take K)) (now x : K) : Prop :=
  x ≤ depth ∧ ∀ a m, a :: m <:+ l → total (a :: m) + x ≤ depth + rate * (now - a.time)

omit [IsStrictOrderedRing K] in
lemma conforms_nil (rate depth : K) : Conforms rate depth [] := fun _ _ h =>
  absurd (List.infix_nil.mp h) (List.cons_ne_nil _ _)

omit [IsStrictOrderedRing K] in
/-- What comes last conforms when the windows before leave it. -/
lemma conforms_concat {rate depth : K} {l : List (Take K)} {c : Take K} :
    Conforms rate depth (l ++ [c]) ↔ Conforms rate depth l ∧ Leaves rate depth l c.time c.size := by
  constructor
  · intro h
    refine ⟨fun a m ham => h a m (ham.trans (List.infix_append' [] l [c])), ?_, fun a m ham => ?_⟩
    · simpa using h c [] (List.suffix_append l [c]).isInfix
    · have hwindow := h a (m ++ [c]) (List.suffix_append_self_iff.mpr ham).isInfix
      simpa [add_assoc] using hwindow
  · rintro ⟨h, hdepth, hleaves⟩ a m ham
    rcases List.infix_concat_iff.mp ham with hsuffix | hinfix
    · obtain ⟨t, ht, hbefore⟩ := (List.suffix_concat_iff.mp hsuffix).resolve_left (List.cons_ne_nil a m)
      cases t with
      | nil =>
        obtain ⟨rfl, rfl⟩ := List.cons.inj ht
        simpa using hdepth
      | cons b t =>
        obtain ⟨rfl, rfl⟩ := List.cons.inj ht
        have hwindow := hleaves a t hbefore
        simpa [add_assoc] using hwindow
    · exact h a m hinfix

structure TokenBucket (K : Type*) where
  level : K
  last : K

namespace TokenBucket

def refill (rate depth now : K) (b : TokenBucket K) : TokenBucket K :=
  ⟨min depth (b.level + rate * (now - b.last)), now⟩

def take (size : K) (b : TokenBucket K) : TokenBucket K := { b with level := b.level - size }

/-- The level is the largest amount that the windows leave. -/
def Meters (rate depth : K) (b : TokenBucket K) (l : List (Take K)) : Prop :=
  ∀ x, x ≤ b.level ↔ Leaves rate depth l b.last x

variable {rate depth : K} {b : TokenBucket K} {l : List (Take K)}

omit [IsStrictOrderedRing K] in
lemma meters_full (rate depth last : K) : Meters rate depth ⟨depth, last⟩ [] := fun x => by
  refine ⟨fun hx => ⟨hx, fun a m ham => ?_⟩, And.left⟩
  exact absurd (List.suffix_nil.mp ham) (List.cons_ne_nil a m)

lemma Meters.refill (h : Meters rate depth b l) (hrate : 0 ≤ rate) {now : K} (hnow : b.last ≤ now) :
    Meters rate depth (b.refill rate depth now) l := by
  intro x
  have hgain : 0 ≤ rate * (now - b.last) := mul_nonneg hrate (sub_nonneg.mpr hnow)
  unfold TokenBucket.refill Leaves
  rw [le_min_iff, ← sub_le_iff_le_add, h, Leaves]
  refine and_congr_right fun hx => ?_
  rw [and_iff_right (show x - rate * (now - b.last) ≤ depth by linarith)]
  have hshift : ∀ a : Take K, rate * (now - a.time) = rate * (b.last - a.time) + rate * (now - b.last) := fun a => by
    ring
  constructor
  · intro hleft a m ham
    have hwindow := hleft a m ham
    rw [hshift]
    linarith
  · intro hleft a m ham
    have hwindow := hleft a m ham
    rw [hshift] at hwindow
    linarith

lemma Meters.take (h : Meters rate depth b l) {size : K} (hsize : 0 ≤ size) :
    Meters rate depth (b.take size) (l ++ [⟨b.last, size⟩]) := by
  intro x
  unfold TokenBucket.take
  rw [le_sub_iff_add_le, h]
  constructor
  · rintro ⟨hdepth, hleft⟩
    refine ⟨by linarith, fun a m ham => ?_⟩
    obtain ⟨t, ht, hsuffix⟩ := (List.suffix_concat_iff.mp ham).resolve_left (List.cons_ne_nil a m)
    rw [ht, total_append, total_cons, total_nil]
    cases t with
    | nil =>
      obtain ⟨rfl, -⟩ := List.cons.inj ht
      simpa [add_comm] using hdepth
    | cons c t =>
      obtain ⟨rfl, -⟩ := List.cons.inj ht
      have hwindow := hleft a t hsuffix
      dsimp only
      linarith
  · rintro ⟨-, hleft⟩
    constructor
    · have hwindow := hleft ⟨b.last, size⟩ [] (List.suffix_append l _)
      rw [total_cons, total_nil] at hwindow
      dsimp only at hwindow
      linarith
    · intro a m ham
      have hwindow := hleft a (m ++ [⟨b.last, size⟩]) (List.suffix_append_self_iff.mpr ham)
      rw [← List.cons_append, total_append, total_cons, total_cons, total_nil] at hwindow
      dsimp only at hwindow
      rw [total_cons]
      linarith

omit [IsStrictOrderedRing K] in
/-- The bucket has enough for what conforms and for nothing else. -/
lemma Meters.conforms_iff (h : Meters rate depth b l) (hl : Conforms rate depth l) (size : K) :
    Conforms rate depth (l ++ [⟨b.last, size⟩]) ↔ size ≤ b.level := by
  rw [conforms_concat, and_iff_right hl]
  exact (h size).symm

end TokenBucket

end NetworkSimulator.Library
