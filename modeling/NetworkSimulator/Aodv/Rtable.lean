import Mathlib.Algebra.Order.Ring.Rat
import Mathlib.Data.List.Forall2
import Mathlib.Data.Rat.Defs
import Mathlib.Tactic.Common

/-!
# The routing table of AODV

An entry for each destination, with the neighbours that use the route as its precursors. A route that is
down has the hop count `INFINITY2`.
-/

namespace NetworkSimulator.Aodv

def INFINITY2 : ℕ := 255

inductive RtFlags
  | RTF_DOWN
  | RTF_UP
  | RTF_IN_REPAIR
  deriving DecidableEq, Repr

structure RtEntry where
  rt_dst : ℤ
  rt_seqno : ℕ
  rt_hops : ℕ
  rt_last_hop_count : ℕ
  rt_nexthop : ℤ
  rt_pclist : List ℤ := []
  rt_expire : ℚ
  rt_flags : RtFlags
  deriving DecidableEq, Repr

namespace RtEntry

def pc_delete (rt : RtEntry) (id : ℤ) : RtEntry := { rt with rt_pclist := rt.rt_pclist.erase id }

def pc_empty (rt : RtEntry) : Bool := rt.rt_pclist.isEmpty

/-- `AODV::rt_down`; a route is not taken down twice. -/
def rt_down (rt : RtEntry) : RtEntry :=
  if rt.rt_flags = .RTF_DOWN then rt
  else
    { rt with
      rt_last_hop_count := rt.rt_hops
      rt_hops := INFINITY2
      rt_flags := .RTF_DOWN
      rt_nexthop := 0
      rt_expire := 0 }

end RtEntry

abbrev Rtable := List RtEntry

namespace Rtable

def rt_lookup (t : Rtable) (id : ℤ) : Option RtEntry := t.find? fun rt => rt.rt_dst = id

/-- The entry that is found for `id` is written over. -/
def assign (id : ℤ) (rt' : RtEntry) : Rtable → Rtable
  | [] => []
  | rt :: rts => if rt.rt_dst = id then rt' :: rts else rt :: assign id rt' rts

/-- How many routes of those in `P` have gone down between two states of a table. -/
def takenDown (P : RtEntry → Bool) (t t' : Rtable) : ℕ :=
  (t.zip t').countP fun p => p.1.rt_hops ≠ INFINITY2 ∧ p.2.rt_hops = INFINITY2 ∧ P p.1

/-- An entry is as it was, or has gone down. -/
def Lowered (rt rt' : RtEntry) : Prop := rt' = rt ∨ (rt.rt_hops ≠ INFINITY2 ∧ rt'.rt_hops = INFINITY2)

variable {t t₁ t₂ : Rtable} {id : ℤ} {rt rt' : RtEntry} {P : RtEntry → Bool}

lemma lowered_refl (t : Rtable) : List.Forall₂ Lowered t t := by
  induction t with
  | nil => exact .nil
  | cons rt t ih => exact .cons (.inl rfl) ih

lemma lowered_trans (h : List.Forall₂ Lowered t t₁) (h' : List.Forall₂ Lowered t₁ t₂) : List.Forall₂ Lowered t t₂ := by
  induction h generalizing t₂ with
  | nil => exact h'
  | cons hab _ ih =>
    cases h' with
    | cons hbc htail =>
      refine .cons ?_ (ih htail)
      rcases hab with rfl | ⟨hup, hdown⟩
      · exact hbc
      · rcases hbc with rfl | ⟨hne, -⟩
        · exact .inr ⟨hup, hdown⟩
        · exact absurd hdown hne

/-- A route that has gone down stays down, so two steps add up. -/
lemma takenDown_trans (h : List.Forall₂ Lowered t t₁) (h' : List.Forall₂ Lowered t₁ t₂) :
    takenDown P t t₂ = takenDown P t t₁ + takenDown P t₁ t₂ := by
  unfold takenDown
  induction h generalizing t₂ with
  | nil =>
    cases h'
    rfl
  | @cons a b ts us hab hrest ih =>
    cases h' with
    | @cons _ c _ vs hbc htail =>
      have hcount := ih htail
      simp only [List.zip_cons_cons, List.countP_cons, hcount]
      rcases hab with rfl | ⟨hup, hdown⟩
      · by_cases hinf : b.rt_hops = INFINITY2
        · simp [hinf]
        · simp [hinf]
          omega
      · rcases hbc with rfl | ⟨hne, -⟩
        · simp [hdown]
          omega
        · exact absurd hdown hne

lemma takenDown_self (t : Rtable) : takenDown P t t = 0 := by
  unfold takenDown
  induction t with
  | nil => rfl
  | cons rt t ih =>
    rw [List.zip_cons_cons, List.countP_cons, ih, if_neg]
    intro h
    obtain ⟨hne, heq, -⟩ := of_decide_eq_true h
    exact hne heq

/-- One entry is written over. -/
lemma assign_spec (hfind : t.rt_lookup id = some rt) (hl : Lowered rt rt') :
    List.Forall₂ Lowered t (t.assign id rt') ∧
      takenDown P t (t.assign id rt') =
        if rt.rt_hops ≠ INFINITY2 ∧ rt'.rt_hops = INFINITY2 ∧ P rt = true then 1 else 0 := by
  induction t with
  | nil => cases hfind
  | cons a t ih =>
    unfold rt_lookup at hfind
    unfold assign
    by_cases ha : a.rt_dst = id
    · rw [List.find?_cons_of_pos (by simpa using ha)] at hfind
      obtain rfl := Option.some.inj hfind
      rw [if_pos ha]
      refine ⟨.cons hl (lowered_refl t), ?_⟩
      have hself := takenDown_self (P := P) t
      unfold takenDown at hself ⊢
      rw [List.zip_cons_cons, List.countP_cons, hself, Nat.zero_add]
      exact if_congr (by rw [decide_eq_true_iff]) rfl rfl
    · rw [List.find?_cons_of_neg (by simpa using ha)] at hfind
      rw [if_neg ha]
      obtain ⟨hlow, hcount⟩ := ih hfind
      refine ⟨.cons (.inl rfl) hlow, ?_⟩
      rw [← hcount]
      unfold takenDown
      rw [List.zip_cons_cons, List.countP_cons, if_neg, Nat.add_zero]
      intro h
      obtain ⟨hne, heq, -⟩ := of_decide_eq_true h
      exact hne heq

end Rtable
end NetworkSimulator.Aodv
