import Mathlib.Data.List.DropRight
import Mathlib.Data.List.Infix
import Mathlib.Data.List.Nodup
import Mathlib.Tactic.Common

/-!
# Walks without their detours

A walk that comes back to a place can go on from there at once. Without all such detours a walk visits no place
twice, and it has the ends and only steps of the walk it was made from.
-/

namespace NetworkSimulator.Library
variable {α : Type*} [DecidableEq α] {a x y : α} {l m : List α}

/-- The walk behind its last visit to a place, all of it if it is never there. -/
def behind (a : α) (l : List α) : List α := l.rtakeWhile (· ≠ a)

lemma behind_of_notMem (h : a ∉ l) : behind a l = l :=
  List.rtakeWhile_eq_self_iff.mpr fun _ hx => decide_eq_true (ne_of_mem_of_not_mem hx h)

lemma notMem_behind : a ∉ behind a l := by
  intro h
  have hne := List.mem_rtakeWhile_imp h
  simp at hne

lemma behind_suffix : behind a l <:+ l := List.rtakeWhile_suffix _ _

/-- The detours that end with the last visit are in front of what is left. -/
lemma exists_append_behind (a : α) (l : List α) : ∃ m, a :: l = m ++ a :: behind a l := by
  have hsplit : l.rdropWhile (· ≠ a) ++ behind a l = l := List.rdropWhile_append_rtakeWhile
  rcases List.eq_nil_or_concat' (l.rdropWhile (· ≠ a)) with hnil | ⟨m, b, hm⟩
  · rw [hnil, List.nil_append] at hsplit
    exact ⟨[], by rw [hsplit, List.nil_append]⟩
  · have hne : l.rdropWhile (· ≠ a) ≠ [] := hm ▸ List.append_ne_nil_of_right_ne_nil m (List.cons_ne_nil b [])
    have hlast := List.rdropWhile_last_not (fun x => decide (x ≠ a)) l hne
    rw [List.getLast_congr hne (by simp) hm, List.getLast_concat] at hlast
    have hb : b = a := by simpa using hlast
    rw [hm, hb, List.append_assoc] at hsplit
    exact ⟨a :: m, by rw [List.cons_append]; exact congrArg (a :: ·) hsplit.symm⟩

lemma behind_append (h : a ∉ m) : behind a (l ++ a :: m) = m := by
  induction m using List.reverseRecOn with
  | nil => exact List.rtakeWhile_concat_neg _ _ _ (by simp)
  | append_singleton m b ih =>
    rw [List.mem_append, not_or, List.mem_singleton] at h
    have hb : decide (b ≠ a) = true := decide_eq_true (Ne.symm h.2)
    rw [behind, ← List.cons_append, ← List.append_assoc, List.rtakeWhile_concat_pos (fun x => decide (x ≠ a)) _ b hb]
    exact congrArg (· ++ [b]) (ih h.1)

def withoutDetours : List α → List α
  | [] => []
  | a :: l => a :: withoutDetours (behind a l)
termination_by l => l.length
decreasing_by exact Nat.lt_succ_of_le behind_suffix.length_le

@[simp] lemma withoutDetours_nil : withoutDetours ([] : List α) = [] := by rw [withoutDetours]

lemma withoutDetours_cons : withoutDetours (a :: l) = a :: withoutDetours (behind a l) := by rw [withoutDetours]

lemma mem_of_mem_withoutDetours : x ∈ withoutDetours l → x ∈ l := by
  fun_induction withoutDetours l with
  | case1 => exact id
  | case2 a l ih =>
    intro hx
    rcases List.mem_cons.mp hx with rfl | hx
    · exact List.mem_cons_self
    · exact List.mem_cons_of_mem a (behind_suffix.subset (ih hx))

lemma withoutDetours_nodup (l : List α) : (withoutDetours l).Nodup := by
  fun_induction withoutDetours l with
  | case1 => exact List.nodup_nil
  | case2 a l ih => exact List.nodup_cons.mpr ⟨fun h => notMem_behind (mem_of_mem_withoutDetours h), ih⟩

lemma withoutDetours_head? (l : List α) : (withoutDetours l).head? = l.head? := by
  cases l with
  | nil => rw [withoutDetours_nil]
  | cons a l => rw [withoutDetours_cons, List.head?_cons, List.head?_cons]

lemma withoutDetours_getLast? (l : List α) : (withoutDetours l).getLast? = l.getLast? := by
  fun_induction withoutDetours l with
  | case1 => rfl
  | case2 a l ih =>
    obtain ⟨m, hm⟩ := exists_append_behind a l
    rw [hm, List.getLast?_append_of_ne_nil _ (List.cons_ne_nil a _), List.getLast?_cons, List.getLast?_cons, ih]

/-- Every step is one of the walk itself. -/
lemma infix_of_withoutDetours (h : [x, y] <:+: withoutDetours l) : [x, y] <:+: l := by
  fun_induction withoutDetours l with
  | case1 => exact h
  | case2 a l ih =>
    rcases List.infix_cons_iff.mp h with hhead | htail
    · obtain ⟨rfl, hy⟩ := List.cons_prefix_cons.mp hhead
      obtain ⟨w, hw⟩ := hy
      have hfirst : (behind x l).head? = some y := by
        rw [← withoutDetours_head?, ← hw]
        rfl
      obtain ⟨w', hw'⟩ := List.head?_eq_some_iff.mp hfirst
      obtain ⟨m, hm⟩ := exists_append_behind x l
      rw [hm, hw']
      exact ⟨m, w', by simp⟩
    · exact (ih htail).trans (behind_suffix.isInfix.trans (List.suffix_cons a l).isInfix)

lemma withoutDetours_of_nodup (h : l.Nodup) : withoutDetours l = l := by
  induction l with
  | nil => rw [withoutDetours_nil]
  | cons a l ih =>
    obtain ⟨ha, hl⟩ := List.nodup_cons.mp h
    rw [withoutDetours_cons, behind_of_notMem ha, ih hl]

end NetworkSimulator.Library
