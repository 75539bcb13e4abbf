import NetworkSimulator.Dsr.Path
import NetworkSimulator.Library.Detours

/-!
# `compressPath`

The function of `path.cc` on the array of a path: for each id, from the first on, the last place that it is at
is looked for from the end, and the array from there on is copied to the front.
-/

namespace NetworkSimulator.Dsr
open Library

/-- The array of a path, with the number of ids in use. -/
structure PathArray where
  path : ℕ → ID
  len : ℕ

namespace PathArray

def ids (p : PathArray) : List ID := (List.range p.len).map p.path

/-- The loop that scans for a double back, `n` places from the end of which it has not seen. -/
def findBack (path : ℕ → ID) (fp : ℕ) : ℕ → Option ℕ
  | 0 => none
  | n + 1 => if path fp = path (fp + (n + 1)) then some (fp + (n + 1)) else findBack path fp n

/-- `n` rounds of `path[to++] = path[from++]` -/
def copyDown : ℕ → ℕ → ℕ → (ℕ → ID) → ℕ → ID
  | 0, _, _, path => path
  | n + 1, source, target, path => copyDown n (source + 1) (target + 1) (Function.update path target (path source))

/-- One round of the outer loop. -/
def removeBack (p : PathArray) (fp : ℕ) : PathArray :=
  match findBack p.path fp (p.len - 1 - fp) with
  | none => p
  | some bp => ⟨copyDown (p.len - bp) bp fp p.path, fp + (p.len - bp)⟩

lemma lt_of_findBack {path : ℕ → ID} {fp n bp : ℕ} (h : findBack path fp n = some bp) : fp < bp := by
  induction n with
  | zero => cases h
  | succ n ih =>
    rw [findBack] at h
    split at h
    · cases h
      omega
    · exact ih h

lemma removeBack_len (p : PathArray) (fp : ℕ) (h : fp < p.len) : (p.removeBack fp).len ≤ p.len := by
  rw [removeBack]
  split
  · exact le_rfl
  · next bp hbp =>
    have := lt_of_findBack hbp
    exact show fp + (p.len - bp) ≤ p.len by omega

def compressFrom (fp : ℕ) (p : PathArray) : PathArray :=
  if fp < p.len then compressFrom (fp + 1) (p.removeBack fp) else p
termination_by p.len - fp
decreasing_by
  have := p.removeBack_len fp ‹_›
  omega

/-- Takes the double backs of a path away. -/
def compressPath (p : PathArray) : PathArray := compressFrom 0 p

variable {p : PathArray} {path : ℕ → ID} {fp bp n j source target : ℕ} {a : ID} {done l : List ID}

lemma ids_getElem? : p.ids[j]? = if j < p.len then some (p.path j) else none := by
  rw [ids, List.getElem?_map]
  split
  · next h => rw [List.getElem?_range h, Option.map_some]
  · next h => rw [List.getElem?_eq_none (by simpa using h), Option.map_none]

lemma copyDown_apply (h : target < source) :
    copyDown n source target path j =
      if target ≤ j ∧ j < target + n then path (source + (j - target)) else path j := by
  induction n generalizing source target path with
  | zero => rw [copyDown, if_neg (by omega)]
  | succ n ih =>
    rw [copyDown, ih (by omega)]
    by_cases hj : j = target
    · subst hj
      rw [if_neg (by omega), if_pos (by omega), Function.update_self, Nat.sub_self, Nat.add_zero]
    · by_cases hin : target + 1 ≤ j ∧ j < target + 1 + n
      · have hplace : source + 1 + (j - (target + 1)) = source + (j - target) := by omega
        rw [if_pos hin, if_pos (by omega), hplace, Function.update_of_ne (by omega)]
      · rw [if_neg hin, if_neg (by omega), Function.update_of_ne hj]

/-- The array is cut from the one place to the other. -/
lemma ids_copyDown (hlt : fp < bp) (hle : bp ≤ p.len) :
    ids ⟨copyDown (p.len - bp) bp fp p.path, fp + (p.len - bp)⟩ = p.ids.take fp ++ p.ids.drop bp := by
  refine List.ext_getElem? fun j => ?_
  have hlen : (p.ids.take fp).length = fp := by
    rw [List.length_take, ids, List.length_map, List.length_range]
    omega
  rw [ids_getElem?, List.getElem?_append, hlen]
  dsimp only
  rw [copyDown_apply hlt]
  by_cases hj : j < fp
  · rw [if_pos (by omega), if_pos hj, if_neg (by omega), List.getElem?_take_of_lt hj, ids_getElem?,
      if_pos (by omega)]
  · rw [if_neg hj, List.getElem?_drop, ids_getElem?]
    by_cases hin : j < fp + (p.len - bp)
    · rw [if_pos hin, if_pos (by omega), if_pos (by omega)]
    · rw [if_neg hin, if_neg (by omega)]

variable (path fp n) in
/-- The last place behind `fp` that has the same id. -/
lemma findBack_spec :
    match findBack path fp n with
    | none => ∀ k, k < n → path fp ≠ path (fp + (k + 1))
    | some bp => ∃ k, k < n ∧ bp = fp + (k + 1) ∧ path fp = path bp ∧
        ∀ i, k < i → i < n → path fp ≠ path (fp + (i + 1)) := by
  induction n with
  | zero => exact fun k hk => absurd hk (Nat.not_lt_zero k)
  | succ n ih =>
    rw [findBack]
    by_cases heq : path fp = path (fp + (n + 1))
    · rw [if_pos heq]
      exact ⟨n, by omega, rfl, heq, fun i hi hlt => by omega⟩
    rw [if_neg heq]
    have hlast : ∀ i, i < n + 1 → ¬i < n → path fp ≠ path (fp + (i + 1)) := by
      intro i hi hge
      obtain rfl : i = n := by omega
      exact heq
    cases hfind : findBack path fp n with
    | none =>
      rw [hfind] at ih
      intro k hk
      by_cases hlt : k < n
      · exact ih k hlt
      · exact hlast k hk hlt
    | some bp =>
      rw [hfind] at ih
      obtain ⟨k, hk, hbp, hpath, hnone⟩ := ih
      refine ⟨k, by omega, hbp, hpath, fun i hi hlt => ?_⟩
      by_cases hin : i < n
      · exact hnone i hi hin
      · exact hlast i hlt hin

/-- One round takes the detours from one id away. -/
lemma removeBack_spec (h : p.ids = done ++ a :: l) :
    (p.removeBack done.length).ids = done ++ a :: behind a l ∧ (a ∉ l → p.removeBack done.length = p) := by
  have hlen : p.len = done.length + (l.length + 1) := by
    have hids := congrArg List.length h
    rwa [ids, List.length_map, List.length_range, List.length_append, List.length_cons] at hids
  have hfp : p.path done.length = a := by
    have hget := ids_getElem? (p := p) (j := done.length)
    rw [h, if_pos (by omega), List.getElem?_append_right le_rfl, Nat.sub_self] at hget
    exact (Option.some.inj hget).symm
  have htail : ∀ k, k < l.length → l[k]? = some (p.path (done.length + (k + 1))) := by
    intro k hk
    have hget := ids_getElem? (p := p) (j := done.length + (k + 1))
    rwa [h, if_pos (by omega), List.getElem?_append_right (by omega), Nat.add_sub_cancel_left,
      List.getElem?_cons_succ] at hget
  have hn : p.len - 1 - done.length = l.length := by omega
  have hspec := findBack_spec p.path done.length l.length
  rw [hfp] at hspec
  rw [removeBack, hn]
  cases hfind : findBack p.path done.length l.length with
  | none =>
    rw [hfind] at hspec
    have hnotMem : a ∉ l := by
      intro ha
      obtain ⟨k, hk⟩ := List.mem_iff_getElem?.mp ha
      have hlt : k < l.length := (List.getElem?_eq_some_iff.mp hk).1
      rw [htail k hlt] at hk
      exact hspec k hlt (Option.some.inj hk).symm
    exact ⟨by rw [behind_of_notMem hnotMem]; exact h, fun _ => rfl⟩
  | some bp =>
    rw [hfind] at hspec
    obtain ⟨k, hk, rfl, hpath, hnone⟩ := hspec
    have hsplit : l.drop k = a :: l.drop (k + 1) := by
      rw [List.drop_eq_getElem_cons hk]
      congr 1
      have hget := htail k hk
      rw [List.getElem?_eq_getElem hk] at hget
      rw [Option.some.inj hget, ← hpath]
    have hnotMem : a ∉ l.drop (k + 1) := by
      intro ha
      obtain ⟨i, hi⟩ := List.mem_iff_getElem?.mp ha
      rw [List.getElem?_drop] at hi
      have hlt : k + 1 + i < l.length := (List.getElem?_eq_some_iff.mp hi).1
      rw [htail _ hlt] at hi
      exact hnone (k + 1 + i) (by omega) hlt (Option.some.inj hi).symm
    have hl : l = l.take k ++ a :: l.drop (k + 1) := by rw [← hsplit, List.take_append_drop]
    have hbehind : behind a l = l.drop (k + 1) :=
      (congrArg (behind a) hl).trans (behind_append hnotMem)
    have ha : a ∈ l := List.mem_of_mem_drop (hsplit ▸ List.mem_cons_self)
    refine ⟨?_, fun hn => absurd ha hn⟩
    change ids ⟨copyDown (p.len - (done.length + (k + 1))) (done.length + (k + 1)) done.length p.path, _⟩ = _
    rw [ids_copyDown (by omega) (by omega), h, List.take_left, ← List.drop_drop, List.drop_left, List.drop_succ_cons,
      hsplit, hbehind]

lemma len_eq (h : p.ids = l) : p.len = l.length := by
  rw [← h, ids, List.length_map, List.length_range]

/-- From a place on, the loop takes all detours behind it away. -/
lemma compressFrom_ids (h : p.ids = done ++ l) : (compressFrom done.length p).ids = done ++ withoutDetours l := by
  have hlen := len_eq h
  rw [List.length_append] at hlen
  fun_induction withoutDetours l generalizing done p with
  | case1 => rw [compressFrom, if_neg (by rw [hlen]; simp), h]
  | case2 a l ih =>
    obtain ⟨hround, -⟩ := removeBack_spec h
    rw [List.append_cons] at hround
    have hnext := ih hround (by rw [len_eq hround, List.length_append])
    rw [List.length_append, List.length_singleton] at hnext
    rw [List.length_cons] at hlen
    rw [compressFrom, if_pos (by omega), hnext, List.append_assoc, List.singleton_append]

/-- There is nothing to take away behind a place. -/
lemma compressFrom_of_nodup (h : p.ids = done ++ l) (hl : l.Nodup) : compressFrom done.length p = p := by
  have hlen := len_eq h
  rw [List.length_append] at hlen
  induction l generalizing done with
  | nil => rw [compressFrom, if_neg (by rw [hlen]; simp)]
  | cons a l ih =>
    obtain ⟨ha, hl⟩ := List.nodup_cons.mp hl
    have hsame := (removeBack_spec h).2 ha
    rw [List.append_cons] at h
    have hnext := ih h hl (by rw [len_eq h, List.length_append])
    rw [List.length_append, List.length_singleton] at hnext
    rw [List.length_cons] at hlen
    rw [compressFrom, if_pos (by omega), hsame, hnext]

lemma compressPath_ids (p : PathArray) : (compressPath p).ids = withoutDetours p.ids := by
  have h : p.ids = [] ++ p.ids := rfl
  exact compressFrom_ids h

/-- The loops end, and what is left visits no id twice, has the ends and only steps of the path, and is not
changed when it is compressed once more. -/
theorem compressPath_spec (p : PathArray) :
    let q := compressPath p
    q.ids.Nodup ∧ q.ids.head? = p.ids.head? ∧ q.ids.getLast? = p.ids.getLast? ∧
      (∀ a b, [a, b] <:+: q.ids → [a, b] <:+: p.ids) ∧ compressPath q = q := by
  have hids := compressPath_ids p
  refine ⟨?_, ?_, ?_, fun a b hab => ?_, ?_⟩
  · rw [hids]
    exact withoutDetours_nodup p.ids
  · rw [hids, withoutDetours_head?]
  · rw [hids, withoutDetours_getLast?]
  · rw [hids] at hab
    exact infix_of_withoutDetours hab
  · have h : (compressPath p).ids = [] ++ withoutDetours p.ids := hids
    exact compressFrom_of_nodup h (withoutDetours_nodup p.ids)

end PathArray

end NetworkSimulator.Dsr
