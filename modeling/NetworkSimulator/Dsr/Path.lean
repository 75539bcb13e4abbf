import Mathlib.Data.List.Infix
import Mathlib.Data.List.Nodup
import Mathlib.Data.Int.Notation
import Mathlib.Tactic.Common

/-!
# Source routes

The identifiers and paths of `path.h` and `path.cc`. A path is the list of the identifiers in use
of its array, with the iterator the packets of the agent carry along; a failed assertion is `none`.
A link of a path is a pair of neighbours in it, `[a, b] <:+: ids`.
-/

namespace NetworkSimulator.Dsr

/-- The longest source route the header has room for. -/
def MAX_SR_LEN : Nat := 16

inductive ID_Type
  | NONE
  | MAC
  | IP
  deriving DecidableEq, Repr

structure ID where
  addr : Nat
  type : ID_Type
  deriving DecidableEq, Repr

def invalid_addr : ID := ⟨0xffffffff, .NONE⟩

structure Path where
  path : List ID
  cur_index : Int
  deriving DecidableEq, Repr

namespace Path

/-- The constructor without arguments. -/
def empty : Path := ⟨[], 0⟩

def length (p : Path) : Nat := p.path.length

def index (p : Path) : Int := p.cur_index

def full (p : Path) : Bool := MAX_SR_LEN ≤ p.length

def reset (_ : Path) : Path := ⟨[], 0⟩

def appendToPath (p : Path) (id : ID) : Option Path :=
  if p.length < MAX_SR_LEN then some { p with path := p.path ++ [id] } else none

/-- The ids past the length are not part of the model: a length beyond the ids in use, which would
bring old array contents back, counts as a failure like a length beyond the array. -/
def setLength (p : Path) (l : Nat) : Option Path :=
  if l ≤ p.length ∧ l ≤ MAX_SR_LEN then some { p with path := p.path.take l } else none

/-- A loop of `appendToPath`. -/
def appendEach (p : Path) : List ID → Option Path
  | [] => some p
  | id :: ids => (p.appendToPath id).bind fun p => appendEach p ids

/-- A loop of `appendToPath` that stops at a full path. -/
def appendWhileRoom (p : Path) : List ID → Option Path
  | [] => some p
  | id :: ids => if p.full then some p else (p.appendToPath id).bind fun p => appendWhileRoom p ids

lemma appendEach_eq {p : Path} {ids : List ID} (h : p.length + ids.length ≤ MAX_SR_LEN) :
    p.appendEach ids = some { p with path := p.path ++ ids } := by
  induction ids generalizing p with
  | nil => simp [appendEach]
  | cons id ids ih =>
    rw [List.length_cons] at h
    have hroom : p.length < MAX_SR_LEN := by omega
    rw [appendEach, appendToPath, if_pos hroom, Option.bind_some, ih]
    · simp
    · simp only [length, List.length_append, List.length_singleton] at h ⊢
      omega

lemma appendWhileRoom_eq {p : Path} {ids : List ID} (h : p.length ≤ MAX_SR_LEN) :
    p.appendWhileRoom ids =
      some { p with path := p.path ++ ids.take (MAX_SR_LEN - p.length) } := by
  induction ids generalizing p with
  | nil => simp [appendWhileRoom]
  | cons id ids ih =>
    rw [appendWhileRoom]
    by_cases hf : p.full
    · have hlen : MAX_SR_LEN - p.length = 0 := by
        simp only [full, decide_eq_true_eq] at hf
        omega
      rw [if_pos hf, hlen]
      simp
    · have hroom : p.length < MAX_SR_LEN := by
        simp only [full, decide_eq_true_eq] at hf
        omega
      rw [if_neg hf, appendToPath, if_pos hroom, Option.bind_some, ih]
      · obtain ⟨k, hk⟩ : ∃ k, MAX_SR_LEN - p.length = k + 1 := ⟨MAX_SR_LEN - p.length - 1, by omega⟩
        have hk' : MAX_SR_LEN - (p.path ++ [id]).length = k := by
          simp only [length, List.length_append, List.length_singleton] at hk ⊢
          omega
        simp only [length] at hk ⊢
        rw [hk', hk]
        simp
      · simp only [length, List.length_append, List.length_singleton] at hroom ⊢
        omega

end Path

/-- Sets the first `stop - start + 1` ids of `target` to the ids of `source` from `start` to `stop`. -/
def CopyIntoPath (target source : Path) (start stop : Int) : Option Path :=
  if 0 ≤ start ∧ stop < source.length then
    let copied := (source.path.drop start.toNat).take (stop - start + 1).toNat
    some { target with path := copied ++ target.path.drop copied.length }
  else none

lemma CopyIntoPath_tail {source : Path} {start : Nat} (h : start < source.length) :
    CopyIntoPath Path.empty source start (source.length - 1) =
      some ⟨source.path.drop start, 0⟩ := by
  have hlen : ((source.length : Int) - 1 - start + 1).toNat = (source.path.drop start).length := by
    rw [List.length_drop]
    simp only [Path.length] at h ⊢
    omega
  rw [CopyIntoPath, if_pos (by omega), hlen]
  simp [Path.empty]

section links

variable {α : Type*} [DecidableEq α]

/-- Place of the first step from `a` to `b`. -/
def firstLink (a b : α) : List α → Option Nat
  | x :: y :: ids => if x = a ∧ y = b then some 0 else (firstLink a b (y :: ids)).map (· + 1)
  | _ => none

lemma firstLink_eq_none {a b : α} {ids : List α} (h : firstLink a b ids = none) :
    ¬[a, b] <:+: ids := by
  induction ids with
  | nil => simp
  | cons x ids ih =>
    cases ids with
    | nil =>
      intro hl
      have := hl.length_le
      simp at this
    | cons y ids =>
      rw [firstLink] at h
      split_ifs at h with hxy
      rw [Option.map_eq_none_iff] at h
      rw [List.infix_cons_iff]
      rintro (hp | hi)
      · simp only [List.cons_prefix_cons, List.nil_prefix, and_true] at hp
        exact hxy ⟨hp.1.symm, hp.2.symm⟩
      · exact ih h hi

/-- Cut behind its first place, a dead link is gone and something is cut off. -/
lemma firstLink_eq_some {a b : α} {ids : List α} {n : Nat} (h : firstLink a b ids = some n) :
    n + 1 < ids.length ∧ ¬[a, b] <:+: ids.take (n + 1) := by
  induction ids generalizing n with
  | nil => simp [firstLink] at h
  | cons x ids ih =>
    cases ids with
    | nil => simp [firstLink] at h
    | cons y ids =>
      rw [firstLink] at h
      split_ifs at h with hxy
      · obtain rfl : 0 = n := by simpa using h
        refine ⟨by simp, fun hl => ?_⟩
        have := hl.length_le
        simp at this
      · rw [Option.map_eq_some_iff] at h
        obtain ⟨m, hm, rfl⟩ := h
        obtain ⟨hlt, hno⟩ := ih hm
        refine ⟨by simpa using hlt, ?_⟩
        rw [List.take_succ_cons, List.infix_cons_iff]
        rintro (hp | hi)
        · rw [List.take_succ_cons] at hp
          simp only [List.cons_prefix_cons, List.nil_prefix, and_true] at hp
          exact hxy ⟨hp.1.symm, hp.2.symm⟩
        · exact hno hi

/-- Number of ids the beginnings of two routes share. -/
def commonPrefix : List α → List α → Nat
  | x :: xs, y :: ys => if x = y then commonPrefix xs ys + 1 else 0
  | _, _ => 0

lemma commonPrefix_le (xs ys : List α) :
    commonPrefix xs ys ≤ xs.length ∧ commonPrefix xs ys ≤ ys.length := by
  induction xs generalizing ys with
  | nil => simp [commonPrefix]
  | cons x xs ih =>
    cases ys with
    | nil => simp [commonPrefix]
    | cons y ys =>
      rw [commonPrefix]
      split_ifs
      · have := ih ys
        simp only [List.length_cons]
        omega
      · simp

/-- A route sharing all its ids is continued by the rest of the other one. -/
lemma append_drop_commonPrefix {xs ys : List α} (h : commonPrefix xs ys = xs.length) :
    xs ++ ys.drop (commonPrefix xs ys) = ys := by
  induction xs generalizing ys with
  | nil => simp [commonPrefix]
  | cons x xs ih =>
    cases ys with
    | nil => simp [commonPrefix] at h
    | cons y ys =>
      rw [commonPrefix] at h ⊢
      split_ifs at h ⊢ with hxy
      · simp only [List.length_cons, Nat.add_right_cancel_iff] at h
        rw [hxy, List.drop_succ_cons, List.cons_append, ih h]

end links

end NetworkSimulator.Dsr
