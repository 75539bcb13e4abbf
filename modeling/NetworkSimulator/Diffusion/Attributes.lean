import Mathlib.Order.Fin.Basic
import NetworkSimulator.Library.ByteOrder

/-!
# Attributes of directed diffusion

`NRAttribute` of `diffusion3/lib/nr/nr.hh` and its comparisons in `nr.cc`. `none` is `abort()`.
-/

namespace NetworkSimulator
open Library

abbrev Byte := Fin 256

instance : OrderBot Byte where
  bot := 0
  bot_le := Fin.zero_le

/-- A string without the NUL that ends it. -/
@[ext] structure CString where
  chars : List Byte
  notMem : ⊥ ∉ chars

namespace CString

/-- What `val_` points to. -/
def val (s : CString) : List Byte := s.chars ++ [⊥]

def len (s : CString) : ℕ := s.val.length

end CString

inductive NRType
  | INT32_TYPE | FLOAT32_TYPE | FLOAT64_TYPE | STRING_TYPE | BLOB_TYPE
  deriving DecidableEq

/-- The operators, and any other number in `op_`. -/
inductive NROperator
  | IS | LE | GE | LT | GT | EQ | NE | EQ_ANY | unknown (op : ℤ)
  deriving DecidableEq

/-- `val_` with its `len_`, read as the type says. -/
inductive NRValue
  | int32 (v : ℤ)
  | float32 (v : Float32)
  | float64 (v : Float)
  | string (s : CString)
  | blob (s : List Byte)

def NRValue.type : NRValue → NRType
  | .int32 _ => .INT32_TYPE
  | .float32 _ => .FLOAT32_TYPE
  | .float64 _ => .FLOAT64_TYPE
  | .string _ => .STRING_TYPE
  | .blob _ => .BLOB_TYPE

structure NRAttribute where
  key : ℤ
  op : NROperator
  val : NRValue

namespace NRAttribute

def type (a : NRAttribute) : NRType := a.val.type

def isSameKey (a attr : NRAttribute) : Prop := a.type = attr.type ∧ a.key = attr.key

instance (a attr : NRAttribute) : Decidable (a.isSameKey attr) := inferInstanceAs (Decidable (_ ∧ _))

def isEQ (a attr : NRAttribute) : Option Bool :=
  if a.isSameKey attr then
    match a.val, attr.val with
    | .int32 v, .int32 w => some (v == w)
    | .float32 v, .float32 w => some (v == w)
    | .float64 v, .float64 w => some (v == w)
    | .string s, .string t => if s.len ≠ t.len then some false else some (strncmp s.len s.val t.val == .eq)
    | .blob s, .blob t => if s.length ≠ t.length then some false else some (memcmp s.length s t == .eq)
    | _, _ => none
  else none

def isGT (a attr : NRAttribute) : Option Bool :=
  if a.isSameKey attr then
    match a.val, attr.val with
    | .int32 v, .int32 w => some (v > w)
    | .float32 v, .float32 w => some (v > w)
    | .float64 v, .float64 w => some (v > w)
    | .string s, .string t => some (strncmp (min s.len t.len) s.val t.val != .eq)
    | .blob s, .blob t =>
      let cmp := memcmp (min s.length t.length) s t
      if cmp = .gt then some true else if cmp = .eq ∧ s.length > t.length then some true else some false
    | _, _ => none
  else none

def isGE (a attr : NRAttribute) : Option Bool :=
  if a.isSameKey attr then
    match a.val, attr.val with
    | .int32 v, .int32 w => some (v ≥ w)
    | .float32 v, .float32 w => some (v ≥ w)
    | .float64 v, .float64 w => some (v ≥ w)
    | .string s, .string t => some (strcmp s.val t.val != .lt)
    | .blob s, .blob t => if memcmp (min s.length t.length) s t ≠ .lt then some true else some false
    | _, _ => none
  else none

def isNE (a attr : NRAttribute) : Option Bool := (a.isEQ attr).map not

def isLT (a attr : NRAttribute) : Option Bool := (a.isGE attr).map not

def isLE (a attr : NRAttribute) : Option Bool := (a.isGT attr).map not

variable {a b : NRAttribute}

/-- Attributes with one key and one type compare without an abort. -/
lemma isSome_of_isSameKey (h : a.isSameKey b) :
    (a.isEQ b).isSome ∧ (a.isGT b).isSome ∧ (a.isGE b).isSome := by
  rw [isEQ, isGT, isGE, if_pos h, if_pos h, if_pos h]
  obtain ⟨htype, -⟩ := h
  rw [type, type] at htype
  cases hval : a.val with
  | int32 v => cases hattr : b.val <;> simp_all [NRValue.type]
  | float32 v => cases hattr : b.val <;> simp_all [NRValue.type]
  | float64 v => cases hattr : b.val <;> simp_all [NRValue.type]
  | string s =>
    cases hattr : b.val <;> simp_all [NRValue.type]
    split <;> rfl
  | blob s =>
    cases hattr : b.val <;> simp_all [NRValue.type]
    refine ⟨?_, ?_, ?_⟩
    · split <;> rfl
    · split
      · rfl
      · split <;> rfl
    · split <;> rfl

end NRAttribute
end NetworkSimulator
