import NetworkSimulator.Library.BitFields
import NetworkSimulator.Nix.NixNode

/-!
# The words of a nix-vector

`NixVec` of `nix/nixvec.h` and `nix/nixvec.cc` on a platform whose `unsigned long` has `W` bits, with 32 bits of
each word in use. The copy constructor copies bytes, the lowest of each word first, into memory that held
something before. Lengths are not bounded; `none` is a word that is not there.
-/

namespace NetworkSimulator
open Library

/-- `m_pNV`, which is the word itself where one word is enough. -/
inductive NixStore (W : ℕ)
  | value (n : BitVec W)
  | array (a : List (BitVec W))

structure NixWords (W : ℕ) where
  pNV : NixStore W
  used : ℕ
  alth : ℕ -- the largest used

namespace NixWords
variable {W : ℕ}

def init (W : ℕ) : NixWords W := ⟨.value 0, 0, 0⟩

def lth (v : NixWords W) : ℕ := if v.alth = 0 then NIX_BPW else ((v.alth - 1) / NIX_BPW + 1) * NIX_BPW

/-- `m_pNV[i] |= newbits` -/
def orWord (a : List (BitVec W)) (i : ℕ) (newbits : BitVec W) : Option (List (BitVec W)) :=
  a[i]?.map fun x => a.set i (x ||| newbits)

/-- The words that are copied when more room is needed. -/
def oldWords (v : NixWords W) : Option (List (BitVec W)) :=
  match v.pNV with
  | .value n => if v.lth = NIX_BPW then some [n] else none
  | .array a => if v.lth = NIX_BPW then none else some (a.take (v.lth / NIX_BPW))

/-- `NIX_BPW - m_used + (lth - 32) - l`, in unsigned numbers -/
def shiftIn (used lth l : ℕ) : ℕ := ((NIX_BPW : ℤ) - used + ((lth : ℤ) - 32) - l).toNat

/-- The part of `Add` for an entry that does not fit: there is one word more. -/
def addRoom (v : NixWords W) (p : BitVec W × ℕ) : Option (NixStore W) :=
  let newlth := v.lth + NIX_BPW
  v.oldWords.bind fun old =>
    let pNew := old ++ [0]
    let i := v.used / NIX_BPW
    if v.used = v.lth then
      (orWord pNew i (p.1 <<< shiftIn v.used newlth p.2)).map .array -- no overlap
    else
      let left := v.lth - v.used
      (orWord pNew i (p.1 >>> (p.2 - left))).bind fun pNew =>
        (orWord pNew (i + 1) (p.1 <<< (NIX_BPW - (p.2 - left)))).map .array

/-- The part of `Add` for an entry that fits. -/
def addIn (v : NixWords W) (p : BitVec W × ℕ) : Option (NixStore W) :=
  let newbits := p.1 <<< shiftIn v.used v.lth p.2
  match v.pNV with
  | .value n => if v.lth = NIX_BPW then some (.value (n ||| newbits)) else none
  | .array a => if v.lth = NIX_BPW then none else (orWord a (v.used / NIX_BPW) newbits).map .array

def add (v : NixWords W) (p : BitVec W × ℕ) : Option (NixWords W) :=
  if p.2 = 0 then some v
  else
    let newused := v.used + p.2
    (if newused > v.lth then v.addRoom p else v.addIn p).map fun pNV =>
      ⟨pNV, newused, if newused > v.alth then newused else v.alth⟩

def reset (v : NixWords W) : NixWords W := { v with used := 0 }

def getWord (v : NixWords W) (word : ℕ) : Option (BitVec W) :=
  match v.pNV with
  | .value n => if v.lth = NIX_BPW then some n else none
  | .array a => if v.lth = NIX_BPW then none else a[word]?

/-- `m_pNV[word]` -/
def arrayWord (v : NixWords W) (word : ℕ) : Option (BitVec W) :=
  match v.pNV with
  | .value _ => none
  | .array a => a[word]?

/-- `Extract`, the simple case. -/
def extractOne (w : BitVec W) (bit n : ℕ) : BitVec W := (w &&& (signMask W n >>> bit)) >>> (NIX_BPW - bit - n)

/-- `Extract`, an entry that spans two words. -/
def extractTwo (w next : BitVec W) (bit n : ℕ) : BitVec W :=
  let t := NIX_BPW - bit -- bits in the first word
  let w := w &&& (signMask W t >>> bit)
  let t := n - t -- bits in the second word
  (w <<< t) ||| (next >>> (NIX_BPW - t))

/-- `Extract` with the built-in `m_used`. -/
def extract (v : NixWords W) (n : ℕ) : Option (NixWords W × BitVec W) :=
  let word := v.used / NIX_BPW
  let bit := v.used - word * NIX_BPW
  if v.used + n > v.alth then some (v, BitVec.ofNat W NIX_NONE)
  else
    (v.getWord word).bind fun w =>
      (if bit + n ≤ NIX_BPW then some (extractOne w bit n)
      else (v.arrayWord (word + 1)).map fun next => extractTwo w next bit n).map fun x =>
      ({ v with used := v.used + n }, x)

/-- The lowest `bytes` bytes of a word over what the memory held. -/
def copyBytes (bytes : ℕ) (w junk : BitVec W) : BitVec W :=
  (w &&& ~~~(BitVec.allOnes W <<< (8 * bytes))) ||| (junk &&& (BitVec.allOnes W <<< (8 * bytes)))

/-- The words that `memcpy(m_pNV, p->m_pNV, lth / 8)` leaves, the first of them at byte `at`. -/
def copyWords (lth : ℕ) (junk : ℕ → BitVec W) : ℕ → List (BitVec W) → List (BitVec W)
  | _, [] => []
  | i, w :: a => copyBytes (min (W / 8) (lth / 8 - i * (W / 8))) w (junk i) :: copyWords lth junk (i + 1) a

/-- The copy constructor, with the memory of the new words. -/
def copy (junk : ℕ → BitVec W) (v : NixWords W) : Option (NixWords W) :=
  if v.lth > NIX_BPW then
    match v.pNV with
    | .value _ => none
    | .array a => some ⟨.array (copyWords v.lth junk 0 a), 0, v.alth⟩
  else some ⟨v.pNV, 0, v.alth⟩

/-- Entries of these widths are extracted one after another. -/
def extractAll (v : NixWords W) : List ℕ → Option (List (BitVec W))
  | [] => some []
  | n :: ns => (v.extract n).bind fun r => (extractAll r.1 ns).map (r.2 :: ·)

end NixWords

end NetworkSimulator
