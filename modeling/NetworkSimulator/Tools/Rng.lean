import Mathlib.Algebra.Order.Field.Rat
import Mathlib.Data.Int.Notation

/-!
# The random number generator

The combined multiple recursive generator with its streams and substreams. The doubles of a state or a matrix are
integers here and the numbers it returns are rationals; the 53 bit variant and the seeds from the clock are left out.
-/

namespace NetworkSimulator.Rng

def m1 : ℕ := 4294967087
def m2 : ℕ := 4294944443
def a12 : ℤ := 1403580
def a13n : ℤ := 810728
def a21 : ℤ := 527612
def a23n : ℤ := 1370589
def two17 : ℤ := 131072
def two53 : ℤ := 9007199254740992
def norm : ℚ := 1 / (m1 + 1)

/-- `double[3]` -/
structure Vec3 where
  v0 : ℤ
  v1 : ℤ
  v2 : ℤ
  deriving DecidableEq

/-- `double[3][3]`, by rows. -/
structure Mat3 where
  r0 : Vec3
  r1 : Vec3
  r2 : Vec3
  deriving DecidableEq

/-! ### The transition matrices and their powers -/

def InvA1 : Mat3 := ⟨⟨184888585, 0, 1945170933⟩, ⟨1, 0, 0⟩, ⟨0, 1, 0⟩⟩

def InvA2 : Mat3 := ⟨⟨0, 360363334, 4225571728⟩, ⟨1, 0, 0⟩, ⟨0, 1, 0⟩⟩

def A1p0 : Mat3 := ⟨⟨0, 1, 0⟩, ⟨0, 0, 1⟩, ⟨-810728, 1403580, 0⟩⟩

def A2p0 : Mat3 := ⟨⟨0, 1, 0⟩, ⟨0, 0, 1⟩, ⟨-1370589, 0, 527612⟩⟩

def A1p76 : Mat3 :=
  ⟨⟨82758667, 1871391091, 4127413238⟩, ⟨3672831523, 69195019, 1871391091⟩, ⟨3672091415, 3528743235, 69195019⟩⟩

def A2p76 : Mat3 :=
  ⟨⟨1511326704, 3759209742, 1610795712⟩, ⟨4292754251, 1511326704, 3889917532⟩, ⟨3859662829, 4292754251, 3708466080⟩⟩

def A1p127 : Mat3 :=
  ⟨⟨2427906178, 3580155704, 949770784⟩, ⟨226153695, 1230515664, 3580155704⟩, ⟨1988835001, 986791581, 1230515664⟩⟩

def A2p127 : Mat3 :=
  ⟨⟨1464411153, 277697599, 1610723613⟩, ⟨32183930, 1464411153, 1022607788⟩, ⟨2824425944, 32183930, 2093834863⟩⟩

/-! ### Arithmetic modulo m -/

def MultModM (a s c m : ℤ) : ℤ :=
  let v := a * s + c
  let v :=
    if v ≥ two53 ∨ v ≤ -two53 then
      let a1 := a.tdiv two17
      let a := a - a1 * two17
      let v := a1 * s
      let a1 := v.tdiv m
      let v := v - a1 * m
      v * two17 + a * s + c
    else v
  let a1 := v.tdiv m
  let v := v - a1 * m
  if v < 0 then v + m else v

/-- One pass of the loop of `MatVecModM`. -/
def rowModM (row s : Vec3) (m : ℤ) : ℤ :=
  let x := MultModM row.v0 s.v0 0 m
  let x := MultModM row.v1 s.v1 x m
  MultModM row.v2 s.v2 x m

def MatVecModM (A : Mat3) (s : Vec3) (m : ℤ) : Vec3 := ⟨rowModM A.r0 s m, rowModM A.r1 s m, rowModM A.r2 s m⟩

def Mat3.transpose (A : Mat3) : Mat3 :=
  ⟨⟨A.r0.v0, A.r1.v0, A.r2.v0⟩, ⟨A.r0.v1, A.r1.v1, A.r2.v1⟩, ⟨A.r0.v2, A.r1.v2, A.r2.v2⟩⟩

/-- The product by columns. -/
def MatMatModM (A B : Mat3) (m : ℤ) : Mat3 :=
  let V := B.transpose
  Mat3.transpose ⟨MatVecModM A V.r0 m, MatVecModM A V.r1 m, MatVecModM A V.r2 m⟩

def MatTwoPowModM (A : Mat3) (m : ℤ) : ℕ → Mat3
  | 0 => A
  | e + 1 =>
    let B := MatTwoPowModM A m e
    MatMatModM B B m

/-- The loop of `MatPowModM`. -/
def powLoop (m : ℤ) (W B : Mat3) (n : ℕ) : Mat3 :=
  if h : n = 0 then B
  else powLoop m (MatMatModM W W m) (if n % 2 ≠ 0 then MatMatModM W B m else B) (n / 2)
termination_by n
decreasing_by omega

def identity : Mat3 := ⟨⟨1, 0, 0⟩, ⟨0, 1, 0⟩, ⟨0, 0, 1⟩⟩

def MatPowModM (A : Mat3) (m : ℤ) (n : ℕ) : Mat3 := powLoop m A identity n

/-! ### States -/

/-- The six numbers of a state, by component. -/
structure State where
  c1 : Vec3
  c2 : Vec3
  deriving DecidableEq

/-- 0 for legal seeds. -/
def CheckSeed (seed : Fin 6 → ℕ) : ℤ :=
  if m1 ≤ seed 0 ∨ m1 ≤ seed 1 ∨ m1 ≤ seed 2 then -1
  else if m2 ≤ seed 3 ∨ m2 ≤ seed 4 ∨ m2 ≤ seed 5 then -1
  else if seed 0 = 0 ∧ seed 1 = 0 ∧ seed 2 = 0 then -1
  else if seed 3 = 0 ∧ seed 4 = 0 ∧ seed 5 = 0 then -1
  else 0

def State.ofSeed (seed : Fin 6 → ℕ) : State := ⟨⟨seed 0, seed 1, seed 2⟩, ⟨seed 3, seed 4, seed 5⟩⟩

/-- Component 1 of `U01`. -/
def component1 (s : Vec3) : Vec3 :=
  let p1 := a12 * s.v1 - a13n * s.v0
  let k := p1.tdiv m1
  let p1 := p1 - k * m1
  let p1 := if p1 < 0 then p1 + m1 else p1
  ⟨s.v1, s.v2, p1⟩

/-- Component 2 of `U01`. -/
def component2 (s : Vec3) : Vec3 :=
  let p2 := a21 * s.v2 - a23n * s.v0
  let k := p2.tdiv m2
  let p2 := p2 - k * m2
  let p2 := if p2 < 0 then p2 + m2 else p2
  ⟨s.v1, s.v2, p2⟩

/-- The state transition of `U01`. -/
def State.next (s : State) : State := ⟨component1 s.c1, component2 s.c2⟩

/-- A state through one matrix for each component. -/
def State.through (A1 A2 : Mat3) (s : State) : State := ⟨MatVecModM A1 s.c1 m1, MatVecModM A2 s.c2 m2⟩

/-- The matrix that `advance_state` applies to a component with the matrices `A` and `InvA`. -/
def jumpMatrix (A InvA : Mat3) (m : ℤ) (e c : ℤ) : Mat3 :=
  let B := if e > 0 then MatTwoPowModM A m e.toNat else MatTwoPowModM InvA m (-e).toNat
  let C := if c ≥ 0 then MatPowModM A m c.toNat else MatPowModM InvA m (-c).toNat
  if e ≠ 0 then MatMatModM B C m else C

end Rng

/-! ### Streams -/

open Rng

structure RNG where
  Cg : State
  Bg : State
  Ig : State
  anti : Bool
  deriving DecidableEq

namespace RNG
variable (r : RNG)

def U01 : RNG × ℚ :=
  let s := r.Cg.next
  let p1 := s.c1.v2
  let p2 := s.c2.v2
  let u := if p1 > p2 then (p1 - p2) * Rng.norm else (p1 - p2 + m1) * Rng.norm
  ({ r with Cg := s }, if r.anti = false then u else 1 - u)

/-- `init`, with the seed of the package; the seed for the next stream is returned too. -/
def init (nextSeed : State) : RNG × State := (⟨nextSeed, nextSeed, nextSeed, false⟩, nextSeed.through A1p127 A2p127)

def reset_start_stream : RNG := { r with Cg := r.Ig, Bg := r.Ig }

def reset_start_substream : RNG := { r with Cg := r.Bg }

def reset_next_substream : RNG :=
  let s := r.Bg.through A1p76 A2p76
  { r with Bg := s, Cg := s }

/-- `set_seed` with a vector; `none` is an abort. -/
def set_seed (seed : Fin 6 → ℕ) : Option RNG :=
  if CheckSeed seed ≠ 0 then none
  else
    let s := State.ofSeed seed
    some { r with Cg := s, Bg := s, Ig := s }

def advance_state (e c : ℤ) : RNG :=
  { r with Cg := r.Cg.through (jumpMatrix A1p0 InvA1 m1 e c) (jumpMatrix A2p0 InvA2 m2 e c) }

end RNG

/-- All streams, and the seed for the next one. -/
structure RngPackage where
  next_seed : State
  streams : List RNG

inductive RngOp
  | create
  | set_package_seed (seed : Fin 6 → ℕ)
  | U01 (k : ℕ)
  | reset_start_stream (k : ℕ)
  | reset_start_substream (k : ℕ)
  | reset_next_substream (k : ℕ)
  | set_seed (k : ℕ) (seed : Fin 6 → ℕ)
  | set_antithetic (k : ℕ) (a : Bool)
  | advance_state (k : ℕ) (e c : ℤ)

namespace RngPackage
variable (p : RngPackage)

def initial : RngPackage := ⟨.ofSeed fun _ => 12345, []⟩

/-- An operation on the stream `k`. -/
def onStream (k : ℕ) (f : RNG → Option RNG) : Option (RngPackage × Option ℚ) :=
  p.streams[k]?.bind fun r => (f r).map fun r' => ({ p with streams := p.streams.set k r' }, none)

/-- `none` is an abort or a stream that does not exist; `U01` has an output. -/
def step : RngOp → Option (RngPackage × Option ℚ)
  | .create =>
    let r := RNG.init p.next_seed
    some (⟨r.2, p.streams ++ [r.1]⟩, none)
  | .set_package_seed seed => if CheckSeed seed ≠ 0 then none else some ({ p with next_seed := .ofSeed seed }, none)
  | .U01 k => p.streams[k]?.map fun r => ({ p with streams := p.streams.set k r.U01.1 }, some r.U01.2)
  | .reset_start_stream k => p.onStream k fun r => some r.reset_start_stream
  | .reset_start_substream k => p.onStream k fun r => some r.reset_start_substream
  | .reset_next_substream k => p.onStream k fun r => some r.reset_next_substream
  | .set_seed k seed => p.onStream k fun r => r.set_seed seed
  | .set_antithetic k a => p.onStream k fun r => some { r with anti := a }
  | .advance_state k e c => p.onStream k fun r => some (r.advance_state e c)

end RngPackage

end NetworkSimulator
