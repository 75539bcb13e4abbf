import NetworkSimulator.Library.Runs
import Mathlib.Logic.Function.Basic

/-!
# Nodes on a shared medium

Nodes with a state of their own take local actions and hear messages that have been sent. Whoever is
in reach may hear a message, at any time after it has been sent and any number of times, until it is
lost. An invariant of such a system has a part about the nodes and a part about each message, which
no step may spoil.
-/

namespace NetworkSimulator.Library
variable {N S M E X : Type*}

structure Medium (N S M : Type*) where
  node : N → S
  /-- The messages that have been sent and not been lost. -/
  air : List M

inductive MediumEvent (N E X : Type*)
  | act (n : N) (e : E)
  /-- The message in position `k` is heard by `n`; `x` is what the outside adds to it. -/
  | deliver (k : ℕ) (n : N) (x : X)
  | lose (k : ℕ)

/-- What a node does, `none` when it fails. -/
structure Agents (N S M E X : Type*) where
  act : N → S → E → Option (S × List M)
  receive : N → S → M → X → Option (S × List M)

namespace Medium
variable [DecidableEq N] {a : Agents N S M E X} {w w' : Medium N S M} {ev : MediumEvent N E X}

def step (a : Agents N S M E X) (w : Medium N S M) : MediumEvent N E X → Option (Medium N S M × Unit)
  | .act n e =>
    (a.act n (w.node n) e).map fun r => (⟨Function.update w.node n r.1, w.air ++ r.2⟩, ())
  | .deliver k n x =>
    w.air[k]?.bind fun m => (a.receive n (w.node n) m x).map fun r =>
      (⟨Function.update w.node n r.1, w.air ++ r.2⟩, ())
  | .lose k => some (⟨w.node, w.air.eraseIdx k⟩, ())

/-- `I` holds of the nodes, and `Q` of every message on the air. -/
structure Holds (I : (N → S) → Prop) (Q : (N → S) → M → Prop) (w : Medium N S M) : Prop where
  nodes : I w.node
  air : ∀ m ∈ w.air, Q w.node m

/-- A handler at `n` keeps `I`, spoils no message and sends only messages that are in order. -/
structure Keeps (I : (N → S) → Prop) (Q : (N → S) → M → Prop) (σ : N → S) (n : N) (s : S)
    (out : List M) : Prop where
  nodes : I (Function.update σ n s)
  stable : ∀ m, Q σ m → Q (Function.update σ n s) m
  sent : ∀ m ∈ out, Q (Function.update σ n s) m

lemma Keeps.holds {I : (N → S) → Prop} {Q : (N → S) → M → Prop} {n : N} {s : S} {out : List M}
    (hk : Keeps I Q w.node n s out) (hw : Holds I Q w) :
    Holds I Q ⟨Function.update w.node n s, w.air ++ out⟩ := by
  constructor
  · exact hk.nodes
  · intro m hm
    rcases List.mem_append.mp hm with hm | hm
    · exact hk.stable m (hw.air m hm)
    · exact hk.sent m hm

/-- A node that keeps its state spoils nothing. -/
lemma Keeps.same {I : (N → S) → Prop} {Q : (N → S) → M → Prop} {σ : N → S} {n : N} {s : S}
    {out : List M} (hI : I σ) (hs : s = σ n) (hout : ∀ m ∈ out, Q σ m) : Keeps I Q σ n s out := by
  subst hs
  constructor
  · rwa [Function.update_eq_self]
  · intro m hm
    rwa [Function.update_eq_self]
  · intro m hm
    rw [Function.update_eq_self]
    exact hout m hm

/-- The invariant rule: one obligation for the actions, one for the messages. -/
theorem Holds.step {I : (N → S) → Prop} {Q : (N → S) → M → Prop}
    {P : Medium N S M → MediumEvent N E X → Prop}
    (hact : ∀ w n e s out, Holds I Q w → P w (.act n e) → a.act n (w.node n) e = some (s, out) →
      Keeps I Q w.node n s out)
    (hreceive : ∀ w n m k x s out, Holds I Q w → P w (.deliver k n x) → w.air[k]? = some m →
      a.receive n (w.node n) m x = some (s, out) → Keeps I Q w.node n s out)
    {o : Unit} (hw : Holds I Q w) (hP : P w ev) (hstep : Medium.step a w ev = some (w', o)) :
    Holds I Q w' := by
  cases ev with
  | act n e =>
    obtain ⟨⟨s, out⟩, hs, hw'⟩ := Option.map_eq_some_iff.mp hstep
    obtain ⟨rfl, -⟩ := Prod.mk.inj hw'
    exact (hact w n e s out hw hP hs).holds hw
  | deliver k n x =>
    obtain ⟨m, hk, hrest⟩ := Option.bind_eq_some_iff.mp hstep
    obtain ⟨⟨s, out⟩, hs, hw'⟩ := Option.map_eq_some_iff.mp hrest
    obtain ⟨rfl, -⟩ := Prod.mk.inj hw'
    exact (hreceive w n m k x s out hw hP hk hs).holds hw
  | lose k =>
    obtain ⟨rfl, -⟩ := Prod.mk.inj (Option.some.inj hstep)
    exact ⟨hw.nodes, fun m hm => hw.air m (List.mem_of_mem_eraseIdx hm)⟩

end Medium
end NetworkSimulator.Library
