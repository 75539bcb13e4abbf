import NetworkSimulator.Library.Runs
import Mathlib.Logic.Function.Basic

/-!
# Nodes that exchange messages

Nodes with a state of their own take local actions and receive messages, in any order; each handler may send
messages, and a message may be lost. An invariant of such a system has a part about the states of the nodes
and a part about each message in flight, which no step of another node may spoil.
-/

namespace NetworkSimulator.Library
variable {N S M E X : Type*}

structure Network (N S M : Type*) where
  node : N → S
  /-- The messages in flight with the nodes they are for. -/
  flight : List (N × M)

inductive NetworkEvent (N E X : Type*)
  | act (n : N) (e : E)
  /-- The message in position `k` arrives; `x` is what the outside adds to it. -/
  | deliver (k : ℕ) (x : X)
  | lose (k : ℕ)

/-- What a node does, `none` when it fails. -/
structure Handlers (N S M E X : Type*) where
  act : N → S → E → Option (S × List (N × M))
  receive : N → S → M → X → Option (S × List (N × M))

namespace Network
variable [DecidableEq N] {h : Handlers N S M E X} {w w' : Network N S M} {ev : NetworkEvent N E X}

def step (h : Handlers N S M E X) (w : Network N S M) : NetworkEvent N E X → Option (Network N S M × Unit)
  | .act n e =>
    (h.act n (w.node n) e).map fun r => (⟨Function.update w.node n r.1, w.flight ++ r.2⟩, ())
  | .deliver k x =>
    w.flight[k]?.bind fun p => (h.receive p.1 (w.node p.1) p.2 x).map fun r =>
      (⟨Function.update w.node p.1 r.1, w.flight.eraseIdx k ++ r.2⟩, ())
  | .lose k => some (⟨w.node, w.flight.eraseIdx k⟩, ())

/-- `I` holds of the nodes, and `Q` of every message in flight. -/
structure Holds (I : (N → S) → Prop) (Q : (N → S) → N → M → Prop) (w : Network N S M) : Prop where
  nodes : I w.node
  flight : ∀ p ∈ w.flight, Q w.node p.1 p.2

/-- A handler at `n` keeps `I`, spoils no message and sends only messages that are in order. -/
structure Keeps (I : (N → S) → Prop) (Q : (N → S) → N → M → Prop) (σ : N → S) (n : N) (s : S)
    (out : List (N × M)) : Prop where
  nodes : I (Function.update σ n s)
  stable : ∀ a m, Q σ a m → Q (Function.update σ n s) a m
  sent : ∀ p ∈ out, Q (Function.update σ n s) p.1 p.2

lemma Keeps.holds {I : (N → S) → Prop} {Q : (N → S) → N → M → Prop} {n : N} {s : S}
    {out flight : List (N × M)} (hk : Keeps I Q w.node n s out) (hw : Holds I Q w)
    (hsub : ∀ p ∈ flight, p ∈ w.flight) : Holds I Q ⟨Function.update w.node n s, flight ++ out⟩ := by
  refine ⟨hk.nodes, fun p hp => ?_⟩
  rcases List.mem_append.mp hp with hp | hp
  · exact hk.stable _ _ (hw.flight p (hsub p hp))
  · exact hk.sent p hp

/-- The invariant rule: one obligation for the actions, one for the messages. -/
theorem Holds.step {I : (N → S) → Prop} {Q : (N → S) → N → M → Prop}
    {P : Network N S M → NetworkEvent N E X → Prop}
    (hact : ∀ w n e s out, Holds I Q w → P w (.act n e) → h.act n (w.node n) e = some (s, out) →
      Keeps I Q w.node n s out)
    (hreceive : ∀ w n m k x s out, Holds I Q w → P w (.deliver k x) → w.flight[k]? = some (n, m) →
      h.receive n (w.node n) m x = some (s, out) → Keeps I Q w.node n s out)
    {o : Unit} (hw : Holds I Q w) (hP : P w ev) (hstep : Network.step h w ev = some (w', o)) :
    Holds I Q w' := by
  cases ev with
  | act n e =>
    obtain ⟨⟨s, out⟩, hs, hw'⟩ := Option.map_eq_some_iff.mp hstep
    obtain ⟨rfl, -⟩ := Prod.mk.inj hw'
    exact (hact w n e s out hw hP hs).holds hw fun p hp => hp
  | deliver k x =>
    obtain ⟨⟨n, m⟩, hk, hrest⟩ := Option.bind_eq_some_iff.mp hstep
    obtain ⟨⟨s, out⟩, hs, hw'⟩ := Option.map_eq_some_iff.mp hrest
    obtain ⟨rfl, -⟩ := Prod.mk.inj hw'
    exact (hreceive w n m k x s out hw hP hk hs).holds hw fun p hp => List.mem_of_mem_eraseIdx hp
  | lose k =>
    obtain ⟨rfl, -⟩ := Prod.mk.inj (Option.some.inj hstep)
    exact ⟨hw.nodes, fun p hp => hw.flight p (List.mem_of_mem_eraseIdx hp)⟩

/-- The same for a run whose steps all meet a condition. -/
theorem Holds.run {I : (N → S) → Prop} {Q : (N → S) → N → M → Prop}
    {P : Network N S M → NetworkEvent N E X → Prop}
    (hact : ∀ w n e s out, Holds I Q w → P w (.act n e) → h.act n (w.node n) e = some (s, out) →
      Keeps I Q w.node n s out)
    (hreceive : ∀ w n m k x s out, Holds I Q w → P w (.deliver k x) → w.flight[k]? = some (n, m) →
      h.receive n (w.node n) m x = some (s, out) → Keeps I Q w.node n s out)
    {evs : List (NetworkEvent N E X)} {os : List Unit} (hw : Holds I Q w)
    (hP : EachStep (Network.step h) P w evs)
    (hrun : Library.run (Network.step h) w evs = some (w', os)) : Holds I Q w' :=
  hP.invariant (fun _ _ _ _ hs hPs hstep => hs.step hact hreceive hPs hstep) hw hrun

end Network

end NetworkSimulator.Library
