import Mathlib.Logic.Relation
import Mathlib.Tactic.Common

/-!
# Runs of partial machines

A machine is a step function `σ → ι → Option (σ × ω)`; `none` is a failed assertion, an abort
or an access outside the memory it owns. This file has the run of such a machine over a list of
inputs and the two rules used throughout: an invariant kept by one step is kept by a run, and a
step-by-step simulation of a total specification gives the same outputs along every run that the
specification admits.
-/

namespace NetworkSimulator.Library

variable {σ τ ι ω : Type*}

/-- The last state and the outputs of a run, `none` as soon as one step fails. -/
def run (step : σ → ι → Option (σ × ω)) : σ → List ι → Option (σ × List ω)
  | s, [] => some (s, [])
  | s, i :: is =>
    match step s i with
    | none => none
    | some (s', o) => (run step s' is).map fun r => (r.1, o :: r.2)

@[simp] lemma run_nil (step : σ → ι → Option (σ × ω)) (s : σ) : run step s [] = some (s, []) := rfl

lemma run_cons_of_step {step : σ → ι → Option (σ × ω)} {s s' : σ} {i : ι} {o : ω}
    (h : step s i = some (s', o)) (is : List ι) :
    run step s (i :: is) = (run step s' is).map fun r => (r.1, o :: r.2) := by
  rw [run, h]

lemma run_cons_inv {step : σ → ι → Option (σ × ω)} {s t : σ} {i : ι} {is : List ι} {os : List ω}
    (h : run step s (i :: is) = some (t, os)) :
    ∃ s' o os', step s i = some (s', o) ∧ run step s' is = some (t, os') ∧ os = o :: os' := by
  rw [run] at h
  cases hs : step s i with
  | none => simp [hs] at h
  | some p =>
    obtain ⟨s', o⟩ := p
    simp only [hs, Option.map_eq_some_iff] at h
    obtain ⟨⟨t', os'⟩, hr, he⟩ := h
    simp only [Prod.mk.injEq] at he
    exact ⟨s', o, os', rfl, by rw [hr, he.1], he.2.symm⟩

lemma run_append_of_run {step : σ → ι → Option (σ × ω)} {s t : σ} {is : List ι} {os : List ω}
    (h : run step s is = some (t, os)) (js : List ι) :
    run step s (is ++ js) = (run step t js).map fun r => (r.1, os ++ r.2) := by
  induction is generalizing s os with
  | nil =>
    simp only [run_nil, Option.some.injEq, Prod.mk.injEq] at h
    obtain ⟨rfl, rfl⟩ := h
    simp
  | cons i is ih =>
    obtain ⟨s', o, os', h₁, h₂, rfl⟩ := run_cons_inv h
    rw [List.cons_append, run_cons_of_step h₁, ih h₂, Option.map_map]
    rfl

/-- Every input of the run is admitted by the specification in the state it has reached. -/
def AdmissibleRun (ok : τ → ι → Prop) (next : τ → ι → τ) : τ → List ι → Prop
  | _, [] => True
  | t, i :: is => ok t i ∧ AdmissibleRun ok next (next t i) is

/-- Every input of the run meets a condition in the state in which it arrives. -/
def EachStep (step : σ → ι → Option (σ × ω)) (P : σ → ι → Prop) : σ → List ι → Prop
  | _, [] => True
  | s, i :: is => P s i ∧ ∀ s' o, step s i = some (s', o) → EachStep step P s' is

lemma EachStep.cons {step : σ → ι → Option (σ × ω)} {P : σ → ι → Prop} {s s' : σ} {i : ι} {o : ω} {is : List ι}
    (hP : P s i) (hstep : step s i = some (s', o)) (h : EachStep step P s' is) : EachStep step P s (i :: is) := by
  refine ⟨hP, fun t q ht => ?_⟩
  obtain ⟨rfl, rfl⟩ := Prod.mk.inj (Option.some.inj (hstep.symm.trans ht))
  exact h

/-- The machine that stops at an input that does not meet a condition. -/
def guarded (step : σ → ι → Option (σ × ω)) (P : σ → ι → Prop) [∀ s i, Decidable (P s i)] (s : σ) (i : ι) :
    Option (σ × ω) :=
  if P s i then step s i else none

/-- The machine together with what an observer notes of its outputs. -/
def observing (step : σ → ι → Option (σ × ω)) (note : τ → ω → τ) (s : σ × τ) (i : ι) : Option ((σ × τ) × ω) :=
  (step s.1 i).map fun r => ((r.1, note s.2 r.2), r.2)

/-- What a total specification answers along a list of inputs. -/
def outputs (next : τ → ι → τ) (out : τ → ι → ω) : τ → List ι → List ω
  | _, [] => []
  | t, i :: is => out t i :: outputs next out (next t i) is

/-- Refinement rule: a machine whose steps keep a relation to a specification state never fails on
an admissible run and ends in a state related to where the specification ends. -/
theorem run_refines {step : σ → ι → Option (σ × ω)} {ok : τ → ι → Prop} {next : τ → ι → τ}
    {R : σ → τ → Prop}
    (hstep : ∀ s t i, R s t → ok t i → ∃ s' o, step s i = some (s', o) ∧ R s' (next t i))
    {s : σ} {t : τ} (is : List ι) (hR : R s t) (hok : AdmissibleRun ok next t is) :
    ∃ s' os, run step s is = some (s', os) ∧ R s' (is.foldl next t) := by
  induction is generalizing s t with
  | nil => exact ⟨s, [], rfl, hR⟩
  | cons i is ih =>
    obtain ⟨s₁, o, h₁, hR₁⟩ := hstep s t i hR hok.1
    obtain ⟨s₂, os, h₂, hR₂⟩ := ih hR₁ hok.2
    exact ⟨s₂, o :: os, by rw [run_cons_of_step h₁, h₂]; rfl, hR₂⟩

/-- The same with a further condition on the state of the machine itself. -/
theorem run_of_each {step : σ → ι → Option (σ × ω)} {P : σ → ι → Prop} {ok : τ → ι → Prop}
    {next : τ → ι → τ} {R : σ → τ → Prop}
    (hstep : ∀ s t i, R s t → ok t i → P s i → ∃ s' o, step s i = some (s', o) ∧ R s' (next t i))
    {s : σ} {t : τ} {is : List ι} (hR : R s t) (hok : AdmissibleRun ok next t is)
    (hP : EachStep step P s is) :
    ∃ s' os, run step s is = some (s', os) ∧ R s' (is.foldl next t) := by
  induction is generalizing s t with
  | nil => exact ⟨s, [], rfl, hR⟩
  | cons i is ih =>
    obtain ⟨s₁, o, h₁, hR₁⟩ := hstep s t i hR hok.1 hP.1
    obtain ⟨s₂, os, h₂, hR₂⟩ := ih hR₁ hok.2 (hP.2 s₁ o h₁)
    exact ⟨s₂, o :: os, by rw [run_cons_of_step h₁, h₂]; rfl, hR₂⟩

/-- The rule for a relation between the state and the inputs so far. -/
theorem run_history {step : σ → ι → Option (σ × ω)} {P : σ → ι → Prop} {R : σ → List ι → Prop}
    (hstep : ∀ s js i, R s js → P s i → ∃ s' o, step s i = some (s', o) ∧ R s' (js ++ [i]))
    {s : σ} {is : List ι} (hR : R s []) (hP : EachStep step P s is) :
    ∃ s' os, run step s is = some (s', os) ∧ R s' is := by
  suffices hgen : ∀ js, R s js → ∃ s' os, run step s is = some (s', os) ∧ R s' (js ++ is) from
    hgen [] hR
  clear hR
  induction is generalizing s with
  | nil => exact fun js hR => ⟨s, [], rfl, by simpa using hR⟩
  | cons i is ih =>
    intro js hR
    obtain ⟨s₁, o, h₁, hR₁⟩ := hstep s js i hR hP.1
    obtain ⟨s₂, os, h₂, hR₂⟩ := ih (hP.2 s₁ o h₁) (js ++ [i]) hR₁
    exact ⟨s₂, o :: os, by rw [run_cons_of_step h₁, h₂]; rfl, by simpa using hR₂⟩

/-- The rule for a relation between the state and the concatenated outputs so far. -/
theorem run_trace {step : σ → ι → Option (σ × List ω)} {P : σ → ι → Prop} {R : σ → List ω → Prop}
    (hstep : ∀ s tr i, R s tr → P s i → ∃ s' o, step s i = some (s', o) ∧ R s' (tr ++ o))
    {s : σ} {tr : List ω} {is : List ι} (hR : R s tr) (hP : EachStep step P s is) :
    ∃ s' os, run step s is = some (s', os) ∧ R s' (tr ++ os.flatten) := by
  induction is generalizing s tr with
  | nil => exact ⟨s, [], rfl, by simpa using hR⟩
  | cons i is ih =>
    obtain ⟨s₁, o, h₁, hR₁⟩ := hstep s tr i hR hP.1
    obtain ⟨s₂, os, h₂, hR₂⟩ := ih hR₁ (hP.2 s₁ o h₁)
    exact ⟨s₂, o :: os, by rw [run_cons_of_step h₁, h₂]; rfl, by simpa using hR₂⟩

/-- The rule for a relation between the state, the inputs and the concatenated outputs so far. -/
theorem run_account {step : σ → ι → Option (σ × List ω)} {P : σ → ι → Prop} {R : σ → List ι → List ω → Prop}
    (hstep : ∀ s js tr i, R s js tr → P s i → ∃ s' o, step s i = some (s', o) ∧ R s' (js ++ [i]) (tr ++ o))
    {s : σ} {is : List ι} (hR : R s [] []) (hP : EachStep step P s is) :
    ∃ s' os, run step s is = some (s', os) ∧ R s' is os.flatten := by
  suffices hgen : ∀ js tr, R s js tr → ∃ s' os, run step s is = some (s', os) ∧ R s' (js ++ is) (tr ++ os.flatten) by
    simpa using hgen [] [] hR
  clear hR
  induction is generalizing s with
  | nil => exact fun js tr hR => ⟨s, [], rfl, by simpa using hR⟩
  | cons i is ih =>
    intro js tr hR
    obtain ⟨s₁, o, h₁, hR₁⟩ := hstep s js tr i hR hP.1
    obtain ⟨s₂, os, h₂, hR₂⟩ := ih (hP.2 s₁ o h₁) (js ++ [i]) (tr ++ o) hR₁
    exact ⟨s₂, o :: os, by rw [run_cons_of_step h₁, h₂]; rfl, by simpa using hR₂⟩

lemma EachStep.left {step : σ → ι → Option (σ × ω)} {P : σ → ι → Prop} {s : σ} {is js : List ι}
    (h : EachStep step P s (is ++ js)) : EachStep step P s is := by
  induction is generalizing s with
  | nil => trivial
  | cons i is ih => exact ⟨h.1, fun s' o hs => ih (h.2 s' o hs)⟩

lemma EachStep.right {step : σ → ι → Option (σ × ω)} {P : σ → ι → Prop} {s t : σ}
    {is js : List ι} {os : List ω} (h : EachStep step P s (is ++ js))
    (hrun : run step s is = some (t, os)) : EachStep step P t js := by
  induction is generalizing s os with
  | nil =>
    simp only [run_nil, Option.some.injEq, Prod.mk.injEq] at hrun
    exact hrun.1 ▸ h
  | cons i is ih =>
    obtain ⟨s', o, os', h₁, h₂, -⟩ := run_cons_inv hrun
    exact ih (h.2 s' o h₁) h₂

lemma EachStep.append {step : σ → ι → Option (σ × ω)} {P : σ → ι → Prop} {s : σ} {is js : List ι}
    (h : EachStep step P s is) (hjs : ∀ t os, run step s is = some (t, os) → EachStep step P t js) :
    EachStep step P s (is ++ js) := by
  induction is generalizing s with
  | nil => exact hjs s [] rfl
  | cons i is ih =>
    refine ⟨h.1, fun s' o hs => ih (h.2 s' o hs) fun t os ht => hjs t (o :: os) ?_⟩
    rw [run_cons_of_step hs, ht]
    rfl

/-- A condition on the inputs alone. -/
lemma EachStep.of_mem {step : σ → ι → Option (σ × ω)} {Q : ι → Prop} {s : σ} {is : List ι}
    (hQ : ∀ i ∈ is, Q i) : EachStep step (fun _ i => Q i) s is := by
  induction is generalizing s with
  | nil => trivial
  | cons i is ih =>
    exact ⟨hQ i List.mem_cons_self, fun s' o _ => ih fun j hj => hQ j (List.mem_cons_of_mem i hj)⟩

/-- A condition on the inputs alone holds at each step. -/
lemma EachStep.and_mem {step : σ → ι → Option (σ × ω)} {P : σ → ι → Prop} {Q : ι → Prop} {s : σ}
    {is : List ι} (h : EachStep step P s is) (hQ : ∀ i ∈ is, Q i) :
    EachStep step (fun s i => P s i ∧ Q i) s is := by
  induction is generalizing s with
  | nil => trivial
  | cons i is ih =>
    exact ⟨⟨h.1, hQ i List.mem_cons_self⟩,
      fun s' o hs => ih (h.2 s' o hs) fun j hj => hQ j (List.mem_cons_of_mem i hj)⟩

lemma EachStep.mono {step : σ → ι → Option (σ × ω)} {P Q : σ → ι → Prop} {s : σ} {is : List ι}
    (h : EachStep step P s is) (hPQ : ∀ s i, P s i → Q s i) : EachStep step Q s is := by
  induction is generalizing s with
  | nil => trivial
  | cons i is ih => exact ⟨hPQ s i h.1, fun s' o hs => ih (h.2 s' o hs)⟩

/-- Two conditions at each step. -/
lemma EachStep.and {step : σ → ι → Option (σ × ω)} {P Q : σ → ι → Prop} {s : σ} {is : List ι}
    (h : EachStep step P s is) (h' : EachStep step Q s is) : EachStep step (fun s i => P s i ∧ Q s i) s is := by
  induction is generalizing s with
  | nil => trivial
  | cons i is ih => exact ⟨⟨h.1, h'.1⟩, fun s' o hs => ih (h.2 s' o hs) (h'.2 s' o hs)⟩

/-- A run that is not stopped is a run of the machine on inputs that meet the condition. -/
lemma run_guarded {step : σ → ι → Option (σ × ω)} {P : σ → ι → Prop} [∀ s i, Decidable (P s i)] {s t : σ}
    {is : List ι} {os : List ω} (h : run (guarded step P) s is = some (t, os)) :
    EachStep step P s is ∧ run step s is = some (t, os) := by
  induction is generalizing s os with
  | nil => exact ⟨trivial, h⟩
  | cons i is ih =>
    obtain ⟨s', o, os', h₁, h₂, rfl⟩ := run_cons_inv h
    obtain ⟨hP, hrun⟩ := ih h₂
    have hi : P s i := by
      by_contra hP
      rw [guarded, if_neg hP] at h₁
      cases h₁
    rw [guarded, if_pos hi] at h₁
    refine ⟨⟨hi, fun s'' o' hs => ?_⟩, ?_⟩
    · obtain ⟨rfl, -⟩ := Prod.mk.inj (Option.some.inj (h₁.symm.trans hs))
      exact hP
    · rw [run_cons_of_step h₁, hrun]
      rfl

/-- The same with a property of where the run ends. -/
lemma run_guarded_of {step : σ → ι → Option (σ × ω)} {P : σ → ι → Prop} [∀ s i, Decidable (P s i)] {s : σ}
    {is : List ι} (Q : σ → List ω → Prop) [∀ t os, Decidable (Q t os)]
    (h : ((run (guarded step P) s is).map fun r => decide (Q r.1 r.2)) = some true) :
    ∃ t os, EachStep step P s is ∧ run step s is = some (t, os) ∧ Q t os := by
  obtain ⟨⟨t, os⟩, hrun, hQ⟩ := Option.map_eq_some_iff.mp h
  obtain ⟨hP, hrun⟩ := run_guarded hrun
  exact ⟨t, os, hP, hrun, of_decide_eq_true hQ⟩

/-- Simulation rule: a machine whose steps follow a specification never fails on an admissible
run and answers what the specification answers. -/
theorem run_simulates {step : σ → ι → Option (σ × ω)} {ok : τ → ι → Prop} {next : τ → ι → τ}
    {out : τ → ι → ω} {R : σ → τ → Prop}
    (hstep : ∀ s t i, R s t → ok t i → ∃ s', step s i = some (s', out t i) ∧ R s' (next t i))
    {s : σ} {t : τ} (is : List ι) (hR : R s t) (hok : AdmissibleRun ok next t is) :
    ∃ s', run step s is = some (s', outputs next out t is) ∧ R s' (is.foldl next t) := by
  induction is generalizing s t with
  | nil => exact ⟨s, rfl, hR⟩
  | cons i is ih =>
    obtain ⟨s₁, h₁, hR₁⟩ := hstep s t i hR hok.1
    obtain ⟨s₂, h₂, hR₂⟩ := ih hR₁ hok.2
    exact ⟨s₂, by rw [run_cons_of_step h₁, h₂]; rfl, hR₂⟩

/-- Invariant rule for the states a run passes through. -/
theorem run_invariant {step : σ → ι → Option (σ × ω)} {Inv : σ → Prop}
    (hstep : ∀ s i s' o, Inv s → step s i = some (s', o) → Inv s')
    {s t : σ} {is : List ι} {os : List ω} (hs : Inv s) (h : run step s is = some (t, os)) :
    Inv t := by
  induction is generalizing s os with
  | nil => simp only [run_nil, Option.some.injEq, Prod.mk.injEq] at h; exact h.1 ▸ hs
  | cons i is ih =>
    obtain ⟨s', o, os', h₁, h₂, -⟩ := run_cons_inv h
    exact ih (hstep s i s' o hs h₁) h₂

/-- The same for an invariant that is kept by the steps that meet a condition. -/
theorem EachStep.invariant {step : σ → ι → Option (σ × ω)} {P : σ → ι → Prop} {Inv : σ → Prop}
    (hstep : ∀ s i s' o, Inv s → P s i → step s i = some (s', o) → Inv s')
    {s t : σ} {is : List ι} {os : List ω} (hP : EachStep step P s is) (hs : Inv s)
    (h : run step s is = some (t, os)) : Inv t := by
  induction is generalizing s os with
  | nil => simp only [run_nil, Option.some.injEq, Prod.mk.injEq] at h; exact h.1 ▸ hs
  | cons i is ih =>
    obtain ⟨s', o, os', h₁, h₂, -⟩ := run_cons_inv h
    exact ih (hP.2 s' o h₁) (hstep s i s' o hs hP.1 h₁) h₂

/-- What a condition gives in the states that can be reached holds at each step. -/
theorem EachStep.gives {step : σ → ι → Option (σ × ω)} {P Q : σ → ι → Prop} {Inv : σ → Prop}
    (hstep : ∀ s i s' o, Inv s → P s i → step s i = some (s', o) → Inv s')
    (hQ : ∀ s i, Inv s → P s i → Q s i) {s : σ} {is : List ι} (hP : EachStep step P s is) (hs : Inv s) :
    EachStep step Q s is := by
  induction is generalizing s with
  | nil => trivial
  | cons i is ih => exact ⟨hQ s i hs hP.1, fun s' o h => ih (hP.2 s' o h) (hstep s i s' o hs hP.1 h)⟩

/-- Two conditions that agree under an invariant hold of the same runs, when the steps that meet them keep it. -/
theorem EachStep.iff {step : σ → ι → Option (σ × ω)} {P Q : σ → ι → Prop} {Inv : σ → Prop}
    (hPQ : ∀ s i, Inv s → (P s i ↔ Q s i))
    (hstep : ∀ s i s' o, Inv s → P s i → step s i = some (s', o) → Inv s') {s : σ} {is : List ι} (hs : Inv s) :
    EachStep step P s is ↔ EachStep step Q s is := by
  constructor
  · exact fun h => h.gives hstep (fun s i hs => (hPQ s i hs).mp) hs
  · exact fun h => h.gives (fun s i s' o hs hQ => hstep s i s' o hs ((hPQ s i hs).mpr hQ))
      (fun s i hs => (hPQ s i hs).mpr) hs

/-- The same for a relation to what a specification makes of the inputs and the outputs. -/
theorem EachStep.follows {step : σ → ι → Option (σ × ω)} {P : σ → ι → Prop} {R : σ → τ → Prop}
    {next : τ → ι → ω → τ}
    (hstep : ∀ s t i s' o, R s t → P s i → step s i = some (s', o) → R s' (next t i o))
    {s s' : σ} {t : τ} {is : List ι} {os : List ω} (hP : EachStep step P s is) (hR : R s t)
    (h : run step s is = some (s', os)) :
    R s' ((is.zip os).foldl (fun t x => next t x.1 x.2) t) := by
  induction is generalizing s t os with
  | nil =>
    simp only [run_nil, Option.some.injEq, Prod.mk.injEq] at h
    obtain ⟨rfl, rfl⟩ := h
    exact hR
  | cons i is ih =>
    obtain ⟨s₁, o, os', h₁, h₂, rfl⟩ := run_cons_inv h
    exact ih (hP.2 s₁ o h₁) (hstep s t i s₁ o hR hP.1 h₁) h₂

/-- Two conditions that agree in the states that can be reached hold of the same runs. -/
theorem EachStep.congr {step : σ → ι → Option (σ × ω)} {P Q : σ → ι → Prop} {Inv : σ → Prop}
    (hstep : ∀ s i s' o, Inv s → step s i = some (s', o) → Inv s' ∧ (P s i ↔ Q s i))
    {s t : σ} {is : List ι} {os : List ω} (hs : Inv s) (h : run step s is = some (t, os)) :
    EachStep step P s is ↔ EachStep step Q s is := by
  induction is generalizing s os with
  | nil => exact Iff.rfl
  | cons i is ih =>
    obtain ⟨s', o, os', h₁, h₂, -⟩ := run_cons_inv h
    obtain ⟨hs', hPQ⟩ := hstep s i s' o hs h₁
    have hrest : (∀ r q, step s i = some (r, q) → EachStep step P r is) ↔
        ∀ r q, step s i = some (r, q) → EachStep step Q r is := by
      simp only [h₁, Option.some.injEq, Prod.mk.injEq, and_imp, forall_eq', forall_apply_eq_imp_iff]
      exact ih hs' h₂
    exact and_congr hPQ hrest

/-- Two machines whose steps agree, on failure too, run alike. -/
theorem run_rel {step : σ → ι → Option (σ × ω)} {step' : τ → ι → Option (τ × ω)} {R : σ → τ → Prop}
    (hstep : ∀ s t i, R s t → Option.Rel (fun p q => R p.1 q.1 ∧ p.2 = q.2) (step s i) (step' t i))
    {s : σ} {t : τ} (is : List ι) (hR : R s t) :
    Option.Rel (fun p q => R p.1 q.1 ∧ p.2 = q.2) (run step s is) (run step' t is) := by
  induction is generalizing s t with
  | nil => exact .some ⟨hR, rfl⟩
  | cons i is ih =>
    have h := hstep s t i hR
    rw [run, run]
    generalize step s i = a at h
    generalize step' t i = b at h
    cases h with
    | none => exact .none
    | @some p q hpq =>
      have hrest := ih hpq.1
      dsimp only
      generalize run step p.1 is = c at hrest
      generalize run step' q.1 is = d at hrest
      cases hrest with
      | none => exact .none
      | some hcd => exact .some ⟨hcd.1, congrArg₂ List.cons hpq.2 hcd.2⟩

end NetworkSimulator.Library
