import NetworkSimulator.Library.Loops
import NetworkSimulator.LinkState.ComputeRoutes

/-!
# The loop of the route computation

`computeRoutes` with a bound on its passes cannot tell a loop without end from an abort. Here its loop is a
machine that goes on from state to state.
-/

namespace NetworkSimulator
open Library

namespace LsRouting

/-- Where `_computeRoutes` is: at the links of a new node, before a pop, or at its end. -/
inductive Loop
  | expand (paths tentative : LsPaths) (newNodeId : ℤ) (lsl : List LsLinkState)
  | pop (paths tentative : LsPaths)
  | returned (paths : LsPaths)
  | aborted

namespace Loop

def step (db : LsTopoMap) (myNodeId : ℤ) : Loop → Loop
  | .expand paths tentative newNodeId lsl =>
    match if newNodeId = myNodeId then some [] else paths.lookupNextHopList newNodeId with
    | none => .aborted
    | some nhl => .pop paths (lsl.foldl (tryLink myNodeId paths newNodeId nhl) tentative)
  | .pop paths tentative =>
    if tentative.isEmpty then .returned paths
    else
      match tentative.popShortestPath with
      | none => .aborted
      | some (path, tentative) =>
        if !path.isValid then .aborted
        else
          match db.find path.destination with
          | some lsl => .expand (paths.insertPath path) tentative path.destination lsl
          | none => .pop (paths.insertPath path) tentative
  | .returned paths => .returned paths
  | .aborted => .aborted

def start (db : LsTopoMap) (myNodeId : ℤ) : Loop :=
  let paths := LsPaths.insertPathNoChecking SortedMap.empty ⟨myNodeId, 0, myNodeId⟩
  match db.find myNodeId with
  | none => .returned paths
  | some lsl => .expand paths SortedMap.empty myNodeId lsl

/-- `_computeRoutes` has returned, or `ls_error` has been called. -/
def Ended (s : Loop) : Prop :=
  s = .aborted ∨ ∃ paths, s = .returned paths

end Loop

/-- `_computeRoutes` comes to an end. -/
def Ends (db : LsTopoMap) (myNodeId : ℤ) : Prop :=
  ∃ n, ((Loop.step db myNodeId)^[n] (Loop.start db myNodeId)).Ended

variable {db : LsTopoMap} {myNodeId : ℤ} {paths tentative result : LsPaths} {u v c h : ℤ} {n fuel : ℕ}

lemma iterate_step_of_eq {s t : Loop} (hs : Loop.step db myNodeId s = t) :
    (Loop.step db myNodeId)^[n + 1] s = (Loop.step db myNodeId)^[n] t := by
  rw [Function.iterate_succ_apply, hs]

lemma iterate_returned : (Loop.step db myNodeId)^[n] (.returned paths) = .returned paths :=
  Function.iterate_fixed rfl n

lemma iterate_aborted : (Loop.step db myNodeId)^[n] .aborted = .aborted :=
  Function.iterate_fixed rfl n

/-- What a pop comes to. -/
lemma step_pop (db : LsTopoMap) (myNodeId : ℤ) (fuel : ℕ) (paths tentative : LsPaths) :
    (tentative.isEmpty ∧ Loop.step db myNodeId (.pop paths tentative) = .returned paths ∧
      popPaths db (fuel + 1) paths tentative = some (paths, tentative, none)) ∨
    (¬tentative.isEmpty ∧ (∀ r, tentative.popShortestPath = some r → ¬r.1.isValid) ∧
      Loop.step db myNodeId (.pop paths tentative) = .aborted ∧
      popPaths db (fuel + 1) paths tentative = none) ∨
    ∃ path t, tentative.popShortestPath = some (path, t) ∧ path.isValid ∧
      ((∃ lsl, db.find path.destination = some lsl ∧ Loop.step db myNodeId (.pop paths tentative) =
          .expand (paths.insertPath path) t path.destination lsl ∧
        popPaths db (fuel + 1) paths tentative =
          some (paths.insertPath path, t, some (path.destination, lsl))) ∨
      (db.find path.destination = none ∧
        Loop.step db myNodeId (.pop paths tentative) = .pop (paths.insertPath path) t ∧
        popPaths db (fuel + 1) paths tentative = popPaths db fuel (paths.insertPath path) t)) := by
  unfold Loop.step
  dsimp only
  rw [popPaths]
  by_cases hempty : tentative.isEmpty
  · exact Or.inl ⟨hempty, if_pos hempty, if_pos hempty⟩
  · right
    rw [if_neg hempty, if_neg hempty]
    cases hpop : tentative.popShortestPath with
    | none => exact Or.inl ⟨hempty, by simp, rfl, rfl⟩
    | some r =>
      obtain ⟨path, t⟩ := r
      rw [Option.bind_some]
      dsimp only
      by_cases hok : path.isValid
      · rw [if_neg (by simp [hok]), if_neg (by simp [hok])]
        refine Or.inr ⟨path, t, rfl, hok, ?_⟩
        cases hfind : db.find path.destination with
        | none => exact Or.inr ⟨rfl, rfl, rfl⟩
        | some lsl => exact Or.inl ⟨lsl, rfl, rfl, rfl⟩
      · refine Or.inl ⟨hempty, fun r hr => ?_, if_pos (by simp [hok]), if_pos (by simp [hok])⟩
        obtain rfl := Option.some.inj hr
        exact hok

/-- How `expandNodes` goes on after its pops. -/
def resume (db : LsTopoMap) (myNodeId : ℤ) (fuel : ℕ)
    (r : LsPaths × LsPaths × Option (ℤ × List LsLinkState)) : Option LsPaths :=
  match r.2.2 with
  | none => some r.1
  | some (newNodeId, lsl) => expandNodes db myNodeId fuel r.1 r.2.1 newNodeId lsl

lemma step_expand (db : LsTopoMap) (myNodeId : ℤ) (fuel : ℕ) (paths tentative : LsPaths)
    (newNodeId : ℤ) (lsl : List LsLinkState) :
    ((if newNodeId = myNodeId then some [] else paths.lookupNextHopList newNodeId) = none ∧
      Loop.step db myNodeId (.expand paths tentative newNodeId lsl) = .aborted ∧
      expandNodes db myNodeId (fuel + 1) paths tentative newNodeId lsl = none) ∨
    ∃ nhl t, (if newNodeId = myNodeId then some [] else paths.lookupNextHopList newNodeId) = some nhl ∧
      t = lsl.foldl (tryLink myNodeId paths newNodeId nhl) tentative ∧
      Loop.step db myNodeId (.expand paths tentative newNodeId lsl) = .pop paths t ∧
      expandNodes db myNodeId (fuel + 1) paths tentative newNodeId lsl =
        (popPaths db (fuel + 1) paths t).bind (resume db myNodeId fuel) := by
  unfold Loop.step
  dsimp only
  rw [expandNodes]
  cases if newNodeId = myNodeId then some [] else paths.lookupNextHopList newNodeId with
  | none => exact Or.inl ⟨rfl, rfl, rfl⟩
  | some nhl => exact Or.inr ⟨nhl, _, rfl, rfl, rfl, rfl⟩

/-- With as much fuel as steps, the bounded loops find what the machine returns. -/
lemma resume_of_returned (n : ℕ) :
    (∀ paths tentative f g, n ≤ f → n ≤ g →
      (Loop.step db myNodeId)^[n] (.pop paths tentative) = .returned result →
      (popPaths db f paths tentative).bind (resume db myNodeId g) = some result) ∧
    ∀ paths tentative newNodeId lsl g, n ≤ g →
      (Loop.step db myNodeId)^[n] (.expand paths tentative newNodeId lsl) = .returned result →
      expandNodes db myNodeId g paths tentative newNodeId lsl = some result := by
  induction n with
  | zero => exact ⟨fun _ _ _ _ _ _ h => by simp at h, fun _ _ _ _ _ _ h => by simp at h⟩
  | succ n ih =>
    obtain ⟨ihpop, ihexpand⟩ := ih
    refine ⟨fun paths tentative f g hf hg h => ?_, fun paths tentative newNodeId lsl g hg h => ?_⟩
    · obtain ⟨f, rfl⟩ := Nat.exists_eq_add_of_le' (n.zero_lt_succ.trans_le hf)
      rcases step_pop db myNodeId f paths tentative with
        ⟨-, hstep, hpop⟩ | ⟨-, -, hstep, -⟩ | ⟨path, t, -, -, ⟨lsl, -, hstep, hpop⟩ | ⟨-, hstep, hpop⟩⟩
      · rw [iterate_step_of_eq hstep, iterate_returned] at h
        rw [hpop]
        exact congrArg some (Loop.returned.inj h)
      · rw [iterate_step_of_eq hstep, iterate_aborted] at h
        simp at h
      · rw [iterate_step_of_eq hstep] at h
        rw [hpop]
        exact ihexpand _ _ _ _ g (Nat.le_of_succ_le hg) h
      · rw [iterate_step_of_eq hstep] at h
        rw [hpop]
        exact ihpop _ _ f g (Nat.le_of_succ_le_succ hf) (Nat.le_of_succ_le hg) h
    · obtain ⟨g, rfl⟩ := Nat.exists_eq_add_of_le' (n.zero_lt_succ.trans_le hg)
      rcases step_expand db myNodeId g paths tentative newNodeId lsl with
        ⟨-, hstep, -⟩ | ⟨-, t, -, -, hstep, hexpand⟩
      · rw [iterate_step_of_eq hstep, iterate_aborted] at h
        simp at h
      · rw [iterate_step_of_eq hstep] at h
        rw [hexpand]
        exact ihpop _ _ (g + 1) g (Nat.le_of_succ_le hg) (Nat.le_of_succ_le_succ hg) h

/-- The machine does what the bounded pops do. -/
lemma popPaths_run (myNodeId : ℤ) {r : LsPaths × LsPaths × Option (ℤ × List LsLinkState)}
    (h : popPaths db fuel paths tentative = some r) :
    ∃ n, (Loop.step db myNodeId)^[n] (.pop paths tentative) =
      match r.2.2 with
      | none => .returned r.1
      | some (newNodeId, lsl) => .expand r.1 r.2.1 newNodeId lsl := by
  induction fuel generalizing paths tentative with
  | zero => simp [popPaths] at h
  | succ fuel ih =>
    rcases step_pop db myNodeId fuel paths tentative with
      ⟨-, hstep, hpop⟩ | ⟨-, -, -, hpop⟩ | ⟨path, t, -, -, ⟨lsl, -, hstep, hpop⟩ | ⟨-, hstep, hpop⟩⟩
    · obtain rfl := Option.some.inj (hpop.symm.trans h)
      exact ⟨1, hstep⟩
    · simp [hpop] at h
    · obtain rfl := Option.some.inj (hpop.symm.trans h)
      exact ⟨1, hstep⟩
    · obtain ⟨n, hn⟩ := ih (hpop.symm.trans h)
      exact ⟨n + 1, (iterate_step_of_eq hstep).trans hn⟩

lemma expandNodes_run {newNodeId : ℤ} {lsl : List LsLinkState}
    (h : expandNodes db myNodeId fuel paths tentative newNodeId lsl = some result) :
    ∃ n, (Loop.step db myNodeId)^[n] (.expand paths tentative newNodeId lsl) = .returned result := by
  induction fuel generalizing paths tentative newNodeId lsl with
  | zero => simp [expandNodes] at h
  | succ fuel ih =>
    rcases step_expand db myNodeId fuel paths tentative newNodeId lsl with
      ⟨-, -, hexpand⟩ | ⟨-, t, -, -, hstep, hexpand⟩
    · simp [hexpand] at h
    · obtain ⟨⟨paths', t', next⟩, hpop, hresume⟩ := Option.bind_eq_some_iff.mp (hexpand.symm.trans h)
      obtain ⟨n, hn⟩ := popPaths_run myNodeId hpop
      cases next with
      | none =>
        obtain rfl := Option.some.inj hresume
        exact ⟨n + 1, (iterate_step_of_eq hstep).trans hn⟩
      | some next =>
        obtain ⟨m, hm⟩ := ih hresume
        refine ⟨m + (n + 1), ?_⟩
        rw [Function.iterate_add_apply, iterate_step_of_eq hstep, hn]
        exact hm

/-- With enough fuel the bounded computation returns what the machine returns. -/
theorem computeRoutes_eq_some_iff : (∃ fuel, computeRoutes db myNodeId fuel = some result) ↔
    ∃ n, (Loop.step db myNodeId)^[n] (Loop.start db myNodeId) = .returned result := by
  unfold computeRoutes Loop.start
  dsimp only
  cases db.find myNodeId with
  | none =>
    refine ⟨fun ⟨_, h⟩ => ⟨0, congrArg Loop.returned (Option.some.inj h)⟩, fun ⟨n, h⟩ => ⟨0, ?_⟩⟩
    dsimp only at h
    rw [iterate_returned] at h
    exact congrArg some (Loop.returned.inj h)
  | some lsl =>
    exact ⟨fun ⟨_, h⟩ => expandNodes_run h, fun ⟨n, h⟩ => ⟨n, (resume_of_returned n).2 _ _ _ _ n le_rfl h⟩⟩

end LsRouting

end NetworkSimulator
