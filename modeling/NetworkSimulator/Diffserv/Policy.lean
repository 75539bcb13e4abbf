import Mathlib.Algebra.Order.Field.Rat
import Mathlib.Tactic.Positivity
import NetworkSimulator.Library.Runs
import NetworkSimulator.Library.TokenBucket

/-!
# Meters and markers of a diffserv edge

`PolicyClassifier` with its null, token bucket, single rate and two rate policies. A packet gets the code point of its
policer for one of three colours. Each meter is described by the packets that it has marked: green packets conform to
the committed rate, and the others that are not red to what the excess or the peak bucket allows. Rates are in bytes per
second, sizes in bytes.
-/

namespace NetworkSimulator
open Library

inductive PolicyIndex
  | Null
  | TB
  | SRTCM
  | TRTCM
  deriving DecidableEq

structure PolicyTableEntry where
  sourceNode : ℤ
  destNode : ℤ
  policy_index : PolicyIndex
  codePt : ℤ
  cir : ℚ
  cbs : ℚ
  cBucket : ℚ
  ebs : ℚ
  eBucket : ℚ
  pir : ℚ
  pbs : ℚ
  pBucket : ℚ
  arrivalTime : ℚ

structure PolicerTableEntry where
  policy_index : PolicyIndex
  initialCodePt : ℤ
  downgrade1 : ℤ
  downgrade2 : ℤ

/-- The arguments of `addPolicyEntry` after the code point, rates in bits per second. -/
inductive PolicyArgs
  | Null
  | TokenBucket (cir cbs : ℚ)
  | srTCM (cir cbs ebs : ℚ)
  | trTCM (cir cbs pir pbs : ℚ)

/-! ### The policies -/

/-- A bucket is filled up to its depth. -/
def fillBucket (bucket depth tokenBytes : ℚ) : ℚ := if bucket + tokenBytes ≤ depth then bucket + tokenBytes else depth

def NullPolicy.applyMeter (now : ℚ) (policy : PolicyTableEntry) : PolicyTableEntry := { policy with arrivalTime := now }

def NullPolicy.applyPolicer (policer : PolicerTableEntry) (_size : ℤ) (policy : PolicyTableEntry) :
    PolicyTableEntry × ℤ := (policy, policer.initialCodePt)

def TBPolicy.applyMeter (now : ℚ) (policy : PolicyTableEntry) : PolicyTableEntry :=
  { policy with
    cBucket := fillBucket policy.cBucket policy.cbs (policy.cir * (now - policy.arrivalTime))
    arrivalTime := now }

def TBPolicy.applyPolicer (policer : PolicerTableEntry) (size : ℤ) (policy : PolicyTableEntry) : PolicyTableEntry × ℤ :=
  if policy.cBucket - size ≥ 0 then ({ policy with cBucket := policy.cBucket - size }, policer.initialCodePt)
  else (policy, policer.downgrade1)

/-- What the committed bucket cannot hold goes to the excess bucket. -/
def SRTCMPolicy.applyMeter (now : ℚ) (policy : PolicyTableEntry) : PolicyTableEntry :=
  let tokenBytes := policy.cir * (now - policy.arrivalTime)
  if policy.cBucket + tokenBytes ≤ policy.cbs then
    { policy with cBucket := policy.cBucket + tokenBytes, arrivalTime := now }
  else
    { policy with
      cBucket := policy.cbs
      eBucket := fillBucket policy.eBucket policy.ebs (tokenBytes - (policy.cbs - policy.cBucket))
      arrivalTime := now }

def SRTCMPolicy.applyPolicer (policer : PolicerTableEntry) (size : ℤ) (policy : PolicyTableEntry) :
    PolicyTableEntry × ℤ :=
  if policy.cBucket - size ≥ 0 then ({ policy with cBucket := policy.cBucket - size }, policer.initialCodePt)
  else if policy.eBucket - size ≥ 0 then ({ policy with eBucket := policy.eBucket - size }, policer.downgrade1)
  else (policy, policer.downgrade2)

def TRTCMPolicy.applyMeter (now : ℚ) (policy : PolicyTableEntry) : PolicyTableEntry :=
  { policy with
    cBucket := fillBucket policy.cBucket policy.cbs (policy.cir * (now - policy.arrivalTime))
    pBucket := fillBucket policy.pBucket policy.pbs (policy.pir * (now - policy.arrivalTime))
    arrivalTime := now }

def TRTCMPolicy.applyPolicer (policer : PolicerTableEntry) (size : ℤ) (policy : PolicyTableEntry) :
    PolicyTableEntry × ℤ :=
  if policy.pBucket - size < 0 then (policy, policer.downgrade2)
  else if policy.cBucket - size < 0 then ({ policy with pBucket := policy.pBucket - size }, policer.downgrade1)
  else
    ({ policy with cBucket := policy.cBucket - size, pBucket := policy.pBucket - size }, policer.initialCodePt)

namespace PolicyIndex

/-- The object of the policy pool. -/
def applyMeter : PolicyIndex → ℚ → PolicyTableEntry → PolicyTableEntry
  | Null => NullPolicy.applyMeter
  | TB => TBPolicy.applyMeter
  | SRTCM => SRTCMPolicy.applyMeter
  | TRTCM => TRTCMPolicy.applyMeter

def applyPolicer : PolicyIndex → PolicerTableEntry → ℤ → PolicyTableEntry → PolicyTableEntry × ℤ
  | Null => NullPolicy.applyPolicer
  | TB => TBPolicy.applyPolicer
  | SRTCM => SRTCMPolicy.applyPolicer
  | TRTCM => TRTCMPolicy.applyPolicer

end PolicyIndex

/-! ### The classifier -/

def ANY_HOST : ℤ := -1

def MAX_POLICIES : ℕ := 20

def MAX_CP : ℕ := 40

structure PolicyClassifier where
  policyTable : List PolicyTableEntry
  policerTable : List PolicerTableEntry
  clock : ℚ

inductive PolicyCall
  | addPolicyEntry (sourceNode destNode codePt : ℤ) (args : PolicyArgs)
  | addPolicerEntry (policer : PolicerTableEntry)
  | mark (now : ℚ) (source dest size : ℤ)

/-- The buckets are full at first; what a policy has no use for is left at zero. -/
def PolicyArgs.entry (sourceNode destNode codePt : ℤ) : PolicyArgs → PolicyTableEntry
  | .Null => ⟨sourceNode, destNode, .Null, codePt, 0, 0, 0, 0, 0, 0, 0, 0, 0⟩
  | .TokenBucket cir cbs => ⟨sourceNode, destNode, .TB, codePt, cir / 8, cbs, cbs, 0, 0, 0, 0, 0, 0⟩
  | .srTCM cir cbs ebs => ⟨sourceNode, destNode, .SRTCM, codePt, cir / 8, cbs, cbs, ebs, ebs, 0, 0, 0, 0⟩
  | .trTCM cir cbs pir pbs => ⟨sourceNode, destNode, .TRTCM, codePt, cir / 8, cbs, cbs, 0, 0, pir / 8, pbs, pbs, 0⟩

/-- Does an entry stand for a pair of nodes? -/
def standsFor (sourceNode destNode source dest : ℤ) : Bool :=
  (sourceNode == source || sourceNode == ANY_HOST) && (destNode == dest || destNode == ANY_HOST)

namespace PolicyClassifier

def init : PolicyClassifier := ⟨[], [], 0⟩

def addPolicyEntry (c : PolicyClassifier) (sourceNode destNode codePt : ℤ) (args : PolicyArgs) : PolicyClassifier :=
  if c.policyTable.length = MAX_POLICIES then c
  else { c with policyTable := c.policyTable ++ [args.entry sourceNode destNode codePt] }

/-- A full table is written to all the same, behind its end. The second code point of a null policer is its first. -/
def addPolicerEntry (c : PolicyClassifier) (policer : PolicerTableEntry) : Option PolicyClassifier :=
  if c.policerTable.length = MAX_CP then none
  else
    let downgrade1 := if policer.policy_index = .Null then policer.initialCodePt else policer.downgrade1
    some { c with policerTable := c.policerTable ++ [{ policer with downgrade1 }] }

/-- The index of the entry; the entry behind the last one, which the loop looks at as well, has not been set. -/
def getPolicyTableEntry (c : PolicyClassifier) (source dest : ℤ) : Option ℕ :=
  c.policyTable.findIdx? fun policy => standsFor policy.sourceNode policy.destNode source dest

def findPolicer (policerTable : List PolicerTableEntry) (policy_index : PolicyIndex) (oldCodePt : ℤ) :
    Option PolicerTableEntry :=
  policerTable.find? fun policer => policer.policy_index = policy_index ∧ policer.initialCodePt = oldCodePt

def getPolicerTableEntry (c : PolicyClassifier) (policy_index : PolicyIndex) (oldCodePt : ℤ) :
    Option PolicerTableEntry := findPolicer c.policerTable policy_index oldCodePt

def mark (c : PolicyClassifier) (source dest size : ℤ) : Option (PolicyClassifier × ℤ) :=
  (c.getPolicyTableEntry source dest).bind fun i =>
    (c.policyTable[i]?).bind fun policy =>
      (c.getPolicerTableEntry policy.policy_index policy.codePt).map fun policer =>
        let r : PolicyTableEntry × ℤ :=
          policy.policy_index.applyPolicer policer size (policy.policy_index.applyMeter c.clock policy)
        ({ c with policyTable := c.policyTable.set i r.1 }, r.2)

def step (c : PolicyClassifier) : PolicyCall → Option (PolicyClassifier × Option ℤ)
  | .addPolicyEntry sourceNode destNode codePt args => some (c.addPolicyEntry sourceNode destNode codePt args, none)
  | .addPolicerEntry policer => (c.addPolicerEntry policer).map fun c => (c, none)
  | .mark now source dest size => (mark { c with clock := now } source dest size).map fun r => (r.1, some r.2)

end PolicyClassifier

/-! ### Colours -/

inductive Colour
  | green
  | yellow
  | red
  deriving DecidableEq

def PolicerTableEntry.codePt (policer : PolicerTableEntry) : Colour → ℤ
  | .green => policer.initialCodePt
  | .yellow => policer.downgrade1
  | .red => policer.downgrade2

/-- What does not change in an entry. -/
structure Policy where
  sourceNode : ℤ
  destNode : ℤ
  policy_index : PolicyIndex
  codePt : ℤ
  cir : ℚ
  cbs : ℚ
  ebs : ℚ
  pir : ℚ
  pbs : ℚ

def PolicyTableEntry.policy (e : PolicyTableEntry) : Policy :=
  ⟨e.sourceNode, e.destNode, e.policy_index, e.codePt, e.cir, e.cbs, e.ebs, e.pir, e.pbs⟩

/-- A policy and the packets that it has marked. -/
structure Contract where
  policy : Policy
  marked : List (Take ℚ × Colour)

namespace Contract

def green (k : Contract) : List (Take ℚ) := (k.marked.filter fun m => m.2 = .green).map Prod.fst

/-- The packets that are not red. -/
def inProfile (k : Contract) : List (Take ℚ) := (k.marked.filter fun m => m.2 ≠ .red).map Prod.fst

/-- A yellow packet of the single rate policy leaves on the joint budget all that green packets could still take. -/
def LeavesCommitted (k : Contract) (p : Take ℚ) : Prop :=
  ∀ x, Leaves k.policy.cir k.policy.cbs k.green p.time x →
    Leaves k.policy.cir (k.policy.cbs + k.policy.ebs) k.inProfile p.time (x + p.size)

open Classical in
/-- The colour of a packet. -/
noncomputable def colour (k : Contract) (p : Take ℚ) : Colour :=
  match k.policy.policy_index with
  | .Null => .green
  | .TB => if Conforms k.policy.cir k.policy.cbs (k.green ++ [p]) then .green else .yellow
  | .SRTCM =>
    if Conforms k.policy.cir k.policy.cbs (k.green ++ [p]) then .green
    else if k.LeavesCommitted p then .yellow else .red
  | .TRTCM =>
    if Conforms k.policy.pir k.policy.pbs (k.inProfile ++ [p]) then
      if Conforms k.policy.cir k.policy.cbs (k.green ++ [p]) then .green else .yellow
    else .red

def add (k : Contract) (p : Take ℚ) (c : Colour) : Contract := { k with marked := k.marked ++ [(p, c)] }

@[simp] lemma policy_add (k : Contract) (p : Take ℚ) (c : Colour) : (k.add p c).policy = k.policy := rfl

lemma green_add (k : Contract) (p : Take ℚ) (c : Colour) :
    (k.add p c).green = if c = .green then k.green ++ [p] else k.green := by
  cases c <;> simp [green, add]

lemma inProfile_add (k : Contract) (p : Take ℚ) (c : Colour) :
    (k.add p c).inProfile = if c = .red then k.inProfile else k.inProfile ++ [p] := by
  cases c <;> simp [inProfile, add]

noncomputable def mark (k : Contract) (p : Take ℚ) : Contract := k.add p (k.colour p)

/-- The bytes of each colour stay within the rates and bursts of the policy. -/
def Within (k : Contract) : Prop :=
  match k.policy.policy_index with
  | .Null => True
  | .TB => Conforms k.policy.cir k.policy.cbs k.green
  | .SRTCM => Conforms k.policy.cir k.policy.cbs k.green ∧
      Conforms k.policy.cir (k.policy.cbs + k.policy.ebs) k.inProfile
  | .TRTCM => Conforms k.policy.cir k.policy.cbs k.green ∧ Conforms k.policy.pir k.policy.pbs k.inProfile

end Contract

/-! ### The buckets of an entry -/

/-- The buckets of an entry meter the packets that it has marked. -/
structure Meets (e : PolicyTableEntry) (k : Contract) : Prop where
  policy : e.policy = k.policy
  cir : 0 ≤ e.cir
  pir : 0 ≤ e.pir
  committed : e.policy_index ≠ .Null → TokenBucket.Meters e.cir e.cbs ⟨e.cBucket, e.arrivalTime⟩ k.green
  joint : e.policy_index = .SRTCM →
    TokenBucket.Meters e.cir (e.cbs + e.ebs) ⟨e.cBucket + e.eBucket, e.arrivalTime⟩ k.inProfile
  excess : e.policy_index = .SRTCM → 0 ≤ e.cBucket ∧ 0 ≤ e.eBucket ∧ e.eBucket ≤ e.ebs
  peak : e.policy_index = .TRTCM → TokenBucket.Meters e.pir e.pbs ⟨e.pBucket, e.arrivalTime⟩ k.inProfile
  within : k.Within

lemma fillBucket_eq (bucket depth tokenBytes : ℚ) :
    fillBucket bucket depth tokenBytes = min depth (bucket + tokenBytes) := by
  unfold fillBucket
  split_ifs with hroom
  · exact (min_eq_right hroom).symm
  · exact (min_eq_left (not_le.mp hroom).le).symm

namespace Meets
variable {e : PolicyTableEntry} {k : Contract} {now : ℚ}

lemma index (h : Meets e k) : e.policy_index = k.policy.policy_index := congrArg Policy.policy_index h.policy

/-- The committed bucket is filled up to now. -/
lemma committed_refill (h : Meets e k) (hnow : e.arrivalTime ≤ now) (hindex : e.policy_index ≠ .Null) :
    TokenBucket.Meters e.cir e.cbs ⟨fillBucket e.cBucket e.cbs (e.cir * (now - e.arrivalTime)), now⟩ k.green := by
  rw [fillBucket_eq]
  exact (h.committed hindex).refill h.cir hnow

lemma applyMeter_single (h : Meets e k) (hnow : e.arrivalTime ≤ now) (hindex : e.policy_index = .SRTCM) :
    Meets (SRTCMPolicy.applyMeter now e) k ∧ (SRTCMPolicy.applyMeter now e).arrivalTime = now := by
  have hcommitted := h.committed_refill hnow (by rw [hindex]; exact nofun)
  have hjoint := (h.joint hindex).refill h.cir hnow
  obtain ⟨hcBucket, heBucket, hebs⟩ := h.excess hindex
  have hgain : 0 ≤ e.cir * (now - e.arrivalTime) := mul_nonneg h.cir (sub_nonneg.mpr hnow)
  have hcbs : e.cBucket ≤ e.cbs := (((h.committed (by rw [hindex]; exact nofun)) e.cBucket).mp le_rfl).1
  have hnopeak {P : Prop} (hpeak : e.policy_index = .TRTCM) : P := by
    rw [hindex] at hpeak
    cases hpeak
  unfold TokenBucket.refill at hjoint
  unfold fillBucket at hcommitted
  dsimp only at hjoint
  unfold SRTCMPolicy.applyMeter
  dsimp only
  split_ifs at hcommitted ⊢ with hroom
  · have hsum : min (e.cbs + e.ebs) (e.cBucket + e.eBucket + e.cir * (now - e.arrivalTime)) =
        e.cBucket + e.cir * (now - e.arrivalTime) + e.eBucket := by
      rw [min_eq_right (by linarith)]
      ring
    rw [hsum] at hjoint
    exact ⟨⟨h.policy, h.cir, h.pir, fun _ => hcommitted, fun _ => hjoint, fun _ => ⟨by positivity, heBucket, hebs⟩,
      fun hpeak => hnopeak hpeak, h.within⟩, rfl⟩
  · have hover : 0 ≤ e.cir * (now - e.arrivalTime) - (e.cbs - e.cBucket) := by linarith
    have hsum : min (e.cbs + e.ebs) (e.cBucket + e.eBucket + e.cir * (now - e.arrivalTime)) =
        e.cbs + fillBucket e.eBucket e.ebs (e.cir * (now - e.arrivalTime) - (e.cbs - e.cBucket)) := by
      rw [fillBucket_eq, ← min_add_add_left]
      congr 1
      ring
    rw [hsum] at hjoint
    refine ⟨⟨h.policy, h.cir, h.pir, fun _ => hcommitted, fun _ => hjoint, fun _ => ⟨hcBucket.trans hcbs, ?_, ?_⟩,
      fun hpeak => hnopeak hpeak, h.within⟩, rfl⟩
    · dsimp only
      rw [fillBucket_eq]
      exact le_min (heBucket.trans hebs) (by linarith)
    · dsimp only
      rw [fillBucket_eq]
      exact min_le_left _ _

/-- The meter fills the buckets up to now. -/
lemma applyMeter (h : Meets e k) (hnow : e.arrivalTime ≤ now) :
    Meets (e.policy_index.applyMeter now e) k ∧ (e.policy_index.applyMeter now e).arrivalTime = now := by
  cases hindex : e.policy_index with
  | Null =>
    refine ⟨⟨h.policy, h.cir, h.pir, fun hne => absurd hindex hne, fun hsingle => ?_, fun hsingle => ?_,
      fun hpeak => ?_, h.within⟩, rfl⟩
    · exact PolicyIndex.noConfusion (hindex.symm.trans hsingle)
    · exact PolicyIndex.noConfusion (hindex.symm.trans hsingle)
    · exact PolicyIndex.noConfusion (hindex.symm.trans hpeak)
  | TB =>
    refine ⟨⟨h.policy, h.cir, h.pir, h.committed_refill hnow, fun hsingle => ?_, fun hsingle => ?_, fun hpeak => ?_,
      h.within⟩, rfl⟩
    · exact PolicyIndex.noConfusion (hindex.symm.trans hsingle)
    · exact PolicyIndex.noConfusion (hindex.symm.trans hsingle)
    · exact PolicyIndex.noConfusion (hindex.symm.trans hpeak)
  | SRTCM => exact h.applyMeter_single hnow hindex
  | TRTCM =>
    refine ⟨⟨h.policy, h.cir, h.pir, h.committed_refill hnow, fun hsingle => ?_, fun hsingle => ?_, fun hpeak => ?_,
      h.within⟩, rfl⟩
    · exact PolicyIndex.noConfusion (hindex.symm.trans hsingle)
    · exact PolicyIndex.noConfusion (hindex.symm.trans hsingle)
    · have hmeters := (h.peak hpeak).refill h.pir hnow
      dsimp only [PolicyIndex.applyMeter, TRTCMPolicy.applyMeter]
      rw [fillBucket_eq]
      exact hmeters

variable (policer : PolicerTableEntry) {size : ℤ}

variable (size) in
lemma conforms_green_iff (h : Meets e k) (hnow : e.arrivalTime = now) (hindex : e.policy_index ≠ .Null)
    (hgreen : Conforms k.policy.cir k.policy.cbs k.green) :
    Conforms k.policy.cir k.policy.cbs (k.green ++ [⟨now, size⟩]) ↔ e.cBucket - size ≥ 0 := by
  have hmeters := h.committed hindex
  have hcir : e.cir = k.policy.cir := congrArg Policy.cir h.policy
  have hcbs : e.cbs = k.policy.cbs := congrArg Policy.cbs h.policy
  rw [hcir, hcbs] at hmeters
  rw [← hnow, ge_iff_le, sub_nonneg]
  exact hmeters.conforms_iff hgreen size

lemma take_green (h : Meets e k) (hnow : e.arrivalTime = now) (hsize : 0 ≤ size) (hindex : e.policy_index ≠ .Null) :
    TokenBucket.Meters e.cir e.cbs ⟨e.cBucket - size, e.arrivalTime⟩ (k.green ++ [⟨now, size⟩]) := by
  rw [← hnow]
  exact (h.committed hindex).take (by exact_mod_cast hsize)

/-- The token bucket policer gives the colour of the packet. -/
lemma applyPolicer_bucket (h : Meets e k) (hnow : e.arrivalTime = now) (hsize : 0 ≤ size)
    (hindex : e.policy_index = .TB) :
    ∃ e', TBPolicy.applyPolicer policer size e = (e', policer.codePt (k.colour ⟨now, size⟩)) ∧
      Meets e' (k.mark ⟨now, size⟩) ∧ e'.arrivalTime = now := by
  have hne : e.policy_index ≠ .Null := by rw [hindex]; exact nofun
  have hk := h.index.symm.trans hindex
  have hwithin := h.within
  unfold Contract.Within at hwithin
  rw [hk] at hwithin
  have hiff := h.conforms_green_iff size hnow hne hwithin
  have hsingle : e.policy_index = .SRTCM → False := fun heq => PolicyIndex.noConfusion (hindex.symm.trans heq)
  have hpeak : e.policy_index = .TRTCM → False := fun heq => PolicyIndex.noConfusion (hindex.symm.trans heq)
  unfold Contract.mark Contract.colour TBPolicy.applyPolicer
  rw [hk]
  dsimp only
  by_cases hgreen : Conforms k.policy.cir k.policy.cbs (k.green ++ [⟨now, size⟩])
  · rw [if_pos hgreen, if_pos (hiff.mp hgreen)]
    have hadd : (k.add ⟨now, size⟩ .green).green = k.green ++ [⟨now, size⟩] := k.green_add _ _
    refine ⟨_, rfl, ⟨h.policy, h.cir, h.pir, fun _ => ?_, fun heq => (hsingle heq).elim, fun heq => (hsingle heq).elim,
      fun heq => (hpeak heq).elim, ?_⟩, hnow⟩
    · rw [hadd]
      exact h.take_green hnow hsize hne
    · unfold Contract.Within
      rw [Contract.policy_add, hk, hadd]
      exact hgreen
  · rw [if_neg hgreen, if_neg fun hge => hgreen (hiff.mpr hge)]
    have hadd : (k.add ⟨now, size⟩ .yellow).green = k.green := k.green_add _ _
    refine ⟨_, rfl, ⟨h.policy, h.cir, h.pir, fun _ => ?_, fun heq => (hsingle heq).elim, fun heq => (hsingle heq).elim,
      fun heq => (hpeak heq).elim, ?_⟩, hnow⟩
    · rw [hadd]
      exact h.committed hne
    · unfold Contract.Within
      rw [Contract.policy_add, hk, hadd]
      exact hwithin

variable (size) in
/-- A yellow packet fits what the excess bucket has. -/
lemma leavesCommitted_iff (h : Meets e k) (hnow : e.arrivalTime = now) (hindex : e.policy_index = .SRTCM) :
    k.LeavesCommitted ⟨now, size⟩ ↔ e.eBucket - size ≥ 0 := by
  have hcommitted := h.committed (by rw [hindex]; exact nofun)
  have hjoint := h.joint hindex
  have hcir : e.cir = k.policy.cir := congrArg Policy.cir h.policy
  have hcbs : e.cbs = k.policy.cbs := congrArg Policy.cbs h.policy
  have hebs : e.ebs = k.policy.ebs := congrArg Policy.ebs h.policy
  unfold Contract.LeavesCommitted
  rw [← hcir, ← hcbs, ← hebs, ← hnow]
  constructor
  · intro hleaves
    have hsum := (hjoint _).mpr (hleaves e.cBucket ((hcommitted _).mp le_rfl))
    dsimp only at hsum
    linarith
  · intro heBucket x hx
    refine (hjoint _).mp ?_
    have hlevel := (hcommitted x).mpr hx
    dsimp only at hlevel ⊢
    linarith

/-- The policer of the single rate policy gives the colour of the packet. -/
lemma applyPolicer_single (h : Meets e k) (hnow : e.arrivalTime = now) (hsize : 0 ≤ size)
    (hindex : e.policy_index = .SRTCM) :
    ∃ e', SRTCMPolicy.applyPolicer policer size e = (e', policer.codePt (k.colour ⟨now, size⟩)) ∧
      Meets e' (k.mark ⟨now, size⟩) ∧ e'.arrivalTime = now := by
  have hne : e.policy_index ≠ .Null := by rw [hindex]; exact nofun
  have hk := h.index.symm.trans hindex
  have hwithin := h.within
  unfold Contract.Within at hwithin
  rw [hk] at hwithin
  have hiff := h.conforms_green_iff size hnow hne hwithin.1
  have hleaves := h.leavesCommitted_iff size hnow hindex
  have hcommitted := h.committed hne
  have hjoint := h.joint hindex
  obtain ⟨hcBucket, heBucket, hebs⟩ := h.excess hindex
  have hcirEq : e.cir = k.policy.cir := congrArg Policy.cir h.policy
  have hcbsEq : e.cbs = k.policy.cbs := congrArg Policy.cbs h.policy
  have hebsEq : e.ebs = k.policy.ebs := congrArg Policy.ebs h.policy
  have hsize' : (0 : ℚ) ≤ size := by exact_mod_cast hsize
  have htake := hjoint.take hsize'
  have hpeak : e.policy_index = .TRTCM → False := fun heq => PolicyIndex.noConfusion (hindex.symm.trans heq)
  -- a packet that is not red fits the joint budget
  have hfits (hroom : (size : ℚ) ≤ e.cBucket + e.eBucket) :
      Conforms k.policy.cir (k.policy.cbs + k.policy.ebs) (k.inProfile ++ [⟨now, size⟩]) := by
    rw [hcirEq, hcbsEq, hebsEq] at hjoint
    rw [← hnow]
    exact (hjoint.conforms_iff hwithin.2 size).mpr hroom
  unfold TokenBucket.take at htake
  dsimp only at htake
  rw [hnow] at htake
  unfold Contract.mark Contract.colour SRTCMPolicy.applyPolicer
  rw [hk]
  dsimp only
  by_cases hgreen : Conforms k.policy.cir k.policy.cbs (k.green ++ [⟨now, size⟩])
  · have hge := hiff.mp hgreen
    rw [if_pos hgreen, if_pos hge]
    have hadd : (k.add ⟨now, size⟩ .green).green = k.green ++ [⟨now, size⟩] := k.green_add _ _
    have haddIn : (k.add ⟨now, size⟩ .green).inProfile = k.inProfile ++ [⟨now, size⟩] := k.inProfile_add _ _
    refine ⟨_, rfl, ⟨h.policy, h.cir, h.pir, fun _ => ?_, fun _ => ?_, fun _ => ⟨hge, heBucket, hebs⟩,
      fun heq => (hpeak heq).elim, ?_⟩, hnow⟩
    · rw [hadd]
      exact h.take_green hnow hsize hne
    · rw [haddIn, hnow]
      dsimp only
      rw [sub_add_eq_add_sub]
      exact htake
    · unfold Contract.Within
      rw [Contract.policy_add, hk, hadd, haddIn]
      exact ⟨hgreen, hfits (by linarith)⟩
  · have hlt : ¬e.cBucket - size ≥ 0 := fun hge => hgreen (hiff.mpr hge)
    rw [if_neg hgreen, if_neg hlt]
    by_cases hyellow : k.LeavesCommitted ⟨now, size⟩
    · have hge := hleaves.mp hyellow
      rw [if_pos hyellow, if_pos hge]
      have hadd : (k.add ⟨now, size⟩ .yellow).green = k.green := k.green_add _ _
      have haddIn : (k.add ⟨now, size⟩ .yellow).inProfile = k.inProfile ++ [⟨now, size⟩] := k.inProfile_add _ _
      refine ⟨_, rfl, ⟨h.policy, h.cir, h.pir, fun _ => ?_, fun _ => ?_, fun _ => ⟨hcBucket, hge, ?_⟩,
        fun heq => (hpeak heq).elim, ?_⟩, hnow⟩
      · rw [hadd]
        exact hcommitted
      · rw [haddIn, hnow]
        dsimp only
        rw [← add_sub_assoc]
        exact htake
      · dsimp only
        linarith
      · unfold Contract.Within
        rw [Contract.policy_add, hk, hadd, haddIn]
        exact ⟨hwithin.1, hfits (by linarith)⟩
    · rw [if_neg hyellow, if_neg fun hge => hyellow (hleaves.mpr hge)]
      have hadd : (k.add ⟨now, size⟩ .red).green = k.green := k.green_add _ _
      have haddIn : (k.add ⟨now, size⟩ .red).inProfile = k.inProfile := k.inProfile_add _ _
      refine ⟨_, rfl, ⟨h.policy, h.cir, h.pir, fun _ => ?_, fun _ => ?_, fun _ => ⟨hcBucket, heBucket, hebs⟩,
        fun heq => (hpeak heq).elim, ?_⟩, hnow⟩
      · rw [hadd]
        exact hcommitted
      · rw [haddIn]
        exact hjoint
      · unfold Contract.Within
        rw [Contract.policy_add, hk, hadd, haddIn]
        exact hwithin

/-- The policer of the two rate policy gives the colour of the packet. -/
lemma applyPolicer_double (h : Meets e k) (hnow : e.arrivalTime = now) (hsize : 0 ≤ size)
    (hindex : e.policy_index = .TRTCM) :
    ∃ e', TRTCMPolicy.applyPolicer policer size e = (e', policer.codePt (k.colour ⟨now, size⟩)) ∧
      Meets e' (k.mark ⟨now, size⟩) ∧ e'.arrivalTime = now := by
  have hne : e.policy_index ≠ .Null := by rw [hindex]; exact nofun
  have hk := h.index.symm.trans hindex
  have hwithin := h.within
  unfold Contract.Within at hwithin
  rw [hk] at hwithin
  have hiff := h.conforms_green_iff size hnow hne hwithin.1
  have hcommitted := h.committed hne
  have hpeak := h.peak hindex
  have hpirEq : e.pir = k.policy.pir := congrArg Policy.pir h.policy
  have hpbsEq : e.pbs = k.policy.pbs := congrArg Policy.pbs h.policy
  have hiffPeak : Conforms k.policy.pir k.policy.pbs (k.inProfile ++ [⟨now, size⟩]) ↔ ¬e.pBucket - size < 0 := by
    rw [hpirEq, hpbsEq] at hpeak
    rw [← hnow, not_lt, sub_nonneg]
    exact hpeak.conforms_iff hwithin.2 size
  have htake := hpeak.take (show (0 : ℚ) ≤ size by exact_mod_cast hsize)
  have hsingle : e.policy_index = .SRTCM → False := fun heq => PolicyIndex.noConfusion (hindex.symm.trans heq)
  unfold TokenBucket.take at htake
  dsimp only at htake
  rw [hnow] at htake
  unfold Contract.mark Contract.colour TRTCMPolicy.applyPolicer
  rw [hk]
  dsimp only
  by_cases hred : Conforms k.policy.pir k.policy.pbs (k.inProfile ++ [⟨now, size⟩])
  · rw [if_pos hred, if_neg (hiffPeak.mp hred)]
    by_cases hgreen : Conforms k.policy.cir k.policy.cbs (k.green ++ [⟨now, size⟩])
    · rw [if_pos hgreen, if_neg (hiff.mp hgreen).not_gt]
      have hadd : (k.add ⟨now, size⟩ .green).green = k.green ++ [⟨now, size⟩] := k.green_add _ _
      have haddIn : (k.add ⟨now, size⟩ .green).inProfile = k.inProfile ++ [⟨now, size⟩] := k.inProfile_add _ _
      refine ⟨_, rfl, ⟨h.policy, h.cir, h.pir, fun _ => ?_, fun heq => (hsingle heq).elim,
        fun heq => (hsingle heq).elim, fun _ => ?_, ?_⟩, hnow⟩
      · rw [hadd]
        exact h.take_green hnow hsize hne
      · rw [haddIn, hnow]
        exact htake
      · unfold Contract.Within
        rw [Contract.policy_add, hk, hadd, haddIn]
        exact ⟨hgreen, hred⟩
    · rw [if_neg hgreen, if_pos (lt_of_not_ge fun hge => hgreen (hiff.mpr hge))]
      have hadd : (k.add ⟨now, size⟩ .yellow).green = k.green := k.green_add _ _
      have haddIn : (k.add ⟨now, size⟩ .yellow).inProfile = k.inProfile ++ [⟨now, size⟩] := k.inProfile_add _ _
      refine ⟨_, rfl, ⟨h.policy, h.cir, h.pir, fun _ => ?_, fun heq => (hsingle heq).elim,
        fun heq => (hsingle heq).elim, fun _ => ?_, ?_⟩, hnow⟩
      · rw [hadd]
        exact hcommitted
      · rw [haddIn, hnow]
        exact htake
      · unfold Contract.Within
        rw [Contract.policy_add, hk, hadd, haddIn]
        exact ⟨hwithin.1, hred⟩
  · rw [if_neg hred, if_pos (not_not.mp fun hlt => hred (hiffPeak.mpr hlt))]
    have hadd : (k.add ⟨now, size⟩ .red).green = k.green := k.green_add _ _
    have haddIn : (k.add ⟨now, size⟩ .red).inProfile = k.inProfile := k.inProfile_add _ _
    refine ⟨_, rfl, ⟨h.policy, h.cir, h.pir, fun _ => ?_, fun heq => (hsingle heq).elim,
      fun heq => (hsingle heq).elim, fun _ => ?_, ?_⟩, hnow⟩
    · rw [hadd]
      exact hcommitted
    · rw [haddIn]
      exact hpeak
    · unfold Contract.Within
      rw [Contract.policy_add, hk, hadd, haddIn]
      exact hwithin

lemma applyPolicer (h : Meets e k) (hnow : e.arrivalTime = now) (hsize : 0 ≤ size) :
    ∃ e', e.policy_index.applyPolicer policer size e = (e', policer.codePt (k.colour ⟨now, size⟩)) ∧
      Meets e' (k.mark ⟨now, size⟩) ∧ e'.arrivalTime = now := by
  cases hindex : e.policy_index with
  | Null =>
    have hk := h.index.symm.trans hindex
    unfold Contract.mark Contract.colour
    rw [hk]
    refine ⟨e, rfl, ⟨h.policy, h.cir, h.pir, fun hne => absurd hindex hne, fun heq => ?_, fun heq => ?_, fun heq => ?_,
      ?_⟩, hnow⟩
    · exact PolicyIndex.noConfusion (hindex.symm.trans heq)
    · exact PolicyIndex.noConfusion (hindex.symm.trans heq)
    · exact PolicyIndex.noConfusion (hindex.symm.trans heq)
    · unfold Contract.Within
      rw [Contract.policy_add, hk]
      trivial
  | TB => exact h.applyPolicer_bucket policer hnow hsize hindex
  | SRTCM => exact h.applyPolicer_single policer hnow hsize hindex
  | TRTCM => exact h.applyPolicer_double policer hnow hsize hindex

end Meets

/-! ### Runs of the classifier -/

/-- The policies with what they have marked, and the code points of the policers. -/
structure Contracts where
  contracts : List Contract
  policers : List PolicerTableEntry
  clock : ℚ

namespace Contracts

def find (t : Contracts) (source dest : ℤ) : Option ℕ :=
  t.contracts.findIdx? fun k => standsFor k.policy.sourceNode k.policy.destNode source dest

/-- The contract that a packet comes under and the policer with its code points. -/
def applies (t : Contracts) (source dest : ℤ) : Option (ℕ × Contract × PolicerTableEntry) :=
  (t.find source dest).bind fun i =>
    (t.contracts[i]?).bind fun k =>
      (PolicyClassifier.findPolicer t.policers k.policy.policy_index k.policy.codePt).map fun policer => (i, k, policer)

noncomputable def next (t : Contracts) : PolicyCall → Contracts
  | .addPolicyEntry sourceNode destNode codePt args =>
    if t.contracts.length = MAX_POLICIES then t
    else { t with contracts := t.contracts ++ [⟨(args.entry sourceNode destNode codePt).policy, []⟩] }
  | .addPolicerEntry policer =>
    let downgrade1 := if policer.policy_index = .Null then policer.initialCodePt else policer.downgrade1
    { t with policers := t.policers ++ [{ policer with downgrade1 }] }
  | .mark now source dest size =>
    match t.applies source dest with
    | none => t
    | some (i, k, _) => { t with contracts := t.contracts.set i (k.mark ⟨now, size⟩), clock := now }

noncomputable def out (t : Contracts) : PolicyCall → Option ℤ
  | .mark now source dest size => (t.applies source dest).map fun a => a.2.2.codePt (a.2.1.colour ⟨now, size⟩)
  | _ => none

/-- Rates are not negative, nor the bursts of the single rate policy; there is room for a policer; a packet comes under
a policy that has its policer, and no time runs backwards. -/
def Admitted (t : Contracts) : PolicyCall → Prop
  | .addPolicyEntry _ _ _ args =>
    match args with
    | .Null => True
    | .TokenBucket cir _ => 0 ≤ cir
    | .srTCM cir cbs ebs => 0 ≤ cir ∧ 0 ≤ cbs ∧ 0 ≤ ebs
    | .trTCM cir _ pir _ => 0 ≤ cir ∧ 0 ≤ pir
  | .addPolicerEntry _ => t.policers.length ≠ MAX_CP
  | .mark now source dest size => t.clock ≤ now ∧ 0 ≤ size ∧ (t.applies source dest).isSome

end Contracts

/-- The entries meet the contracts, one by one. -/
structure PolicyClassifier.Follows (c : PolicyClassifier) (t : Contracts) : Prop where
  clock : c.clock = t.clock
  nonneg : 0 ≤ c.clock
  policers : c.policerTable = t.policers
  meets : List.Forall₂ Meets c.policyTable t.contracts
  past : ∀ e ∈ c.policyTable, e.arrivalTime ≤ c.clock

namespace PolicyClassifier.Follows

/-- A new policy has full buckets and has marked nothing. -/
lemma meets_entry {sourceNode destNode codePt : ℤ} {args : PolicyArgs} {t : Contracts}
    (h : t.Admitted (.addPolicyEntry sourceNode destNode codePt args)) :
    Meets (args.entry sourceNode destNode codePt) ⟨(args.entry sourceNode destNode codePt).policy, []⟩ := by
  cases args with
  | Null => exact ⟨rfl, le_rfl, le_rfl, fun hne => absurd rfl hne, nofun, nofun, nofun, trivial⟩
  | TokenBucket cir cbs =>
    have hcir : 0 ≤ cir := h
    exact ⟨rfl, div_nonneg hcir (by norm_num), le_rfl, fun _ => TokenBucket.meters_full _ _ _, nofun, nofun, nofun,
      conforms_nil _ _⟩
  | srTCM cir cbs ebs =>
    obtain ⟨hcir, hcbs, hebs⟩ : 0 ≤ cir ∧ 0 ≤ cbs ∧ 0 ≤ ebs := h
    exact ⟨rfl, div_nonneg hcir (by norm_num), le_rfl, fun _ => TokenBucket.meters_full _ _ _,
      fun _ => TokenBucket.meters_full _ _ _, fun _ => ⟨hcbs, hebs, le_rfl⟩, nofun, conforms_nil _ _, conforms_nil _ _⟩
  | trTCM cir cbs pir pbs =>
    obtain ⟨hcir, hpir⟩ : 0 ≤ cir ∧ 0 ≤ pir := h
    exact ⟨rfl, div_nonneg hcir (by norm_num), div_nonneg hpir (by norm_num),
      fun _ => TokenBucket.meters_full _ _ _, nofun, nofun, fun _ => TokenBucket.meters_full _ _ _, conforms_nil _ _,
      conforms_nil _ _⟩

lemma find_eq {l : List PolicyTableEntry} {m : List Contract} (h : List.Forall₂ Meets l m) (source dest : ℤ) :
    l.findIdx? (fun policy => standsFor policy.sourceNode policy.destNode source dest) =
      m.findIdx? (fun k => standsFor k.policy.sourceNode k.policy.destNode source dest) := by
  induction h with
  | nil => rfl
  | cons hmeets _ ih =>
    rw [List.findIdx?_cons, List.findIdx?_cons, ih, ← hmeets.policy]
    rfl

lemma meets_at {l : List PolicyTableEntry} {m : List Contract} (h : List.Forall₂ Meets l m) {i : ℕ} {k : Contract}
    (hk : m[i]? = some k) : ∃ e, l[i]? = some e ∧ Meets e k := by
  induction h generalizing i with
  | nil => cases hk
  | cons hmeets _ ih =>
    cases i with
    | zero => exact ⟨_, rfl, Option.some.inj hk ▸ hmeets⟩
    | succ i => exact ih hk

lemma meets_set {l : List PolicyTableEntry} {m : List Contract} (h : List.Forall₂ Meets l m) (i : ℕ)
    {e : PolicyTableEntry} {k : Contract} (he : Meets e k) : List.Forall₂ Meets (l.set i e) (m.set i k) := by
  induction h generalizing i with
  | nil => exact List.Forall₂.nil
  | cons hmeets hrest ih =>
    cases i with
    | zero => exact List.Forall₂.cons he hrest
    | succ i => exact List.Forall₂.cons hmeets (ih i)

variable {c : PolicyClassifier} {t : Contracts}

lemma addPolicyEntry (h : c.Follows t) {sourceNode destNode codePt : ℤ} {args : PolicyArgs}
    (hadmitted : t.Admitted (.addPolicyEntry sourceNode destNode codePt args)) :
    (c.addPolicyEntry sourceNode destNode codePt args).Follows
      (t.next (.addPolicyEntry sourceNode destNode codePt args)) := by
  unfold PolicyClassifier.addPolicyEntry Contracts.next
  dsimp only
  rw [h.meets.length_eq]
  split_ifs
  · exact h
  · have htime : (args.entry sourceNode destNode codePt).arrivalTime = 0 := by cases args <;> rfl
    refine ⟨h.clock, h.nonneg, h.policers, ?_, ?_⟩
    · apply List.rel_append h.meets
      exact List.Forall₂.cons (meets_entry hadmitted) List.Forall₂.nil
    · intro e he
      rcases List.mem_append.mp he with he | he
      · exact h.past e he
      · rw [List.mem_singleton.mp he, htime]
        exact h.nonneg

lemma addPolicerEntry (h : c.Follows t) {policer : PolicerTableEntry} (hroom : t.policers.length ≠ MAX_CP) :
    ∃ c', c.addPolicerEntry policer = some c' ∧ c'.Follows (t.next (.addPolicerEntry policer)) := by
  unfold PolicyClassifier.addPolicerEntry
  rw [h.policers, if_neg hroom]
  exact ⟨_, rfl, h.clock, h.nonneg, rfl, h.meets, h.past⟩

/-- A packet is given the colour of its contract. -/
lemma mark (h : c.Follows t) {now : ℚ} {source dest size : ℤ} (hadmitted : t.Admitted (.mark now source dest size)) :
    ∃ c', c.step (.mark now source dest size) = some (c', t.out (.mark now source dest size)) ∧
      c'.Follows (t.next (.mark now source dest size)) := by
  obtain ⟨hnow, hsize, happlies⟩ := hadmitted
  obtain ⟨⟨i, k, policer⟩, happlies⟩ := Option.isSome_iff_exists.mp happlies
  unfold Contracts.out Contracts.next
  dsimp only
  rw [happlies]
  unfold Contracts.applies at happlies
  obtain ⟨j, hfind, happlies⟩ := Option.bind_eq_some_iff.mp happlies
  obtain ⟨k', hk, happlies⟩ := Option.bind_eq_some_iff.mp happlies
  obtain ⟨policer', hpolicer, heq⟩ := Option.map_eq_some_iff.mp happlies
  obtain ⟨rfl, rfl, rfl⟩ : j = i ∧ k' = k ∧ policer' = policer := by simpa using heq
  obtain ⟨e, he, hmeets⟩ := meets_at h.meets hk
  have hpast := h.past e (List.mem_of_getElem? he)
  have hclock : c.clock ≤ now := h.clock.le.trans hnow
  obtain ⟨hmetered, htime⟩ := hmeets.applyMeter (hpast.trans hclock)
  have hindex : (e.policy_index.applyMeter now e).policy_index = e.policy_index :=
    hmetered.index.trans hmeets.index.symm
  obtain ⟨e', hpolice, hmarked, htime'⟩ := hmetered.applyPolicer policer' htime hsize
  rw [hindex] at hpolice
  have hcodePt : e.codePt = k'.policy.codePt := congrArg Policy.codePt hmeets.policy
  have hstep : c.step (.mark now source dest size) = some ({ c with
      clock := now
      policyTable := c.policyTable.set j e' }, some (policer'.codePt (k'.colour ⟨now, size⟩))) := by
    unfold PolicyClassifier.step PolicyClassifier.mark getPolicyTableEntry getPolicerTableEntry
    dsimp only
    rw [find_eq h.meets, show t.contracts.findIdx? _ = some j from hfind, Option.bind_some, he, Option.bind_some,
      h.policers, hmeets.index, hcodePt, hpolicer, Option.map_some, ← hmeets.index, hpolice]
    rfl
  refine ⟨_, hstep, rfl, h.nonneg.trans hclock, h.policers, meets_set h.meets j hmarked, ?_⟩
  intro f hf
  rcases List.mem_or_eq_of_mem_set hf with hf | rfl
  · exact (h.past f hf).trans hclock
  · exact htime'.le

lemma step (h : c.Follows t) {call : PolicyCall} (hadmitted : t.Admitted call) :
    ∃ c', c.step call = some (c', t.out call) ∧ c'.Follows (t.next call) := by
  cases call with
  | addPolicyEntry sourceNode destNode codePt args => exact ⟨_, rfl, h.addPolicyEntry hadmitted⟩
  | addPolicerEntry policer =>
    obtain ⟨c', hc', hfollows⟩ := h.addPolicerEntry hadmitted
    exact ⟨c', congrArg (Option.map fun c => (c, none)) hc', hfollows⟩
  | mark now source dest size => exact h.mark hadmitted

end PolicyClassifier.Follows

/-- The classifier gives every packet the colour of its contract, and each contract is kept. -/
theorem PolicyClassifier.marks_run (calls : List PolicyCall)
    (h : AdmissibleRun Contracts.Admitted Contracts.next ⟨[], [], 0⟩ calls) :
    ∃ c, run step init calls = some (c, outputs Contracts.next Contracts.out ⟨[], [], 0⟩ calls) ∧
      ∀ k ∈ (calls.foldl Contracts.next ⟨[], [], 0⟩).contracts, k.Within := by
  have hinit : init.Follows ⟨[], [], 0⟩ :=
    ⟨rfl, le_rfl, rfl, List.Forall₂.nil, fun _ he => absurd he List.not_mem_nil⟩
  obtain ⟨c, hrun, hfollows⟩ := run_simulates (fun _ _ _ hfollows hadmitted => hfollows.step hadmitted) calls hinit h
  refine ⟨c, hrun, ?_⟩
  intro k hk
  obtain ⟨i, hi⟩ := List.mem_iff_getElem?.mp hk
  obtain ⟨e, -, hmeets⟩ := PolicyClassifier.Follows.meets_at hfollows.meets hi
  exact hmeets.within

/-- Two packets at once under a token bucket that has the bytes of one. -/
def PolicyClassifier.twoPackets : List PolicyCall :=
  [.addPolicyEntry 1 2 10 (.TokenBucket 8000 1000), .addPolicerEntry ⟨.TB, 10, 11, 0⟩, .mark 0 1 2 600, .mark 0 1 2 600]

theorem PolicyClassifier.marks_run_twoPackets :
    ∃ c, run step init twoPackets = some (c, outputs Contracts.next Contracts.out ⟨[], [], 0⟩ twoPackets) ∧
      ∀ k ∈ (twoPackets.foldl Contracts.next ⟨[], [], 0⟩).contracts, k.Within :=
  marks_run twoPackets (by
    simp [twoPackets, AdmissibleRun, Contracts.Admitted, Contracts.next, Contracts.applies, Contracts.find, standsFor,
      PolicyArgs.entry, PolicyTableEntry.policy, findPolicer, MAX_CP, MAX_POLICIES, Contract.mark])

end NetworkSimulator
