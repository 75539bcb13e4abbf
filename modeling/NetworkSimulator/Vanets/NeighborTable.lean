import NetworkSimulator.Vanets.Agent
import Mathlib.Data.List.Nodup
import Mathlib.Logic.Function.Basic

/-!
# The neighbour table of a vehicle

A vehicle that is heard is in the table with a time to live of 3, which each tick lowers. Beside a run stands for
each vehicle how many ticks have come since it was heard last.
-/

namespace NetworkSimulator.Vanets
open Library

/-- `neighbor_vehicle_object` without the path. -/
structure NeighborVehicle where
  id_vehicle : ℤ
  ttl : UInt16
  deriving DecidableEq

/-- `--ttl` -/
def NeighborVehicle.older (v : NeighborVehicle) : NeighborVehicle := { v with ttl := v.ttl - 1 }

structure NeighborTable where
  capacity : ℕ
  /-- The first `size` objects of `data_vehicles`. -/
  vehicles : List NeighborVehicle
  deriving DecidableEq

namespace NeighborTable

def empty : NeighborTable := ⟨16, []⟩

def reallocList (t : NeighborTable) : NeighborTable :=
  { t with capacity := (if t.capacity > 0 then t.capacity else 1) * 2 }

def insert (t : NeighborTable) (obj : NeighborVehicle) : NeighborTable :=
  let t := if t.vehicles.length = t.capacity then t.reallocList else t
  { t with vehicles := t.vehicles ++ [obj] }

/-- The place of the object that `search` returns. -/
def search (t : NeighborTable) (id : ℤ) : Option ℕ := t.vehicles.findIdx? fun v => v.id_vehicle = id

/-- The loop of `update_ttl` from position `i` on; where an object is removed, the last one takes its place and the
index stays where it is, since `i--` and `i++` are inverse to each other as a `u_int32_t`. -/
def updateTtlLoop : ℕ → ℕ → List NeighborVehicle → List NeighborVehicle
  | 0, _, vs => vs
  | k + 1, i, vs =>
    match vs[i]? with
    | none => vs
    | some v =>
      let v := v.older
      if (v.ttl.toNat : ℤ) < 0 then
        updateTtlLoop k i ((vs.set i ((vs.set i v).getLastD v)).dropLast)
      else updateTtlLoop k (i + 1) (vs.set i v)

def updateTtl (t : NeighborTable) : NeighborTable :=
  { t with vehicles := updateTtlLoop t.vehicles.length 0 t.vehicles }

/-- What `recvHelloMsg` does with the table. -/
def recvHello (t : NeighborTable) (id : ℤ) : NeighborTable :=
  match t.search id with
  | some i => { t with vehicles := t.vehicles.modify i fun v => { v with ttl := 3 } }
  | none => t.insert ⟨id, 3⟩

/-! ### What the functions do -/

lemma updateTtlLoop_eq (k : ℕ) (front vs : List NeighborVehicle) (h : vs.length ≤ k) :
    updateTtlLoop k front.length (front ++ vs) = front ++ vs.map NeighborVehicle.older := by
  induction k generalizing front vs with
  | zero =>
    obtain rfl := List.length_eq_zero_iff.mp (Nat.le_zero.mp h)
    rfl
  | succ k ih =>
    cases vs with
    | nil => simp [updateTtlLoop]
    | cons v vs =>
      have hget : (front ++ v :: vs)[front.length]? = some v := by simp
      have hset : (front ++ v :: vs).set front.length v.older = (front ++ [v.older]) ++ vs := by simp
      have hnext := ih (front ++ [v.older]) vs (Nat.le_of_succ_le_succ h)
      rw [List.length_append, List.length_singleton] at hnext
      rw [updateTtlLoop, hget]
      dsimp only
      -- an unsigned time to live is not below zero
      rw [if_neg (by omega), hset, hnext, List.map_cons, List.append_assoc]
      rfl

lemma updateTtl_vehicles (t : NeighborTable) : t.updateTtl.vehicles = t.vehicles.map NeighborVehicle.older :=
  updateTtlLoop_eq _ [] _ le_rfl

lemma insert_vehicles (t : NeighborTable) (obj : NeighborVehicle) : (t.insert obj).vehicles = t.vehicles ++ [obj] := by
  unfold insert reallocList
  dsimp only
  split <;> rfl

/-- The objects as the agent has them. -/
def pairs (t : NeighborTable) : List (ℤ × ℕ) := t.vehicles.map fun v => (v.id_vehicle, v.ttl.toNat)

/-- `update_ttl` is what `id_purge` does with the neighbours of the agent. -/
lemma idPurge_pairs {s : Agent} {t : NeighborTable} (h : s.neighbors = t.pairs) :
    s.idPurge.neighbors = t.updateTtl.pairs := by
  unfold Agent.idPurge pairs
  rw [h, updateTtl_vehicles, pairs, List.map_map, List.map_map]
  refine List.map_congr_left fun v _ => Prod.ext rfl ?_
  show (v.ttl.toNat + (2 ^ 16 - 1)) % 2 ^ 16 = (v.ttl - 1).toNat
  rw [UInt16.toNat_sub]
  exact congrArg (· % 2 ^ 16) (Nat.add_comm _ _)

/-- The objects after a hello. -/
def heard (id : ℤ) : List NeighborVehicle → List NeighborVehicle
  | [] => [⟨id, 3⟩]
  | v :: vs => if v.id_vehicle = id then { v with ttl := 3 } :: vs else v :: heard id vs

lemma recvHello_vehicles (t : NeighborTable) (id : ℤ) : (t.recvHello id).vehicles = heard id t.vehicles := by
  have hlist : ∀ vs : List NeighborVehicle, (match vs.findIdx? fun v => v.id_vehicle = id with
      | some i => vs.modify i fun v => { v with ttl := 3 }
      | none => vs ++ [⟨id, 3⟩]) = heard id vs := by
    intro vs
    induction vs with
    | nil => rfl
    | cons v vs ih =>
      rw [List.findIdx?_cons, heard]
      by_cases hid : v.id_vehicle = id
      · rw [if_pos (decide_eq_true hid), if_pos hid]
        rfl
      · rw [if_neg (mt of_decide_eq_true hid), if_neg hid, ← ih]
        cases vs.findIdx? fun v => v.id_vehicle = id <;> rfl
  rw [← hlist]
  unfold recvHello search
  cases t.vehicles.findIdx? fun v => v.id_vehicle = id with
  | some i => rfl
  | none => exact insert_vehicles t _

/-- `recvHelloMsg` does with the table what it does with the neighbours of the agent. -/
lemma hear_pairs (t : NeighborTable) (id : ℤ) : Agent.hear id t.pairs = (t.recvHello id).pairs := by
  unfold pairs
  rw [recvHello_vehicles]
  induction t.vehicles with
  | nil => rfl
  | cons v vs ih =>
    rw [List.map_cons, Agent.hear, heard]
    by_cases hid : v.id_vehicle = id
    · rw [if_pos hid, if_pos hid, List.map_cons, hid]
      rfl
    · rw [if_neg hid, if_neg hid, ih, List.map_cons]

/-! ### Runs -/

inductive NeighborEvent
  | hello (id : ℤ)
  | tick

/-- How many ticks have come since the last hello of each vehicle. -/
abbrev Ages := ℤ → Option ℕ

def Ages.next (age : Ages) : NeighborEvent → Ages
  | .hello id => Function.update age id (some 0)
  | .tick => fun id => (age id).map (· + 1)

def next (t : NeighborTable) : NeighborEvent → NeighborTable
  | .hello id => t.recvHello id
  | .tick => t.updateTtl

/-- The table with the ages of all vehicles heard so far. -/
def step (s : NeighborTable × Ages) (e : NeighborEvent) : Option ((NeighborTable × Ages) × Unit) :=
  some ((s.1.next e, s.2.next e), ())

/-- The vehicles that have been heard no longer than 3 ticks ago are in the table, once each. -/
structure Lists (t : NeighborTable) (age : Ages) : Prop where
  mem : ∀ id, id ∈ t.vehicles.map NeighborVehicle.id_vehicle ↔ ∃ n ≤ 3, age id = some n
  once : (t.vehicles.map NeighborVehicle.id_vehicle).Nodup

/-- The vehicle leaves the table with the next tick. -/
def Ages.expires (age : Ages) (v : NeighborVehicle) : Bool := (age v.id_vehicle).any (3 ≤ ·)

/-- What an event is to do with the table. -/
structure Kept (s : NeighborTable × Ages) (e : NeighborEvent) : Prop where
  lists : Lists (s.1.next e) (s.2.next e)
  tick : e = .tick → (s.1.next e).vehicles.Perm
    ((s.1.vehicles.filter fun v => !s.2.expires v).map NeighborVehicle.older)

/-- No vehicle has been silent for more than 3 ticks. -/
def AllRecent (s : NeighborTable × Ages) (e : NeighborEvent) : Prop :=
  ∀ id n, s.2.next e id = some n → n ≤ 3

/-- All vehicles that have been heard are in the table. -/
structure Holds (s : NeighborTable × Ages) : Prop where
  mem : ∀ id, id ∈ s.1.vehicles.map NeighborVehicle.id_vehicle ↔ (s.2 id).isSome
  once : (s.1.vehicles.map NeighborVehicle.id_vehicle).Nodup

lemma map_id_heard (id : ℤ) (vs : List NeighborVehicle) : (heard id vs).map NeighborVehicle.id_vehicle =
    if id ∈ vs.map NeighborVehicle.id_vehicle then vs.map NeighborVehicle.id_vehicle
    else vs.map NeighborVehicle.id_vehicle ++ [id] := by
  induction vs with
  | nil => rfl
  | cons v vs ih =>
    rw [heard]
    by_cases hid : v.id_vehicle = id
    · rw [if_pos hid, if_pos (by simp [hid])]
      rfl
    · rw [if_neg hid, List.map_cons, ih]
      have hmem : id ∈ (v :: vs).map NeighborVehicle.id_vehicle ↔ id ∈ vs.map NeighborVehicle.id_vehicle := by
        rw [List.map_cons, List.mem_cons]
        exact or_iff_right (Ne.symm hid)
      by_cases hin : id ∈ vs.map NeighborVehicle.id_vehicle
      · rw [if_pos hin, if_pos (hmem.mpr hin)]
        rfl
      · rw [if_neg hin, if_neg (mt hmem.mp hin)]
        rfl

lemma Holds.next {s : NeighborTable × Ages} (h : Holds s) (e : NeighborEvent) : Holds (s.1.next e, s.2.next e) := by
  cases e with
  | hello id =>
    have hids := map_id_heard id s.1.vehicles
    rw [← recvHello_vehicles] at hids
    have hmem : ∀ i, (Function.update s.2 id (some 0) i).isSome = true ↔ i = id ∨ (s.2 i).isSome = true := by
      intro i
      by_cases hi : i = id
      · simp [hi]
      · simp [hi]
    constructor
    · intro i
      show i ∈ (s.1.recvHello id).vehicles.map _ ↔ (Function.update s.2 id (some 0) i).isSome = true
      rw [hids, hmem, ← h.mem]
      by_cases hin : id ∈ s.1.vehicles.map NeighborVehicle.id_vehicle
      · rw [if_pos hin]
        exact ⟨Or.inr, fun h => h.elim (fun hi => hi ▸ hin) fun h => h⟩
      · rw [if_neg hin, List.mem_append, List.mem_singleton]
        exact or_comm
    · show ((s.1.recvHello id).vehicles.map _).Nodup
      rw [hids]
      by_cases hin : id ∈ s.1.vehicles.map NeighborVehicle.id_vehicle
      · rw [if_pos hin]
        exact h.once
      · rw [if_neg hin]
        rw [← List.concat_eq_append]
        exact List.Nodup.concat hin h.once
  | tick =>
    have hids : s.1.updateTtl.vehicles.map NeighborVehicle.id_vehicle =
        s.1.vehicles.map NeighborVehicle.id_vehicle := by
      rw [updateTtl_vehicles, List.map_map]
      rfl
    constructor
    · intro i
      show i ∈ s.1.updateTtl.vehicles.map _ ↔ ((s.2 i).map (· + 1)).isSome = true
      rw [hids, h.mem, Option.isSome_map]
    · show (s.1.updateTtl.vehicles.map _).Nodup
      rw [hids]
      exact h.once

lemma Holds.kept_iff {s : NeighborTable × Ages} (h : Holds s) (e : NeighborEvent) : Kept s e ↔ AllRecent s e := by
  have hnext := h.next e
  constructor
  · intro hkept id n hage
    obtain ⟨k, hk, hage'⟩ := (hkept.lists.mem id).mp ((hnext.mem id).mpr (Option.isSome_iff_exists.mpr ⟨n, hage⟩))
    rw [hage] at hage'
    exact Option.some.inj hage' ▸ hk
  · intro hrecent
    refine ⟨⟨fun id => (hnext.mem id).trans ?_, hnext.once⟩, ?_⟩
    · rw [Option.isSome_iff_exists]
      exact ⟨fun ⟨n, hn⟩ => ⟨n, hrecent id n hn, hn⟩, fun ⟨n, _, hn⟩ => ⟨n, hn⟩⟩
    · rintro rfl
      have hall : (s.1.vehicles.filter fun v => !s.2.expires v) = s.1.vehicles := by
        refine List.filter_eq_self.mpr fun v hv => ?_
        obtain ⟨n, hn⟩ := Option.isSome_iff_exists.mp ((h.mem v.id_vehicle).mp (List.mem_map_of_mem hv))
        have hle := hrecent v.id_vehicle (n + 1) (by
          show (s.2 v.id_vehicle).map (· + 1) = _
          rw [hn]
          rfl)
        have hlt : ¬3 ≤ n := by omega
        unfold Ages.expires
        rw [hn]
        simpa using hlt
      rw [hall]
      show s.1.updateTtl.vehicles.Perm _
      rw [updateTtl_vehicles]

/-- Nothing is known of any vehicle. -/
def start : NeighborTable × Ages := (empty, fun _ => none)

lemma holds_start : Holds start := ⟨fun id => by simp [start, empty], List.nodup_nil⟩

lemma run_step (s : NeighborTable × Ages) (es : List NeighborEvent) : ∃ t os, run step s es = some (t, os) := by
  induction es generalizing s with
  | nil => exact ⟨s, [], rfl⟩
  | cons e es ih =>
    obtain ⟨t, os, h⟩ := ih (s.1.next e, s.2.next e)
    exact ⟨t, () :: os, by rw [run_cons_of_step rfl, h]; rfl⟩

/-- The events of a run do with the table what they are to do as long as no vehicle is silent for more than 3 ticks,
and no longer. -/
theorem expiry_run_iff (es : List NeighborEvent) : EachStep step Kept start es ↔ EachStep step AllRecent start es := by
  obtain ⟨t, os, hrun⟩ := run_step start es
  refine EachStep.congr (fun s e s' o hs hstep => ?_) holds_start hrun
  obtain ⟨rfl, -⟩ := Prod.mk.inj (Option.some.inj hstep)
  exact ⟨hs.next e, hs.kept_iff e⟩

/-- A vehicle stays in the table after four ticks, with a time to live of 65535. -/
theorem silent_vehicle_stays : ¬EachStep step Kept start [.hello 7, .tick, .tick, .tick, .tick] ∧
    ([.hello 7, .tick, .tick, .tick, .tick].foldl next empty).vehicles = [⟨7, 65535⟩] := by
  refine ⟨fun h => ?_, by decide⟩
  obtain ⟨-, h₁⟩ := h
  obtain ⟨-, h₂⟩ := h₁ _ _ rfl
  obtain ⟨-, h₃⟩ := h₂ _ _ rfl
  obtain ⟨-, h₄⟩ := h₃ _ _ rfl
  obtain ⟨n, hn, hage⟩ := ((h₄ _ _ rfl).1.lists.mem 7).mp (by decide)
  obtain rfl : 4 = n := Option.some.inj hage
  omega

end NeighborTable
end NetworkSimulator.Vanets
