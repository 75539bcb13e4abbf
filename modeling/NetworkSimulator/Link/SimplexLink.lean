import Mathlib.Algebra.Order.Field.Rat
import Mathlib.Tactic.Linarith
import Mathlib.Tactic.Positivity
import Mathlib.Tactic.Ring
import NetworkSimulator.Library.Runs
import NetworkSimulator.Scheduler.Dispatch

/-!
# A link with its queue

`DropTail` in front of `LinkDelay`, with the scheduler that both of them use. The queue hands a packet over when it is
not blocked, and it is blocked until `intr_`, the one event that `LinkDelay` has for all packets, comes back. The
queue is the list that its `PacketQueue` holds. Traces, statistics and the utilization are left out.
-/

namespace NetworkSimulator
open Library

/-- The packets on their way, the end of a transmission and the events of others. -/
inductive LinkEvent (ι κ : Type)
  | packet (p : ι)
  | intr
  | other (e : κ)
  deriving DecidableEq

def LinkEvent.packet? {ι κ : Type} : LinkEvent ι κ → Option ι
  | .packet p => some p
  | _ => none

/-- The bound variables that stay as they are. -/
structure LinkConfig where
  qlim : ℤ
  mean_pktsize : ℤ
  qib : Bool
  drop_front : Bool
  unblock_on_resume : Bool
  dynamic : Bool
  avoidReordering : Bool

structure SimplexLink (ι κ : Type) where
  scheduler : Scheduler (LinkEvent ι κ)
  q : List ι
  blocked : Bool
  bandwidth : ℚ
  delay : ℚ
  latest_time : ℚ
  itq : List ι

inductive LinkCall (ι κ : Type)
  | recv (p : ι)
  | dispatch
  | schedule (e : κ) (delay : ℚ)
  | setBandwidth (bandwidth : ℚ)
  | setDelay (delay : ℚ)
  | resetQueue
  | resetLink

inductive LinkNote (ι : Type)
  | delivered (p : ι)
  | dropped (p : ι)
  deriving DecidableEq

variable {ι κ : Type} [DecidableEq ι] [DecidableEq κ]

def LinkCall.arrival : LinkCall ι κ → Option ι
  | .recv p => some p
  | _ => none

def LinkNote.deliveredPacket : LinkNote ι → Option ι
  | .delivered p => some p
  | .dropped _ => none

def LinkNote.droppedPacket : LinkNote ι → Option ι
  | .delivered _ => none
  | .dropped p => some p

/-! ### `DropTail` -/

namespace DropTail
variable (cfg : LinkConfig) (size : ι → ℤ)

def byteLength (q : List ι) : ℤ := (q.map size).sum

def Full (q : List ι) (p : ι) : Prop :=
  (¬cfg.qib ∧ (q.length : ℤ) + 1 ≥ cfg.qlim) ∨
    (cfg.qib ∧ byteLength size q + size p ≥ cfg.qlim * cfg.mean_pktsize)

instance (q : List ι) (p : ι) : Decidable (Full cfg size q p) := inferInstanceAs (Decidable (_ ∨ _))

/-- The queue after `enque` and the packets that it drops. -/
def enque (q : List ι) (p : ι) : List ι × List ι :=
  if Full cfg size q p then
    if cfg.drop_front then ((q ++ [p]).tail, (q ++ [p]).head?.toList) else (q, [p])
  else (q ++ [p], [])

end DropTail

namespace SimplexLink
variable (cfg : LinkConfig) (size : ι → ℤ)

def init (bandwidth delay : ℚ) : SimplexLink ι κ := ⟨.init, [], false, bandwidth, delay, 0, []⟩

def txtime (s : SimplexLink ι κ) (p : ι) : ℚ := 8 * size p / s.bandwidth

/-- `LinkDelay::recv` as far as the packet goes. -/
def sendPacket (s : SimplexLink ι κ) (p : ι) : Option (SimplexLink ι κ) :=
  let txt := s.txtime size p
  if cfg.dynamic then
    (s.scheduler.schedule (.packet p) (txt + s.delay)).map fun scheduler => { s with scheduler, itq := s.itq ++ [p] }
  else if cfg.avoidReordering then
    let now := s.scheduler.clock
    if txt + s.delay < s.latest_time - now ∧ s.latest_time > 0 then
      let latest_time := s.latest_time + txt
      (s.scheduler.schedule (.packet p) (latest_time - now)).map fun scheduler => { s with scheduler, latest_time }
    else
      (s.scheduler.schedule (.packet p) (txt + s.delay)).map fun scheduler =>
        { s with scheduler, latest_time := now + txt + s.delay }
  else (s.scheduler.schedule (.packet p) (txt + s.delay)).map fun scheduler => { s with scheduler }

/-- `LinkDelay::recv` -/
def send (s : SimplexLink ι κ) (p : ι) : Option (SimplexLink ι κ) :=
  (s.sendPacket cfg size p).bind fun s =>
    (s.scheduler.schedule .intr (s.txtime size p)).map fun scheduler => { s with scheduler }

/-- `Queue::recv` -/
def recv (s : SimplexLink ι κ) (p : ι) : Option (SimplexLink ι κ × List (LinkNote ι)) :=
  let r := DropTail.enque cfg size s.q p
  let notes := r.2.map .dropped
  if s.blocked then some ({ s with q := r.1 }, notes)
  else match r.1 with
    | [] => some ({ s with q := [] }, notes)
    | p :: rest => ({ s with q := rest, blocked := true }.send cfg size p).map fun s => (s, notes)

/-- `Queue::resume` -/
def resume (s : SimplexLink ι κ) : Option (SimplexLink ι κ) :=
  match s.q with
  | [] => some { s with blocked := !cfg.unblock_on_resume }
  | p :: rest => { s with q := rest }.send cfg size p

/-- What the handler of a packet does, which is the link itself when it is dynamic. -/
def arrive (s : SimplexLink ι κ) (p : ι) : Option (SimplexLink ι κ × List (LinkNote ι)) :=
  if cfg.dynamic then
    match s.itq with
    | [] => none
    | p' :: rest =>
      if s.scheduler.eventTime (.packet p') = s.scheduler.eventTime (.packet p) then
        some ({ s with itq := rest }, [.delivered p'])
      else none
  else some (s, [.delivered p])

def dispatch (s : SimplexLink ι κ) : Option (SimplexLink ι κ × List (LinkNote ι)) :=
  s.scheduler.dispatch.bind fun r =>
    match r.2 with
    | some (.packet p) => { s with scheduler := r.1 }.arrive cfg p
    | some .intr => ({ s with scheduler := r.1 }.resume cfg size).map fun s => (s, [])
    | _ => some ({ s with scheduler := r.1 }, [])

/-- The loop of `LinkDelay::reset`. -/
def cancelAll (scheduler : Scheduler (LinkEvent ι κ)) : List ι → Option (Scheduler (LinkEvent ι κ))
  | [] => some scheduler
  | p :: rest => (scheduler.cancel (.packet p)).bind fun scheduler => cancelAll scheduler rest

/-- `LinkDelay::reset`; there is no `itq_` unless the link is dynamic. -/
def resetLink (s : SimplexLink ι κ) : Option (SimplexLink ι κ × List (LinkNote ι)) :=
  if cfg.dynamic then
    (cancelAll s.scheduler s.itq).map fun scheduler => ({ s with scheduler, itq := [] }, s.itq.map .dropped)
  else some (s, [])

def step (s : SimplexLink ι κ) : LinkCall ι κ → Option (SimplexLink ι κ × List (LinkNote ι))
  | .recv p => s.recv cfg size p
  | .dispatch => s.dispatch cfg size
  | .schedule e delay => (s.scheduler.schedule (.other e) delay).map fun scheduler => ({ s with scheduler }, [])
  | .setBandwidth bandwidth => some ({ s with bandwidth }, [])
  | .setDelay delay => some ({ s with delay }, [])
  | .resetQueue => some ({ s with q := [] }, s.q.map .dropped)
  | .resetLink => s.resetLink cfg

end SimplexLink

/-! ### The order of the packets -/

namespace LinkConfig

/-- `latest_time_` is in use. -/
def KeepsOrder (cfg : LinkConfig) : Prop := ¬cfg.dynamic ∧ cfg.avoidReordering

instance (cfg : LinkConfig) : Decidable cfg.KeepsOrder := inferInstanceAs (Decidable (_ ∧ _))

end LinkConfig

namespace SimplexLink

/-- The packets on their way, the first to arrive first. -/
def flight (s : SimplexLink ι κ) : List ι := s.scheduler.queue.filterMap LinkEvent.packet?

/-- When the transmission has ended. -/
def freeAt (s : SimplexLink ι κ) : ℚ :=
  if .intr ∈ s.scheduler.queue then s.scheduler.eventTime .intr else s.scheduler.clock

/-- No packet on its way arrives after this time. -/
def horizon (cfg : LinkConfig) (s : SimplexLink ι κ) : ℚ := if cfg.KeepsOrder then s.latest_time else s.freeAt + s.delay

/-- A packet that comes is not in the queue or on its way. The delay is lowered only when `latest_time_` is in use. -/
def Proper (cfg : LinkConfig) (size : ι → ℤ) (s : SimplexLink ι κ) : LinkCall ι κ → Prop
  | .recv p => 0 ≤ size p ∧ p ∉ s.q ∧ .packet p ∉ s.scheduler.queue
  | .schedule e delay => 0 ≤ delay ∧ .other e ∉ s.scheduler.queue
  | .setBandwidth bandwidth => 0 < bandwidth
  | .setDelay delay => 0 ≤ delay ∧ (cfg.KeepsOrder ∨ s.delay ≤ delay)
  | _ => True

instance (cfg : LinkConfig) (size : ι → ℤ) (s : SimplexLink ι κ) :
    ∀ call : LinkCall ι κ, Decidable (s.Proper cfg size call)
  | .recv _ => inferInstanceAs (Decidable (_ ∧ _ ∧ _))
  | .dispatch => instDecidableTrue
  | .schedule _ _ => inferInstanceAs (Decidable (_ ∧ _))
  | .setBandwidth bandwidth => inferInstanceAs (Decidable (0 < bandwidth))
  | .setDelay _ => inferInstanceAs (Decidable (_ ∧ (_ ∨ _)))
  | .resetQueue => instDecidableTrue
  | .resetLink => instDecidableTrue

/-- What holds of the link and the scheduler, whatever the queue does. -/
structure Moves (cfg : LinkConfig) (s : SimplexLink ι κ) : Prop where
  orderly : s.scheduler.Orderly
  clock : 0 ≤ s.scheduler.clock
  bandwidth : 0 < s.bandwidth
  delay : 0 ≤ s.delay
  arrivals : ∀ p, .packet p ∈ s.scheduler.queue → s.scheduler.eventTime (.packet p) ≤ s.horizon cfg
  itq : cfg.dynamic → s.itq = s.flight

variable {cfg : LinkConfig} {size : ι → ℤ} {s : SimplexLink ι κ} {p : ι}

omit [DecidableEq ι] [DecidableEq κ] in
lemma mem_flight : p ∈ s.flight ↔ .packet p ∈ s.scheduler.queue := by
  unfold flight
  rw [List.mem_filterMap]
  constructor
  · rintro ⟨e, he, hp⟩
    cases e with
    | packet p' => exact Option.some.inj hp ▸ he
    | intr => cases hp
    | other e => cases hp
  · exact fun he => ⟨_, he, rfl⟩

/-- A packet that arrives last of all goes to the end of those on their way. -/
lemma flight_schedule {scheduler : Scheduler (LinkEvent ι κ)} {p : ι} {d : ℚ} (h : s.scheduler.Orderly)
    (hp : .packet p ∉ s.scheduler.queue)
    (hlast : ∀ p', .packet p' ∈ s.scheduler.queue → s.scheduler.eventTime (.packet p') ≤ s.scheduler.clock + d)
    (hq : scheduler.queue = insertLast (Function.update s.scheduler.eventTime (.packet p) (s.scheduler.clock + d))
      (.packet p) s.scheduler.queue) : scheduler.queue.filterMap LinkEvent.packet? = s.flight ++ [p] := by
  have hne : ∀ e ∈ s.scheduler.queue, e ≠ .packet p := fun e he => ne_of_mem_of_not_mem he hp
  rw [hq, filterMap_insertLast]
  · rfl
  · refine h.ordered.imp_of_mem fun {e f} he hf hef => ?_
    rwa [Function.update_of_ne (hne e he), Function.update_of_ne (hne f hf)]
  · intro e he hsome
    rw [Function.update_of_ne (hne e he), Function.update_self]
    cases e with
    | packet p' => exact hlast p' he
    | intr => cases hsome
    | other e => cases hsome

variable (size) in
omit [DecidableEq ι] [DecidableEq κ] in
lemma txtime_nonneg (hbandwidth : 0 < s.bandwidth) (hsize : 0 ≤ size p) : 0 ≤ s.txtime size p := by
  have hsize' : (0 : ℚ) ≤ size p := by exact_mod_cast hsize
  unfold txtime
  positivity

namespace Moves

/-- A packet is put on its way with a time that none of the others is after. -/
lemma sendPacket_eq (h : s.Moves cfg) (hsize : 0 ≤ size p) (hfree : .intr ∉ s.scheduler.queue) :
    ∃ d latest_time itq, s.sendPacket cfg size p =
        (s.scheduler.schedule (.packet p) d).map (fun scheduler => { s with scheduler, latest_time, itq }) ∧
      0 ≤ d ∧ (∀ p', .packet p' ∈ s.scheduler.queue → s.scheduler.eventTime (.packet p') ≤ s.scheduler.clock + d) ∧
      (if cfg.KeepsOrder then latest_time = s.scheduler.clock + d else d = s.txtime size p + s.delay) ∧
      (cfg.dynamic → itq = s.itq ++ [p]) := by
  have htxt := txtime_nonneg size h.bandwidth hsize
  have hdelay := h.delay
  have hclock := h.clock
  have hfreeAt : s.freeAt = s.scheduler.clock := if_neg hfree
  have harrivals := h.arrivals
  unfold horizon at harrivals
  rw [hfreeAt] at harrivals
  unfold SimplexLink.sendPacket
  dsimp only
  by_cases hdynamic : cfg.dynamic
  · have hkeeps : ¬cfg.KeepsOrder := fun hkeeps => hkeeps.1 hdynamic
    simp only [if_neg hkeeps] at harrivals ⊢
    rw [if_pos hdynamic]
    refine ⟨_, s.latest_time, s.itq ++ [p], rfl, by positivity, fun p' hp' => ?_, rfl, fun _ => rfl⟩
    exact (harrivals p' hp').trans (by linarith)
  · rw [if_neg hdynamic]
    by_cases havoid : cfg.avoidReordering
    · have hkeeps : cfg.KeepsOrder := ⟨hdynamic, havoid⟩
      simp only [if_pos hkeeps] at harrivals ⊢
      rw [if_pos havoid]
      split_ifs with hlate
      · refine ⟨_, s.latest_time + s.txtime size p, s.itq, rfl, by linarith, fun p' hp' => ?_, by ring,
          fun hd => absurd hd hdynamic⟩
        exact (harrivals p' hp').trans (by linarith)
      · refine ⟨_, s.scheduler.clock + s.txtime size p + s.delay, s.itq, rfl, by positivity, fun p' hp' => ?_, by ring,
          fun hd => absurd hd hdynamic⟩
        refine (harrivals p' hp').trans ?_
        rcases not_and_or.mp hlate with hlate | hlate
        · linarith
        · linarith
    · have hkeeps : ¬cfg.KeepsOrder := fun hkeeps => havoid hkeeps.2
      simp only [if_neg hkeeps] at harrivals ⊢
      rw [if_neg havoid]
      refine ⟨_, s.latest_time, s.itq, rfl, by positivity, fun p' hp' => ?_, rfl, fun hd => absurd hd hdynamic⟩
      exact (harrivals p' hp').trans (by linarith)

variable (size) in
/-- A packet is sent when no transmission is under way. -/
lemma send (h : s.Moves cfg) (hp : .packet p ∉ s.scheduler.queue) (hsize : 0 ≤ size p)
    (hfree : .intr ∉ s.scheduler.queue) :
    ∃ s', s.send cfg size p = some s' ∧ s'.Moves cfg ∧ s'.q = s.q ∧ s'.blocked = s.blocked ∧
      s'.flight = s.flight ++ [p] ∧ .intr ∈ s'.scheduler.queue := by
  obtain ⟨d, latest_time, itq, hsend, hd, hlast, htime, hitq⟩ := h.sendPacket_eq hsize hfree
  obtain ⟨sch, hsch, horderly, hclock, htimes, hqueue⟩ := h.orderly.schedule hp hd
  have htxt := txtime_nonneg size h.bandwidth hsize
  have hmem : ∀ e, e ∈ sch.queue ↔ e = .packet p ∨ e ∈ s.scheduler.queue := fun e => by
    rw [hqueue, (insertLast_perm _ _ _).mem_iff, List.mem_cons]
  have hfree' : .intr ∉ sch.queue := fun hintr => ((hmem _).mp hintr).elim nofun hfree
  obtain ⟨sch', hsch', horderly', hclock', htimes', hqueue'⟩ := horderly.schedule hfree' htxt
  have hmem' : ∀ e, e ∈ sch'.queue ↔ e = .intr ∨ e ∈ sch.queue := fun e => by
    rw [hqueue', (insertLast_perm _ _ _).mem_iff, List.mem_cons]
  have hflight : sch'.queue.filterMap LinkEvent.packet? = s.flight ++ [p] := by
    rw [hqueue', filterMap_insertLast_none _ _ rfl]
    exact flight_schedule h.orderly hp hlast hqueue
  have hintr : LinkEvent.intr ∈ sch'.queue := (hmem' _).mpr (Or.inl rfl)
  refine ⟨{ s with scheduler := sch', latest_time, itq }, ?_, ⟨horderly', ?_, h.bandwidth, h.delay, ?_, ?_⟩, rfl, rfl,
    hflight, hintr⟩
  · unfold SimplexLink.send
    rw [hsend, hsch]
    dsimp only [Option.map_some, Option.bind_some, txtime] at hsch' ⊢
    rw [hsch']
    rfl
  · rw [hclock', hclock]
    exact h.clock
  · have hhorizon : horizon cfg { s with scheduler := sch', latest_time, itq } = s.scheduler.clock + d := by
      unfold horizon freeAt
      rw [if_pos hintr, htimes', Function.update_self, hclock]
      dsimp only
      split_ifs at htime ⊢
      · exact htime
      · rw [htime, add_assoc]
    intro p' hp'
    have hne : LinkEvent.packet p' ≠ (.intr : LinkEvent ι κ) := nofun
    rw [hhorizon]
    dsimp only at hp' ⊢
    rw [htimes', Function.update_of_ne hne, htimes]
    rcases (hmem _).mp (((hmem' _).mp hp').resolve_left hne) with heq | hold
    · rw [heq, Function.update_self]
    · rw [Function.update_of_ne (ne_of_mem_of_not_mem hold hp)]
      exact hlast p' hold
  · exact fun hdynamic => ((hitq hdynamic).trans (congrArg (· ++ [p]) (h.itq hdynamic))).trans hflight.symm

/-- The first event leaves the queue. -/
lemma dispatch (h : s.Moves cfg) {e : LinkEvent ι κ} {rest : List (LinkEvent ι κ)}
    (hq : s.scheduler.queue = e :: rest) :
    ∃ sch, s.scheduler.dispatch = some (sch, some e) ∧ sch.queue = rest ∧ sch.eventTime = s.scheduler.eventTime ∧
      ∀ itq, (cfg.dynamic → itq = rest.filterMap LinkEvent.packet?) →
        Moves cfg { s with scheduler := sch, itq } := by
  obtain ⟨sch, hdispatch, horderly, hclock, htimes, hqueue⟩ := h.orderly.dispatch hq
  have hhead : e ∈ s.scheduler.queue := by rw [hq]; exact List.mem_cons_self
  have hrest : ∀ f ∈ rest, f ∈ s.scheduler.queue := fun f hf => by rw [hq]; exact List.mem_cons_of_mem e hf
  have hnow := h.orderly.ahead e hhead
  refine ⟨sch, hdispatch, hqueue, htimes, fun itq hitq => ⟨horderly, ?_, h.bandwidth, h.delay, fun p hp => ?_, ?_⟩⟩
  · dsimp only
    rw [hclock]
    exact h.clock.trans hnow
  · dsimp only at hp ⊢
    rw [hqueue] at hp
    rw [htimes]
    refine (h.arrivals p (hrest _ hp)).trans ?_
    have hfree : s.freeAt ≤ freeAt { s with scheduler := sch, itq } := by
      unfold freeAt
      dsimp only
      rw [hqueue, hclock, htimes]
      by_cases hintr : .intr ∈ rest
      · rw [if_pos hintr, if_pos (hrest _ hintr)]
      · rw [if_neg hintr]
        split_ifs with hold
        · rw [hq] at hold
          rw [(List.mem_cons.mp hold).resolve_right hintr]
        · exact hnow
    unfold horizon
    split_ifs
    · exact le_rfl
    · exact add_le_add_left hfree s.delay
  · exact fun hdynamic => (hitq hdynamic).trans (by unfold flight; rw [hqueue])

end Moves

/-! ### The packets in the order in which they came -/

/-- The packets that have come. -/
def arrived (calls : List (LinkCall ι κ)) : List ι := calls.filterMap LinkCall.arrival

def delivered (notes : List (LinkNote ι)) : List ι := notes.filterMap LinkNote.deliveredPacket

def dropped (notes : List (LinkNote ι)) : List ι := notes.filterMap LinkNote.droppedPacket

/-- A queue that is not empty stays below its limit; in bytes only as long as it drops at the tail. -/
def WithinLimit (cfg : LinkConfig) (size : ι → ℤ) (q : List ι) : Prop :=
  (¬cfg.qib → q = [] ∨ (q.length : ℤ) < cfg.qlim) ∧
    (cfg.qib → ¬cfg.drop_front → q = [] ∨ DropTail.byteLength size q < cfg.qlim * cfg.mean_pktsize)

omit [DecidableEq ι] in
lemma withinLimit_nil : WithinLimit cfg size [] := ⟨fun _ => Or.inl rfl, fun _ _ => Or.inl rfl⟩

omit [DecidableEq ι] in
lemma WithinLimit.tail {rest : List ι} (h : WithinLimit cfg size (p :: rest)) (hsize : 0 ≤ size p) :
    WithinLimit cfg size rest := by
  constructor
  · intro hqib
    have hlen := (h.1 hqib).resolve_left (List.cons_ne_nil _ _)
    rw [List.length_cons] at hlen
    push_cast at hlen
    exact Or.inr (by omega)
  · intro hqib hfront
    have hbytes := (h.2 hqib hfront).resolve_left (List.cons_ne_nil _ _)
    unfold DropTail.byteLength at hbytes ⊢
    rw [List.map_cons, List.sum_cons] at hbytes
    exact Or.inr (by omega)

end SimplexLink

namespace DropTail
variable (cfg : LinkConfig) (size : ι → ℤ) (q : List ι) (p : ι)

omit [DecidableEq ι] in
lemma enque_perm : ((enque cfg size q p).1 ++ (enque cfg size q p).2).Perm (q ++ [p]) := by
  unfold enque
  split_ifs
  · cases q with
    | nil => exact List.Perm.refl _
    | cons p' rest => exact List.perm_append_comm
  · exact List.Perm.refl _
  · rw [List.append_nil]

omit [DecidableEq ι] in
lemma enque_sublist : (enque cfg size q p).1.Sublist (q ++ [p]) := by
  unfold enque
  split_ifs
  · exact List.tail_sublist _
  · exact List.sublist_append_left q [p]
  · exact List.Sublist.refl _

variable {cfg size q} in
omit [DecidableEq ι] in
lemma enque_within (h : SimplexLink.WithinLimit cfg size q) :
    SimplexLink.WithinLimit cfg size (enque cfg size q p).1 := by
  unfold enque
  split_ifs with hfull hfront
  · constructor
    · intro hqib
      cases q with
      | nil => exact Or.inl rfl
      | cons p' rest =>
        have hlen := (h.1 hqib).resolve_left (List.cons_ne_nil _ _)
        exact Or.inr (by simpa using hlen)
    · exact fun _ hnot => absurd hfront hnot
  · exact h
  · obtain ⟨hpackets, hbytes⟩ := not_or.mp hfull
    constructor
    · intro hqib
      have hroom : ¬(q.length : ℤ) + 1 ≥ cfg.qlim := fun hge => hpackets ⟨hqib, hge⟩
      exact Or.inr (by simpa using hroom)
    · intro hqib _
      have hroom : ¬byteLength size q + size p ≥ cfg.qlim * cfg.mean_pktsize := fun hge => hbytes ⟨hqib, hge⟩
      exact Or.inr (by simpa [byteLength] using hroom)

end DropTail

namespace SimplexLink
variable {cfg : LinkConfig} {size : ι → ℤ} {s : SimplexLink ι κ} {calls : List (LinkCall ι κ)}
  {notes : List (LinkNote ι)}

/-- Every packet that has come has been delivered or dropped, is on its way or in the queue. -/
structure Books (cfg : LinkConfig) (size : ι → ℤ) (s : SimplexLink ι κ) (calls : List (LinkCall ι κ))
    (notes : List (LinkNote ι)) : Prop where
  moves : s.Moves cfg
  sizes : ∀ p ∈ s.q, 0 ≤ size p
  apart : ∀ p ∈ s.q, .packet p ∉ s.scheduler.queue
  nodup : s.q.Nodup
  order : (delivered notes ++ s.flight ++ s.q).Sublist (arrived calls)
  all : (delivered notes ++ s.flight ++ s.q ++ dropped notes).Perm (arrived calls)
  limit : WithinLimit cfg size s.q

/-- The queue is blocked while a packet is transmitted. -/
structure Flows (cfg : LinkConfig) (size : ι → ℤ) (s : SimplexLink ι κ) (calls : List (LinkCall ι κ))
    (notes : List (LinkNote ι)) : Prop extends Books cfg size s calls notes where
  busy : .intr ∈ s.scheduler.queue → s.blocked = true
  unblocked : cfg.unblock_on_resume = true → s.blocked = true → .intr ∈ s.scheduler.queue
  idle : s.blocked = false → s.q = []

lemma Moves.inQueue (h : s.Moves cfg) (q : List ι) (blocked : Bool) : Moves cfg { s with q, blocked } :=
  ⟨h.orderly, h.clock, h.bandwidth, h.delay, h.arrivals, h.itq⟩

/-- The head of the queue goes on its way when no other packet is transmitted. -/
lemma Books.handOver (h : s.Books cfg size calls notes) {p : ι} {rest : List ι} (hq : s.q = p :: rest)
    (hfree : .intr ∉ s.scheduler.queue) :
    ∃ s', { s with q := rest, blocked := true }.send cfg size p = some s' ∧ s'.Flows cfg size calls notes := by
  have hhead : p ∈ s.q := by rw [hq]; exact List.mem_cons_self
  have hrest : ∀ p' ∈ rest, p' ∈ s.q := fun p' hp' => by rw [hq]; exact List.mem_cons_of_mem p hp'
  have hnodup := h.nodup
  rw [hq, List.nodup_cons] at hnodup
  obtain ⟨s', hsend, hmoves, hq', hblocked, hflight, hintr⟩ :=
    (h.moves.inQueue rest true).send size (h.apart p hhead) (h.sizes p hhead) hfree
  have hline : delivered notes ++ s'.flight ++ s'.q = delivered notes ++ s.flight ++ s.q := by
    rw [hflight, hq', hq, List.append_assoc, List.append_assoc, List.append_assoc]
    rfl
  refine ⟨s', hsend, ⟨⟨hmoves, ?_, ?_, ?_, ?_, ?_, ?_⟩, fun _ => hblocked, fun _ _ => hintr, fun hfalse => ?_⟩⟩
  · rw [hq']
    exact fun p' hp' => h.sizes p' (hrest p' hp')
  · rw [hq']
    intro p' hp' hmem
    have hp'' := mem_flight.mpr hmem
    rw [hflight] at hp''
    rcases List.mem_append.mp hp'' with hold | hnew
    · exact h.apart p' (hrest p' hp') (mem_flight.mp hold)
    · exact hnodup.1 (List.mem_singleton.mp hnew ▸ hp')
  · rw [hq']
    exact hnodup.2
  · rw [hline]
    exact h.order
  · rw [hline]
    exact h.all
  · rw [hq']
    have hlimit := h.limit
    rw [hq] at hlimit
    exact hlimit.tail (h.sizes p hhead)
  · rw [hblocked] at hfalse
    cases hfalse

omit [DecidableEq ι] [DecidableEq κ] in
@[simp] lemma delivered_append (notes notes' : List (LinkNote ι)) :
    delivered (notes ++ notes') = delivered notes ++ delivered notes' := List.filterMap_append

omit [DecidableEq ι] [DecidableEq κ] in
@[simp] lemma dropped_append (notes notes' : List (LinkNote ι)) :
    dropped (notes ++ notes') = dropped notes ++ dropped notes' := List.filterMap_append

omit [DecidableEq ι] [DecidableEq κ] in
@[simp] lemma delivered_map_dropped (l : List ι) : delivered (l.map .dropped) = [] := by
  apply List.filterMap_eq_nil_iff.mpr
  intro note hnote
  obtain ⟨p, -, rfl⟩ := List.mem_map.mp hnote
  rfl

omit [DecidableEq ι] [DecidableEq κ] in
@[simp] lemma dropped_map_dropped (l : List ι) : dropped (l.map .dropped) = l := by
  unfold dropped
  rw [List.filterMap_map]
  exact List.filterMap_some

omit [DecidableEq ι] [DecidableEq κ] in
lemma arrived_append (calls : List (LinkCall ι κ)) (call : LinkCall ι κ) :
    arrived (calls ++ [call]) = arrived calls ++ call.arrival.toList := by
  unfold arrived
  rw [List.filterMap_append]
  cases call <;> rfl

namespace Flows

lemma recv (h : s.Flows cfg size calls notes) {p : ι} (hproper : s.Proper cfg size (.recv p)) :
    ∃ s' o, s.recv cfg size p = some (s', o) ∧ s'.Flows cfg size (calls ++ [.recv p]) (notes ++ o) := by
  obtain ⟨hsize, hqueue, hflight⟩ := hproper
  have hperm := DropTail.enque_perm cfg size s.q p
  have hsublist := DropTail.enque_sublist cfg size s.q p
  have hwithin := DropTail.enque_within p h.limit
  unfold SimplexLink.recv
  dsimp only
  generalize DropTail.enque cfg size s.q p = r at hperm hsublist hwithin ⊢
  have hmem : ∀ p' ∈ r.1, p' ∈ s.q ∨ p' = p := fun p' hp' => by
    simpa using hsublist.subset hp'
  have hbooks : Books cfg size { s with q := r.1 } (calls ++ [.recv p]) (notes ++ r.2.map .dropped) := by
    constructor
    · exact h.moves.inQueue r.1 s.blocked
    · intro p' hp'
      rcases hmem p' hp' with hold | rfl
      · exact h.sizes p' hold
      · exact hsize
    · intro p' hp'
      rcases hmem p' hp' with hold | rfl
      · exact h.apart p' hold
      · exact hflight
    · apply List.Nodup.sublist hsublist
      rw [List.nodup_append]
      refine ⟨h.nodup, List.nodup_singleton p, fun p' hp' p'' hp'' => ?_⟩
      rw [List.mem_singleton.mp hp'']
      exact ne_of_mem_of_not_mem hp' hqueue
    · rw [delivered_append, delivered_map_dropped, List.append_nil, arrived_append]
      have hline := h.order.append_right [p]
      rw [List.append_assoc] at hline
      exact (hsublist.append_left (delivered notes ++ s.flight)).trans hline
    · rw [delivered_append, delivered_map_dropped, List.append_nil, dropped_append, dropped_map_dropped, arrived_append]
      have hmoved : (r.1 ++ (dropped notes ++ r.2)).Perm (s.q ++ dropped notes ++ [p]) := calc
        (r.1 ++ (dropped notes ++ r.2)).Perm (r.1 ++ (r.2 ++ dropped notes)) := List.perm_append_comm.append_left _
        _ = r.1 ++ r.2 ++ dropped notes := (List.append_assoc _ _ _).symm
        List.Perm _ (s.q ++ [p] ++ dropped notes) := hperm.append_right _
        _ = s.q ++ ([p] ++ dropped notes) := List.append_assoc _ _ _
        List.Perm _ (s.q ++ (dropped notes ++ [p])) := List.perm_append_comm.append_left _
        _ = s.q ++ dropped notes ++ [p] := (List.append_assoc _ _ _).symm
      have hall := h.all.append_right [p]
      rw [List.append_assoc (delivered notes ++ s.flight), List.append_assoc (delivered notes ++ s.flight)] at hall
      rw [List.append_assoc (delivered notes ++ _)]
      exact (hmoved.append_left _).trans hall
    · exact hwithin
  by_cases hblocked : s.blocked
  · rw [if_pos hblocked]
    refine ⟨_, _, rfl, ⟨hbooks, h.busy, h.unblocked, fun hfalse => ?_⟩⟩
    dsimp only at hfalse
    rw [hblocked] at hfalse
    cases hfalse
  · rw [if_neg hblocked]
    have hfree : .intr ∉ s.scheduler.queue := fun hintr => hblocked (h.busy hintr)
    cases hr : r.1 with
    | nil =>
      rw [hr] at hbooks
      exact ⟨_, _, rfl, ⟨hbooks, h.busy, h.unblocked, fun _ => rfl⟩⟩
    | cons p' rest =>
      obtain ⟨s', hsend, hflows⟩ := hbooks.handOver hr hfree
      exact ⟨s', _, congrArg (Option.map _) hsend, hflows⟩

/-- The end of a transmission. -/
lemma resume (h : s.Books cfg size calls notes) (hblocked : s.blocked = true) (hfree : .intr ∉ s.scheduler.queue) :
    ∃ s', s.resume cfg size = some s' ∧ s'.Flows cfg size calls notes := by
  unfold SimplexLink.resume
  cases hq : s.q with
  | nil =>
    have hbooks : Books cfg size { s with q := [], blocked := !cfg.unblock_on_resume } calls notes := by
      rw [← hq]
      exact ⟨h.moves.inQueue s.q _, h.sizes, h.apart, h.nodup, h.order, h.all, h.limit⟩
    refine ⟨_, rfl, ⟨hbooks, fun hintr => absurd hintr hfree, fun hunblock hfalse => ?_, fun _ => rfl⟩⟩
    dsimp only at hfalse
    rw [hunblock] at hfalse
    cases hfalse
  | cons p rest =>
    obtain ⟨s', hsend, hflows⟩ := h.handOver hq hfree
    rw [← hblocked] at hsend
    exact ⟨s', hsend, hflows⟩

/-- What the packets do not see. -/
lemma of_flight (h : s.Flows cfg size calls notes) {s' : SimplexLink ι κ} (hmoves : s'.Moves cfg) (hq : s'.q = s.q)
    (hblocked : s'.blocked = s.blocked) (hflight : s'.flight = s.flight)
    (hintr : .intr ∈ s'.scheduler.queue ↔ .intr ∈ s.scheduler.queue) : s'.Flows cfg size calls notes := by
  refine ⟨⟨hmoves, ?_, ?_, ?_, ?_, ?_, ?_⟩, ?_, ?_, ?_⟩
  · rw [hq]
    exact h.sizes
  · rw [hq]
    intro p hp hmem
    exact h.apart p hp (mem_flight.mp (hflight ▸ mem_flight.mpr hmem))
  · rw [hq]
    exact h.nodup
  · rw [hflight, hq]
    exact h.order
  · rw [hflight, hq]
    exact h.all
  · rw [hq]
    exact h.limit
  · rw [hblocked]
    exact fun hi => h.busy (hintr.mp hi)
  · rw [hblocked]
    exact fun hunblock hb => hintr.mpr (h.unblocked hunblock hb)
  · rw [hblocked, hq]
    exact h.idle

/-- The books after an event that is no packet has left the queue of events. -/
lemma afterEvent (h : s.Flows cfg size calls notes) {e : LinkEvent ι κ} {rest : List (LinkEvent ι κ)}
    (hq : s.scheduler.queue = e :: rest) (he : e.packet? = none) {sch : Scheduler (LinkEvent ι κ)}
    (hrest : sch.queue = rest)
    (hmoves : ∀ itq, (cfg.dynamic → itq = rest.filterMap LinkEvent.packet?) →
      Moves cfg { s with scheduler := sch, itq }) :
    Books cfg size { s with scheduler := sch } calls notes := by
  have hflight : s.flight = rest.filterMap LinkEvent.packet? := by
    unfold flight
    rw [hq, List.filterMap_cons_none he]
  have hflight' : flight { s with scheduler := sch } = s.flight := by
    rw [hflight]
    unfold flight
    rw [hrest]
  have hitq : cfg.dynamic → s.itq = rest.filterMap LinkEvent.packet? := fun hdynamic =>
    (h.moves.itq hdynamic).trans hflight
  refine ⟨hmoves s.itq hitq, h.sizes, fun p hp hmem => ?_, h.nodup, ?_, ?_, h.limit⟩
  · dsimp only at hmem
    rw [hrest] at hmem
    exact h.apart p hp (by rw [hq]; exact List.mem_cons_of_mem e hmem)
  · rw [hflight']
    exact h.order
  · rw [hflight']
    exact h.all

/-- The first packet on its way arrives. -/
lemma arrive (h : s.Flows cfg size calls notes) {p : ι} {rest : List (LinkEvent ι κ)}
    (hq : s.scheduler.queue = .packet p :: rest) {sch : Scheduler (LinkEvent ι κ)} (hrest : sch.queue = rest)
    (hmoves : ∀ itq, (cfg.dynamic → itq = rest.filterMap LinkEvent.packet?) →
      Moves cfg { s with scheduler := sch, itq }) :
    ∃ s' o, { s with scheduler := sch }.arrive cfg p = some (s', o) ∧ s'.Flows cfg size calls (notes ++ o) := by
  have hflight : s.flight = p :: rest.filterMap LinkEvent.packet? := by
    unfold flight
    rw [hq]
    rfl
  have hintr : LinkEvent.intr ∈ s.scheduler.queue ↔ .intr ∈ rest := by
    rw [hq, List.mem_cons, or_iff_right nofun]
  have hline : delivered (notes ++ [.delivered p]) ++ rest.filterMap LinkEvent.packet? =
      delivered notes ++ s.flight := by
    rw [delivered_append, hflight]
    exact List.append_assoc _ [p] _
  have hbooks : ∀ itq, (cfg.dynamic → itq = rest.filterMap LinkEvent.packet?) →
      Flows cfg size { s with scheduler := sch, itq } calls (notes ++ [.delivered p]) := by
    intro itq hitq
    have hflight' : flight { s with scheduler := sch, itq } = rest.filterMap LinkEvent.packet? := by
      unfold flight
      rw [hrest]
    refine ⟨⟨hmoves itq hitq, h.sizes, fun p' hp' hmem => ?_, h.nodup, ?_, ?_, h.limit⟩, ?_, ?_, h.idle⟩
    · dsimp only at hmem
      rw [hrest] at hmem
      exact h.apart p' hp' (by rw [hq]; exact List.mem_cons_of_mem _ hmem)
    · rw [hflight', hline]
      exact h.order
    · rw [hflight', hline, dropped_append]
      exact (List.append_nil (dropped notes)).symm ▸ h.all
    · dsimp only
      rw [hrest]
      exact fun hmem => h.busy (hintr.mpr hmem)
    · dsimp only
      rw [hrest]
      exact fun hunblock hblocked => hintr.mp (h.unblocked hunblock hblocked)
  unfold SimplexLink.arrive
  by_cases hdynamic : cfg.dynamic
  · have hitq := h.moves.itq hdynamic
    rw [hflight] at hitq
    rw [if_pos hdynamic]
    dsimp only
    rw [hitq]
    dsimp only
    rw [if_pos rfl]
    exact ⟨_, _, rfl, hbooks _ fun _ => rfl⟩
  · rw [if_neg hdynamic]
    exact ⟨_, _, rfl, hbooks s.itq fun hd => absurd hd hdynamic⟩

lemma dispatch (h : s.Flows cfg size calls notes) :
    ∃ s' o, s.dispatch cfg size = some (s', o) ∧ s'.Flows cfg size calls (notes ++ o) := by
  unfold SimplexLink.dispatch
  cases hq : s.scheduler.queue with
  | nil =>
    have hnone : s.scheduler.dispatch = some (s.scheduler, none) := by
      unfold Scheduler.dispatch
      rw [hq]
    rw [hnone]
    exact ⟨s, [], rfl, (List.append_nil notes).symm ▸ h⟩
  | cons e rest =>
    obtain ⟨sch, hdispatch, hrest, -, hmoves⟩ := h.moves.dispatch hq
    have hnodup := h.moves.orderly.nodup
    rw [hq, List.nodup_cons] at hnodup
    rw [hdispatch]
    dsimp only [Option.bind_some]
    cases e with
    | packet p => exact h.arrive hq hrest hmoves
    | intr =>
      have hblocked : s.blocked = true := h.busy (by rw [hq]; exact List.mem_cons_self)
      have hfree : LinkEvent.intr ∉ sch.queue := by
        rw [hrest]
        exact hnodup.1
      obtain ⟨s', hresume, hflows⟩ := resume (h.afterEvent hq rfl hrest hmoves) hblocked hfree
      exact ⟨s', [], congrArg (Option.map _) hresume, (List.append_nil notes).symm ▸ hflows⟩
    | other e =>
      have hintr : LinkEvent.intr ∈ s.scheduler.queue ↔ .intr ∈ sch.queue := by
        rw [hq, hrest, List.mem_cons, or_iff_right nofun]
      refine ⟨_, [], rfl, (List.append_nil notes).symm ▸ ⟨h.afterEvent hq rfl hrest hmoves, ?_, ?_, h.idle⟩⟩
      · exact fun hmem => h.busy (hintr.mpr hmem)
      · exact fun hunblock hblocked => hintr.mp (h.unblocked hunblock hblocked)

/-- Another event is scheduled. -/
lemma schedule (h : s.Flows cfg size calls notes) {e : κ} {d : ℚ} (hproper : s.Proper cfg size (.schedule e d)) :
    ∃ sch, s.scheduler.schedule (.other e) d = some sch ∧ Flows cfg size { s with scheduler := sch } calls notes := by
  obtain ⟨hd, hnew⟩ := hproper
  obtain ⟨sch, hsch, horderly, hclock, htimes, hqueue⟩ := h.moves.orderly.schedule hnew hd
  have hmem : ∀ f, f ∈ sch.queue ↔ f = .other e ∨ f ∈ s.scheduler.queue := fun f => by
    rw [hqueue, (insertLast_perm _ _ _).mem_iff, List.mem_cons]
  have hintrNe : LinkEvent.intr ≠ (.other e : LinkEvent ι κ) := nofun
  have hpacketNe : ∀ p, LinkEvent.packet p ≠ (.other e : LinkEvent ι κ) := nofun
  have hintr : LinkEvent.intr ∈ sch.queue ↔ .intr ∈ s.scheduler.queue := (hmem _).trans (or_iff_right hintrNe)
  have hpacket : ∀ p, LinkEvent.packet p ∈ sch.queue ↔ .packet p ∈ s.scheduler.queue := fun p =>
    (hmem _).trans (or_iff_right (hpacketNe p))
  have hflight : flight { s with scheduler := sch } = s.flight := by
    unfold flight
    dsimp only
    rw [hqueue]
    exact filterMap_insertLast_none _ _ rfl
  have hhorizon : horizon cfg { s with scheduler := sch } = s.horizon cfg := by
    unfold horizon freeAt
    dsimp only
    rw [hclock, htimes, Function.update_of_ne hintrNe]
    simp only [hintr]
  refine ⟨sch, hsch, h.of_flight ⟨horderly, ?_, h.moves.bandwidth, h.moves.delay, fun p hp => ?_, ?_⟩ rfl rfl hflight
    hintr⟩
  · dsimp only
    rw [hclock]
    exact h.moves.clock
  · rw [hhorizon]
    dsimp only
    rw [htimes, Function.update_of_ne (hpacketNe p)]
    exact h.moves.arrivals p ((hpacket p).mp hp)
  · exact fun hdynamic => (h.moves.itq hdynamic).trans hflight.symm

lemma resetQueue (h : s.Flows cfg size calls notes) :
    Flows cfg size { s with q := [] } calls (notes ++ s.q.map .dropped) := by
  refine ⟨⟨h.moves.inQueue [] s.blocked, fun _ hp => absurd hp List.not_mem_nil, fun _ hp => absurd hp List.not_mem_nil,
    List.nodup_nil, ?_, ?_, withinLimit_nil⟩, h.busy, h.unblocked, fun _ => rfl⟩
  · rw [delivered_append, delivered_map_dropped, List.append_nil, List.append_nil]
    exact (List.sublist_append_left _ _).trans h.order
  · rw [delivered_append, delivered_map_dropped, dropped_append, dropped_map_dropped, List.append_nil]
    have hall := h.all
    rw [List.append_assoc (delivered notes ++ s.flight)] at hall
    rw [List.append_nil]
    exact (List.perm_append_comm.append_left _).trans hall

end Flows

/-- Every packet of the list is taken out of the queue of events. -/
lemma cancelAll_eq (l : List ι) {sch : Scheduler (LinkEvent ι κ)} (h : sch.Orderly) :
    ∃ sch', cancelAll sch l = some sch' ∧ sch'.Orderly ∧ sch'.clock = sch.clock ∧ sch'.eventTime = sch.eventTime ∧
      ∀ e, e ∈ sch'.queue ↔ e ∈ sch.queue ∧ ∀ p ∈ l, e ≠ .packet p := by
  induction l generalizing sch with
  | nil => exact ⟨sch, rfl, h, rfl, rfl, fun e => (and_iff_left fun _ hp => absurd hp List.not_mem_nil).symm⟩
  | cons p rest ih =>
    obtain ⟨sch₁, hcancel, horderly, hclock, htimes, hqueue⟩ := h.cancel (.packet p)
    obtain ⟨sch₂, hrest, horderly', hclock', htimes', hmem⟩ := ih horderly
    refine ⟨sch₂, ?_, horderly', hclock'.trans hclock, htimes'.trans htimes, fun e => ?_⟩
    · rw [cancelAll, hcancel]
      exact hrest
    · rw [hmem, hqueue, h.nodup.mem_erase_iff, List.forall_mem_cons, and_assoc]
      exact and_left_comm

/-- The packets on their way are lost when a dynamic link goes down. -/
lemma Flows.resetLink (h : s.Flows cfg size calls notes) :
    ∃ s' o, s.resetLink cfg = some (s', o) ∧ s'.Flows cfg size calls (notes ++ o) := by
  unfold SimplexLink.resetLink
  by_cases hdynamic : cfg.dynamic
  · rw [if_pos hdynamic]
    have hitq := h.moves.itq hdynamic
    obtain ⟨sch, hcancel, horderly, hclock, htimes, hmem⟩ := cancelAll_eq s.itq h.moves.orderly
    have hempty : flight { s with scheduler := sch, itq := [] } = [] := by
      apply List.eq_nil_iff_forall_not_mem.mpr
      intro p hp
      obtain ⟨hold, hother⟩ := (hmem _).mp (mem_flight.mp hp)
      exact hother p (hitq ▸ mem_flight.mpr hold) rfl
    have hintr : LinkEvent.intr ∈ sch.queue ↔ .intr ∈ s.scheduler.queue :=
      (hmem _).trans (and_iff_left fun p _ => (nofun : LinkEvent.intr ≠ .packet p))
    rw [hcancel]
    have hmoves : Moves cfg { s with scheduler := sch, itq := [] } := by
      refine ⟨horderly, ?_, h.moves.bandwidth, h.moves.delay, fun p hp => ?_, fun _ => hempty.symm⟩
      · dsimp only
        rw [hclock]
        exact h.moves.clock
      · have hp := mem_flight.mpr hp
        rw [hempty] at hp
        exact absurd hp List.not_mem_nil
    refine ⟨_, _, rfl, ⟨⟨hmoves, h.sizes, fun p hp hpacket => h.apart p hp ((hmem _).mp hpacket).1, h.nodup, ?_, ?_,
      h.limit⟩, ?_, ?_, h.idle⟩⟩
    · rw [hempty, delivered_append, delivered_map_dropped, List.append_nil, List.append_nil]
      exact ((List.sublist_append_left _ _).append_right s.q).trans h.order
    · rw [hempty, delivered_append, delivered_map_dropped, dropped_append, dropped_map_dropped, List.append_nil,
        List.append_nil, hitq]
      have hmoved : (s.q ++ (dropped notes ++ s.flight)).Perm (s.flight ++ (s.q ++ dropped notes)) := by
        rw [← List.append_assoc]
        exact List.perm_append_comm
      have hall := h.all
      rw [List.append_assoc, List.append_assoc] at hall
      rw [List.append_assoc]
      exact (hmoved.append_left _).trans hall
    · exact fun hi => h.busy (hintr.mp hi)
    · exact fun hunblock hblocked => hintr.mpr (h.unblocked hunblock hblocked)
  · rw [if_neg hdynamic]
    exact ⟨s, [], rfl, (List.append_nil notes).symm ▸ h⟩

/-! ### Runs -/

lemma flows_init {bandwidth delay : ℚ} (hbandwidth : 0 < bandwidth) (hdelay : 0 ≤ delay) :
    (init bandwidth delay : SimplexLink ι κ).Flows cfg size [] [] := by
  have hempty : ∀ e : LinkEvent ι κ, e ∉ (init bandwidth delay : SimplexLink ι κ).scheduler.queue := fun _ =>
    List.not_mem_nil
  refine ⟨⟨⟨Scheduler.orderly_init, le_rfl, hbandwidth, hdelay, fun p hp => absurd hp (hempty _), fun _ => rfl⟩,
    fun _ hp => absurd hp List.not_mem_nil, fun _ hp => absurd hp List.not_mem_nil, List.nodup_nil, List.Sublist.refl _,
    List.Perm.refl _, withinLimit_nil⟩, fun hintr => absurd hintr (hempty _), fun _ hblocked => ?_, fun _ => rfl⟩
  cases hblocked

/-- One call keeps the books. -/
lemma Flows.step (h : s.Flows cfg size calls notes) {call : LinkCall ι κ} (hproper : s.Proper cfg size call) :
    ∃ s' o, s.step cfg size call = some (s', o) ∧ s'.Flows cfg size (calls ++ [call]) (notes ++ o) := by
  have harrived (hcall : call.arrival = none) : arrived (calls ++ [call]) = arrived calls := by
    rw [arrived_append, hcall]
    exact List.append_nil _
  have hsame {s' : SimplexLink ι κ} {notes' : List (LinkNote ι)} (hcall : call.arrival = none)
      (h' : s'.Flows cfg size calls notes') : s'.Flows cfg size (calls ++ [call]) notes' := by
    refine ⟨⟨h'.moves, h'.sizes, h'.apart, h'.nodup, ?_, ?_, h'.limit⟩, h'.busy, h'.unblocked, h'.idle⟩
    · rw [harrived hcall]
      exact h'.order
    · rw [harrived hcall]
      exact h'.all
  have hsilent {s' : SimplexLink ι κ} (hcall : call.arrival = none) (h' : s'.Flows cfg size calls notes) :
      s'.Flows cfg size (calls ++ [call]) (notes ++ []) := hsame hcall ((List.append_nil notes).symm ▸ h')
  cases call with
  | recv p => exact h.recv hproper
  | dispatch =>
    obtain ⟨s', o, hstep, hflows⟩ := h.dispatch
    exact ⟨s', o, hstep, hsame rfl hflows⟩
  | schedule e d =>
    obtain ⟨sch, hschedule, hflows⟩ := h.schedule hproper
    exact ⟨_, [], congrArg (Option.map _) hschedule, hsilent rfl hflows⟩
  | setBandwidth bandwidth =>
    have hmoves : Moves cfg { s with bandwidth } :=
      ⟨h.moves.orderly, h.moves.clock, hproper, h.moves.delay, h.moves.arrivals, h.moves.itq⟩
    exact ⟨_, [], rfl, hsilent rfl (h.of_flight hmoves rfl rfl rfl Iff.rfl)⟩
  | setDelay delay =>
    have harrivals : ∀ p, .packet p ∈ s.scheduler.queue →
        s.scheduler.eventTime (.packet p) ≤ horizon cfg { s with delay } := by
      intro p hp
      refine (h.moves.arrivals p hp).trans ?_
      unfold horizon
      split_ifs with hkeeps
      · exact le_rfl
      · exact add_le_add_right (hproper.2.resolve_left hkeeps) s.freeAt
    have hmoves : Moves cfg { s with delay } :=
      ⟨h.moves.orderly, h.moves.clock, h.moves.bandwidth, hproper.1, harrivals, h.moves.itq⟩
    exact ⟨_, [], rfl, hsilent rfl (h.of_flight hmoves rfl rfl rfl Iff.rfl)⟩
  | resetQueue => exact ⟨_, _, rfl, hsame rfl h.resetQueue⟩
  | resetLink =>
    obtain ⟨s', o, hstep, hflows⟩ := h.resetLink
    exact ⟨s', o, hstep, hsame rfl hflows⟩

/-- The first packet is still on its way when the link becomes slower and the queue fills up. -/
def slower : List (LinkCall ℕ Unit) :=
  [.recv 1, .recv 2, .schedule () 1, .setBandwidth 500, .recv 3, .recv 4, .dispatch, .setDelay 2, .dispatch, .dispatch]

end SimplexLink

end NetworkSimulator
