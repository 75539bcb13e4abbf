import Mathlib.Data.Prod.Lex
import Mathlib.Order.Lex
import NetworkSimulator.Library.Broadcast
import NetworkSimulator.Library.Routes
import NetworkSimulator.Wfrp.Received

/-!
# WFRP routes have no cycles while the hop count does not wrap

A node that has passed on a round keeps it or a newer one, at no more hops than it has told. So the
pair of round and hop count gets better along next hops, as long as no beacon leaves a node with a
hop count that is back at zero. The check of the time to live does not prevent that: the packet is
sent all the same.
-/

namespace NetworkSimulator.Wfrp
open Library

/-- What a node does by itself: a sink sends a beacon, the cache is purged, a packet comes from above. -/
inductive Act
  | sendBeacon (size : ℕ)
  | rtPurge (now : ℚ)
  | data (p : Packet) (now r : ℚ)

def agents : Agents ℤ Agent Packet Act (ℚ × ℚ) where
  act _ s
    | .sendBeacon size => some ((s.sendBeacon size).1, [(s.sendBeacon size).2])
    | .rtPurge now => some (s.rtPurge now, [])
    | .data p now r =>
      if p.ptype = .PT_WFRP then none else (s.recv p now r).map fun x => (x.1, Agent.sent x.2)
  receive _ s p x := (s.recv p x.1 x.2).map fun x => (x.1, Agent.sent x.2)

/-- Nodes that have not heard anything. -/
def start : Medium ℤ Agent Packet :=
  ⟨fun n => { index := n }, []⟩

def NextHop (w : Medium ℤ Agent Packet) (sink n m : ℤ) : Prop :=
  ∃ rt, (w.node n).rtLookup sink = some rt ∧ rt.nexthop = m

/-- The beacons that are passed on have a hop count below 255. -/
def HopsFit (w : Medium ℤ Agent Packet) : MediumEvent ℤ Act (ℚ × ℚ) → Prop
  | .deliver k n _ => ∀ p ∈ w.air[k]?, Agent.IsBeacon p → p.beacon.src ≠ n → (w.node n).NewRound p →
      p.beacon.hops + 1 < 2 ^ 8
  | _ => True

section Invariant
variable {σ : ℤ → Agent} {s s' : Agent} {p : Packet} {now : ℚ} {n m sink : ℤ} {id hops : ℕ} {out : List Packet}

/-- An entry of a newer round, or of the same with fewer hops. -/
def Better (rt : RouteCache) (id hops : ℕ) : Prop :=
  id < rt.seqno ∨ id = rt.seqno ∧ rt.hopcount < hops

/-- `m` is the sink or has something better to offer. -/
def Beyond (σ : ℤ → Agent) (sink m : ℤ) (id hops : ℕ) : Prop :=
  m = sink ∨ ∃ rt, (σ m).rtLookup sink = some rt ∧ Better rt id hops

structure Ordered (σ : ℤ → Agent) : Prop where
  index : ∀ n, (σ n).index = n
  entry : ∀ n sink rt, (σ n).rtLookup sink = some rt →
    n ≠ sink ∧ Beyond σ sink rt.nexthop rt.seqno rt.hopcount

def Offers (σ : ℤ → Agent) (p : Packet) : Prop :=
  Agent.IsBeacon p → Beyond σ p.beacon.src p.saddr p.beacon.id p.beacon.hops

/-- The entries of a node only get better. -/
def Improves (s s' : Agent) : Prop :=
  ∀ sink rt, s.rtLookup sink = some rt → ∃ rt', s'.rtLookup sink = some rt' ∧
    ∀ id hops, Better rt id hops → Better rt' id hops

lemma Beyond.update (h : Beyond σ sink m id hops) (hs : Improves (σ n) s) :
    Beyond (Function.update σ n s) sink m id hops := by
  rcases h with rfl | ⟨rt, hrt, hbetter⟩
  · exact Or.inl rfl
  · right
    by_cases hm : m = n
    · subst hm
      obtain ⟨rt', hrt', hkeep⟩ := hs sink rt hrt
      exact ⟨rt', by simpa using hrt', hkeep id hops hbetter⟩
    · exact ⟨rt, by simpa [hm] using hrt, hbetter⟩

lemma Agent.Accepts.improves (h : s.Accepts p now s' out) : Improves s s' := by
  intro sink rt hrt
  by_cases hsink : sink = p.beacon.src
  · subst hsink
    refine ⟨_, h.entry, ?_⟩
    intro id hops hbetter
    have hnew := h.takes.2.2 rt hrt
    unfold Better at hbetter ⊢
    dsimp only
    omega
  · exact ⟨rt, (h.others sink hsink).trans hrt, fun _ _ hbetter => hbetter⟩

lemma purge_improves : Improves s (s.rtPurge now) := by
  intro sink rt hrt
  refine ⟨_, by rw [Agent.rtLookup_purge, hrt, Option.map_some], ?_⟩
  intro id hops hbetter
  split_ifs
  · exact hbetter
  · exact hbetter

/-- A change of one node that makes its entries better and keeps the order for them. -/
lemma Ordered.update (h : Ordered σ) (hindex : s.index = n) (hs : Improves (σ n) s)
    (hentry : ∀ sink rt, s.rtLookup sink = some rt →
      n ≠ sink ∧ Beyond σ sink rt.nexthop rt.seqno rt.hopcount) : Ordered (Function.update σ n s) := by
  constructor
  · intro m
    by_cases hm : m = n
    · simp [hm, hindex]
    · simp [hm, h.index m]
  · intro m sink rt hrt
    by_cases hm : m = n
    · subst hm
      obtain ⟨hne, hbeyond⟩ := hentry sink rt (by simpa using hrt)
      exact ⟨hne, hbeyond.update hs⟩
    · obtain ⟨hne, hbeyond⟩ := h.entry m sink rt (by simpa [hm] using hrt)
      exact ⟨hne, hbeyond.update hs⟩

/-- What a beacon does to the node that accepts it. -/
lemma accepts_keeps (h : Ordered σ) (hp : Offers σ p) (ha : (σ n).Accepts p now s out)
    (hfit : out ≠ [] → p.beacon.hops + 1 < 2 ^ 8) : Medium.Keeps Ordered Offers σ n s out := by
  have hne : p.beacon.src ≠ n := fun heq => ha.takes.2.1 (heq.trans (h.index n).symm)
  constructor
  · apply h.update (ha.index.trans (h.index n)) ha.improves
    intro sink rt hrt
    by_cases hsink : sink = p.beacon.src
    · subst hsink
      obtain rfl := Option.some.inj (ha.entry.symm.trans hrt)
      exact ⟨hne.symm, hp ha.takes.1⟩
    · exact h.entry n sink rt ((ha.others sink hsink).symm.trans hrt)
  · intro q hq hbeacon
    exact (hq hbeacon).update ha.improves
  · intro q hq _
    obtain ⟨-, hsaddr, hb⟩ := ha.sent q hq
    have hlt := hfit (List.ne_nil_of_mem hq)
    rw [hb, hsaddr, h.index n]
    refine Or.inr ⟨_, by simpa using ha.entry, Or.inr ⟨rfl, ?_⟩⟩
    dsimp only
    rw [Nat.mod_eq_of_lt hlt]
    exact Nat.lt_succ_self _

lemma act_keeps {e : Act} (h : Ordered σ) (hact : agents.act n (σ n) e = some (s, out)) :
    Medium.Keeps Ordered Offers σ n s out := by
  cases e with
  | sendBeacon size =>
    obtain ⟨rfl, rfl⟩ := Prod.mk.inj (Option.some.inj hact)
    have hsame : Improves (σ n) ((σ n).sendBeacon size).1 :=
      fun _ rt hrt => ⟨rt, hrt, fun _ _ hbetter => hbetter⟩
    constructor
    · exact h.update (h.index n) hsame (h.entry n)
    · intro q hq hbeacon
      exact (hq hbeacon).update hsame
    · intro q hq _
      obtain rfl := List.mem_singleton.mp hq
      exact Or.inl rfl
  | rtPurge now =>
    obtain ⟨rfl, rfl⟩ := Prod.mk.inj (Option.some.inj hact)
    have hindex : ((σ n).rtPurge now).index = n := h.index n
    constructor
    · apply h.update hindex purge_improves
      intro sink rt hrt
      rw [Agent.rtLookup_purge] at hrt
      obtain ⟨rt', hrt', rfl⟩ := Option.map_eq_some_iff.mp hrt
      have hentry := h.entry n sink rt' hrt'
      split_ifs
      · exact hentry
      · exact hentry
    · intro q hq hbeacon
      exact (hq hbeacon).update purge_improves
    · intro q hq
      simp at hq
  | data p now r =>
    unfold agents at hact
    dsimp only at hact
    split_ifs at hact with hwfrp
    obtain ⟨⟨s', fates⟩, hrecv, heq⟩ := Option.map_eq_some_iff.mp hact
    obtain ⟨rfl, rfl⟩ := Prod.mk.inj heq
    generalize hout : Agent.sent fates = out
    cases hout ▸ Agent.received hrecv with
    | kept _ hkept => exact .same h rfl fun q hq hbeacon => absurd hbeacon (hkept q hq)
    | accepted ha => exact absurd ha.takes.1.1 hwfrp

lemma receive_keeps {x : ℚ × ℚ} (h : Ordered σ) (hp : Offers σ p)
    (hfit : Agent.IsBeacon p → p.beacon.src ≠ n → (σ n).NewRound p → p.beacon.hops + 1 < 2 ^ 8)
    (hreceive : agents.receive n (σ n) p x = some (s, out)) : Medium.Keeps Ordered Offers σ n s out := by
  obtain ⟨⟨s', fates⟩, hrecv, heq⟩ := Option.map_eq_some_iff.mp hreceive
  obtain ⟨rfl, rfl⟩ := Prod.mk.inj heq
  generalize hout : Agent.sent fates = out
  cases hout ▸ Agent.received hrecv with
  | kept _ hkept => exact .same h rfl fun q hq hbeacon => absurd hbeacon (hkept q hq)
  | accepted ha =>
    apply accepts_keeps h hp ha
    intro hne
    obtain ⟨q, hq⟩ := List.exists_mem_of_ne_nil out hne
    exact hfit ha.takes.1 (fun heq => ha.takes.2.1 (heq.trans (h.index n).symm)) (ha.sent q hq).1

end Invariant

lemma ordered_start : Medium.Holds Ordered Offers start := by
  constructor
  · exact ⟨fun _ => rfl, fun _ _ _ hrt => by simp [start, Agent.rtLookup] at hrt⟩
  · intro p hp
    simp [start] at hp

lemma Ordered.no_cycle {w : Medium ℤ Agent Packet} (h : Ordered w.node) (sink n : ℤ) :
    ¬Relation.TransGen (NextHop w sink) n n := by
  apply Library.no_cycle (fun n => ∃ rt, (w.node n).rtLookup sink = some rt)
    (fun n => ((w.node n).rtLookup sink).elim (toLex (OrderDual.toDual 0, 0))
      fun rt => toLex (OrderDual.toDual rt.seqno, rt.hopcount)) sink
  · rintro m ⟨rt, hrt, -⟩
    exact (h.entry sink sink rt hrt).1 rfl
  · rintro a b ⟨rt, hrt, rfl⟩
    rcases (h.entry a sink rt hrt).2 with hsink | ⟨rt', hrt', hbetter⟩
    · exact Or.inl hsink
    · refine Or.inr ⟨⟨rt', hrt'⟩, fun _ => ?_⟩
      simp only [hrt, hrt', Option.elim_some, Prod.Lex.toLex_lt_toLex, OrderDual.toDual_lt_toDual]
      rcases hbetter with hlt | ⟨heq, hlt⟩
      · exact Or.inl hlt
      · exact Or.inr ⟨by rw [heq], hlt⟩

instance (w : Medium ℤ Agent Packet) : (ev : MediumEvent ℤ Act (ℚ × ℚ)) → Decidable (HopsFit w ev)
  | .act _ _ => isTrue trivial
  | .deliver k n _ => inferInstanceAs (Decidable (∀ p ∈ w.air[k]?, Agent.IsBeacon p → p.beacon.src ≠ n →
      (w.node n).NewRound p → p.beacon.hops + 1 < 2 ^ 8))
  | .lose _ => isTrue trivial

/-- The sink 0 sends a beacon, and each of the nodes 1 to `n` passes on that of the one before it. -/
def chain (n : ℕ) : List (MediumEvent ℤ Act (ℚ × ℚ)) :=
  .act 0 (.sendBeacon 32) ::
    (List.range n).flatMap fun (k : ℕ) => [.deliver 0 (k + 1 : ℕ) (0, 0), .lose 0]

/-- Where `k` next hops lead from `n`. -/
def follow (w : Medium ℤ Agent Packet) (sink : ℤ) : ℕ → ℤ → Option ℤ
  | 0, n => some n
  | k + 1, n => ((w.node n).rtLookup sink).bind fun rt => follow w sink k rt.nexthop

lemma transGen_of_follow {w : Medium ℤ Agent Packet} {sink n m : ℤ} {k : ℕ}
    (h : follow w sink (k + 1) n = some m) : Relation.TransGen (NextHop w sink) n m := by
  induction k generalizing n with
  | zero =>
    obtain ⟨rt, hrt, hnext⟩ := Option.bind_eq_some_iff.mp h
    exact .single ⟨rt, hrt, Option.some.inj hnext⟩
  | succ k ih =>
    obtain ⟨rt, hrt, hrest⟩ := Option.bind_eq_some_iff.mp h
    exact .head ⟨rt, hrt, rfl⟩ (ih hrest)

end NetworkSimulator.Wfrp
