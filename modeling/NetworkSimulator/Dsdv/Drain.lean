import Mathlib.Algebra.GroupWithZero.Nat
import NetworkSimulator.Dsdv.Queues

/-!
# Draining a queue

The packets that wait for a destination are given to `recv` when there is news of it. When the route stays
broken they are put back on the queue that is being drained, and only their TTL can end that.
-/

namespace NetworkSimulator.Dsdv
open Library

/-- A packet that no number of rounds takes off the queue: the node has sent it itself, or its TTL has run
out before. -/
def Circulates (env : Env) (p : Packet) : Prop :=
  (env.nodeaddr p.saddr = env.myaddr_ ∧ p.num_forwards = 0) ∨
    (env.nodeaddr p.saddr ≠ env.myaddr_ ∧ p.ttl ≤ 0)

/-- The packet has been forwarded or dropped. -/
def Fate.Settled : Fate → Prop
  | .sent _ _ | .dropped _ _ => True
  | _ => False

namespace Agent
variable {env : Env} {now : ℚ} {fuel fuel' : ℕ} {a b : Agent} {p p' : Packet} {dst : NsAddr} {e : Entry}
  {q rest : List Packet} {f : Fate}

/-- What `recv` does to the header of a packet, and whom it drops. -/
lemma header_cases (env : Env) (p : Packet) :
    (∃ f reason, header env p = .error f ∧ f = .dropped f.packet reason ∧ f.packet.uid = p.uid ∧
      ¬Circulates env p) ∨
    ∃ ttl, header env p = .ok { p with ttl := ttl } ∧
      ((Circulates env p ∧ Circulates env { p with ttl := ttl }) ∨
        (¬Circulates env p ∧ ¬Circulates env { p with ttl := ttl } ∧ 0 < ttl ∧ ttl < p.ttl)) := by
  unfold header Circulates
  dsimp only
  by_cases hsrc : env.nodeaddr p.saddr = env.myaddr_
  · by_cases hfwd : p.num_forwards = 0
    · rw [if_pos ⟨hsrc, hfwd⟩]
      exact Or.inr ⟨IP_DEF_TTL, rfl, Or.inl ⟨Or.inl ⟨hsrc, hfwd⟩, Or.inl ⟨hsrc, hfwd⟩⟩⟩
    · rw [if_neg fun h => hfwd h.2, if_pos hsrc]
      refine Or.inl ⟨_, _, rfl, rfl, rfl, ?_⟩
      rintro (h | h)
      · exact hfwd h.2
      · exact h.1 hsrc
  · rw [if_neg fun h => hsrc h.1, if_neg hsrc]
    by_cases httl : p.ttl - 1 = 0
    · rw [if_pos httl]
      refine Or.inl ⟨_, _, rfl, rfl, rfl, ?_⟩
      rintro (h | h)
      · exact hsrc h.1
      · omega
    · rw [if_neg httl]
      refine Or.inr ⟨p.ttl - 1, rfl, ?_⟩
      by_cases hpos : p.ttl ≤ 0
      · exact Or.inl ⟨Or.inr ⟨hsrc, hpos⟩, Or.inr ⟨hsrc, by omega⟩⟩
      · refine Or.inr ⟨?_, ?_, by omega, by omega⟩
        · rintro (h | h)
          · exact hsrc h.1
          · exact hpos h.2
        · rintro (h | h)
          · exact hsrc h.1
          · have := h.2
            omega

lemma deque_eq (hfind : a.table.find dst = some e) :
    a.deque dst = match e.q with
      | some (p :: rest) => some (p, { a with table := a.table.set dst { e with q := some rest } })
      | _ => none := by
  unfold deque
  rw [hfind]
  rfl

/-- What becomes of the head of a queue and of the rest of it. -/
def rotate (env : Env) (e : Entry) (dst : NsAddr) (p : Packet) (rest : List Packet) :
    List Packet × List Fate :=
  match header env p with
  | .error f => (rest, [f])
  | .ok p =>
    if e.metric ≠ BIG then (rest, [.sent p (if e.metric > 1 then e.hop else dst)])
    else (rest ++ [p], [])

/-- A packet that waits goes through `recv` to `forwardPacket`. -/
lemma recv_waiting (hp : Waiting env dst p) : recv env now (fuel + 1) a p =
    match header env p with
    | .error f => some (a.dispose f)
    | .ok p => some (a.forwardPacket env now p) := by
  unfold recv receive
  rcases header_cases env p with ⟨f, reason, h, -⟩ | ⟨ttl, h, -⟩
  · rw [h]
  · rw [h]
    dsimp only
    rw [if_neg fun hup => hp.data.elim hup.1 fun h => h hup.2,
      if_neg fun hb => hp.unicast.elim (fun h => h hb.1) hb.2]

/-- One round of the loop. -/
lemma drain_cons (now : ℚ) (fuel fuel' : ℕ) (hfind : a.table.find dst = some e) (hq : e.q = some (p :: rest))
    (hp : Waiting env dst p) (hlen : rest.length < MAX_QUEUE_LENGTH) :
    ∃ b, drain (recv env now (fuel' + 1)) dst (fuel + 1) a = drain (recv env now (fuel' + 1)) dst fuel b ∧
      b.table.find dst = some { e with q := some (rotate env e dst p rest).1 } ∧
      b.fates = a.fates ++ (rotate env e dst p rest).2 ∧
      ∀ d, d ≠ dst → b.table.find d = a.table.find d := by
  rw [drain, deque_eq hfind, hq]
  dsimp only
  rw [recv_waiting hp]
  unfold rotate
  rcases header_cases env p with ⟨f, reason, h, -⟩ | ⟨ttl, h, -⟩
  · rw [h]
    exact ⟨_, rfl, SortedMap.find_set_self, rfl, fun d hd => SortedMap.find_set_of_ne hd⟩
  · rw [h]
    dsimp only
    rw [Option.bind_some]
    refine ⟨_, rfl, ?_⟩
    unfold forwardPacket
    dsimp only
    rw [hp.addr, hp.inside, if_neg Bool.false_ne_true, SortedMap.find_set_self]
    dsimp only
    by_cases hmetric : e.metric ≠ BIG
    · rw [if_pos hmetric, if_pos hmetric]
      exact ⟨SortedMap.find_set_self, rfl, fun d hd => SortedMap.find_set_of_ne hd⟩
    · rw [if_neg hmetric, if_neg hmetric]
      have hfit : (rest ++ [{ p with ttl := ttl }]).length - MAX_QUEUE_LENGTH = 0 := by
        rw [List.length_append, List.length_singleton]
        omega
      unfold enque
      dsimp only
      rw [Option.getD_some, hfit]
      refine ⟨SortedMap.find_set_self, rfl, fun d hd => ?_⟩
      rw [SortedMap.find_set_of_ne hd, SortedMap.find_set_of_ne hd]

/-- The queue stays one of packets that wait for the destination. -/
lemma rotate_waits (hwait : Waits env dst (p :: rest)) : Waits env dst (rotate env e dst p rest).1 := by
  obtain ⟨hlen, hmem⟩ := hwait
  have hrest : Waits env dst rest :=
    ⟨(Nat.le_succ _).trans hlen, fun x hx => hmem x (List.mem_cons_of_mem p hx)⟩
  unfold rotate
  rcases header_cases env p with ⟨f, reason, h, -⟩ | ⟨ttl, h, -⟩
  · rwa [h]
  · rw [h]
    dsimp only
    split
    · exact hrest
    · refine ⟨by simpa using hlen, fun x hx => ?_⟩
      rcases List.mem_append.mp hx with hx | hx
      · exact hrest.2 x hx
      · obtain rfl := List.mem_singleton.mp hx
        have hp := hmem p List.mem_cons_self
        exact ⟨hp.addr, hp.inside, hp.data, hp.unicast⟩

/-- The packet at the head of a queue stays on it, or is sent or dropped. -/
lemma rotate_uid : ((p :: rest).map (·.uid)).Perm
    ((rotate env e dst p rest).1.map (·.uid) ++ (rotate env e dst p rest).2.map (·.packet.uid)) := by
  unfold rotate
  rcases header_cases env p with ⟨f, reason, h, -, huid, -⟩ | ⟨ttl, h, -⟩
  · rw [h, List.map_cons, ← huid]
    exact (List.perm_append_singleton _ _).symm
  · rw [h]
    dsimp only
    split
    · exact (List.perm_append_singleton _ _).symm
    · rw [List.map_append, List.map_nil, List.append_nil]
      exact (List.perm_append_singleton _ _).symm

lemma rotate_settled (hf : f ∈ (rotate env e dst p rest).2) : f.Settled := by
  unfold rotate at hf
  rcases header_cases env p with ⟨f', reason, h, hdropped, -⟩ | ⟨ttl, h, -⟩
  · rw [h] at hf
    rw [List.mem_singleton.mp hf, hdropped]
    trivial
  · rw [h] at hf
    dsimp only at hf
    split at hf
    · rw [List.mem_singleton.mp hf]
      trivial
    · exact absurd hf List.not_mem_nil

/-- When the loop ends the queue is empty, and all its packets have been forwarded or dropped. -/
lemma drain_accounts (hfind : a.table.find dst = some e) (hq : e.q = some q) (hwait : Waits env dst q)
    (h : drain (recv env now (fuel' + 1)) dst fuel a = some b) :
    ∃ fs, b.fates = a.fates ++ fs ∧ (q.map (·.uid)).Perm (fs.map (·.packet.uid)) ∧
      (∀ f ∈ fs, f.Settled) ∧ b.table.find dst = some { e with q := some [] } ∧
      ∀ d, d ≠ dst → b.table.find d = a.table.find d := by
  induction fuel generalizing a e q with
  | zero => simp [drain] at h
  | succ fuel ih =>
    cases q with
    | nil =>
      rw [drain, deque_eq hfind, hq] at h
      obtain rfl := Option.some.inj h
      exact ⟨[], (List.append_nil _).symm, .nil, fun f hf => absurd hf List.not_mem_nil, hq ▸ hfind,
        fun _ _ => rfl⟩
    | cons p rest =>
      obtain ⟨s, hstep, hs, hfates, hother⟩ := drain_cons now fuel fuel' hfind hq
        (hwait.2 p List.mem_cons_self) (Nat.lt_of_succ_le hwait.1)
      obtain ⟨fs, hb, hperm, hsettled, hempty, hsame⟩ := ih hs rfl (rotate_waits hwait) (hstep ▸ h)
      refine ⟨(rotate env e dst p rest).2 ++ fs, ?_, ?_, fun f hf => ?_, hempty,
        fun d hd => (hsame d hd).trans (hother d hd)⟩
      · rw [hb, hfates, List.append_assoc]
      · rw [List.map_append]
        exact rotate_uid.trans (List.perm_append_comm.trans (hperm.append_left _))
      · exact (List.mem_append.mp hf).elim rotate_settled (hsettled f)

/-- How many rounds a packet can stay in the queue. -/
def lifetime (e : Entry) (p : Packet) : ℕ :=
  if e.metric ≠ BIG then 1 else p.ttl.toNat + 1

lemma rotate_lifetime (dst : NsAddr) (rest : List Packet) (hp : e.metric ≠ BIG ∨ ¬Circulates env p) :
    ((rotate env e dst p rest).1.map (lifetime e)).sum < ((p :: rest).map (lifetime e)).sum := by
  have hpos : 0 < lifetime e p := by
    unfold lifetime
    split
    · exact Nat.one_pos
    · exact Nat.succ_pos _
  rw [List.map_cons, List.sum_cons]
  unfold rotate
  rcases header_cases env p with ⟨f', reason, h, -⟩ | ⟨ttl, h, hc⟩
  · rw [h]
    dsimp only
    omega
  · rw [h]
    dsimp only
    split
    · exact Nat.lt_add_of_pos_left hpos
    · rename_i hbig
      rw [List.map_append, List.sum_append, List.map_singleton, List.sum_singleton]
      obtain ⟨-, -, hlt⟩ := hc.resolve_left fun hc => hp.elim hbig fun h => h hc.1
      unfold lifetime
      rw [if_neg hbig, if_neg hbig]
      dsimp only
      omega

lemma rotate_circulates (hall : ∀ x ∈ p :: rest, ¬Circulates env x) :
    ∀ x ∈ (rotate env e dst p rest).1, ¬Circulates env x := by
  have hrest : ∀ x ∈ rest, ¬Circulates env x := fun x hx => hall x (List.mem_cons_of_mem p hx)
  unfold rotate
  rcases header_cases env p with ⟨f', reason, h, -⟩ | ⟨ttl, h, hc⟩
  · rwa [h]
  · rw [h]
    dsimp only
    split
    · exact hrest
    · intro x hx
      rcases List.mem_append.mp hx with hx | hx
      · exact hrest x hx
      · obtain rfl := List.mem_singleton.mp hx
        exact (hc.resolve_left fun hc => hall p List.mem_cons_self hc.1).2.1

/-- The loop ends when the route is not broken, and when all packets have a TTL that runs out. -/
lemma drain_ends (now : ℚ) (fuel' : ℕ) (hfind : a.table.find dst = some e) (hq : e.q = some q) (hwait : Waits env dst q)
    (hend : e.metric ≠ BIG ∨ ∀ p ∈ q, ¬Circulates env p) (hfuel : (q.map (lifetime e)).sum < fuel) :
    ∃ b, drain (recv env now (fuel' + 1)) dst fuel a = some b := by
  induction fuel generalizing a e q with
  | zero => exact absurd hfuel (Nat.not_lt_zero _)
  | succ fuel ih =>
    cases q with
    | nil =>
      rw [drain, deque_eq hfind, hq]
      exact ⟨a, rfl⟩
    | cons p rest =>
      obtain ⟨s, hstep, hs, -, -⟩ := drain_cons now fuel fuel' hfind hq
        (hwait.2 p List.mem_cons_self) (Nat.lt_of_succ_le hwait.1)
      rw [hstep]
      refine ih hs rfl (rotate_waits hwait) (hend.imp_right rotate_circulates) ?_
      have hlt := rotate_lifetime dst rest
        (hend.imp_right fun h => h p List.mem_cons_self)
      exact hlt.trans_le (Nat.lt_succ_iff.mp hfuel)

/-- A packet that circulates keeps the loop going while the route is broken. -/
lemma drain_never (hfind : a.table.find dst = some e) (hq : e.q = some q) (hwait : Waits env dst q)
    (hbig : e.metric = BIG) (hp : ∃ p ∈ q, Circulates env p) : drain (recv env now fuel') dst fuel a = none := by
  induction fuel generalizing a e q with
  | zero => rfl
  | succ fuel ih =>
    cases q with
    | nil => simp at hp
    | cons p rest =>
      cases fuel' with
      | zero =>
        rw [drain, deque_eq hfind, hq]
        rfl
      | succ fuel' =>
        obtain ⟨s, hstep, hs, -, -⟩ := drain_cons now fuel fuel' hfind hq
          (hwait.2 p List.mem_cons_self) (Nat.lt_of_succ_le hwait.1)
        rw [hstep]
        refine ih hs rfl (rotate_waits hwait) hbig ?_
        obtain ⟨x, hx, hc⟩ := hp
        unfold rotate
        rcases header_cases env p with ⟨f, reason, h, -, -, hno⟩ | ⟨ttl, h, hcirc⟩
        · rw [h]
          have hx' := (List.mem_cons.mp hx).resolve_left fun heq => hno (heq ▸ hc)
          exact ⟨x, hx', hc⟩
        · rw [h]
          dsimp only
          rw [if_neg (not_not.mpr hbig)]
          rcases List.mem_cons.mp hx with rfl | hx
          · exact ⟨_, List.mem_append_right _ (List.mem_singleton_self _),
              (hcirc.resolve_right fun h => h.1 hc).2⟩
          · exact ⟨x, List.mem_append_left _ hx, hc⟩

variable {hop : NsAddr} {adv : Advert} {prte rte rte' : Entry} {trigger : Bool}

lemma updateRoute_find (h : a.updateRoute now dst rte trigger = some (b, rte')) :
    ∃ t, b.table.find dst = some { rte with trigger_event := t } := by
  obtain ⟨-, t, hb | hb⟩ := updateRoute_spec h
  · exact ⟨rte.trigger_event, hb ▸ SortedMap.find_set_self⟩
  · exact ⟨t, hb ▸ SortedMap.find_set_self⟩

/-- The advertisement is newer than the entry, or better with the same sequence number. -/
def Fresher (prte : Entry) (adv : Advert) : Prop :=
  prte.seqnum < adv.seqnum ∨ (adv.seqnum = prte.seqnum ∧ adv.incremented < prte.metric)

lemma stale_of_not_fresher (h : ¬Fresher prte adv) : Stale prte adv := by
  unfold Fresher at h
  unfold Stale
  rw [UInt32.lt_iff_toNat_lt, ← UInt32.toNat_inj] at h ⊢
  omega

/-- The candidate and the entry when the queue is drained: the entry is the candidate, or what it was. -/
lemma learn_entry (hfind : a.table.find adv.dst = some prte)
    (h : a.learn env now hop adv = some (b, rte)) : rte.metric = adv.incremented ∧
    ∃ e, b.table.find adv.dst = some e ∧ e.q = prte.q ∧
      (Fresher prte adv → e.metric = adv.incremented) ∧ (¬Fresher prte adv → e.metric = prte.metric) := by
  by_cases hfresh : Fresher prte adv
  · suffices hnew : rte.metric = adv.incremented ∧
        ∃ e, b.table.find adv.dst = some e ∧ e.q = prte.q ∧ e.metric = adv.incremented by
      obtain ⟨hrte, e, he, hq, hmetric⟩ := hnew
      exact ⟨hrte, e, he, hq, fun _ => hmetric, fun hno => absurd hfresh hno⟩
    unfold learn at h
    rw [hfind] at h
    dsimp only at h
    rw [candidate_metric, candidate_seqnum] at h
    rcases hfresh with hlt | ⟨heq, hless⟩
    · have hne : prte.seqnum ≠ adv.seqnum := fun heq => by
        rw [heq, UInt32.lt_iff_toNat_lt] at hlt
        exact lt_irrefl _ hlt
      rw [if_neg hne, if_pos hlt] at h
      obtain ⟨rfl, -⟩ := updateRoute_spec h
      obtain ⟨t, ht⟩ := updateRoute_find h
      exact ⟨rfl, _, ht, rfl, rfl⟩
    · rw [if_pos heq.symm, if_pos hless] at h
      obtain ⟨rfl, -⟩ := updateRoute_spec h
      obtain ⟨t, ht⟩ := updateRoute_find h
      exact ⟨rfl, _, ht, rfl, rfl⟩
  · obtain ⟨rfl, e, he, hsame, hq⟩ := learn_stale hfind (stale_of_not_fresher hfresh) h
    exact ⟨rfl, e, he, hq, fun hyes => absurd hyes hfresh, fun _ => hsame.metric⟩

/-- The loop that drains the queue of a destination ends with all its packets forwarded or dropped, unless
the news is stale, the route is broken, and a packet circulates. -/
theorem drain_ends_iff (hfind : a.table.find adv.dst = some prte) (hq : prte.q = some q)
    (hwait : Waits env adv.dst q) (h : a.learn env now hop adv = some (b, rte)) (hrte : rte.metric ≠ BIG) :
    (∃ fuel c fs, drain (recv env now fuel) adv.dst fuel b = some c ∧ c.fates = b.fates ++ fs ∧
      (q.map (·.uid)).Perm (fs.map (·.packet.uid)) ∧ (∀ f ∈ fs, f.Settled) ∧
      ∃ e, c.table.find adv.dst = some e ∧ e.q = some []) ↔
    Fresher prte adv ∨ prte.metric ≠ BIG ∨ ∀ p ∈ q, ¬Circulates env p := by
  obtain ⟨hmetric, e, he, heq, hfresh, hstale⟩ := learn_entry hfind h
  rw [hmetric] at hrte
  rw [hq] at heq
  constructor
  · rintro ⟨fuel, c, fs, hdrain, -⟩
    by_contra hno
    obtain ⟨hold, hbroken, hcirc⟩ := not_or.mp hno |>.imp_right not_or.mp
    have hbig : e.metric = BIG := (hstale hold).trans (not_not.mp hbroken)
    push Not at hcirc
    rw [drain_never he heq hwait hbig hcirc] at hdrain
    simp at hdrain
  · intro hcond
    have hend : e.metric ≠ BIG ∨ ∀ p ∈ q, ¬Circulates env p := by
      by_cases hnews : Fresher prte adv
      · exact Or.inl (hfresh hnews ▸ hrte)
      · exact (hcond.resolve_left hnews).imp_left fun hne => hstale hnews ▸ hne
    obtain ⟨c, hc⟩ := drain_ends now (q.map (lifetime e)).sum he heq hwait hend
      (Nat.lt_succ_self _)
    obtain ⟨fs, hfates, hperm, hsettled, hempty, -⟩ := drain_accounts he heq hwait hc
    exact ⟨_, c, fs, hc, hfates, hperm, hsettled, _, hempty, rfl⟩

end Agent

lemma packetFrom_waits (saddr : NsAddr) (ttl : ℤ) : Waits flatEnv (toNsAddr 3) [packetFrom saddr ttl] := by
  refine ⟨Nat.succ_le_succ (Nat.zero_le 4), fun p hp => ?_⟩
  obtain rfl := List.mem_singleton.mp hp
  exact ⟨rfl, rfl, Or.inr (show (0 : ℤ) ≠ 255 by decide), Or.inl (show toNsAddr 3 ≠ IP_BROADCAST by decide +kernel)⟩

/-- The old news does not change the broken route. -/
lemma learn_brokenRoute (p : Packet) :
    ∃ rte, (brokenRoute p).learn flatEnv 0 (toNsAddr 5) ⟨toNsAddr 3, 1, 100⟩ = some (brokenRoute p, rte) ∧
      rte.metric ≠ BIG := by
  exact ⟨_, rfl, show (⟨toNsAddr 3, 1, 100⟩ : Advert).incremented ≠ BIG by decide⟩

/-- A packet of another node is on the queue for as long as its TTL lasts. -/
theorem drain_ends_forwarded : ∃ fuel c fs,
    Agent.drain (Agent.recv flatEnv 0 fuel) (toNsAddr 3) fuel (brokenRoute (packetFrom (toNsAddr 4) 2)) =
      some c ∧ c.fates = [] ++ fs ∧
      ([packetFrom (toNsAddr 4) 2].map (·.uid)).Perm (fs.map (·.packet.uid)) ∧ (∀ f ∈ fs, f.Settled) ∧
      ∃ e, c.table.find (toNsAddr 3) = some e ∧ e.q = some [] := by
  obtain ⟨rte, hlearn, hrte⟩ := learn_brokenRoute (packetFrom (toNsAddr 4) 2)
  refine (Agent.drain_ends_iff rfl rfl (packetFrom_waits _ _) hlearn hrte).mpr (Or.inr (Or.inr fun p hp => ?_))
  obtain rfl := List.mem_singleton.mp hp
  rintro (h | h)
  · exact absurd h.1 (show toNsAddr 4 ≠ toNsAddr 1 by decide +kernel)
  · exact absurd h.2 (show ¬(2 : ℤ) ≤ 0 by decide)

/-- A packet that the node has sent itself goes around for ever. -/
theorem drain_loops : ∃ rte,
    (brokenRoute (packetFrom (toNsAddr 1) 32)).learn flatEnv 0 (toNsAddr 5) ⟨toNsAddr 3, 1, 100⟩ =
      some (brokenRoute (packetFrom (toNsAddr 1) 32), rte) ∧
    rte.q = some [packetFrom (toNsAddr 1) 32] ∧ rte.metric ≠ BIG ∧
    ∀ fuel, Agent.drain (Agent.recv flatEnv 0 fuel) (toNsAddr 3) fuel
      (brokenRoute (packetFrom (toNsAddr 1) 32)) = none :=
  ⟨_, rfl, rfl, show (⟨toNsAddr 3, 1, 100⟩ : Advert).incremented ≠ BIG by decide, fun _ =>
    Agent.drain_never rfl rfl (packetFrom_waits _ _) rfl
      ⟨_, List.mem_singleton_self _, Or.inl ⟨rfl, rfl⟩⟩⟩

end NetworkSimulator.Dsdv
