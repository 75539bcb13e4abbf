import NetworkSimulator.Vanets.Agent

/-!
# Custody of data packets

What comes in and what is buffered is afterwards buffered, handed over or dropped, and each packet is
so once. The rule fails when the static node that a message without time to live is for is heard: the
message is gone and the hello is dropped in its place.
-/

namespace NetworkSimulator.Vanets

open Library

/-- A packet without the header fields that a handover writes. -/
def core (m : Message) : Message := { m with header := {} }

/-- The data packet that is handed over, alone or inside a FORWARD. -/
def Fate.handed : Fate → List Message
  | .schedule (.data m) => [m]
  | .schedule (.control c) => c.data.toList
  | _ => []

def Fate.dropped : Fate → List Message
  | .drop (.data m) _ => [m]
  | _ => []

def Fate.OfHello : Fate → Prop
  | .drop (.control _) _ => True
  | _ => False

/-- The data packets that an event brings. -/
def arrivals (index : ℤ) : Event → List Message
  | .recv m _ => [Agent.received index m]
  | .control c _ _ => if c.type = .XFX_MSG_FORWARD then c.data.toList else []
  | _ => []

/-- No data packet is lost or doubled, and no other packet is dropped for one. -/
structure Kept (s : Agent) (e : Event) (s' : Agent) (o : List Fate) : Prop where
  packets : List.Perm ((s.bufferMsgs ++ arrivals s.index e).map core)
    ((s'.bufferMsgs ++ o.flatMap Fate.handed ++ o.flatMap Fate.dropped).map core)
  own : ∀ f ∈ o, ¬f.OfHello

def Custody (sizes : Sizes) (s : Agent) (e : Event) : Prop :=
  ∀ s' o, s.step sizes e = some (s', o) → Kept s e s' o

/-- A static node is heard when the messages for it have a time to live. -/
def TtlKept (s : Agent) : Event → Prop
  | .control c _ _ =>
    c.type = .XFX_MSG_HELLO_STATIC → ∀ m ∈ s.bufferMsgs, m.daddr = c.saddr → 0 ≤ m.ttl
  | _ => True

instance (s : Agent) : ∀ e, Decidable (TtlKept s e)
  | .control c _ _ =>
    inferInstanceAs (Decidable (c.type = .XFX_MSG_HELLO_STATIC →
      ∀ m ∈ s.bufferMsgs, m.daddr = c.saddr → 0 ≤ m.ttl))
  | .recv _ _ | .idPurge | .helloTimer _ => inferInstanceAs (Decidable True)

lemma arrivals_of_ne {index : ℤ} {c : Control} {mobile : Bool} {distance : ℤ → ℤ → ℤ}
    (h : c.type ≠ .XFX_MSG_FORWARD) : arrivals index (.control c mobile distance) = [] := if_neg h

namespace Agent

@[simp] lemma core_normal (m : Message) : core (normal m) = core m := rfl

lemma filter_perm (p : Message → Prop) [DecidablePred p] (ms : List Message) :
    List.Perm ms ((ms.filter fun m => ¬p m) ++ ms.filter fun m => p m) := by
  have h := (List.filter_append_perm (fun m => decide (p m)) ms).symm
  refine h.trans (List.perm_append_comm.trans ?_)
  simp

/-- Messages that are scheduled one by one are handed over, and nothing is dropped. -/
lemma handed_map {f : Message → Packet} (hf : ∀ m, (Fate.handed (.schedule (f m))).map core = [core m])
    (ms : List Message) :
    ((ms.map fun m => Fate.schedule (f m)).flatMap Fate.handed).map core = ms.map core := by
  induction ms with
  | nil => rfl
  | cons m ms ih =>
    rw [List.map_cons, List.flatMap_cons, List.map_append, hf, ih]
    rfl

lemma dropped_map (f : Message → Packet) (ms : List Message) :
    (ms.map fun m => Fate.schedule (f m)).flatMap Fate.dropped = [] := by
  simp [Fate.dropped]

/-- The messages that a filter takes out of the buffer and hands over. -/
lemma handover_kept {p : Message → Prop} [DecidablePred p] {f : Message → Packet}
    (hf : ∀ m, (Fate.handed (.schedule (f m))).map core = [core m]) (ms : List Message) :
    List.Perm (ms.map core)
      (((ms.filter fun m => ¬p m) ++ ((ms.filter fun m => p m).map fun m => Fate.schedule (f m)).flatMap Fate.handed
        ++ ((ms.filter fun m => p m).map fun m => Fate.schedule (f m)).flatMap Fate.dropped).map core) := by
  rw [dropped_map, List.append_nil, List.map_append, handed_map hf, ← List.map_append]
  exact (filter_perm p ms).map core

lemma sendMsgStNodo_of_ttl {s : Agent} {hello : Control}
    (h : ∀ m ∈ s.bufferMsgs, m.daddr = hello.saddr → 0 ≤ m.ttl) :
    (s.sendMsgStNodo hello).2 =
      (s.bufferMsgs.filter fun m => m.daddr = hello.saddr).map fun m => .schedule (.data (normal m)) := by
  refine List.map_congr_left fun m hm => ?_
  rw [List.mem_filter, decide_eq_true_eq] at hm
  exact if_pos (h m hm.1 hm.2)

lemma sendMsgStNodo_of_not_ttl {s : Agent} {hello : Control} {m : Message} (hm : m ∈ s.bufferMsgs)
    (hd : m.daddr = hello.saddr) (hlt : ¬0 ≤ m.ttl) :
    .drop (.control hello) .DROP_RTR_TTL ∈ (s.sendMsgStNodo hello).2 := by
  refine List.mem_map.mpr ⟨m, ?_, if_neg hlt⟩
  rw [List.mem_filter, decide_eq_true_eq]
  exact ⟨hm, hd⟩

lemma recv_kept (s : Agent) (m : Message) (hm : m.header.ptype ≠ .PT_XFXVanets) :
    Kept s (.recv m hm) (s.recv m).1 (s.recv m).2 := by
  unfold recv
  split_ifs with hown hloop httl
  · exact ⟨by simp [arrivals], by simp⟩
  · exact ⟨by simp [arrivals, Fate.handed, Fate.dropped], by simp [Fate.OfHello]⟩
  · exact ⟨by simp [arrivals, Fate.handed, Fate.dropped], by simp [Fate.OfHello]⟩
  · exact ⟨by simp [arrivals], by simp⟩

lemma recvHelloMsg_kept (sizes : Sizes) (s : Agent) (c : Control) (distance : ℤ → ℤ → ℤ) :
    List.Perm (s.bufferMsgs.map core)
        (((s.recvHelloMsg sizes c distance).1.bufferMsgs ++
          (s.recvHelloMsg sizes c distance).2.flatMap Fate.handed ++
          (s.recvHelloMsg sizes c distance).2.flatMap Fate.dropped).map core) ∧
      ∀ f ∈ (s.recvHelloMsg sizes c distance).2, ¬f.OfHello := by
  constructor
  · have h := handover_kept (p := fun m => s.Nearer c.rpDst distance m)
      (f := fun m => .control (s.forward sizes c.rpDst m)) (fun _ => rfl) s.bufferMsgs
    simpa [recvHelloMsg, sendMsgMinorDistance, Fate.handed, Fate.dropped, Nearer, forward] using h
  · intro f hf
    rcases List.mem_append.mp hf with hf | hf
    · obtain ⟨m, -, rfl⟩ := List.mem_map.mp hf
      exact id
    · rw [List.mem_singleton.mp hf]
      exact id

lemma sendMsgStNodo_kept {s : Agent} {hello : Control}
    (h : ∀ m ∈ s.bufferMsgs, m.daddr = hello.saddr → 0 ≤ m.ttl) :
    List.Perm (s.bufferMsgs.map core)
        (((s.sendMsgStNodo hello).1.bufferMsgs ++ (s.sendMsgStNodo hello).2.flatMap Fate.handed ++
          (s.sendMsgStNodo hello).2.flatMap Fate.dropped).map core) ∧
      ∀ f ∈ (s.sendMsgStNodo hello).2, ¬f.OfHello := by
  rw [sendMsgStNodo_of_ttl h]
  constructor
  · exact handover_kept (f := fun m => .data (normal m)) (fun _ => rfl) s.bufferMsgs
  · intro f hf
    obtain ⟨m, -, rfl⟩ := List.mem_map.mp hf
    exact id

lemma recvXFX_static {sizes : Sizes} {s : Agent} {c : Control} {mobile : Bool} {distance : ℤ → ℤ → ℤ}
    (hport : c.sport = RT_PORT ∧ c.dport = RT_PORT) (htype : c.type = .XFX_MSG_HELLO_STATIC) :
    s.recvXFX sizes c mobile distance = some (s.sendMsgStNodo c) := by
  rw [recvXFX, if_pos hport, htype]

lemma recvXFX_movel {sizes : Sizes} {s : Agent} {c : Control} {mobile : Bool} {distance : ℤ → ℤ → ℤ}
    (hport : c.sport = RT_PORT ∧ c.dport = RT_PORT) (htype : c.type = .XFX_MSG_HELLO_MOVEL) :
    s.recvXFX sizes c mobile distance =
      if mobile then some (s.recvHelloMsg sizes c distance) else some (s, []) := by
  rw [recvXFX, if_pos hport, htype]

lemma recvXFX_forward {sizes : Sizes} {s : Agent} {c : Control} {mobile : Bool} {distance : ℤ → ℤ → ℤ}
    (hport : c.sport = RT_PORT ∧ c.dport = RT_PORT) (htype : c.type = .XFX_MSG_FORWARD) :
    s.recvXFX sizes c mobile distance = some (s.handleForward c, []) := by
  rw [recvXFX, if_pos hport, htype]

lemma recvXFX_ignored {sizes : Sizes} {s : Agent} {c : Control} {mobile : Bool} {distance : ℤ → ℤ → ℤ}
    (hport : c.sport = RT_PORT ∧ c.dport = RT_PORT)
    (htype : c.type = .XFX_MSG_NORMAL ∨ c.type = .other) :
    s.recvXFX sizes c mobile distance = some (s, []) := by
  rw [recvXFX, if_pos hport]
  rcases htype with htype | htype <;> rw [htype]

lemma recvXFX_ports {sizes : Sizes} {s : Agent} {c : Control} {mobile : Bool} {distance : ℤ → ℤ → ℤ}
    {r : Agent × List Fate} (h : s.recvXFX sizes c mobile distance = some r) :
    c.sport = RT_PORT ∧ c.dport = RT_PORT := by
  by_contra hport
  rw [recvXFX, if_neg hport] at h
  cases h

/-- A packet that leaves the buffer and the outputs alone. -/
lemma kept_of_quiet {s : Agent} {c : Control} {mobile : Bool} {distance : ℤ → ℤ → ℤ}
    (h : c.type ≠ .XFX_MSG_FORWARD) : Kept s (.control c mobile distance) s [] := by
  exact ⟨by simp [arrivals_of_ne h], by simp⟩

/-- What one packet of the protocol does to the data packets. -/
lemma recvXFX_kept {sizes : Sizes} {s s' : Agent} {o : List Fate} {c : Control} {mobile : Bool}
    {distance : ℤ → ℤ → ℤ} (h : s.recvXFX sizes c mobile distance = some (s', o)) :
    Kept s (.control c mobile distance) s' o ↔ TtlKept s (.control c mobile distance) := by
  have hport := recvXFX_ports h
  cases htype : c.type with
  | XFX_MSG_HELLO_MOVEL =>
    rw [recvXFX_movel hport htype] at h
    have hfree : TtlKept s (.control c mobile distance) := fun hs => by simp [htype] at hs
    refine iff_of_true ?_ hfree
    split_ifs at h with hmobile
    · obtain ⟨rfl, rfl⟩ := Prod.mk.inj (Option.some.inj h)
      obtain ⟨hp, ho⟩ := recvHelloMsg_kept sizes s c distance
      exact ⟨by rwa [arrivals_of_ne (by simp [htype]), List.append_nil], ho⟩
    · obtain ⟨rfl, rfl⟩ := Prod.mk.inj (Option.some.inj h)
      exact kept_of_quiet (by simp [htype])
  | XFX_MSG_HELLO_STATIC =>
    rw [recvXFX_static hport htype] at h
    obtain ⟨rfl, rfl⟩ := Prod.mk.inj (Option.some.inj h)
    constructor
    · intro hk _ m hm hd
      by_contra hlt
      have hmem := sendMsgStNodo_of_not_ttl hm hd hlt
      exact hk.own _ hmem trivial
    · intro hk
      obtain ⟨hp, ho⟩ := sendMsgStNodo_kept (hk htype)
      exact ⟨by rwa [arrivals_of_ne (by simp [htype]), List.append_nil], ho⟩
  | XFX_MSG_FORWARD =>
    rw [recvXFX_forward hport htype] at h
    obtain ⟨rfl, rfl⟩ := Prod.mk.inj (Option.some.inj h)
    have hfree : TtlKept s (.control c mobile distance) := fun hs => by simp [htype] at hs
    exact iff_of_true ⟨by simp [arrivals, htype, handleForward], by simp⟩ hfree
  | XFX_MSG_NORMAL =>
    rw [recvXFX_ignored hport (.inl htype)] at h
    obtain ⟨rfl, rfl⟩ := Prod.mk.inj (Option.some.inj h)
    have hfree : TtlKept s (.control c mobile distance) := fun hs => by simp [htype] at hs
    exact iff_of_true (kept_of_quiet (by simp [htype])) hfree
  | other =>
    rw [recvXFX_ignored hport (.inr htype)] at h
    obtain ⟨rfl, rfl⟩ := Prod.mk.inj (Option.some.inj h)
    have hfree : TtlKept s (.control c mobile distance) := fun hs => by simp [htype] at hs
    exact iff_of_true (kept_of_quiet (by simp [htype])) hfree

lemma kept_iff {sizes : Sizes} {s s' : Agent} {e : Event} {o : List Fate}
    (h : s.step sizes e = some (s', o)) : Kept s e s' o ↔ TtlKept s e := by
  cases e with
  | recv m hm =>
    obtain ⟨rfl, rfl⟩ := Prod.mk.inj (Option.some.inj h)
    exact ⟨fun _ => trivial, fun _ => recv_kept s m hm⟩
  | control c mobile distance =>
    -- the decremented time to live of the packet is not read
    have hk := recvXFX_kept h
    exact ⟨fun k => hk.mp ⟨k.packets, k.own⟩, fun k => ⟨(hk.mpr k).packets, (hk.mpr k).own⟩⟩
  | idPurge =>
    obtain ⟨rfl, rfl⟩ := Prod.mk.inj (Option.some.inj h)
    exact ⟨fun _ => trivial, fun _ => ⟨by simp [arrivals, idPurge], by simp⟩⟩
  | helloTimer mobile =>
    obtain ⟨rfl, rfl⟩ := Prod.mk.inj (Option.some.inj h)
    exact ⟨fun _ => trivial,
      fun _ => ⟨by simp [arrivals, Fate.handed, Fate.dropped, sendHello], by simp [Fate.OfHello]⟩⟩

lemma custody_iff {sizes : Sizes} {s s' : Agent} {e : Event} {o : List Fate}
    (h : s.step sizes e = some (s', o)) : Custody sizes s e ↔ TtlKept s e := by
  rw [← kept_iff h]
  constructor
  · exact fun hc => hc s' o h
  · intro hk t o' ht
    obtain ⟨rfl, rfl⟩ := Prod.mk.inj (Option.some.inj (h.symm.trans ht))
    exact hk

lemma recv_index (s : Agent) (m : Message) : (s.recv m).1.index = s.index := by
  unfold recv
  split_ifs <;> rfl

lemma step_index {sizes : Sizes} {s s' : Agent} {e : Event} {o : List Fate}
    (h : s.step sizes e = some (s', o)) : s'.index = s.index := by
  cases e with
  | recv m hm =>
    obtain ⟨rfl, -⟩ := Prod.mk.inj (Option.some.inj h)
    exact recv_index s m
  | control c mobile distance =>
    have hport := recvXFX_ports h
    change s.recvXFX sizes { c with ttl := c.ttl - 1 } mobile distance = some (s', o) at h
    cases htype : c.type with
    | XFX_MSG_HELLO_MOVEL =>
      rw [recvXFX_movel hport htype] at h
      split_ifs at h <;> obtain ⟨rfl, -⟩ := Prod.mk.inj (Option.some.inj h) <;> rfl
    | XFX_MSG_HELLO_STATIC =>
      rw [recvXFX_static hport htype] at h
      obtain ⟨rfl, -⟩ := Prod.mk.inj (Option.some.inj h)
      rfl
    | XFX_MSG_FORWARD =>
      rw [recvXFX_forward hport htype] at h
      obtain ⟨rfl, -⟩ := Prod.mk.inj (Option.some.inj h)
      rfl
    | XFX_MSG_NORMAL =>
      rw [recvXFX_ignored hport (.inl htype)] at h
      obtain ⟨rfl, -⟩ := Prod.mk.inj (Option.some.inj h)
      rfl
    | other =>
      rw [recvXFX_ignored hport (.inr htype)] at h
      obtain ⟨rfl, -⟩ := Prod.mk.inj (Option.some.inj h)
      rfl
  | idPurge =>
    obtain ⟨rfl, -⟩ := Prod.mk.inj (Option.some.inj h)
    rfl
  | helloTimer mobile =>
    obtain ⟨rfl, -⟩ := Prod.mk.inj (Option.some.inj h)
    rfl

/-- Over a run the packets that came in are buffered, handed over or dropped, each once. -/
lemma run_packets {sizes : Sizes} {s t : Agent} {es : List Event} {os : List (List Fate)}
    (hc : EachStep (step sizes) (Custody sizes) s es) (h : run (step sizes) s es = some (t, os)) :
    List.Perm ((s.bufferMsgs ++ es.flatMap (arrivals s.index)).map core)
      ((t.bufferMsgs ++ os.flatten.flatMap Fate.handed ++ os.flatten.flatMap Fate.dropped).map core) := by
  induction es generalizing s os with
  | nil =>
    obtain ⟨rfl, rfl⟩ := Prod.mk.inj (Option.some.inj h)
    simp
  | cons e es ih =>
    obtain ⟨s', o, os', hstep, hrun, rfl⟩ := run_cons_inv h
    have hs := (hc.1 s' o hstep).packets
    have hr := ih (hc.2 s' o hstep) hrun
    rw [step_index hstep] at hr
    simp only [List.map_append, List.flatMap_cons, List.flatten_cons, List.flatMap_append] at hs hr ⊢
    rw [List.perm_iff_count] at hs hr ⊢
    intro m
    have h₁ := hs m
    have h₂ := hr m
    simp only [List.count_append] at h₁ h₂ ⊢
    omega

/-- Custody is kept in a run exactly when no static node is heard while a message for it has no time
to live. -/
theorem custody_run (sizes : Sizes) {index : ℤ} {es : List Event} {t : Agent} {os : List (List Fate)}
    (h : run (step sizes) { index } es = some (t, os)) :
    (EachStep (step sizes) (Custody sizes) { index } es ↔
      EachStep (step sizes) TtlKept { index } es) ∧
    (EachStep (step sizes) TtlKept { index } es →
      List.Perm ((es.flatMap (arrivals index)).map core)
        ((t.bufferMsgs ++ os.flatten.flatMap Fate.handed ++ os.flatten.flatMap Fate.dropped).map core)) := by
  have hiff : EachStep (step sizes) (Custody sizes) { index } es ↔
      EachStep (step sizes) TtlKept { index } es := by
    have hstep : ∀ s e s' o, True → step sizes s e = some (s', o) →
        True ∧ (Custody sizes s e ↔ TtlKept s e) :=
      fun s e s' o _ hs => ⟨trivial, custody_iff hs⟩
    exact EachStep.congr hstep trivial h
  exact ⟨hiff, fun hk => by simpa using run_packets (hiff.mpr hk) h⟩

/-- A vehicle hands its message to a nearer one, and to a static node the message that it carries. -/
theorem custody_run_handed :
    EachStep (step ⟨20, 40⟩) (Custody ⟨20, 40⟩) { index := 1 }
      [.recv { uid := 7, saddr := 1, daddr := 5 } (by decide),
        .control { type := .XFX_MSG_HELLO_MOVEL, saddr := 2, rpDst := 2 } true fun v _ => if v = 2 then 3 else 8,
        .control { type := .XFX_MSG_FORWARD, saddr := 3, data := some { uid := 8, saddr := 3, daddr := 6 } } true
          fun _ _ => 0,
        .control { type := .XFX_MSG_HELLO_STATIC, saddr := 6, rpDst := 6 } true fun _ _ => 0] := by
  refine ((custody_run ⟨20, 40⟩ (t := { index := 1, neighbors := [(2, 3)] }) rfl).1).mpr ?_
  refine ⟨trivial, fun s₁ o₁ h₁ => ?_⟩
  obtain ⟨rfl, -⟩ := Prod.mk.inj (Option.some.inj h₁)
  refine ⟨by decide, fun s₂ o₂ h₂ => ?_⟩
  obtain ⟨rfl, -⟩ := Prod.mk.inj (Option.some.inj h₂)
  refine ⟨by decide, fun s₃ o₃ h₃ => ?_⟩
  obtain ⟨rfl, -⟩ := Prod.mk.inj (Option.some.inj h₃)
  exact ⟨by decide, fun _ _ _ => trivial⟩

/-- A packet that comes with no time to live is buffered, lost when its destination is heard, and the
hello is dropped. -/
theorem custody_lost :
    ∃ t, run (step ⟨20, 40⟩) { index := 1 }
        [.recv { uid := 7, saddr := 3, daddr := 5, ttl := 0 } (by decide),
          .control { type := .XFX_MSG_HELLO_STATIC, saddr := 5, rpDst := 5 } true fun _ _ => 0] =
          some (t, [[], [.drop (.control { type := .XFX_MSG_HELLO_STATIC, saddr := 5, rpDst := 5, ttl := 0 })
            .DROP_RTR_TTL]]) ∧ t.bufferMsgs = [] ∧
      ¬EachStep (step ⟨20, 40⟩) (Custody ⟨20, 40⟩) { index := 1 }
        [.recv { uid := 7, saddr := 3, daddr := 5, ttl := 0 } (by decide),
          .control { type := .XFX_MSG_HELLO_STATIC, saddr := 5, rpDst := 5 } true fun _ _ => 0] := by
  refine ⟨{ index := 1 }, rfl, rfl, fun h => ?_⟩
  have hk := (h.2 _ _ rfl).1 _ _ rfl
  exact hk.own _ List.mem_cons_self trivial

end Agent
end NetworkSimulator.Vanets
