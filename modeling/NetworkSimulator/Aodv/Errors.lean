import NetworkSimulator.Aodv.Rtable

/-!
# Error messages of AODV

The routes through a lost neighbour, and those that a neighbour reports as lost, are taken down and listed in
an error message. Its arrays have `AODV_MAX_ERRORS` places and its counter, which is also the place that is
written next, has eight bits.
-/

namespace NetworkSimulator.Aodv

def AODV_MAX_ERRORS : ℕ := 100

/-- The arrays are taken as unbounded; `written` notes the places that have been written. -/
structure ErrorPacket where
  DestCount : ℕ := 0
  unreachable_dst : ℕ → ℤ := fun _ => 0
  unreachable_dst_seqno : ℕ → ℕ := fun _ => 0
  written : List ℕ := []

def ErrorPacket.add (re : ErrorPacket) (dst : ℤ) (seqno : ℕ) : ErrorPacket where
  DestCount := (re.DestCount + 1) % 256
  unreachable_dst := Function.update re.unreachable_dst re.DestCount dst
  unreachable_dst_seqno := Function.update re.unreachable_dst_seqno re.DestCount seqno
  written := re.written ++ [re.DestCount]

namespace Rtable

/-- The loop of `handle_link_failure`; `none` is a failed assertion. -/
def failRoutes (id : ℤ) : Rtable → ErrorPacket → Option (Rtable × ErrorPacket)
  | [], re => some ([], re)
  | rt :: rts, re =>
    if rt.rt_hops ≠ INFINITY2 ∧ rt.rt_nexthop = id then
      if rt.rt_flags = .RTF_UP ∧ rt.rt_seqno % 2 = 0 then
        let rt' : RtEntry := { rt with rt_seqno := (rt.rt_seqno + 1) % 2 ^ 32 }
        (failRoutes id rts (re.add rt'.rt_dst rt'.rt_seqno)).map fun r => (rt'.rt_down.pc_delete id :: r.1, r.2)
      else none
    else (failRoutes id rts re).map fun r => (rt.pc_delete id :: r.1, r.2)

/-- The error message is sent if its counter is not 0. -/
def handle_link_failure (t : Rtable) (id : ℤ) : Option (Rtable × ErrorPacket) := failRoutes id t {}

/-- What `recvError` does with one destination of an error message from `saddr`. -/
def recvUnreachable (saddr : ℤ) (r : Rtable × ErrorPacket) (dst : ℤ) (seqno : ℕ) : Option (Rtable × ErrorPacket) :=
  match r.1.rt_lookup dst with
  | none => some r
  | some rt =>
    if rt.rt_hops ≠ INFINITY2 ∧ rt.rt_nexthop = saddr ∧ rt.rt_seqno ≤ seqno then
      if rt.rt_flags = .RTF_UP ∧ rt.rt_seqno % 2 = 0 then
        let rt' := ({ rt with rt_seqno := seqno } : RtEntry).rt_down
        -- only a route that somebody uses is reported further
        if rt'.pc_empty then some (r.1.assign dst rt', r.2)
        else some (r.1.assign dst { rt' with rt_pclist := [] }, r.2.add rt'.rt_dst rt'.rt_seqno)
      else none
    else some r

/-- The loop of `recvError`, from place `i` of the message on. -/
def recvPlaces (saddr : ℤ) (re : ErrorPacket) : ℕ → ℕ → Rtable × ErrorPacket → Option (Rtable × ErrorPacket)
  | 0, _, r => some r
  | n + 1, i, r => do
    let r' ← recvUnreachable saddr r (re.unreachable_dst i) (re.unreachable_dst_seqno i)
    recvPlaces saddr re n (i + 1) r'

def recvError (t : Rtable) (saddr : ℤ) (re : ErrorPacket) : Option (Rtable × ErrorPacket) :=
  recvPlaces saddr re re.DestCount 0 (t, {})

end Rtable

/-- The first `n` places have been written, and counted in eight bits. -/
structure Lists (n : ℕ) (re : ErrorPacket) : Prop where
  written : re.written = (List.range n).map (· % 256)
  count : re.DestCount = n % 256

lemma lists_start : Lists 0 {} := ⟨rfl, rfl⟩

lemma Lists.add {n : ℕ} {re : ErrorPacket} (h : Lists n re) (dst : ℤ) (seqno : ℕ) : Lists (n + 1) (re.add dst seqno) := by
  constructor
  · change re.written ++ [re.DestCount] = _
    rw [h.written, h.count, List.range_succ, List.map_append]
    rfl
  · change (re.DestCount + 1) % 256 = _
    rw [h.count, Nat.mod_add_mod]

/-- A message with at most `AODV_MAX_ERRORS` destinations is as it should be. -/
lemma Lists.fits {n : ℕ} {re : ErrorPacket} (h : Lists n re) (hn : n ≤ AODV_MAX_ERRORS) :
    re.written = List.range n ∧ re.DestCount = n := by
  unfold AODV_MAX_ERRORS at hn
  constructor
  · rw [h.written]
    conv_rhs => rw [← List.map_id (List.range n)]
    refine List.map_congr_left fun i hi => ?_
    have hlt := List.mem_range.mp hi
    exact Nat.mod_eq_of_lt (by omega)
  · rw [h.count, Nat.mod_eq_of_lt (by omega)]

namespace Rtable

variable {t t' : Rtable} {id saddr : ℤ} {re nre : ErrorPacket} {n : ℕ}

lemma rt_down_hops {rt : RtEntry} (h : rt.rt_flags ≠ .RTF_DOWN) : rt.rt_down.rt_hops = INFINITY2 := by
  unfold RtEntry.rt_down
  rw [if_neg h]

/-- The routes with a hop count that have `id` as their next hop. -/
def through (id : ℤ) (rt : RtEntry) : Bool := rt.rt_hops ≠ INFINITY2 ∧ rt.rt_nexthop = id

lemma failRoutes_spec (h : failRoutes id t re = some (t', nre)) (hl : Lists n re) :
    Lists (n + takenDown (fun _ => true) t t') nre ∧ takenDown (fun _ => true) t t' = t.countP (through id) := by
  induction t generalizing t' re n with
  | nil =>
    obtain ⟨rfl, rfl⟩ := Prod.mk.inj (Option.some.inj h)
    exact ⟨hl, rfl⟩
  | cons rt t ih =>
    have hcount : ∀ (b : RtEntry) (us : Rtable), takenDown (fun _ => true) (rt :: t) (b :: us) =
        takenDown (fun _ => true) t us + if rt.rt_hops ≠ INFINITY2 ∧ b.rt_hops = INFINITY2 then 1 else 0 := by
      intro b us
      unfold takenDown
      rw [List.zip_cons_cons, List.countP_cons]
      refine congrArg _ (if_congr ?_ rfl rfl)
      simp
    unfold failRoutes at h
    rw [List.countP_cons]
    by_cases hthrough : rt.rt_hops ≠ INFINITY2 ∧ rt.rt_nexthop = id
    · rw [if_pos hthrough] at h
      split_ifs at h with hup
      obtain ⟨⟨us, nre'⟩, hrest, heq⟩ := Option.map_eq_some_iff.mp h
      obtain ⟨rfl, rfl⟩ := Prod.mk.inj heq
      obtain ⟨hlist, hpart⟩ := ih hrest (hl.add _ _)
      have hdown : (({ rt with rt_seqno := (rt.rt_seqno + 1) % 2 ^ 32 } : RtEntry).rt_down.pc_delete id).rt_hops =
          INFINITY2 := rt_down_hops (by simp [hup.1])
      rw [hcount, if_pos ⟨hthrough.1, hdown⟩, if_pos (by simpa [through] using hthrough)]
      refine ⟨?_, by rw [hpart]⟩
      rwa [show n + (takenDown (fun _ => true) t us + 1) = n + 1 + takenDown (fun _ => true) t us by omega]
    · rw [if_neg hthrough] at h
      obtain ⟨⟨us, nre'⟩, hrest, heq⟩ := Option.map_eq_some_iff.mp h
      obtain ⟨rfl, rfl⟩ := Prod.mk.inj heq
      obtain ⟨hlist, hpart⟩ := ih hrest hl
      have hsame : (rt.pc_delete id).rt_hops = rt.rt_hops := rfl
      rw [hcount, hsame, if_neg fun hno => hno.1 hno.2, if_neg (by simpa [through] using hthrough)]
      exact ⟨hlist, hpart⟩

/-- A route that somebody uses. -/
def used (rt : RtEntry) : Bool := !rt.pc_empty

lemma rt_down_pc_empty (rt : RtEntry) (seqno : ℕ) :
    ({ rt with rt_seqno := seqno } : RtEntry).rt_down.pc_empty = rt.pc_empty := by
  unfold RtEntry.rt_down
  split_ifs <;> rfl

lemma recvUnreachable_spec {dst : ℤ} {seqno : ℕ} (h : recvUnreachable saddr (t, re) dst seqno = some (t', nre))
    (hl : Lists n re) :
    List.Forall₂ Lowered t t' ∧ Lists (n + takenDown used t t') nre ∧ takenDown used t t' ≤ 1 := by
  unfold recvUnreachable at h
  cases hfind : t.rt_lookup dst with
  | none =>
    simp only [hfind] at h
    obtain ⟨rfl, rfl⟩ := Prod.mk.inj (Option.some.inj h)
    rw [takenDown_self]
    exact ⟨lowered_refl t, hl, Nat.zero_le _⟩
  | some rt =>
    simp only [hfind] at h
    by_cases hcond : rt.rt_hops ≠ INFINITY2 ∧ rt.rt_nexthop = saddr ∧ rt.rt_seqno ≤ seqno
    · rw [if_pos hcond] at h
      split_ifs at h with hup hempty
      · obtain ⟨rfl, rfl⟩ := Prod.mk.inj (Option.some.inj h)
        have hdown : ({ rt with rt_seqno := seqno } : RtEntry).rt_down.rt_hops = INFINITY2 :=
          rt_down_hops (by simp [hup.1])
        obtain ⟨hlow, hcount⟩ := assign_spec (P := used) hfind (.inr ⟨hcond.1, hdown⟩)
        have hunused : used rt = false := by
          rw [used, ← rt_down_pc_empty rt seqno, hempty]
          rfl
        rw [hunused, if_neg (by simp)] at hcount
        rw [hcount]
        exact ⟨hlow, hl, Nat.zero_le _⟩
      · obtain ⟨rfl, rfl⟩ := Prod.mk.inj (Option.some.inj h)
        let down : RtEntry := { ({ rt with rt_seqno := seqno } : RtEntry).rt_down with rt_pclist := [] }
        have hdown : down.rt_hops = INFINITY2 := rt_down_hops (by simp [hup.1])
        obtain ⟨hlow, hcount⟩ := assign_spec (P := used) hfind (.inr ⟨hcond.1, hdown⟩)
        have hused : used rt = true := by
          rw [used, ← rt_down_pc_empty rt seqno]
          simpa using hempty
        rw [if_pos ⟨hcond.1, hdown, hused⟩] at hcount
        rw [hcount]
        exact ⟨hlow, hl.add _ _, le_rfl⟩
    · rw [if_neg hcond] at h
      obtain ⟨rfl, rfl⟩ := Prod.mk.inj (Option.some.inj h)
      rw [takenDown_self]
      exact ⟨lowered_refl t, hl, Nat.zero_le _⟩

lemma recvPlaces_spec {re₀ : ErrorPacket} {k i : ℕ} (h : recvPlaces saddr re₀ k i (t, re) = some (t', nre))
    (hl : Lists n re) :
    List.Forall₂ Lowered t t' ∧ Lists (n + takenDown used t t') nre ∧ takenDown used t t' ≤ k := by
  induction k generalizing t re i n with
  | zero =>
    obtain ⟨rfl, rfl⟩ := Prod.mk.inj (Option.some.inj h)
    rw [takenDown_self]
    exact ⟨lowered_refl t, hl, le_rfl⟩
  | succ k ih =>
    simp only [recvPlaces, Option.bind_eq_bind, Option.bind_eq_some_iff] at h
    obtain ⟨⟨t₁, re₁⟩, hone, hrest⟩ := h
    obtain ⟨hlow₁, hl₁, hle₁⟩ := recvUnreachable_spec hone hl
    obtain ⟨hlow₂, hl₂, hle₂⟩ := ih hrest hl₁
    rw [takenDown_trans hlow₁ hlow₂]
    refine ⟨lowered_trans hlow₁ hlow₂, ?_, by omega⟩
    rwa [← Nat.add_assoc]

/-- A route to `dst` over neighbour 1 that the neighbours in `pcs` use. -/
def routeOver (dst : ℤ) (pcs : List ℤ) : RtEntry where
  rt_dst := dst
  rt_seqno := 2
  rt_hops := 1
  rt_last_hop_count := 1
  rt_nexthop := 1
  rt_pclist := pcs
  rt_expire := 10
  rt_flags := .RTF_UP

/-- An error message for the destinations `dsts`, all with the sequence number 3. -/
def report (dsts : List ℤ) : ErrorPacket where
  DestCount := dsts.length
  unreachable_dst i := dsts.getD i 0
  unreachable_dst_seqno _ := 3

end Rtable
end NetworkSimulator.Aodv
