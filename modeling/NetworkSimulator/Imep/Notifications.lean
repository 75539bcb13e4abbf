import Mathlib.Data.List.Chain
import NetworkSimulator.Imep.Neighbors

/-!
# What the routing agent is told

For each neighbour the calls `rtNotifyLinkUP` and `rtNotifyLinkDN` alternate, and the last one agrees
with the link record. Two routines report a link down without a look at its status, so this holds as long
as they are used for bidirectional links only.
-/

namespace NetworkSimulator.Imep

open Library

variable {π : Type*}

/-- What a call tells the routing agent about neighbour `x`. -/
def note (x : ℤ) : Call π → Option Bool
  | .rtNotifyLinkUP index => if index = x then some true else none
  | .rtNotifyLinkDN index => if index = x then some false else none
  | _ => none

/-- The notifications about `x`, `true` for up. Before the first one the link is down. -/
def notes (x : ℤ) (calls : List (Call π)) : List Bool := calls.filterMap (note x)

/-- The notifications alternate, the first is up, and the last is as given. -/
structure Told (x : ℤ) (calls : List (Call π)) (up : Prop) : Prop where
  alternate : (false :: notes x calls).IsChain (· ≠ ·)
  last : (false :: notes x calls).getLast (List.cons_ne_nil _ _) = true ↔ up

@[simp] lemma note_up (x : ℤ) : note x (.rtNotifyLinkUP x : Call π) = some true := if_pos rfl
@[simp] lemma note_dn (x : ℤ) : note x (.rtNotifyLinkDN x : Call π) = some false := if_pos rfl

namespace Told

variable {x y : ℤ} {calls : List (Call π)} {up : Prop} {c : Call π}

lemma congr {up' : Prop} (h : Told x calls up) (he : up ↔ up') : Told x calls up' :=
  ⟨h.alternate, h.last.trans he⟩

lemma quiet (h : Told x calls up) (hc : note x c = none) : Told x (calls ++ [c]) up := by
  have hn : notes x (calls ++ [c]) = notes x calls := by simp [notes, hc]
  exact ⟨by rw [hn]; exact h.alternate, by simp only [hn]; exact h.last⟩

/-- A call that tells the opposite of the last one. -/
lemma toggle {b : Bool} (h : Told x calls (b = false)) (hc : note x c = some b) :
    Told x (calls ++ [c]) (b = true) := by
  have hn : false :: notes x (calls ++ [c]) = (false :: notes x calls) ++ [b] := by simp [notes, hc]
  constructor
  · rw [hn, List.isChain_append]
    refine ⟨h.alternate, List.isChain_singleton b, fun a ha b' hb hab => ?_⟩
    rw [List.getLast?_eq_some_getLast (List.cons_ne_nil _ _), Option.mem_some_iff] at ha
    obtain rfl : b = b' := by simpa using hb
    have hl := h.last
    rw [ha, hab] at hl
    cases b <;> simp at hl
  · simp only [hn, List.getLast_append_singleton]

end Told

/-- The routing agent has been told what the link records say. -/
def Agreed (s : Agent π) : Prop := ∀ x, Told x s.calls (s.status x = LINK_BI)

namespace Agent

variable {s s' : Agent π} {x y : ℤ} {f : Link → Link} {now : ℚ}

lemma agreed_congr (h : Agreed s) (hc : s'.calls = s.calls)
    (hs : ∀ x, s.status x = LINK_BI ↔ s'.status x = LINK_BI) : Agreed s' := by
  intro x
  rw [hc]
  exact (h x).congr (hs x)

lemma agreed_call (h : Agreed s) {c : Call π} (hc : ∀ x, note x c = none) : Agreed (s.call c) :=
  fun x => (h x).quiet (hc x)

lemma agreed_setLink (h : Agreed s) (hf : ∀ l, (f l).index = l.index) (hs : ∀ l, (f l).status = l.status) :
    Agreed (s.setLink y f) :=
  agreed_congr h rfl fun x => by rw [status_setLink hf hs]

lemma status_setLink_self (g : Status → Status) (h : (s.findLink y).isSome) :
    (s.setLink y fun l => { l with status := g l.status }).status y = g (s.status y) := by
  have hl : (s.setLink y fun l => { l with status := g l.status }).findLink y =
      (s.findLink y).map fun l => { l with status := g l.status } := findLink_setLink_self fun _ => rfl
  obtain ⟨l, hs⟩ := Option.isSome_iff_exists.mp h
  rw [status_eq, status_eq, hl, hs]
  rfl

lemma LINK_DOWN_ne : LINK_DOWN ≠ LINK_BI := by decide

lemma status_setStatus (g : Status → Status) :
    (s.setStatus y g).status x = (s.setLink y fun l => { l with status := g l.status }).status x := by
  unfold setStatus
  simp only
  split_ifs <;> rfl

/-- Setting a bit tells of the link when it becomes bidirectional. -/
lemma agreed_setStatus (h : Agreed s) {g : Status → Status} (hg : g LINK_BI = LINK_BI) :
    Agreed (s.setStatus y g) := by
  intro x
  rw [status_setStatus]
  unfold setStatus
  simp only
  by_cases hx : x = y
  · subst hx
    split_ifs with hup
    · have hold : s.status x ≠ LINK_BI := fun he => hup.1 (he.trans hup.2.symm)
      exact (((h x).congr (iff_of_false hold (by simp))).toggle (note_up x)).congr
        (iff_of_true rfl hup.2)
    · refine (h x).congr ⟨fun he => ?_, fun he => ?_⟩
      · have hsome := findLink_isSome_of_status (by rw [he]; exact LINK_DOWN_ne.symm)
        rw [status_setLink_self g hsome, he, hg]
      · by_contra hne
        exact hup ⟨fun heq => hne (heq.trans he), he⟩
  · have hs : (s.setLink y fun l => { l with status := g l.status }).status x = s.status x :=
      status_setLink_of_ne (fun _ => rfl) hx
    rw [hs]
    split_ifs
    · exact (h x).quiet (if_neg (Ne.symm hx))
    · exact h x

lemma agreed_in (h : Agreed s) : Agreed (s.imepSetLinkInStatus now y) := by
  unfold imepSetLinkInStatus
  have h₁ : Agreed (s.newLink y) := agreed_congr h calls_newLink fun x => by rw [status_newLink]
  refine agreed_setLink (agreed_setStatus ?_ rfl) (fun _ => rfl) fun _ => rfl
  split_ifs
  · have h₂ := agreed_setLink (f := fun l => { l with lastSeq := 0, outExpire := -1 }) (y := y) h₁
      (fun _ => rfl) fun _ => rfl
    exact agreed_call (c := .sendHello y) h₂ fun _ => rfl
  · exact h₁

lemma agreed_out (h : Agreed s) : Agreed (s.imepSetLinkOutStatus now y) :=
  agreed_setLink (agreed_setStatus h rfl) (fun _ => rfl) fun _ => rfl

lemma agreed_bi (h : Agreed s) : Agreed (s.imepSetLinkBiStatus now y) := agreed_out (agreed_in h)

/-- A link goes down and is reported when the last report was that it is up. -/
lemma agreed_down (h : ∀ x ≠ y, Told x s.calls (s.status x = LINK_BI))
    (hy : Told y s.calls ((s.findLink y).isSome = true)) : Agreed (s.imepSetLinkDownStatus y) := by
  intro x
  cases hl : s.findLink y with
  | none =>
    by_cases hx : x = y
    · subst hx
      rw [status_down_self, down_of_none hl]
      exact (hy.quiet rfl).congr (iff_of_false (by simp [hl]) LINK_DOWN_ne)
    · rw [status_down_of_ne hx, down_of_none hl]
      exact (h x hx).quiet rfl
  | some l =>
    have hcalls : (s.imepSetLinkDownStatus y).calls =
        (s.calls ++ [.imepSetLinkDownStatus y] ++ [.purgeReXmitQ y]) ++ [.rtNotifyLinkDN y] := by
      rw [(down_of_some (by rw [hl]; rfl)).1, List.append_assoc, List.append_assoc]
      rfl
    rw [hcalls]
    by_cases hx : x = y
    · subst hx
      rw [status_down_self]
      have hup : Told x (s.calls ++ [.imepSetLinkDownStatus x] ++ [.purgeReXmitQ x]) (false = false) :=
        ((hy.quiet rfl).quiet rfl).congr (iff_of_true (by simp [hl]) rfl)
      exact (hup.toggle (note_dn x)).congr (iff_of_false (by simp) LINK_DOWN_ne)
    · rw [status_down_of_ne hx]
      exact (((h x hx).quiet rfl).quiet rfl).quiet (if_neg (Ne.symm hx))

/-- There is no record or the link is bidirectional. -/
def Settled (s : Agent π) (y : ℤ) : Prop := s.findLink y = none ∨ s.status y = LINK_BI

instance (s : Agent π) (y : ℤ) : Decidable (s.Settled y) := inferInstanceAs (Decidable (_ ∨ _))

lemma agreed_down_of_settled (h : Agreed s) (hy : s.Settled y) : Agreed (s.imepSetLinkDownStatus y) := by
  refine agreed_down (fun x _ => h x) ((h y).congr ?_)
  rcases hy with hy | hy
  · have hdown : s.status y = LINK_DOWN := by
      rw [status_eq, hy]
      rfl
    rw [hdown, hy]
    exact iff_of_false LINK_DOWN_ne (by simp)
  · exact iff_of_true hy (findLink_isSome_of_status (by rw [hy]; exact LINK_DOWN_ne.symm))

lemma status_of_expired (h : (s.setLink y (Link.expired now)).status y = LINK_BI) : s.status y = LINK_BI := by
  have hl : (s.setLink y (Link.expired now)).findLink y = (s.findLink y).map (Link.expired now) :=
    findLink_setLink_self fun _ => rfl
  rw [status_eq, hl] at h
  rw [status_eq]
  cases hf : s.findLink y with
  | none => simp [hf, LINK_DOWN, LINK_BI] at h
  | some l =>
    simp only [hf, Option.map_some, Option.getD_some, Link.expired, LINK_BI, Status.mk.injEq, Bool.and_eq_true] at h
    change l.status = LINK_BI
    rw [LINK_BI, ← h.1.1]
    nth_rewrite 2 [h.1.1]
    rw [← h.2.1]

/-- A record whose link is down is deleted without a word. -/
lemma agreed_delete (h : Agreed s) (hy : s.status y = LINK_DOWN) : Agreed (s.deleteLink y) := by
  refine agreed_congr h rfl fun x => ?_
  by_cases hx : x = y
  · subst hx
    have hnone : (s.deleteLink x).status x = LINK_DOWN := by
      rw [status_eq, findLink_deleteLink_self]
      rfl
    rw [hnone, hy]
  · rw [status_eq, status_eq, findLink_deleteLink_of_ne hx]

lemma agreed_purgeOne (h : Agreed s) : Agreed (s.purgeOne now y) := by
  have hother : ∀ x ≠ y, (s.setLink y (Link.expired now)).status x = s.status x :=
    fun x hx => status_setLink_of_ne (fun _ => rfl) hx
  unfold purgeOne
  extract_lets s₁ s₂
  have hs₂ : Agreed s₂ := by
    by_cases hdown : s.status y = LINK_BI ∧ s₁.status y ≠ LINK_BI
    · have hs : s₂ = s₁.imepSetLinkDownStatus y := if_pos hdown
      rw [hs]
      refine agreed_down (fun x hx => by rw [hother x hx]; exact h x) ((h y).congr (iff_of_true hdown.1 ?_))
      have hl : s₁.findLink y = (s.findLink y).map (Link.expired now) := findLink_setLink_self fun _ => rfl
      rw [hl, Option.isSome_map]
      exact findLink_isSome_of_status (by rw [hdown.1]; exact LINK_DOWN_ne.symm)
    · have hs : s₂ = s₁ := if_neg hdown
      rw [hs]
      refine agreed_congr h rfl fun x => ?_
      by_cases hx : x = y
      · subst hx
        refine ⟨fun he => ?_, status_of_expired⟩
        by_contra hne
        exact hdown ⟨he, hne⟩
      · rw [hother x hx]
  split_ifs with hd
  · exact agreed_delete hs₂ hd
  · exact hs₂

lemma agreed_beacon (h : Agreed s) : Agreed (s.handlerBeaconTimer now) := by
  unfold handlerBeaconTimer purgeLink
  refine List.foldlRecOn (motive := Agreed) _ _ ?_ fun s hs x _ => agreed_call hs fun _ => rfl
  exact List.foldlRecOn (motive := Agreed) _ _ h fun s hs x _ => agreed_purgeOne hs

lemma agreed_queue (h : Agreed s) (q : DstQueue π) : Agreed { s with incomingQ := q } :=
  agreed_congr h rfl fun _ => Iff.rfl

lemma agreed_lastSeq (h : Agreed s) (g : Link → ℕ) : Agreed (s.setLink y fun l => { l with lastSeq := g l }) :=
  agreed_setLink h (fun _ => rfl) fun _ => rfl

lemma agreed_process (h : Agreed s) (p : π) : Agreed (s.call (.imep_object_process y p)) :=
  agreed_call h fun _ => rfl

lemma agreed_deliver {fuel : ℕ} (h : Agreed s) : Agreed (s.deliver y fuel) := by
  induction fuel generalizing s with
  | zero => exact h
  | succ fuel ih =>
    unfold deliver
    split
    · exact h
    · exact ih (agreed_process (agreed_lastSeq (agreed_queue h _) _) _)

lemma agreed_object {saddr : ℤ} {ob : ObjectBlock π} (h : Agreed s) :
    Agreed (s.imep_object_input now saddr ob) := by
  have h₁ : Agreed (s.imep_ack_object saddr ob) := by
    unfold imep_ack_object
    split_ifs
    · exact agreed_call h fun _ => rfl
    · exact h
  unfold imep_object_input
  extract_lets s₁ s₂ s₃
  have h₂ : Agreed s₂ := by
    dsimp only [s₂]
    split_ifs
    · exact agreed_lastSeq h₁ _
    · exact h₁
  split_ifs
  · exact h₂
  · refine agreed_deliver ?_
    dsimp only [s₃]
    split_ifs
    · exact agreed_lastSeq (agreed_process h₂ _) _
    · exact agreed_queue h₂ _

lemma agreed_recv {p : Incoming π} (h : Agreed s) : Agreed (s.recv_incoming now p) := by
  have hack : ∀ s : Agent π, Agreed s → ∀ ack ∈ p.acks, Agreed (imepAck now p.saddr s ack) := by
    intro s hs ack _
    unfold imepAck
    extract_lets s₁
    split_ifs
    · have hack : Agreed (s.call (.imep_ack p.saddr ack.2)) := agreed_call hs fun _ => rfl
      split
      · exact hack
      · exact agreed_bi (agreed_congr hack rfl fun _ => Iff.rfl)
    · exact hs
  have hin : Agreed (s.imepSetLinkInStatus now p.saddr) := agreed_in h
  unfold recv_incoming
  extract_lets s₁ s₂ s₃
  split_ifs
  · exact agreed_call hin fun _ => rfl
  · have h₂ : Agreed s₂ := List.foldlRecOn (motive := Agreed) _ _ hin hack
    have h₃ : Agreed s₃ := by
      dsimp only [s₃, imep_hello_input]
      split_ifs
      · exact agreed_bi h₂
      · exact h₂
    split
    · exact h₃
    · exact agreed_object h₃

/-! ### The incoming timer -/

/-- A source from which the timer pulls packets: one has waited long enough, or a chain is being pulled. -/
def Due (now : ℚ) (d : Dstent π) : Prop := (∃ t ∈ d.txents, t.expire ≤ now) ∨ d.seqno ≠ ILLEGAL_SEQ

lemma due_of_pulled {d : Dstent π} {t : Txent π} {ts : List (Txent π)} {seqno : ℕ} (htx : d.txents = t :: ts)
    (h : d.Pulled now t seqno) : Due now d := by
  rcases h with ⟨hexp, -⟩ | ⟨-, hchain, -⟩ | ⟨-, -, -, hdue⟩
  · exact .inl ⟨t, by rw [htx]; exact List.mem_cons_self, hexp⟩
  · exact .inr hchain
  · exact .inl hdue

/-- The sources that the timer looks at have bidirectional links. -/
def DueBi (now : ℚ) (s : Agent π) : Prop := ∀ d ∈ s.incomingQ, Due now d → s.status d.ipaddr = LINK_BI

lemma dueBi_deliver {fuel : ℕ} (h : DueBi now s) : DueBi now (s.deliver y fuel) := by
  induction fuel generalizing s with
  | zero => exact h
  | succ fuel ih =>
    unfold deliver
    split
    · exact h
    next q p hq =>
      refine ih fun d hd hdue => ?_
      rw [status_call, status_lastSeq]
      change s.status d.ipaddr = LINK_BI
      unfold DstQueue.getPacket at hq
      cases hf : s.incomingQ.findEntry y with
      | none => simp [hf] at hq
      | some e =>
        simp only [hf, Prod.mk.injEq] at hq
        change d ∈ q at hd
        rw [← hq.1] at hd
        obtain ⟨d', hd', rfl⟩ := List.mem_map.mp hd
        by_cases hy : d'.ipaddr = y
        · rw [if_pos hy] at hdue ⊢
          obtain ⟨hip, hseq, hsub⟩ := d'.getPacket_frame (s.lastSeq y + 1)
          rw [hip]
          refine h d' hd' ?_
          rcases hdue with ⟨t, ht, hexp⟩ | hchain
          · exact .inl ⟨t, hsub.subset ht, hexp⟩
          · exact .inr (hseq ▸ hchain)
        · rw [if_neg hy] at hdue ⊢
          exact h d' hd' hdue

lemma agreed_retireHoles {fuel : ℕ} (h : Agreed s) (hdue : DueBi now s) (hs : s.retireHoles now fuel = some s') :
    Agreed s' := by
  induction fuel generalizing s with
  | zero =>
    obtain rfl := Option.some.inj hs
    exact h
  | succ fuel ih =>
    rcases s.incomingQ.getNextPacket_cases now with ⟨hq, -⟩ | ⟨ds, d, es, t, ts, seqno, hsplit, htx, hp, -, hq⟩
    · simp only [retireHoles, hq] at hs
      obtain rfl := Option.some.inj hs
      exact agreed_queue h _
    · simp only [retireHoles, hq] at hs
      split_ifs at hs
      have hd : d ∈ s.incomingQ := by simp [hsplit]
      have hbi : s.status d.ipaddr = LINK_BI := hdue d hd (due_of_pulled htx hp)
      refine ih ?_ (dueBi_deliver ?_) hs
      · refine agreed_deliver (agreed_process (agreed_lastSeq ?_ _) _)
        intro x
        by_cases hx : x = d.ipaddr
        · subst hx
          have hdn := ((h d.ipaddr).congr (iff_of_true hbi rfl) : Told _ _ (false = false)).toggle
            (note_dn d.ipaddr)
          have hup := (hdn.congr (by simp) : Told _ _ (true = false)).toggle (note_up d.ipaddr)
          exact hup.congr (iff_of_true rfl hbi)
        · have hdn := (h x).quiet (c := .rtNotifyLinkDN d.ipaddr) (if_neg (Ne.symm hx))
          exact hdn.quiet (c := .rtNotifyLinkUP d.ipaddr) (if_neg (Ne.symm hx))
      · intro d' hd' hdue'
        rw [status_call, status_lastSeq]
        change s.status d'.ipaddr = LINK_BI
        rcases List.mem_append.mp hd' with hd' | hd'
        · obtain ⟨e, he, rfl⟩ := List.mem_map.mp hd'
          refine hdue e (by simp [hsplit, he]) (.inl ?_)
          rcases hdue' with hexp | hchain
          · exact hexp
          · exact absurd rfl hchain
        · rcases List.mem_cons.mp hd' with rfl | hd'
          · exact hbi
          · exact hdue d' (by simp [hsplit, hd']) hdue'

lemma agreed_incoming (h : Agreed s) (hdue : DueBi now s) (hs : s.handlerIncomingTimer now = some s') :
    Agreed s' := by
  simp only [handlerIncomingTimer, Option.bind_eq_bind, Option.bind_eq_some_iff] at hs
  obtain ⟨t, ht, hs⟩ := hs
  split_ifs at hs
  obtain rfl := Option.some.inj hs
  exact agreed_retireHoles h hdue ht

/-! ### The retransmission timer -/

/-- The responses of a packet are for different neighbours, and none has a link that is not bidirectional. -/
def Punts (s : Agent π) (e : Rexent) : Prop := e.list.Nodup ∧ ∀ y ∈ e.list, s.Settled y

instance (s : Agent π) (e : Rexent) : Decidable (s.Punts e) := inferInstanceAs (Decidable (_ ∧ _))

lemma settled_down_of_ne (h : s.Settled x) (hx : x ≠ y) : (s.imepSetLinkDownStatus y).Settled x := by
  unfold Settled
  rwa [findLink_down_of_ne hx, status_down_of_ne hx]

lemma agreed_punt {id fuel i : ℕ} (h : Agreed s) (hn : Numbered s)
    (hp : ∀ e, (s.rexmitq.find? fun e => e.id = id) = some e → s.Punts e) : Agreed (s.punt id fuel i) := by
  induction fuel generalizing s i with
  | zero => exact h
  | succ fuel ih =>
    unfold punt
    split
    · exact h
    next e he =>
      split_ifs with hi
      · obtain ⟨hnodup, hset⟩ := hp e he
        have hy : e.response i ∈ e.list := Rexent.mem_list.mpr ⟨i, hi, rfl⟩
        have hy' := hset _ hy
        refine ih (agreed_down_of_settled h hy') (shrinks_down.numbered hn) fun e' he' => ?_
        cases hl : s.findLink (e.response i) with
        | none =>
          rw [down_of_none hl] at he' ⊢
          exact hp e' he'
        | some l =>
          -- the address is off the list, and the links of the others are as before
          rw [(down_of_some (by rw [hl]; rfl)).2.2.1, find?_filterMap hn.nodup fun _ _ => removeResponse_id, he] at he'
          obtain ⟨hnodup', hsub, hnot⟩ := Rexent.removeResponse_sub hnodup he'
          refine ⟨hnodup', fun z hz => settled_down_of_ne (hset z (hsub z hz)) ?_⟩
          rintro rfl
          exact hnot hz
      · exact h

lemma agreed_rexmit (h : Agreed s) (hn : Numbered s)
    (hp : ∀ e ∈ s.rexmitq.head?, e.rexmitsLeft = 0 → s.Punts e) : Agreed (s.handlerReXmitTimer now) := by
  unfold handlerReXmitTimer
  split
  · exact h
  next e es hq =>
    split_ifs with hleft
    · refine agreed_punt h hn fun e' he' => ?_
      rw [hq, List.find?_cons_of_pos (by simp)] at he'
      obtain rfl := Option.some.inj he'
      exact hp e (by rw [hq]; rfl) hleft
    · have hq : Agreed { s with rexmitq := _ } := agreed_congr h rfl fun _ => Iff.rfl
      exact agreed_call hq fun _ => rfl
    · exact h

/-! ### Runs -/

/-- A failed transmission and the incoming timer meet bidirectional links. -/
def DownsBi (s : Agent π) : Event π → Prop
  | .undeliverable inet nextHop => inet = true → s.Settled nextHop
  | .incomingTimer now => ∀ d ∈ s.incomingQ, (∃ t ∈ d.txents, t.expire ≤ now) → s.status d.ipaddr = LINK_BI
  | _ => True

/-- The retransmission timer gives up on bidirectional links. -/
def PuntsBi (s : Agent π) : Event π → Prop
  | .rexmitTimer _ => ∀ e ∈ s.rexmitq.head?, e.rexmitsLeft = 0 → s.Punts e
  | _ => True

instance (s : Agent π) : ∀ e, Decidable (DownsBi s e)
  | .undeliverable inet nextHop => inferInstanceAs (Decidable (inet = true → s.Settled nextHop))
  | .incomingTimer now =>
    inferInstanceAs (Decidable (∀ d ∈ s.incomingQ, (∃ t ∈ d.txents, t.expire ≤ now) → s.status d.ipaddr = LINK_BI))
  | .recv _ _ | .aggregateObject _ _ | .beaconTimer _ | .rexmitTimer _ => inferInstanceAs (Decidable True)

lemma step_agreed {e : Event π} {o : Unit} (h : Agreed s) (hi : s.incomingQ.Idle) (hn : Numbered s) (hd : DownsBi s e)
    (hp : PuntsBi s e) (hs : s.step e = some (s', o)) : Agreed s' := by
  cases e with
  | recv now p =>
    obtain ⟨rfl, -⟩ := Prod.mk.inj (Option.some.inj hs)
    exact agreed_recv h
  | aggregateObject now found =>
    obtain ⟨rfl, -⟩ := Prod.mk.inj (Option.some.inj hs)
    have hlist : Agreed (s.call (.createResponseList (s.controlSequence + 1)
        ((List.range (s.biLinks.length % 32)).map (found s.biLinks)))) := agreed_call h fun _ => rfl
    unfold aggregateObjectBlock
    simp only
    split_ifs
    · exact agreed_congr hlist rfl fun _ => Iff.rfl
    · exact agreed_congr hlist rfl fun _ => Iff.rfl
  | beaconTimer now =>
    obtain ⟨rfl, -⟩ := Prod.mk.inj (Option.some.inj hs)
    exact agreed_beacon h
  | rexmitTimer now =>
    obtain ⟨rfl, -⟩ := Prod.mk.inj (Option.some.inj hs)
    exact agreed_rexmit h hn hp
  | incomingTimer now =>
    obtain ⟨t, ht, he⟩ := Option.map_eq_some_iff.mp hs
    obtain ⟨rfl, -⟩ := Prod.mk.inj he
    refine agreed_incoming h (fun d hq hdue => ?_) ht
    rcases hdue with hexp | hchain
    · exact hd d hq hexp
    · exact absurd (hi d hq) hchain
  | undeliverable inet nextHop =>
    obtain ⟨rfl, -⟩ := Prod.mk.inj (Option.some.inj hs)
    unfold imepPacketUndeliverable
    split_ifs with hinet
    · exact agreed_down_of_settled h (hd hinet)
    · exact h

/-- What holds between two events. -/
structure Kept (s : Agent π) : Prop where
  agreed : Agreed s
  idle : s.incomingQ.Idle
  numbered : Numbered s

lemma Kept.step {e : Event π} {o : Unit} (h : Kept s) (hd : DownsBi s e) (hp : PuntsBi s e)
    (hs : s.step e = some (s', o)) : Kept s' :=
  ⟨step_agreed h.agreed h.idle h.numbered hd hp hs, step_idle h.idle hs, step_numbered h.numbered hs⟩

lemma start_kept (ipaddr : ℤ) : Kept ({ ipaddr } : Agent π) where
  agreed x := ⟨List.isChain_singleton false, iff_of_false (by simp [notes]) LINK_DOWN_ne⟩
  idle d hd := by cases hd
  numbered := ⟨List.nodup_nil, fun e he => by cases he⟩

lemma start_answering (ipaddr : ℤ) : Answering ({ ipaddr } : Agent π) where
  indices := List.nodup_nil
  nodup e he := by cases he
  status e he := by cases he

lemma puntsBi_of_answering (h : Answering s) (e : Event π) : PuntsBi s e := by
  cases e with
  | rexmitTimer now =>
    intro e he _
    have hmem : e ∈ s.rexmitq := List.mem_of_mem_head? he
    exact ⟨h.nodup e hmem, fun y hy => .inr (h.bi hmem hy)⟩
  | _ => trivial

/-- The notifications of a run agree with the link records when links are declared down only while they
are bidirectional; the retransmission timer sees to that by itself if response lists are read as they
were written. -/
theorem notifications_run {ipaddr : ℤ} {es : List (Event π)} {t : Agent π} {os : List Unit}
    (h : run step { ipaddr } es = some (t, os)) (hd : EachStep step DownsBi { ipaddr } es)
    (hp : EachStep step PuntsBi { ipaddr } es ∨ ∀ e ∈ es, Faithful e) (x : ℤ) :
    Told x t.calls (t.status x = LINK_BI) := by
  rcases hp with hp | hf
  · have hrun := EachStep.invariant (fun s e s' o hs hP hstep => hs.step hP.1 hP.2 hstep) (hd.and hp)
      (start_kept ipaddr) h
    exact hrun.agreed x
  · have hrun := EachStep.invariant (fun s e s' o (hs : Kept s ∧ Answering s) hP hstep =>
      ⟨hs.1.step hP.1 (puntsBi_of_answering hs.2 e) hstep, step_answering hs.2 hP.2 hstep⟩) (hd.and_mem hf)
      ⟨start_kept ipaddr, start_answering ipaddr⟩ h
    exact hrun.1.agreed x

/-- A link comes up, is used for an object that is acknowledged, and a packet to the neighbour is lost. -/
def upAndDown : List (Event ℕ) :=
  [.recv 0 { saddr := 2 }, .recv 1 { saddr := 2, hellos := [1] }, .aggregateObject 2 fun l i => l.getD i 0,
    .recv 2 { saddr := 2, acks := [(1, 1)] }, .undeliverable true 2]

theorem notifications_run_down :
    ∃ t : Agent ℕ, ∃ os, run step { ipaddr := 1 } upAndDown = some (t, os) ∧
      (notes 2 t.calls = [true, false] ∧ t.status 2 = LINK_DOWN) ∧ Told 2 t.calls (t.status 2 = LINK_BI) := by
  obtain ⟨t, os, hP, hrun, hQ⟩ : ∃ t : Agent ℕ, ∃ os, EachStep step DownsBi { ipaddr := 1 } upAndDown ∧
      run step { ipaddr := 1 } upAndDown = some (t, os) ∧ notes 2 t.calls = [true, false] ∧
        t.status 2 = LINK_DOWN :=
    run_guarded_of (fun (t : Agent ℕ) _ => notes 2 t.calls = [true, false] ∧ t.status 2 = LINK_DOWN)
      (by decide +kernel)
  refine ⟨t, os, hrun, hQ, notifications_run hrun hP (.inr fun e he => ?_) 2⟩
  simp only [upAndDown, List.mem_cons, List.not_mem_nil, or_false] at he
  obtain rfl | rfl | rfl | rfl | rfl := he
  · trivial
  · trivial
  · exact fun l i hi => by simp [hi]
  · trivial
  · trivial

/-- A lost packet to a neighbour that has only been heard: the routing agent is told that a link is down
that was never up. -/
theorem notifications_unpaired :
    ∃ t : Agent ℕ, ∃ os, run step { ipaddr := 1 } [.recv 0 { saddr := 2 }, .undeliverable true 2] = some (t, os) ∧
      notes 2 t.calls = [false] ∧ ¬Told 2 t.calls (t.status 2 = LINK_BI) := by
  refine ⟨_, _, rfl, rfl, fun h => ?_⟩
  have hchain : [false, false].IsChain (· ≠ ·) := h.alternate
  simp at hchain

end Agent
end NetworkSimulator.Imep
