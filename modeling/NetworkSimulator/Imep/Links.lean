import NetworkSimulator.Imep.Agent

/-!
# Link records

What each routine of the agent does to the record of one neighbour, and what it leaves alone.
-/

namespace NetworkSimulator.Imep.Agent

variable {π : Type*} {s : Agent π} {x y : ℤ} {f : Link → Link} {now : ℚ}

lemma status_eq : s.status x = ((s.findLink x).map Link.status).getD LINK_DOWN := by
  unfold status
  cases s.findLink x <;> rfl

lemma lastSeq_eq : s.lastSeq x = ((s.findLink x).map Link.lastSeq).getD 0 := by
  unfold lastSeq
  cases s.findLink x <;> rfl

@[simp] lemma findLink_call (c : Call π) : (s.call c).findLink x = s.findLink x := rfl
@[simp] lemma status_call (c : Call π) : (s.call c).status x = s.status x := rfl
@[simp] lemma lastSeq_call (c : Call π) : (s.call c).lastSeq x = s.lastSeq x := rfl
@[simp] lemma calls_call (c : Call π) : (s.call c).calls = s.calls ++ [c] := rfl
@[simp] lemma rexmitq_call (c : Call π) : (s.call c).rexmitq = s.rexmitq := rfl
@[simp] lemma incomingQ_call (c : Call π) : (s.call c).incomingQ = s.incomingQ := rfl
@[simp] lemma calls_setLink : (s.setLink y f).calls = s.calls := rfl
@[simp] lemma rexmitq_setLink : (s.setLink y f).rexmitq = s.rexmitq := rfl
@[simp] lemma incomingQ_setLink : (s.setLink y f).incomingQ = s.incomingQ := rfl

lemma findLink_setLink_self (hf : ∀ l, (f l).index = l.index) :
    (s.setLink y f).findLink y = (s.findLink y).map f := by
  unfold findLink setLink
  generalize s.links = ls
  induction ls with
  | nil => rfl
  | cons l ls ih =>
    rw [List.map_cons]
    by_cases h : l.index = y
    · rw [if_pos h, List.find?_cons_of_pos (by simpa [hf] using h), List.find?_cons_of_pos (by simpa using h)]
      rfl
    · rw [if_neg h, List.find?_cons_of_neg (by simpa using h), List.find?_cons_of_neg (by simpa using h), ih]

lemma findLink_setLink_of_ne (hf : ∀ l, (f l).index = l.index) (h : x ≠ y) :
    (s.setLink y f).findLink x = s.findLink x := by
  unfold findLink setLink
  generalize s.links = ls
  induction ls with
  | nil => rfl
  | cons l ls ih =>
    rw [List.map_cons]
    by_cases hx : l.index = x
    · have hy : ¬l.index = y := fun hy => h (hx.symm.trans hy)
      rw [if_neg hy, List.find?_cons_of_pos (by simpa using hx), List.find?_cons_of_pos (by simpa using hx)]
    · have hx' : ¬(if l.index = y then f l else l).index = x := by
        split_ifs
        · rwa [hf]
        · exact hx
      rw [List.find?_cons_of_neg (by simpa using hx'), List.find?_cons_of_neg (by simpa using hx), ih]

lemma status_setLink_of_ne (hf : ∀ l, (f l).index = l.index) (h : x ≠ y) :
    (s.setLink y f).status x = s.status x := by
  rw [status_eq, status_eq, findLink_setLink_of_ne hf h]

/-- A write that leaves the status bits alone. -/
lemma status_setLink (hf : ∀ l, (f l).index = l.index) (hs : ∀ l, (f l).status = l.status) :
    (s.setLink y f).status x = s.status x := by
  by_cases h : x = y
  · subst h
    rw [status_eq, status_eq, findLink_setLink_self hf]
    cases s.findLink x with
    | none => rfl
    | some l => exact hs l
  · exact status_setLink_of_ne hf h

@[simp] lemma status_lastSeq (g : Link → ℕ) :
    (s.setLink y fun l => { l with lastSeq := g l }).status x = s.status x :=
  status_setLink (fun _ => rfl) fun _ => rfl

lemma lastSeq_setLink_of_ne (hf : ∀ l, (f l).index = l.index) (h : x ≠ y) :
    (s.setLink y f).lastSeq x = s.lastSeq x := by
  rw [lastSeq_eq, lastSeq_eq, findLink_setLink_of_ne hf h]

lemma lastSeq_setLink (hf : ∀ l, (f l).index = l.index) (hs : ∀ l, (f l).lastSeq = l.lastSeq) :
    (s.setLink y f).lastSeq x = s.lastSeq x := by
  by_cases h : x = y
  · subst h
    rw [lastSeq_eq, lastSeq_eq, findLink_setLink_self hf]
    cases s.findLink x with
    | none => rfl
    | some l => exact hs l
  · exact lastSeq_setLink_of_ne hf h

lemma findLink_newLink_self : (s.newLink y).findLink y = some ((s.findLink y).getD { index := y }) := by
  unfold newLink
  cases h : s.findLink y with
  | none => simp [findLink]
  | some l => simp [h]

lemma findLink_newLink_of_ne (h : x ≠ y) : (s.newLink y).findLink x = s.findLink x := by
  unfold newLink
  split_ifs
  · exact List.find?_cons_of_neg (by simpa using h.symm)
  · rfl

@[simp] lemma status_newLink : (s.newLink y).status x = s.status x := by
  by_cases h : x = y
  · subst h
    rw [status_eq, status_eq, findLink_newLink_self]
    cases s.findLink x <;> rfl
  · rw [status_eq, status_eq, findLink_newLink_of_ne h]

@[simp] lemma lastSeq_newLink : (s.newLink y).lastSeq x = s.lastSeq x := by
  by_cases h : x = y
  · subst h
    rw [lastSeq_eq, lastSeq_eq, findLink_newLink_self]
    cases s.findLink x <;> rfl
  · rw [lastSeq_eq, lastSeq_eq, findLink_newLink_of_ne h]

@[simp] lemma calls_newLink : (s.newLink y).calls = s.calls := by unfold newLink; split_ifs <;> rfl
@[simp] lemma rexmitq_newLink : (s.newLink y).rexmitq = s.rexmitq := by unfold newLink; split_ifs <;> rfl
@[simp] lemma incomingQ_newLink : (s.newLink y).incomingQ = s.incomingQ := by unfold newLink; split_ifs <;> rfl

lemma findLink_deleteLink_of_ne (h : x ≠ y) : (s.deleteLink y).findLink x = s.findLink x := by
  unfold findLink deleteLink
  rw [List.find?_filter]
  refine congrArg (fun p => s.links.find? p) (funext fun l => ?_)
  by_cases hl : l.index = x <;> simp [hl, h]

lemma findLink_deleteLink_self : (s.deleteLink y).findLink y = none := by
  unfold findLink deleteLink
  rw [List.find?_eq_none]
  intro l hl
  simpa using (List.mem_filter.mp hl).2

lemma findLink_isSome_of_status (h : s.status x ≠ LINK_DOWN) : (s.findLink x).isSome := by
  cases hl : s.findLink x with
  | none => exact absurd (by rw [status_eq, hl]; rfl) h
  | some l => rfl

@[simp] lemma rexmitq_setStatus (g : Status → Status) : (s.setStatus y g).rexmitq = s.rexmitq := by
  unfold setStatus
  simp only
  split_ifs <;> rfl

@[simp] lemma incomingQ_setStatus (g : Status → Status) : (s.setStatus y g).incomingQ = s.incomingQ := by
  unfold setStatus
  simp only
  split_ifs <;> rfl

@[simp] lemma rexmitq_in : (s.imepSetLinkInStatus now y).rexmitq = s.rexmitq := by
  unfold imepSetLinkInStatus
  simp only [rexmitq_setLink, rexmitq_setStatus]
  split_ifs <;> simp

@[simp] lemma incomingQ_in : (s.imepSetLinkInStatus now y).incomingQ = s.incomingQ := by
  unfold imepSetLinkInStatus
  simp only [incomingQ_setLink, incomingQ_setStatus]
  split_ifs <;> simp

@[simp] lemma rexmitq_bi : (s.imepSetLinkBiStatus now y).rexmitq = s.rexmitq := by
  simp [imepSetLinkBiStatus, imepSetLinkOutStatus]

@[simp] lemma incomingQ_bi : (s.imepSetLinkBiStatus now y).incomingQ = s.incomingQ := by
  simp [imepSetLinkBiStatus, imepSetLinkOutStatus]

/-! ### A link goes down -/

lemma down_of_none (h : s.findLink y = none) :
    s.imepSetLinkDownStatus y = s.call (.imepSetLinkDownStatus y) := by
  unfold imepSetLinkDownStatus
  simp only
  rw [if_pos (by rw [findLink_call, h]; rfl)]

lemma down_of_some (h : (s.findLink y).isSome) :
    (s.imepSetLinkDownStatus y).calls = s.calls ++ [.imepSetLinkDownStatus y, .purgeReXmitQ y, .rtNotifyLinkDN y] ∧
      (s.imepSetLinkDownStatus y).links =
        (s.setLink y fun l => { l with status := LINK_DOWN, inExpire := -1, outExpire := -1 }).links ∧
      (s.imepSetLinkDownStatus y).rexmitq = s.rexmitq.filterMap (fun e => e.removeResponse y) ∧
      (s.imepSetLinkDownStatus y).incomingQ = s.incomingQ.deleteDst y := by
  have hif : ¬((s.call (.imepSetLinkDownStatus y)).findLink y).isNone = true := by
    rw [findLink_call, ← Option.not_isSome, h]
    decide
  unfold imepSetLinkDownStatus
  simp only
  rw [if_neg hif]
  exact ⟨by simp [purgeReXmitQ], rfl, rfl, rfl⟩

lemma findLink_down_of_ne (h : x ≠ y) : (s.imepSetLinkDownStatus y).findLink x = s.findLink x := by
  cases hl : s.findLink y with
  | none => rw [down_of_none hl, findLink_call]
  | some l =>
    have hd := (down_of_some (by rw [hl]; rfl)).2.1
    have hne : (s.setLink y fun l => { l with status := LINK_DOWN, inExpire := -1, outExpire := -1 }).findLink x =
        s.findLink x := findLink_setLink_of_ne (fun _ => rfl) h
    rw [← hne, findLink, findLink, hd]

lemma status_down_of_ne (h : x ≠ y) : (s.imepSetLinkDownStatus y).status x = s.status x := by
  rw [status_eq, status_eq, findLink_down_of_ne h]

lemma status_down_self : (s.imepSetLinkDownStatus y).status y = LINK_DOWN := by
  cases hl : s.findLink y with
  | none =>
    rw [down_of_none hl, status_call, status_eq, hl]
    rfl
  | some l =>
    have hd := (down_of_some (by rw [hl]; rfl)).2.1
    have hself : (s.setLink y fun l => { l with status := LINK_DOWN, inExpire := -1, outExpire := -1 }).findLink y =
        (s.findLink y).map fun l => { l with status := LINK_DOWN, inExpire := -1, outExpire := -1 } :=
      findLink_setLink_self fun _ => rfl
    rw [status_eq, findLink, hd, ← findLink, hself, hl]
    rfl

end NetworkSimulator.Imep.Agent
