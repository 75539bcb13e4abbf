import NetworkSimulator.Library.Runs
import NetworkSimulator.Tora.Agent
import Mathlib.Algebra.BigOperators.Group.List.Basic
import Mathlib.Tactic.Ring

/-!
# The link counters of a TORA destination

`num_active`, `num_down` and `num_up` against the list of neighbours, over any sequence of calls of the agent.
-/

namespace NetworkSimulator
open Library

section UpdateFirst
variable {α : Type*} {p : α → Bool} {f : α → α} {g : α → ℤ} {l : List α} {a : α}

lemma length_updateFirst : (updateFirst p f l).length = l.length := by
  induction l with
  | nil => rfl
  | cons b l ih =>
    unfold updateFirst
    split
    · rfl
    · rw [List.length_cons, ih, List.length_cons]

lemma mem_updateFirst {b : α} (hb : b ∈ updateFirst p f l) : b ∈ l ∨ ∃ a, l.find? p = some a ∧ b = f a := by
  induction l with
  | nil => exact Or.inl hb
  | cons c l ih =>
    unfold updateFirst at hb
    by_cases hc : p c
    · rw [if_pos hc] at hb
      rw [List.find?_cons_of_pos hc]
      rcases List.mem_cons.mp hb with rfl | hb
      · exact Or.inr ⟨c, rfl, rfl⟩
      · exact Or.inl (List.mem_cons_of_mem c hb)
    · rw [if_neg hc] at hb
      rw [List.find?_cons_of_neg hc]
      rcases List.mem_cons.mp hb with rfl | hb
      · exact Or.inl List.mem_cons_self
      · exact (ih hb).imp_left (List.mem_cons_of_mem c)

lemma sum_updateFirst (ha : l.find? p = some a) :
    ((updateFirst p f l).map g).sum = (l.map g).sum - g a + g (f a) := by
  induction l with
  | nil => simp at ha
  | cons b l ih =>
    unfold updateFirst
    by_cases hb : p b
    · rw [List.find?_cons_of_pos hb] at ha
      obtain rfl := Option.some.inj ha
      rw [if_pos hb, List.map_cons, List.sum_cons, List.map_cons, List.sum_cons]
      ring
    · rw [List.find?_cons_of_neg hb] at ha
      rw [if_neg hb, List.map_cons, List.sum_cons, ih ha, List.map_cons, List.sum_cons]
      ring

lemma sum_eraseP (ha : l.find? p = some a) : ((l.eraseP p).map g).sum = (l.map g).sum - g a := by
  induction l with
  | nil => simp at ha
  | cons b l ih =>
    by_cases hb : p b
    · rw [List.find?_cons_of_pos hb] at ha
      obtain rfl := Option.some.inj ha
      rw [List.eraseP_cons_of_pos hb, List.map_cons, List.sum_cons]
      ring
    · rw [List.find?_cons_of_neg hb] at ha
      rw [List.eraseP_cons_of_neg hb, List.map_cons, List.sum_cons, ih ha, List.map_cons, List.sum_cons]
      ring

end UpdateFirst

namespace ToraDest
variable {td : ToraDest} {ip src id : ℤ} {now tau : ℚ} {oid : ℤ} {h : Height} {tn : ToraNeighbor}

/-- The number of links with the status `st`. -/
def links (st : LinkStatus) (l : List ToraNeighbor) : ℤ := l.countP (·.lnkStat = st)

lemma sum_counts (st : LinkStatus) (l : List ToraNeighbor) : (l.map (counts st)).sum = links st l := by
  induction l with
  | nil => rfl
  | cons tn l ih =>
    rw [List.map_cons, List.sum_cons, ih, links, links, counts, List.countP_cons]
    by_cases hst : tn.lnkStat = st
    · simp [hst]
      ring
    · simp [hst]

/-- The counters agree with the list of neighbours. -/
structure Exact (td : ToraDest) : Prop where
  active : td.numActive = td.nblist.length
  down : td.numDown = links .dn td.nblist
  up : td.numUp = links .up td.nblist

lemma exact_new (id : ℤ) : (new id).Exact := ⟨rfl, rfl, rfl⟩

lemma Exact.nbAdd (hex : td.Exact) (now : ℚ) (id : ℤ) : (td.nbAdd now id).Exact := by
  obtain ⟨hactive, hdown, hup⟩ := hex
  unfold ToraDest.nbAdd
  dsimp only
  split_ifs
  · refine ⟨?_, ?_, ?_⟩ <;> simp_all [links]
  · refine ⟨?_, ?_, ?_⟩ <;> simp_all [links]

lemma updateHeight_exact (td : ToraDest) (h : Height) : (td.updateHeight h).Exact :=
  ⟨rfl, sum_counts _ _, sum_counts _ _⟩

lemma Exact.updateHeightNb (hex : td.Exact) (hfind : td.nbFind id = some tn) (h : Height) :
    (td.updateHeightNb tn h).Exact := by
  have hindex : tn.index = id := by simpa using List.find?_some hfind
  have hfind' : td.nblist.find? (·.index = tn.index) = some tn := hindex ▸ hfind
  unfold ToraDest.updateHeightNb
  refine ⟨?_, ?_, ?_⟩
  · dsimp only
    rw [hex.active, length_updateFirst]
  · dsimp only
    rw [hex.down, ← sum_counts, ← sum_counts, sum_updateFirst hfind']
  · dsimp only
    rw [hex.up, ← sum_counts, ← sum_counts, sum_updateFirst hfind']

lemma Exact.removeNb (hex : td.Exact) (hfind : td.nbFind id = some tn) : (td.removeNb tn).Exact := by
  have hindex : tn.index = id := by simpa using List.find?_some hfind
  have hfind' : td.nblist.find? (·.index = tn.index) = some tn := hindex ▸ hfind
  have hmem := List.mem_of_find?_eq_some hfind'
  unfold ToraDest.removeNb
  refine ⟨?_, ?_, ?_⟩
  · have hlen := List.length_eraseP_add_one hmem (p := (·.index = tn.index)) (by simp)
    dsimp only
    rw [hex.active]
    omega
  · dsimp only
    rw [hex.down, ← sum_counts, ← sum_counts, sum_eraseP hfind']
  · dsimp only
    rw [hex.up, ← sum_counts, ← sum_counts, sum_eraseP hfind']

lemma Exact.nbDel (hex : td.Exact) (now : ℚ) (id : ℤ) : (td.nbDel now id).1.Exact := by
  unfold ToraDest.nbDel
  split
  · exact hex
  · rename_i tn hfind
    dsimp only
    split_ifs
    · exact updateHeight_exact _ _
    · exact updateHeight_exact _ _
    · exact hex.removeNb hfind

lemma Exact.announce (hex : td.Exact) (now : ℚ) : (td.announce now).1.Exact := ⟨hex.active, hex.down, hex.up⟩

/-- All links are counted as undirected, so the destination itself must not be a neighbour. -/
lemma Exact.erase (hex : td.Exact) (hdest : ∀ tn ∈ td.nblist, tn.index ≠ td.index) : td.erase.Exact := by
  have hcount : ∀ st ≠ LinkStatus.un, links st td.clearNbs = 0 := by
    intro st hst
    unfold links clearNbs
    rw [Nat.cast_eq_zero, List.countP_eq_zero]
    intro tn' htn'
    obtain ⟨tn, htn, rfl⟩ := List.mem_map.mp htn'
    rw [if_neg (hdest tn htn)]
    simpa using hst.symm
  refine ⟨?_, (hcount .dn nofun).symm, (hcount .up nofun).symm⟩
  unfold ToraDest.erase clearNbs
  dsimp only
  rw [List.length_map, hex.active]

lemma Exact.recvQRY (hex : td.Exact) (ip : ℤ) (now : ℚ) (src : ℤ) : (td.recvQRY ip now src).1.Exact := by
  unfold ToraDest.recvQRY
  split_ifs
  · exact hex
  · split
    · exact hex
    · split_ifs
      · exact hex.announce now
      · exact hex
  all_goals
    cases td.nbFindMinHeight 0 with
    | some tn => exact (updateHeight_exact _ _).announce now
    | none => exact ⟨hex.active, hex.down, hex.up⟩

/-- The heights are erased only when the destination is not a neighbour. -/
def ErasesUncounted (ip : ℤ) (td : ToraDest) : Prop :=
  td.detectsPartition ip → ∀ tn ∈ td.nblist, tn.index ≠ td.index

/-- Neighbours with different reference levels have heights. -/
lemma exists_max_min (hsame : ¬td.nbCheckSameRef) : ∃ n m, td.nbFindMaxHeight = some n ∧
    td.nbFindMinNonnullHeight n.height = some m := by
  obtain ⟨tref, href⟩ : ∃ tref, td.nblist.find? (¬·.height.isNull) = some tref := by
    by_contra hnone
    push Not at hnone
    rw [nbCheckSameRef, Option.eq_none_iff_forall_ne_some.mpr hnone] at hsame
    exact hsame rfl
  obtain ⟨n, hn⟩ := exists_nbBest (fun tn => ¬tn.height.isNull)
    (fun tn best => best.height.compare tn.height > 0) (List.mem_of_find?_eq_some href)
    (by simpa using List.find?_some href)
  obtain ⟨hmem, hnull⟩ := of_nbBest hn
  obtain ⟨m, hm⟩ := exists_nbBest (fun tn => ¬tn.height.isNull ∧
    tn.height.tau = n.height.tau ∧ tn.height.oid = n.height.oid ∧ tn.height.r = n.height.r) lower hmem (by simpa using hnull)
  exact ⟨n, m, hn, hm⟩

lemma Exact.reverseLinks (hex : td.Exact) (hkeep : ErasesUncounted ip td) (now : ℚ) :
    ∃ r, td.reverseLinks ip now = some r ∧ r.1.Exact := by
  unfold ToraDest.reverseLinks
  by_cases hsame : td.nbCheckSameRef
  · rw [if_pos hsame]
    cases hmin : td.nbFindMinHeight 0 with
    | some tn => exact ⟨_, rfl, (updateHeight_exact _ _).announce now⟩
    | none =>
      dsimp only
      split_ifs with hoid
      · exact ⟨_, rfl, hex.erase (hkeep (by simp [detectsPartition, hsame, hmin, hoid]))⟩
      · obtain ⟨hactive, hdown, hup⟩ := updateHeight_exact td ⟨now, ip, 0, 0, ip⟩
        exact ⟨_, rfl, hactive, hdown, hup⟩
  · rw [if_neg hsame]
    obtain ⟨n, m, hn, hm⟩ := exists_max_min hsame
    rw [hn, Option.bind_some, hm]
    exact ⟨_, rfl, (updateHeight_exact _ _).announce now⟩

/-- `recvUPD` erases the heights only when the destination is not a neighbour. -/
def UpdUncounted (ip src : ℤ) (h : Height) (td : ToraDest) : Prop :=
  ∀ tn, td.nbFind src = some tn → ¬(td.rtReq ∧ h.r = 0) → (td.updateHeightNb tn h).numDown = 0 →
    (td.updateHeightNb tn h).numUp ≠ 0 → ErasesUncounted ip (td.updateHeightNb tn h)

lemma Exact.recvUPD (hex : td.Exact) (now : ℚ) (hkeep : UpdUncounted ip src h td) :
    ∃ r, td.recvUPD ip now src h = some r ∧ r.1.Exact := by
  unfold ToraDest.recvUPD
  cases hfind : td.nbFind src with
  | none => exact ⟨_, rfl, hex⟩
  | some tn =>
    have hkeep' := hkeep tn hfind
    have hex' := hex.updateHeightNb hfind h
    have hreq : (td.updateHeightNb tn h).rtReq = td.rtReq := rfl
    rw [← hreq] at hkeep'
    dsimp only
    generalize td.updateHeightNb tn h = u at hex' hkeep'
    unfold react
    split_ifs with hI hdown hup hnull
    · obtain ⟨hactive, hdown, hup⟩ := updateHeight_exact u ⟨h.tau, h.oid, h.r, h.delta + 1, ip⟩
      exact ⟨_, rfl, hactive, hdown, hup⟩
    · exact ⟨_, rfl, hex'⟩
    · exact ⟨_, rfl, hex'.active, hex'.down, hex'.up⟩
    · exact hex'.reverseLinks (hkeep' hI hdown hup) now
    · exact ⟨_, rfl, hex'⟩

/-- `recvCLR` takes no link away that is counted, unless the links are counted anew at once. -/
def ClrUncounted (src : ℤ) (tau : ℚ) (oid : ℤ) (td : ToraDest) : Prop :=
  if td.ownsLevel tau oid then ∀ tn ∈ td.nblist, tn.index ≠ td.index
  else ∀ tn, td.nbFind src = some tn → td.numDown = 0 ∧ td.numUp ≠ 0 ∨
    tn.lnkStat = .un ∧ ∀ tn' ∈ td.nblist, hasLevel tau oid tn' → tn'.lnkStat = .un

/-- Links that are not counted may be erased. -/
lemma Exact.eraseNbs (hex : td.Exact) (hfind : td.nbFind src = some tn) (hun : tn.lnkStat = .un)
    (hlevel : ∀ tn' ∈ td.nblist, hasLevel tau oid tn' → tn'.lnkStat = .un) : (td.eraseNbs src tau oid).Exact := by
  have hcount : ∀ st ≠ LinkStatus.un, links st (td.eraseNbs src tau oid).nblist = links st td.nblist := by
    intro st hst
    have hfirst : links st (updateFirst (·.index = src) erasedNb td.nblist) = links st td.nblist := by
      rw [← sum_counts, ← sum_counts, sum_updateFirst hfind]
      have htn : counts st tn = 0 := if_neg (hun ▸ hst.symm)
      have hnew : counts st (erasedNb tn) = 0 := if_neg hst.symm
      rw [htn, hnew]
      ring
    rw [← hfirst]
    unfold links ToraDest.eraseNbs
    dsimp only
    rw [List.countP_map]
    congr 1
    refine List.countP_congr fun tn' htn' => ?_
    have hun' : hasLevel tau oid tn' → tn'.lnkStat = .un := by
      intro hlev
      rcases mem_updateFirst htn' with hmem | ⟨b, -, rfl⟩
      · exact hlevel tn' hmem hlev
      · rfl
    simp only [Function.comp_apply, decide_eq_true_eq]
    split_ifs with hlev
    · rw [hun' hlev]
      rfl
    · rfl
  refine ⟨?_, hex.down.trans (hcount .dn nofun).symm, hex.up.trans (hcount .up nofun).symm⟩
  unfold ToraDest.eraseNbs
  dsimp only
  rw [List.length_map, length_updateFirst, hex.active]

lemma Exact.recvCLR (hex : td.Exact) (ip : ℤ) (now : ℚ) (hkeep : ClrUncounted src tau oid td) :
    (td.recvCLR ip now src tau oid).1.Exact := by
  unfold ClrUncounted at hkeep
  unfold ToraDest.recvCLR
  by_cases hown : td.ownsLevel tau oid
  · rw [if_pos hown] at hkeep ⊢
    exact hex.erase hkeep
  · rw [if_neg hown] at hkeep ⊢
    cases hfind : td.nbFind src with
    | none => exact hex
    | some tn =>
      dsimp only
      rcases hkeep tn hfind with ⟨hdown, hup⟩ | ⟨hun, hlevel⟩
      · rw [if_pos (show (td.eraseNbs src tau oid).numDown = 0 from hdown),
          if_neg (show ¬(td.eraseNbs src tau oid).numUp = 0 from hup)]
        obtain ⟨hactive, hdown, hup⟩ := updateHeight_exact (td.eraseNbs src tau oid) ⟨now, ip, 0, 0, ip⟩
        exact ⟨hactive, hdown, hup⟩
      · have hex' := hex.eraseNbs hfind hun hlevel
        split_ifs
        · exact hex'
        · exact ⟨hex'.active, hex'.down, hex'.up⟩
        · obtain ⟨hactive, hdown, hup⟩ := updateHeight_exact (td.eraseNbs src tau oid) ⟨now, ip, 0, 0, ip⟩
          exact ⟨hactive, hdown, hup⟩
        · exact hex'

end ToraDest

namespace ToraAgent
variable {a : ToraAgent} {now : ℚ}

/-- The counters of all destinations are exact. -/
def AllExact (a : ToraAgent) : Prop := ∀ td ∈ a.dstlist, td.Exact

lemma AllExact.dest (h : a.AllExact) (now : ℚ) (id : ℤ) (links : List ℤ) : (a.dest now id links).Exact := by
  unfold ToraAgent.dest
  cases hfind : a.dstFind id with
  | some td => exact h td (List.mem_of_find?_eq_some hfind)
  | none =>
    show (newDest now id links).Exact
    unfold newDest
    exact List.foldlRecOn links _ (ToraDest.exact_new id) fun td htd l _ => htd.nbAdd now l

lemma AllExact.setDest (h : a.AllExact) {td : ToraDest} (htd : td.Exact) : (a.setDest td).AllExact := by
  intro td' htd'
  unfold ToraAgent.setDest at htd'
  dsimp only at htd'
  split_ifs at htd'
  · rcases mem_updateFirst htd' with hmem | ⟨-, -, rfl⟩
    · exact h td' hmem
    · exact htd
  · rcases List.mem_cons.mp htd' with rfl | hmem
    · exact htd
    · exact h td' hmem

lemma AllExact.forAll (h : a.AllExact) {f : ToraDest → ToraDest × List ToraMessage}
    (hf : ∀ td : ToraDest, td.Exact → (f td).1.Exact) : (a.forAll f).1.AllExact := by
  intro td' htd'
  obtain ⟨td, htd, rfl⟩ := List.mem_map.mp htd'
  exact hf td (h td htd)

lemma AllExact.rtResolve (h : a.AllExact) (now : ℚ) (dst : ℤ) (links : List ℤ) :
    (a.rtResolve now dst links).1.AllExact := by
  have hdest := h.dest now dst links
  unfold ToraAgent.rtResolve
  dsimp only
  split_ifs
  · exact h.setDest ⟨hdest.active, hdest.down, hdest.up⟩
  · exact h.setDest hdest

/-- No link that is counted is taken away by an UPD or a CLR that erases heights. -/
def ErasesNoCounted (a : ToraAgent) : ℚ × ToraCall → Prop
  | (now, .recvUPD src dst h links) => dst ≠ a.ipaddr → (a.dest now dst links).UpdUncounted a.ipaddr src h
  | (now, .recvCLR src dst tau oid links) => dst ≠ a.ipaddr → (a.dest now dst links).ClrUncounted src tau oid
  | _ => True

lemma AllExact.step {ev : ℚ × ToraCall} (h : a.AllExact) (hkeep : a.ErasesNoCounted ev) :
    ∃ a' o, a.step ev = some (a', o) ∧ a'.AllExact := by
  obtain ⟨now, c⟩ := ev
  cases c with
  | recvQRY src dst links =>
    by_cases hself : dst = a.ipaddr
    · exact ⟨a, [], congrArg some (if_pos hself), h⟩
    · exact ⟨_, _, congrArg some (if_neg hself), h.setDest ((h.dest now dst links).recvQRY a.ipaddr now src)⟩
  | recvUPD src dst height links =>
    by_cases hself : dst = a.ipaddr
    · exact ⟨a, [], if_pos hself, h⟩
    · obtain ⟨r, hr, hex⟩ := (h.dest now dst links).recvUPD now (hkeep hself)
      exact ⟨_, _, (if_neg hself).trans (congrArg (Option.map a.update) hr), h.setDest hex⟩
  | recvCLR src dst tau oid links =>
    by_cases hself : dst = a.ipaddr
    · exact ⟨a, [], congrArg some (if_pos hself), h⟩
    · exact ⟨_, _, congrArg some (if_neg hself),
        h.setDest ((h.dest now dst links).recvCLR a.ipaddr now (hkeep hself))⟩
  | rtNotifyLinkUP index =>
    refine ⟨_, _, rfl, h.forAll fun td htd => ?_⟩
    unfold linkUp
    dsimp only
    split_ifs
    · exact htd.nbAdd now index
    · exact htd
  | rtNotifyLinkDN index packets links =>
    have hall : (a.forAll (linkDown now index)).1.AllExact := h.forAll fun td htd => htd.nbDel now index
    refine ⟨_, _, rfl, ?_⟩
    exact List.foldlRecOn (motive := fun r : ToraAgent × List ToraMessage => r.1.AllExact) packets _ hall
      fun r hr dst _ => hr.rtResolve now dst links
  | data dst links => exact ⟨_, _, rfl, h.rtResolve now dst links⟩

/-- As long as no UPD or CLR erases a link that is counted, no assertion fails and all counters are exact. -/
theorem counters_run {ip : ℤ} {evs : List (ℚ × ToraCall)}
    (hkeep : EachStep step ErasesNoCounted ⟨ip, []⟩ evs) :
    ∃ a os, run step ⟨ip, []⟩ evs = some (a, os) ∧ ∀ td ∈ a.dstlist, td.Exact :=
  run_history (R := fun a _ => a.AllExact) (fun _ _ _ ha hP => ha.step hP) nofun hkeep

/-- A node asks for a route to 0 and hears from its neighbour 2. -/
def routeFound : List (ℚ × ToraCall) := [(0, .data 0 [2]), (1, .recvUPD 2 0 ⟨0, 0, 0, 1, 2⟩ [])]

theorem counters_run_routeFound : ∃ a os, run step ⟨1, []⟩ routeFound = some (a, os) ∧ ∀ td ∈ a.dstlist, td.Exact := by
  refine counters_run ⟨trivial, fun a o h => ⟨?_, fun _ _ _ => trivial⟩⟩
  cases h
  exact fun _ tn _ hreq => absurd ⟨by decide, rfl⟩ hreq

/-- A CLR from the downstream neighbour takes the link away, but not from `num_down`. -/
theorem clr_leaves_num_down : ∃ a os,
    run step ⟨1, []⟩ (routeFound ++ [(2, .recvCLR 2 0 5 9 [])]) = some (a, os) ∧
      ∃ td ∈ a.dstlist, td.numDown = 1 ∧ ToraDest.links .dn td.nblist = 0 ∧ ¬td.Exact := by
  obtain ⟨a, os, -, hrun, td, htd, hdown, hlinks⟩ : ∃ a os,
      EachStep step (fun _ _ => True) ⟨1, []⟩ (routeFound ++ [(2, .recvCLR 2 0 5 9 [])]) ∧
      run step ⟨1, []⟩ (routeFound ++ [(2, .recvCLR 2 0 5 9 [])]) = some (a, os) ∧
        ∃ td ∈ a.dstlist, td.numDown = 1 ∧ ToraDest.links .dn td.nblist = 0 :=
    run_guarded_of (fun (a : ToraAgent) _ => ∃ td ∈ a.dstlist, td.numDown = 1 ∧ ToraDest.links .dn td.nblist = 0)
      (by decide +kernel)
  refine ⟨a, os, hrun, td, htd, hdown, hlinks, fun hex => ?_⟩
  have := hex.down
  omega

end ToraAgent

end NetworkSimulator
