import NetworkSimulator.Library.Network
import NetworkSimulator.Library.Routes
import NetworkSimulator.Tora.Counters

/-!
# Nodes that run TORA

Any number of nodes exchange QRY, UPD and CLR packets. The heights that a node has heard carry the addresses of the
neighbours they belong to, and links are directed from greater heights to smaller ones, so the next hops that
follow current heights do not form a cycle.
-/

namespace NetworkSimulator
open Library

/-- A packet with the address of the node that has sent it. -/
structure ToraPacket where
  src : ℤ
  msg : ToraMessage
  deriving DecidableEq

def ToraMessage.call (src : ℤ) (links : List ℤ) : ToraMessage → ToraCall
  | .qry dst => .recvQRY src dst links
  | .upd dst height => .recvUPD src dst height links
  | .clr dst tau oid => .recvCLR src dst tau oid links

/-- What happens at a node without a packet from another node. -/
inductive ToraNotice
  | linkUp (index : ℤ)
  | linkDown (index : ℤ) (packets : List ℤ)
  | data (dst : ℤ)
  deriving DecidableEq

def ToraNotice.call (links : List ℤ) : ToraNotice → ToraCall
  | .linkUp index => .rtNotifyLinkUP index
  | .linkDown index packets => .rtNotifyLinkDN index packets links
  | .data dst => .data dst links

/-- No node is a neighbour of itself, and packets for the node itself do not come to its routing agent. -/
def ToraNotice.possible (n : ℤ) : ToraNotice → Bool
  | .linkUp index => index ≠ n
  | .linkDown _ packets => n ∉ packets
  | .data dst => dst ≠ n

/-- The time, the links of the node and the nodes that hear what it sends. -/
structure ToraMoment where
  now : ℚ
  links : List ℤ
  hearers : List ℤ

namespace ToraNetwork

def broadcast (n : ℤ) (hearers : List ℤ) (r : ToraAgent × List ToraMessage) : ToraAgent × List (ℤ × ToraPacket) :=
  (r.1, r.2.flatMap fun m => hearers.map fun b => (b, ⟨n, m⟩))

/-- `none` also stands for what cannot happen. -/
def handlers : Handlers ℤ ToraAgent ToraPacket (ToraNotice × ToraMoment) ToraMoment where
  act n a e :=
    if e.1.possible n ∧ n ∉ e.2.links then
      (a.call e.2.now (e.1.call e.2.links)).map (broadcast n e.2.hearers)
    else none
  receive n a p x :=
    if n ∉ x.links then (a.call x.now (p.msg.call p.src x.links)).map (broadcast n x.hearers) else none

abbrev State := Network ℤ ToraAgent ToraPacket

def start : State := ⟨fun n => ⟨n, []⟩, []⟩

/-- The node `a` forwards packets for `d` to `b`. -/
def NextHop (w : State) (d a b : ℤ) : Prop :=
  ∃ td tn, (w.node a).dstFind d = some td ∧ td.nbFindNextHop = some tn ∧ tn.index = b

/-- The heights that the nodes have stored for their neighbours, where they are not null, are the heights that these
have now. -/
def Synchronized (w : State) (d : ℤ) : Prop :=
  ∀ a td tn, (w.node a).dstFind d = some td → tn ∈ td.nblist → tn.index ≠ d → ¬tn.height.isNull →
    ∃ td', (w.node tn.index).dstFind d = some td' ∧ td'.height = tn.height

/-- Heights that are not null carry the address of their node, and no two nodes have the same one. -/
structure Ordered (w : State) (d : ℤ) : Prop where
  own : ∀ a td, (w.node a).dstFind d = some td → ¬td.height.isNull → td.height.id = a
  distinct : ∀ a b ta tb, a ≠ b → (w.node a).dstFind d = some ta → (w.node b).dstFind d = some tb →
    ¬ta.height.isNull → ta.height ≠ tb.height

/-- The condition of `nb_del` for a new reference level: the last downstream link is lost, and there are upstream
links. -/
def LosesDownstream (index : ℤ) (td : ToraDest) : Prop :=
  ∃ tn, td.nbFind index = some tn ∧ (td.removeNb tn).numDown = 0 ∧ (td.removeNb tn).numUp > 0

/-- No node creates a new reference level in `nb_del`. -/
def NoLevelFromLoss (w : State) : NetworkEvent ℤ (ToraNotice × ToraMoment) ToraMoment → Prop
  | .act n (.linkDown index _, _) => ∀ td ∈ (w.node n).dstlist, ¬LosesDownstream index td
  | _ => True

end ToraNetwork

namespace ToraDest
variable {td : ToraDest} {n src id : ℤ} {now tau : ℚ} {oid : ℤ} {h : Height} {tn : ToraNeighbor}

/-- What holds of a destination at the node `n`. -/
structure Sound (n : ℤ) (td : ToraDest) : Prop where
  own : ¬td.height.isNull → td.height.id = n
  other : ∀ tn ∈ td.nblist, tn.index ≠ n
  heard : ∀ tn ∈ td.nblist, tn.index ≠ td.index → ¬tn.height.isNull → tn.height.id = tn.index
  down : ¬td.height.isNull → ∀ tn ∈ td.nblist, tn.index ≠ td.index → tn.lnkStat = .dn →
    tn.height.key < td.height.key

lemma sound_new (n id : ℤ) : (new id).Sound n := by
  refine ⟨fun h => absurd rfl h, fun tn htn => ?_, fun tn htn => ?_, fun h => absurd rfl h⟩
  · exact absurd htn List.not_mem_nil
  · exact absurd htn List.not_mem_nil

/-- A downstream link leads to a smaller height, unless the heights are equal. -/
lemma updateLinkStatus_dn (tn : ToraNeighbor) (h : Height) (hid : ¬tn.height.isNull → tn.height.id ≠ h.id) (hnull : ¬h.isNull)
    (hdn : (tn.updateLinkStatus h).lnkStat = .dn) : tn.height.key < h.key := by
  unfold ToraNeighbor.updateLinkStatus at hdn
  dsimp only at hdn
  split_ifs at hdn with hnb hpos hneg
  · exact Height.compare_pos.mp hpos
  · rw [Height.compare_pos, not_lt] at hpos
    rw [Height.compare_neg, not_lt] at hneg
    have hkey := le_antisymm hneg hpos
    unfold Height.key at hkey
    simp only [EmbeddingLike.apply_eq_iff_eq, Prod.mk.injEq] at hkey
    exact absurd hkey.2.2.2.2 (hid hnb)

lemma Sound.nbAdd (hs : td.Sound n) (now : ℚ) (hid : id ≠ n) : (td.nbAdd now id).Sound n := by
  obtain ⟨hown, hother, hheard, hdown⟩ := hs
  unfold ToraDest.nbAdd
  dsimp only
  split_ifs with hdest
  · refine ⟨hown, List.forall_mem_cons.mpr ⟨hid, hother⟩, List.forall_mem_cons.mpr ⟨?_, hheard⟩, fun hnull =>
      List.forall_mem_cons.mpr ⟨?_, hdown hnull⟩⟩
    · exact fun hne => absurd hdest hne
    · exact fun hne => absurd hdest hne
  · refine ⟨hown, List.forall_mem_cons.mpr ⟨hid, hother⟩, List.forall_mem_cons.mpr ⟨?_, hheard⟩, fun hnull =>
      List.forall_mem_cons.mpr ⟨?_, hdown hnull⟩⟩
    · exact fun _ _ => rfl
    · exact fun _ hdn => nomatch hdn

lemma Sound.updateHeight (hs : td.Sound n) (hid : ¬h.isNull → h.id = n) : (td.updateHeight h).Sound n := by
  refine ⟨hid, ?_, ?_, fun hnull => ?_⟩ <;> refine List.forall_mem_map.mpr fun tn htn => ?_
  · exact hs.other tn htn
  · exact hs.heard tn htn
  · intro hne hdn
    refine updateLinkStatus_dn tn h (fun hnb => ?_) hnull hdn
    rw [hs.heard tn htn hne hnb, hid hnull]
    exact hs.other tn htn

lemma Sound.newHeight (hs : td.Sound n) (tau : ℚ) (oid r delta : ℤ) :
    (td.updateHeight ⟨tau, oid, r, delta, n⟩).Sound n :=
  hs.updateHeight fun _ => rfl

lemma Sound.request (hs : td.Sound n) (b : Bool) : { td with rtReq := b }.Sound n :=
  ⟨hs.own, hs.other, hs.heard, hs.down⟩

lemma Sound.updateHeightNb (hs : td.Sound n) (hfind : td.nbFind src = some tn)
    (hid : ¬h.isNull → h.id = src) : (td.updateHeightNb tn h).Sound n := by
  have hindex : tn.index = src := by simpa using List.find?_some hfind
  have hmem := List.mem_of_find?_eq_some hfind
  have hnew : ∀ {P : ToraNeighbor → Prop}, (∀ tn ∈ td.nblist, P tn) →
      P ({ tn with height := h }.updateLinkStatus td.height) → ∀ tn' ∈ (td.updateHeightNb tn h).nblist, P tn' := by
    intro P hold hP tn' htn'
    rcases mem_updateFirst htn' with hmem' | ⟨-, -, rfl⟩
    · exact hold tn' hmem'
    · exact hP
  refine ⟨hs.own, hnew hs.other (hs.other tn hmem), hnew hs.heard fun _ hnb => (hid hnb).trans hindex.symm,
    fun hnull => hnew (hs.down hnull) fun _ hdn =>
      updateLinkStatus_dn { tn with height := h } td.height (fun hnb => ?_) hnull hdn⟩
  show h.id ≠ td.height.id
  rw [hid hnb, hs.own hnull, ← hindex]
  exact hs.other tn hmem

lemma Sound.removeNb (hs : td.Sound n) (tn : ToraNeighbor) : (td.removeNb tn).Sound n :=
  ⟨hs.own, fun tn' h => hs.other tn' (List.mem_of_mem_eraseP h), fun tn' h => hs.heard tn' (List.mem_of_mem_eraseP h),
    fun hnull tn' h => hs.down hnull tn' (List.mem_of_mem_eraseP h)⟩

/-- Without a height of its own, the node need only keep the heights of its neighbours apart. -/
lemma sound_of_null (hnull : td.height.isNull) (hother : ∀ tn ∈ td.nblist, tn.index ≠ n)
    (hheard : ∀ tn ∈ td.nblist, tn.index ≠ td.index → ¬tn.height.isNull → tn.height.id = tn.index) : td.Sound n :=
  ⟨fun h => absurd hnull h, hother, hheard, fun h => absurd hnull h⟩

lemma Sound.forget (hs : td.Sound n) : { td with height := td.height.null }.Sound n :=
  sound_of_null rfl hs.other hs.heard

lemma Sound.erase (hs : td.Sound n) : td.erase.Sound n := by
  refine sound_of_null rfl ?_ ?_ <;> refine List.forall_mem_map.mpr fun tn htn => ?_
  · split_ifs <;> exact hs.other tn htn
  · split_ifs with hdest
    · exact fun hne => absurd hdest hne
    · exact fun _ hnb => absurd rfl hnb

lemma Sound.eraseNbs (hs : td.Sound n) (src : ℤ) (tau : ℚ) (oid : ℤ) : (td.eraseNbs src tau oid).Sound n := by
  have hcases : ∀ {P : ToraNeighbor → Prop}, (∀ tn ∈ td.nblist, P tn) → (∀ tn ∈ td.nblist, P (erasedNb tn)) →
      ∀ tn ∈ (td.eraseNbs src tau oid).nblist, P tn := by
    intro P hold herased
    refine List.forall_mem_map.mpr fun tn htn => ?_
    rcases mem_updateFirst htn with hmem | ⟨b, hb, rfl⟩
    · split_ifs
      · exact herased tn hmem
      · exact hold tn hmem
    · have hP := herased b (List.mem_of_find?_eq_some hb)
      split_ifs <;> exact hP
  exact ⟨hs.own, hcases hs.other hs.other, hcases hs.heard fun _ _ _ hnb => absurd rfl hnb,
    fun hnull => hcases (hs.down hnull) fun _ _ _ hdn => nomatch hdn⟩

/-- An UPD that is sent by `n`. -/
def Signed (n : ℤ) : ToraMessage → Prop
  | .upd _ h => ¬h.isNull → h.id = n
  | _ => True

/-- The result of a handler at `n` for the destination `d`. -/
structure SoundResult (n d : ℤ) (r : ToraDest × List ToraMessage) : Prop where
  sound : r.1.Sound n
  index : r.1.index = d
  sent : ∀ m ∈ r.2, Signed n m

lemma Sound.announce (hs : td.Sound n) (now : ℚ) : SoundResult n td.index (td.announce now) :=
  ⟨⟨hs.own, hs.other, hs.heard, hs.down⟩, rfl, List.forall_mem_singleton.mpr hs.own⟩

lemma Sound.quiet (hs : td.Sound n) : SoundResult n td.index (td, []) := ⟨hs, rfl, nofun⟩

lemma Sound.recvQRY (hs : td.Sound n) (now : ℚ) (src : ℤ) : SoundResult n td.index (td.recvQRY n now src) := by
  unfold ToraDest.recvQRY
  split_ifs with hreq hr hactive
  · exact hs.quiet
  · split
    · exact hs.quiet
    · split_ifs
      · exact hs.announce now
      · exact hs.quiet
  all_goals
    cases td.nbFindMinHeight 0 with
    | some tn => exact (hs.newHeight _ _ _ _).announce now
    | none => exact ⟨⟨hs.own, hs.other, hs.heard, hs.down⟩, rfl, by simp [Signed]⟩

lemma Sound.reverseLinks (hs : td.Sound n) {r : ToraDest × List ToraMessage}
    (hr : td.reverseLinks n now = some r) : SoundResult n td.index r := by
  unfold ToraDest.reverseLinks at hr
  by_cases hsame : td.nbCheckSameRef
  · rw [if_pos hsame] at hr
    cases hmin : td.nbFindMinHeight 0 with
    | some tn =>
      rw [hmin] at hr
      obtain rfl := Option.some.inj hr
      exact (hs.newHeight _ _ _ _).announce now
    | none =>
      rw [hmin] at hr
      dsimp only at hr
      split_ifs at hr
      · obtain rfl := Option.some.inj hr
        exact ⟨hs.erase, rfl, List.forall_mem_singleton.mpr trivial⟩
      · obtain rfl := Option.some.inj hr
        exact ((hs.newHeight _ _ _ _).request false).announce now
  · rw [if_neg hsame] at hr
    obtain ⟨a, -, hr⟩ := Option.bind_eq_some_iff.mp hr
    obtain ⟨b, -, rfl⟩ := Option.map_eq_some_iff.mp hr
    exact (hs.newHeight _ _ _ _).announce now

lemma Sound.recvUPD (hs : td.Sound n) (hid : ¬h.isNull → h.id = src) {r : ToraDest × List ToraMessage}
    (hr : td.recvUPD n now src h = some r) : SoundResult n td.index r := by
  unfold ToraDest.recvUPD at hr
  cases hfind : td.nbFind src with
  | none =>
    rw [hfind] at hr
    obtain rfl := Option.some.inj hr
    exact hs.quiet
  | some tn =>
    rw [hfind] at hr
    have hu := hs.updateHeightNb hfind hid
    rw [show td.index = (td.updateHeightNb tn h).index from rfl]
    dsimp only at hr
    generalize td.updateHeightNb tn h = u at hr hu ⊢
    unfold react at hr
    split_ifs at hr
    · obtain rfl := Option.some.inj hr
      exact ((hu.newHeight _ _ _ _).request false).announce now
    · obtain rfl := Option.some.inj hr
      exact hu.quiet
    · obtain rfl := Option.some.inj hr
      exact hu.forget.announce now
    · exact hu.reverseLinks hr
    · obtain rfl := Option.some.inj hr
      exact hu.quiet

lemma Sound.recvCLR (hs : td.Sound n) (now : ℚ) (src : ℤ) (tau : ℚ) (oid : ℤ) :
    SoundResult n td.index (td.recvCLR n now src tau oid) := by
  unfold ToraDest.recvCLR
  by_cases hown : td.ownsLevel tau oid
  · rw [if_pos hown]
    refine ⟨hs.erase, rfl, ?_⟩
    split_ifs <;> simp [Signed]
  · rw [if_neg hown]
    cases td.nbFind src with
    | none => exact hs.quiet
    | some tn =>
      have hu := hs.eraseNbs src tau oid
      dsimp only
      split_ifs
      · exact ⟨hu, rfl, nofun⟩
      · exact hu.forget.announce now
      · exact ((hu.newHeight _ _ _ _).request false).announce now
      · exact ⟨hu, rfl, nofun⟩

lemma Sound.linkUp (hs : td.Sound n) (now : ℚ) (hid : id ≠ n) : SoundResult n td.index (ToraAgent.linkUp now id td) := by
  have hadd := hs.nbAdd now hid
  have hindex : (td.nbAdd now id).index = td.index := by
    unfold ToraDest.nbAdd
    dsimp only
    split_ifs <;> rfl
  have hresult : ∀ u : ToraDest, u.Sound n → u.index = td.index →
      SoundResult n td.index (u, if u.rtReq then [.qry u.index] else []) := fun u hu hi =>
    ⟨hu, hi, by split_ifs <;> simp [Signed]⟩
  unfold ToraAgent.linkUp
  dsimp only
  by_cases hnew : td.nbFind id = none
  · rw [if_pos hnew]
    exact hresult _ hadd hindex
  · rw [if_neg hnew]
    exact hresult td hs rfl

lemma Sound.linkDown (hs : td.Sound n) (now : ℚ) (hkeep : ¬ToraNetwork.LosesDownstream id td) :
    SoundResult n td.index (ToraAgent.linkDown now id td) := by
  unfold ToraAgent.linkDown ToraDest.nbDel
  cases hfind : td.nbFind id with
  | none => exact hs.quiet
  | some tn =>
    have hu := hs.removeNb tn
    dsimp only
    by_cases hdown : (td.removeNb tn).numDown = 0
    · rw [if_pos hdown, if_neg fun hup => hkeep ⟨tn, hfind, hdown, hup⟩]
      have hnull : (⟨-1, -1, -1, -1, (td.removeNb tn).index⟩ : Height).isNull := rfl
      have hnew := hu.updateHeight fun hne => absurd hnull hne
      exact ⟨hnew, rfl, List.forall_mem_singleton.mpr hnew.own⟩
    · rw [if_neg hdown]
      exact ⟨hu, rfl, nofun⟩

end ToraDest

namespace ToraAgent
variable {a : ToraAgent} {n dst : ℤ} {now : ℚ} {l : List ℤ}

/-- What holds of the agent at the node `n`. -/
structure Sound (n : ℤ) (a : ToraAgent) : Prop where
  ipaddr : a.ipaddr = n
  dests : ∀ td ∈ a.dstlist, td.index ≠ n ∧ td.Sound n

/-- The result of a call at `n`. -/
structure SoundCall (n : ℤ) (r : ToraAgent × List ToraMessage) : Prop where
  sound : r.1.Sound n
  sent : ∀ m ∈ r.2, ToraDest.Signed n m

lemma Sound.dest (h : a.Sound n) (now : ℚ) (dst : ℤ) (hlinks : n ∉ l) :
    (a.dest now dst l).Sound n ∧ (a.dest now dst l).index = dst := by
  unfold ToraAgent.dest
  cases hfind : a.dstFind dst with
  | some td => exact ⟨(h.dests td (List.mem_of_find?_eq_some hfind)).2, by simpa using List.find?_some hfind⟩
  | none =>
    show (newDest now dst l).Sound n ∧ (newDest now dst l).index = dst
    unfold newDest
    refine List.foldlRecOn (motive := fun td : ToraDest => td.Sound n ∧ td.index = dst) l _
      ⟨ToraDest.sound_new n dst, rfl⟩ fun td htd id hid => ⟨htd.1.nbAdd now fun heq => hlinks (heq ▸ hid), ?_⟩
    unfold ToraDest.nbAdd
    dsimp only
    split_ifs <;> exact htd.2

lemma Sound.update (h : a.Sound n) (hdst : dst ≠ n) {r : ToraDest × List ToraMessage}
    (hr : ToraDest.SoundResult n dst r) : SoundCall n (a.update r) := by
  refine ⟨⟨h.ipaddr, fun td' htd' => ?_⟩, hr.sent⟩
  have hnew : r.1.index ≠ n ∧ r.1.Sound n := ⟨hr.index ▸ hdst, hr.sound⟩
  unfold ToraAgent.update ToraAgent.setDest at htd'
  dsimp only at htd'
  split_ifs at htd'
  · rcases mem_updateFirst htd' with hmem | ⟨-, -, rfl⟩
    · exact h.dests td' hmem
    · exact hnew
  · rcases List.mem_cons.mp htd' with rfl | hmem
    · exact hnew
    · exact h.dests td' hmem

lemma Sound.rtResolve (h : a.Sound n) (now : ℚ) (hlinks : n ∉ l) (hdst : dst ≠ n) :
    SoundCall n (a.rtResolve now dst l) := by
  obtain ⟨hs, hindex⟩ := h.dest now dst hlinks
  unfold ToraAgent.rtResolve
  dsimp only
  split_ifs
  · exact h.update hdst ⟨hs.request true, hindex, List.forall_mem_singleton.mpr trivial⟩
  · exact h.update hdst ⟨hs, hindex, nofun⟩

lemma Sound.forAll (h : a.Sound n) {f : ToraDest → ToraDest × List ToraMessage}
    (hf : ∀ td ∈ a.dstlist, ToraDest.SoundResult n td.index (f td)) : SoundCall n (a.forAll f) := by
  refine ⟨⟨h.ipaddr, List.forall_mem_map.mpr fun td htd => ?_⟩, fun m hm => ?_⟩
  · exact ⟨(hf td htd).index ▸ (h.dests td htd).1, (hf td htd).sound⟩
  · obtain ⟨td, htd, hm⟩ := List.mem_flatMap.mp hm
    exact (hf td htd).sent m hm

/-- A packet that another node has signed. -/
lemma Sound.receive (h : a.Sound n) (hlinks : n ∉ l) {src : ℤ} {m : ToraMessage} (hm : ToraDest.Signed src m)
    {r : ToraAgent × List ToraMessage} (hr : a.call now (m.call src l) = some r) : SoundCall n r := by
  have hself : SoundCall n (a, []) := ⟨h, nofun⟩
  obtain rfl := h.ipaddr
  cases m with
  | qry dst =>
    obtain rfl := Option.some.inj hr
    show SoundCall _ (if dst = a.ipaddr then _ else _)
    split_ifs with hdst
    · exact hself
    · obtain ⟨hs, hindex⟩ := h.dest now dst hlinks
      have hq := hs.recvQRY now src
      rw [hindex] at hq
      exact h.update hdst hq
  | upd dst height =>
    by_cases hdst : dst = a.ipaddr
    · obtain rfl := Option.some.inj ((if_pos hdst).symm.trans hr)
      exact hself
    · obtain ⟨hs, hindex⟩ := h.dest now dst hlinks
      obtain ⟨u, hu, rfl⟩ := Option.map_eq_some_iff.mp ((if_neg hdst).symm.trans hr)
      exact h.update hdst (hindex ▸ hs.recvUPD hm hu)
  | clr dst tau oid =>
    obtain rfl := Option.some.inj hr
    show SoundCall _ (if dst = a.ipaddr then _ else _)
    split_ifs with hdst
    · exact hself
    · obtain ⟨hs, hindex⟩ := h.dest now dst hlinks
      have hc := hs.recvCLR now src tau oid
      rw [hindex] at hc
      exact h.update hdst hc

/-- A notice that creates no reference level. -/
lemma Sound.notice (h : a.Sound n) (hlinks : n ∉ l) {e : ToraNotice} (hpossible : e.possible n)
    (hkeep : ∀ index packets, e = .linkDown index packets → ∀ td ∈ a.dstlist, ¬ToraNetwork.LosesDownstream index td)
    {r : ToraAgent × List ToraMessage} (hr : a.call now (e.call l) = some r) : SoundCall n r := by
  cases e with
  | linkUp index =>
    obtain rfl := Option.some.inj hr
    exact h.forAll fun td htd => (h.dests td htd).2.linkUp now (by simpa [ToraNotice.possible] using hpossible)
  | linkDown index packets =>
    obtain rfl := Option.some.inj hr
    have hpackets : n ∉ packets := by simpa [ToraNotice.possible] using hpossible
    refine List.foldlRecOn (motive := SoundCall n) packets _
      (h.forAll fun td htd => (h.dests td htd).2.linkDown now (hkeep index packets rfl td htd)) fun r hr dst hdst => ?_
    have hresolve := hr.sound.rtResolve now hlinks fun heq => hpackets (heq ▸ hdst)
    refine ⟨hresolve.sound, fun m hm => ?_⟩
    rcases List.mem_append.mp hm with hm | hm
    · exact hr.sent m hm
    · exact hresolve.sent m hm
  | data dst =>
    obtain rfl := Option.some.inj hr
    exact h.rtResolve now hlinks (by simpa [ToraNotice.possible] using hpossible)

end ToraAgent

namespace ToraNetwork
variable {w : State} {d : ℤ}

/-- The nodes and the packets are in order. -/
def Sound : State → Prop :=
  Network.Holds (fun σ => ∀ n, (σ n).Sound n) fun _ _ (p : ToraPacket) => ToraDest.Signed p.src p.msg

lemma sound_start : Sound start :=
  ⟨fun _ => ⟨rfl, fun _ htd => absurd htd List.not_mem_nil⟩, fun _ hp => absurd hp List.not_mem_nil⟩

lemma keeps_of_soundCall {n : ℤ} (hearers : List ℤ) {r : ToraAgent × List ToraMessage}
    (h : ∀ n, (w.node n).Sound n) (hr : ToraAgent.SoundCall n r) :
    Network.Keeps (fun σ => ∀ n, (σ n).Sound n) (fun _ _ (p : ToraPacket) => ToraDest.Signed p.src p.msg) w.node n
      (broadcast n hearers r).1 (broadcast n hearers r).2 := by
  refine ⟨fun b => ?_, fun _ _ hm => hm, fun p hp => ?_⟩
  · by_cases hb : b = n
    · rw [hb, Function.update_self]
      exact hr.sound
    · rw [Function.update_of_ne hb]
      exact h b
  · obtain ⟨m, hm, hp⟩ := List.mem_flatMap.mp hp
    obtain ⟨b, -, rfl⟩ := List.mem_map.mp hp
    exact hr.sent m hm

/-- What a run without a new reference level in `nb_del` keeps. -/
lemma sound_run {evs : List (NetworkEvent ℤ (ToraNotice × ToraMoment) ToraMoment)} {os : List Unit}
    (hkeep : EachStep (Network.step handlers) NoLevelFromLoss start evs)
    (hrun : run (Network.step handlers) start evs = some (w, os)) : Sound w := by
  refine Network.Holds.run (fun w n e s out hw hP hact => ?_) (fun w n p k x s out hw _ hk hrec => ?_) sound_start
    hkeep hrun
  · unfold handlers at hact
    dsimp only at hact
    split_ifs at hact with hpossible
    obtain ⟨r, hr, hbroadcast⟩ := Option.map_eq_some_iff.mp hact
    have hcall := (hw.nodes n).notice hpossible.2 hpossible.1 (fun index packets he => by
      obtain ⟨notice, moment⟩ := e
      subst he
      exact hP) hr
    have hkeeps := keeps_of_soundCall e.2.hearers hw.nodes hcall
    rwa [hbroadcast] at hkeeps
  · unfold handlers at hrec
    dsimp only at hrec
    split_ifs at hrec with hlinks
    obtain ⟨r, hr, hbroadcast⟩ := Option.map_eq_some_iff.mp hrec
    have hcall := (hw.nodes n).receive hlinks (hw.flight (n, p) (List.mem_of_getElem? hk)) hr
    have hkeeps := keeps_of_soundCall x.hearers hw.nodes hcall
    rwa [hbroadcast] at hkeeps

lemma Sound.ordered (h : Sound w) (d : ℤ) : Ordered w d := by
  have hown : ∀ a td, (w.node a).dstFind d = some td → ¬td.height.isNull → td.height.id = a := fun a td htd =>
    ((h.nodes a).dests td (List.mem_of_find?_eq_some htd)).2.own
  refine ⟨hown, fun a b ta tb hab hta htb hnull heq => hab ?_⟩
  rw [← hown a ta hta hnull, ← hown b tb htb (heq ▸ hnull), heq]

/-- With current heights, next hops lead to smaller heights. -/
lemma Sound.acyclic (h : Sound w) (hsync : Synchronized w d) (a : ℤ) : ¬Relation.TransGen (NextHop w d) a a := by
  have hfound : ∀ a td, (w.node a).dstFind d = some td → td.index = d ∧ d ≠ a ∧ td.Sound a := by
    intro a td htd
    have hindex : td.index = d := by simpa using List.find?_some htd
    obtain ⟨hne, hs⟩ := (h.nodes a).dests td (List.mem_of_find?_eq_some htd)
    exact ⟨hindex, hindex ▸ hne, hs⟩
  refine no_cycle (fun a => ∃ td, (w.node a).dstFind d = some td ∧ ¬td.height.isNull)
    (fun a => (((w.node a).dstFind d).getD (.new d)).height.key) d (fun b => ?_) (fun a b => ?_) a
  · rintro ⟨td, tn, htd, -⟩
    exact (hfound d td htd).2.1 rfl
  · rintro ⟨td, tn, htd, hnext, rfl⟩
    obtain ⟨hindex, -, hs⟩ := hfound a td htd
    obtain ⟨hmem, hp⟩ := ToraDest.of_nbBest hnext
    obtain ⟨hnb, hdn⟩ : ¬tn.height.isNull ∧ tn.lnkStat = .dn := by simpa using hp
    by_cases hd : tn.index = d
    · exact Or.inl hd
    · obtain ⟨td', htd', hheight⟩ := hsync a td tn htd hmem hd hnb
      refine Or.inr ⟨⟨td', htd', hheight ▸ hnb⟩, ?_⟩
      rintro ⟨ta, hta, hnull⟩
      obtain rfl := Option.some.inj (htd.symm.trans hta)
      show (((w.node tn.index).dstFind d).getD _).height.key < (((w.node a).dstFind d).getD _).height.key
      rw [htd', htd, Option.getD_some, Option.getD_some, hheight]
      exact hs.down hnull tn hmem (hindex ▸ hd) hdn

/-- As long as no node creates a reference level when it loses its last downstream link, heights are ordered by the
addresses that they carry, and with current heights the next hops form no cycle. -/
theorem tora_run {evs : List (NetworkEvent ℤ (ToraNotice × ToraMoment) ToraMoment)} {os : List Unit}
    (hkeep : EachStep (Network.step handlers) NoLevelFromLoss start evs)
    (hrun : run (Network.step handlers) start evs = some (w, os)) :
    ∀ d, Ordered w d ∧ (Synchronized w d → ∀ a, ¬Relation.TransGen (NextHop w d) a a) := fun d =>
  ⟨(sound_run hkeep hrun).ordered d, fun hsync a => (sound_run hkeep hrun).acyclic hsync a⟩

/-- Node 1 asks for a route to 0, which its neighbour 2 has; its neighbour 3 gets it from node 1. -/
def routesFound : List (NetworkEvent ℤ (ToraNotice × ToraMoment) ToraMoment) :=
  [.act 1 (.data 0, ⟨1, [2, 3], [2, 3]⟩), .deliver 0 ⟨2, [0, 1], [1]⟩, .deliver 0 ⟨3, [1], []⟩,
    .deliver 0 ⟨4, [], [3]⟩, .deliver 0 ⟨5, [], [1]⟩, .deliver 0 ⟨6, [], []⟩]

theorem tora_run_routesFound : ∃ w os, run (Network.step handlers) start routesFound = some (w, os) ∧
    ∀ d, Ordered w d ∧ (Synchronized w d → ∀ a, ¬Relation.TransGen (NextHop w d) a a) := by
  have hkeep : EachStep (Network.step handlers) NoLevelFromLoss start routesFound :=
    ⟨trivial, fun _ _ _ => ⟨trivial, fun _ _ _ => ⟨trivial, fun _ _ _ => ⟨trivial, fun _ _ _ => ⟨trivial,
      fun _ _ _ => ⟨trivial, fun _ _ _ => trivial⟩⟩⟩⟩⟩⟩
  obtain ⟨w, os, -, hrun, -⟩ : ∃ w os, EachStep (Network.step handlers) (fun _ _ => True) start routesFound ∧
      run (Network.step handlers) start routesFound = some (w, os) ∧ True :=
    run_guarded_of (fun _ _ => True) (by decide +kernel)
  exact ⟨w, os, hrun, tora_run hkeep hrun⟩

/-- When node 1 loses the link to 2, its new height carries the address of the destination. -/
theorem lost_link_takes_id_of_destination : ∃ w os,
    run (Network.step handlers) start (routesFound ++ [.act 1 (.linkDown 2 [], ⟨7, [3], [3]⟩)]) = some (w, os) ∧
      ((w.node 1).dstFind 0).map (·.height) = some ⟨7, 0, 0, 0, 0⟩ ∧ ¬Ordered w 0 := by
  obtain ⟨w, os, -, hrun, hheight⟩ : ∃ w os,
      EachStep (Network.step handlers) (fun _ _ => True) start
        (routesFound ++ [.act 1 (.linkDown 2 [], ⟨7, [3], [3]⟩)]) ∧
      run (Network.step handlers) start (routesFound ++ [.act 1 (.linkDown 2 [], ⟨7, [3], [3]⟩)]) = some (w, os) ∧
        ((w.node 1).dstFind 0).map (·.height) = some ⟨7, 0, 0, 0, 0⟩ :=
    run_guarded_of (fun (w : State) _ => ((w.node 1).dstFind 0).map (·.height) = some ⟨7, 0, 0, 0, 0⟩)
      (by decide +kernel)
  refine ⟨w, os, hrun, hheight, fun hordered => ?_⟩
  obtain ⟨td, htd, hnew⟩ := Option.map_eq_some_iff.mp hheight
  have hid := hordered.own 1 td htd (hnew ▸ by decide)
  rw [hnew] at hid
  exact absurd hid (by decide)

end ToraNetwork

end NetworkSimulator
