import Mathlib.Algebra.Order.Field.Rat
import Mathlib.Order.Bounds.Basic
import Mathlib.Tactic.FieldSimp
import Mathlib.Tactic.Positivity
import NetworkSimulator.Library.Runs
import NetworkSimulator.Library.TokenBucket

/-!
# The token bucket filter

`TBF` sends a packet when the bucket has its bits, and lets the others wait for the timer. The timer is the time of its
expiry, and the queue is the list that its `PacketQueue` holds. The filter is the greedy shaper: every packet that it
accepts leaves in the order of arrival, at the earliest time at which what has left conforms to the rate and the bucket.
-/

namespace NetworkSimulator
open Library

structure TBFConfig where
  rate : ℚ
  bucket : ℤ
  qlen : ℤ

structure TBF (ι : Type) where
  tokens : ℚ
  lastupdatetime : ℚ
  q : List ι
  tbf_timer : Option ℚ
  fresh : Bool
  clock : ℚ

inductive TBFCall (ι : Type)
  | recv (now : ℚ) (p : ι)
  | expire

/-- A packet that is sent to the target or dropped, with the time. -/
inductive TBFNote (ι : Type)
  | sent (now : ℚ) (p : ι)
  | dropped (now : ℚ) (p : ι)
  deriving DecidableEq

namespace TBF
variable {ι : Type} (cfg : TBFConfig) (size : ι → ℤ)

/-- `lastupdatetime_` is not set until the first packet comes. -/
def init (lastupdatetime clock : ℚ) : TBF ι := ⟨0, lastupdatetime, [], none, true, clock⟩

/-- `ch->size()<<3` -/
def pktsize (p : ι) : ℚ := ((size p * 8 : ℤ) : ℚ)

def getupdatedtokens (s : TBF ι) : TBF ι :=
  let tokens := s.tokens + (s.clock - s.lastupdatetime) * cfg.rate
  { s with tokens := if tokens > cfg.bucket then (cfg.bucket : ℚ) else tokens, lastupdatetime := s.clock }

/-- The timer is set for the bits that a packet still needs. -/
def resched (s : TBF ι) (p : ι) : TBF ι :=
  { s with tbf_timer := some (s.clock + (pktsize size p - s.tokens) / cfg.rate) }

def startFull (s : TBF ι) : TBF ι :=
  if s.fresh then { s with tokens := cfg.bucket, lastupdatetime := s.clock, fresh := false } else s

def recv (s : TBF ι) (p : ι) : TBF ι × List (TBFNote ι) :=
  let s := s.startFull cfg
  if s.q.length ≠ 0 then
    if (s.q.length : ℤ) < cfg.qlen then ({ s with q := s.q ++ [p] }, []) else (s, [.dropped s.clock p])
  else
    let s := s.getupdatedtokens cfg
    if s.tokens ≥ pktsize size p then ({ s with tokens := s.tokens - pktsize size p }, [.sent s.clock p])
    else if cfg.qlen ≠ 0 then ({ s with q := s.q ++ [p] }.resched cfg size p, [])
    else (s, [.dropped s.clock p])

/-- The abort of an empty queue is `none`. -/
def timeout (s : TBF ι) : Option (TBF ι × List (TBFNote ι)) :=
  match s.q with
  | [] => none
  | p :: rest =>
    let s := { s with q := rest }.getupdatedtokens cfg
    let s := { s with tokens := s.tokens - pktsize size p }
    some (match rest with
      | [] => s
      | p' :: _ => s.resched cfg size p', [.sent s.clock p])

/-- The scheduler aborts when the time of an event has passed. -/
def step (s : TBF ι) : TBFCall ι → Option (TBF ι × List (TBFNote ι))
  | .recv now p => some ({ s with clock := now }.recv cfg size p)
  | .expire =>
    match s.tbf_timer with
    | none => some (s, [])
    | some deadline =>
      if deadline < s.clock then none
      else { s with tbf_timer := none, clock := deadline }.timeout cfg size

/-- A packet fits the bucket and comes before the timer expires. -/
def Proper (s : TBF ι) : TBFCall ι → Prop
  | .recv now p =>
    s.clock ≤ now ∧ (∀ deadline ∈ s.tbf_timer, now ≤ deadline) ∧ 0 ≤ size p ∧ pktsize size p ≤ cfg.bucket
  | .expire => True

instance (s : TBF ι) : ∀ call : TBFCall ι, Decidable (s.Proper cfg size call)
  | .recv _ _ => inferInstanceAs (Decidable (_ ∧ _ ∧ _ ∧ _))
  | .expire => instDecidableTrue

end TBF

/-! ### The greedy shaper -/

def TBFCall.arrival {ι : Type} : TBFCall ι → Option (ℚ × ι)
  | .recv now p => some (now, p)
  | .expire => none

def TBFNote.departure {ι : Type} : TBFNote ι → Option (ℚ × ι)
  | .sent now p => some (now, p)
  | .dropped _ _ => none

def TBFNote.drop {ι : Type} : TBFNote ι → Option (ℚ × ι)
  | .sent _ _ => none
  | .dropped now p => some (now, p)

namespace TBF
variable {ι : Type} {cfg : TBFConfig} {size : ι → ℤ} {s : TBF ι} {calls : List (TBFCall ι)} {notes : List (TBFNote ι)}
  {accepted : List (ℚ × ι)}

def arrivals (calls : List (TBFCall ι)) : List (ℚ × ι) := calls.filterMap TBFCall.arrival

def departures (notes : List (TBFNote ι)) : List (ℚ × ι) := notes.filterMap TBFNote.departure

def drops (notes : List (TBFNote ι)) : List (ℚ × ι) := notes.filterMap TBFNote.drop

/-- The bits that packets take out of the bucket. -/
def takes (size : ι → ℤ) (l : List (ℚ × ι)) : List (Take ℚ) := l.map fun x => ⟨x.1, pktsize size x.2⟩

/-- Each accepted packet leaves at the earliest time, not before it has come nor before those that came first, at which
what has left conforms. -/
def Greedy (cfg : TBFConfig) (size : ι → ℤ) (accepted departed : List (ℚ × ι)) : Prop :=
  ∀ l x a, l ++ [x] <+: departed → accepted[l.length]? = some a → x.2 = a.2 ∧
    IsLeast {t | a.1 ≤ t ∧ (∀ y ∈ l, y.1 ≤ t) ∧
      Conforms cfg.rate cfg.bucket (takes size l ++ [⟨t, pktsize size a.2⟩])} x.1

/-- The packets and the bits so far. -/
structure Accounts (cfg : TBFConfig) (size : ι → ℤ) (s : TBF ι) (calls : List (TBFCall ι)) (notes : List (TBFNote ι))
    (accepted : List (ℚ × ι)) : Prop where
  started : s.fresh = false
  past : s.lastupdatetime ≤ s.clock
  come : ∀ x ∈ accepted, x.1 ≤ s.clock
  gone : ∀ x ∈ departures notes, x.1 ≤ s.lastupdatetime
  bits : ∀ x ∈ accepted, 0 ≤ size x.2 ∧ pktsize size x.2 ≤ cfg.bucket
  sublist : accepted.Sublist (arrivals calls)
  all : (accepted ++ drops notes).Perm (arrivals calls)
  served : (departures notes).map Prod.snd ++ s.q = accepted.map Prod.snd
  conforms : Conforms cfg.rate cfg.bucket (takes size (departures notes))
  meters : TokenBucket.Meters cfg.rate cfg.bucket ⟨s.tokens, s.lastupdatetime⟩ (takes size (departures notes))
  greedy : Greedy cfg size accepted (departures notes)
  limit : (s.q.length : ℤ) ≤ max 1 cfg.qlen

/-- The timer expires when the bucket has the bits of the head of the queue. -/
structure Waits (cfg : TBFConfig) (size : ι → ℤ) (s : TBF ι) (p : ι) (arrival : ℚ) (departed : List (ℚ × ι)) :
    Prop where
  short : s.tokens ≤ pktsize size p
  timer : s.tbf_timer = some (s.lastupdatetime + (pktsize size p - s.tokens) / cfg.rate)
  ahead : s.clock ≤ s.lastupdatetime + (pktsize size p - s.tokens) / cfg.rate
  here : arrival ≤ s.lastupdatetime
  since : ∀ t, arrival ≤ t → (∀ y ∈ departed, y.1 ≤ t) → s.lastupdatetime ≤ t

structure Shapes (cfg : TBFConfig) (size : ι → ℤ) (s : TBF ι) (calls : List (TBFCall ι)) (notes : List (TBFNote ι))
    (accepted : List (ℚ × ι)) : Prop extends Accounts cfg size s calls notes accepted where
  idle : s.q = [] → s.tbf_timer = none
  waits : ∀ x, accepted[(departures notes).length]? = some x → Waits cfg size s x.2 x.1 (departures notes)

lemma Greedy.accept {departed : List (ℚ × ι)} (h : Greedy cfg size accepted departed)
    (hlen : departed.length ≤ accepted.length) (y : ℚ × ι) : Greedy cfg size (accepted ++ [y]) departed := by
  intro l x a hprefix ha
  have hshort := hprefix.length_le
  rw [List.length_append, List.length_singleton] at hshort
  rw [List.getElem?_append_left (by omega)] at ha
  exact h l x a hprefix ha

/-- One more packet leaves. -/
lemma Greedy.depart {departed : List (ℚ × ι)} (h : Greedy cfg size accepted departed) {x a : ℚ × ι}
    (ha : accepted[departed.length]? = some a) (hx : x.2 = a.2)
    (hleast : IsLeast {t | a.1 ≤ t ∧ (∀ y ∈ departed, y.1 ≤ t) ∧
      Conforms cfg.rate cfg.bucket (takes size departed ++ [⟨t, pktsize size a.2⟩])} x.1) :
    Greedy cfg size accepted (departed ++ [x]) := by
  intro l y b hprefix hb
  rcases List.prefix_concat_iff.mp hprefix with heq | hprefix
  · obtain ⟨rfl, hy⟩ := List.append_inj' heq rfl
    obtain rfl := List.singleton_inj.mp hy
    obtain rfl := Option.some.inj (ha.symm.trans hb)
    exact ⟨hx, hleast⟩
  · exact h l y b hprefix hb

/-- The update of the tokens fills the bucket. -/
lemma getupdatedtokens_eq (s : TBF ι) : s.getupdatedtokens cfg =
    { s with
      tokens := (TokenBucket.refill cfg.rate cfg.bucket s.clock ⟨s.tokens, s.lastupdatetime⟩).level
      lastupdatetime := s.clock } := by
  unfold getupdatedtokens TokenBucket.refill
  dsimp only
  rw [mul_comm]
  congr 1
  split_ifs with hover
  · exact (min_eq_left hover.le).symm
  · exact (min_eq_right (not_lt.mp hover)).symm

/-- What a packet needs to leave at a later time. -/
lemma Accounts.conforms_at (h : s.Accounts cfg size calls notes accepted) (hrate : 0 < cfg.rate) {t : ℚ}
    (ht : s.lastupdatetime ≤ t) (p : ι) :
    Conforms cfg.rate cfg.bucket (takes size (departures notes) ++ [⟨t, pktsize size p⟩]) ↔
      pktsize size p ≤ cfg.bucket ∧ pktsize size p ≤ s.tokens + cfg.rate * (t - s.lastupdatetime) := by
  have hmeters := h.meters.refill hrate.le (show (TokenBucket.mk s.tokens s.lastupdatetime).last ≤ t from ht)
  rw [← le_min_iff]
  exact hmeters.conforms_iff h.conforms (pktsize size p)

@[simp] lemma departures_append (notes notes' : List (TBFNote ι)) :
    departures (notes ++ notes') = departures notes ++ departures notes' := List.filterMap_append

@[simp] lemma drops_append (notes notes' : List (TBFNote ι)) :
    drops (notes ++ notes') = drops notes ++ drops notes' := List.filterMap_append

lemma takes_concat (l : List (ℚ × ι)) (x : ℚ × ι) :
    takes size (l ++ [x]) = takes size l ++ [⟨x.1, pktsize size x.2⟩] := List.map_append

lemma Accounts.length_eq (h : s.Accounts cfg size calls notes accepted) :
    (departures notes).length + s.q.length = accepted.length := by
  simpa using congrArg List.length h.served

/-- The head of the queue is the first packet that was accepted and has not left. -/
lemma Accounts.head (h : s.Accounts cfg size calls notes accepted) {p : ι} {rest : List ι} (hq : s.q = p :: rest) :
    ∃ a, accepted[(departures notes).length]? = some a ∧ a.2 = p := by
  have hserved := congrArg (fun l => l[(departures notes).length]?) h.served
  rw [List.getElem?_append_right (by rw [List.length_map]), List.length_map, Nat.sub_self, hq, List.getElem?_map]
    at hserved
  cases ha : accepted[(departures notes).length]? with
  | none =>
    rw [ha] at hserved
    cases hserved
  | some a =>
    rw [ha] at hserved
    exact ⟨a, rfl, (Option.some.inj hserved).symm⟩

/-- The bucket is filled up to now; whoever waits is left out. -/
lemma Accounts.getupdatedtokens (h : s.Accounts cfg size calls notes accepted) (hrate : 0 < cfg.rate) :
    (s.getupdatedtokens cfg).Accounts cfg size calls notes accepted := by
  rw [getupdatedtokens_eq]
  exact ⟨h.started, le_rfl, h.come, fun x hx => (h.gone x hx).trans h.past, h.bits, h.sublist, h.all, h.served,
    h.conforms, h.meters.refill hrate.le h.past, h.greedy, h.limit⟩

/-- A packet leaves as soon as it can. -/
lemma Accounts.depart (h : s.Accounts cfg size calls notes accepted) (hnow : s.lastupdatetime = s.clock) {p : ι}
    {rest : List ι} (hq : s.q = p :: rest) {a : ℚ × ι} (ha : accepted[(departures notes).length]? = some a)
    (hbits : pktsize size p ≤ s.tokens)
    (hleast : ∀ t, a.1 ≤ t → (∀ y ∈ departures notes, y.1 ≤ t) →
      Conforms cfg.rate cfg.bucket (takes size (departures notes) ++ [⟨t, pktsize size p⟩]) → s.clock ≤ t) :
    Accounts cfg size { s with q := rest, tokens := s.tokens - pktsize size p } calls (notes ++ [.sent s.clock p])
      accepted := by
  obtain ⟨a', ha', hp⟩ := h.head hq
  obtain rfl := Option.some.inj (ha.symm.trans ha')
  obtain ⟨hsize, -⟩ := h.bits a (List.mem_of_getElem? ha)
  rw [hp] at hsize
  have hpkt : 0 ≤ pktsize size p := by
    unfold pktsize
    exact_mod_cast Int.mul_nonneg hsize (by norm_num)
  have hconforms := (h.meters.conforms_iff h.conforms (pktsize size p)).mpr hbits
  dsimp only at hconforms
  rw [hnow] at hconforms
  have hdepartures : departures (notes ++ [.sent s.clock p]) = departures notes ++ [(s.clock, p)] :=
    departures_append _ _
  constructor
  · exact h.started
  · exact h.past
  · exact h.come
  · rw [hdepartures, hnow]
    intro x hx
    rcases List.mem_append.mp hx with hx | hx
    · exact hnow ▸ h.gone x hx
    · rw [List.mem_singleton.mp hx]
  · exact h.bits
  · exact h.sublist
  · rw [drops_append]
    exact (List.append_nil (drops notes)).symm ▸ h.all
  · rw [hdepartures, ← h.served, hq]
    simp
  · rw [hdepartures, takes_concat]
    exact hconforms
  · rw [hdepartures, takes_concat]
    dsimp only
    rw [← hnow]
    exact h.meters.take hpkt
  · rw [hdepartures]
    refine h.greedy.depart ha hp.symm ⟨⟨h.come a (List.mem_of_getElem? ha), fun y hy => hnow ▸ h.gone y hy, ?_⟩, ?_⟩
    · rw [hp]
      exact hconforms
    · rintro t ⟨harrival, hdeparted, hfits⟩
      rw [hp] at hfits
      exact hleast t harrival hdeparted hfits
  · have hlimit := h.limit
    rw [hq, List.length_cons] at hlimit
    dsimp only
    push_cast at hlimit
    omega

lemma arrivals_concat (calls : List (TBFCall ι)) (now : ℚ) (p : ι) :
    arrivals (calls ++ [.recv now p]) = arrivals calls ++ [(now, p)] := List.filterMap_append

/-- The clock goes on. -/
lemma Accounts.tick (h : s.Accounts cfg size calls notes accepted) {now : ℚ} (hnow : s.clock ≤ now)
    (tbf_timer : Option ℚ) : Accounts cfg size { s with tbf_timer, clock := now } calls notes accepted :=
  ⟨h.started, h.past.trans hnow, fun x hx => (h.come x hx).trans hnow, h.gone, h.bits, h.sublist, h.all, h.served,
    h.conforms, h.meters, h.greedy, h.limit⟩

lemma Accounts.accept (h : s.Accounts cfg size calls notes accepted) {p : ι} (hsize : 0 ≤ size p)
    (hfits : pktsize size p ≤ cfg.bucket) (hlimit : (s.q.length : ℤ) + 1 ≤ max 1 cfg.qlen) :
    Accounts cfg size { s with q := s.q ++ [p] } (calls ++ [.recv s.clock p]) notes (accepted ++ [(s.clock, p)]) := by
  have hlength := h.length_eq
  constructor
  · exact h.started
  · exact h.past
  · intro x hx
    rcases List.mem_append.mp hx with hx | hx
    · exact h.come x hx
    · rw [List.mem_singleton.mp hx]
  · exact h.gone
  · intro x hx
    rcases List.mem_append.mp hx with hx | hx
    · exact h.bits x hx
    · rw [List.mem_singleton.mp hx]
      exact ⟨hsize, hfits⟩
  · rw [arrivals_concat]
    exact h.sublist.append_right _
  · rw [arrivals_concat, List.append_assoc]
    refine (List.perm_append_comm.append_left accepted).trans ?_
    rw [← List.append_assoc]
    exact h.all.append_right _
  · rw [List.map_append, ← h.served, List.append_assoc]
    rfl
  · exact h.conforms
  · exact h.meters
  · exact h.greedy.accept (by omega) _
  · rw [List.length_append, List.length_singleton]
    push_cast
    exact hlimit

lemma Accounts.refuse (h : s.Accounts cfg size calls notes accepted) (p : ι) :
    s.Accounts cfg size (calls ++ [.recv s.clock p]) (notes ++ [.dropped s.clock p]) accepted := by
  have hdepartures : departures (notes ++ [.dropped s.clock p]) = departures notes := by
    rw [departures_append]
    exact List.append_nil _
  refine ⟨h.started, h.past, h.come, ?_, h.bits, ?_, ?_, ?_, ?_, ?_, ?_, h.limit⟩
  · rw [hdepartures]
    exact h.gone
  · rw [arrivals_concat]
    exact h.sublist.trans (List.sublist_append_left _ _)
  · rw [arrivals_concat, drops_append, ← List.append_assoc]
    exact h.all.append_right _
  · rw [hdepartures]
    exact h.served
  · rw [hdepartures]
    exact h.conforms
  · rw [hdepartures]
    exact h.meters
  · rw [hdepartures]
    exact h.greedy

/-- A packet that finds others in the queue waits behind them or is dropped. -/
lemma Shapes.recv_behind (h : s.Shapes cfg size calls notes accepted) {p : ι} (hsize : 0 ≤ size p)
    (hfits : pktsize size p ≤ cfg.bucket) (hq : s.q ≠ []) :
    ∃ accepted', Shapes cfg size (s.recv cfg size p).1 (calls ++ [.recv s.clock p])
      (notes ++ (s.recv cfg size p).2) accepted' := by
  have hlength := h.length_eq
  have hpos := List.length_pos_of_ne_nil hq
  unfold TBF.recv startFull
  rw [h.started]
  dsimp only
  rw [if_neg Bool.false_ne_true, if_pos hpos.ne']
  split_ifs with hroom
  · refine ⟨accepted ++ [(s.clock, p)], ?_⟩
    rw [List.append_nil]
    refine ⟨h.accept hsize hfits ((Int.add_one_le_of_lt hroom).trans (le_max_right _ _)), ?_, fun x hx => ?_⟩
    · exact fun hnil => absurd hnil (List.append_ne_nil_of_right_ne_nil _ (List.cons_ne_nil p []))
    · rw [List.getElem?_append_left (by omega)] at hx
      obtain ⟨hshort, htimer, hahead, hhere, hsince⟩ := h.waits x hx
      exact ⟨hshort, htimer, hahead, hhere, hsince⟩
  · refine ⟨accepted, h.refuse p, fun hnil => absurd hnil hq, fun x hx => ?_⟩
    have hdepartures : departures (notes ++ [.dropped s.clock p]) = departures notes := by
      rw [departures_append]
      exact List.append_nil _
    rw [hdepartures] at hx ⊢
    exact h.waits x hx

/-- Nobody waits. -/
lemma Accounts.idle (h : s.Accounts cfg size calls notes accepted) (hq : s.q = []) (htimer : s.tbf_timer = none) :
    s.Shapes cfg size calls notes accepted := by
  refine ⟨h, fun _ => htimer, fun x hx => ?_⟩
  have hlength := h.length_eq
  rw [hq, List.length_nil, add_zero] at hlength
  rw [List.getElem?_eq_none hlength.ge] at hx
  cases hx

/-- A packet that finds the queue empty leaves at once if it can. -/
lemma Shapes.recv_first (h : s.Shapes cfg size calls notes accepted) (hrate : 0 < cfg.rate) {p : ι} (hsize : 0 ≤ size p)
    (hfits : pktsize size p ≤ cfg.bucket) (hq : s.q = []) :
    ∃ accepted', Shapes cfg size (s.recv cfg size p).1 (calls ++ [.recv s.clock p])
      (notes ++ (s.recv cfg size p).2) accepted' := by
  have htimer := h.idle hq
  have hlength := h.length_eq
  rw [hq, List.length_nil, add_zero] at hlength
  have hfilled := h.toAccounts.getupdatedtokens hrate
  have hq' : (s.getupdatedtokens cfg).q = [] := hq
  have htimer' : (s.getupdatedtokens cfg).tbf_timer = none := htimer
  have hnow : (s.getupdatedtokens cfg).lastupdatetime = (s.getupdatedtokens cfg).clock := rfl
  have hclock : s.clock = (s.getupdatedtokens cfg).clock := rfl
  unfold TBF.recv startFull
  rw [h.started]
  dsimp only
  rw [if_neg Bool.false_ne_true, if_neg (not_not.mpr (by rw [hq]; rfl))]
  rw [hclock]
  generalize s.getupdatedtokens cfg = s at hfilled hq' htimer' hnow ⊢
  have hlimit : (s.q.length : ℤ) + 1 ≤ max 1 cfg.qlen := by
    rw [hq']
    exact le_max_left 1 _
  have hnew : (accepted ++ [(s.clock, p)])[(departures notes).length]? = some (s.clock, p) := by
    rw [hlength, List.getElem?_concat_length]
  have haccept := hfilled.accept hsize hfits hlimit
  split_ifs with hbits hqueue
  · have hline : s.q ++ [p] = [p] := by rw [hq', List.nil_append]
    have hdepart := haccept.depart hnow hline hnew hbits fun t harrival _ _ => harrival
    dsimp only at hdepart
    rw [← hq'] at hdepart
    exact ⟨_, hdepart.idle hq' htimer'⟩
  · refine ⟨accepted ++ [(s.clock, p)], ?_, fun hnil => ?_, fun x hx => ?_⟩
    · rw [List.append_nil notes]
      exact haccept.tick le_rfl _
    · exact absurd hnil (List.append_ne_nil_of_right_ne_nil _ (List.cons_ne_nil p []))
    · rw [List.append_nil notes] at hx ⊢
      obtain rfl := Option.some.inj (hnew.symm.trans hx)
      have hshort : s.tokens ≤ pktsize size p := (not_le.mp hbits).le
      refine ⟨hshort, ?_, ?_, ?_, fun t ht _ => ?_⟩
      · rw [hnow]
        rfl
      · have hdelay : 0 ≤ (pktsize size p - s.tokens) / cfg.rate := div_nonneg (sub_nonneg.mpr hshort) hrate.le
        rw [hnow]
        exact le_add_of_nonneg_right hdelay
      · exact hnow.ge
      · exact hnow.le.trans ht
  · exact ⟨accepted, (hfilled.refuse p).idle hq' htimer'⟩

/-- The timer has expired: the bucket has exactly the bits of the head of the queue. -/
lemma Shapes.expire (h : s.Shapes cfg size calls notes accepted) (hrate : 0 < cfg.rate) :
    ∃ s' o, s.step cfg size .expire = some (s', o) ∧ s'.Shapes cfg size calls (notes ++ o) accepted := by
  cases hq : s.q with
  | nil =>
    refine ⟨s, [], ?_, (List.append_nil notes).symm ▸ h⟩
    unfold TBF.step
    rw [h.idle hq]
  | cons p rest =>
    obtain ⟨a, ha, hp⟩ := h.head hq
    obtain ⟨hshort, htimer, hahead, hhere, hsince⟩ := h.waits a ha
    obtain ⟨-, hfits⟩ := h.bits a (List.mem_of_getElem? ha)
    rw [hp] at hshort htimer hahead hfits
    have hpast := h.past
    have hwait : (s.lastupdatetime + (pktsize size p - s.tokens) / cfg.rate - s.lastupdatetime) * cfg.rate =
        pktsize size p - s.tokens := by
      rw [add_sub_cancel_left, div_mul_cancel₀ _ hrate.ne']
    have hstep : s.step cfg size .expire = { s with
        tbf_timer := none
        clock := s.lastupdatetime + (pktsize size p - s.tokens) / cfg.rate }.timeout cfg size := by
      unfold TBF.step
      rw [htimer]
      exact if_neg hahead.not_gt
    have hconforms := fun t ht => h.toAccounts.conforms_at hrate (t := t) ht p
    have hticked := h.toAccounts.tick hahead none
    have hfilled := hticked.getupdatedtokens hrate
    have hupdated : TBF.getupdatedtokens cfg { s with
        tbf_timer := none
        clock := s.lastupdatetime + (pktsize size p - s.tokens) / cfg.rate } = { s with
        tokens := pktsize size p
        lastupdatetime := s.lastupdatetime + (pktsize size p - s.tokens) / cfg.rate
        tbf_timer := none
        clock := s.lastupdatetime + (pktsize size p - s.tokens) / cfg.rate } := by
      unfold TBF.getupdatedtokens
      dsimp only
      rw [hwait, add_sub_cancel, if_neg hfits.not_gt]
    rw [hupdated] at hfilled
    have hdepart := hfilled.depart rfl hq ha le_rfl fun t harrival hdeparted hfit => by
      have hlast := hsince t harrival hdeparted
      have hbits := ((hconforms t hlast).mp hfit).2
      have hdiv : (pktsize size p - s.tokens) / cfg.rate ≤ t - s.lastupdatetime := by
        rw [div_le_iff₀ hrate]
        linarith
      dsimp only
      linarith
    dsimp only at hdepart
    rw [sub_self] at hdepart
    rw [hstep]
    unfold TBF.timeout
    rw [hq]
    dsimp only
    rw [show TBF.getupdatedtokens cfg { s with
        q := rest
        tbf_timer := none
        clock := s.lastupdatetime + (pktsize size p - s.tokens) / cfg.rate } = { s with
        tokens := pktsize size p
        lastupdatetime := s.lastupdatetime + (pktsize size p - s.tokens) / cfg.rate
        q := rest
        tbf_timer := none
        clock := s.lastupdatetime + (pktsize size p - s.tokens) / cfg.rate } from
      congrArg (fun r : TBF ι => { r with q := rest }) hupdated]
    dsimp only
    rw [sub_self]
    generalize s.lastupdatetime + (pktsize size p - s.tokens) / cfg.rate = now at hdepart hahead
    cases rest with
    | nil => exact ⟨_, _, rfl, hdepart.idle rfl rfl⟩
    | cons p' rest =>
      refine ⟨_, _, rfl, hdepart.tick le_rfl _, fun hnil => absurd hnil (List.cons_ne_nil p' rest), fun x hx => ?_⟩
      obtain ⟨b, hb, hp'⟩ := hdepart.head rfl
      obtain rfl := Option.some.inj (hb.symm.trans hx)
      obtain ⟨hsize, -⟩ := h.bits b (List.mem_of_getElem? hb)
      have hpkt : 0 ≤ pktsize size b.2 := by
        unfold pktsize
        exact_mod_cast Int.mul_nonneg hsize (by norm_num)
      refine ⟨hpkt, ?_, ?_, (h.come b (List.mem_of_getElem? hb)).trans hahead, fun t _ hdeparted => ?_⟩
      · rw [hp']
        rfl
      · exact le_add_of_nonneg_right (div_nonneg (sub_nonneg.mpr hpkt) hrate.le)
      · refine hdeparted (now, p) ?_
        rw [departures_append]
        exact List.mem_append_right _ (List.mem_singleton_self _)

/-! ### Runs -/

/-- Nothing has come yet. -/
structure Untouched (s : TBF ι) (calls : List (TBFCall ι)) (notes : List (TBFNote ι)) : Prop where
  fresh : s.fresh = true
  q : s.q = []
  timer : s.tbf_timer = none
  calls : arrivals calls = []
  notes : notes = []

variable (cfg size) in
/-- The first packet finds a full bucket. -/
lemma Untouched.startFull (h : s.Untouched calls notes) :
    (s.startFull cfg).Shapes cfg size calls notes [] := by
  have hdepartures : departures notes = [] := by rw [h.notes]; rfl
  have hdrops : drops notes = [] := by rw [h.notes]; rfl
  unfold TBF.startFull
  rw [if_pos h.fresh]
  refine ⟨⟨rfl, le_rfl, ?_, ?_, ?_, List.nil_sublist _, ?_, ?_, ?_, ?_, ?_, ?_⟩, fun _ => h.timer, ?_⟩
  · exact fun _ hx => absurd hx List.not_mem_nil
  · rw [hdepartures]
    exact fun _ hx => absurd hx List.not_mem_nil
  · exact fun _ hx => absurd hx List.not_mem_nil
  · rw [hdrops, h.calls]
    exact List.Perm.refl _
  · dsimp only
    rw [hdepartures, h.q]
    rfl
  · rw [hdepartures]
    exact conforms_nil _ _
  · rw [hdepartures]
    exact TokenBucket.meters_full _ _ _
  · rw [hdepartures]
    intro l x a hprefix
    exact absurd (List.prefix_nil.mp hprefix) (List.append_ne_nil_of_right_ne_nil _ (List.cons_ne_nil x []))
  · dsimp only
    rw [h.q]
    exact zero_le_one.trans (le_max_left 1 _)
  · intro x hx
    rw [List.getElem?_nil] at hx
    cases hx

lemma Shapes.step (h : s.Shapes cfg size calls notes accepted) (hrate : 0 < cfg.rate) {call : TBFCall ι}
    (hproper : s.Proper cfg size call) :
    ∃ s' o accepted', s.step cfg size call = some (s', o) ∧
      s'.Shapes cfg size (calls ++ [call]) (notes ++ o) accepted' := by
  cases call with
  | recv now p =>
    obtain ⟨hnow, hearly, hsize, hfits⟩ := hproper
    have hticked : Shapes cfg size { s with clock := now } calls notes accepted := by
      refine ⟨h.toAccounts.tick hnow s.tbf_timer, h.idle, fun x hx => ?_⟩
      obtain ⟨hshort, htimer, -, hhere, hsince⟩ := h.waits x hx
      exact ⟨hshort, htimer, hearly _ htimer, hhere, hsince⟩
    by_cases hq : s.q = []
    · obtain ⟨accepted', hshapes⟩ := hticked.recv_first hrate hsize hfits hq
      exact ⟨_, _, accepted', rfl, hshapes⟩
    · obtain ⟨accepted', hshapes⟩ := hticked.recv_behind hsize hfits hq
      exact ⟨_, _, accepted', rfl, hshapes⟩
  | expire =>
    obtain ⟨s', o, hstep, hshapes⟩ := h.expire hrate
    have harrivals : arrivals (calls ++ [.expire]) = arrivals calls := by
      unfold arrivals
      rw [List.filterMap_append]
      exact List.append_nil _
    refine ⟨s', o, accepted, hstep, ⟨⟨hshapes.started, hshapes.past, hshapes.come, hshapes.gone, hshapes.bits, ?_, ?_,
      hshapes.served, hshapes.conforms, hshapes.meters, hshapes.greedy, hshapes.limit⟩, hshapes.idle, hshapes.waits⟩⟩
    · rw [harrivals]
      exact hshapes.sublist
    · rw [harrivals]
      exact hshapes.all

lemma startFull_recv (s : TBF ι) (p : ι) : (s.startFull cfg).recv cfg size p = s.recv cfg size p := by
  have hidem : (s.startFull cfg).startFull cfg = s.startFull cfg := by
    unfold TBF.startFull
    split_ifs with hfresh hnot
    · cases hnot
    · rfl
    · rfl
  unfold TBF.recv
  rw [hidem]

lemma Untouched.step (h : s.Untouched calls notes) (hrate : 0 < cfg.rate) {call : TBFCall ι}
    (hproper : s.Proper cfg size call) :
    ∃ s' o, s.step cfg size call = some (s', o) ∧ (s'.Untouched (calls ++ [call]) (notes ++ o) ∨
      ∃ accepted, s'.Shapes cfg size (calls ++ [call]) (notes ++ o) accepted) := by
  cases call with
  | recv now p =>
    obtain ⟨-, -, hsize, hfits⟩ := hproper
    have hticked : Untouched { s with clock := now } calls notes := ⟨h.fresh, h.q, h.timer, h.calls, h.notes⟩
    have hq : (TBF.startFull cfg { s with clock := now }).q = [] := by
      unfold TBF.startFull
      split_ifs <;> exact h.q
    have hclock : (TBF.startFull cfg { s with clock := now }).clock = now := by
      unfold TBF.startFull
      split_ifs <;> rfl
    obtain ⟨accepted, hshapes⟩ := (hticked.startFull cfg size).recv_first hrate hsize hfits hq
    rw [startFull_recv, hclock] at hshapes
    exact ⟨_, _, rfl, Or.inr ⟨accepted, hshapes⟩⟩
  | expire =>
    refine ⟨s, [], ?_, Or.inl ⟨h.fresh, h.q, h.timer, ?_, ?_⟩⟩
    · unfold TBF.step
      rw [h.timer]
    · unfold arrivals
      rw [List.filterMap_append]
      exact (List.append_nil _).trans h.calls
    · rw [h.notes]
      rfl

/-- The filter is the greedy shaper over every run. -/
theorem tbf_run (hrate : 0 < cfg.rate) {lastupdatetime clock : ℚ} {calls : List (TBFCall ι)}
    (h : EachStep (step cfg size) (Proper cfg size) (init lastupdatetime clock) calls) :
    ∃ s notes accepted, run (step cfg size) (init lastupdatetime clock) calls = some (s, notes) ∧
      accepted.Sublist (arrivals calls) ∧ (accepted ++ drops notes.flatten).Perm (arrivals calls) ∧
      (departures notes.flatten).map Prod.snd ++ s.q = accepted.map Prod.snd ∧
      Greedy cfg size accepted (departures notes.flatten) ∧ (s.q.length : ℤ) ≤ max 1 cfg.qlen := by
  obtain ⟨s, notes, hrun, hend⟩ := run_account (R := fun s calls notes => s.Untouched calls notes ∨
      ∃ accepted, s.Shapes cfg size calls notes accepted) (fun s js tr i hs hproper => by
    rcases hs with huntouched | ⟨accepted, hshapes⟩
    · exact huntouched.step hrate hproper
    · obtain ⟨s', o, accepted', hstep, hshapes'⟩ := hshapes.step hrate hproper
      exact ⟨s', o, hstep, Or.inr ⟨accepted', hshapes'⟩⟩) (Or.inl ⟨rfl, rfl, rfl, rfl, rfl⟩) h
  rcases hend with huntouched | ⟨accepted, hshapes⟩
  · have hfull := huntouched.startFull cfg size
    refine ⟨s, notes, [], hrun, hfull.sublist, hfull.all, ?_, hfull.greedy, ?_⟩
    · rw [huntouched.notes, huntouched.q]
      rfl
    · rw [huntouched.q]
      exact zero_le_one.trans (le_max_left 1 _)
  · exact ⟨s, notes, accepted, hrun, hshapes.sublist, hshapes.all, hshapes.served, hshapes.greedy, hshapes.limit⟩

/-- Four packets at once: one is sent, two wait and the last one is dropped. -/
def burst : List (TBFCall ℕ) := [.recv 0 1, .recv 0 2, .recv 0 3, .recv 0 4, .expire, .expire]

theorem tbf_run_burst : ∃ (s : TBF ℕ) (notes : List (List (TBFNote ℕ))) (accepted : List (ℚ × ℕ)),
    run (step ⟨1000, 1000, 2⟩ fun _ => 100) (init 0 0) burst = some (s, notes) ∧
      accepted.Sublist (arrivals burst) ∧ (accepted ++ drops notes.flatten).Perm (arrivals burst) ∧
      (departures notes.flatten).map Prod.snd ++ s.q = accepted.map Prod.snd ∧
      Greedy ⟨1000, 1000, 2⟩ (fun _ => 100) accepted (departures notes.flatten) ∧ (s.q.length : ℤ) ≤ max 1 2 := by
  obtain ⟨-, -, hproper, -, -⟩ := run_guarded_of (fun _ _ => True) (show ((run (guarded
    (step ⟨1000, 1000, 2⟩ fun _ => 100) (Proper ⟨1000, 1000, 2⟩ fun _ => 100)) (init 0 0) burst).map
    fun r => decide ((fun _ _ => True) r.1 r.2)) = some true by decide +kernel)
  exact tbf_run (by norm_num) hproper

end TBF

end NetworkSimulator
