import NetworkSimulator.Dsdv.Agent

/-!
# Update packets

`makeUpdate` counts the entries to advertise, puts the route to the node itself into the table if the update
is a full one, and then writes the entries. The count goes into one byte.
-/

namespace NetworkSimulator.Dsdv
open Library

/-! ### Words -/

/-- The bytes `v >> 24`, `v >> 16`, `v >> 8` and `v`. -/
def wordBytes (v : ℤ) : List UInt8 :=
  [UInt8.ofInt (v >>> (24 : ℕ)), UInt8.ofInt (v >>> (16 : ℕ)), UInt8.ofInt (v >>> (8 : ℕ)), UInt8.ofInt v]

lemma toNat_ofInt (v : ℤ) : ((UInt8.ofInt v).toNat : ℤ) = v % 256 := by
  have hpos : 0 ≤ v % 2 ^ 8 := Int.emod_nonneg v (by decide)
  have hlt : v % 2 ^ 8 < 2 ^ 8 := Int.emod_lt_of_pos v (by decide)
  rw [UInt8.ofInt, UInt8.toNat_ofNat']
  omega

/-- A word is read back modulo 2^32. -/
lemma readWord_wordBytes (v : ℤ) :
    (readWord (UInt8.ofInt (v >>> (24 : ℕ))) (UInt8.ofInt (v >>> (16 : ℕ))) (UInt8.ofInt (v >>> (8 : ℕ))) (UInt8.ofInt v) : ℤ) =
      v % 4294967296 := by
  unfold readWord
  push_cast
  rw [toNat_ofInt, toNat_ofInt, toNat_ofInt, toNat_ofInt, Int.shiftRight_eq_div_pow, Int.shiftRight_eq_div_pow,
    Int.shiftRight_eq_div_pow, show ((2 ^ 24 : ℕ) : ℤ) = 16777216 from rfl,
    show ((2 ^ 16 : ℕ) : ℤ) = 65536 from rfl, show ((2 ^ 8 : ℕ) : ℤ) = 256 from rfl]
  omega

lemma toNsAddr_readWord (a : NsAddr) :
    toNsAddr (readWord (UInt8.ofInt (a.1 >>> (24 : ℕ))) (UInt8.ofInt (a.1 >>> (16 : ℕ))) (UInt8.ofInt (a.1 >>> (8 : ℕ)))
      (UInt8.ofInt a.1)) = a := by
  obtain ⟨v, hv⟩ := a
  refine Subtype.ext ?_
  dsimp only [toNsAddr]
  rw [readWord_wordBytes]
  have hmod : (v % 4294967296).bmod 4294967296 = v.bmod 4294967296 := Int.emod_bmod v 4294967296
  rw [hmod]
  exact Int.bmod_eq_of_le (by omega) (by omega)

lemma ofNat_readWord (s : UInt32) :
    UInt32.ofNat (readWord (UInt8.ofInt ((s.toNat : ℤ) >>> (24 : ℕ))) (UInt8.ofInt ((s.toNat : ℤ) >>> (16 : ℕ)))
      (UInt8.ofInt ((s.toNat : ℤ) >>> (8 : ℕ))) (UInt8.ofInt s.toNat)) = s := by
  have hread := readWord_wordBytes s.toNat
  have hlt := s.toNat_lt
  rw [← UInt32.toNat_inj, UInt32.toNat_ofNat']
  omega

/-! ### Making an update -/

abbrev Row := (_ : NsAddr) × Entry

/-- The bytes of an entry. -/
def encode (row : Row) : List UInt8 :=
  wordBytes row.1 ++ UInt8.ofNat row.2.metric :: wordBytes row.2.seqnum.toNat

namespace Agent
variable (env : Env) (now : ℚ)

def advertiseable (row : Row) : Bool := row.2.advertise_ok_at ≤ now

/-- An entry that a triggered update includes. -/
def changed (row : Row) : Bool := (row.2.advert_seqnum || row.2.advert_metric) && advertiseable now row

/-- An entry that an update includes. -/
def included (periodic : Bool) (row : Row) : Bool :=
  if periodic then advertiseable now row else changed now row

/-- The update is a full one, because it is periodic or because much has changed. -/
def full (a : Agent) (periodic : Bool) : Bool :=
  let change_count := a.table.entries.countP (changed now)
  periodic || (change_count * 3 > a.table.entries.length && change_count > 3)

/-- `change_count` before the entries are written. -/
def changeCount (a : Agent) (periodic : Bool) : ℕ :=
  if full now a periodic then
    a.table.entries.length - a.table.entries.countP fun row => row.2.advertise_ok_at > now
  else a.table.entries.countP (changed now)

/-- The route of the node to itself. -/
def selfEntry (a : Agent) : Entry :=
  { Entry.zero with
    hop := env.myaddr_
    metric := 0
    seqnum := a.seqno_ + 2
    advertise_ok_at := 0
    advert_seqnum := true
    changed_at := now
    new_seqnum_at := now
    wst := 0
    timeout_event := none
    q := none }

/-- A full update starts with a new sequence number for the node itself. -/
def addSelf (a : Agent) : Agent :=
  { a with
    seqno_ := a.seqno_ + 2
    table := a.table.set env.myaddr_ (selfEntry env now a) }

/-- The table when the entries are written. -/
def prepare (a : Agent) (periodic : Bool) : Agent :=
  if full now a periodic then addSelf env now a else a

/-- The entries that are selected for advertisement, in table order. -/
def selected (a : Agent) (periodic : Bool) : List Row :=
  (prepare env now a periodic).table.entries.filter (included now (full now a periodic))

/-- An entry that has been written. -/
def advertised (periodic : Bool) (e : Entry) : Entry :=
  { e with
    last_advertised_metric := e.metric
    advert_seqnum := false
    advert_metric := if periodic then false else e.advert_metric }

/-- `makeUpdate`: the agent, whether the update is a full one, and the data of the packet if there is one;
`none` is a failure of the assertion that as many entries have been written as counted. -/
def makeUpdate (a : Agent) (periodic : Bool) : Option (Agent × Bool × Option (List UInt8)) :=
  let change_count := changeCount now a periodic
  let a' := prepare env now a periodic
  let periodic' := full now a periodic
  if change_count = 0 then some (a', periodic', none)
  else
    let rows := selected env now a periodic
    if rows.length ≠ change_count then none
    else
      let table := rows.foldl (fun t row => t.set row.1 (advertised periodic' row.2)) a'.table
      some ({ a' with table := table }, periodic', some (UInt8.ofNat change_count :: rows.flatMap encode))

end Agent

/-! ### Reading it back -/

def Advert.triple (adv : Advert) : NsAddr × ℕ × UInt32 := (adv.dst, adv.metric.toNat, adv.seqnum)

def triple (row : Row) : NsAddr × ℕ × UInt32 := (row.1, row.2.metric, row.2.seqnum)

lemma readAdverts_encode {row : Row} (w : List UInt8) (n : ℕ) :
    readAdverts (n + 1) (encode row ++ w) =
      (readAdverts n w).map (⟨row.1, UInt8.ofNat row.2.metric, row.2.seqnum⟩ :: ·) := by
  unfold encode wordBytes
  simp only [List.cons_append, List.nil_append, readAdverts, toNsAddr_readWord, ofNat_readWord]

/-- The rows are read back when as many are read as were written. -/
lemma readAdverts_rows {rows : List Row} (hmetric : ∀ row ∈ rows, row.2.metric ≤ BIG) :
    ∃ adverts, readAdverts rows.length (rows.flatMap encode) = some adverts ∧
      adverts.map Advert.triple = rows.map triple := by
  induction rows with
  | nil => exact ⟨[], rfl, rfl⟩
  | cons row rows ih =>
    obtain ⟨adverts, hread, heq⟩ := ih fun x hx => hmetric x (List.mem_cons_of_mem row hx)
    refine ⟨⟨row.1, UInt8.ofNat row.2.metric, row.2.seqnum⟩ :: adverts, ?_, ?_⟩
    · rw [List.length_cons, List.flatMap_cons, readAdverts_encode, hread, Option.map_some]
    · have hle : row.2.metric ≤ 250 := hmetric row List.mem_cons_self
      have hbyte : (UInt8.ofNat row.2.metric).toNat = row.2.metric := by
        rw [UInt8.toNat_ofNat']
        omega
      rw [List.map_cons, List.map_cons, heq]
      unfold Advert.triple triple
      rw [hbyte]

lemma length_readAdverts {n : ℕ} {w : List UInt8} {adverts : List Advert} (h : readAdverts n w = some adverts) :
    adverts.length = n := by
  fun_induction readAdverts n w generalizing adverts with
  | case1 => exact Option.some.inj h ▸ rfl
  | case2 i d₀ d₁ d₂ d₃ metric s₀ s₁ s₂ s₃ w ih =>
    obtain ⟨rest, hrest, rfl⟩ := Option.map_eq_some_iff.mp h
    rw [List.length_cons, ih hrest]
  | case3 => simp at h

namespace Agent
variable {env : Env} {now : ℚ} {a : Agent} {periodic : Bool}

/-- The route to the node itself is in the table, and may be advertised. -/
def KnowsSelf (env : Env) (now : ℚ) (a : Agent) : Prop :=
  ∃ e, a.table.find env.myaddr_ = some e ∧ e.advertise_ok_at ≤ now

lemma changeCount_full (h : full now a periodic) :
    changeCount now a periodic = a.table.entries.countP (advertiseable now) := by
  have hsplit := List.length_eq_countP_add_countP (advertiseable now) (l := a.table.entries)
  have hnot : (a.table.entries.countP fun row => decide ¬advertiseable now row = true) =
      a.table.entries.countP fun row => row.2.advertise_ok_at > now :=
    List.countP_congr fun row _ => by simp [advertiseable]
  unfold changeCount
  rw [if_pos h, ← hnot]
  omega

/-- As many entries are written as have been counted, unless the route to the node itself is new. -/
lemma length_selected_eq_iff (env : Env) (a : Agent) (periodic : Bool) (hnow : 0 ≤ now) :
    (selected env now a periodic).length = changeCount now a periodic ↔
      (full now a periodic → KnowsSelf env now a) := by
  unfold selected prepare
  by_cases hfull : full now a periodic = true
  · have hself : advertiseable now ⟨env.myaddr_, selfEntry env now a⟩ = true := decide_eq_true hnow
    have hcount : (a.table.set env.myaddr_ (selfEntry env now a)).entries.countP (advertiseable now) +
        ((a.table.find env.myaddr_).elim 0 fun e => if advertiseable now ⟨env.myaddr_, e⟩ then 1 else 0) =
        a.table.entries.countP (advertiseable now) + 1 := by
      rw [SortedMap.countP_set, if_pos hself]
    rw [changeCount_full hfull, if_pos hfull, ← List.countP_eq_length_filter]
    unfold addSelf KnowsSelf
    rw [hfull, show included now true = advertiseable now from rfl]
    simp only [true_imp_iff]
    cases hfind : a.table.find env.myaddr_ with
    | none =>
      rw [hfind, Option.elim_none] at hcount
      refine iff_of_false (fun heq => ?_) fun ⟨e, he, _⟩ => by simp at he
      omega
    | some e =>
      rw [hfind, Option.elim_some] at hcount
      by_cases he : e.advertise_ok_at ≤ now
      · have hok : advertiseable now ⟨env.myaddr_, e⟩ = true := decide_eq_true he
        rw [if_pos hok] at hcount
        exact iff_of_true (Nat.add_right_cancel hcount) ⟨e, rfl, he⟩
      · have hno : ¬advertiseable now ⟨env.myaddr_, e⟩ = true := fun h => he (of_decide_eq_true h)
        rw [if_neg hno] at hcount
        refine iff_of_false (fun heq => ?_) fun ⟨e', he', hle⟩ => ?_
        · omega
        · obtain rfl := Option.some.inj he'
          exact he hle
  · rw [changeCount, if_neg hfull, if_neg hfull, ← List.countP_eq_length_filter]
    unfold included
    rw [Bool.eq_false_iff.mpr hfull]
    exact iff_of_true rfl fun h => absurd h Bool.false_ne_true

lemma selected_metric (env : Env) (now : ℚ) (periodic : Bool)
    (hmetric : ∀ d e, a.table.find d = some e → e.metric ≤ BIG) :
    ∀ row ∈ selected env now a periodic, row.2.metric ≤ BIG := by
  rintro ⟨d, e⟩ hrow
  have hfind := SortedMap.mem_entries_iff.mp (List.mem_filter.mp hrow).1
  unfold prepare at hfind
  split at hfind
  · unfold addSelf at hfind
    dsimp only at hfind
    rw [SortedMap.find_set] at hfind
    split at hfind
    · obtain rfl := Option.some.inj hfind
      exact Nat.zero_le BIG
    · exact hmetric d e hfind
  · exact hmetric d e hfind

/-- What `makeUpdate` should do: the assertion does not fail, and a packet is read back as the entries that
have been selected. -/
def RoundTrips (env : Env) (now : ℚ) (a : Agent) (periodic : Bool) : Prop :=
  ∃ b full' packet, makeUpdate env now a periodic = some (b, full', packet) ∧
    ∀ data, packet = some data → ∃ adverts, readUpdate data = some adverts ∧
      adverts.map Advert.triple = (selected env now a periodic).map triple

/-- What is written is what is selected. -/
lemma makeUpdate_packet {b : Agent} {full' : Bool} {packet : Option (List UInt8)}
    (hzero : changeCount now a periodic ≠ 0) (h : makeUpdate env now a periodic = some (b, full', packet)) :
    (selected env now a periodic).length = changeCount now a periodic ∧
      packet = some (UInt8.ofNat (changeCount now a periodic) ::
        (selected env now a periodic).flatMap encode) := by
  unfold makeUpdate at h
  rw [if_neg hzero] at h
  dsimp only at h
  split at h
  · simp at h
  · rename_i hlength
    obtain ⟨-, h⟩ := Prod.mk.inj (Option.some.inj h)
    exact ⟨not_not.mp hlength, (Prod.mk.inj h).2.symm⟩

lemma toNat_changeCount : (UInt8.ofNat (changeCount now a periodic)).toNat = changeCount now a periodic % 256 :=
  UInt8.toNat_ofNat'

/-- A count that does not fit into its byte is not read back. -/
lemma RoundTrips.changeCount_le (h : RoundTrips env now a periodic) : changeCount now a periodic ≤ 255 := by
  by_cases hzero : changeCount now a periodic = 0
  · omega
  · obtain ⟨b, full', packet, hmake, hdata⟩ := h
    obtain ⟨hlength, rfl⟩ := makeUpdate_packet hzero hmake
    obtain ⟨adverts, hread, heq⟩ := hdata _ rfl
    have hlen := congrArg List.length heq
    rw [List.length_map, List.length_map, hlength, length_readAdverts hread, toNat_changeCount] at hlen
    omega

/-- An update is read back when its count fits into a byte, and when a full update does not have to put the
route to the node itself into the table. -/
theorem makeUpdate_roundTrips_iff (hnow : 0 ≤ now)
    (hmetric : ∀ d e, a.table.find d = some e → e.metric ≤ BIG) :
    RoundTrips env now a periodic ↔ changeCount now a periodic = 0 ∨
      (changeCount now a periodic ≤ 255 ∧ (full now a periodic → KnowsSelf env now a)) := by
  have hlength := length_selected_eq_iff env a periodic hnow
  by_cases hzero : changeCount now a periodic = 0
  · refine iff_of_true ⟨prepare env now a periodic, full now a periodic, none, ?_, fun _ h => by simp at h⟩
      (Or.inl hzero)
    unfold makeUpdate
    rw [if_pos hzero]
  · rw [or_iff_right hzero]
    refine ⟨fun h => ⟨h.changeCount_le, ?_⟩, fun ⟨hle, hself⟩ => ?_⟩
    · obtain ⟨b, full', packet, hmake, -⟩ := h
      exact hlength.mp (makeUpdate_packet hzero hmake).1
    · obtain ⟨adverts, hread, heq⟩ := readAdverts_rows (selected_metric env now periodic hmetric)
      unfold RoundTrips makeUpdate
      rw [if_neg hzero]
      dsimp only
      rw [if_neg (not_not.mpr (hlength.mpr hself))]
      refine ⟨_, _, _, rfl, fun data hdata => ⟨adverts, ?_, heq⟩⟩
      obtain rfl := Option.some.inj hdata
      unfold readUpdate
      dsimp only
      rw [toNat_changeCount, Nat.mod_eq_of_lt (Nat.lt_succ_of_le hle), ← hlength.mpr hself]
      exact hread

end Agent

/-! ### Small and large networks -/

lemma toNsAddr_lt {i j : ℕ} (hij : i < j) (hj : j < 2147483648) : toNsAddr i < toNsAddr j := by
  have hbmod : ∀ k < 2147483648, (toNsAddr k).1 = k := by
    intro k hk
    unfold toNsAddr
    dsimp only
    exact Int.bmod_eq_of_le (by omega) (by omega)
  rw [← Subtype.coe_lt_coe, hbmod i (hij.trans hj), hbmod j hj]
  exact_mod_cast hij

/-- The nodes below `n` are all in the table. -/
def network (n : ℕ) (hn : n < 2147483648) : Agent :=
  { table :=
      { entries := (List.range n).map fun i => ⟨toNsAddr i, { Entry.zero with metric := 1 }⟩
        sorted := List.pairwise_map.mpr (List.pairwise_lt_range.imp_of_mem fun _ hj hij =>
          toNsAddr_lt hij ((List.mem_range.mp hj).trans hn)) }
    seqno_ := 0
    periodic_callback_ := none
    nextEvent := 0
    scheduled := []
    fates := [] }

lemma network_metric {n : ℕ} {hn : n < 2147483648} (d : NsAddr) (e : Entry)
    (h : (network n hn).table.find d = some e) : e.metric ≤ BIG := by
  obtain ⟨i, -, heq⟩ := List.mem_map.mp (SortedMap.mem_entries_iff.mpr h)
  obtain ⟨rfl, rfl⟩ := Sigma.mk.inj_iff.mp heq
  exact Nat.succ_le_succ (Nat.zero_le 249)

lemma network_knowsSelf {n : ℕ} {hn : n < 2147483648} (h : 1 < n) : Agent.KnowsSelf flatEnv 0 (network n hn) :=
  ⟨_, SortedMap.mem_entries_iff.mp (List.mem_map_of_mem (List.mem_range.mpr h)), le_rfl⟩

lemma network_changeCount {n : ℕ} {hn : n < 2147483648} : Agent.changeCount 0 (network n hn) true = n := by
  rw [Agent.changeCount_full rfl]
  refine (List.countP_eq_length.mpr fun row hrow => ?_).trans ?_
  · obtain ⟨i, -, rfl⟩ := List.mem_map.mp hrow
    exact decide_eq_true le_rfl
  · exact (List.length_map _).trans List.length_range

theorem makeUpdate_roundTrips_three : Agent.RoundTrips flatEnv 0 (network 3 (by decide)) true :=
  (Agent.makeUpdate_roundTrips_iff le_rfl network_metric).mpr
    (Or.inr ⟨network_changeCount.trans_le (by decide), fun _ => network_knowsSelf (by decide)⟩)

/-- With 256 nodes the count in the packet is 0. -/
theorem makeUpdate_forgets_all : (∀ d e, (network 256 (by decide)).table.find d = some e → e.metric ≤ BIG) ∧
    Agent.KnowsSelf flatEnv 0 (network 256 (by decide)) ∧
    ¬Agent.RoundTrips flatEnv 0 (network 256 (by decide)) true :=
  ⟨network_metric, network_knowsSelf (by decide), fun h =>
    absurd (network_changeCount ▸ h.changeCount_le) (by decide)⟩

end NetworkSimulator.Dsdv
