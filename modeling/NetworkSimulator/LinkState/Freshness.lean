import NetworkSimulator.Library.Runs
import NetworkSimulator.LinkState.Paths
import Mathlib.Logic.Function.Basic

/-!
# Which link states are newer

A node keeps for each origin the sequence number of the newest link state advertisement and of the newest topology
message, and a sequence number with each link of its database. The numbers are `u_int32_t`: they are issued in
increasing order, and where they are compared, which is all that is done with them, they are modulo `2 ^ 32`.
-/

namespace NetworkSimulator
open Library

def LS_WRAPAROUND_THRESHOLD : ℕ := 1073741824

/-- The comparison of a number that is stored with one that comes in, as `u_int32_t`. -/
def isMoreRecent (stored new : ℕ) : Bool :=
  stored % 2 ^ 32 < new % 2 ^ 32 ∨ LS_WRAPAROUND_THRESHOLD < (stored % 2 ^ 32 + (2 ^ 32 - new % 2 ^ 32)) % 2 ^ 32

structure LsMessage where
  originNodeId : ℤ
  sequenceNumber : ℕ

abbrev LsMessageHistory := SortedMap ℤ ℕ

namespace LsMessageHistory

def isNewMessage (history : LsMessageHistory) (msg : LsMessage) : Bool × LsMessageHistory :=
  match history.find msg.originNodeId with
  | some stored =>
    if isMoreRecent stored msg.sequenceNumber then (true, history.set msg.originNodeId msg.sequenceNumber)
    else (false, history)
  | none => (true, history.insert msg.originNodeId msg.sequenceNumber)

end LsMessageHistory

namespace LsTopoMap

/-- The search for the old state of a link. -/
def updateLink (mine : Bool) (new : LsLinkState) : List LsLinkState → List LsLinkState × Bool
  | [] => ([new], true)
  | old :: l =>
    if new.neighborId = old.neighborId then
      ({ old with
          sequenceNumber := if mine then old.sequenceNumber else new.sequenceNumber
          status := new.status
          cost := new.cost } :: l, new.status ≠ old.status || new.cost ≠ old.cost)
    else
      let r := updateLink mine new l
      (old :: r.1, r.2)

/-- `update`, with whether anything has changed. -/
def update (db : LsTopoMap) (myNodeId nodeId : ℤ) (linkStateList : List LsLinkState) : LsTopoMap × Bool :=
  match db.find nodeId with
  | none => (db.insert nodeId linkStateList, true)
  | some old =>
    let r := linkStateList.foldl (fun r new =>
      let t := updateLink (nodeId = myNodeId) new r.1
      (t.1, r.2 || t.2)) (old, false)
    (db.set nodeId r.1, r.2)

/-- The first link of the record of a node, if there is a record that is not empty. -/
def firstLink (db : LsTopoMap) (nodeId : ℤ) : Option LsLinkState :=
  (db.find nodeId).bind List.head?

end LsTopoMap

/-- What a node knows of the others. -/
structure LsRouting where
  myNodeId : ℤ
  linkStateDatabase : LsTopoMap
  lsaHistory : LsMessageHistory
  tpmHistory : LsMessageHistory

namespace LsRouting

/-- `receiveLSA` without acknowledging and forwarding; the content may be missing. -/
def receiveLSA (s : LsRouting) (msg : LsMessage) (lsl : Option (List LsLinkState)) : LsRouting × Bool :=
  if msg.originNodeId = s.myNodeId then (s, false)
  else
    let r := s.lsaHistory.isNewMessage msg
    let s := { s with lsaHistory := r.2 }
    if !r.1 then (s, false)
    else
      match lsl with
      | none => (s, false)
      | some lsl =>
        let u := s.linkStateDatabase.update s.myNodeId msg.originNodeId lsl
        ({ s with linkStateDatabase := u.1 }, u.2)

/-- The test of `receiveTopo` on the record of a node that is not this one. -/
def recordIsNew (db : LsTopoMap) (r : (_ : ℤ) × List LsLinkState) : Bool :=
  (db.firstLink r.1).all fun stored => r.2.head?.any fun new => isMoreRecent stored.sequenceNumber new.sequenceNumber

/-- One record of a topology message, with whether it is taken. An empty one is dereferenced, or aborts in
`regenAndSend`. -/
def receiveRecord (myNodeId : ℤ) (db : LsTopoMap) (r : (_ : ℤ) × List LsLinkState) : Option (LsTopoMap × Bool) :=
  if r.1 = myNodeId then some (db, false)
  else if r.2 = [] then none
  else if recordIsNew db r then some (db.set r.1 r.2, true)
  else some (db, false)

/-- `receiveTopo` without acknowledging and regenerating the advertisements. -/
def receiveTopo (s : LsRouting) (msg : LsMessage) (topo : Option LsTopoMap) : Option (LsRouting × Bool) :=
  let r := s.tpmHistory.isNewMessage msg
  let s := { s with tpmHistory := r.2 }
  if !r.1 then some (s, false)
  else
    match topo with
    | none => some (s, false)
    | some topo =>
      (run (receiveRecord s.myNodeId) s.linkStateDatabase topo.entries).map fun r =>
        ({ s with linkStateDatabase := r.1 }, r.2.any id)

end LsRouting

/-! ### The comparison -/

/-- The comparison does not see more of the numbers than a `u_int32_t` has of them. -/
lemma isMoreRecent_mod (stored new : ℕ) :
    isMoreRecent (stored % 2 ^ 32) (new % 2 ^ 32) = isMoreRecent stored new := by
  unfold isMoreRecent
  rw [Nat.mod_mod, Nat.mod_mod]

/-- Numbers that are in circulation at the same time. -/
def InCirculation (a b : ℕ) : Prop := a < b + 2 ^ 30 ∧ b < a + 2 ^ 30

/-- The numbers start again between the one that comes in and the one that is stored. -/
def FromBeforeWrap (stored new : ℕ) : Prop := new / 2 ^ 32 < stored / 2 ^ 32

lemma isMoreRecent_iff {stored new : ℕ} (h : InCirculation stored new) :
    isMoreRecent stored new = true ↔ stored < new ∨ FromBeforeWrap stored new := by
  obtain ⟨h₁, h₂⟩ := h
  unfold isMoreRecent FromBeforeWrap LS_WRAPAROUND_THRESHOLD
  rw [decide_eq_true_iff]
  omega

lemma not_lt_of_fromBeforeWrap {stored new : ℕ} (h : FromBeforeWrap stored new) : ¬stored < new :=
  fun hlt => absurd (Nat.div_le_div_right (c := 2 ^ 32) hlt.le) (not_le.mpr h)

lemma isNewMessage_iff {history : LsMessageHistory} {msg : LsMessage}
    (h : ∀ d ∈ history.find msg.originNodeId, InCirculation d msg.sequenceNumber) :
    (history.isNewMessage msg).1 = true ↔ ∀ d ∈ history.find msg.originNodeId,
      d < msg.sequenceNumber ∨ FromBeforeWrap d msg.sequenceNumber := by
  unfold LsMessageHistory.isNewMessage
  cases hfind : history.find msg.originNodeId with
  | none => exact iff_of_true rfl fun d hd => nomatch hd
  | some d =>
    have hiff := isMoreRecent_iff (h d hfind)
    dsimp only
    by_cases hnew : isMoreRecent d msg.sequenceNumber = true
    · rw [if_pos hnew]
      exact ⟨fun _ d' hd' => Option.some.inj hd' ▸ hiff.mp hnew, fun _ => rfl⟩
    · rw [if_neg hnew]
      exact ⟨fun hf => absurd hf Bool.false_ne_true, fun hall => absurd (hiff.mpr (hall d rfl)) hnew⟩

lemma isNewMessage_find {history : LsMessageHistory} {msg : LsMessage} (h : (history.isNewMessage msg).1 = true)
    (k : ℤ) : (history.isNewMessage msg).2.find k =
      if k = msg.originNodeId then some msg.sequenceNumber else history.find k := by
  unfold LsMessageHistory.isNewMessage at h ⊢
  cases hfind : history.find msg.originNodeId with
  | none =>
    show (history.insert _ _).find k = _
    rw [SortedMap.insert_of_none hfind, SortedMap.find_set]
  | some d =>
    rw [hfind] at h
    dsimp only at h ⊢
    split at h
    next hnew => rw [if_pos hnew, SortedMap.find_set]
    next => exact absurd h Bool.false_ne_true

lemma isNewMessage_same {history : LsMessageHistory} {msg : LsMessage} (h : (history.isNewMessage msg).1 = false) :
    (history.isNewMessage msg).2 = history := by
  unfold LsMessageHistory.isNewMessage at h ⊢
  cases hfind : history.find msg.originNodeId with
  | none =>
    rw [hfind] at h
    cases h
  | some d =>
    rw [hfind] at h
    dsimp only at h ⊢
    split at h
    next => cases h
    next hnew => rw [if_neg hnew]

namespace LsRouting
variable {db : LsTopoMap} {myNodeId : ℤ} {entries : List ((_ : ℤ) × List LsLinkState)}

lemma recordIsNew_set {r e : (_ : ℤ) × List LsLinkState} {lsl : List LsLinkState} (h : e.1 ≠ r.1) :
    recordIsNew (db.set r.1 lsl) e = recordIsNew db e := by
  unfold recordIsNew LsTopoMap.firstLink
  rw [SortedMap.find_set_of_ne h]

variable (db) in
/-- Where no record is empty, each one is compared with what has been in the database before. -/
lemma run_receiveRecord (hsorted : entries.Pairwise fun a b => a.1 < b.1)
    (hne : ∀ e ∈ entries, e.1 ≠ myNodeId → e.2 ≠ []) :
    ∃ db', run (receiveRecord myNodeId) db entries =
        some (db', entries.map fun e => decide (e.1 ≠ myNodeId) && recordIsNew db e) ∧
      ∀ k, db'.find k = match entries.dlookup k with
        | some lsl => if k ≠ myNodeId ∧ recordIsNew db ⟨k, lsl⟩ then some lsl else db.find k
        | none => db.find k := by
  induction entries generalizing db with
  | nil => exact ⟨db, rfl, fun k => rfl⟩
  | cons r es ih =>
    obtain ⟨hr, hes⟩ := List.pairwise_cons.mp hsorted
    have hne' : ∀ e ∈ es, e.1 ≠ myNodeId → e.2 ≠ [] := fun e he => hne e (List.mem_cons_of_mem r he)
    have hnone : es.dlookup r.1 = none := SortedMap.dlookup_of_forall_lt hr
    by_cases htake : r.1 ≠ myNodeId ∧ recordIsNew db r = true
    · have hstep : receiveRecord myNodeId db r = some (db.set r.1 r.2, true) := by
        unfold receiveRecord
        rw [if_neg htake.1, if_neg (hne r List.mem_cons_self htake.1), if_pos htake.2]
      obtain ⟨db', hrun, hfind⟩ := ih (db.set r.1 r.2) hes hne'
      have hmap : (es.map fun e => decide (e.1 ≠ myNodeId) && recordIsNew (db.set r.1 r.2) e) =
          es.map fun e => decide (e.1 ≠ myNodeId) && recordIsNew db e :=
        List.map_congr_left fun e he => by rw [recordIsNew_set (hr e he).ne']
      refine ⟨db', ?_, fun k => ?_⟩
      · rw [run_cons_of_step hstep, hrun, hmap, List.map_cons, htake.2, decide_eq_true htake.1]
        rfl
      · rw [hfind]
        by_cases hk : k = r.1
        · subst hk
          rw [hnone, List.dlookup_cons_eq]
          dsimp only
          rw [SortedMap.find_set_self, if_pos htake]
        · rw [List.dlookup_cons_ne _ _ hk, SortedMap.find_set_of_ne hk]
          cases es.dlookup k with
          | none => rfl
          | some lsl =>
            dsimp only
            rw [recordIsNew_set (e := ⟨k, lsl⟩) hk]
    · have hstep : receiveRecord myNodeId db r = some (db, false) := by
        unfold receiveRecord
        by_cases hme : r.1 = myNodeId
        · rw [if_pos hme]
        · rw [if_neg hme, if_neg (hne r List.mem_cons_self hme), if_neg fun h => htake ⟨hme, h⟩]
      obtain ⟨db', hrun, hfind⟩ := ih db hes hne'
      refine ⟨db', ?_, fun k => ?_⟩
      · have hfalse : (decide (r.1 ≠ myNodeId) && recordIsNew db r) = false := by
          rw [Bool.and_eq_false_iff]
          rcases not_and_or.mp htake with h | h
          · exact Or.inl (decide_eq_false h)
          · exact Or.inr (Bool.not_eq_true _ ▸ h)
        rw [run_cons_of_step hstep, hrun, List.map_cons, hfalse]
        rfl
      · rw [hfind]
        by_cases hk : k = r.1
        · subst hk
          rw [hnone, List.dlookup_cons_eq]
          dsimp only
          rw [if_neg htake]
        · rw [List.dlookup_cons_ne _ _ hk]

lemma nonempty_of_run {x : LsTopoMap × List Bool} (h : run (receiveRecord myNodeId) db entries = some x) :
    ∀ e ∈ entries, e.1 ≠ myNodeId → e.2 ≠ [] := by
  induction entries generalizing db x with
  | nil => exact fun e he => absurd he List.not_mem_nil
  | cons r es ih =>
    obtain ⟨db', o, os, hstep, hrun, -⟩ := run_cons_inv h
    intro e he hme
    rcases List.mem_cons.mp he with rfl | he
    · intro hnil
      rw [receiveRecord, if_neg hme, if_pos hnil] at hstep
      cases hstep
    · exact ih hrun e he hme

/-! ### Runs -/

/-- A message that comes in, whose content may be missing. -/
inductive Arrival
  | lsa (msg : LsMessage) (lsl : Option (List LsLinkState))
  | topo (msg : LsMessage) (topo : Option LsTopoMap)

/-- The numbers of what has been taken from each origin: of the advertisements, of the topology messages, and of the
links that have come into the database. -/
structure Taken where
  lsa : ℤ → List ℕ
  tpm : ℤ → List ℕ
  record : ℤ → List ℕ

namespace Taken

def numbers (lsl : List LsLinkState) : List ℕ := lsl.map LsLinkState.sequenceNumber

def next (t : Taken) (s : LsRouting) : Arrival → Taken
  | .lsa msg lsl =>
    if msg.originNodeId ≠ s.myNodeId ∧ (s.lsaHistory.isNewMessage msg).1 then
      { t with
          lsa := Function.update t.lsa msg.originNodeId (msg.sequenceNumber :: t.lsa msg.originNodeId)
          record := Function.update t.record msg.originNodeId (numbers (lsl.getD []) ++ t.record msg.originNodeId) }
    else t
  | .topo msg topo =>
    if (s.tpmHistory.isNewMessage msg).1 then
      { t with
          tpm := Function.update t.tpm msg.originNodeId (msg.sequenceNumber :: t.tpm msg.originNodeId)
          record := fun k => match topo.bind fun m => m.find k with
            | some lsl => if recordIsNew s.linkStateDatabase ⟨k, lsl⟩ then numbers lsl ++ t.record k else t.record k
            | none => t.record k }
    else t

end Taken

/-- A message is received; beside the node stands what it has taken so far. -/
def step (s : LsRouting × Taken) (a : Arrival) : Option ((LsRouting × Taken) × Bool) :=
  let received := match a with
    | .lsa msg lsl => some (s.1.receiveLSA msg lsl)
    | .topo msg topo => s.1.receiveTopo msg topo
  received.map fun r => ((r.1, s.2.next s.1 a), r.2)

/-- A node that knows its own links. -/
def start (myNodeId : ℤ) (own : List LsLinkState) : LsRouting × Taken :=
  (⟨myNodeId, SortedMap.empty.insert myNodeId own, SortedMap.empty, SortedMap.empty⟩,
    ⟨fun _ => [], fun _ => [], fun _ => []⟩)

/-- What comes in and what it is compared with are in circulation at the same time. -/
def Circulates (s : LsRouting × Taken) : Arrival → Prop
  | .lsa msg _ => ∀ d ∈ s.1.lsaHistory.find msg.originNodeId, InCirculation d msg.sequenceNumber
  | .topo msg topo => (∀ d ∈ s.1.tpmHistory.find msg.originNodeId, InCirculation d msg.sequenceNumber) ∧
      ∀ m ∈ topo, ∀ e ∈ m.entries, ∀ old ∈ s.1.linkStateDatabase.firstLink e.1, ∀ new ∈ e.2.head?,
        InCirculation old.sequenceNumber new.sequenceNumber

instance (a b : ℕ) : Decidable (InCirculation a b) := inferInstanceAs (Decidable (_ ∧ _))

instance (s : LsRouting × Taken) (a : Arrival) : Decidable (Circulates s a) :=
  match a with
  | .lsa msg _ => inferInstanceAs (Decidable (∀ d ∈ s.1.lsaHistory.find msg.originNodeId, _))
  | .topo _ _ => inferInstanceAs (Decidable (_ ∧ _))

/-- What is taken is what has been issued later than all that has been taken from its origin: an advertisement, a
topology message, and each of the records in it. -/
def TakesLater (s : LsRouting × Taken) : Arrival → Prop
  | .lsa msg _ => msg.originNodeId ≠ s.1.myNodeId →
      ((s.1.lsaHistory.isNewMessage msg).1 = true ↔ ∀ d ∈ s.2.lsa msg.originNodeId, d < msg.sequenceNumber)
  | .topo msg topo =>
      ((s.1.tpmHistory.isNewMessage msg).1 = true ↔ ∀ d ∈ s.2.tpm msg.originNodeId, d < msg.sequenceNumber) ∧
      ((s.1.tpmHistory.isNewMessage msg).1 = true → ∀ m ∈ topo, ∀ db answers,
        run (receiveRecord s.1.myNodeId) s.1.linkStateDatabase m.entries = some (db, answers) →
          ∀ (i : ℕ) (e : (_ : ℤ) × List LsLinkState) (new : LsLinkState), m.entries[i]? = some e →
            e.1 ≠ s.1.myNodeId → e.2.head? = some new →
            (answers[i]? = some true ↔ ∀ d ∈ s.2.record e.1, d < new.sequenceNumber))

/-- The number does not come from before a wrap of what it is compared with. For a record there is a second way to go
wrong, which is that an advertisement has made the number in the database smaller than one that has been there. -/
def InOrderOfIssue (s : LsRouting × Taken) : Arrival → Prop
  | .lsa msg _ => msg.originNodeId ≠ s.1.myNodeId →
      ∀ d ∈ s.1.lsaHistory.find msg.originNodeId, ¬FromBeforeWrap d msg.sequenceNumber
  | .topo msg topo => (∀ d ∈ s.1.tpmHistory.find msg.originNodeId, ¬FromBeforeWrap d msg.sequenceNumber) ∧
      ((∀ d ∈ s.1.tpmHistory.find msg.originNodeId, d < msg.sequenceNumber) → ∀ m ∈ topo,
        (∀ e : (_ : ℤ) × List LsLinkState, e ∈ m.entries → e.1 ≠ s.1.myNodeId → e.2 ≠ []) →
          ∀ e : (_ : ℤ) × List LsLinkState, e ∈ m.entries → e.1 ≠ s.1.myNodeId → ∀ new : LsLinkState, e.2.head? = some new →
            (∀ old ∈ s.1.linkStateDatabase.firstLink e.1, ¬FromBeforeWrap old.sequenceNumber new.sequenceNumber) ∧
            ((∀ old ∈ s.1.linkStateDatabase.firstLink e.1, old.sequenceNumber < new.sequenceNumber) →
              ∀ d ∈ s.2.record e.1, d < new.sequenceNumber))

/-- The number in a history is the largest that has been taken. -/
def Newest (history : LsMessageHistory) (taken : ℤ → List ℕ) : Prop :=
  ∀ k, (∀ d ∈ history.find k, d ∈ taken k) ∧ ∀ n ∈ taken k, ∃ d ∈ history.find k, n ≤ d

/-- The numbers in the database have come from messages that have been taken. -/
def FromTaken (myNodeId : ℤ) (db : LsTopoMap) (record : ℤ → List ℕ) : Prop :=
  ∀ k lsl, k ≠ myNodeId → db.find k = some lsl → ∀ l ∈ lsl, l.sequenceNumber ∈ record k

structure Books (s : LsRouting × Taken) : Prop where
  lsa : Newest s.1.lsaHistory s.2.lsa
  tpm : Newest s.1.tpmHistory s.2.tpm
  record : FromTaken s.1.myNodeId s.1.linkStateDatabase s.2.record

variable {history : LsMessageHistory} {taken : ℤ → List ℕ} {msg : LsMessage}

lemma Newest.forall_lt_iff (h : Newest history taken) (k : ℤ) (n : ℕ) :
    (∀ d ∈ taken k, d < n) ↔ ∀ d ∈ history.find k, d < n := by
  refine ⟨fun hall d hd => hall d ((h k).1 d hd), fun hall d hd => ?_⟩
  obtain ⟨d', hd', hle⟩ := (h k).2 d hd
  exact hle.trans_lt (hall d' hd')

lemma Newest.takes_iff (h : Newest history taken)
    (hcirc : ∀ d ∈ history.find msg.originNodeId, InCirculation d msg.sequenceNumber) :
    ((history.isNewMessage msg).1 = true ↔ ∀ d ∈ taken msg.originNodeId, d < msg.sequenceNumber) ↔
      ∀ d ∈ history.find msg.originNodeId, ¬FromBeforeWrap d msg.sequenceNumber := by
  rw [isNewMessage_iff hcirc, h.forall_lt_iff]
  constructor
  · intro hiff d hd hwrap
    refine not_lt_of_fromBeforeWrap hwrap (hiff.mp (fun d' hd' => Or.inr ?_) d hd)
    exact Option.mem_unique hd hd' ▸ hwrap
  · intro hnone
    exact ⟨fun hall d hd => (hall d hd).resolve_right (hnone d hd), fun hall d hd => Or.inl (hall d hd)⟩

lemma Newest.next (h : Newest history taken) (hnew : (history.isNewMessage msg).1 = true)
    (hlater : ∀ d ∈ taken msg.originNodeId, d < msg.sequenceNumber) :
    Newest (history.isNewMessage msg).2
      (Function.update taken msg.originNodeId (msg.sequenceNumber :: taken msg.originNodeId)) := by
  intro k
  rw [isNewMessage_find hnew]
  by_cases hk : k = msg.originNodeId
  · subst hk
    rw [if_pos rfl, Function.update_self]
    refine ⟨fun d hd => ?_, fun n hn => ⟨_, rfl, ?_⟩⟩
    · rw [← Option.some.inj hd]
      exact List.mem_cons_self
    · rcases List.mem_cons.mp hn with rfl | hn
      · exact le_rfl
      · exact (hlater n hn).le
  · rw [if_neg hk, Function.update_of_ne hk]
    exact h k

variable {record : ℤ → List ℕ}

lemma updateLink_mem {mine : Bool} {new l : LsLinkState} {lsl : List LsLinkState}
    (h : l ∈ (LsTopoMap.updateLink mine new lsl).1) :
    l.sequenceNumber = new.sequenceNumber ∨ ∃ old ∈ lsl, l.sequenceNumber = old.sequenceNumber := by
  induction lsl with
  | nil =>
    rw [List.mem_singleton.mp h]
    exact Or.inl rfl
  | cons old lsl ih =>
    rw [LsTopoMap.updateLink] at h
    split at h
    · rcases List.mem_cons.mp h with rfl | hin
      · cases mine
        · exact Or.inl rfl
        · exact Or.inr ⟨old, List.mem_cons_self, rfl⟩
      · exact Or.inr ⟨l, List.mem_cons_of_mem old hin, rfl⟩
    · rcases List.mem_cons.mp h with rfl | hin
      · exact Or.inr ⟨l, List.mem_cons_self, rfl⟩
      · obtain h' | ⟨old', hold, h'⟩ := ih hin
        · exact Or.inl h'
        · exact Or.inr ⟨old', List.mem_cons_of_mem old hold, h'⟩

lemma update_mem {nodeId : ℤ} {lsl new : List LsLinkState} {l : LsLinkState}
    (hfind : (LsTopoMap.update db myNodeId nodeId new).1.find nodeId = some lsl) (hl : l ∈ lsl) :
    l.sequenceNumber ∈ Taken.numbers new ∨ ∃ old ∈ (db.find nodeId).getD [], l.sequenceNumber = old.sequenceNumber := by
  unfold LsTopoMap.update at hfind
  cases hold : db.find nodeId with
  | none =>
    rw [hold] at hfind
    change (db.insert nodeId new).find nodeId = some lsl at hfind
    rw [SortedMap.insert_of_none hold, SortedMap.find_set_self] at hfind
    obtain rfl := Option.some.inj hfind
    exact Or.inl (List.mem_map_of_mem hl)
  | some old =>
    rw [hold] at hfind
    dsimp only at hfind
    rw [SortedMap.find_set_self] at hfind
    obtain rfl := Option.some.inj hfind
    show _ ∨ ∃ l' ∈ old, _
    clear hold hfind
    generalize false = changed at hl
    induction new generalizing old changed with
    | nil => exact Or.inr ⟨l, hl, rfl⟩
    | cons n new ih =>
      rw [List.foldl_cons] at hl
      rcases ih _ _ hl with hin | ⟨l', hl', heq⟩
      · exact Or.inl (List.mem_cons_of_mem _ hin)
      · rcases updateLink_mem hl' with hnew | ⟨o, ho, hseq⟩
        · exact Or.inl (by rw [heq, hnew]; exact List.mem_cons_self)
        · exact Or.inr ⟨o, ho, heq.trans hseq⟩

lemma update_find_of_ne {nodeId k : ℤ} {new : List LsLinkState} (h : k ≠ nodeId) :
    (LsTopoMap.update db myNodeId nodeId new).1.find k = db.find k := by
  unfold LsTopoMap.update
  cases hold : db.find nodeId with
  | none =>
    show (db.insert nodeId new).find k = _
    rw [SortedMap.insert_of_none hold, SortedMap.find_set_of_ne h]
  | some old => exact SortedMap.find_set_of_ne h

lemma FromTaken.update {nodeId : ℤ} {new : List LsLinkState} (h : FromTaken myNodeId db record) :
    FromTaken myNodeId (LsTopoMap.update db myNodeId nodeId new).1
      (Function.update record nodeId (Taken.numbers new ++ record nodeId)) := by
  intro k lsl hk hfind l hl
  by_cases hnode : k = nodeId
  · subst hnode
    rw [Function.update_self, List.mem_append]
    refine (update_mem hfind hl).imp_right ?_
    rintro ⟨old, hold, heq⟩
    cases hdb : db.find k with
    | none =>
      rw [hdb] at hold
      cases hold
    | some olds =>
      rw [hdb] at hold
      exact heq ▸ h k olds hk hdb old hold
  · rw [Function.update_of_ne hnode]
    rw [update_find_of_ne hnode] at hfind
    exact h k lsl hk hfind l hl

/-- The numbers of the records that a topology message brings. -/
lemma FromTaken.records {db' : LsTopoMap} {m : LsTopoMap} {answers : List Bool} (h : FromTaken myNodeId db record)
    (hrun : run (receiveRecord myNodeId) db m.entries = some (db', answers)) :
    FromTaken myNodeId db' fun k => match m.find k with
      | some lsl => if recordIsNew db ⟨k, lsl⟩ then Taken.numbers lsl ++ record k else record k
      | none => record k := by
  obtain ⟨db'', hrun', hfind'⟩ := run_receiveRecord db m.sorted (nonempty_of_run hrun)
  obtain ⟨rfl, -⟩ := Prod.mk.inj (Option.some.inj (hrun.symm.trans hrun'))
  intro k lsl hk hfind l hl
  dsimp only
  rw [hfind'] at hfind
  change (match m.find k with
    | some lsl => if k ≠ myNodeId ∧ recordIsNew db ⟨k, lsl⟩ then some lsl else db.find k
    | none => db.find k) = some lsl at hfind
  cases hm : m.find k with
  | none =>
    rw [hm] at hfind
    exact h k lsl hk hfind l hl
  | some new =>
    rw [hm] at hfind
    dsimp only at hfind ⊢
    by_cases hnew : recordIsNew db ⟨k, new⟩ = true
    · rw [if_pos ⟨hk, hnew⟩] at hfind
      obtain rfl := Option.some.inj hfind
      rw [if_pos hnew]
      exact List.mem_append_left _ (List.mem_map_of_mem hl)
    · rw [if_neg fun hc => hnew hc.2] at hfind
      rw [if_neg hnew]
      exact h k lsl hk hfind l hl

/-- The test on a record that is not empty. -/
lemma recordIsNew_iff {e : (_ : ℤ) × List LsLinkState} {new : LsLinkState} (hnew : e.2.head? = some new)
    (hcirc : ∀ old ∈ db.firstLink e.1, InCirculation old.sequenceNumber new.sequenceNumber) :
    recordIsNew db e = true ↔ ∀ old ∈ db.firstLink e.1,
      old.sequenceNumber < new.sequenceNumber ∨ FromBeforeWrap old.sequenceNumber new.sequenceNumber := by
  unfold recordIsNew
  rw [hnew, Option.all_eq_true]
  refine forall_congr' fun old => imp_congr_right fun hold => ?_
  exact isMoreRecent_iff (hcirc old hold)

lemma FromTaken.takes_iff {e : (_ : ℤ) × List LsLinkState} {new : LsLinkState} (h : FromTaken myNodeId db record)
    (hme : e.1 ≠ myNodeId) (hnew : e.2.head? = some new)
    (hcirc : ∀ old ∈ db.firstLink e.1, InCirculation old.sequenceNumber new.sequenceNumber) :
    (recordIsNew db e = true ↔ ∀ d ∈ record e.1, d < new.sequenceNumber) ↔
      (∀ old ∈ db.firstLink e.1, ¬FromBeforeWrap old.sequenceNumber new.sequenceNumber) ∧
        ((∀ old ∈ db.firstLink e.1, old.sequenceNumber < new.sequenceNumber) →
          ∀ d ∈ record e.1, d < new.sequenceNumber) := by
  have hin : ∀ old ∈ db.firstLink e.1, old.sequenceNumber ∈ record e.1 := by
    intro old hold
    obtain ⟨lsl, hlsl, hhead⟩ := Option.bind_eq_some_iff.mp hold
    exact h e.1 lsl hme hlsl old (List.mem_of_mem_head? hhead)
  rw [recordIsNew_iff hnew hcirc]
  constructor
  · intro hiff
    refine ⟨fun old hold hwrap => ?_, fun hall => hiff.mp fun old hold => Or.inl (hall old hold)⟩
    refine not_lt_of_fromBeforeWrap hwrap (hiff.mp (fun old' hold' => Or.inr ?_) _ (hin old hold))
    exact Option.mem_unique hold hold' ▸ hwrap
  · rintro ⟨hnone, hlater⟩
    exact ⟨fun hall => hlater fun old hold => (hall old hold).resolve_right (hnone old hold),
      fun hall old hold => Or.inl (hall _ (hin old hold))⟩

variable {s : LsRouting × Taken} {a : Arrival}

lemma Books.takes_iff (h : Books s) (hcirc : Circulates s a) : TakesLater s a ↔ InOrderOfIssue s a := by
  cases a with
  | lsa msg lsl => exact imp_congr_right fun _ => h.lsa.takes_iff hcirc
  | topo msg topo =>
    refine (and_congr_left' (h.tpm.takes_iff hcirc.1)).trans (and_congr_right fun hnone => ?_)
    have hnew : (s.1.tpmHistory.isNewMessage msg).1 = true ↔
        ∀ d ∈ s.1.tpmHistory.find msg.originNodeId, d < msg.sequenceNumber :=
      (isNewMessage_iff hcirc.1).trans
        ⟨fun hall d hd => (hall d hd).resolve_right (hnone d hd), fun hall d hd => Or.inl (hall d hd)⟩
    refine imp_congr hnew (forall_congr' fun m => imp_congr_right fun hm => ?_)
    constructor
    · intro hright hne e he hme new hhead
      obtain ⟨db', hrun, -⟩ := run_receiveRecord s.1.linkStateDatabase m.sorted hne
      obtain ⟨i, hi⟩ := List.mem_iff_getElem?.mp he
      refine (h.record.takes_iff hme hhead fun old hold => hcirc.2 m hm e he old hold new hhead).mp ?_
      rw [← hright _ _ hrun i e new hi hme hhead, List.getElem?_map, hi]
      simp [hme]
    · intro hcond db' answers hrun i e new hi hme hhead
      have he := List.mem_of_getElem? hi
      have hne := nonempty_of_run hrun
      obtain ⟨db'', hrun', -⟩ := run_receiveRecord s.1.linkStateDatabase m.sorted hne
      obtain ⟨-, rfl⟩ := Prod.mk.inj (Option.some.inj (hrun.symm.trans hrun'))
      refine Iff.trans ?_ ((h.record.takes_iff hme hhead fun old hold => hcirc.2 m hm e he old hold new hhead).mpr
        (hcond hne e he hme new hhead))
      rw [List.getElem?_map, hi]
      simp [hme]

lemma receiveLSA_ignored {s : LsRouting} {lsl : Option (List LsLinkState)}
    (h : ¬(msg.originNodeId ≠ s.myNodeId ∧ (s.lsaHistory.isNewMessage msg).1 = true)) :
    (s.receiveLSA msg lsl).1 = s := by
  unfold receiveLSA
  by_cases hme : msg.originNodeId = s.myNodeId
  · rw [if_pos hme]
  · have hold : (s.lsaHistory.isNewMessage msg).1 = false := Bool.eq_false_iff.mpr fun hnew => h ⟨hme, hnew⟩
    rw [if_neg hme]
    dsimp only
    rw [hold, isNewMessage_same hold]
    rfl

lemma receiveLSA_taken {s : LsRouting} {lsl : Option (List LsLinkState)} (hme : msg.originNodeId ≠ s.myNodeId)
    (hnew : (s.lsaHistory.isNewMessage msg).1 = true) :
    (s.receiveLSA msg lsl).1 = { s with
      lsaHistory := (s.lsaHistory.isNewMessage msg).2
      linkStateDatabase := match lsl with
        | none => s.linkStateDatabase
        | some lsl => (s.linkStateDatabase.update s.myNodeId msg.originNodeId lsl).1 } := by
  unfold receiveLSA
  rw [if_neg hme]
  dsimp only
  rw [hnew]
  cases lsl <;> rfl

lemma Books.step {t : LsRouting × Taken} {o : Bool} (h : Books s) (htakes : TakesLater s a)
    (hstep : LsRouting.step s a = some (t, o)) : Books t := by
  obtain ⟨r, hr, heq⟩ := Option.map_eq_some_iff.mp hstep
  obtain ⟨rfl, -⟩ := Prod.mk.inj heq
  cases a with
  | lsa msg lsl =>
    obtain rfl := Option.some.inj hr
    by_cases htake : msg.originNodeId ≠ s.1.myNodeId ∧ (s.1.lsaHistory.isNewMessage msg).1 = true
    · rw [receiveLSA_taken htake.1 htake.2, Taken.next, if_pos htake]
      refine ⟨h.lsa.next htake.2 ((htakes htake.1).mp htake.2), h.tpm, ?_⟩
      cases lsl with
      | none =>
        show FromTaken _ _ (Function.update s.2.record msg.originNodeId (s.2.record msg.originNodeId))
        rw [Function.update_eq_self]
        exact h.record
      | some lsl => exact h.record.update
    · rw [receiveLSA_ignored htake, Taken.next, if_neg htake]
      exact h
  | topo msg topo =>
    change s.1.receiveTopo msg topo = some r at hr
    unfold receiveTopo at hr
    dsimp only at hr
    rw [Taken.next]
    cases hnew : (s.1.tpmHistory.isNewMessage msg).1 with
    | false =>
      rw [hnew, isNewMessage_same hnew] at hr
      obtain rfl := Option.some.inj hr
      exact h
    | true =>
      have hnewest := h.tpm.next hnew (htakes.1.mp hnew)
      rw [hnew] at hr
      rw [if_pos rfl]
      cases topo with
      | none =>
        obtain rfl := Option.some.inj hr
        exact ⟨h.lsa, hnewest, h.record⟩
      | some m =>
        obtain ⟨⟨db', answers⟩, hrun, rfl⟩ := Option.map_eq_some_iff.mp hr
        exact ⟨h.lsa, hnewest, h.record.records hrun⟩

lemma books_start (myNodeId : ℤ) (own : List LsLinkState) : Books (start myNodeId own) := by
  have hempty : Newest SortedMap.empty fun _ => [] :=
    fun k => ⟨fun d hd => absurd hd (Option.not_mem_none d), fun n hn => absurd hn List.not_mem_nil⟩
  refine ⟨hempty, hempty, fun k lsl hk hfind => ?_⟩
  change (SortedMap.empty.insert myNodeId own).find k = some lsl at hfind
  rw [SortedMap.insert_of_none SortedMap.find_empty] at hfind
  cases (SortedMap.find_set_of_ne hk).symm.trans hfind

end LsRouting

end NetworkSimulator
