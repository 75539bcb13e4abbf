import NetworkSimulator.Sctp.Sack

/-!
# Delayed SACKs

When the receiver of an association sends a SACK: the part of `recv`, `ProcessChunk` and
`SackGenTimerExpiration` that counts packets with data and sets the timer, for packets of DATA chunks.
-/

namespace NetworkSimulator
open Library

def DELAYED_SACK_TRIGGER : ℕ := 2

/-- The receiver with what it needs to delay SACKs. -/
structure SackAgent where
  receiver : SctpReceiver
  dataPktCountSinceLastSack : ℕ
  startOfPacket : Bool
  /-- `opSackGenTimer` is pending. -/
  sackGenTimer : Bool
  /-- Data has been accepted since the last SACK was generated. -/
  unreported : Bool

inductive SackEvent
  | recv (chunks : List DataChunk)
  | sackGenTimer

namespace SctpReceiver

def needSack (needed : Bool) (s : SctpReceiver) : SctpReceiver := { s with sackChunkNeeded := needed }

/-- The chunk finds the window full. -/
def Drops (s : SctpReceiver) (chunk : DataChunk) : Prop := ¬chunk.length ≤ s.myRwnd

/-- The chunk brings new data. -/
def Accepts (s : SctpReceiver) (chunk : DataChunk) : Prop :=
  chunk.length ≤ s.myRwnd ∧ s.isDuplicate chunk.tsn = false

instance (s : SctpReceiver) (chunk : DataChunk) : Decidable (s.Accepts chunk) :=
  inferInstanceAs (Decidable (_ ∧ _))

variable {s t : SctpReceiver} {chunk : DataChunk} {chunks : List DataChunk} {b : Bool}
  {P : SctpReceiver → DataChunk → Prop}

/-- A chunk on the way through the list meets a condition in the state in which it arrives. -/
def SomeAlong (P : SctpReceiver → DataChunk → Prop) : SctpReceiver → List DataChunk → Prop
  | _, [] => False
  | s, chunk :: chunks => P s chunk ∨ ∃ t, s.processDataChunk chunk = some t ∧ SomeAlong P t chunks

/-- The chunk leaves a block above the cumulative ack. -/
def LeavesGap (s : SctpReceiver) (chunk : DataChunk) : Prop :=
  ∃ t, s.processDataChunk chunk = some t ∧ t.recvTsnBlockList ≠ []

/-- The chunk is a duplicate or leaves a gap. -/
def Asks (s : SctpReceiver) (chunk : DataChunk) : Prop :=
  chunk.length ≤ s.myRwnd ∧ s.isDuplicate chunk.tsn = true ∨ s.LeavesGap chunk

/-- Some chunk finds the window full and leaves no gap, and none behind it is a duplicate or leaves one. -/
def DropsLast : SctpReceiver → List DataChunk → Prop
  | _, [] => False
  | s, chunk :: chunks => ∃ t, s.processDataChunk chunk = some t ∧
    (DropsLast t chunks ∨ s.Drops chunk ∧ ¬s.LeavesGap chunk ∧ ¬SomeAlong Asks t chunks)

/-- All chunks can be processed. -/
def GoesThrough : SctpReceiver → List DataChunk → Prop
  | _, [] => True
  | s, chunk :: chunks => ∃ t, s.processDataChunk chunk = some t ∧ GoesThrough t chunks

/-! ### The flag changes nothing else -/

lemma needSack_needSack {b' : Bool} : (s.needSack b).needSack b' = s.needSack b' := rfl

lemma isDuplicate_needSack {tsn : ℕ} : (s.needSack b).isDuplicate tsn = s.isDuplicate tsn := by
  unfold isDuplicate updateHighestTsn
  by_cases h : tsn > s.highestRecvTsn
  · have h' : tsn > (s.needSack b).highestRecvTsn := h
    rw [if_pos h, if_pos h']
    rfl
  · have h' : ¬tsn > (s.needSack b).highestRecvTsn := h
    rw [if_neg h, if_neg h']
    rfl

lemma updateHighestTsn_needSack {tsn : ℕ} :
    ((s.needSack b).updateHighestTsn tsn).1 = (s.updateHighestTsn tsn).1.needSack b := by
  unfold updateHighestTsn
  by_cases h : tsn > s.highestRecvTsn
  · have h' : tsn > (s.needSack b).highestRecvTsn := h
    rw [if_pos h, if_pos h']
    rfl
  · have h' : ¬tsn > (s.needSack b).highestRecvTsn := h
    rw [if_neg h, if_neg h']

lemma foldl_needSack (l : List DataChunk) :
    l.foldl passToUpperLayer (s.needSack b) = (l.foldl passToUpperLayer s).needSack b := by
  induction l generalizing s with
  | nil => rfl
  | cons c l ih => exact ih (s := s.passToUpperLayer c)

lemma updateStream_needSack (i : ℕ) : updateStream i (s.needSack b) = (updateStream i s).needSack b := by
  unfold updateStream
  have hstreams : (s.needSack b).inStreams = s.inStreams := rfl
  rw [hstreams]
  cases s.inStreams[i]? with
  | none => rfl
  | some stream => exact foldl_needSack (s := { s with inStreams := _ }) _

lemma updateAllStreams_needSack : (s.needSack b).updateAllStreams = s.updateAllStreams.needSack b := by
  unfold updateAllStreams forLoop
  change List.foldl _ (s.needSack b) (List.range' 0 (s.inStreams.length - 0)) = _
  generalize List.range' 0 (s.inStreams.length - 0) = l
  induction l generalizing s with
  | nil => rfl
  | cons i l ih =>
    rw [List.foldl_cons, List.foldl_cons, updateStream_needSack]
    exact ih

lemma passToStream_needSack : (s.needSack b).passToStream chunk = (s.passToStream chunk).map (needSack b) := by
  unfold passToStream
  split
  · rfl
  · rw [Option.map_map]
    rfl

lemma updateRecvTsnBlocks_needSack {tsn : ℕ} :
    (s.needSack b).updateRecvTsnBlocks tsn = (s.updateRecvTsnBlocks tsn).map (needSack b) := by
  unfold updateRecvTsnBlocks
  rw [Option.map_map]
  rfl

/-- What the flag becomes is said by the chunk and what it was before. -/
lemma processDataChunk_needSack : (s.needSack b).processDataChunk chunk =
    (s.processDataChunk chunk).map (needSack
      (if chunk.length ≤ s.myRwnd then (if s.isDuplicate chunk.tsn then true else b) else false)) := by
  unfold processDataChunk
  by_cases hroom : chunk.length ≤ s.myRwnd
  · have hroom' : chunk.length ≤ (s.needSack b).myRwnd := hroom
    rw [if_pos hroom, if_pos hroom, if_pos hroom', isDuplicate_needSack]
    dsimp only
    by_cases hdup : s.isDuplicate chunk.tsn
    · rw [if_pos hdup, if_pos hdup, if_pos hdup, updateHighestTsn_needSack]
      rfl
    · rw [if_neg hdup, if_neg hdup, if_neg hdup, updateHighestTsn_needSack]
      generalize (s.updateHighestTsn chunk.tsn).1 = r
      change ((({ r with myRwnd := r.myRwnd - chunk.length } : SctpReceiver).needSack b).updateRecvTsnBlocks
        chunk.tsn).bind _ = _
      rw [updateRecvTsnBlocks_needSack]
      cases updateRecvTsnBlocks { r with myRwnd := r.myRwnd - chunk.length } chunk.tsn with
      | none => rfl
      | some u =>
        rw [Option.map_some, Option.bind_some, Option.bind_some, passToStream_needSack, Option.map_map, Option.map_map]
        exact congrArg (fun f => Option.map f _) (funext fun u => updateAllStreams_needSack)
  · have hroom' : ¬chunk.length ≤ (s.needSack b).myRwnd := hroom
    rw [if_neg hroom, if_neg hroom, if_neg hroom']
    rfl

/-- Without the flag, chunks go the same way. -/
lemma exists_needSack {Q Q' : SctpReceiver → Prop} (hQ : ∀ t b, Q (t.needSack b) ↔ Q' t) :
    (∃ t, (s.needSack b).processDataChunk chunk = some t ∧ Q t) ↔ ∃ t, s.processDataChunk chunk = some t ∧ Q' t := by
  rw [processDataChunk_needSack]
  constructor
  · rintro ⟨t, ht, hQt⟩
    obtain ⟨u, hu, rfl⟩ := Option.map_eq_some_iff.mp ht
    exact ⟨u, hu, (hQ _ _).mp hQt⟩
  · rintro ⟨u, hu, hQu⟩
    exact ⟨_, by rw [hu]; rfl, (hQ _ _).mpr hQu⟩

lemma leavesGap_needSack : (s.needSack b).LeavesGap chunk ↔ s.LeavesGap chunk := exists_needSack fun _ _ => Iff.rfl

lemma accepts_needSack : (s.needSack b).Accepts chunk ↔ s.Accepts chunk := by
  rw [Accepts, isDuplicate_needSack]
  rfl

lemma asks_needSack : (s.needSack b).Asks chunk ↔ s.Asks chunk := by
  rw [Asks, isDuplicate_needSack, leavesGap_needSack]
  rfl

lemma someAlong_needSack (hP : ∀ s b chunk, P (needSack b s) chunk ↔ P s chunk) :
    SomeAlong P (s.needSack b) chunks ↔ SomeAlong P s chunks := by
  induction chunks generalizing s b with
  | nil => exact Iff.rfl
  | cons chunk chunks ih => exact or_congr (hP s b chunk) (exists_needSack fun _ _ => ih)

lemma dropsLast_needSack : DropsLast (s.needSack b) chunks ↔ DropsLast s chunks := by
  induction chunks generalizing s b with
  | nil => exact Iff.rfl
  | cons chunk chunks ih =>
    refine exists_needSack fun t b' => or_congr ih (and_congr Iff.rfl (and_congr (not_congr leavesGap_needSack) ?_))
    exact not_congr (someAlong_needSack fun _ _ _ => asks_needSack)

lemma goesThrough_needSack : GoesThrough (s.needSack b) chunks ↔ GoesThrough s chunks := by
  induction chunks generalizing s b with
  | nil => exact Iff.rfl
  | cons chunk chunks ih => exact exists_needSack fun _ _ => ih

lemma processDataChunk_needed (h : s.processDataChunk chunk = some t) : t.sackChunkNeeded =
    if chunk.length ≤ s.myRwnd then (if s.isDuplicate chunk.tsn then true else s.sackChunkNeeded) else false := by
  have heq : s.processDataChunk chunk = _ := processDataChunk_needSack (s := s) (b := s.sackChunkNeeded)
  rw [h, Option.map_some] at heq
  rw [Option.some.inj heq]
  rfl

end SctpReceiver

namespace SackAgent
open SctpReceiver
variable (s : SackAgent)

def reset (initialRwnd : ℕ) (inStreams : List InStream) : SackAgent :=
  ⟨.reset initialRwnd inStreams, 0, false, false, false⟩

/-- A SACK is needed, and the packets are counted anew. -/
def sackNow : SackAgent :=
  { s with receiver := s.receiver.needSack true, dataPktCountSinceLastSack := 0, sackGenTimer := false }

/-- The first DATA chunk of a packet. -/
def startPacket : SackAgent :=
  let s := { s with startOfPacket := false, dataPktCountSinceLastSack := s.dataPktCountSinceLastSack + 1 }
  if s.dataPktCountSinceLastSack = 1 then { s with sackGenTimer := true }
  else if s.dataPktCountSinceLastSack = DELAYED_SACK_TRIGGER then s.sackNow
  else s

/-- `ProcessDataChunk`, and the SACK for a gap behind it. -/
def processDataChunk (chunk : DataChunk) : Option SackAgent :=
  (s.receiver.processDataChunk chunk).map fun r =>
    let s := { s with receiver := r, unreported := s.unreported || decide (s.receiver.Accepts chunk) }
    if s.receiver.recvTsnBlockList.length > 0 then s.sackNow else s

/-- The case of `ProcessChunk` for a DATA chunk. -/
def processChunk (useDelayedSacks : Bool) (chunk : DataChunk) (s : SackAgent) : Option SackAgent :=
  let s :=
    if useDelayedSacks = false then { s with receiver := s.receiver.needSack true }
    else if s.startOfPacket then s.startPacket
    else s
  s.processDataChunk chunk

def processChunks (useDelayedSacks : Bool) : List DataChunk → SackAgent → Option SackAgent
  | [], s => some s
  | chunk :: chunks, s => (s.processChunk useDelayedSacks chunk).bind (processChunks useDelayedSacks chunks)

/-- The SACK is generated and sent. -/
def sendSack (maxDataSize : ℕ) : SackAgent × List SackChunk :=
  let r := s.receiver.genSack maxDataSize
  ({ s with receiver := r.2, unreported := false }, [r.1])

def recv (useDelayedSacks : Bool) (maxDataSize : ℕ) (chunks : List DataChunk) : Option (SackAgent × List SackChunk) :=
  (processChunks useDelayedSacks chunks { s with startOfPacket := true }).map fun s =>
    if s.receiver.sackChunkNeeded then
      let r := s.sendSack maxDataSize
      ({ r.1 with receiver := r.1.receiver.needSack false }, r.2)
    else (s, [])

def sackGenTimerExpiration (maxDataSize : ℕ) : SackAgent × List SackChunk :=
  { s with dataPktCountSinceLastSack := 0, sackGenTimer := false }.sendSack maxDataSize

/-- A packet, or the timer if it is pending. -/
def step (useDelayedSacks : Bool) (maxDataSize : ℕ) (s : SackAgent) : SackEvent → Option (SackAgent × List SackChunk)
  | .recv chunks => s.recv useDelayedSacks maxDataSize chunks
  | .sackGenTimer => if s.sackGenTimer then some (s.sackGenTimerExpiration maxDataSize) else some (s, [])

variable {s t : SackAgent} {chunk : DataChunk} {chunks : List DataChunk}

/-- The timer is pending while one packet has been counted. -/
structure Counted (s : SackAgent) : Prop where
  count : s.dataPktCountSinceLastSack ≤ 1
  timer : s.sackGenTimer = true ↔ s.dataPktCountSinceLastSack = 1

lemma counted_sackNow : s.sackNow.Counted := ⟨Nat.zero_le 1, iff_of_false Bool.false_ne_true Nat.zero_ne_one⟩

/-- What one chunk does to the decision, behind the start of the packet. -/
lemma processDataChunk_spec (h : s.processDataChunk chunk = some t) (hs : s.Counted) :
    (∃ r b, s.receiver.processDataChunk chunk = some r ∧ t.receiver = r.needSack b) ∧ t.Counted ∧
      t.startOfPacket = s.startOfPacket ∧
      (t.unreported = true ↔ s.unreported = true ∨ s.receiver.Accepts chunk) ∧
      (t.sackGenTimer = true ↔ s.sackGenTimer = true ∧ ¬s.receiver.LeavesGap chunk) ∧
      (t.receiver.sackChunkNeeded = true ↔ s.receiver.Asks chunk ∨
        s.receiver.sackChunkNeeded = true ∧ ¬s.receiver.Drops chunk) := by
  obtain ⟨r, hr, ht⟩ := Option.map_eq_some_iff.mp h
  have hneeded := SctpReceiver.processDataChunk_needed hr
  have hgap : s.receiver.LeavesGap chunk ↔ r.recvTsnBlockList ≠ [] := by
    rw [SctpReceiver.LeavesGap, hr]
    simp
  dsimp only at ht
  by_cases hlen : r.recvTsnBlockList.length > 0
  · rw [if_pos hlen] at ht
    have hleaves := hgap.mpr (List.length_pos_iff.mp hlen)
    subst ht
    refine ⟨⟨r, true, hr, rfl⟩, counted_sackNow, rfl, by simp [sackNow], ?_, ?_⟩
    · exact iff_of_false Bool.false_ne_true fun hno => hno.2 hleaves
    · exact iff_of_true rfl (Or.inl (Or.inr hleaves))
  · rw [if_neg hlen] at ht
    have hnil : r.recvTsnBlockList = [] := List.length_eq_zero_iff.mp (Nat.eq_zero_of_not_pos hlen)
    have hleaves : ¬s.receiver.LeavesGap chunk := fun hgap' => hgap.mp hgap' hnil
    subst ht
    refine ⟨⟨r, r.sackChunkNeeded, hr, rfl⟩, ⟨hs.count, hs.timer⟩, rfl, by simp, by simp [hleaves], ?_⟩
    change r.sackChunkNeeded = true ↔ _
    rw [hneeded, SctpReceiver.Asks, SctpReceiver.Drops]
    by_cases hroom : chunk.length ≤ s.receiver.myRwnd
    · by_cases hdup : s.receiver.isDuplicate chunk.tsn
      · simp [hroom, hdup]
      · simp [hroom, hdup, hleaves]
    · simp [hroom, hleaves]

lemma processChunk_rest (h : s.startOfPacket = false) : s.processChunk true chunk = s.processDataChunk chunk := by
  rw [processChunk, if_neg (Bool.false_ne_true ∘ Eq.symm), h]
  rfl

lemma processChunk_start : ({ s with startOfPacket := true } : SackAgent).processChunk true chunk =
    s.startPacket.processDataChunk chunk := rfl

/-- A need for a SACK that one chunk leaves and the rest does not take back, or the other way round. -/
lemma withdrawn_iff {asks drops gap needed last later : Prop} (hasks : gap → asks) (hdrops : asks → drops → gap) :
    last ∨ ¬(asks ∨ needed ∧ ¬drops) ∧ ¬later ↔ (last ∨ drops ∧ ¬gap ∧ ¬later) ∨ ¬needed ∧ ¬(asks ∨ later) := by
  constructor
  · rintro (hlast | ⟨hno, hlater⟩)
    · exact Or.inl (Or.inl hlast)
    · by_cases hdrop : drops
      · exact Or.inl (Or.inr ⟨hdrop, fun hgap => hno (Or.inl (hasks hgap)), hlater⟩)
      · exact Or.inr ⟨fun hneeded => hno (Or.inr ⟨hneeded, hdrop⟩),
          fun h => h.elim (fun hask => hno (Or.inl hask)) hlater⟩
  · rintro ((hlast | ⟨hdrop, hgap, hlater⟩) | ⟨hneeded, hno⟩)
    · exact Or.inl hlast
    · exact Or.inr ⟨fun h => h.elim (fun hask => hgap (hdrops hask hdrop)) fun h => h.2 hdrop, hlater⟩
    · exact Or.inr ⟨fun h => h.elim (fun hask => hno (Or.inl hask)) fun h => hneeded h.1, fun h => hno (Or.inr h)⟩

/-- What the rest of a packet does to the decision. -/
lemma processChunks_spec (hs : s.Counted) (hstart : s.startOfPacket = false) :
    (∀ t, processChunks true chunks s = some t → t.Counted ∧
      (t.unreported = true ↔ s.unreported = true ∨ SomeAlong Accepts s.receiver chunks) ∧
      (t.sackGenTimer = true ↔ s.sackGenTimer = true ∧ ¬SomeAlong LeavesGap s.receiver chunks) ∧
      (t.receiver.sackChunkNeeded = false ↔ DropsLast s.receiver chunks ∨
        s.receiver.sackChunkNeeded = false ∧ ¬SomeAlong Asks s.receiver chunks)) ∧
    ((processChunks true chunks s).isSome ↔ GoesThrough s.receiver chunks) := by
  induction chunks generalizing s with
  | nil =>
    refine ⟨fun t ht => ?_, iff_of_true rfl trivial⟩
    cases ht
    simp [SomeAlong, DropsLast, hs]
  | cons chunk chunks ih =>
    rw [processChunks, processChunk_rest hstart]
    cases hnext : s.processDataChunk chunk with
    | none =>
      have hr : s.receiver.processDataChunk chunk = none := Option.map_eq_none_iff.mp hnext
      refine ⟨nofun, iff_of_false Bool.false_ne_true ?_⟩
      rintro ⟨u, hu, -⟩
      rw [hr] at hu
      cases hu
    | some u =>
      obtain ⟨⟨r, b, hr, hrec⟩, hcounted, hstart', hunrep, htimer, hneeded⟩ := processDataChunk_spec hnext hs
      obtain ⟨hall, hgoes⟩ := ih hcounted (hstart'.trans hstart)
      rw [hrec] at hall hgoes
      have hcons : ∀ Q : SctpReceiver → Prop, (∃ t, s.receiver.processDataChunk chunk = some t ∧ Q t) ↔ Q r := by
        intro Q
        rw [hr]
        simp
      rw [Option.bind_some]
      refine ⟨fun t ht => ?_, hgoes.trans (goesThrough_needSack.trans (hcons fun r => GoesThrough r chunks).symm)⟩
      obtain ⟨hcounted', hunrep', htimer', hneeded'⟩ := hall t ht
      rw [someAlong_needSack fun _ _ _ => accepts_needSack] at hunrep'
      rw [someAlong_needSack fun _ _ _ => leavesGap_needSack] at htimer'
      rw [someAlong_needSack fun _ _ _ => asks_needSack, dropsLast_needSack, ← hrec] at hneeded'
      refine ⟨hcounted', ?_, ?_, ?_⟩
      · rw [hunrep', hunrep, SomeAlong, hcons, or_assoc]
      · rw [htimer', htimer, SomeAlong, hcons, not_or, and_assoc]
      · have hasks : s.receiver.LeavesGap chunk → s.receiver.Asks chunk := Or.inr
        have hdrops : s.receiver.Asks chunk → s.receiver.Drops chunk → s.receiver.LeavesGap chunk :=
          fun hask hdrop => hask.resolve_left fun hdup => hdrop hdup.1
        rw [hneeded', DropsLast, hcons, SomeAlong, hcons, ← Bool.not_eq_true, hneeded, ← Bool.not_eq_true]
        exact withdrawn_iff hasks hdrops

/-- Accepted data is in a SACK that has been sent, or the timer is pending. -/
def Reported (s : SackAgent) : Prop := s.unreported = true → s.sackGenTimer = true

/-- Data waits for a SACK or is accepted, the packet is the second one or leaves a gap, and behind the last chunk that
finds the window full no chunk is a duplicate or leaves a gap. -/
def Loses (s : SackAgent) : SackEvent → Prop
  | .recv chunks => GoesThrough s.receiver chunks ∧
    (s.unreported = true ∨ SomeAlong Accepts s.receiver chunks) ∧
    (s.sackGenTimer = true ∨ SomeAlong LeavesGap s.receiver chunks) ∧ DropsLast s.receiver chunks
  | .sackGenTimer => False

/-- What holds between the packets. -/
structure Ready (s : SackAgent) : Prop where
  counted : s.Counted
  needed : s.receiver.sackChunkNeeded = false

lemma ready_reset (initialRwnd : ℕ) (inStreams : List InStream) : (reset initialRwnd inStreams).Ready :=
  ⟨⟨Nat.zero_le 1, iff_of_false Bool.false_ne_true Nat.zero_ne_one⟩, rfl⟩

/-- The first chunk of a packet starts it. -/
lemma processChunks_start (h : s.startPacket.startOfPacket = false) :
    processChunks true (chunk :: chunks) { s with startOfPacket := true } =
      processChunks true (chunk :: chunks) s.startPacket := by
  rw [processChunks, processChunks, processChunk_start, processChunk_rest h]

lemma asks_of_leavesGap {r : SctpReceiver} (h : SomeAlong LeavesGap r chunks) : SomeAlong Asks r chunks := by
  induction chunks generalizing r with
  | nil => exact h
  | cons chunk chunks ih =>
    rcases h with hgap | ⟨t, ht, hrest⟩
    · exact Or.inl (Or.inr hgap)
    · exact Or.inr ⟨t, ht, ih hrest⟩

/-- The second packet asks for a SACK, the first one sets the timer. -/
lemma startPacket_spec (hs : s.Ready) : s.startPacket.Counted ∧ s.startPacket.startOfPacket = false ∧
    s.startPacket.unreported = s.unreported ∧
    (s.startPacket.sackGenTimer = true ↔ s.sackGenTimer = false) ∧
    s.startPacket.receiver = s.receiver.needSack s.sackGenTimer := by
  obtain ⟨⟨hcount, htimer⟩, hneeded⟩ := hs
  unfold startPacket
  dsimp only
  by_cases hzero : s.dataPktCountSinceLastSack + 1 = 1
  · have hno : s.sackGenTimer = false := by
      rw [← Bool.not_eq_true, htimer]
      omega
    rw [if_pos hzero, hno, ← hneeded]
    exact ⟨⟨hzero.le, iff_of_true rfl hzero⟩, rfl, rfl, iff_of_true rfl rfl, rfl⟩
  · have hone : s.dataPktCountSinceLastSack = 1 := by omega
    rw [if_neg hzero, if_pos (show s.dataPktCountSinceLastSack + 1 = DELAYED_SACK_TRIGGER from congrArg (· + 1) hone),
      htimer.mpr hone]
    exact ⟨counted_sackNow, rfl, rfl, iff_of_false Bool.false_ne_true Bool.false_ne_true.symm, rfl⟩

/-- The end of `recv`. -/
lemma recv_eq {maxDataSize : ℕ} : s.recv true maxDataSize chunks =
    (processChunks true chunks { s with startOfPacket := true }).map fun s =>
      if s.receiver.sackChunkNeeded then
        ({ s with receiver := (s.receiver.genSack maxDataSize).2.needSack false, unreported := false },
          [(s.receiver.genSack maxDataSize).1])
      else (s, []) := rfl

/-- What is sent or left at the end of a packet. -/
lemma recv_spec (maxDataSize : ℕ) {u : SackAgent} (h : processChunks true chunks { s with startOfPacket := true } = some u)
    (hu : u.Counted) :
    (∀ t o, s.recv true maxDataSize chunks = some (t, o) → t.Ready) ∧
      ((∀ t o, s.recv true maxDataSize chunks = some (t, o) → t.Reported) ↔
        u.receiver.sackChunkNeeded = true ∨ u.Reported) := by
  rw [recv_eq, h, Option.map_some]
  cases hneeded : u.receiver.sackChunkNeeded with
  | true =>
    rw [if_pos rfl]
    refine ⟨fun t o ht => ?_, iff_of_true (fun t o ht => ?_) (Or.inl rfl)⟩
    · cases ht
      exact ⟨⟨hu.count, hu.timer⟩, rfl⟩
    · cases ht
      exact fun hno => absurd hno Bool.false_ne_true
  | false =>
    rw [if_neg Bool.false_ne_true]
    refine ⟨fun t o ht => ?_, fun hall => Or.inr (hall u [] rfl), fun hrep t o ht => ?_⟩
    · cases ht
      exact ⟨hu, hneeded⟩
    · cases ht
      exact hrep.resolve_left Bool.false_ne_true

/-- One event. -/
lemma step_spec {e : SackEvent} {maxDataSize : ℕ} (hs : s.Ready) (hrep : s.Reported) :
    (∀ t o, step true maxDataSize s e = some (t, o) → t.Ready) ∧
      ((∀ t o, step true maxDataSize s e = some (t, o) → t.Reported) ↔ ¬s.Loses e) := by
  cases e with
  | sackGenTimer =>
    change (∀ t o, (if s.sackGenTimer then _ else _) = _ → _) ∧ ((∀ t o, (if s.sackGenTimer then _ else _) = _ → _) ↔ _)
    cases htimer : s.sackGenTimer with
    | true =>
      refine ⟨fun t o ht => ?_, iff_of_true (fun t o ht => ?_) id⟩
      · cases ht
        exact ⟨⟨Nat.zero_le 1, iff_of_false Bool.false_ne_true Nat.zero_ne_one⟩, hs.needed⟩
      · cases ht
        exact fun hno => absurd hno Bool.false_ne_true
    | false =>
      refine ⟨fun t o ht => ?_, iff_of_true (fun t o ht => ?_) id⟩
      · cases ht
        exact hs
      · cases ht
        exact hrep
  | recv chunks =>
    cases chunks with
    | nil =>
      obtain ⟨hready, hreported⟩ := recv_spec (s := s) maxDataSize (processChunks.eq_1 true _)
        ⟨hs.counted.count, hs.counted.timer⟩
      exact ⟨hready, hreported.trans (iff_of_true (Or.inr hrep) fun h => h.2.2.2)⟩
    | cons chunk chunks =>
      obtain ⟨hcounted₁, hstart₁, hunrep₁, htimer₁, hrec₁⟩ := startPacket_spec hs
      obtain ⟨hall, hgoes⟩ := processChunks_spec hcounted₁ hstart₁
      rw [← processChunks_start hstart₁, hrec₁, goesThrough_needSack] at hgoes
      cases hchunks : processChunks true (chunk :: chunks) { s with startOfPacket := true } with
      | none =>
        have hnone : step true maxDataSize s (.recv (chunk :: chunks)) = none := by
          change s.recv true maxDataSize (chunk :: chunks) = none
          rw [recv_eq, hchunks]
          rfl
        rw [hnone]
        refine ⟨nofun, iff_of_true nofun fun h => ?_⟩
        rw [hchunks] at hgoes
        exact absurd (hgoes.mpr h.1) Bool.false_ne_true
      | some u =>
        obtain ⟨hcounted, hunrep, htimer, hneeded⟩ := hall u (processChunks_start hstart₁ ▸ hchunks)
        rw [hrec₁, someAlong_needSack fun _ _ _ => accepts_needSack, hunrep₁] at hunrep
        rw [hrec₁, someAlong_needSack fun _ _ _ => leavesGap_needSack, htimer₁] at htimer
        rw [hrec₁, someAlong_needSack fun _ _ _ => asks_needSack, dropsLast_needSack] at hneeded
        obtain ⟨hready, hreported⟩ := recv_spec maxDataSize hchunks hcounted
        refine ⟨hready, hreported.trans ⟨?_, fun hno => ?_⟩⟩
        · rintro hor ⟨-, hdata, hcancelled, hlast⟩
          rcases hor with hneed | hpending
          · rw [hneeded.mpr (Or.inl hlast)] at hneed
            cases hneed
          · obtain ⟨hfirst, hgap⟩ := htimer.mp (hpending (hunrep.mpr hdata))
            exact hcancelled.elim (fun h => by rw [hfirst] at h; cases h) hgap
        · by_cases hneed : u.receiver.sackChunkNeeded = true
          · exact Or.inl hneed
          · refine Or.inr fun hdata => htimer.mpr ?_
            have hgoes' : GoesThrough s.receiver (chunk :: chunks) := by
              rw [← hgoes, hchunks]
              rfl
            rcases hneeded.mp (Bool.not_eq_true _ ▸ hneed) with hlast | ⟨hfirst, hasks⟩
            · have hnot : ¬(s.sackGenTimer = true ∨ SomeAlong LeavesGap s.receiver (chunk :: chunks)) := fun hcancelled =>
                hno ⟨hgoes', hunrep.mp hdata, hcancelled, hlast⟩
              rw [not_or, Bool.not_eq_true] at hnot
              exact hnot
            · exact ⟨hfirst, fun hgap => hasks (asks_of_leavesGap hgap)⟩

/-- In a run of packets and timers, no accepted data waits for a SACK without a pending timer behind any of them, if
and only if no packet loses a SACK. -/
theorem reported_run_iff (maxDataSize initialRwnd : ℕ) (inStreams : List InStream) (es : List SackEvent) :
    EachStep (step true maxDataSize) (fun s e => ∀ t o, step true maxDataSize s e = some (t, o) → t.Reported)
        (reset initialRwnd inStreams) es ↔
      EachStep (step true maxDataSize) (fun s e => ¬s.Loses e) (reset initialRwnd inStreams) es := by
  have hinit : (reset initialRwnd inStreams).Ready ∧ (reset initialRwnd inStreams).Reported :=
    ⟨ready_reset initialRwnd inStreams, fun hno => absurd hno Bool.false_ne_true⟩
  constructor
  · exact fun h => h.gives
      (fun s e t o (hs : s.Ready ∧ s.Reported) hrep hstep => ⟨(step_spec hs.1 hs.2).1 t o hstep, hrep t o hstep⟩)
      (fun s e hs hrep => (step_spec hs.1 hs.2).2.mp hrep) hinit
  · exact fun h => h.gives
      (fun s e t o (hs : s.Ready ∧ s.Reported) hno hstep => ⟨(step_spec hs.1 hs.2).1 t o hstep, (step_spec hs.1 hs.2).2.mpr hno t o hstep⟩)
      (fun s e hs hno => (step_spec hs.1 hs.2).2.mpr hno) hinit

/-- The first packet brings data and the second one a chunk that is too long for the window: the timer is cancelled and
the SACK is not sent. -/
theorem reported_lost :
    let es := [SackEvent.recv [⟨416, true, 1, 0, 0⟩], .recv [⟨1416, true, 2, 0, 0⟩]]
    (∃ t, run (step true 1468) (reset 1000 []) es = some (t, [[], []]) ∧ t.unreported = true ∧ t.sackGenTimer = false) ∧
      ¬EachStep (step true 1468) (fun s e => ∀ t o, step true 1468 s e = some (t, o) → t.Reported)
        (reset 1000 []) es := by
  intro es
  refine ⟨⟨_, rfl, rfl, rfl⟩, fun h => ?_⟩
  have hlast := (h.2 _ _ rfl).1 _ _ rfl
  exact absurd (hlast rfl) Bool.false_ne_true

end SackAgent
end NetworkSimulator
