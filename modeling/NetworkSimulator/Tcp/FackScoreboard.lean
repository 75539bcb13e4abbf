import NetworkSimulator.Library.CircularArray

/-!
# `ScoreBoard`

The scoreboard of `tcp/scoreboard.h` and `tcp/scoreboard.cc`, which the FACK sender uses: the packets from
`first_` on, in the slots of a circular array that grows. The array is read at numbers from 0 on only, where
the `%` of the source and of the model agree. `none` is a failed assertion or another `exit`.
-/

namespace NetworkSimulator
open Library

structure ScoreBoardNode where
  seqNo : ℤ -- packet number
  ackFlag : Bool -- acked by cumulative ACK
  sackFlag : Bool -- acked by SACK block
  retran : Bool -- packet retransmitted
  sndNxt : ℤ -- snd_nxt at time of retransmission

structure ScoreBoard where
  first : ℤ
  length : ℤ
  sbsize : ℤ
  changed : ℤ
  sbn : ℤ → ScoreBoardNode

namespace ScoreBoard
variable (fresh : ℤ → ℤ → ScoreBoardNode) (lastAck : ℤ)

/-- `SBN[i % sbsize_]` -/
def node (s : ScoreBoard) (i : ℤ) : ScoreBoardNode := Library.slot s.sbn s.sbsize i

def setNode (s : ScoreBoard) (i : ℤ) (x : ScoreBoardNode) : ScoreBoard :=
  { s with sbn := setSlot s.sbn s.sbsize i x }

/-- The node that the left edge leaves behind. -/
def ackedNode (x : ScoreBoardNode) : ScoreBoardNode :=
  { x with
    ackFlag := true, sackFlag := true, retran := false
    sndNxt := if x.retran then 0 else x.sndNxt }

/-- The loop that advances the left edge, for `k` numbers from `i` on, with `retran_decr`. -/
def advance : ℕ → ℤ → ScoreBoard × ℤ → Option (ScoreBoard × ℤ)
  | 0, _, r => some r
  | k + 1, i, (s, decr) =>
    let x := s.node i
    if x.seqNo ≤ lastAck then
      if s.first = i ∧ 0 ≤ s.length - 1 then
        let s := { s with first := s.first + 1, length := s.length - 1, changed := s.changed + 1 }
        let s := s.setNode i (ackedNode x)
        let decr := if x.retran then decr + 1 else decr
        if s.length = 0 then some (s, decr) else advance k (i + 1) (s, decr)
      else none
    else advance k (i + 1) (s, decr)

/-- The node for number `i` as it is entered, with the test that the array is large enough. -/
def enter (s : ScoreBoard) (i : ℤ) : Option ScoreBoard :=
  let s := { s.setNode i ⟨i, false, false, false, 0⟩ with length := s.length + 1, changed := s.changed + 1 }
  if s.length ≥ s.sbsize then none else some s

/-- The loop that creates entries off the right side. -/
def createEntries : ℕ → ℤ → ScoreBoard → Option ScoreBoard
  | 0, _, s => some s
  | k + 1, i, s => (s.enter i).bind (createEntries k (i + 1))

/-- `resizeSB`, where `fresh sz` is the memory of the new array. -/
def resizeSB (s : ScoreBoard) (sz : ℤ) : ScoreBoard :=
  let i := (s.node s.first).seqNo
  { s with sbn := copySlots s.sbn s.sbsize sz (s.length + 1).toNat i (fresh sz), sbsize := sz }

/-- The `while` around `resizeSB`, for a number of rounds. -/
def grow (sackRight : ℤ) : ℕ → ScoreBoard → Option ScoreBoard
  | 0, s => if sackRight - lastAck ≥ s.sbsize - 1 then none else some s
  | k + 1, s =>
    if sackRight - lastAck ≥ s.sbsize - 1 then grow sackRight k (s.resizeSB fresh (s.sbsize * 2)) else some s

/-- The loop that looks for the packets that a SACK block covers. -/
def markSacked (sackLeft sackRight : ℤ) : ℕ → ℤ → ScoreBoard × ℤ → ScoreBoard × ℤ
  | 0, _, r => r
  | k + 1, i, (s, decr) =>
    let x := s.node i
    if x.seqNo ≥ sackLeft ∧ x.seqNo < sackRight then
      let changed := if x.sackFlag then s.changed else s.changed + 1
      let s := { s with changed := changed }.setNode i { x with sackFlag := true, retran := false }
      markSacked sackLeft sackRight k (i + 1) (s, if x.retran then decr + 1 else decr)
    else markSacked sackLeft sackRight k (i + 1) (s, decr)

/-- One round of the loop over the SACK blocks of the header. -/
def addSack (r : ScoreBoard × ℤ) (sa : ℤ × ℤ) : Option (ScoreBoard × ℤ) :=
  let last (s : ScoreBoard) := (s.node (s.first + s.length + s.sbsize - 1)).seqNo
  (if sa.2 > last r.1 then
      (r.1.grow fresh lastAck sa.2 (sa.2 - lastAck).toNat).bind fun s =>
        s.createEntries (sa.2 - (last s + 1)).toNat (last s + 1)
    else some r.1).map fun s =>
  let i := (s.node s.first).seqNo
  markSacked sa.1 sa.2 (sa.2 - i).toNat i (s, r.2)

/-- `UpdateScoreBoard`, which returns `retran_decr`. -/
def updateScoreBoard (s : ScoreBoard) (sacks : List (ℤ × ℤ)) : Option (ScoreBoard × ℤ) :=
  let s := { s with changed := 0 }
  let i := (s.node s.first).seqNo
  (if s.length ≠ 0 ∧ i ≤ lastAck then advance lastAck (lastAck + 1 - i).toNat i (s, 0) else some (s, 0)).bind
    fun r =>
  -- if there is no scoreboard, create one
  (if r.1.length = 0 ∧ sacks ≠ [] then { r.1 with first := lastAck + 1 }.enter (lastAck + 1) else some r.1).bind
    fun s =>
  sacks.foldlM (addSack fresh lastAck) (s, r.2)

def clearScoreBoard (s : ScoreBoard) : ScoreBoard := { s with length := 0 }

/-- The loop of `GetNextRetran`, -1 at its end. -/
def nextRetran (s : ScoreBoard) : ℕ → ℤ → ℤ
  | 0, _ => -1
  | k + 1, i =>
    let x := s.node i
    if !x.ackFlag && !x.sackFlag && !x.retran then i else nextRetran s k (i + 1)

def getNextRetran (s : ScoreBoard) : ℤ :=
  if s.length ≠ 0 then s.nextRetran s.length.toNat (s.node s.first).seqNo else -1

/-- `MarkRetran`, with or without the `snd_nxt` of its callers. -/
def markRetran (s : ScoreBoard) (retranSeqno : ℤ) (sndNxt : Option ℤ) : ScoreBoard :=
  let x := s.node retranSeqno
  s.setNode retranSeqno { x with retran := true, sndNxt := sndNxt.getD x.sndNxt }

end ScoreBoard

end NetworkSimulator
