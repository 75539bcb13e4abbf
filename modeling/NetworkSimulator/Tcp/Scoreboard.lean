import NetworkSimulator.Tcp.ReassemblyQueue

/-!
# `ScoreBoardRQ`

The scoreboard of `tcp/scoreboard-rq.h` and `tcp/scoreboard-rq.cc`, a shim over the reassembly queue.
`sack_min` is the variable that the queue knows as `rcv_nxt_`.
-/

namespace NetworkSimulator

structure ScoreBoardRQ where
  hSeqno : ℤ
  changed : Bool
  rq : ReassemblyQueue

namespace ScoreBoardRQ

def sackMin (s : ScoreBoardRQ) : ℤ := s.rq.rcvNxt

/-- The constructor, with the memory as it is. -/
def init (m : ReassemblyQueue) : ScoreBoardRQ := ⟨-1, false, m.init (-1)⟩

def clearScoreBoard (s : ScoreBoardRQ) : Option ScoreBoardRQ :=
  s.rq.clear.map fun rq => { s with rq := rq, hSeqno := -1 }

def getNextRetran (s : ScoreBoardRQ) : Option (ScoreBoardRQ × ℤ) :=
  let s := if s.hSeqno < s.sackMin then { s with hSeqno := s.sackMin } else s
  (s.rq.nexthole s.hSeqno).map fun (rq, seq, fcnt, _) =>
    let s := { s with rq := rq }
    if seq > 0 then
      if fcnt ≤ 0 then (s, -1) -- no holes above
      else (if seq > s.hSeqno then { s with hSeqno := seq } else s, seq)
    else (s, -1)

def markRetran (s : ScoreBoardRQ) (retranSeqno : ℤ) : ScoreBoardRQ :=
  if retranSeqno ≥ s.hSeqno then { s with hSeqno := retranSeqno + 1 } else s

/-- The loop of `UpdateScoreBoard` over the SACK blocks of the header. -/
def addSacks (rq : ReassemblyQueue) : List (ℤ × ℤ) → Option ReassemblyQueue
  | [] => some rq
  | sa :: sacks => (rq.add sa.1 sa.2 0 0).bind fun r => addSacks r.1 sacks

def updateScoreBoard (s : ScoreBoardRQ) (lastAck : ℤ) (sacks : List (ℤ × ℤ)) :
    Option ScoreBoardRQ :=
  let oldTotal := s.rq.total
  (if s.sackMin ≤ lastAck then
      -- beginning of retransmission queue is one beyond last_ack
      let rq := { s.rq with rcvNxt := lastAck + 1 }
      if rq.empty then some (rq, false) else rq.cleartonxt.map fun r => (r.1, true)
    else some (s.rq, false)).bind fun (rq, changed) =>
  (addSacks rq sacks).map fun rq =>
    { s with rq := rq, changed := changed || oldTotal != rq.total }

end ScoreBoardRQ

end NetworkSimulator
