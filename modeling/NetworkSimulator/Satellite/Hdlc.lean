import NetworkSimulator.Library.Network
import Mathlib.Data.Int.Notation

/-!
# HDLC over a satellite link

The state that an HDLC agent has for its peer and what packets, frames and timers do to it, with selective repeat
or go-back-N. Sequence numbers are unbounded, timers are pending or not, and headers other than those of HDLC are
left out.
-/

namespace NetworkSimulator
open Library

def HDLC_MWS : ℕ := 65536

inductive SType
  | rr
  | rej
  | rnr
  | srej
  deriving DecidableEq

/-- The commands in use. -/
inductive HdlcCommand
  | sabme
  | disc
  | ua
  deriving DecidableEq

inductive HdlcFrame (α : Type*)
  | i (recvSeqno sendSeqno : ℤ) (p : α)
  | s (stype : SType) (recvSeqno : ℤ)
  | u (utype : HdlcCommand)
  deriving DecidableEq

structure HdlcConfig where
  wnd : ℤ
  queueSize : ℤ
  maxTimeouts : ℤ
  selRepeat : Bool
  delAck : Bool
  /-- What `maxseen_` of a new entry happens to be, which `newEntry` does not set. -/
  maxseen : ℤ

/-- `SABME_req_`: 0, 1 and 2. -/
inductive SabmeReq
  | none
  | requested
  | connected
  deriving DecidableEq

structure ARQstate (α : Type*) where
  tSeqno : ℤ
  seqno : ℤ
  maxseq : ℤ
  highestAck : ℤ
  recvSeqno : ℤ
  nrexmit : ℤ
  ntimeouts : ℤ
  disconnect : Bool
  sabmeReq : SabmeReq
  sentREJ : Bool
  /-- The packet saved for a delayed acknowledgement. -/
  save : Option α
  seen : ℕ → Option α
  nextpkt : ℤ
  maxseen : ℤ
  rtxTimer : Bool
  resetTimer : Bool
  delayTimer : Bool
  /-- The packets with their `send_seqno`. -/
  sendBuf : List (ℤ × α)

/-- What an agent does; `drop` and `free` are about the frame that has come in. -/
inductive HdlcOutput (α : Type*)
  | sendDown (f : HdlcFrame α)
  | sendUp (p : α)
  | drop
  | free
  deriving DecidableEq

variable {α : Type*}

def getPkt (buffer : List (ℤ × α)) (seqno : ℤ) : Option (ℤ × α) := buffer.find? fun p => p.1 = seqno

namespace ARQstate
variable (cfg : HdlcConfig) (a : ARQstate α)

def newEntry : ARQstate α where
  tSeqno := 0
  seqno := 0
  maxseq := 0
  highestAck := -1
  recvSeqno := -1
  nrexmit := 0
  ntimeouts := 0
  disconnect := false
  sabmeReq := .none
  sentREJ := false
  save := none
  seen _ := none
  nextpkt := 0
  maxseen := cfg.maxseen
  rtxTimer := false
  resetTimer := false
  delayTimer := false
  sendBuf := []

/-- `seq & wndmask_` -/
def slot (seq : ℤ) : ℕ := (seq % HDLC_MWS).toNat

/-- The number that an acknowledgement carries. -/
def ackSeqno : ℤ := if cfg.selRepeat then a.nextpkt else a.recvSeqno

def setRtxTimer : ARQstate α := { a with rtxTimer := true }

def cancelRtxTimer : ARQstate α := { a with rtxTimer := false }

/-! ### Sending -/

/-- The packet and whether it is accepted. -/
def inSendBuffer (p : α) : ARQstate α × Bool :=
  if (a.sendBuf.length : ℤ) ≥ cfg.queueSize then (a, false)
  else ({ a with seqno := a.seqno + 1, sendBuf := a.sendBuf ++ [(a.seqno, p)] }, true)

def output (p : ℤ × α) (seqno : ℤ) : ARQstate α × List (HdlcOutput α) :=
  let frame := .i (a.ackSeqno cfg) p.1 p.2
  let force := a.highestAck = a.maxseq
  let a := { a with delayTimer := false, save := none }
  let a :=
    if seqno > a.maxseq then { a with maxseq := seqno }
    else if seqno < a.maxseq then { a with nrexmit := a.nrexmit + 1 }
    else a
  (if ¬a.rtxTimer ∨ force then a.setRtxTimer else a, [.sendDown frame])

def dataToSend : Option (ℤ × α) :=
  if a.tSeqno ≤ a.highestAck + cfg.wnd then getPkt a.sendBuf a.tSeqno else none

/-- A packet goes out as the next one. -/
def outputNext (p : ℤ × α) : ARQstate α × List (HdlcOutput α) :=
  let r := a.output cfg p a.tSeqno
  ({ r.1 with tSeqno := r.1.tSeqno + 1 }, r.2)

/-- The loop of `sendMuch`. -/
def sendLoop : ℕ → ARQstate α → ARQstate α × List (HdlcOutput α)
  | 0, a => (a, [])
  | n + 1, a =>
    match a.dataToSend cfg with
    | none => (a, [])
    | some p =>
      let r := a.outputNext cfg p
      let r' := sendLoop n r.1
      (r'.1, r.2 ++ r'.2)

def sendMuch : Option (ARQstate α × List (HdlcOutput α)) :=
  if a.sabmeReq = .connected then some (sendLoop cfg (a.highestAck + cfg.wnd + 1 - a.tSeqno).toNat a) else none

/-- A frame with data is sent if there is one to carry the acknowledgement. -/
def ack : ARQstate α × List (HdlcOutput α) :=
  match if a.tSeqno > 0 then a.dataToSend cfg else none with
  | some p => a.outputNext cfg p
  | none => (a, [.sendDown (.s .rr (a.ackSeqno cfg))])

/-! ### Acknowledgements -/

/-- The packet that is acknowledged leaves the buffer. -/
def removePkt (seqno : ℤ) : ARQstate α :=
  { a with sendBuf := a.sendBuf.eraseP fun p => p.1 = seqno, highestAck := seqno }

def handlePiggyAck (recvSeqno : ℤ) : Option (ARQstate α) :=
  let seqno := recvSeqno - 1
  if seqno > a.highestAck then
    (getPkt a.sendBuf seqno).map fun _ =>
      let a := a.removePkt seqno
      let a := if a.tSeqno > seqno ∨ seqno < a.maxseq then a.setRtxTimer else a.cancelRtxTimer
      { a with ntimeouts := 0 }
  else some { a with ntimeouts := 0 }

/-- `handleRR`, before more is sent. -/
def takeRR (seqno : ℤ) : ARQstate α × List (HdlcOutput α) :=
  if seqno > a.highestAck then
    let a := if (getPkt a.sendBuf seqno).isSome then a.removePkt seqno else a
    (if a.tSeqno - 1 > seqno ∨ seqno < a.maxseq then a.setRtxTimer else a.cancelRtxTimer, [])
  else (a, [.drop])

def handleRR (recvSeqno : ℤ) : Option (ARQstate α × List (HdlcOutput α)) :=
  if a.sabmeReq ≠ .connected then some (a, [])
  else
    let r := a.takeRR (recvSeqno - 1)
    (sendMuch cfg { r.1 with ntimeouts := 0 }).map fun r' => (r'.1, r.2 ++ .free :: r'.2)

def handleREJ (seqno : ℤ) : Option (ARQstate α × List (HdlcOutput α)) :=
  if a.sabmeReq ≠ .connected then some (a, [])
  else (sendMuch cfg { a with tSeqno := seqno }).map fun r => (r.1, r.2 ++ [.free])

def handleSREJ (seqno : ℤ) : Option (ARQstate α × List (HdlcOutput α)) :=
  if a.sabmeReq ≠ .connected then some (a, [])
  else
    (getPkt a.sendBuf seqno).map fun p =>
      let r := a.output cfg p seqno
      (r.1, r.2 ++ [.free])

/-! ### Receiving -/

def goBackNMode (seq : ℤ) (p : α) : Option (ARQstate α × List (HdlcOutput α)) :=
  if seq = a.recvSeqno then
    let a := { a with sentREJ := false, recvSeqno := a.recvSeqno + 1 }
    if cfg.delAck then
      if a.delayTimer then some (a, [.sendUp p])
      else if a.save.isSome then none
      else some ({ a with save := some p, delayTimer := true }, [.sendUp p])
    else
      let r := a.ack cfg
      some (r.1, r.2 ++ [.sendUp p])
  else if seq > a.recvSeqno then
    if a.sentREJ then some (a, [.drop])
    else some ({ a with sentREJ := true, resetTimer := true }, [.sendDown (.s .rej a.recvSeqno), .drop])
  else
    let r := a.ack cfg
    some (r.1, r.2 ++ [.drop])

/-- The loop of `selectiveRepeatMode` that hands up packets in order; each pass empties one slot. -/
def deliverLoop : ℕ → ARQstate α → ARQstate α × List (HdlcOutput α)
  | 0, a => (a, [])
  | n + 1, a =>
    match a.seen (slot a.nextpkt) with
    | none => (a, [])
    | some rpkt =>
      let r := deliverLoop n
        { a with seen := Function.update a.seen (slot a.nextpkt) none, nextpkt := a.nextpkt + 1 }
      (r.1, .sendUp rpkt :: r.2)

def setSeen (seq : ℤ) (p : α) : ARQstate α := { a with seen := Function.update a.seen (slot seq) (some p) }

def selectiveRepeatMode (seq : ℤ) (p : α) : ARQstate α × List (HdlcOutput α) :=
  let justMarked := seq > a.maxseen
  let srejs : List (HdlcOutput α) :=
    (List.range (seq - a.maxseen - 1).toNat).map fun (k : ℕ) => .sendDown (.s .srej (a.maxseen + 1 + k))
  let a := if justMarked then { a with maxseen := seq }.setSeen seq p else a
  if seq < a.nextpkt ∨ (a.seen (slot seq)).isSome ∧ ¬justMarked then
    let r := a.ack cfg
    (r.1, srejs ++ r.2 ++ [.drop])
  else
    let r := deliverLoop HDLC_MWS (a.setSeen seq p)
    let r' := r.1.ack cfg
    (r'.1, srejs ++ r.2 ++ r'.2)

def recvIframe (rseq seq : ℤ) (p : α) : Option (ARQstate α × List (HdlcOutput α)) :=
  if a.sabmeReq = .requested then some (a, [])
  else
    let a := if a.recvSeqno = -1 ∧ a.sabmeReq = .none then { a with sabmeReq := .connected } else a
    (if rseq > -1 then a.handlePiggyAck rseq else some a).bind fun a =>
      let a := if seq = 0 ∧ a.recvSeqno = -1 then { a with recvSeqno := 0 } else a
      (if cfg.selRepeat then some (a.selectiveRepeatMode cfg seq p) else a.goBackNMode cfg seq p).bind fun r =>
        if rseq > -1 then (r.1.sendMuch cfg).map fun r' => (r'.1, r.2 ++ r'.2) else some r

/-! ### Timers -/

/-- The packets in the receive buffer are handed up; the entry is removed by the caller. -/
def reset : List (HdlcOutput α) :=
  if cfg.selRepeat then (List.range HDLC_MWS).filterMap fun n => (a.seen n).map .sendUp else []

def delayTimeout : ARQstate α × List (HdlcOutput α) :=
  let a := { a with delayTimer := false }
  match a.save with
  | none => (a, [])
  | some _ =>
    let r := a.ack cfg
    ({ r.1 with save := none }, r.2)

/-- `timeout`; without a state the entry has been reset. -/
def timeout : Option (Option (ARQstate α) × List (HdlcOutput α)) :=
  let a := { a with rtxTimer := false, ntimeouts := a.ntimeouts + 1 }
  if a.ntimeouts > cfg.maxTimeouts then some (none, a.reset cfg)
  else if a.sabmeReq ≠ .none ∧ a.tSeqno = 0 then
    (getPkt a.sendBuf 0).map fun _ => (some a.setRtxTimer, [.sendDown (.u .sabme)])
  else if a.highestAck = a.maxseq then some (some { a.setRtxTimer with tSeqno := a.highestAck + 1 }, [])
  else (sendMuch cfg { a with tSeqno := a.highestAck + 1 }).map fun r => (some r.1, r.2)

end ARQstate

/-! ### The agent -/

/-- An agent with one peer, and what the layer above has given to it and got from it. -/
structure HdlcPeer (α : Type*) where
  /-- The entry for the peer, if there is one. -/
  arq : Option (ARQstate α)
  /-- The packets that `inSendBuffer` has accepted. -/
  accepted : List α
  /-- The packets that have been handed up. -/
  sentUp : List α

inductive HdlcEvent (α : Type*)
  | recvOutgoing (p : α)
  | rtxTimer
  | delayTimer
  | resetTimer

namespace HdlcOutput

def down : HdlcOutput α → Option (HdlcFrame α)
  | .sendDown f => some f
  | _ => none

def up : HdlcOutput α → Option α
  | .sendUp p => some p
  | _ => none

end HdlcOutput

namespace HdlcPeer
variable (cfg : HdlcConfig) (h : HdlcPeer α)

def init : HdlcPeer α := ⟨none, [], []⟩

/-- The new entry and the outputs take effect. -/
def finish (r : Option (ARQstate α) × List (HdlcOutput α)) : HdlcPeer α × List (HdlcFrame α) :=
  ({ h with arq := r.1, sentUp := h.sentUp ++ r.2.filterMap HdlcOutput.up }, r.2.filterMap HdlcOutput.down)

def recvOutgoing (p : α) : Option (HdlcPeer α × List (HdlcFrame α)) :=
  let a := h.arq.getD (.newEntry cfg)
  let connect := a.sabmeReq = .none ∧ a.tSeqno = 0
  let a := if connect then { a with sabmeReq := .requested }.setRtxTimer else a
  let outs : List (HdlcOutput α) := if connect then [.sendDown (.u .sabme)] else []
  let r := a.inSendBuffer cfg p
  let h := { h with accepted := if r.2 then h.accepted ++ [p] else h.accepted }
  if r.1.sabmeReq = .connected then (r.1.sendMuch cfg).map fun r' => h.finish (some r'.1, outs ++ r'.2)
  else some (h.finish (some r.1, outs))

def handleUA (a : ARQstate α) : Option (Option (ARQstate α) × List (HdlcOutput α)) :=
  if a.tSeqno = 0 ∧ a.sabmeReq = .requested then
    (({ a with sabmeReq := .connected } : ARQstate α).cancelRtxTimer.sendMuch cfg).map fun r => (some r.1, r.2 ++ [.free])
  else if a.disconnect then some (none, a.reset cfg ++ [.free])
  else some (some a, [.free])

def handleSABMErequest (entry : Option (ARQstate α)) : Option (ARQstate α) × List (HdlcOutput α) :=
  (some (.newEntry cfg), (entry.elim [] (·.reset cfg)) ++ [.sendDown (.u .ua), .free])

/-- `recvIncoming` of a frame without errors. -/
def recvIncoming : HdlcFrame α → Option (HdlcPeer α × List (HdlcFrame α))
  | .u .sabme => some (h.finish (handleSABMErequest cfg h.arq))
  | f =>
    match h.arq, f with
    | none, .u .disc => none
    | none, _ => some (h, [])
    | some a, .i rseq seq p => (a.recvIframe cfg rseq seq p).map fun r => h.finish (some r.1, r.2)
    | some a, .s .rr seqno => (a.handleRR cfg seqno).map fun r => h.finish (some r.1, r.2)
    | some a, .s .rej seqno => (a.handleREJ cfg seqno).map fun r => h.finish (some r.1, r.2)
    | some a, .s .rnr _ => some (h.finish (some a, []))
    | some a, .s .srej seqno => (a.handleSREJ cfg seqno).map fun r => h.finish (some r.1, r.2)
    | some a, .u .disc => some (h.finish (none, a.reset cfg ++ [.sendDown (.u .ua), .free]))
    | some a, .u _ => (handleUA cfg a).map h.finish

/-- A packet from above, or a timer that expires if it is pending. -/
def act : HdlcEvent α → Option (HdlcPeer α × List (HdlcFrame α))
  | .recvOutgoing p => h.recvOutgoing cfg p
  | ev =>
    match h.arq, ev with
    | none, _ => some (h, [])
    | some a, .rtxTimer => if a.rtxTimer then (a.timeout cfg).map h.finish else some (h, [])
    | some a, .delayTimer =>
      if a.delayTimer then
        let r := a.delayTimeout cfg
        some (h.finish (some r.1, r.2))
      else some (h, [])
    | some a, _ => if a.resetTimer then some (h.finish (none, a.reset cfg)) else some (h, [])

end HdlcPeer

/-! ### Two agents and the link -/

inductive Station
  | one
  | two
  deriving DecidableEq

def Station.peer : Station → Station
  | .one => .two
  | .two => .one

abbrev HdlcNetwork (α : Type*) := Network Station (HdlcPeer α) (HdlcFrame α)

/-- Each frame goes to the other agent. -/
def hdlcHandlers (cfg : HdlcConfig) : Handlers Station (HdlcPeer α) (HdlcFrame α) (HdlcEvent α) Unit where
  act n h ev := (h.act cfg ev).map fun r => (r.1, r.2.map fun f => (n.peer, f))
  receive n h f _ := (h.recvIncoming cfg f).map fun r => (r.1, r.2.map fun f => (n.peer, f))

def HdlcNetwork.init : HdlcNetwork α := ⟨fun _ => .init, []⟩

end NetworkSimulator
