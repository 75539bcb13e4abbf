import Mathlib
import NetworkSimulator.Tcp.FullTcp

/-!
# `FullTcpAgent::recv`

The reception path of `tcp/tcp-full.cc`, cut at its labels: header prediction, the two states that
wait for a SYN, the trimming of what was received before, the ACK and, from `step6` on, the data and
the FIN.
-/

namespace NetworkSimulator

def TCP_PAWS_IDLE : ℚ := 24 * 24 * 60 * 60

namespace FullTcpAgent
variable {κ : Type*} (c : FullTcpConfig κ) (now : ℚ)

def dooptions (p : TcpPacket) (s : FullTcpAgent κ) : FullTcpAgent κ :=
  let synTs : Bool := c.tsOption ∧ !p.noTs ∧ 0 ≤ p.ts ∧ p.has TH_SYN
  { s with
    recent := if synTs then p.ts else s.recent
    recentAge := if synTs then now else s.recentAge }

def predictOk (p : TcpPacket) (s : FullTcpAgent κ) : Bool :=
  s.state = .established ∧ p.flags &&& (TH_SYN ||| TH_FIN ||| TH_ACK) = TH_ACK ∧ !s.needfin ∧
    (!c.tsOption ∨ p.noTs ∨ p.ts ≥ s.recent) ∧ p.seqno = s.rcvNxt ∧ s.tSeqno = s.maxseq ∧
    (!c.ecn ∨ !p.ecnecho) ∧ p.saLength = 0

def newack (p : TcpPacket) (s : FullTcpAgent κ) : FullTcpAgent κ :=
  let progress : Bool := p.ackno > s.highestAck
  let s := { s with
    rtxPending := if p.ackno = s.maxseq then false else s.rtxPending || progress
    highestAck := if progress then p.ackno else s.highestAck
    acks := if progress then .advanced :: s.acks else s.acks }
  let endBackoff : Bool := !p.noTs ∧ (!s.ect ∨ !s.ecnBackoff ∨ !p.ecnecho)
  let echoed : Bool := !p.noTs ∧ c.tsOption
  let timed : Bool := !p.noTs ∧ !c.tsOption ∧ s.rttActive ∧ p.ackno > s.rttSeq
  let window :=
    if echoed then c.rttUpdate (now - p.tsEcho) s.window
    else if timed then c.rttUpdate (now - s.rttTs) s.window
    else s.window
  { s with
    tSeqno := if s.tSeqno < s.highestAck then s.highestAck else s.tSeqno
    recentAge := if echoed then now else s.recentAge
    recent := if echoed then p.ts else s.recent
    rttActive := s.rttActive && !timed
    window := if endBackoff then c.endBackoff window else window
    ecnBackoff := s.ecnBackoff && !endBackoff }

/-- `pack`. -/
def pack (p : TcpPacket) (s : FullTcpAgent κ) : Bool :=
  s.fastrecov ∧ p.ackno ≥ s.highestAck ∧ p.ackno < s.recover

def dropafterack (s : FullTcpAgent κ) : Option (FullTcpAgent κ) :=
  sendMuch c now { s with acknow := true } true c.maxburst

def dropwithreset (p : TcpPacket) (tiflags : ℕ) (datalen : ℤ) (s : FullTcpAgent κ) :
    FullTcpAgent κ :=
  if tiflags &&& TH_ACK ≠ 0 then sendpacket c now s p.ackno 0 0 0
  else
    let ack := p.seqno + datalen
    sendpacket c now s 0 (if tiflags &&& TH_SYN ≠ 0 then ack - 1 else ack) TH_ACK 0

/-- The first part of `step6`: the data is delivered or queued. Beside the agent this gives the flags
that go on and whether output is needed. -/
def dodata (p : TcpPacket) (tiflags : ℕ) (datalen : ℤ) (needoutput : Bool) (s : FullTcpAgent κ) :
    Option (FullTcpAgent κ × ℕ × Bool) :=
  if (datalen > 0 ∨ tiflags &&& TH_FIN ≠ 0) ∧ !s.state.haveRcvdFin then
    if p.seqno = s.rcvNxt ∧ s.rq.empty then
      -- the packet we were looking for, nobody is in the queue
      let s := { s with
        delack := true
        rq := { s.rq with rcvNxt := s.rcvNxt + datalen }
        delivered := if datalen ≠ 0 then datalen :: s.delivered else s.delivered }
      some (s, p.flags &&& TH_FIN, needSend c s)
    else
      (s.rq.reass s.state p.seqno (p.size - p.hlen) p.flags).map fun (rq, tiflags) =>
        let s := { s with
          rq := rq
          delivered :=
            if rq.rcvNxt > s.rcvNxt then (rq.rcvNxt - s.rcvNxt) :: s.delivered else s.delivered
          acknow := true }
        (s, tiflags, if tiflags &&& TH_PUSH ≠ 0 then needSend c s else needoutput)
  else some (s, clearFlags tiflags TH_FIN, needoutput)

/-- The second part of `step6`: a FIN has been received. -/
def finReceived (s : FullTcpAgent κ) : FullTcpAgent κ :=
  let s :=
    if s.state.haveRcvdFin then s
    else { s with acknow := true, rq := { s.rq with rcvNxt := s.rcvNxt + 1 } }
  match s.state with
  | .synReceived | .established => { s with state := .closeWait }
  | .finWait1 => { s with state := .closing }
  | .finWait2 => cancelTimers { s with state := .closed }
  | _ => s

/-- What is sent before `recv` returns. -/
def finishRecv (needoutput : Bool) (s : FullTcpAgent κ) : Option (FullTcpAgent κ) :=
  (if needoutput ∨ s.acknow then sendMuch c now s true c.maxburst
    else if s.curseq ≥ s.highestAck ∨ s.infiniteSend then sendMuch c now s false c.maxburst
    else some s).bind fun s =>
  if !c.halfclose ∧ s.state = .closeWait ∧ s.highestAck = s.maxseq then usrclosed c now s else some s

def step6 (p : TcpPacket) (tiflags : ℕ) (datalen : ℤ) (needoutput : Bool) (s : FullTcpAgent κ) :
    Option (FullTcpAgent κ) :=
  (dodata c p tiflags datalen needoutput s).bind fun (s, tiflags, needoutput) =>
    finishRecv c now needoutput (if tiflags &&& TH_FIN ≠ 0 then finReceived s else s)

/-- The part of `process_ACK` up to the closing states. -/
def ackReceived (p : TcpPacket) (tiflags : ℕ) (s : FullTcpAgent κ) : FullTcpAgent κ :=
  let s := newack c now p s
  let partialAck := pack p s
  let s := if partialAck then packAction c s else ackAction c s
  let s :=
    if p.ecnecho ∧ tiflags &&& TH_SYN = 0 then
      let s := ecnAction c s s.highestAck
      if s.window.cwnd < 1 then setRtxTimer s else s
    else s
  if p.ackno ≠ s.highestAck + 1 ∧ (!c.delayGrowth ∨ s.rcvNxt > 0) ∧ s.lastState = .established ∧
      (!partialAck ∨ c.openCwndOnPack) ∧ (!s.ect ∨ !p.ecnecho) then
    { s with window := c.opencwnd s.window }
  else s

def processAck (p : TcpPacket) (tiflags : ℕ) (datalen : ℤ) (s : FullTcpAgent κ) :
    Option (FullTcpAgent κ) :=
  if p.ackno > s.maxseq then dropafterack c now s
  else
    let s := ackReceived c now p tiflags s
    let needoutput : Bool := p.ackno = s.maxseq
    -- only a SYN was ACKed
    if p.ackno = s.highestAck + 1 then step6 c now p tiflags datalen needoutput s
    else
      match s.state, decide (p.ackno = s.maxseq) with
      | .finWait1, true =>
        step6 c now p tiflags datalen false (cancelTimers { s with state := .finWait2 })
      | .closing, true =>
        step6 c now p tiflags datalen needoutput (cancelTimers { s with state := .closed })
      | .lastAck, true => reset c { s with state := .closed }
      | _, _ => step6 c now p tiflags datalen needoutput s

/-- The ACK of a segment in a state behind SYN_RECEIVED. -/
def recvAck (p : TcpPacket) (tiflags : ℕ) (datalen : ℤ) (dupseg : Bool) (s : FullTcpAgent κ) :
    Option (FullTcpAgent κ) :=
  let s := { s with
    recentCe := if c.ecn then (if p.ce ∧ p.ect then true else if p.congAction then false
      else s.recentCe) else s.recentCe }
  if p.ackno ≤ s.highestAck then
    if datalen = 0 ∧ (!c.dupsegFix ∨ !dupseg) then
      if !s.rtxPending ∨ p.ackno < s.highestAck then
        step6 c now p tiflags datalen false (oldack s)
      else
        let s := { s with dupacks := s.dupacks + 1, acks := .counted p.ackno :: s.acks }
        if s.dupacks = c.tcprexmtthresh then some (dupackAction c now s)
        else if s.dupacks > c.tcprexmtthresh then
          sendMuch c now (extraAck c s) false c.maxburst
        else step6 c now p tiflags datalen false s
    else
      let s := if c.dupackReset then { s with dupacks := 0, fastrecov := false } else s
      step6 c now p tiflags datalen false s
  else processAck c now p tiflags datalen s

/-- What goes on of a segment after the data received before has been cut off. -/
structure Trimmed where
  packet : TcpPacket
  tiflags : ℕ
  datalen : ℤ
  dupseg : Bool

/-- The trimming of a segment that starts before `rcv_nxt_`. -/
def trim (rcvNxt : ℤ) (p : TcpPacket) : Trimmed :=
  let datalen := p.size - p.hlen
  let todrop := rcvNxt - p.seqno
  if todrop > 0 ∧ (p.has TH_SYN ∨ datalen > 0) then
    let tiflags := clearFlags p.flags TH_SYN
    let todrop := if p.has TH_SYN then todrop - 1 else todrop
    -- the SYN is taken off the packet, and a byte off its size
    let p := if p.has TH_SYN then { p with seqno := p.seqno + 1, size := p.size - 1 } else p
    let dupseg : Bool := todrop > datalen ∨ todrop = datalen ∧ tiflags &&& TH_FIN = 0
    let tiflags := if dupseg then clearFlags tiflags TH_FIN else tiflags
    let todrop := if dupseg then datalen else todrop
    { packet := { p with seqno := p.seqno + todrop, size := p.size - todrop }
      tiflags := tiflags
      datalen := datalen - todrop
      dupseg := dupseg }
  else ⟨p, p.flags, datalen, false⟩

/-- A segment in a state behind LISTEN and SYN_SENT, after the trimming. -/
def recvTrimmed (p : TcpPacket) (tiflags : ℕ) (datalen : ℤ) (dupseg : Bool) (s : FullTcpAgent κ) :
    Option (FullTcpAgent κ) :=
  if tiflags &&& TH_SYN ≠ 0 then some (dropwithreset c now p tiflags datalen s)
  else if tiflags &&& TH_ACK = 0 then some s
  else if s.state = .synReceived then
    let marked : Bool := c.ecn ∧ s.ect ∧ c.ecnSyn ∧ p.ecnecho
    if p.ackno < s.highestAck ∨ p.ackno > s.maxseq then
      some (dropwithreset c now p tiflags datalen s)
    else if marked ∧ c.ecnSynWait = 2 then
      -- another SYN+ACK is sent and the ACK is dropped
      let s := (foutput c now (cancelRtxTimer { s with ecnSynNext := false }) c.iss).1
      some { s with window := c.windowOfOne s.window }
    else
      let cwnd :=
        if marked ∧ c.ecnSynWait < 2 then (if c.ecnSynWait = 1 then 1 else 2)
        else c.initialWindow s.window
      recvAck c now p tiflags datalen dupseg
        { s with
          window := { s.window with cwnd := cwnd }
          state := if s.needfin then .finWait1 else .established
          needfin := false }
  else recvAck c now p tiflags datalen dupseg s

/-- A segment in a state behind LISTEN and SYN_SENT. -/
def recvSegment (p : TcpPacket) (s : FullTcpAgent κ) : Option (FullTcpAgent κ) :=
  let stale : Bool := c.tsOption ∧ !p.noTs ∧ s.recent ≠ 0 ∧ p.ts < s.recent
  if stale ∧ ¬now - s.recentAge > TCP_PAWS_IDLE then dropafterack c now s
  else
    let s := { s with recent := if stale then 0 else s.recent }
    let r := trim s.rcvNxt p
    let fresh : Bool := c.tsOption ∧ !p.noTs ∧ r.packet.seqno ≤ s.lastAckSent
    recvTrimmed c now r.packet r.tiflags r.datalen r.dupseg
      { s with
        acknow := s.acknow || r.dupseg
        recentAge := if fresh then now else s.recentAge
        recent := if fresh then p.ts else s.recent }

/-- A segment in LISTEN. -/
def recvListen (p : TcpPacket) (s : FullTcpAgent κ) : Option (FullTcpAgent κ) :=
  let datalen := p.size - p.hlen
  if p.has TH_ACK then some (dropwithreset c now p p.flags datalen s)
  else if !p.has TH_SYN then some s
  else
    let s := dooptions c now p s
    let s := { s with
      irs := p.seqno
      tSeqno := c.iss
      rq := { s.rq with rcvNxt := p.seqno + datalen + 1 } -- `rcvseqinit`
      acknow := true
      ect := s.ect || (c.ecn && p.ecnecho && p.congAction)
      state := .synReceived }
    step6 c now { p with seqno := p.seqno + 1 } p.flags datalen false s

/-- A segment in SYN_SENT. -/
def recvSynSent (p : TcpPacket) (s : FullTcpAgent κ) : Option (FullTcpAgent κ) :=
  let datalen := p.size - p.hlen
  if p.has TH_ACK ∧ (p.ackno ≤ c.iss ∨ p.ackno > s.maxseq) then
    some (dropwithreset c now p p.flags datalen s)
  else if !p.has TH_SYN then some s
  else if p.has TH_ACK ∧ c.ecn ∧ p.ecnecho ∧ !p.congAction ∧ c.ecnSynWait = 2 ∧ p.ce then
    some (sendpacket c now (setRtxTimer s) s.tSeqno s.rcvNxt (TH_ACK ||| TH_ECE) 0)
  else
    let s := { s with irs := p.seqno, rq := { s.rq with rcvNxt := p.seqno + datalen + 1 } }
    if p.has TH_ACK then
      let marked := c.ecn && p.ecnecho && !p.congAction
      let tiflags := if s.needfin then clearFlags p.flags TH_SYN else p.flags
      let s := { s with
        ect := s.ect || marked
        recentCe := s.recentCe || (marked && p.ce)
        highestAck := p.ackno
        acks := .advanced :: s.acks
        window := { s.window with cwnd := c.initialWindow s.window }
        delack := s.delack || datalen > 0
        acknow := s.acknow || ¬datalen > 0
        state := if s.needfin then .finWait1 else .established
        needfin := false }
      let s := sendpacket c now s s.tSeqno s.rcvNxt TH_ACK 0
      processAck c now { p with seqno := p.seqno + 1 } tiflags datalen s
    else
      let s := cancelRtxTimer { s with
        ect := s.ect || (c.ecn && p.ecnecho && p.congAction)
        acknow := true
        state := .synReceived
        tSeqno := s.tSeqno - 1 }
      step6 c now { p with seqno := p.seqno + 1 } p.flags datalen false s

/-- The path behind header prediction. -/
def recvSlow (p : TcpPacket) (s : FullTcpAgent κ) : Option (FullTcpAgent κ) :=
  match s.state with
  | .listen => recvListen c now p s
  | .synSent => recvSynSent c now p s
  | .lastAck => if p.has TH_FIN then some s else recvSegment c now p s
  | _ => recvSegment c now p s

/-- A pure ACK that header prediction takes. -/
def predictsAck (p : TcpPacket) (s : FullTcpAgent κ) : Bool :=
  !c.nopredict ∧ predictOk c p s ∧ p.size - p.hlen = 0 ∧ p.ackno > s.highestAck ∧
    p.ackno < s.maxseq ∧ s.window.cwnd ≥ s.window.wnd ∧ !s.fastrecov

/-- In-order data that header prediction takes. -/
def predictsData (p : TcpPacket) (s : FullTcpAgent κ) : Bool :=
  !c.nopredict ∧ predictOk c p s ∧ p.size - p.hlen ≠ 0 ∧ p.ackno = s.highestAck ∧ s.rq.empty

/-- What header prediction notes, whether or not it takes the packet. -/
def predicted (p : TcpPacket) (s : FullTcpAgent κ) : FullTcpAgent κ :=
  if !c.nopredict ∧ predictOk c p s then
    let fresh : Bool := c.tsOption ∧ !p.noTs ∧ p.seqno ≤ s.lastAckSent
    { s with
      recentAge := if fresh then now else s.recentAge
      recent := if fresh then p.ts else s.recent
      recentCe := if c.ecn then (if p.ce ∧ p.ect then true else if p.congAction then false
        else s.recentCe) else s.recentCe }
  else s

def recv (p : TcpPacket) (s : FullTcpAgent κ) : Option (FullTcpAgent κ) :=
  let s := { s with lastState := s.state }
  let datalen := p.size - p.hlen
  if s.state = .closed ∧ p.has TH_FIN then dropafterack c now s
  else if s.state = .closed then some s
  else
    let s := if s.state = .listen then s else dooptions c now p s
    let s := { s with delackPending := s.delackPending || c.delackInterval > 0 }
    if predictsAck c p s then sendMuch c now (newack c now p (predicted c now p s)) false c.maxburst
    else if predictsData c p s then
      let s := predicted c now p s
      let s := { s with
        rq := { s.rq with rcvNxt := s.rcvNxt + datalen }
        delack := true
        delivered := datalen :: s.delivered }
      if needSend c s then sendMuch c now s true c.maxburst else some s
    else recvSlow c now p (predicted c now p s)

/-- What happens to the agent. -/
inductive TcpEvent
  | recv (p : TcpPacket)
  | timeout (timer : Timer)
  | sendmsg (nbytes : ℤ) (msgEof datEof : Bool)
  | close
  | listen

def pending (s : FullTcpAgent κ) : Timer → Bool
  | .rtx => s.rtxPending
  | .delsnd => s.delsndPending
  | .delack => s.delackPending

/-- The agent at an event and the time of the event. -/
def step (s : FullTcpAgent κ) (e : ℚ × TcpEvent) : Option (FullTcpAgent κ × Unit) :=
  (match e.2 with
  | .recv p => recv c e.1 p s
  | .timeout timer => if s.pending timer then timeout c e.1 s timer else none
  | .sendmsg nbytes msgEof datEof => sendmsg c e.1 s nbytes msgEof datEof
  | .close => usrclosed c e.1 s
  | .listen => some s.listen).map fun s => (s, ())

end FullTcpAgent

end NetworkSimulator
