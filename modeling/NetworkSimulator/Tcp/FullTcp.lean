import Mathlib.Algebra.Order.Round
import Mathlib.Data.Rat.Floor
import NetworkSimulator.Tcp.Reass

/-!
# `FullTcpAgent`

The agent of `tcp/tcp-full.h` in its base variant: what it keeps, how it sends, and what the user and
the timers ask of it. `recv` is in `FullTcpRecv`.

The doubles that `opencwnd`, `slowdown` and the round trip estimator of `tcp/tcp.cc` compute are taken
as rationals and these functions as parameters. A timer is known by whether it is pending.
-/

namespace NetworkSimulator

/-- The header fields of a packet that the agent reads and writes. -/
structure TcpPacket where
  seqno : ℤ
  ackno : ℤ
  flags : ℕ
  size : ℤ
  hlen : ℤ
  saLength : ℕ
  ts : ℚ
  tsEcho : ℚ
  noTs : Bool
  ecnecho : Bool
  ce : Bool
  ect : Bool
  /-- `cong_action()`, which is also `cwr()`. -/
  congAction : Bool

/-- The windows and the round trip time. -/
structure Window (κ : Type*) where
  cwnd : ℚ
  wnd : ℚ
  ssthresh : ℤ
  rtxcur : ℚ
  bootTime : ℚ
  /-- What else the functions of `tcp.cc` keep between calls. -/
  other : κ

/-- The bound variables, and the functions of `tcp.cc` on doubles. -/
structure FullTcpConfig (κ : Type*) where
  iss : ℤ
  segsPerAck : ℤ
  spaThresh : ℤ
  tcprexmtthresh : ℤ
  nodelay : Bool
  dataOnSyn : Bool
  dupsegFix : Bool
  dupackReset : Bool
  halfclose : Bool
  nopredict : Bool
  pipectrl : Bool
  openCwndOnPack : Bool
  renoFastrecov : Bool
  bugFix : Bool
  delayGrowth : Bool
  slowStartRestart : Bool
  restartBugfix : Bool
  tsOption : Bool
  tsOptionSize : ℤ
  tcpipBaseHdrSize : ℤ
  tcpTick : ℚ
  delackInterval : ℚ
  overhead : ℚ
  maxburst : ℕ
  ecn : Bool
  ecnSyn : Bool
  ecnSynWait : ℕ
  setCWRonRetransmit : Bool
  initialWindow : Window κ → ℚ
  opencwnd : Window κ → Window κ
  slowdown : ℕ → Window κ → Window κ
  rttUpdate : ℚ → Window κ → Window κ
  rttBackoff : Window κ → Window κ
  /-- `t_backoff_ = 1`. -/
  endBackoff : Window κ → Window κ
  /-- The ACK of a marked SYN+ACK sets `wnd_init_option_` and `wnd_init_` to 1. -/
  windowOfOne : Window κ → Window κ
  /-- What `TcpAgent::reset` does to the windows and `rtt_init` to the round trip time. -/
  resetWindow : Window κ → Window κ
  /-- A bound on the iterations of `send_much`. -/
  fuel : ℕ

/-- What happens to `dupacks_` and `highest_ack_`. -/
inductive AckEvent
  /-- `++dupacks_` for an ACK of this number. -/
  | counted (ackno : ℤ)
  /-- `highest_ack_` has moved. -/
  | advanced
  /-- `dupack_action()` with this `highest_ack_`. -/
  | dupackAction (highestAck : ℤ)
deriving DecidableEq

/-- `rq_` knows `rcv_nxt_` by reference, so it is kept there. -/
structure FullTcpAgent (κ : Type*) where
  state : TcpState
  lastState : TcpState
  rq : ReassemblyQueue
  irs : ℤ
  highestAck : ℤ
  maxseq : ℤ
  tSeqno : ℤ
  curseq : ℤ
  dupacks : ℤ
  fastrecov : Bool
  recover : ℤ
  lastCwndAction : ℕ
  congAction : Bool
  /-- `TF_ACKNOW`, `TF_DELACK`, `TF_NEEDFIN` and `TF_NEEDCLOSE` of `flags_`. -/
  acknow : Bool
  delack : Bool
  needfin : Bool
  needclose : Bool
  ect : Bool
  recentCe : Bool
  ecnBackoff : Bool
  ecnSynNext : Bool
  recent : ℚ
  recentAge : ℚ
  lastAckSent : ℤ
  lastSendTime : ℚ
  rttActive : Bool
  rttSeq : ℤ
  rttTs : ℚ
  rtxPending : Bool
  delsndPending : Bool
  delackPending : Bool
  infiniteSend : Bool
  closeOnEmpty : Bool
  signalOnEmpty : Bool
  maxseg : ℤ
  size : ℤ
  window : Window κ
  /-- The packets that were sent, the last one first. -/
  sent : List TcpPacket
  /-- The arguments of the calls of `recvBytes`, the last one first. -/
  delivered : List ℤ
  /-- The history of the duplicate ACKs, the last event first. -/
  acks : List AckEvent

def CWND_ACTION_DUPACK : ℕ := 1
def CWND_ACTION_TIMEOUT : ℕ := 2
def CWND_ACTION_ECN : ℕ := 3

def CLOSE_SSTHRESH_HALF : ℕ := 0x01
def CLOSE_CWND_HALF : ℕ := 0x02
def CLOSE_CWND_RESTART : ℕ := 0x04
def CLOSE_CWND_INIT : ℕ := 0x08
def CLOSE_CWND_ONE : ℕ := 0x10

def REASON_NORMAL : ℕ := 0
def REASON_DUPACK : ℕ := 2
def PF_TIMEOUT : ℕ := 0x04

def TCP_MAXSEQ : ℤ := 1073741824

/-- `flags & ~bits`. -/
def clearFlags (flags bits : ℕ) : ℕ := flags ^^^ (flags &&& bits)

/-- The conversion `(int) x`. -/
def doubleToInt (x : ℚ) : ℤ := if 0 ≤ x then ⌊x⌋ else ⌈x⌉

def TcpPacket.has (p : TcpPacket) (bits : ℕ) : Bool := p.flags &&& bits ≠ 0

namespace FullTcpAgent
variable {κ : Type*} (c : FullTcpConfig κ) (now : ℚ) (s : FullTcpAgent κ)

def rcvNxt : ℤ := s.rq.rcvNxt

def headersize : ℤ := c.tcpipBaseHdrSize + if c.tsOption then c.tsOptionSize else 0

/-- `window()`. -/
def win : ℤ :=
  if s.window.cwnd < s.window.wnd then doubleToInt s.window.cwnd else doubleToInt s.window.wnd

def setRtxTimer : FullTcpAgent κ := { s with rtxPending := true }

def cancelRtxTimer : FullTcpAgent κ := { s with rtxPending := false }

def cancelTimers : FullTcpAgent κ :=
  { s with rtxPending := false, delsndPending := false, delackPending := false }

def slowdown (how : ℕ) : FullTcpAgent κ :=
  { s with
    window := c.slowdown how s.window
    congAction := s.congAction || how &&& (CLOSE_CWND_HALF ||| CLOSE_CWND_RESTART |||
      CLOSE_CWND_INIT ||| CLOSE_CWND_ONE) ≠ 0 }

/-- `outflags`. -/
def outflags : ℕ :=
  match s.state with
  | .closed => TH_ACK
  | .listen => 0
  | .synSent => TH_SYN
  | .synReceived => TH_SYN ||| TH_ACK
  | .established => TH_ACK
  | .closeWait => TH_ACK
  | .finWait1 => TH_FIN ||| TH_ACK
  | .closing => TH_FIN ||| TH_ACK
  | .lastAck => TH_FIN ||| TH_ACK
  | .finWait2 => TH_ACK

def needSend : Bool :=
  if s.acknow then true
  else
    let spa := if c.spaThresh > 0 ∧ s.rcvNxt - s.irs < c.spaThresh then 1 else c.segsPerAck
    s.rcvNxt - s.lastAckSent ≥ spa * s.maxseg

def idleRestart : Bool :=
  if s.lastSendTime < 0 then false
  else
    let tao := now - s.lastSendTime
    let sendtime := s.lastSendTime + s.window.bootTime
    let tickoff := sendtime - c.tcpTick * doubleToInt (sendtime / c.tcpTick) -- `fmod`
    let tao := if c.tsOption then tao else doubleToInt ((tao + tickoff) / c.tcpTick) * c.tcpTick
    tao > s.window.rtxcur

def sendpacket (seqno ackno : ℤ) (pflags : ℕ) (datalen : ℤ) : FullTcpAgent κ :=
  let ect :=
    if datalen > 0 ∧ c.ecn then s.ect
    else if c.ecn ∧ c.ecnSyn ∧ s.ecnSynNext ∧ pflags &&& TH_SYN ≠ 0 ∧ pflags &&& TH_ACK ≠ 0 then s.ect
    else false
  -- the ECE bit goes to `hdr_flags` only
  let ece := if c.ecn ∧ s.ect ∧ s.recentCe then pflags ||| TH_ECE else pflags
  let hlen := headersize c
  let p : TcpPacket := {
    seqno := seqno
    ackno := ackno
    flags := pflags
    size := datalen + hlen
    hlen := hlen
    saLength := 0
    ts := if c.tsOption then now else -1
    tsEcho := if c.tsOption then s.recent else -1
    noTs := false
    ecnecho := ece &&& TH_ECE ≠ 0
    ce := false
    ect := ect
    congAction := ece &&& TH_CWR ≠ 0 }
  { s with
    sent := p :: s.sent
    lastSendTime := if datalen > 0 then now else s.lastSendTime
    lastAckSent := ackno }

/-- The part of `foutput` behind the label `send`. -/
def foutputSend (seqno datalen : ℤ) (pflags : ℕ) (isRetransmit : Bool) : FullTcpAgent κ × ℤ :=
  let syn : ℤ := if pflags &&& TH_SYN ≠ 0 then 1 else 0
  let fin : ℤ := if pflags &&& TH_FIN ≠ 0 then 1 else 0
  let pflags := if c.ecn ∧ syn = 1 ∧ pflags &&& TH_ACK = 0 then pflags ||| TH_ECE ||| TH_CWR else pflags
  let cwr : Bool := c.ecn ∧ s.ect ∧ s.congAction ∧ (!isRetransmit ∨ c.setCWRonRetransmit)
  let synAck : Bool := c.ecn ∧ syn = 1 ∧ pflags &&& TH_ACK ≠ 0
  let pflags :=
    if synAck then clearFlags (pflags ||| TH_ECE) TH_CWR
    else if cwr then pflags ||| TH_CWR else pflags
  let s := { s with congAction := s.congAction && (synAck || !cwr) }
  let pflags := if datalen > 0 ∧ s.congAction ∧ !isRetransmit then pflags ||| TH_CWR else pflags
  let pflags := if c.ecn ∧ s.ect ∧ s.recentCe then pflags ||| TH_ECE else pflags
  -- a FIN on the last data of a connection that is closed on empty
  let closing : Bool := s.needclose && s.state.upToEstablished
  let pflags := if closing then pflags ||| TH_FIN else pflags
  let fin := if closing then 1 else fin
  let s := { s with
    needclose := false
    state := if closing then .finWait1 else s.state }
  let s := sendpacket c now s seqno s.rcvNxt pflags datalen
  let reliable := datalen + syn + fin -- sequence numbers reliably sent
  let highest := seqno + reliable
  let timed : Bool := highest > s.maxseq ∧ !c.tsOption ∧ !s.rttActive
  ({ s with
      acknow := false
      delack := false
      congAction := s.congAction && !(reliable > 0 ∧ !isRetransmit)
      maxseq := if highest > s.maxseq then highest else s.maxseq
      rttActive := s.rttActive || timed
      rttSeq := if timed then seqno else s.rttSeq
      rttTs := if timed then now else s.rttTs
      rtxPending := s.rtxPending || reliable ≠ 0 }, reliable)

/-- `foutput`: the segment at `seqno` is sent if there is a reason to, and the sequence numbers it
took are counted. -/
def foutput (seqno : ℤ) : FullTcpAgent κ × ℤ :=
  let s := { s with
    maxseg := if s.maxseg = 0 then s.size - headersize c else s.maxseg
    size := if s.maxseg = 0 then s.size else s.maxseg + headersize c }
  let isRetransmit : Bool := seqno < s.maxseq
  let quiet : Bool := s.highestAck = s.maxseq
  let pflags := outflags s
  let syn : Bool := seqno = c.iss
  let win := s.win * s.maxseg
  let bufferedBytes :=
    if s.infiniteSend then TCP_MAXSEQ
    else if s.highestAck < 0 then s.curseq - c.iss -- no ACK has been received yet
    else s.curseq - s.highestAck + 1
  let off := if s.highestAck < 0 then seqno - c.iss else seqno - s.highestAck
  let datalen :=
    if syn ∧ !c.dataOnSyn then 0
    else if c.pipectrl then bufferedBytes - off
    else min bufferedBytes win - off
  let datalen := if datalen < 0 then 0 else if datalen > s.maxseg then s.maxseg else datalen
  let restart : Bool := c.slowStartRestart ∧ quiet ∧ datalen > 0 ∧ idleRestart c now s
  let emptyingBuffer : Bool :=
    !s.infiniteSend ∧ (seqno + datalen > s.curseq ∨ syn ∧ datalen = 0)
  let s := { s with
    signalOnEmpty := s.signalOnEmpty && !(bufferedBytes = 0 ∧ !syn) -- `bufferempty`
    window := if restart then c.slowdown CLOSE_CWND_INIT s.window else s.window
    congAction := s.congAction || restart
    needclose := s.needclose || (emptyingBuffer && !syn && s.closeOnEmpty && quiet) }
  let pflags := if emptyingBuffer then pflags ||| TH_PUSH else clearFlags pflags TH_FIN
  let pflags := if s.infiniteSend ∧ syn ∧ datalen = 0 then pflags ||| TH_PUSH else pflags
  if datalen > 0 ∧ (datalen = s.maxseg ∨ (quiet ∨ c.nodelay) ∧ emptyingBuffer ∨ isRetransmit ∨
        (datalen : ℚ) ≥ s.window.wnd * s.maxseg / 2) ∨
      needSend c s ∨ s.acknow ∨ s.needclose ∨ pflags &&& (TH_SYN ||| TH_FIN) ≠ 0 then
    foutputSend c now s seqno datalen pflags isRetransmit
  else (s, 0)

/-- `sent`. -/
def sentUpTo (seq amt : ℤ) : FullTcpAgent κ :=
  { s with tSeqno := if seq = s.tSeqno then s.tSeqno + amt else s.tSeqno }

def sendAllowed (seq : ℤ) : Bool :=
  let win := s.win * s.maxseg
  let topwin :=
    if s.curseq > s.highestAck + win ∨ s.infiniteSend then s.highestAck + win else s.curseq
  seq < topwin

/-- The loop of `send_much`. -/
def sendMuchLoop (maxburst : ℕ) : ℕ → Bool → ℕ → FullTcpAgent κ → Option (FullTcpAgent κ)
  | 0, _, _, _ => none
  | fuel + 1, force, npackets, s =>
    let seq := s.tSeqno
    if !force ∧ !sendAllowed s seq then some s
    else if !force ∧ c.overhead ≠ 0 ∧ !s.delsndPending then some { s with delsndPending := true }
    else
      let r := foutput c now s seq
      if r.2 ≤ 0 then some r.1
      else
        let amt := if outflags r.1 &&& TH_FIN ≠ 0 then r.2 - 1 else r.2 -- don't count FINs
        let s := sentUpTo r.1 seq amt
        if outflags s &&& (TH_SYN ||| TH_FIN) ≠ 0 ∨ maxburst ≠ 0 ∧ npackets + 1 ≥ maxburst then some s
        else sendMuchLoop maxburst fuel false (npackets + 1) s

def sendMuch (force : Bool) (maxburst : ℕ) : Option (FullTcpAgent κ) :=
  if !force ∧ s.delsndPending then some s
  else sendMuchLoop c now maxburst c.fuel force 0 s

/-- `reset_rtx_timer`. -/
def resetRtxTimer : FullTcpAgent κ :=
  { setRtxTimer s with
    window :=
      if s.highestAck = s.maxseq ∧ c.restartBugfix then s.window else c.rttBackoff s.window
    rttActive := false }

def fastRetransmit (seq : ℤ) : FullTcpAgent κ :=
  (foutput c now { s with recover := s.maxseq, lastCwndAction := CWND_ACTION_DUPACK } seq).1

def fullRenoAction : FullTcpAgent κ :=
  let s := slowdown c s (CLOSE_SSTHRESH_HALF ||| CLOSE_CWND_HALF)
  let s := fastRetransmit c now
    (cancelRtxTimer { s with rttActive := false, recover := s.maxseq }) s.highestAck
  { s with window := { s.window with cwnd := s.window.ssthresh + s.dupacks } }

def dupackAction : FullTcpAgent κ :=
  let recovered := s.highestAck > s.recover
  let s := { s with fastrecov := true, acks := .dupackAction s.highestAck :: s.acks }
  if recovered ∨ !c.bugFix ∧ !c.ecn ∨ s.lastCwndAction = CWND_ACTION_DUPACK ∨ s.highestAck = 0 then
    fullRenoAction c now s
  else if c.ecn ∧ s.lastCwndAction = CWND_ACTION_ECN then
    let s := slowdown c s CLOSE_CWND_HALF
    fastRetransmit c now (cancelRtxTimer { s with rttActive := false }) s.highestAck
  else if c.bugFix then s
  else fullRenoAction c now s

/-- `pack_action`, which is also `ack_action`. -/
def packAction : FullTcpAgent κ :=
  let inflated : Bool := c.renoFastrecov ∧ s.fastrecov ∧ s.window.cwnd > s.window.ssthresh
  { s with
    window := { s.window with cwnd := if inflated then s.window.ssthresh else s.window.cwnd }
    fastrecov := false
    dupacks := 0 }

def ackAction : FullTcpAgent κ := packAction c s

def oldack : FullTcpAgent κ := { s with dupacks := 0 }

def extraAck : FullTcpAgent κ :=
  { s with
    window := { s.window with
      cwnd := if c.renoFastrecov then s.window.cwnd + 1 else s.window.cwnd } }

def timeoutAction : FullTcpAgent κ :=
  let s := { s with
    recover := s.maxseq
    window := { s.window with cwnd := if s.window.cwnd < 1 then 1 else s.window.cwnd } }
  let marked : Bool := s.lastCwndAction = CWND_ACTION_ECN
  let s := slowdown c s
    (if marked then CLOSE_CWND_ONE else CLOSE_SSTHRESH_HALF ||| CLOSE_CWND_RESTART)
  let s := { s with
    lastCwndAction := if marked then s.lastCwndAction else CWND_ACTION_TIMEOUT }
  let s := resetRtxTimer c s
  { s with
    tSeqno := if s.highestAck < 0 then c.iss else s.highestAck
    fastrecov := false
    dupacks := 0 }

/-- `ecn` of `tcp.cc`. -/
def ecnAction (seqno : ℤ) : FullTcpAgent κ :=
  if seqno > s.recover ∨ s.lastCwndAction = CWND_ACTION_TIMEOUT then
    let small : Bool := s.window.cwnd ≤ 1
    let s := { s with
      recover := s.maxseq
      lastCwndAction := CWND_ACTION_ECN
      window := if small ∧ s.ecnBackoff then c.rttBackoff s.window else s.window
      ecnBackoff := small }
    slowdown c s (CLOSE_CWND_HALF ||| CLOSE_SSTHRESH_HALF)
  else s

/-- `usrclosed`. -/
def usrclosed : Option (FullTcpAgent κ) :=
  let s := { s with curseq := s.maxseq - 1, infiniteSend := false }
  match s.state with
  | .closed | .listen => some { cancelTimers s with state := .closed }
  | .synSent => sendMuch c now { s with state := .closed, needfin := true } true c.maxburst
  | .lastAck => sendMuch c now { s with needfin := true } true c.maxburst
  | .synReceived | .established =>
    sendMuch c now { s with state := .finWait1, needfin := true } true c.maxburst
  | .closeWait => sendMuch c now { s with state := .lastAck, needfin := true } true c.maxburst
  | .finWait1 | .finWait2 | .closing => some s

/-- `reset`; `none` if `rq_.clear()` fails. -/
def reset : Option (FullTcpAgent κ) :=
  s.rq.clear.map fun rq =>
    { cancelTimers s with
      rq := { rq with rcvNxt := -1 }
      dupacks := 0
      curseq := 0
      tSeqno := c.iss
      maxseq := -1
      highestAck := -1
      recover := 0
      lastCwndAction := 0
      rttSeq := -1
      window := c.resetWindow s.window
      lastAckSent := -1
      acknow := false
      delack := false
      needfin := false
      needclose := false
      irs := -1
      lastSendTime := -1
      recent := if c.tsOption then 0 else -1
      recentAge := if c.tsOption then 0 else -1
      fastrecov := false
      closeOnEmpty := false
      ecnSynNext := c.ecnSyn
      acks := .advanced :: s.acks }

/-- `connect`. -/
def connect : FullTcpAgent κ :=
  let r := foutput c now { s with state := .synSent } c.iss
  sentUpTo r.1 c.iss r.2

/-- `listen`. -/
def listen : FullTcpAgent κ := { s with state := .listen }

/-- `advance_bytes`. -/
def advanceBytes (nb : ℤ) : Option (FullTcpAgent κ) :=
  match s.state with
  | .closed | .listen =>
    -- a new active open
    (reset c s).bind fun s =>
      -- which leaves SYN_SENT, so nothing more is sent
      some (connect c now { s with curseq := c.iss + nb })
  | .established =>
    let curseq := if s.curseq < c.iss then c.iss else s.curseq
    sendMuch c now { s with curseq := curseq + nb } false c.maxburst
  | .synSent | .synReceived =>
    let curseq := if s.curseq < c.iss then c.iss else s.curseq
    some { s with curseq := curseq + nb }
  | _ => some s

/-- `sendmsg`, with the flag strings as Booleans. -/
def sendmsg (nbytes : ℤ) (msgEof datEof : Bool) : Option (FullTcpAgent κ) :=
  let s := { s with
    closeOnEmpty := s.closeOnEmpty || msgEof
    signalOnEmpty := s.signalOnEmpty || datEof }
  if nbytes = -1 then advanceBytes c now { s with infiniteSend := true } 0
  else advanceBytes c now s nbytes

inductive Timer
  | rtx | delsnd | delack

/-- `timeout`, called when the timer expires. -/
def timeout : Timer → Option (FullTcpAgent κ)
  | .rtx =>
    let s := { s with rtxPending := false }
    if s.state = .listen then some s
    else sendMuch c now (timeoutAction c s) true c.maxburst
  | .delsnd =>
    let s := { s with delsndPending := false }
    if s.state = .listen then some s
    else sendMuch c now s true c.maxburst
  | .delack =>
    let s := { s with delackPending := false }
    if s.state = .listen then some s
    else
      (if s.delack then sendMuch c now { s with delack := false, acknow := true } true 0
        else some s).map fun s => { s with delackPending := true }

/-- The agent after its constructor and the first `reset`. -/
def init (m : ReassemblyQueue) (maxseg : ℤ) (window : Window κ) : FullTcpAgent κ where
  state := .closed
  lastState := .closed
  rq := m.init (-1)
  irs := -1
  highestAck := -1
  maxseq := -1
  tSeqno := c.iss
  curseq := 0
  dupacks := 0
  fastrecov := false
  recover := 0
  lastCwndAction := 0
  congAction := false
  acknow := false
  delack := false
  needfin := false
  needclose := false
  ect := false
  recentCe := false
  ecnBackoff := false
  ecnSynNext := c.ecnSyn
  recent := if c.tsOption then 0 else -1
  recentAge := if c.tsOption then 0 else -1
  lastAckSent := -1
  lastSendTime := -1
  rttActive := false
  rttSeq := -1
  rttTs := 0
  rtxPending := false
  delsndPending := false
  delackPending := false
  infiniteSend := false
  closeOnEmpty := false
  signalOnEmpty := false
  maxseg := maxseg
  size := maxseg + headersize c
  window := c.resetWindow window
  sent := []
  delivered := []
  acks := []

end FullTcpAgent

/-- The values of `ns-default.tcl`, with `opencwnd` and `slowdown` as they work with them; the round
trip time is not estimated. -/
def tclDefaults : FullTcpConfig Unit where
  iss := 0
  segsPerAck := 1
  spaThresh := 0
  tcprexmtthresh := 3
  nodelay := false
  dataOnSyn := false
  dupsegFix := true
  dupackReset := false
  halfclose := false
  nopredict := false
  pipectrl := false
  openCwndOnPack := true
  renoFastrecov := true
  bugFix := true
  delayGrowth := true
  slowStartRestart := true
  restartBugfix := true
  tsOption := false
  tsOptionSize := 10
  tcpipBaseHdrSize := 40
  tcpTick := 1 / 100
  delackInterval := 1 / 10
  overhead := 0
  maxburst := 0
  ecn := false
  ecnSyn := false
  ecnSynWait := 0
  setCWRonRetransmit := true
  initialWindow := fun _ => 2
  opencwnd := fun w =>
    { w with cwnd := if w.cwnd < w.ssthresh then w.cwnd + 1 else w.cwnd + 1 / w.cwnd }
  slowdown := fun how w =>
    let halfwin := doubleToInt (min w.cwnd w.wnd) / 2
    let ssthresh := if how &&& CLOSE_SSTHRESH_HALF ≠ 0 then halfwin else w.ssthresh
    { w with
      ssthresh := max ssthresh 2
      cwnd :=
        if how &&& CLOSE_CWND_HALF ≠ 0 then halfwin
        else if how &&& CLOSE_CWND_RESTART ≠ 0 then 1
        else if how &&& CLOSE_CWND_INIT ≠ 0 then 2
        else 1 }
  rttUpdate := fun _ w => w
  rttBackoff := fun w => w
  endBackoff := fun w => w
  windowOfOne := fun w => w
  resetWindow := fun w => { w with cwnd := 1, ssthresh := doubleToInt w.wnd, rtxcur := 3 }
  fuel := 1000

end NetworkSimulator
