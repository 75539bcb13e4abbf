import NetworkSimulator.Mac.Timers

/-!
# The 802.11 MAC

`Mac802_11` in ad-hoc mode: the packets it has to send, the frame it is receiving, its timers, and what packets
from above, frames from the channel and expiring timers do. Times are exact. Of the management frames only beacons
and probe requests occur without an access point. The copy for an end-of-transmission target, energy models and
traces are left out. A failed assertion is `none`.
-/

namespace NetworkSimulator

def MAC_BROADCAST : ℕ := 0xffffffff

def DSSS_MaxPropagationDelay : ℚ := 2 / 1000000

inductive MacState
  | idle
  | recv
  | coll
  | rts
  | cts
  | ack
  | send
  deriving DecidableEq

inductive FrameKind
  | rts
  | cts
  | ack
  | data
  | beacon
  | probeReq
  deriving DecidableEq

/-- A frame with its MAC header, its common header and the power it is received with. -/
structure MacFrame where
  kind : FrameKind
  ra : ℕ
  ta : ℕ
  /-- In microseconds. -/
  duration : ℕ
  scontrol : ℕ
  uid : ℕ
  size : ℕ
  txtime : ℚ
  error : Bool
  /-- Whether `xmit_failure_` is set. -/
  xmitFailure : Bool
  rxPr : ℚ
  cpThresh : ℚ
  deriving DecidableEq

/-- `phymib_`, `macmib_`, the rates and the address of a node. -/
structure MacConfig where
  index : ℕ
  cacheNodeCount : ℕ
  bugFixTimer : Bool
  cwMin : ℕ
  cwMax : ℕ
  slotTime : ℚ
  sifs : ℚ
  preambleLength : ℕ
  plcpHeaderLength : ℕ
  plcpDataRate : ℚ
  basicRate : ℚ
  dataRate : ℚ
  rtsThreshold : ℕ
  shortRetryLimit : ℕ
  longRetryLimit : ℕ

/-- `usec`: a 16-bit number of microseconds. -/
def usec (t : ℚ) : ℕ := (⌊t * 1000000 + 1 / 2⌋ % 2 ^ 16).toNat

def sec (us : ℕ) : ℚ := us / 1000000

namespace MacConfig
variable (cfg : MacConfig)

def difs : ℚ := cfg.sifs + 2 * cfg.slotTime

def plcpHdrLen : ℕ := (cfg.preambleLength + cfg.plcpHeaderLength) / 8

def hdrLen11 : ℕ := cfg.plcpHdrLen + 30 + 4

def rtsLen : ℕ := cfg.plcpHdrLen + 20

def ctsLen : ℕ := cfg.plcpHdrLen + 14

def ackLen : ℕ := cfg.plcpHdrLen + 14

def eifs : ℚ := cfg.sifs + cfg.difs + 8 * cfg.ackLen / cfg.plcpDataRate

/-- `txtime` of a packet of `psz` bytes at a rate. -/
def txtime (psz : ℕ) (drt : ℚ) : ℚ :=
  (cfg.plcpHdrLen * 8 : ℕ) / cfg.plcpDataRate + ((psz : ℤ) - cfg.plcpHdrLen) * 8 / drt

def rtsTime : ℚ := cfg.txtime cfg.rtsLen cfg.basicRate

def ctsTime : ℚ := cfg.txtime cfg.ctsLen cfg.basicRate

def ackTime : ℚ := cfg.txtime cfg.ackLen cfg.basicRate

/-- The values the library comes with, for node 1 of four. -/
def default : MacConfig where
  index := 1
  cacheNodeCount := 4
  bugFixTimer := true
  cwMin := 31
  cwMax := 1023
  slotTime := 20 / 1000000
  sifs := 10 / 1000000
  preambleLength := 144
  plcpHeaderLength := 48
  plcpDataRate := 1000000
  basicRate := 1000000
  dataRate := 1000000
  rtsThreshold := 0
  shortRetryLimit := 7
  longRetryLimit := 4

end MacConfig

inductive MacOutput
  /-- A frame goes on the channel. -/
  | transmit (p : MacFrame)
  | passUp (p : MacFrame)
  | freed (p : MacFrame)
  | dropped (p : MacFrame)
  | logged (p : MacFrame)
  | xmitFailed (p : MacFrame)
  | callback
  deriving DecidableEq

structure Mac80211 where
  now : ℚ
  nav : ℚ
  rxState : MacState
  txState : MacState
  txActive : Bool
  pktTx : Option MacFrame
  pktRTS : Option MacFrame
  pktCTRL : Option MacFrame
  pktRx : Option MacFrame
  callback : Bool
  cw : ℕ
  ssrc : ℕ
  slrc : ℕ
  staSeqno : ℕ
  /-- The last sequence number from each host. -/
  cache : ℕ → ℕ
  mhIF : MacTimer
  mhNav : MacTimer
  mhRecv : MacTimer
  mhSend : MacTimer
  mhDefer : MacTimer
  mhBackoff : BackoffTimer
  /-- The random numbers to come. -/
  random : ℕ → ℕ
  /-- What the upper layer sends from within the callback of this event. -/
  reply : Option MacFrame
  /-- What this event has put out, the latest first. -/
  out : List MacOutput

namespace Mac80211
variable (cfg : MacConfig) (s : Mac80211)

def init (random : ℕ → ℕ) : Mac80211 where
  now := 0
  nav := 0
  rxState := .idle
  txState := .idle
  txActive := false
  pktTx := none
  pktRTS := none
  pktCTRL := none
  pktRx := none
  callback := false
  cw := cfg.cwMin
  ssrc := 0
  slrc := 0
  staSeqno := 1
  cache := fun _ => 0
  mhIF := .free
  mhNav := .free
  mhRecv := .free
  mhSend := .free
  mhDefer := .free
  mhBackoff := .free
  random := random
  reply := none
  out := []

def emit (o : MacOutput) : Mac80211 := { s with out := o :: s.out }

def isIdle : Bool := s.rxState = .idle ∧ s.txState = .idle ∧ ¬s.nav > s.now

/-- `mhBackoff_.start(cw_, is_idle(), difs)` -/
def startBackoff (difs : ℚ) : Option Mac80211 :=
  (s.mhBackoff.start cfg.slotTime s.cw s.isIdle difs s.now (s.random 0)).map fun b =>
    { s with mhBackoff := b, random := fun n => s.random (n + 1) }

def startDefer (time : ℚ) : Option Mac80211 :=
  (s.mhDefer.start s.now time).map fun t => { s with mhDefer := t }

/-- A random number of slots after a DIFS, by one timer or the other. -/
def contend : Option Mac80211 :=
  if cfg.bugFixTimer then s.startBackoff cfg cfg.difs
  else
    { s with random := fun n => s.random (n + 1) }.startDefer
      (cfg.difs + (s.random 0 % s.cw : ℕ) * cfg.slotTime)

def checkBackoffTimer : Option Mac80211 :=
  (if s.isIdle ∧ s.mhBackoff.paused then s.mhBackoff.resume cfg.difs s.now else some s.mhBackoff).bind fun b =>
    (if ¬s.isIdle ∧ b.busy ∧ ¬b.paused then b.pause cfg.slotTime s.now else some b).map fun b =>
      { s with mhBackoff := b }

def setRxState (newState : MacState) : Option Mac80211 :=
  { s with rxState := newState }.checkBackoffTimer cfg

def setTxState (newState : MacState) : Option Mac80211 :=
  { s with txState := newState }.checkBackoffTimer cfg

def incCw : Mac80211 := { s with cw := min (s.cw * 2 + 1) cfg.cwMax }

def rstCw : Mac80211 := { s with cw := cfg.cwMin }

def setNav (us : ℕ) : Option Mac80211 :=
  if s.now + sec us > s.nav then
    (if s.mhNav.busy then s.mhNav.stop else some s.mhNav).bind fun t =>
      (t.start s.now (sec us)).map fun t => { s with nav := s.now + sec us, mhNav := t }
  else some s

/-- Whether a frame that is not wanted is dropped where a trace sees it. -/
def concerns (cfg : MacConfig) (p : MacFrame) : Bool :=
  match p.kind with
  | .rts => p.ta = cfg.index ∨ p.ra = cfg.index
  | .cts => p.ra = cfg.index
  | .ack => p.ra = cfg.index
  | .data => p.ra = cfg.index ∨ p.ta = cfg.index ∨ p.ra = MAC_BROADCAST
  | .beacon => false
  | .probeReq => p.ra = cfg.index

def discarded (cfg : MacConfig) (p : MacFrame) : MacOutput :=
  if p.error then .freed p else if concerns cfg p then .dropped p else .freed p

def discard (p : MacFrame) : Mac80211 := s.emit (discarded cfg p)

def capture (p : MacFrame) : Option Mac80211 :=
  (s.setNav (usec (cfg.eifs + p.txtime))).map (emit · (.freed p))

/-- The part of `collision` behind the fall through. -/
def collide (p : MacFrame) : Option Mac80211 :=
  s.pktRx.bind fun old => asserting s.mhRecv.busy <|
    if p.txtime > s.mhRecv.expire s.now then
      s.mhRecv.stop.bind fun t =>
        (t.start s.now p.txtime).map fun t => { s.discard cfg old with pktRx := some p, mhRecv := t }
    else some (s.discard cfg p)

def collision (p : MacFrame) : Option Mac80211 :=
  match s.rxState with
  | .recv => (s.setRxState cfg .coll).bind fun s => s.collide cfg p
  | .coll => s.collide cfg p
  | _ => none

/-- `transmit`: whatever is being received is lost. -/
def transmit (p : MacFrame) (timeout : ℚ) : Option Mac80211 :=
  let s : Mac80211 := { s with txActive := true }
  (if s.rxState ≠ .idle then s.pktRx.map fun q => { s with pktRx := some { q with error := true } }
    else some s).bind fun s =>
    let s := s.emit (.transmit p)
    (s.mhSend.start s.now timeout).bind fun tSend =>
      (s.mhIF.start s.now p.txtime).map fun tIF => { s with mhSend := tSend, mhIF := tIF }

def sendRTS (dst : ℕ) : Option Mac80211 :=
  s.pktTx.bind fun p => asserting s.pktRTS.isNone <|
    if p.size < cfg.rtsThreshold ∨ dst = MAC_BROADCAST then some s
    else
      some { s with
        pktRTS := some {
          kind := .rts
          ra := dst
          ta := cfg.index
          duration := usec (cfg.sifs + cfg.ctsTime + cfg.sifs + p.txtime + cfg.sifs + cfg.ackTime)
          scontrol := 0
          uid := 0
          size := cfg.rtsLen
          txtime := cfg.rtsTime
          error := false
          xmitFailure := false
          rxPr := 0
          cpThresh := 0 } }

def sendCTS (dst rtsDuration : ℕ) : Option Mac80211 :=
  asserting s.pktCTRL.isNone <| some { s with
    pktCTRL := some {
      kind := .cts
      ra := dst
      ta := 0
      duration := usec (sec rtsDuration - cfg.sifs - cfg.ctsTime)
      scontrol := 0
      uid := 0
      size := cfg.ctsLen
      txtime := cfg.ctsTime
      error := false
      xmitFailure := false
      rxPr := 0
      cpThresh := 0 } }

def sendACK (dst : ℕ) : Option Mac80211 :=
  asserting s.pktCTRL.isNone <| some { s with
    pktCTRL := some {
      kind := .ack
      ra := dst
      ta := 0
      duration := 0
      scontrol := 0
      uid := 0
      size := cfg.ackLen
      txtime := cfg.ackTime
      error := false
      xmitFailure := false
      rxPr := 0
      cpThresh := 0 } }

def sendDATA (p : MacFrame) : Option Mac80211 :=
  asserting s.pktTx.isNone <|
    let size := p.size + cfg.hdrLen11
    some { s with
      pktTx := some { p with
        kind := .data
        size := size
        txtime := cfg.txtime size (if p.ra ≠ MAC_BROADCAST then cfg.dataRate else cfg.basicRate)
        duration := if p.ra ≠ MAC_BROADCAST then usec (cfg.ackTime + cfg.sifs) else 0 } }

/-- The packet gets the next sequence number. -/
def number : Mac80211 :=
  { s with
    pktTx := s.pktTx.map fun (p : MacFrame) => { p with scontrol := s.staSeqno }
    staSeqno := (s.staSeqno + 1) % 2 ^ 16 }

/-- The timers for a new packet. -/
def access : Option Mac80211 :=
  if ¬s.mhBackoff.busy then
    if s.isIdle then
      if ¬s.mhDefer.busy then s.contend cfg else some s
    else s.startBackoff cfg 0
  else some s

/-- A packet from above. -/
def send (p : MacFrame) : Option Mac80211 :=
  (sendDATA cfg { s with callback := true } p).bind fun s => (s.sendRTS cfg p.ra).bind fun s =>
    s.number.access cfg

/-- The next thing to do after an exchange. -/
def txNext : Option Mac80211 :=
  if s.pktCTRL.isSome then s.startDefer cfg.sifs
  else if s.pktRTS.isSome then
    if ¬s.mhBackoff.busy then s.contend cfg else some s
  else match s.pktTx with
    | some p =>
      if ¬s.mhBackoff.busy then
        if p.size < cfg.rtsThreshold ∨ p.ra = MAC_BROADCAST then s.contend cfg else s.startDefer cfg.sifs
      else some s
    | none =>
      if s.callback then
        let s : Mac80211 := emit { s with callback := false } .callback
        match s.reply with
        | some p => send cfg { s with reply := none } p
        | none => some s
      else some s

def txResume : Option Mac80211 :=
  asserting (¬s.mhSend.busy) <| asserting (¬s.mhDefer.busy) <|
    (s.txNext cfg).bind fun s => s.setTxState cfg .idle

def rxResume : Option Mac80211 :=
  asserting s.pktRx.isNone <| asserting (¬s.mhRecv.busy) <| s.setRxState cfg .idle

/-- `check_pktCTRL`, with whether it returns 0. -/
def checkPktCTRL : Option (Mac80211 × Bool) :=
  match s.pktCTRL with
  | none => some (s, false)
  | some p =>
    if s.txState = .cts ∨ s.txState = .ack then some (s, false)
    else match p.kind with
      | .cts =>
        if ¬s.isIdle then some ({ s.discard cfg p with pktCTRL := none }, true)
        else
          (s.setTxState cfg .cts).bind fun s =>
            (s.transmit p (cfg.ctsTime + DSSS_MaxPropagationDelay + sec p.duration + DSSS_MaxPropagationDelay
              - cfg.sifs - cfg.ackTime)).map (·, true)
      | .ack => (s.setTxState cfg .ack).bind fun s => (s.transmit p cfg.ackTime).map (·, true)
      | _ => none

def checkPktRTS : Option (Mac80211 × Bool) :=
  asserting (¬s.mhBackoff.busy) <|
    match s.pktRTS with
    | none => some (s, false)
    | some p =>
      if p.kind ≠ .rts then none
      else if ¬s.isIdle then ((s.incCw cfg).startBackoff cfg 0).map (·, true)
      else
        (s.setTxState cfg .rts).bind fun s =>
          (s.transmit p (cfg.rtsTime + DSSS_MaxPropagationDelay + cfg.sifs + cfg.ctsTime
            + DSSS_MaxPropagationDelay)).map (·, true)

def checkPktTx : Option (Mac80211 × Bool) :=
  asserting (¬s.mhBackoff.busy) <|
    match s.pktTx with
    | none => some (s, false)
    | some p =>
      if p.kind ≠ .data then none
      else if ¬s.isIdle then
        (s.sendRTS cfg p.ra).bind fun s => ((s.incCw cfg).startBackoff cfg 0).map (·, true)
      else
        (s.setTxState cfg .send).bind fun s =>
          (s.transmit p (if p.ra ≠ MAC_BROADCAST then
              p.txtime + DSSS_MaxPropagationDelay + cfg.sifs + cfg.ackTime + DSSS_MaxPropagationDelay
            else p.txtime)).map (·, true)

def backoffHandler : Option Mac80211 :=
  if s.pktCTRL.isSome then asserting (s.mhSend.busy ∨ s.mhDefer.busy) <| some s
  else
    (s.checkPktRTS cfg).bind fun (s, done) =>
      if done then some s else (s.checkPktTx cfg).map (·.1)

def deferHandler : Option Mac80211 :=
  asserting (s.pktCTRL.isSome ∨ s.pktRTS.isSome ∨ s.pktTx.isSome) <|
    (s.checkPktCTRL cfg).bind fun (s, done) =>
      if done then some s
      else asserting (¬s.mhBackoff.busy) <|
        (s.checkPktRTS cfg).bind fun (s, done) =>
          if done then some s else (s.checkPktTx cfg).map (·.1)

def navHandler : Option Mac80211 :=
  if s.isIdle ∧ s.mhBackoff.paused then
    (s.mhBackoff.resume cfg.difs s.now).map fun b => { s with mhBackoff := b }
  else some s

/-- The packet is given up, and the upper layer hears of it. -/
def failTx (p : MacFrame) : Mac80211 :=
  if p.xmitFailure then
    let p := { p with size := p.size - cfg.hdrLen11 }
    { (s.emit (.xmitFailed p)).discard cfg p with pktTx := none }
  else { s.discard cfg p with pktTx := none }

def retransmitRTS : Option Mac80211 :=
  s.pktTx.bind fun p => s.pktRTS.bind fun rts => asserting (¬s.mhBackoff.busy) <|
    let s : Mac80211 := { s with ssrc := s.ssrc + 1 }
    if s.ssrc ≥ cfg.shortRetryLimit then
      let s : Mac80211 := { s.discard cfg rts with pktRTS := none }
      some ({ s.failTx cfg p with ssrc := 0 }.rstCw cfg)
    else (s.incCw cfg).startBackoff cfg 0

def retransmitDATA : Option Mac80211 :=
  asserting (¬s.mhBackoff.busy) <| s.pktTx.bind fun p => asserting s.pktRTS.isNone <|
    if p.ra = MAC_BROADCAST then
      ({ s.emit (.freed p) with pktTx := none }.rstCw cfg).startBackoff cfg 0
    else if p.size ≤ cfg.rtsThreshold then
      let s : Mac80211 := { s with ssrc := s.ssrc + 1 }
      if s.ssrc ≥ cfg.shortRetryLimit then some ({ s.failTx cfg p with ssrc := 0 }.rstCw cfg)
      else (s.sendRTS cfg p.ra).bind fun s => (s.incCw cfg).startBackoff cfg 0
    else
      let s : Mac80211 := { s with slrc := s.slrc + 1 }
      if s.slrc ≥ cfg.longRetryLimit then some ({ s.failTx cfg p with slrc := 0 }.rstCw cfg)
      else (s.sendRTS cfg p.ra).bind fun s => (s.incCw cfg).startBackoff cfg 0

/-- A control frame that has been sent is freed. -/
def freeCTRL : Option Mac80211 := s.pktCTRL.map fun p => { s.emit (.freed p) with pktCTRL := none }

def sendTimer : Option Mac80211 :=
  (match s.txState with
    | .rts => s.retransmitRTS cfg
    | .cts => s.freeCTRL
    | .send => s.retransmitDATA cfg
    | .ack => s.freeCTRL
    | .idle => some s
    | _ => none).bind fun s => s.txResume cfg

def stopSend : Option Mac80211 := s.mhSend.stop.map fun t => { s with mhSend := t }

def stopDefer : Option Mac80211 := s.mhDefer.stop.map fun t => { s with mhDefer := t }

def recvRTS (p : MacFrame) : Option Mac80211 :=
  if s.txState ≠ .idle then some (s.discard cfg p)
  else if s.pktCTRL.isSome then some (s.discard cfg p)
  else
    (s.sendCTS cfg p.ta p.duration).bind fun s =>
      (if s.mhDefer.busy then s.stopDefer else some s).bind fun s =>
        (s.txResume cfg).map (emit · (.logged p))

def recvCTS (p : MacFrame) : Option Mac80211 :=
  if s.txState ≠ .rts then some (s.discard cfg p)
  else
    s.pktRTS.bind fun rts =>
      let s : Mac80211 := { s.emit (.freed rts) with pktRTS := none }
      asserting s.pktTx.isSome <| s.stopSend.bind fun s =>
        ({ s with ssrc := 0 }.txResume cfg).map (emit · (.logged p))

/-- The filter of `recvDATA` for frames that have come before. -/
def dedup (p : MacFrame) : Mac80211 :=
  if p.ra ≠ MAC_BROADCAST then
    if p.ta < cfg.cacheNodeCount then
      if s.cache p.ta ≠ 0 ∧ s.cache p.ta = p.scontrol then s.discard cfg p
      else { s with cache := Function.update s.cache p.ta p.scontrol }.emit (.passUp p)
    else s.emit (.passUp p)
  else s.emit (.passUp p)

/-- `recvDATA`; `p` comes without its MAC header where it is passed on. -/
def recvDATA (p : MacFrame) : Option Mac80211 :=
  let up := { p with size := p.size - cfg.hdrLen11 }
  if p.ra ≠ MAC_BROADCAST then
    if p.size ≥ cfg.rtsThreshold then
      if s.txState = .cts then
        s.freeCTRL.bind fun s => s.stopSend.bind fun s => (s.sendACK cfg p.ta).bind fun s =>
          (s.txResume cfg).map (dedup cfg · up)
      else some (s.discard cfg up)
    else if s.pktCTRL.isSome then some (s.discard cfg up)
    else
      (s.sendACK cfg p.ta).bind fun s =>
        (if ¬s.mhSend.busy then s.txResume cfg else some s).map (dedup cfg · up)
  else some (s.dedup cfg up)

def recvACK (p : MacFrame) : Option Mac80211 :=
  if s.txState ≠ .send then some (s.discard cfg p)
  else
    s.pktTx.bind fun tx => s.stopSend.bind fun s =>
      let s : Mac80211 := if tx.size ≤ cfg.rtsThreshold then { s with ssrc := 0 } else { s with slrc := 0 }
      let s : Mac80211 := { (s.rstCw cfg).emit (.freed tx) with pktTx := none }
      (s.startBackoff cfg 0).bind fun s => (s.txResume cfg).map (emit · (.logged p))

def recvBEACON (p : MacFrame) : Mac80211 :=
  if s.txState ≠ .idle then s.discard cfg p else s.emit (.logged p)

/-- A frame received as a whole. -/
def receive (p : MacFrame) : Option Mac80211 :=
  (if p.ra ≠ cfg.index then s.setNav p.duration else some s).bind fun s =>
    if p.ra ≠ cfg.index ∧ p.ra ≠ MAC_BROADCAST then some (s.discard cfg p)
    else match p.kind with
      | .probeReq => some (s.discard cfg p)
      | .rts => s.recvRTS cfg p
      | .cts => s.recvCTS cfg p
      | .ack => s.recvACK cfg p
      | .data => s.recvDATA cfg p
      | .beacon => some (s.recvBEACON cfg p)

def recvTimer : Option Mac80211 :=
  s.pktRx.bind fun p => asserting (s.rxState = .recv ∨ s.rxState = .coll) <|
    (if s.txActive then some (s.emit (.freed p))
      else if s.rxState = .coll then (s.discard cfg p).setNav (usec cfg.eifs)
      else if p.error then (s.emit (.freed p)).setNav (usec cfg.eifs)
      else s.receive cfg p).bind fun s => { s with pktRx := none }.rxResume cfg

/-- The first bit of a frame from the channel. -/
def recv (p : MacFrame) : Option Mac80211 :=
  let p := if s.txActive ∧ ¬p.error then { p with error := true } else p
  if s.rxState = .idle then
    (s.setRxState cfg .recv).bind fun s =>
      (s.mhRecv.start s.now p.txtime).map fun t => { s with pktRx := some p, mhRecv := t }
  else
    s.pktRx.bind fun old => if old.rxPr / p.rxPr ≥ p.cpThresh then s.capture cfg p else s.collision cfg p

inductive Timer
  | interface
  | nav
  | recv
  | send
  | defer
  | backoff
  deriving DecidableEq

/-- A timer goes off. -/
def fire : Timer → Option Mac80211
  | .interface => some { s with mhIF := .free, txActive := false }
  | .nav => { s with mhNav := .free }.navHandler cfg
  | .recv => { s with mhRecv := .free }.recvTimer cfg
  | .send => { s with mhSend := .free }.sendTimer cfg
  | .defer => { s with mhDefer := .free }.deferHandler cfg
  | .backoff => { s with mhBackoff := .free }.backoffHandler cfg

end Mac80211

inductive MacInput
  | send (p : MacFrame)
  | recv (p : MacFrame)
  | fire (timer : Mac80211.Timer)
  deriving DecidableEq

/-- Something happens at a time; `reply` is what the upper layer sends if it is called back. -/
structure MacEvent where
  time : ℚ
  input : MacInput
  reply : Option MacFrame

/-- The packets that the upper layer may hand down in an event. -/
def MacEvent.handed (ev : MacEvent) : List MacFrame :=
  match ev.input with
  | .send p => p :: ev.reply.toList
  | _ => ev.reply.toList

lemma MacEvent.mem_handed {ev : MacEvent} {p : MacFrame} (h : ev.reply = some p ∨ ev.input = .send p) :
    p ∈ ev.handed := by
  unfold MacEvent.handed
  rcases h with hp | hp
  · split
    all_goals simp [hp]
  · simp [hp]

namespace Mac80211

def handle (cfg : MacConfig) (s : Mac80211) : MacInput → Option Mac80211
  | .send p => s.send cfg p
  | .recv p => s.recv cfg p
  | .fire timer => s.fire cfg timer

def step (cfg : MacConfig) (s : Mac80211) (ev : MacEvent) : Option (Mac80211 × List MacOutput) :=
  ({ s with now := ev.time, reply := ev.reply, out := [] }.handle cfg ev.input).map fun s => (s, s.out.reverse)

/-- When a timer goes off, if it is running. -/
def due (s : Mac80211) : Timer → Option ℚ
  | .interface => if s.mhIF.busy then some s.mhIF.due else none
  | .nav => if s.mhNav.busy then some s.mhNav.due else none
  | .recv => if s.mhRecv.busy then some s.mhRecv.due else none
  | .send => if s.mhSend.busy then some s.mhSend.due else none
  | .defer => if s.mhDefer.busy then some s.mhDefer.due else none
  | .backoff => if s.mhBackoff.busy ∧ ¬s.mhBackoff.paused then some s.mhBackoff.due else none

/-- An event that can come next: time goes on up to the first timer, a timer goes off when it is due, and the
upper layer does not send before it has been called back. -/
structure Possible (s : Mac80211) (ev : MacEvent) : Prop where
  later : s.now ≤ ev.time
  early : ∀ timer t, s.due timer = some t → ev.time ≤ t
  fires : ∀ timer, ev.input = .fire timer → s.due timer = some ev.time
  sends : ∀ p, ev.input = .send p → s.callback = false

def inputPossible (s : Mac80211) (time : ℚ) : MacInput → Bool
  | .fire timer => s.due timer = some time
  | .send _ => ¬s.callback
  | .recv _ => true

lemma possible_iff {s : Mac80211} {ev : MacEvent} :
    s.Possible ev ↔ s.now ≤ ev.time ∧
      (∀ timer ∈ [Timer.interface, .nav, .recv, .send, .defer, .backoff], ∀ t ∈ s.due timer, ev.time ≤ t) ∧
      s.inputPossible ev.time ev.input := by
  constructor
  · intro h
    refine ⟨h.later, fun timer _ t ht => h.early timer t ht, ?_⟩
    cases hinput : ev.input with
    | send p => simpa [inputPossible] using h.sends p hinput
    | recv p => rfl
    | fire timer => simpa [inputPossible] using h.fires timer hinput
  · rintro ⟨hlater, hearly, hinput⟩
    refine ⟨hlater, fun timer t ht => hearly timer ?_ t ht, fun timer htimer => ?_, fun p hp => ?_⟩
    · cases timer
      all_goals decide
    · rw [htimer] at hinput
      simpa [inputPossible] using hinput
    · rw [hp] at hinput
      simpa [inputPossible] using hinput

instance (s : Mac80211) (ev : MacEvent) : Decidable (s.Possible ev) := decidable_of_iff' _ possible_iff

end Mac80211

end NetworkSimulator
