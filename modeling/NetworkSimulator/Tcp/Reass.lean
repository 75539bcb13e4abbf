import NetworkSimulator.Tcp.ReassemblyQueue

/-!
# `FullTcpAgent::reass`

The states and the header flags of `tcp/tcp-full.h`, and the function that passes a segment to the
reassembly queue.
-/

namespace NetworkSimulator

/-- `state_`. -/
inductive TcpState
  | closed | listen | synSent | synReceived | established | closeWait | finWait1 | closing | lastAck
  | finWait2
deriving DecidableEq, Repr

namespace TcpState

/-- `TCPS_HAVERCVDFIN`. -/
def haveRcvdFin (s : TcpState) : Bool := s = closing ∨ s = closed ∨ s = closeWait

/-- `TCPS_HAVERCVDSYN`. -/
def haveRcvdSyn (s : TcpState) : Bool := ¬(s = closed ∨ s = listen ∨ s = synSent)

/-- `state_ <= TCPS_ESTABLISHED && state_ != TCPS_CLOSED`. -/
def upToEstablished (s : TcpState) : Bool :=
  s = listen ∨ s = synSent ∨ s = synReceived ∨ s = established

end TcpState

def TH_FIN : ℕ := 0x01
def TH_SYN : ℕ := 0x02
def TH_PUSH : ℕ := 0x08
def TH_ACK : ℕ := 0x10
def TH_ECE : ℕ := 0x40
def TH_CWR : ℕ := 0x80

/-- `reass` of the segment of `datalen` bytes at `seqno`; `none` is `abort()`. -/
def ReassemblyQueue.reass (s : ReassemblyQueue) (state : TcpState) (seqno datalen : ℤ)
    (tiflags : ℕ) : Option (ReassemblyQueue × ℕ) :=
  let start := seqno
  let stop := start + datalen
  let fillshole := start = s.rcvNxt
  if start = stop ∧ tiflags &&& TH_FIN = 0 then none
  else
    (s.add start stop tiflags 0).bind fun (s, flags) =>
      -- no SYN yet, or an out of order addition
      if ¬state.haveRcvdSyn ∨ ¬fillshole then some (s, 0x00)
      -- data in SYN_RECEIVED is not presented to the user yet
      else if state = .synReceived ∧ stop > start then some (s, 0x00)
      else s.cleartonxt.map fun (s, f) => (s, flags ||| f)

end NetworkSimulator
