import NetworkSimulator.Tora.Heights

/-!
# The TORA agent

The packets that ask for a route (QRY), announce a height (UPD) and erase the routes of a partition (CLR), and
the link notifications of the layer below. Data packets are followed only as far as they make a node ask for a
route; the packets that wait for one are left out.
-/

namespace NetworkSimulator

inductive ToraMessage
  | qry (dst : ℤ)
  | upd (dst : ℤ) (height : Height)
  | clr (dst : ℤ) (tau : ℚ) (oid : ℤ)
  deriving DecidableEq

namespace ToraDest
variable (ip : ℤ) (now : ℚ) (src : ℤ) (td : ToraDest)

def sendUPD : ToraMessage := .upd td.index td.height

/-- `td->time_upd = clock(); sendUPD(td->index)` -/
def announce : ToraDest × List ToraMessage :=
  ({ td with timeUpd := now }, [td.sendUPD])

/-- `recvQRY` for this destination. -/
def recvQRY : ToraDest × List ToraMessage :=
  if td.rtReq then (td, [])
  else if td.height.r = 0 then
    match td.nbFind src with
    | none => (td, [])
    | some tn => if tn.timeAct > td.timeUpd then td.announce now else (td, [])
  else
    match td.nbFindMinHeight 0 with
    | some tn =>
      (td.updateHeight ⟨tn.height.tau, tn.height.oid, tn.height.r, tn.height.delta + 1, ip⟩).announce now
    | none => ({ td with rtReq := true }, if td.numActive > 1 then [.qry td.index] else [])

/-- The reflected reference level that the node itself has created has come back from all its neighbours. -/
def detectsPartition : Bool := td.nbCheckSameRef ∧ td.nbFindMinHeight 0 = none ∧ td.height.oid = ip

/-- All heights are erased. -/
def erase : ToraDest :=
  { td with height := td.height.null, numDown := 0, numUp := 0, nblist := td.clearNbs }

/-- The cases of `recvUPD` when the last downstream link is gone and there are upstream links. -/
def reverseLinks : Option (ToraDest × List ToraMessage) :=
  if td.nbCheckSameRef then
    match td.nbFindMinHeight 0 with
    | some tn => some ((td.updateHeight ⟨tn.height.tau, tn.height.oid, 1, 0, ip⟩).announce now)
    | none =>
      if td.height.oid = ip then some (td.erase, [.clr td.index td.height.tau td.height.oid])
      else some ({ td.updateHeight ⟨now, ip, 0, 0, ip⟩ with rtReq := false }.announce now)
  else
    td.nbFindMaxHeight.bind fun n => (td.nbFindMinNonnullHeight n.height).map fun m =>
      (td.updateHeight ⟨m.height.tau, m.height.oid, m.height.r, m.height.delta - 1, ip⟩).announce now

/-- `recvUPD` for this destination, once the height of the neighbour has been updated to `h`; `none` for a failed
assertion. -/
def react (h : Height) : Option (ToraDest × List ToraMessage) :=
  if td.rtReq ∧ h.r = 0 then
    some ({ td.updateHeight ⟨h.tau, h.oid, h.r, h.delta + 1, ip⟩ with rtReq := false }.announce now)
  else if td.numDown = 0 then
    if td.numUp = 0 then
      if td.height.isNull then some (td, []) else some ({ td with height := td.height.null }.announce now)
    else td.reverseLinks ip now
  else some (td, [])

/-- `recvUPD` for this destination. -/
def recvUPD (h : Height) : Option (ToraDest × List ToraMessage) :=
  match td.nbFind src with
  | none => some (td, [])
  | some tn => (td.updateHeightNb tn h).react ip now h

/-- The height of the node belongs to the reference level that is erased. -/
def ownsLevel (tau : ℚ) (oid : ℤ) : Bool := td.height.tau = tau ∧ td.height.oid = oid ∧ td.height.r = 1

/-- The neighbour has the reflected reference level that is erased. -/
def hasLevel (tau : ℚ) (oid : ℤ) (tn : ToraNeighbor) : Bool :=
  tn.height.tau = tau ∧ tn.height.oid = oid ∧ tn.height.r = 1

def erasedNb (tn : ToraNeighbor) : ToraNeighbor := { tn with height := tn.height.null, lnkStat := .un }

/-- A CLR erases the neighbour `src` that has sent it and those with the reference level. -/
def eraseNbs (tau : ℚ) (oid : ℤ) : ToraDest :=
  { td with
    nblist := (updateFirst (·.index = src) erasedNb td.nblist).map fun tn =>
      if hasLevel tau oid tn then erasedNb tn else tn }

/-- `recvCLR` for this destination. -/
def recvCLR (tau : ℚ) (oid : ℤ) : ToraDest × List ToraMessage :=
  if td.ownsLevel tau oid then
    (td.erase, if td.numActive > 1 then [.clr td.index td.height.tau td.height.oid] else [])
  else
    match td.nbFind src with
    | none => (td, [])
    | some _ =>
      let td := td.eraseNbs src tau oid
      if td.numDown = 0 then
        if td.numUp = 0 then
          if td.height.isNull then (td, []) else { td with height := td.height.null }.announce now
        else { td.updateHeight ⟨now, ip, 0, 0, ip⟩ with rtReq := false }.announce now
      else (td, [])

end ToraDest

structure ToraAgent where
  ipaddr : ℤ
  dstlist : List ToraDest
  deriving DecidableEq

/-- A call of the agent; `links` are the neighbours to which the layer below has a link in both directions. -/
inductive ToraCall
  | recvQRY (src dst : ℤ) (links : List ℤ)
  | recvUPD (src dst : ℤ) (height : Height) (links : List ℤ)
  | recvCLR (src dst : ℤ) (tau : ℚ) (oid : ℤ) (links : List ℤ)
  | rtNotifyLinkUP (index : ℤ)
  /-- The packets for the lost neighbour come back from the interface queue; here are their destinations. -/
  | rtNotifyLinkDN (index : ℤ) (packets : List ℤ) (links : List ℤ)
  /-- A data packet to forward. -/
  | data (dst : ℤ) (links : List ℤ)
  deriving DecidableEq

namespace ToraAgent
variable (a : ToraAgent) (now : ℚ)

def dstFind (id : ℤ) : Option ToraDest := a.dstlist.find? (·.index = id)

/-- The new destination of `dst_add`. -/
def newDest (id : ℤ) (links : List ℤ) : ToraDest := links.foldl (·.nbAdd now) (.new id)

/-- The destination `id`, added to the list if need be. -/
def dest (id : ℤ) (links : List ℤ) : ToraDest := (a.dstFind id).getD (newDest now id links)

def setDest (td : ToraDest) : ToraAgent :=
  { a with
    dstlist :=
      if (a.dstFind td.index).isSome then updateFirst (·.index = td.index) (fun _ => td) a.dstlist
      else td :: a.dstlist }

/-- What the packet makes of the destination that it is about. -/
def update (r : ToraDest × List ToraMessage) : ToraAgent × List ToraMessage := (a.setDest r.1, r.2)

/-- `rt_resolve`, as far as the destination is concerned. -/
def rtResolve (dst : ℤ) (links : List ℤ) : ToraAgent × List ToraMessage :=
  let td := a.dest now dst links
  if td.nbFindNextHop = none ∧ ¬td.rtReq then a.update ({ td with rtReq := true }, [.qry dst])
  else a.update (td, [])

def linkUp (index : ℤ) (td : ToraDest) : ToraDest × List ToraMessage :=
  let td := if td.nbFind index = none then td.nbAdd now index else td
  (td, if td.rtReq then [.qry td.index] else [])

def linkDown (index : ℤ) (td : ToraDest) : ToraDest × List ToraMessage :=
  let r := td.nbDel now index
  (r.1, if r.2 then [r.1.sendUPD] else [])

/-- A call that goes through all destinations. -/
def forAll (f : ToraDest → ToraDest × List ToraMessage) : ToraAgent × List ToraMessage :=
  ({ a with dstlist := a.dstlist.map fun td => (f td).1 }, a.dstlist.flatMap fun td => (f td).2)

/-- A call at a time, with the packets that are sent; `none` for a failed assertion. -/
def call : ToraCall → Option (ToraAgent × List ToraMessage)
  | .recvQRY src dst links =>
    some (if dst = a.ipaddr then (a, []) else a.update ((a.dest now dst links).recvQRY a.ipaddr now src))
  | .recvUPD src dst height links =>
    if dst = a.ipaddr then some (a, [])
    else ((a.dest now dst links).recvUPD a.ipaddr now src height).map a.update
  | .recvCLR src dst tau oid links =>
    some (if dst = a.ipaddr then (a, []) else a.update ((a.dest now dst links).recvCLR a.ipaddr now src tau oid))
  | .rtNotifyLinkUP index => some (a.forAll (linkUp now index))
  | .rtNotifyLinkDN index packets links =>
    let r := a.forAll (linkDown now index)
    some (packets.foldl (fun r dst => let r' := r.1.rtResolve now dst links; (r'.1, r.2 ++ r'.2)) r)
  | .data dst links => some (a.rtResolve now dst links)

/-- A call with its time. -/
def step (a : ToraAgent) (ev : ℚ × ToraCall) : Option (ToraAgent × List ToraMessage) := a.call ev.1 ev.2

end ToraAgent

end NetworkSimulator
