import Mathlib.Data.List.Dedup
import NetworkSimulator.Imep.Agent
import NetworkSimulator.Library.Memory

/-!
# Control packets

Acknowledgements, hellos and objects are put into one packet, with the list of neighbours that are to answer
behind the objects, and are read out of it again. Positions are counted from the IMEP header, and the sizes
are those of the structures: `u_int16_t` fields are aligned, and a bit-field does not straddle a byte. So
`sizeof` of a block with its placeholder is 6, 6 and 5, while an object block is counted as 4.
-/

namespace NetworkSimulator.Imep

open Library

def IMEP_HDR_LEN : ℕ := 512
def sizeof_hdr_imep : ℕ := 4
def sizeof_imep_ack : ℕ := 8
def sizeof_imep_ack_block : ℕ := 6
def sizeof_imep_hello : ℕ := 4
def sizeof_imep_hello_block : ℕ := 6
def sizeof_imep_object_block : ℕ := 5
def sizeof_imep_response : ℕ := 4
def IMEP_OBJECT_SIZE : ℕ := 2
def IMEP_OBJECT_BLOCK_SIZE : ℕ := 4
def PROTO_TORA : ℕ := 2

def TORATYPE_QRY : ℕ := 1
def TORATYPE_UPD : ℕ := 2
def TORATYPE_CLR : ℕ := 4

/-- The header of a packet on the object queue, from its first byte on. -/
abbrev ToraHeader := Memory

/-- `none` is the `abort` at another type. -/
def toraHeaderLength (t : ToraHeader) : Option ℕ :=
  if load16 t 0 = TORATYPE_QRY then some 8
  else if load16 t 0 = TORATYPE_UPD then some 32
  else if load16 t 0 = TORATYPE_CLR then some 24
  else none

structure Ack where
  seqno : UInt8
  ipaddr : UInt32
  deriving DecidableEq, Repr

/-- The flags and the length of the IMEP header, and the bytes from the header on. -/
structure ControlPacket where
  ackFlag : Bool := false
  helloFlag : Bool := false
  objectFlag : Bool := false
  imep_length : ℕ := sizeof_hdr_imep
  bytes : Memory

/-- What a link record has for the control packets. -/
structure EchoLink where
  index : UInt32
  status : Status
  lastEcho : ℚ
  deriving DecidableEq, Repr

structure Sender where
  ackQueue : List Ack := []
  helloQueue : List UInt32 := []
  objectQueue : List ToraHeader := []
  links : List EchoLink := []
  controlSequence : ℕ := 0

namespace ControlPacket

/-! ### Where the blocks are -/

def findAckBlock (p : ControlPacket) : Option ℕ :=
  let ab := sizeof_hdr_imep
  if 0 < (p.bytes ab).toNat then some ab else none

def findHelloBlock (p : ControlPacket) : Option ℕ := do
  let hb ← if p.ackFlag then
      p.findAckBlock.map fun ab => ab + sizeof_imep_ack_block + (p.bytes ab).toNat * sizeof_imep_ack
    else some sizeof_hdr_imep
  if 0 < (p.bytes hb).toNat then some hb else none

/-- `none` is a failed assertion. -/
def findObjectBlock (p : ControlPacket) : Option ℕ := do
  let ptr := sizeof_hdr_imep
  let ptr ← if p.ackFlag then
      if 0 < (p.bytes ptr).toNat then some (ptr + ((p.bytes ptr).toNat * sizeof_imep_ack + sizeof_imep_ack_block))
      else none
    else some ptr
  let ob ← if p.helloFlag then
      if 0 < (p.bytes ptr).toNat then
        some (ptr + ((p.bytes ptr).toNat * sizeof_imep_hello + sizeof_imep_hello_block))
      else none
    else some ptr
  if field p.bytes (ob + 1) 4 = PROTO_TORA ∧ 0 < field p.bytes (ob + 2) 7 then some ob else none

/-! ### What is read -/

def readAcks (m : Memory) : ℕ → ℕ → List Ack
  | _, 0 => []
  | ack, n + 1 => ⟨m ack, load32 m (ack + 4)⟩ :: readAcks m (ack + sizeof_imep_ack) n

/-- The assertion is on the length of an object. -/
def readObjects (m : Memory) : ℕ → ℕ → Option (List (List UInt8))
  | _, 0 => some []
  | object, n + 1 =>
    if load16 m object = 0 then none
    else
      (readObjects m (object + IMEP_OBJECT_SIZE + load16 m object) n).map
        fun os => load m (object + IMEP_OBJECT_SIZE) (load16 m object) :: os

def skipObjects (m : Memory) : ℕ → ℕ → ℕ
  | object, 0 => object
  | object, n + 1 => skipObjects m (object + IMEP_OBJECT_SIZE + load16 m object) n

/-- The acknowledgements that `imep_ack_input` goes through. -/
def acksRead (p : ControlPacket) : Option (List Ack) :=
  if p.ackFlag then p.findAckBlock.map fun ab => readAcks p.bytes (ab + sizeof_imep_ack_block) (p.bytes ab).toNat
  else some []

/-- The addresses that `imep_hello_input` goes through. -/
def hellosRead (p : ControlPacket) : Option (List UInt32) :=
  if p.helloFlag then
    p.findHelloBlock.map fun hb => load32s p.bytes (hb + sizeof_imep_hello_block) (p.bytes hb).toNat
  else some []

/-- The objects that `imep_object_process` hands up. -/
def objectsRead (p : ControlPacket) : Option (List (List UInt8)) :=
  if p.objectFlag then
    p.findObjectBlock.bind fun ob => readObjects p.bytes (ob + sizeof_imep_object_block) (field p.bytes (ob + 2) 7)
  else some []

/-- The responses behind the objects, in `imep_ack_object` and from `findResponseList` on. -/
def responsesRead (p : ControlPacket) : Option (List UInt32) :=
  if p.objectFlag then
    p.findObjectBlock.map fun ob =>
      load32s p.bytes (skipObjects p.bytes (ob + sizeof_imep_object_block) (field p.bytes (ob + 2) 7))
        (field p.bytes (ob + 3) 5)
  else some []

end ControlPacket

namespace Sender

open ControlPacket

/-! ### What is written -/

/-- The loop of `aggregateAckBlock`. -/
def appendAcks (ab : ℕ) : List Ack → ℕ → ControlPacket → List Ack × ControlPacket
  | [], _, p => ([], p)
  | ack0 :: q, ack, p =>
    if p.imep_length + sizeof_imep_ack > IMEP_HDR_LEN then (ack0 :: q, p)
    else
      let bytes := store (store p.bytes ack [ack0.seqno]) (ack + 4) (bytes32 ack0.ipaddr)
      appendAcks ab q (ack + sizeof_imep_ack)
        { p with bytes := store bytes ab [bytes ab + 1], imep_length := p.imep_length + sizeof_imep_ack }

def aggregateAckBlock (s : Sender) (p : ControlPacket) : Option (Sender × ControlPacket) :=
  if s.ackQueue = [] then some (s, p)
  else
    let ab := sizeof_hdr_imep
    let r := appendAcks ab s.ackQueue (ab + sizeof_imep_ack_block)
      { p with ackFlag := true, imep_length := p.imep_length + sizeof_imep_ack_block, bytes := store p.bytes ab [0] }
    if r.2.imep_length ≤ IMEP_HDR_LEN then some ({ s with ackQueue := r.1 }, r.2) else none

/-- There is a link, and it has had no hello at this time. -/
def due (now : ℚ) (links : List EchoLink) (index : UInt32) : Bool :=
  (links.find? fun l => l.index = index).any fun l => now ≠ l.lastEcho

/-- There is one record for each neighbour. -/
def echo (now : ℚ) (index : UInt32) (links : List EchoLink) : List EchoLink :=
  links.map fun l => if l.index = index then { l with lastEcho := now } else l

/-- What the loop of `aggregateHelloBlock` changes. -/
structure HelloLoop where
  queue : List UInt32
  links : List EchoLink
  inserted : ℕ
  packet : ControlPacket

def appendHellos (now : ℚ) : List UInt32 → ℕ → List EchoLink → ℕ → ControlPacket → HelloLoop
  | [], _, links, n, p => ⟨[], links, n, p⟩
  | index :: q, hello, links, n, p =>
    if p.imep_length + sizeof_imep_hello > IMEP_HDR_LEN then ⟨index :: q, links, n, p⟩
    else if due now links index then
      appendHellos now q (hello + sizeof_imep_hello) (echo now index links) (n + 1)
        { p with bytes := store p.bytes hello (bytes32 index), imep_length := p.imep_length + sizeof_imep_hello }
    else appendHellos now q hello links n p

def aggregateHelloBlock (now : ℚ) (s : Sender) (p : ControlPacket) : Option (Sender × ControlPacket) :=
  if s.helloQueue = [] then some (s, p)
  else if p.imep_length + sizeof_imep_hello_block + sizeof_imep_hello > IMEP_HDR_LEN then some (s, p)
  else
    let hb := p.imep_length
    let r := appendHellos now s.helloQueue (hb + sizeof_imep_hello_block) s.links 0
      { p with imep_length := p.imep_length + sizeof_imep_hello_block }
    let s' : Sender := { s with helloQueue := r.queue, links := r.links }
    if r.inserted = 0 then
      some (s', { r.packet with imep_length := r.packet.imep_length - sizeof_imep_hello_block })
    else if r.packet.imep_length ≤ IMEP_HDR_LEN then
      some (s', { r.packet with helloFlag := true, bytes := store r.packet.bytes hb [UInt8.ofNat r.inserted] })
    else none

/-- The loop of `aggregateObjectBlock`. -/
def appendObjects (response_list_len : ℕ) : List ToraHeader → ℕ → ℕ → ControlPacket →
    Option (List ToraHeader × ℕ × ControlPacket)
  | [], _, n, p => some ([], n, p)
  | t :: q, object, n, p => do
    let obj_length ← toraHeaderLength t
    if p.imep_length + IMEP_OBJECT_SIZE + obj_length + response_list_len > IMEP_HDR_LEN then some (t :: q, n, p)
    else
      let bytes := store p.bytes (object + IMEP_OBJECT_SIZE) (load t 0 obj_length)
      appendObjects response_list_len q (object + IMEP_OBJECT_SIZE + obj_length) (n + 1)
        { p with
          bytes := store bytes object (bytes16 obj_length)
          imep_length := p.imep_length + (IMEP_OBJECT_SIZE + obj_length) }

def biLinks (s : Sender) : List UInt32 := (s.links.filter fun l => l.status = LINK_BI).map EchoLink.index

def getResponseListSize (s : Sender) : ℕ := s.biLinks.length * sizeof_imep_response

/-- The loop of `createResponseList`. -/
def appendResponses (ob : ℕ) : List UInt32 → ℕ → ControlPacket → ControlPacket
  | [], _, p => p
  | index :: ls, r, p =>
    let bytes := storeField p.bytes (ob + 3) 5 (field p.bytes (ob + 3) 5 + 1)
    appendResponses ob ls (r + sizeof_imep_response)
      { p with bytes := store bytes r (bytes32 index), imep_length := p.imep_length + sizeof_imep_response }

def createResponseList (s : Sender) (p : ControlPacket) : Option (Sender × ControlPacket) := do
  let ob ← p.findObjectBlock
  let s' : Sender := { s with controlSequence := s.controlSequence + 1 }
  some (s', appendResponses ob s.biLinks p.imep_length
    { p with bytes := store p.bytes ob [UInt8.ofNat s'.controlSequence] })

/-- The copy for the retransmission queue, with only the object block and the responses. -/
def stripped (ob : ℕ) (p : ControlPacket) : ControlPacket :=
  let objrep_len := p.imep_length - ob
  { p with
    ackFlag := false
    helloFlag := false
    bytes := store p.bytes sizeof_hdr_imep (load p.bytes ob objrep_len)
    imep_length := sizeof_hdr_imep + objrep_len }

def aggregateObjectBlock (s : Sender) (p : ControlPacket) :
    Option (Sender × ControlPacket × Option ControlPacket) :=
  if s.objectQueue = [] ∨ p.imep_length ≥ IMEP_HDR_LEN then some (s, p, none)
  else do
    let ob := p.imep_length
    let bytes := storeField (storeField (store p.bytes ob [0]) (ob + 1) 4 PROTO_TORA) (ob + 3) 5 0
    let (q, n, p₁) ← appendObjects s.getResponseListSize s.objectQueue (ob + sizeof_imep_object_block) 0
      { p with bytes := bytes, imep_length := p.imep_length + IMEP_OBJECT_BLOCK_SIZE }
    let s' : Sender := { s with objectQueue := q }
    if p₁.imep_length > IMEP_HDR_LEN then none
    else if n = 0 then some (s', { p₁ with imep_length := p₁.imep_length - IMEP_OBJECT_BLOCK_SIZE }, none)
    else
      let (s'', p₂) ← s'.createResponseList
        { p₁ with objectFlag := true, bytes := storeField p₁.bytes (ob + 2) 7 n }
      some (s'', p₂, if 0 < field p₂.bytes (ob + 3) 5 then some (stripped ob p₂) else none)

/-- A packet and the copy of it that is saved, from the state and the memory that they are made from. -/
structure Made where
  sender : Sender
  memory : Memory
  packet : ControlPacket
  saved : Option ControlPacket

/-- One round of `handlerControlTimer`; `m` is the memory of a new packet. -/
def makePacket (now : ℚ) (s : Sender) (m : Memory) : Option (Sender × Made) := do
  let (s₁, p₁) ← s.aggregateAckBlock { bytes := m }
  let (s₂, p₂) ← s₁.aggregateHelloBlock now p₁
  let (s₃, p₃, saved) ← s₂.aggregateObjectBlock p₂
  some (s₃, ⟨s, m, p₃, saved⟩)

/-- The packets that are made until nothing is queued or an assertion fails. -/
def handlerControlTimer (now : ℚ) (alloc : ℕ → Memory) : ℕ → Sender → List Made
  | 0, _ => []
  | fuel + 1, s =>
    if s.ackQueue = [] ∧ s.helloQueue = [] ∧ s.objectQueue = [] then []
    else
      match s.makePacket now (alloc fuel) with
      | none => []
      | some (s', r) => r :: handlerControlTimer now alloc fuel s'

end Sender
end NetworkSimulator.Imep
