import Mathlib.Data.Finset.Card
import NetworkSimulator.Imep.ControlPacket

/-!
# The blocks of a control packet

What each of the loops that fill a packet takes from its queue, how long the packet is then, and which bytes are as
they were. The place of the next entry is the length of the packet, except among the objects, which are one byte
further on.
-/

namespace NetworkSimulator.Imep
open Library
namespace Sender
open ControlPacket

variable {p : ControlPacket} {m m' : Memory} {a b c n : ℕ}

lemma length_bytes32 (w : UInt32) : (bytes32 w).length = 4 := rfl

lemma length_bytes16 (v : ℕ) : (bytes16 v).length = 2 := rfl

/-! ### Acknowledgements -/

lemma readAcks_congr (h : Agree m m' a (a + 8 * n)) : readAcks m' a n = readAcks m a n := by
  induction n generalizing a with
  | zero => rfl
  | succ n ih =>
    have hrest : readAcks m' (a + sizeof_imep_ack) n = readAcks m (a + sizeof_imep_ack) n := by
      unfold sizeof_imep_ack
      exact ih (h.mono (Nat.le_add_right a 8) (by omega))
    rw [readAcks, readAcks, h a le_rfl (by omega), load32_congr (h.mono (by omega) (by omega)), hrest]

/-- The acknowledgements of a queue that are put into a packet, and those that stay. -/
structure AcksAppended (ab : ℕ) (p p' : ControlPacket) (taken rest : List Ack) : Prop where
  length : p'.imep_length = p.imep_length + 8 * taken.length
  fits : p'.imep_length ≤ 512
  full : rest ≠ [] → 512 < p'.imep_length + 8
  count : (p'.bytes ab).toNat = (p.bytes ab).toNat + taken.length
  acks : readAcks p'.bytes p.imep_length taken.length = taken
  same : ∀ i < p.imep_length, i ≠ ab → p'.bytes i = p.bytes i
  flags : p'.ackFlag = p.ackFlag ∧ p'.helloFlag = p.helloFlag ∧ p'.objectFlag = p.objectFlag

lemma AcksAppended.none (ab : ℕ) (hfits : p.imep_length ≤ 512) {rest : List Ack}
    (hfull : rest ≠ [] → 512 < p.imep_length + 8) : AcksAppended ab p p [] rest :=
  ⟨rfl, hfits, hfull, rfl, rfl, fun _ _ _ => rfl, rfl, rfl, rfl⟩

/-- One more in front. -/
lemma AcksAppended.cons {ab : ℕ} {p' : ControlPacket} {ack0 : Ack} {taken rest : List Ack} {bytes : Memory}
    (hab : ab < p.imep_length) (hcount : (p.bytes ab).toNat < 255)
    (hbytes : bytes = store (store p.bytes p.imep_length [ack0.seqno]) (p.imep_length + 4) (bytes32 ack0.ipaddr))
    (h : AcksAppended ab { p with bytes := store bytes ab [bytes ab + 1], imep_length := p.imep_length + 8 } p'
      taken rest) : AcksAppended ab p p' (ack0 :: taken) rest := by
  have hlength := h.length
  have hsame : ∀ i < p.imep_length, bytes i = p.bytes i := by
    intro i hi
    rw [hbytes, store_of_lt (by omega), store_of_lt hi]
  have hone : (bytes ab + 1).toNat = (p.bytes ab).toNat + 1 := by
    rw [hsame ab hab, UInt8.toNat_add]
    change ((p.bytes ab).toNat + 1) % 256 = _
    omega
  -- The later ones are put behind it.
  have hkept : Agree bytes p'.bytes p.imep_length (p.imep_length + 8) := by
    intro i hi hlt
    rw [h.same i hlt (by omega)]
    exact store_of_le (by change ab + 1 ≤ i; omega)
  refine ⟨?_, h.fits, h.full, ?_, ?_, ?_, h.flags⟩
  · rw [hlength, List.length_cons]
    dsimp only
    omega
  · rw [h.count, List.length_cons]
    dsimp only
    rw [store_singleton_self, hone]
    omega
  · have hseqno : p'.bytes p.imep_length = ack0.seqno := by
      rw [hkept _ le_rfl (by omega), hbytes, store_of_lt (by omega), store_singleton_self]
    have hipaddr : load32 p'.bytes (p.imep_length + 4) = ack0.ipaddr := by
      rw [load32_congr (hkept.mono (by omega) (by omega)), hbytes, load32_store]
    rw [List.length_cons, readAcks, hseqno, hipaddr]
    congr 1
    exact h.acks
  · intro i hi hne
    rw [h.same i (by dsimp only; omega) hne]
    dsimp only
    rw [← hsame i hi]
    rcases Nat.lt_or_gt_of_ne hne with hlt | hgt
    · exact store_of_lt hlt
    · exact store_of_le hgt

lemma appendAcks_spec {ab : ℕ} {q : List Ack} (hab : ab < p.imep_length) (hfits : p.imep_length ≤ 512)
    (hcount : 8 * (p.bytes ab).toNat ≤ p.imep_length) :
    ∃ taken, q = taken ++ (appendAcks ab q p.imep_length p).1 ∧
      AcksAppended ab p (appendAcks ab q p.imep_length p).2 taken (appendAcks ab q p.imep_length p).1 := by
  induction q generalizing p with
  | nil => exact ⟨[], rfl, .none ab hfits fun h => absurd rfl h⟩
  | cons ack0 q ih =>
    rw [appendAcks]
    unfold IMEP_HDR_LEN sizeof_imep_ack
    by_cases hroom : p.imep_length + 8 > 512
    · rw [if_pos hroom]
      exact ⟨[], rfl, .none ab hfits fun _ => hroom⟩
    · rw [if_neg hroom]
      dsimp only
      have hlt : (p.bytes ab).toNat < 255 := by omega
      let bytes := store (store p.bytes p.imep_length [ack0.seqno]) (p.imep_length + 4) (bytes32 ack0.ipaddr)
      have hsame : bytes ab = p.bytes ab := by
        change store (store p.bytes p.imep_length [ack0.seqno]) (p.imep_length + 4) (bytes32 ack0.ipaddr) ab = _
        rw [store_of_lt (by omega), store_of_lt hab]
      have hone : (bytes ab + 1).toNat = (p.bytes ab).toNat + 1 := by
        rw [hsame, UInt8.toNat_add]
        change ((p.bytes ab).toNat + 1) % 256 = _
        omega
      obtain ⟨taken, hq, htaken⟩ :=
        ih (p := { p with bytes := store bytes ab [bytes ab + 1], imep_length := p.imep_length + 8 })
          (by dsimp only; omega) (by dsimp only; omega)
          (by dsimp only; rw [store_singleton_self, hone]; omega)
      exact ⟨ack0 :: taken, congrArg (ack0 :: ·) hq, .cons hab hlt rfl htaken⟩

/-- What `aggregateAckBlock` makes of a new packet. -/
structure AcksPut (s s' : Sender) (p : ControlPacket) (taken : List Ack) : Prop where
  queue : s.ackQueue = taken ++ s'.ackQueue
  rest : s' = { s with ackQueue := s'.ackQueue }
  most : taken.length ≤ 62
  full : s'.ackQueue ≠ [] → taken.length = 62
  empty : taken = [] → s.ackQueue = [] ∧ p.imep_length = 4 ∧ p.ackFlag = false
  block : taken ≠ [] → p.imep_length = 10 + 8 * taken.length ∧ p.ackFlag = true ∧
    (p.bytes 4).toNat = taken.length ∧ readAcks p.bytes 10 taken.length = taken
  flags : p.helloFlag = false ∧ p.objectFlag = false

lemma aggregateAckBlock_spec (s : Sender) (m : Memory) :
    ∃ s' p taken, s.aggregateAckBlock { bytes := m } = some (s', p) ∧ AcksPut s s' p taken := by
  unfold aggregateAckBlock
  by_cases hq : s.ackQueue = []
  · rw [if_pos hq]
    refine ⟨s, _, [], rfl, rfl, rfl, Nat.zero_le _, fun h => absurd hq h, fun _ => ⟨hq, rfl, rfl⟩,
      fun h => absurd rfl h, rfl, rfl⟩
  · rw [if_neg hq]
    dsimp only
    let p : ControlPacket := { ackFlag := true, imep_length := 10, bytes := store m 4 [0] }
    have hzero : (p.bytes 4).toNat = 0 := by
      change (store m 4 [0] 4).toNat = 0
      rw [store_singleton_self]
      rfl
    have hbefore : 4 < p.imep_length := by
      change 4 < 10
      decide
    obtain ⟨taken, hqueue, htaken⟩ := appendAcks_spec (q := s.ackQueue) hbefore (by change 10 ≤ 512; decide)
      (by rw [hzero]; exact Nat.zero_le _)
    have hlength : (appendAcks 4 s.ackQueue 10 p).2.imep_length = 10 + 8 * taken.length := htaken.length
    have hfits : (appendAcks 4 s.ackQueue 10 p).2.imep_length ≤ 512 := htaken.fits
    have hne : taken ≠ [] := by
      rintro rfl
      have hrest : (appendAcks 4 s.ackQueue 10 p).1 ≠ [] := by
        change s.ackQueue = [] ++ (appendAcks 4 s.ackQueue 10 p).1 at hqueue
        rw [List.nil_append] at hqueue
        rwa [← hqueue]
      have hfull := htaken.full hrest
      change 512 < (appendAcks 4 s.ackQueue 10 p).2.imep_length + 8 at hfull
      rw [hlength] at hfull
      simp at hfull
    refine ⟨{ s with ackQueue := (appendAcks 4 s.ackQueue 10 p).1 }, (appendAcks 4 s.ackQueue 10 p).2, taken,
      if_pos hfits, hqueue, rfl, by omega, fun hrest => ?_, fun h => absurd h hne, fun _ => ?_, htaken.flags.2⟩
    · have hfull := htaken.full hrest
      change 512 < (appendAcks 4 s.ackQueue 10 p).2.imep_length + 8 at hfull
      omega
    · have hcount := htaken.count
      rw [hzero, Nat.zero_add] at hcount
      exact ⟨hlength, htaken.flags.1, hcount, htaken.acks⟩

/-! ### Hellos -/

/-- The neighbours in a queue that are to get a hello. -/
def hellosDue (now : ℚ) (links : List EchoLink) (q : List UInt32) : ℕ :=
  (q.toFinset.filter fun index => due now links index).card

variable {now : ℚ} {index : UInt32} {links : List EchoLink} {q : List UInt32}

lemma due_echo (j : UInt32) : due now (echo now index links) j = (due now links j && j ≠ index) := by
  unfold due echo
  have hcomp : ((fun l : EchoLink => decide (l.index = j)) ∘
      fun l => if l.index = index then { l with lastEcho := now } else l) = fun l => decide (l.index = j) := by
    funext l
    simp only [Function.comp_apply]
    split_ifs <;> rfl
  rw [List.find?_map, hcomp]
  cases hfind : links.find? fun l => l.index = j with
  | none => rfl
  | some l =>
    have hj : l.index = j := by simpa using List.find?_some hfind
    rw [Option.map_some, Option.any_some, Option.any_some, hj]
    by_cases hindex : j = index
    · simp [hindex]
    · simp [hindex]

lemma hellosDue_cons_due (h : due now links index) :
    hellosDue now links (index :: q) = hellosDue now (echo now index links) q + 1 := by
  unfold hellosDue
  have hfilter : (index :: q).toFinset.filter (fun j => due now links j = true) =
      insert index (q.toFinset.filter fun j => due now (echo now index links) j = true) := by
    ext j
    simp only [List.toFinset_cons, Finset.mem_filter, Finset.mem_insert, due_echo, Bool.and_eq_true, decide_eq_true_eq]
    constructor
    · rintro ⟨rfl | hj, hdue⟩
      · exact .inl rfl
      · by_cases hindex : j = index
        · exact .inl hindex
        · exact .inr ⟨hj, hdue, hindex⟩
    · rintro (rfl | ⟨hj, hdue, -⟩)
      · exact ⟨.inl rfl, h⟩
      · exact ⟨.inr hj, hdue⟩
  rw [hfilter, Finset.card_insert_of_notMem (by simp [due_echo])]

lemma hellosDue_cons_of_not_due (h : ¬due now links index) :
    hellosDue now links (index :: q) = hellosDue now links q := by
  unfold hellosDue
  rw [List.toFinset_cons, Finset.filter_insert, if_neg h]

/-- The neighbours that a response list is made of. -/
def biIndices (links : List EchoLink) : List UInt32 := (links.filter fun l => l.status = LINK_BI).map EchoLink.index

lemma biIndices_echo : biIndices (echo now index links) = biIndices links := by
  unfold biIndices echo
  have hstatus : ((fun l : EchoLink => decide (l.status = LINK_BI)) ∘
      fun l => if l.index = index then { l with lastEcho := now } else l) = fun l => decide (l.status = LINK_BI) := by
    funext l
    simp only [Function.comp_apply]
    split_ifs <;> rfl
  have hindex : (EchoLink.index ∘ fun l => if l.index = index then { l with lastEcho := now } else l) =
      EchoLink.index := by
    funext l
    simp only [Function.comp_apply]
    split_ifs <;> rfl
  rw [List.filter_map, hstatus, List.map_map, hindex]

/-- What the loop of `aggregateHelloBlock` does behind a packet. -/
structure HellosAppended (now : ℚ) (p : ControlPacket) (links : List EchoLink) (q : List UInt32) (n : ℕ)
    (r : HelloLoop) : Prop where
  length : r.packet.imep_length + 4 * n = p.imep_length + 4 * r.inserted
  fits : r.packet.imep_length ≤ 512
  full : r.queue ≠ [] → 512 < r.packet.imep_length + 4
  hellos : hellosDue now r.links r.queue + r.inserted = hellosDue now links q + n
  shorter : r.queue.length + r.inserted ≤ q.length + n
  links : biIndices r.links = biIndices links
  same : Agree p.bytes r.packet.bytes 0 p.imep_length
  flags : r.packet.ackFlag = p.ackFlag ∧ r.packet.helloFlag = p.helloFlag ∧ r.packet.objectFlag = p.objectFlag

lemma HellosAppended.cons {r : HelloLoop} (hdue : due now links index)
    (h : HellosAppended now
      { p with bytes := store p.bytes p.imep_length (bytes32 index), imep_length := p.imep_length + 4 }
      (echo now index links) q (n + 1) r) : HellosAppended now p links (index :: q) n r := by
  have hlength := h.length
  have hshorter := h.shorter
  dsimp only at hlength
  refine ⟨by omega, h.fits, h.full, ?_, ?_, h.links.trans biIndices_echo, ?_, h.flags⟩
  · rw [h.hellos, hellosDue_cons_due hdue]
    omega
  · rw [List.length_cons]
    omega
  · exact Agree.trans (agree_store_of_le le_rfl) (h.same.mono le_rfl (Nat.le_add_right _ _))

lemma HellosAppended.skip {r : HelloLoop} (hdue : ¬due now links index) (h : HellosAppended now p links q n r) :
    HellosAppended now p links (index :: q) n r := by
  have hshorter := h.shorter
  refine ⟨h.length, h.fits, h.full, ?_, ?_, h.links, h.same, h.flags⟩
  · rw [h.hellos, hellosDue_cons_of_not_due hdue]
  · rw [List.length_cons]
    omega

lemma appendHellos_spec (hfits : p.imep_length ≤ 512) :
    HellosAppended now p links q n (appendHellos now q p.imep_length links n p) := by
  induction q generalizing p links n with
  | nil => exact ⟨rfl, hfits, fun h => absurd rfl h, rfl, le_rfl, rfl, agree_refl, rfl, rfl, rfl⟩
  | cons index q ih =>
    rw [appendHellos]
    unfold IMEP_HDR_LEN sizeof_imep_hello
    split_ifs with hroom hdue
    · exact ⟨rfl, hfits, fun _ => hroom, rfl, le_rfl, rfl, agree_refl, rfl, rfl, rfl⟩
    · exact .cons hdue (ih (by dsimp only; omega))
    · exact .skip hdue (ih hfits)

/-- What `aggregateHelloBlock` adds to a packet without hellos; `h` of them are sent. -/
structure HellosPut (now : ℚ) (s s' : Sender) (p p' : ControlPacket) (h : ℕ) : Prop where
  rest : s' = { s with helloQueue := s'.helloQueue, links := s'.links }
  links : biIndices s'.links = biIndices s.links
  hellos : hellosDue now s'.links s'.helloQueue + h = hellosDue now s.links s.helloQueue
  shorter : s'.helloQueue.length + h ≤ s.helloQueue.length
  empty : h = 0 → p'.imep_length = p.imep_length ∧ p'.helloFlag = false
  block : h ≠ 0 → p'.imep_length = p.imep_length + 6 + 4 * h ∧ p'.helloFlag = true ∧
    (p'.bytes p.imep_length).toNat = h
  /-- There is no room for more. -/
  full : s'.helloQueue ≠ [] → 512 < p.imep_length + 10 + 4 * h
  skipped : 512 < p.imep_length + 10 → s' = s
  fits : p'.imep_length ≤ 512
  same : Agree p.bytes p'.bytes 0 p.imep_length
  flags : p'.ackFlag = p.ackFlag ∧ p'.objectFlag = p.objectFlag

lemma aggregateHelloBlock_spec (now : ℚ) (s : Sender) (hfits : p.imep_length ≤ 512) (hflag : p.helloFlag = false) :
    ∃ s' p' h, s.aggregateHelloBlock now p = some (s', p') ∧ HellosPut now s s' p p' h := by
  unfold aggregateHelloBlock
  unfold IMEP_HDR_LEN sizeof_imep_hello_block sizeof_imep_hello
  by_cases hq : s.helloQueue = []
  · rw [if_pos hq]
    exact ⟨s, p, 0, rfl, rfl, rfl, rfl, le_rfl, fun _ => ⟨rfl, hflag⟩, fun h => absurd rfl h, fun h => absurd hq h,
      fun _ => rfl, hfits, agree_refl, rfl, rfl⟩
  · rw [if_neg hq]
    by_cases hroom : p.imep_length + 6 + 4 > 512
    · rw [if_pos hroom]
      exact ⟨s, p, 0, rfl, rfl, rfl, rfl, le_rfl, fun _ => ⟨rfl, hflag⟩, fun h => absurd rfl h, fun _ => hroom,
        fun _ => rfl, hfits, agree_refl, rfl, rfl⟩
    · rw [if_neg hroom]
      dsimp only
      have hr : HellosAppended now { p with imep_length := p.imep_length + 6 } s.links s.helloQueue 0
          (appendHellos now s.helloQueue (p.imep_length + 6) s.links 0 { p with imep_length := p.imep_length + 6 }) :=
        appendHellos_spec (by dsimp only; omega)
      generalize appendHellos now s.helloQueue (p.imep_length + 6) s.links 0
        { p with imep_length := p.imep_length + 6 } = r at hr ⊢
      have hlength := hr.length
      have hdue := hr.hellos
      have hshorter := hr.shorter
      have hle := hr.fits
      dsimp only at hlength
      have hfull : r.queue ≠ [] → 512 < p.imep_length + 10 + 4 * r.inserted := by
        intro hne
        have hfull := hr.full hne
        omega
      have hsame : Agree p.bytes r.packet.bytes 0 p.imep_length := hr.same.mono le_rfl (Nat.le_add_right _ _)
      by_cases hzero : r.inserted = 0
      · rw [if_pos hzero]
        refine ⟨_, _, 0, rfl, rfl, hr.links, by dsimp only; omega, by dsimp only; omega,
          fun _ => ⟨?_, hr.flags.2.1.trans hflag⟩, fun h => absurd rfl h, fun h => hzero ▸ hfull h,
          fun h => absurd h hroom, ?_, hsame, hr.flags.1, hr.flags.2.2⟩
        · dsimp only
          omega
        · dsimp only
          omega
      · rw [if_neg hzero, if_pos hle]
        refine ⟨_, _, r.inserted, rfl, rfl, hr.links, hdue, hshorter, fun h => absurd h hzero, fun _ => ⟨?_, rfl, ?_⟩,
          hfull, fun h => absurd h hroom, hle, hsame.trans (agree_store_of_le le_rfl), hr.flags.1, hr.flags.2.2⟩
        · dsimp only
          omega
        · dsimp only
          rw [store_singleton_self, UInt8.toNat_ofNat']
          omega

/-! ### Objects -/

/-- The bytes of an object. -/
def toraObject (t : ToraHeader) : List UInt8 := load t 0 ((toraHeaderLength t).getD 0)

/-- The places that objects take. -/
def objectsLength (ts : List ToraHeader) : ℕ := (ts.map fun t => 2 + (toraObject t).length).sum

variable {t : ToraHeader} {l R : ℕ}

lemma toraHeaderLength_cases (h : toraHeaderLength t = some l) : l = 8 ∨ l = 32 ∨ l = 24 := by
  unfold toraHeaderLength at h
  split_ifs at h
  · exact .inl (Option.some.inj h).symm
  · exact .inr (.inl (Option.some.inj h).symm)
  · exact .inr (.inr (Option.some.inj h).symm)

lemma toraObject_eq (h : toraHeaderLength t = some l) : toraObject t = load t 0 l := by
  unfold toraObject
  rw [h, Option.getD_some]

lemma length_toraObject (h : toraHeaderLength t = some l) : (toraObject t).length = l := by
  rw [toraObject_eq h, length_load]

/-- The objects of a queue that are put into a packet with room for responses, and those that stay. -/
structure ObjectsAppended (R : ℕ) (p p' : ControlPacket) (taken rest : List ToraHeader) : Prop where
  length : p'.imep_length = p.imep_length + objectsLength taken
  room : taken ≠ [] → p'.imep_length + R ≤ 512
  full : ∀ t ∈ rest.head?, 512 < p'.imep_length + 2 + (toraObject t).length + R
  objects : readObjects p'.bytes (p.imep_length + 1) taken.length = some (taken.map toraObject)
  same : Agree p.bytes p'.bytes 0 (p.imep_length + 1)
  flags : p'.ackFlag = p.ackFlag ∧ p'.helloFlag = p.helloFlag ∧ p'.objectFlag = p.objectFlag

lemma ObjectsAppended.cons {p' : ControlPacket} {taken rest : List ToraHeader} (ht : toraHeaderLength t = some l)
    (hroom : p.imep_length + 2 + l + R ≤ 512)
    (h : ObjectsAppended R { p with
      bytes := store (store p.bytes (p.imep_length + 1 + 2) (load t 0 l)) (p.imep_length + 1) (bytes16 l)
      imep_length := p.imep_length + (2 + l) } p' taken rest) : ObjectsAppended R p p' (t :: taken) rest := by
  have hlength := h.length
  have hroomy := h.room
  dsimp only at hlength
  have hl := toraHeaderLength_cases ht
  have hlen := length_toraObject ht
  have hcons : objectsLength (t :: taken) = 2 + l + objectsLength taken := by
    unfold objectsLength
    rw [List.map_cons, List.sum_cons, hlen]
  refine ⟨by omega, fun _ => ?_, h.full, ?_, ?_, h.flags⟩
  · by_cases hne : taken = []
    · subst hne
      have hnil : objectsLength [] = 0 := rfl
      omega
    · exact hroomy hne
  · have hkept := h.same
    dsimp only at hkept
    have hl16 : load16 p'.bytes (p.imep_length + 1) = l := by
      rw [load16_congr (hkept.mono (Nat.zero_le _) (by omega)), load16_eq_iff (by omega)]
      exact load_store_self
    have hobject : load p'.bytes (p.imep_length + 1 + 2) l = toraObject t := by
      rw [load_congr (hkept.mono (Nat.zero_le _) (by omega)),
        load_congr (agree_store_of_ge (by rw [length_bytes16])), toraObject_eq ht]
      exact load_store_load
    have hrest := h.objects
    dsimp only at hrest
    have hpos : p.imep_length + 1 + 2 + l = p.imep_length + (2 + l) + 1 := by omega
    have hl0 : l ≠ 0 := by omega
    rw [List.length_cons, readObjects, hl16, if_neg hl0]
    unfold IMEP_OBJECT_SIZE
    rw [hobject, hpos, hrest]
    rfl
  · intro i _ hi
    rw [h.same i (Nat.zero_le _) (by dsimp only; omega)]
    dsimp only
    rw [store_of_lt hi, store_of_lt (by omega)]

/-- The loop over the queue succeeds on TORA packets. -/
lemma appendObjects_spec {q : List ToraHeader} (htora : ∀ t ∈ q, (toraHeaderLength t).isSome) :
    ∃ taken rest p', appendObjects R q (p.imep_length + 1) n p = some (rest, n + taken.length, p') ∧
      q = taken ++ rest ∧ ObjectsAppended R p p' taken rest := by
  induction q generalizing p n with
  | nil => exact ⟨[], [], p, rfl, rfl, rfl, fun h => absurd rfl h, by simp, rfl, agree_refl, rfl, rfl, rfl⟩
  | cons t q ih =>
    obtain ⟨l, hl⟩ := Option.isSome_iff_exists.mp (htora t List.mem_cons_self)
    rw [appendObjects, hl, Option.bind_eq_bind, Option.bind_some]
    unfold IMEP_HDR_LEN IMEP_OBJECT_SIZE
    by_cases hroom : p.imep_length + 2 + l + R > 512
    · rw [if_pos hroom]
      refine ⟨[], t :: q, p, rfl, rfl, rfl, fun h => absurd rfl h, ?_, rfl, agree_refl, rfl, rfl, rfl⟩
      rintro u hu
      obtain rfl : t = u := by simpa using hu
      rwa [length_toraObject hl]
    · rw [if_neg hroom]
      obtain ⟨taken, rest, p', happend, hq, htaken⟩ := ih (n := n + 1) (p := { p with
        bytes := store (store p.bytes (p.imep_length + 1 + 2) (load t 0 l)) (p.imep_length + 1) (bytes16 l)
        imep_length := p.imep_length + (2 + l) }) fun u hu => htora u (List.mem_cons_of_mem t hu)
      refine ⟨t :: taken, rest, p', ?_, congrArg (t :: ·) hq, .cons hl (by omega) htaken⟩
      have hpos : p.imep_length + (2 + l) + 1 = p.imep_length + 1 + 2 + l := by omega
      dsimp only at happend ⊢
      rw [hpos] at happend
      rw [happend, List.length_cons, Nat.add_right_comm, Nat.add_assoc]

/-! ### Responses -/

/-- The responses are put at the end of the packet, and their number in the object block. -/
structure ResponsesAppended (ob : ℕ) (ls : List UInt32) (p p' : ControlPacket) : Prop where
  length : p'.imep_length = p.imep_length + 4 * ls.length
  number : field p'.bytes (ob + 3) 5 = (field p.bytes (ob + 3) 5 + ls.length) % 32
  responses : load32s p'.bytes p.imep_length ls.length = ls
  same : ∀ i, i ≠ ob + 3 → i < p.imep_length ∨ p.imep_length + 4 * ls.length ≤ i → p'.bytes i = p.bytes i
  flags : p'.ackFlag = p.ackFlag ∧ p'.helloFlag = p.helloFlag ∧ p'.objectFlag = p.objectFlag

lemma appendResponses_spec {ob : ℕ} {ls : List UInt32} (hob : ob + 3 < p.imep_length) :
    ResponsesAppended ob ls p (appendResponses ob ls p.imep_length p) := by
  induction ls generalizing p with
  | nil =>
    refine ⟨rfl, ?_, rfl, fun _ _ _ => rfl, rfl, rfl, rfl⟩
    exact (Nat.mod_eq_of_lt (Nat.mod_lt _ (by decide))).symm
  | cons index ls ih =>
    rw [appendResponses]
    unfold sizeof_imep_response
    let bytes := storeField p.bytes (ob + 3) 5 (field p.bytes (ob + 3) 5 + 1)
    have hplaced : ResponsesAppended ob ls
        { p with bytes := store bytes p.imep_length (bytes32 index), imep_length := p.imep_length + 4 }
        (appendResponses ob ls (p.imep_length + 4)
          { p with bytes := store bytes p.imep_length (bytes32 index), imep_length := p.imep_length + 4 }) :=
      ih (by dsimp only; omega)
    generalize appendResponses ob ls (p.imep_length + 4) { p with
      bytes := store bytes p.imep_length (bytes32 index), imep_length := p.imep_length + 4 } = p' at hplaced ⊢
    have hlength := hplaced.length
    have hnumber := hplaced.number
    have hsame := hplaced.same
    dsimp only at hlength hnumber hsame
    refine ⟨?_, ?_, ?_, ?_, hplaced.flags⟩
    · rw [List.length_cons]
      omega
    · have hone : field (store bytes p.imep_length (bytes32 index)) (ob + 3) 5 =
          (field p.bytes (ob + 3) 5 + 1) % 32 := by
        rw [field_congr (store_of_lt hob)]
        exact field_storeField (by decide)
      rw [hnumber, hone, List.length_cons]
      omega
    · have hfirst : load32 p'.bytes p.imep_length = index := by
        have hkept : Agree (store bytes p.imep_length (bytes32 index)) p'.bytes p.imep_length (p.imep_length + 4) :=
          fun i hi hlt => hsame i (by omega) (.inl hlt)
        rw [load32_congr hkept, load32_store]
      rw [List.length_cons, load32s, hfirst]
      congr 1
      exact hplaced.responses
    · intro i hne hi
      rw [List.length_cons] at hi
      rw [hsame i hne (by omega)]
      have hbytes : bytes i = p.bytes i := storeField_of_ne hne
      rw [← hbytes]
      rcases hi with hi | hi
      · exact store_of_lt hi
      · exact store_of_le (by rw [length_bytes32]; omega)

/-! ### The object block -/

/-- The blocks in front of place `ob` are complete. -/
def Laid (p : ControlPacket) (ob : ℕ) : Prop :=
  ∃ hb, (if p.ackFlag then 0 < (p.bytes 4).toNat ∧ hb = 4 + ((p.bytes 4).toNat * 8 + 6) else hb = 4) ∧
    if p.helloFlag then 0 < (p.bytes hb).toNat ∧ ob = hb + ((p.bytes hb).toNat * 4 + 6) else ob = hb

variable {ob : ℕ} {p' : ControlPacket}

lemma Laid.congr (h : Laid p ob) (hflags : p'.ackFlag = p.ackFlag ∧ p'.helloFlag = p.helloFlag)
    (hsame : Agree p.bytes p'.bytes 0 ob) : Laid p' ob := by
  obtain ⟨hb, hack, hhello⟩ := h
  refine ⟨hb, ?_, ?_⟩
  · rw [hflags.1]
    by_cases hflag : p.ackFlag
    · rw [if_pos hflag] at hack ⊢
      have hlt : 4 < ob := by
        split_ifs at hhello
        · omega
        · omega
      rwa [hsame 4 (Nat.zero_le _) hlt]
    · rwa [if_neg hflag] at hack ⊢
  · rw [hflags.2]
    by_cases hflag : p.helloFlag
    · rw [if_pos hflag] at hhello ⊢
      rwa [hsame hb (Nat.zero_le _) (by omega)]
    · rwa [if_neg hflag] at hhello ⊢

lemma Laid.findObjectBlock (h : Laid p ob) (hproto : field p.bytes (ob + 1) 4 = PROTO_TORA)
    (hn : 0 < field p.bytes (ob + 2) 7) : p.findObjectBlock = some ob := by
  obtain ⟨hb, hack, hhello⟩ := h
  have hhere : (if field p.bytes (ob + 1) 4 = PROTO_TORA ∧ 0 < field p.bytes (ob + 2) 7 then some ob else none) =
      some ob := if_pos ⟨hproto, hn⟩
  unfold ControlPacket.findObjectBlock sizeof_hdr_imep sizeof_imep_ack sizeof_imep_ack_block sizeof_imep_hello
    sizeof_imep_hello_block
  dsimp only
  split_ifs at hack hhello with hackFlag hhelloFlag hhelloFlag
  · rw [if_pos hackFlag, if_pos hack.1, Option.bind_eq_bind, Option.bind_some, if_pos hhelloFlag, ← hack.2,
      if_pos hhello.1, Option.bind_some, ← hhello.2, hhere]
  · rw [if_pos hackFlag, if_pos hack.1, Option.bind_eq_bind, Option.bind_some, if_neg hhelloFlag, ← hack.2,
      Option.bind_some, ← hhello, hhere]
  · subst hack
    rw [if_neg hackFlag, Option.bind_eq_bind, Option.bind_some, if_pos hhelloFlag, if_pos hhello.1,
      Option.bind_some, ← hhello.2, hhere]
  · subst hack hhello
    rw [if_neg hackFlag, Option.bind_eq_bind, Option.bind_some, if_neg hhelloFlag, Option.bind_some, hhere]

/-- A packet has an object block with these objects and a response list for these neighbours. The objects are as
they have been put there up to the place where the response list begins. -/
structure Carries (ls : List UInt32) (p : ControlPacket) (ts : List ToraHeader) (ob : ℕ) : Prop where
  block : p.findObjectBlock = some ob
  count : field p.bytes (ob + 2) 7 = ts.length
  objects : ∃ m, readObjects m (ob + 5) ts.length = some (ts.map toraObject) ∧
    ∀ i, ob + 5 ≤ i → (ls ≠ [] → i < p.imep_length - 4 * ls.length) → p.bytes i = m i
  number : field p.bytes (ob + 3) 5 = ls.length
  responses : load32s p.bytes (p.imep_length - 4 * ls.length) ls.length = ls

lemma readObjects_shift {m m' : Memory} (h : ∀ i, m' (b + i) = m (a + i)) : readObjects m' b n = readObjects m a n := by
  induction n generalizing a b with
  | zero => rfl
  | succ n ih =>
    have hlength : load16 m' b = load16 m a := by
      unfold load16
      rw [h 1, show m' b = m a from h 0]
    have hbytes : load m' (b + 2) (load16 m a) = load m (a + 2) (load16 m a) := by
      refine load_eq_iff.mpr fun i _ => ?_
      rw [Nat.add_assoc, h, Nat.add_assoc]
    have hrest : readObjects m' (b + 2 + load16 m a) n = readObjects m (a + 2 + load16 m a) n := by
      refine ih fun i => ?_
      rw [Nat.add_assoc, Nat.add_assoc, h, Nat.add_assoc, Nat.add_assoc]
    rw [readObjects, readObjects, hlength]
    unfold IMEP_OBJECT_SIZE
    rw [hbytes, hrest]

/-- The copy for the retransmission queue has the same objects and responses. -/
lemma Carries.stripped {ls : List UInt32} {ts : List ToraHeader} (h : Carries ls p ts ob) (hls : ls ≠ [])
    (hts : ts ≠ []) (hob : 4 ≤ ob) (hproto : field p.bytes (ob + 1) 4 = PROTO_TORA)
    (hlong : ob + 4 + 4 * ls.length ≤ p.imep_length) : Carries ls (stripped ob p) ts 4 := by
  have hcopy : ∀ k < p.imep_length - ob, (Sender.stripped ob p).bytes (4 + k) = p.bytes (ob + k) :=
    fun k hk => store_load hk
  have hlength : (Sender.stripped ob p).imep_length = 4 + (p.imep_length - ob) := rfl
  have hlsPos := List.length_pos_iff.mpr hls
  have hfield : ∀ k w, k < p.imep_length - ob →
      field (Sender.stripped ob p).bytes (4 + k) w = field p.bytes (ob + k) w := by
    intro k w hk
    rw [field, field, hcopy k hk]
  have hcount : field (Sender.stripped ob p).bytes (4 + 2) 7 = ts.length := by
    rw [hfield 2 7 (by omega), h.count]
  obtain ⟨m, hm, hbytes⟩ := h.objects
  refine ⟨?_, hcount, ⟨fun i => m (ob + (i - 4)), ?_, ?_⟩, ?_, ?_⟩
  · have hlaid : Laid (Sender.stripped ob p) 4 := ⟨4, rfl, rfl⟩
    refine hlaid.findObjectBlock ?_ ?_
    · rw [hfield 1 4 (by omega), hproto]
    · rw [hcount]
      exact List.length_pos_iff.mpr hts
  · rw [← hm]
    refine readObjects_shift fun i => ?_
    congr 1
    omega
  · intro i hi hlt
    have hlt' := hlt hls
    rw [hlength] at hlt'
    have hk := hcopy (i - 4) (by omega)
    rw [Nat.add_sub_cancel' (by omega)] at hk
    rw [hk]
    exact hbytes _ (by omega) fun _ => by omega
  · rw [hfield 3 5 (by omega), h.number]
  · have hstart : (Sender.stripped ob p).imep_length - 4 * ls.length = 4 + (p.imep_length - 4 * ls.length - ob) := by
      rw [hlength]
      omega
    have hshift : load32s (Sender.stripped ob p).bytes (4 + (p.imep_length - 4 * ls.length - ob)) ls.length =
        load32s p.bytes (p.imep_length - 4 * ls.length) ls.length := by
      refine load32s_shift fun i hi => ?_
      rw [Nat.add_assoc, hcopy _ (by omega)]
      congr 1
      omega
    rw [hstart, hshift, h.responses]

/-- What `aggregateObjectBlock` adds to a packet without objects where there is room for an object block. -/
structure ObjectsPut (s s' : Sender) (p p' : ControlPacket) (saved : Option ControlPacket)
    (taken : List ToraHeader) : Prop where
  queue : s.objectQueue = taken ++ s'.objectQueue
  rest : s' = { s with objectQueue := s'.objectQueue, controlSequence := s'.controlSequence }
  fits : p'.imep_length ≤ 512
  same : Agree p.bytes p'.bytes 0 p.imep_length
  flags : p'.ackFlag = p.ackFlag ∧ p'.helloFlag = p.helloFlag
  empty : taken = [] → p'.objectFlag = false
  flag : taken ≠ [] → p'.objectFlag = true
  room : taken ≠ [] → p.imep_length + 14 ≤ 512
  full : ∀ t ∈ s'.objectQueue.head?, taken = [] →
    512 < p.imep_length + 6 + (toraObject t).length + 4 * s.biLinks.length
  carries : taken ≠ [] → s.biLinks.length < 32 → Carries s.biLinks p' taken p.imep_length
  saved : taken ≠ [] → s.biLinks.length < 32 → s.biLinks ≠ [] →
    ∃ sp, saved = some sp ∧ Carries s.biLinks sp taken 4

lemma createResponseList_spec {s : Sender} (hblock : p.findObjectBlock = some ob) (hob : ob + 3 < p.imep_length) :
    ∃ s' p' seq, s.createResponseList p = some (s', p') ∧ s' = { s with controlSequence := s'.controlSequence } ∧
      ResponsesAppended ob s.biLinks { p with bytes := store p.bytes ob [seq] } p' := by
  unfold createResponseList
  rw [hblock]
  exact ⟨_, _, _, rfl, rfl, appendResponses_spec hob⟩

/-- An object has at least eight bytes. -/
lemma ten_le_objectsLength {ts : List ToraHeader} (htora : ∀ t ∈ ts, (toraHeaderLength t).isSome) :
    10 * ts.length ≤ objectsLength ts := by
  induction ts with
  | nil => exact le_rfl
  | cons t ts ih =>
    obtain ⟨l, hl⟩ := Option.isSome_iff_exists.mp (htora t List.mem_cons_self)
    have hrest := ih fun u hu => htora u (List.mem_cons_of_mem t hu)
    have hcases := toraHeaderLength_cases hl
    have hlen := length_toraObject hl
    unfold objectsLength at hrest ⊢
    rw [List.map_cons, List.sum_cons, List.length_cons, hlen]
    omega

/-- The object block before the first object. -/
def objectHeader (p : ControlPacket) : ControlPacket :=
  { p with
    bytes := storeField (storeField (store p.bytes p.imep_length [0]) (p.imep_length + 1) 4 PROTO_TORA)
      (p.imep_length + 3) 5 0
    imep_length := p.imep_length + 4 }

lemma objectHeader_same : Agree p.bytes (objectHeader p).bytes 0 p.imep_length := by
  intro i _ hi
  change storeField _ (p.imep_length + 3) 5 0 i = _
  rw [storeField_of_ne (by omega), storeField_of_ne (by omega), store_of_lt hi]

lemma objectHeader_protocol : field (objectHeader p).bytes (p.imep_length + 1) 4 = PROTO_TORA := by
  change field (storeField _ (p.imep_length + 3) 5 0) (p.imep_length + 1) 4 = _
  rw [field_congr (storeField_of_ne (by omega)), field_storeField (by decide)]
  rfl

lemma objectHeader_number : field (objectHeader p).bytes (p.imep_length + 3) 5 = 0 := field_storeField (by decide)

section ObjectBlock
variable {ls : List UInt32} {taken rest : List ToraHeader} {p₁ p₂ : ControlPacket} {seq : UInt8}

/-- The object block of `p` is completed behind its objects, and the responses follow. -/
def Completed (p p₁ p₂ : ControlPacket) (ls : List UInt32) (n : ℕ) (seq : UInt8) : Prop :=
  ResponsesAppended p.imep_length ls { p₁ with
    objectFlag := true
    bytes := store (storeField p₁.bytes (p.imep_length + 2) 7 n) p.imep_length [seq] } p₂

lemma Completed.kept {i : ℕ} (h : Completed p p₁ p₂ ls n seq) (h₀ : i ≠ p.imep_length) (h₂ : i ≠ p.imep_length + 2)
    (h₃ : i ≠ p.imep_length + 3) (hi : i < p₁.imep_length ∨ p₁.imep_length + 4 * ls.length ≤ i) :
    p₂.bytes i = p₁.bytes i := by
  rw [h.same i h₃ hi]
  dsimp only
  have hfield : storeField p₁.bytes (p.imep_length + 2) 7 n i = p₁.bytes i := storeField_of_ne h₂
  rw [← hfield]
  rcases Nat.lt_or_gt_of_ne h₀ with hlt | hgt
  · exact store_of_lt hlt
  · exact store_of_le hgt

/-- `createResponseList` finds the object block. -/
lemma block_found (htaken : ObjectsAppended R (objectHeader p) p₁ taken rest) (hlaid : Laid p p.imep_length)
    (hne : taken ≠ []) (hcount : taken.length < 128) :
    ({ p₁ with objectFlag := true, bytes := storeField p₁.bytes (p.imep_length + 2) 7 taken.length } :
      ControlPacket).findObjectBlock = some p.imep_length := by
  have hsame : ∀ i < p.imep_length + 5, i ≠ p.imep_length + 2 →
      storeField p₁.bytes (p.imep_length + 2) 7 taken.length i = (objectHeader p).bytes i := by
    intro i hi hne
    rw [storeField_of_ne hne]
    exact htaken.same i (Nat.zero_le _) hi
  refine Laid.findObjectBlock (hlaid.congr ⟨htaken.flags.1, htaken.flags.2.1⟩ ?_) ?_ ?_
  · intro i hpos hi
    dsimp only
    rw [hsame i (by omega) (by omega), objectHeader_same i hpos hi]
  · dsimp only
    rw [field_congr (hsame _ (by omega) (by omega)), objectHeader_protocol]
  · have hmod : taken.length % 2 ^ 7 = taken.length := Nat.mod_eq_of_lt hcount
    dsimp only
    rw [field_storeField (by decide), hmod]
    exact List.length_pos_iff.mpr hne

variable (htaken : ObjectsAppended R (objectHeader p) p₁ taken rest)
  (hput : Completed p p₁ p₂ ls taken.length seq)
include htaken hput

lemma completed_length : p₁.imep_length = p.imep_length + 4 + objectsLength taken ∧
    p₂.imep_length = p₁.imep_length + 4 * ls.length :=
  ⟨htaken.length, hput.length⟩

lemma completed_same : Agree p.bytes p₂.bytes 0 p.imep_length := by
  intro i hpos hi
  have hlength := htaken.length
  change p₁.imep_length = p.imep_length + 4 + objectsLength taken at hlength
  have hearly : i < (objectHeader p).imep_length + 1 := by
    change i < p.imep_length + 5
    omega
  rw [hput.kept (by omega) (by omega) (by omega) (.inl (by omega)), htaken.same i hpos hearly,
    objectHeader_same i hpos hi]

lemma completed_protocol : field p₂.bytes (p.imep_length + 1) 4 = PROTO_TORA := by
  have hlength := htaken.length
  change p₁.imep_length = p.imep_length + 4 + objectsLength taken at hlength
  rw [← objectHeader_protocol (p := p)]
  refine field_congr ?_
  rw [hput.kept (by omega) (by omega) (by omega) (.inl (by omega))]
  exact htaken.same _ (Nat.zero_le _) (by change p.imep_length + 1 < p.imep_length + 5; omega)

/-- The packet with its objects, and the responses behind them. -/
lemma carries_of_completed (hlaid : Laid p p.imep_length) (hne : taken ≠ []) (hcount : taken.length < 128)
    (hls : ls.length < 32) : Carries ls p₂ taken p.imep_length := by
  obtain ⟨hlength₁, hlength₂⟩ := completed_length htaken hput
  have hnumber : field p₁.bytes (p.imep_length + 3) 5 = 0 := by
    rw [← objectHeader_number (p := p)]
    exact field_congr (htaken.same _ (Nat.zero_le _) (by change p.imep_length + 3 < p.imep_length + 5; omega))
  have hcounted : field p₂.bytes (p.imep_length + 2) 7 = taken.length := by
    rw [field_congr (hput.same _ (by omega) (.inl (by dsimp only; omega)))]
    dsimp only
    rw [field_congr (store_of_le (by change p.imep_length + 1 ≤ _; omega)), field_storeField (by decide)]
    exact Nat.mod_eq_of_lt hcount
  have hflags : p₂.ackFlag = p.ackFlag ∧ p₂.helloFlag = p.helloFlag :=
    ⟨hput.flags.1.trans htaken.flags.1, hput.flags.2.1.trans htaken.flags.2.1⟩
  have hstart : p₂.imep_length - 4 * ls.length = p₁.imep_length := by omega
  refine ⟨?_, hcounted, ⟨p₁.bytes, htaken.objects, fun i hi hlt => ?_⟩, ?_, ?_⟩
  · refine (hlaid.congr hflags (completed_same htaken hput)).findObjectBlock (completed_protocol htaken hput) ?_
    rw [hcounted]
    exact List.length_pos_iff.mpr hne
  · refine hput.kept (by omega) (by omega) (by omega) ?_
    rw [hstart] at hlt
    by_cases hnil : ls = []
    · subst hnil
      exact Nat.lt_or_ge i p₁.imep_length
    · exact .inl (hlt hnil)
  · rw [hput.number]
    dsimp only
    rw [field_congr (store_of_le (by change p.imep_length + 1 ≤ _; omega)),
      field_congr (storeField_of_ne (by omega)), hnumber, Nat.zero_add]
    exact Nat.mod_eq_of_lt hls
  · rw [hstart]
    exact hput.responses

end ObjectBlock

lemma aggregateObjectBlock_spec {s : Sender} (hq : s.objectQueue ≠ []) (hroom : p.imep_length + 4 ≤ 512)
    (hlaid : Laid p p.imep_length) (hob : 4 ≤ p.imep_length) (hflag : p.objectFlag = false)
    (htora : ∀ t ∈ s.objectQueue, (toraHeaderLength t).isSome) :
    ∃ s' p' saved taken, s.aggregateObjectBlock p = some (s', p', saved) ∧ ObjectsPut s s' p p' saved taken := by
  obtain ⟨taken, rest, p₁, happend, hsplit, htaken⟩ :=
    appendObjects_spec (p := objectHeader p) (R := s.getResponseListSize) (n := 0) htora
  have hsize : s.getResponseListSize = 4 * s.biLinks.length := Nat.mul_comm _ _
  have hlength : p₁.imep_length = p.imep_length + 4 + objectsLength taken := htaken.length
  have hten : 10 * taken.length ≤ objectsLength taken := ten_le_objectsLength fun t ht => htora t (by
    rw [hsplit]
    exact List.mem_append_left rest ht)
  have hheader : aggregateObjectBlock s p = (appendObjects s.getResponseListSize s.objectQueue
      ((objectHeader p).imep_length + 1) 0 (objectHeader p)).bind fun r =>
        if r.2.2.imep_length > 512 then none
        else if r.2.1 = 0 then
          some ({ s with objectQueue := r.1 }, { r.2.2 with imep_length := r.2.2.imep_length - 4 }, none)
        else
          ({ s with objectQueue := r.1 }.createResponseList
            { r.2.2 with
              objectFlag := true, bytes := storeField r.2.2.bytes (p.imep_length + 2) 7 r.2.1 }).bind fun u =>
            some (u.1, u.2, if 0 < field u.2.bytes (p.imep_length + 3) 5 then some (stripped p.imep_length u.2)
              else none) := by
    unfold aggregateObjectBlock
    rw [if_neg (by unfold IMEP_HDR_LEN; simp only [hq, false_or]; omega)]
    rfl
  rw [Nat.zero_add] at happend
  rw [hheader, happend, Option.bind_some]
  dsimp only
  by_cases hnil : taken = []
  · subst hnil
    have hzero : objectsLength [] = 0 := rfl
    rw [if_neg (by omega), if_pos List.length_nil]
    refine ⟨_, _, _, [], rfl, hsplit, rfl, ?_, ?_, ⟨htaken.flags.1, htaken.flags.2.1⟩,
      fun _ => htaken.flags.2.2.trans hflag, fun h => absurd rfl h, fun h => absurd rfl h, ?_, fun h => absurd rfl h,
      fun h => absurd rfl h⟩
    · dsimp only
      omega
    · intro i hpos hi
      dsimp only
      rw [htaken.same i hpos (by change i < p.imep_length + 5; omega), objectHeader_same i hpos hi]
    · intro t ht _
      have hfull := htaken.full t ht
      omega
  · have hpos := List.length_pos_iff.mpr hnil
    have hfits := htaken.room hnil
    rw [if_neg (by omega), if_neg (by omega)]
    have hfound := block_found htaken hlaid hnil (by omega)
    obtain ⟨s', p₂, seq, hcreate, hrest, hput⟩ := createResponseList_spec (s := { s with objectQueue := rest }) hfound
      (by dsimp only; omega)
    change Completed p p₁ p₂ s.biLinks taken.length seq at hput
    have hlength₂ : p₂.imep_length = p₁.imep_length + 4 * s.biLinks.length := hput.length
    have hproto := completed_protocol htaken hput
    have hcarries : s.biLinks.length < 32 → Carries s.biLinks p₂ taken p.imep_length :=
      carries_of_completed htaken hput hlaid hnil (by omega)
    rw [hcreate, Option.bind_some]
    have hqueue : s'.objectQueue = rest := by rw [hrest]
    refine ⟨_, _, _, taken, rfl, ?_, ?_, by dsimp only; omega, completed_same htaken hput,
      ⟨hput.flags.1.trans htaken.flags.1, hput.flags.2.1.trans htaken.flags.2.1⟩, fun h => absurd h hnil,
      fun _ => hput.flags.2.2, fun _ => by omega, fun t _ h => absurd h hnil, fun _ => hcarries, fun _ hls hne => ?_⟩
    · rw [hqueue, hsplit]
    · rw [hqueue]
      exact hrest
    · have hpositive : 0 < field p₂.bytes (p.imep_length + 3) 5 := by
        rw [(hcarries hls).number]
        exact List.length_pos_iff.mpr hne
      refine ⟨_, if_pos hpositive, (hcarries hls).stripped hne hnil hob hproto (by omega)⟩

end Sender
end NetworkSimulator.Imep
