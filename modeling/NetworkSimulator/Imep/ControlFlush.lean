import NetworkSimulator.Imep.ControlBlocks

/-!
# Flushing the control queues

`handlerControlTimer` makes packets until nothing is queued. It gets there, with everything in the packets and a
response list in each packet with objects, unless there are more neighbours than the five bits of their number can
count, or so many hellos that there is a packet of 510 bytes in which an object block of no objects is begun.
-/

namespace NetworkSimulator.Imep
open Library
namespace Sender
open ControlPacket

variable {now : ℚ} {s s' t : Sender} {m : Memory} {r : Made} {alloc : ℕ → Memory} {made : List Made} {rounds : ℕ}

/-- Nothing is queued. -/
def Idle (s : Sender) : Prop := s.ackQueue = [] ∧ s.helloQueue = [] ∧ s.objectQueue = []

instance (s : Sender) : Decidable s.Idle := inferInstanceAs (Decidable (_ ∧ _ ∧ _))

/-- `handlerControlTimer` with the state it leaves, `none` if an assertion fails or if so many packets do not do. -/
def flush (now : ℚ) (alloc : ℕ → Memory) : ℕ → Sender → Option (Sender × List Made)
  | 0, _ => none
  | rounds + 1, s =>
    (s.makePacket now (alloc rounds)).bind fun (s', r) =>
      if s'.Idle then some (s', [r]) else (flush now alloc rounds s').map fun (t, made) => (t, r :: made)

lemma handlerControlTimer_of_idle (h : s.Idle) : handlerControlTimer now alloc rounds s = [] := by
  have hqueued : s.ackQueue = [] ∧ s.helloQueue = [] ∧ s.objectQueue = [] := h
  cases rounds with
  | zero => rfl
  | succ rounds => rw [handlerControlTimer, if_pos hqueued]

/-- The packets are those of `handlerControlTimer`. -/
lemma handlerControlTimer_of_flush (hidle : ¬s.Idle) (h : flush now alloc rounds s = some (t, made)) :
    handlerControlTimer now alloc rounds s = made := by
  induction rounds generalizing s t made with
  | zero => cases h
  | succ rounds ih =>
    obtain ⟨⟨s', r⟩, hmake, h⟩ := Option.bind_eq_some_iff.mp h
    have hqueued : ¬(s.ackQueue = [] ∧ s.helloQueue = [] ∧ s.objectQueue = []) := hidle
    rw [handlerControlTimer, if_neg hqueued, hmake]
    dsimp only at h ⊢
    split_ifs at h with hdone
    · obtain ⟨-, rfl⟩ := Prod.mk.inj (Option.some.inj h)
      rw [handlerControlTimer_of_idle hdone]
    · obtain ⟨⟨t', made'⟩, hflush, heq⟩ := Option.map_eq_some_iff.mp h
      obtain ⟨-, rfl⟩ := Prod.mk.inj heq
      rw [ih hdone hflush]

/-- A packet with these acknowledgements and objects for a node with these neighbours. -/
structure Sent (ls : List UInt32) (r : Made) (acks : List Ack) (ts : List ToraHeader) : Prop where
  fits : r.packet.imep_length ≤ IMEP_HDR_LEN
  acks : r.packet.acksRead = some acks
  empty : ts = [] → r.packet.objectFlag = false
  flag : ts ≠ [] → r.packet.objectFlag = true
  carries : ts ≠ [] → ∃ ob, Carries ls r.packet ts ob
  saved : ts ≠ [] → ls ≠ [] → ∃ sp ob, r.saved = some sp ∧ Carries ls sp ts ob

/-- The queues are empty, and all that was in them is in the packets, in its order and once. -/
structure Flushed (s t : Sender) (made : List Made) : Prop where
  idle : t.Idle
  sent : ∃ contents : List (List Ack × List ToraHeader),
    List.Forall₂ (fun r c => Sent s.biLinks r c.1 c.2) made contents ∧
      (contents.flatMap Prod.fst) = s.ackQueue ∧ (contents.flatMap Prod.snd) = s.objectQueue

/-- How many hellos fit behind the last acknowledgements. -/
def helloRoom (s : Sender) : ℕ := if s.ackQueue = [] then 0 else 124 - 2 * ((s.ackQueue.length - 1) % 62 + 1)

/-- No packet without acknowledgements is full of hellos. -/
def HellosFit (now : ℚ) (s : Sender) : Prop := hellosDue now s.links s.helloQueue < 125 + s.helloRoom

/-! ### One packet -/

section Round
variable {s₁ s₂ : Sender} {p₁ p₂ p' : ControlPacket} {acks : List Ack} {h : ℕ}

lemma AcksPut.acksRead (hacks : AcksPut s s₁ p₁ acks) (hflag : p'.ackFlag = p₁.ackFlag)
    (hsame : Agree p₁.bytes p'.bytes 0 p₁.imep_length) : p'.acksRead = some acks := by
  unfold ControlPacket.acksRead
  rw [hflag]
  by_cases hnil : acks = []
  · rw [(hacks.empty hnil).2.2, hnil]
    rfl
  · obtain ⟨hlength, hack, hcount, hread⟩ := hacks.block hnil
    have hpos := List.length_pos_iff.mpr hnil
    have hcount' : (p'.bytes 4).toNat = acks.length := by rw [hsame 4 (Nat.zero_le _) (by omega), hcount]
    have hblock : p'.findAckBlock = some 4 := if_pos (by rw [sizeof_hdr_imep, hcount']; exact hpos)
    rw [if_pos hack, hblock, Option.map_some, hcount']
    unfold sizeof_imep_ack_block
    rw [readAcks_congr (hsame.mono (Nat.zero_le _) (by omega)), hread]

variable (hacks : AcksPut s s₁ p₁ acks) (hhellos : HellosPut now s₁ s₂ p₁ p₂ h)
include hacks hhellos

lemma laid_of_put : Laid p₂ p₂.imep_length := by
  refine ⟨p₁.imep_length, ?_, ?_⟩
  · rw [hhellos.flags.1]
    by_cases hnil : acks = []
    · obtain ⟨-, hlength, hack⟩ := hacks.empty hnil
      rw [hack]
      exact hlength
    · obtain ⟨hlength, hack, hcount, -⟩ := hacks.block hnil
      have hpos := List.length_pos_iff.mpr hnil
      rw [if_pos hack, hhellos.same 4 (Nat.zero_le _) (by omega), hcount]
      omega
  · by_cases hzero : h = 0
    · obtain ⟨hlength, hhello⟩ := hhellos.empty hzero
      rw [hhello]
      exact hlength
    · obtain ⟨hlength, hhello, hcount⟩ := hhellos.block hzero
      rw [if_pos hhello, hcount]
      omega

/-- How long a packet is before its objects. -/
lemma length_of_put :
    p₂.imep_length = (if acks = [] then 4 else 10 + 8 * acks.length) + (if h = 0 then 0 else 6 + 4 * h) := by
  have hfirst : p₁.imep_length = if acks = [] then 4 else 10 + 8 * acks.length := by
    split_ifs with hnil
    · exact (hacks.empty hnil).2.1
    · exact (hacks.block hnil).1
  rw [← hfirst]
  split_ifs with hzero
  · exact (hhellos.empty hzero).1
  · have hlength := (hhellos.block hzero).1
    omega

lemma objectQueue_of_put : s₂.objectQueue = s.objectQueue := by rw [hhellos.rest, hacks.rest]

lemma biLinks_of_put : s₂.biLinks = s.biLinks := by
  have hlinks : s₁.links = s.links := by rw [hacks.rest]
  have hsame : biIndices s₂.links = biIndices s₁.links := hhellos.links
  rw [hlinks] at hsame
  exact hsame

end Round

/-- What becomes of the objects behind the acknowledgements and the hellos. -/
inductive ObjectPart (s₂ : Sender) (p₂ : ControlPacket) (s : Sender) (m : Memory) : Option (Sender × Made) → Prop
  | skipped (h : s₂.objectQueue = [] ∨ 512 ≤ p₂.imep_length) : ObjectPart s₂ p₂ s m (some (s₂, ⟨s, m, p₂, none⟩))
  | put {s' : Sender} {p' : ControlPacket} {saved : Option ControlPacket} {taken : List ToraHeader}
      (hqueue : s₂.objectQueue ≠ []) (hroom : p₂.imep_length + 4 ≤ 512) (h : ObjectsPut s₂ s' p₂ p' saved taken) :
      ObjectPart s₂ p₂ s m (some (s', ⟨s, m, p', saved⟩))
  | failed (hqueue : s₂.objectQueue ≠ []) (hlong : 508 < p₂.imep_length) (hshort : p₂.imep_length < 512) :
      ObjectPart s₂ p₂ s m none

/-- An object block is begun for which there is no room. -/
lemma aggregateObjectBlock_failed {p : ControlPacket} (hq : s.objectQueue ≠ []) (hlong : 508 < p.imep_length)
    (hshort : p.imep_length < 512) (htora : ∀ t ∈ s.objectQueue, (toraHeaderLength t).isSome) :
    s.aggregateObjectBlock p = none := by
  obtain ⟨taken, rest, p₁, happend, -, htaken⟩ :=
    appendObjects_spec (p := objectHeader p) (R := s.getResponseListSize) (n := 0) htora
  have hlength : p₁.imep_length = p.imep_length + 4 + objectsLength taken := htaken.length
  unfold aggregateObjectBlock
  rw [if_neg (by unfold IMEP_HDR_LEN; simp only [hq, false_or]; omega)]
  change (appendObjects s.getResponseListSize s.objectQueue ((objectHeader p).imep_length + 1) 0
    (objectHeader p)).bind _ = none
  rw [happend, Option.bind_some]
  exact if_pos (by unfold IMEP_HDR_LEN; omega)

lemma makePacket_spec (now : ℚ) (s : Sender) (m : Memory) (htora : ∀ t ∈ s.objectQueue, (toraHeaderLength t).isSome) :
    ∃ s₁ p₁ acks s₂ p₂ h, AcksPut s s₁ p₁ acks ∧ HellosPut now s₁ s₂ p₁ p₂ h ∧
      ObjectPart s₂ p₂ s m (s.makePacket now m) := by
  obtain ⟨s₁, p₁, acks, hack, hacks⟩ := aggregateAckBlock_spec s m
  have hmost := hacks.most
  have hfits : p₁.imep_length ≤ 512 := by
    by_cases hnil : acks = []
    · have hlength := (hacks.empty hnil).2.1
      omega
    · have hlength := (hacks.block hnil).1
      omega
  obtain ⟨s₂, p₂, h, hhello, hhellos⟩ := aggregateHelloBlock_spec now s₁ hfits hacks.flags.1
  refine ⟨s₁, p₁, acks, s₂, p₂, h, hacks, hhellos, ?_⟩
  have hobjects := objectQueue_of_put hacks hhellos
  have hflag : p₂.objectFlag = false := hhellos.flags.2.trans hacks.flags.2
  have hlength := length_of_put hacks hhellos
  have hmake : s.makePacket now m = (s₂.aggregateObjectBlock p₂).bind fun u =>
      some (u.1, ⟨s, m, u.2.1, u.2.2⟩) := by
    unfold makePacket
    rw [hack, Option.bind_eq_bind, Option.bind_some]
    dsimp only
    rw [hhello, Option.bind_some]
    rfl
  rw [hmake]
  by_cases hskip : s₂.objectQueue = [] ∨ 512 ≤ p₂.imep_length
  · have hnone : s₂.aggregateObjectBlock p₂ = some (s₂, p₂, none) := if_pos hskip
    rw [hnone]
    exact .skipped hskip
  · obtain ⟨hq, hshort⟩ := not_or.mp hskip
    by_cases hroom : p₂.imep_length + 4 ≤ 512
    · obtain ⟨s', p', saved, taken, hput, hobject⟩ := aggregateObjectBlock_spec hq hroom (laid_of_put hacks hhellos)
        (by split_ifs at hlength <;> omega) hflag (by rwa [hobjects])
      rw [hput]
      exact .put hq hroom hobject
    · rw [aggregateObjectBlock_failed hq (by omega) (by omega) (by rwa [hobjects])]
      exact .failed hq (by omega) (by omega)

/-- How many acknowledgements and hellos are in a packet that begins at `start` behind the acknowledgements. -/
structure Counts (now : ℚ) (s s₂ : Sender) (start length a h : ℕ) : Prop where
  none : s.ackQueue.length = 0 → a = 0 ∧ start = 4
  some : s.ackQueue.length ≠ 0 → a = min s.ackQueue.length 62 ∧ start = 10 + 8 * a
  acks : s₂.ackQueue.length = s.ackQueue.length - a
  hellos : hellosDue now s₂.links s₂.helloQueue + h = hellosDue now s.links s.helloQueue
  full : hellosDue now s₂.links s₂.helloQueue ≠ 0 → 512 < start + 10 + 4 * h
  skipped : 512 < start + 10 → h = 0
  empty : h = 0 → length = start
  block : h ≠ 0 → length = start + 6 + 4 * h
  fits : length ≤ 512

section Round
variable {s₁ s₂ : Sender} {p₁ p₂ : ControlPacket} {acks : List Ack} {h : ℕ}

lemma counts_of_put (hacks : AcksPut s s₁ p₁ acks) (hhellos : HellosPut now s₁ s₂ p₁ p₂ h) :
    Counts now s s₂ p₁.imep_length p₂.imep_length acks.length h := by
  have hqueue : s.ackQueue.length = acks.length + s₁.ackQueue.length := by rw [hacks.queue, List.length_append]
  have hacks₂ : s₂.ackQueue = s₁.ackQueue := by rw [hhellos.rest]
  have hlinks : s₁.links = s.links := by rw [hacks.rest]
  have hhello : s₁.helloQueue = s.helloQueue := by rw [hacks.rest]
  have hdue := hhellos.hellos
  rw [hlinks, hhello] at hdue
  refine ⟨fun hzero => ?_, fun hpos => ?_, ?_, hdue, fun hne => hhellos.full ?_, fun hskip => ?_,
    fun hzero => (hhellos.empty hzero).1, fun hne => (hhellos.block hne).1, hhellos.fits⟩
  · have hnil : acks = [] := List.length_eq_zero_iff.mp (by omega)
    exact ⟨List.length_eq_zero_iff.mpr hnil, (hacks.empty hnil).2.1⟩
  · have hnil : acks ≠ [] := by
      intro hnil
      exact hpos (by rw [(hacks.empty hnil).1, List.length_nil])
    refine ⟨?_, (hacks.block hnil).1⟩
    have hmost := hacks.most
    by_cases hrest : s₁.ackQueue = []
    · rw [hrest, List.length_nil] at hqueue
      omega
    · have hfull := hacks.full hrest
      omega
  · rw [hacks₂]
    omega
  · intro hnil
    rw [hnil] at hne
    exact hne rfl
  · have hsame := hhellos.skipped hskip
    rw [hsame, hlinks, hhello] at hdue
    omega

/-- What is queued after a packet. -/
lemma ObjectPart.rest (hpart : ObjectPart s₂ p₂ s m (some (s', r))) :
    s'.ackQueue = s₂.ackQueue ∧ s'.helloQueue = s₂.helloQueue ∧ s'.links = s₂.links := by
  cases hpart with
  | skipped h => exact ⟨rfl, rfl, rfl⟩
  | put hqueue hroom h =>
    rw [h.rest]
    exact ⟨rfl, rfl, rfl⟩

end Round

lemma helloRoom_of_length (hpos : s.ackQueue.length ≠ 0) :
    s.helloRoom = 124 - 2 * ((s.ackQueue.length - 1) % 62 + 1) :=
  if_neg fun hnil => hpos (by rw [hnil, List.length_nil])

lemma helloRoom_of_nil (hzero : s.ackQueue.length = 0) : s.helloRoom = 0 := if_pos (List.length_eq_zero_iff.mp hzero)

/-- The hellos of a packet leave no more of them than can be sent without acknowledgements. -/
lemma HellosFit.makePacket (hfit : HellosFit now s) (htora : ∀ t ∈ s.objectQueue, (toraHeaderLength t).isSome)
    (hmake : s.makePacket now m = some (s', r)) : HellosFit now s' := by
  obtain ⟨s₁, p₁, acks, s₂, p₂, h, hacks, hhellos, hpart⟩ := makePacket_spec now s m htora
  have hcounts := counts_of_put hacks hhellos
  rw [hmake] at hpart
  obtain ⟨hack', hhello', hlinks'⟩ := hpart.rest
  unfold HellosFit at hfit ⊢
  have hleft := hcounts.acks
  have hdue := hcounts.hellos
  have hfull := hcounts.full
  rw [hlinks', hhello']
  rw [← hack'] at hleft
  by_cases hzero : s.ackQueue.length = 0
  · rw [helloRoom_of_nil hzero] at hfit
    omega
  · obtain ⟨ha, hstart⟩ := hcounts.some hzero
    rw [helloRoom_of_length hzero] at hfit
    by_cases hmore : s.ackQueue.length ≤ 62
    · rw [helloRoom_of_nil (by omega)]
      omega
    · rw [helloRoom_of_length (by omega)]
      omega

/-- Too many hellos are still too many after a packet, and it has no objects. -/
lemma not_hellosFit_makePacket (hfit : ¬HellosFit now s) (hobjects : s.objectQueue ≠ [])
    (htora : ∀ t ∈ s.objectQueue, (toraHeaderLength t).isSome) (hmake : s.makePacket now m = some (s', r)) :
    ¬HellosFit now s' ∧ s'.objectQueue = s.objectQueue := by
  obtain ⟨s₁, p₁, acks, s₂, p₂, h, hacks, hhellos, hpart⟩ := makePacket_spec now s m htora
  have hcounts := counts_of_put hacks hhellos
  have hqueue₂ := objectQueue_of_put hacks hhellos
  rw [hmake] at hpart
  obtain ⟨hack', hhello', hlinks'⟩ := hpart.rest
  unfold HellosFit at hfit ⊢
  have hleft := hcounts.acks
  have hdue := hcounts.hellos
  have hfull := hcounts.full
  have hskipped := hcounts.skipped
  have hempty := hcounts.empty
  have hblock := hcounts.block
  have hfits := hcounts.fits
  rw [hlinks', hhello']
  rw [← hack'] at hleft
  -- There is no room for an object, and there would be none for its block without acknowledgements.
  have hlength : s.ackQueue.length ≠ 0 ∧ (p₂.imep_length = 512 ∨ p₂.imep_length = 506) ∧
      125 + s'.helloRoom ≤ hellosDue now s₂.links s₂.helloQueue ∨
        s.ackQueue.length = 0 ∧ p₂.imep_length = 510 := by
    by_cases hzero : s.ackQueue.length = 0
    · obtain ⟨-, hstart⟩ := hcounts.none hzero
      rw [helloRoom_of_nil hzero] at hfit
      omega
    · obtain ⟨ha, hstart⟩ := hcounts.some hzero
      rw [helloRoom_of_length hzero] at hfit
      by_cases hmore : s.ackQueue.length ≤ 62
      · rw [helloRoom_of_nil (by omega)]
        omega
      · rw [helloRoom_of_length (by omega)]
        omega
  cases hpart with
  | skipped hskip =>
    have hne : s'.objectQueue ≠ [] := by rwa [hqueue₂]
    have hlong : 512 ≤ p₂.imep_length := hskip.resolve_left hne
    exact ⟨by omega, hqueue₂⟩
  | @put _ p' saved taken hqueue hroom hput =>
    have hnil : taken = [] := by
      by_contra hne
      have hlong := hput.room hne
      omega
    refine ⟨by omega, ?_⟩
    have hsplit := hput.queue
    rw [hnil, List.nil_append, hqueue₂] at hsplit
    exact hsplit.symm

/-- A packet is made unless it gets 510 bytes of hellos while there are objects. -/
lemma makePacket_isSome (htora : ∀ t ∈ s.objectQueue, (toraHeaderLength t).isSome)
    (hfit : s.objectQueue = [] ∨ HellosFit now s) : ∃ s' r, s.makePacket now m = some (s', r) := by
  obtain ⟨s₁, p₁, acks, s₂, p₂, h, hacks, hhellos, hpart⟩ := makePacket_spec now s m htora
  have hcounts := counts_of_put hacks hhellos
  have hqueue₂ := objectQueue_of_put hacks hhellos
  generalize s.makePacket now m = result at hpart ⊢
  cases hpart with
  | skipped hskip => exact ⟨_, _, rfl⟩
  | put hqueue hroom hput => exact ⟨_, _, rfl⟩
  | failed hqueue hlong hshort =>
    have hfit' : HellosFit now s := hfit.resolve_left (by rwa [← hqueue₂])
    unfold HellosFit at hfit'
    have hdue := hcounts.hellos
    have hempty := hcounts.empty
    have hblock := hcounts.block
    by_cases hzero : s.ackQueue.length = 0
    · obtain ⟨-, hstart⟩ := hcounts.none hzero
      rw [helloRoom_of_nil hzero] at hfit'
      omega
    · obtain ⟨ha, hstart⟩ := hcounts.some hzero
      omega

/-- What is queued. -/
def queued (s : Sender) : ℕ := s.ackQueue.length + s.helloQueue.length + s.objectQueue.length

lemma idle_iff : s.Idle ↔ s.queued = 0 := by
  unfold Idle queued
  rw [← List.length_eq_zero_iff, ← List.length_eq_zero_iff, ← List.length_eq_zero_iff]
  omega

/-- With few responses there is room for an object in a packet of its own. -/
lemma ObjectPart.objects_lt {s₂ : Sender} {p₂ : ControlPacket} (hpart : ObjectPart s₂ p₂ s m (some (s', r)))
    (htora : ∀ t ∈ s₂.objectQueue, (toraHeaderLength t).isSome) (hne : s₂.objectQueue ≠ [])
    (hshort : p₂.imep_length = 4) (hls : s₂.biLinks.length < 32) : s'.objectQueue.length < s₂.objectQueue.length := by
  cases hpart with
  | skipped hskip =>
    have hlong := hskip.resolve_left hne
    omega
  | @put _ p' saved taken hqueue hroom hput =>
    have htaken : taken ≠ [] := by
      intro hnil
      have hsplit := hput.queue
      rw [hnil, List.nil_append] at hsplit
      cases hq : s'.objectQueue with
      | nil => exact hne (hsplit.trans hq)
      | cons t q =>
        have hfull := hput.full t (by rw [hq]; rfl) hnil
        obtain ⟨l, hl⟩ := Option.isSome_iff_exists.mp (htora t (by rw [hsplit, hq]; exact List.mem_cons_self))
        have hcases := toraHeaderLength_cases hl
        rw [length_toraObject hl] at hfull
        omega
    have hpos := List.length_pos_iff.mpr htaken
    rw [hput.queue, List.length_append]
    omega

lemma ObjectPart.objects_le {s₂ : Sender} {p₂ : ControlPacket} (hpart : ObjectPart s₂ p₂ s m (some (s', r))) :
    s'.objectQueue.length ≤ s₂.objectQueue.length := by
  cases hpart with
  | skipped hskip => exact le_rfl
  | put hqueue hroom hput =>
    rw [hput.queue, List.length_append]
    exact Nat.le_add_left _ _

/-- A packet takes at least one entry of a queue. -/
lemma queued_makePacket_lt (htora : ∀ t ∈ s.objectQueue, (toraHeaderLength t).isSome) (hidle : ¬s.Idle)
    (hls : s.objectQueue = [] ∨ s.biLinks.length < 32) (hmake : s.makePacket now m = some (s', r)) :
    s'.queued < s.queued := by
  obtain ⟨s₁, p₁, acks, s₂, p₂, h, hacks, hhellos, hpart⟩ := makePacket_spec now s m htora
  have hcounts := counts_of_put hacks hhellos
  have hqueue₂ := objectQueue_of_put hacks hhellos
  have hqueue₁ : s₁.helloQueue = s.helloQueue := by rw [hacks.rest]
  have hbi := biLinks_of_put hacks hhellos
  rw [hmake] at hpart
  obtain ⟨hack', hhello', -⟩ := hpart.rest
  have hshorter := hhellos.shorter
  have hleft := hcounts.acks
  have hobjects := hpart.objects_le
  rw [idle_iff] at hidle
  unfold queued at hidle ⊢
  rw [hqueue₁, ← hhello'] at hshorter
  rw [← hack'] at hleft
  rw [hqueue₂] at hobjects
  by_cases hzero : s.ackQueue.length = 0
  · obtain ⟨-, hstart⟩ := hcounts.none hzero
    by_cases hhello : s.helloQueue.length = 0
    · have hne : s.objectQueue ≠ [] := fun hnil => hidle (by rw [hnil, List.length_nil]; omega)
      have hlt := hpart.objects_lt (by rwa [hqueue₂]) (by rwa [hqueue₂]) (by rw [hcounts.empty (by omega), hstart])
        (by rw [hbi]; exact hls.resolve_left hne)
      rw [hqueue₂] at hlt
      omega
    · by_cases hrest : s₂.helloQueue = []
      · rw [hhello', hrest, List.length_nil]
        omega
      · have hfull := hhellos.full hrest
        omega
  · obtain ⟨ha, -⟩ := hcounts.some hzero
    omega

/-- What goes into a packet, and what stays. -/
lemma sent_of_makePacket (htora : ∀ t ∈ s.objectQueue, (toraHeaderLength t).isSome)
    (hls : s.objectQueue = [] ∨ s.biLinks.length < 32) (hmake : s.makePacket now m = some (s', r)) :
    ∃ acks ts, Sent s.biLinks r acks ts ∧ s.ackQueue = acks ++ s'.ackQueue ∧ s.objectQueue = ts ++ s'.objectQueue ∧
      s'.biLinks = s.biLinks := by
  obtain ⟨s₁, p₁, acks, s₂, p₂, h, hacks, hhellos, hpart⟩ := makePacket_spec now s m htora
  have hqueue₂ := objectQueue_of_put hacks hhellos
  have hack₂ : s₂.ackQueue = s₁.ackQueue := by rw [hhellos.rest]
  have hbi := biLinks_of_put hacks hhellos
  have hflag : p₂.objectFlag = false := hhellos.flags.2.trans hacks.flags.2
  rw [hmake] at hpart
  cases hpart with
  | skipped hskip =>
    refine ⟨acks, [], ⟨hhellos.fits, hacks.acksRead hhellos.flags.1 hhellos.same, fun _ => hflag, fun h => absurd rfl h,
      fun h => absurd rfl h, fun h => absurd rfl h⟩, ?_, hqueue₂.symm, hbi⟩
    rw [hacks.queue, hack₂]
  | @put _ p' saved taken hqueue hroom hput =>
    have hls' : s₂.biLinks.length < 32 := by
      rw [hbi]
      exact hls.resolve_left (by rwa [← hqueue₂])
    have hcarries := hput.carries
    have hsaved := hput.saved
    have hcounts := counts_of_put hacks hhellos
    have hempty := hcounts.empty
    have hblock := hcounts.block
    have hread : p'.acksRead = some acks := hacks.acksRead (hput.flags.1.trans hhellos.flags.1)
      (hhellos.same.trans (hput.same.mono le_rfl (by omega)))
    rw [hbi] at hcarries hsaved hls'
    refine ⟨acks, taken, ⟨hput.fits, hread, hput.empty, hput.flag, fun hne => ⟨_, hcarries hne hls'⟩,
      fun hne hnil => ?_⟩, ?_, ?_, ?_⟩
    · obtain ⟨sp, hsp, hcopy⟩ := hsaved hne hls' hnil
      exact ⟨sp, 4, hsp, hcopy⟩
    · rw [hacks.queue, ← hack₂, hput.rest]
    · rw [← hqueue₂, hput.queue]
    · rw [← hbi, hput.rest]
      rfl

/-! ### All packets -/

/-- A flush sends everything if there are no more hellos and neighbours than that. -/
lemma flush_flushed (hidle : ¬s.Idle) (htora : ∀ t ∈ s.objectQueue, (toraHeaderLength t).isSome)
    (hfit : s.objectQueue = [] ∨ s.biLinks.length < 32 ∧ HellosFit now s) (hrounds : s.queued ≤ rounds) :
    ∃ t made, flush now alloc rounds s = some (t, made) ∧ Flushed s t made := by
  induction rounds generalizing s with
  | zero => exact absurd (idle_iff.mpr (Nat.le_zero.mp hrounds)) hidle
  | succ rounds ih =>
    have hls : s.objectQueue = [] ∨ s.biLinks.length < 32 := hfit.imp_right And.left
    obtain ⟨s', r, hmake⟩ := makePacket_isSome (m := alloc rounds) htora (hfit.imp_right And.right)
    obtain ⟨acks, ts, hsent, hack, hobject, hbi⟩ := sent_of_makePacket htora hls hmake
    have hlt := queued_makePacket_lt htora hidle hls hmake
    rw [flush, hmake, Option.bind_some]
    dsimp only
    by_cases hdone : s'.Idle
    · rw [if_pos hdone]
      have hack' := hdone.1
      have hobject' := hdone.2.2
      refine ⟨s', [r], rfl, hdone, [(acks, ts)], List.Forall₂.cons hsent .nil, ?_, ?_⟩
      · rw [hack, hack', List.flatMap_singleton, List.append_nil]
      · rw [hobject, hobject', List.flatMap_singleton, List.append_nil]
    · rw [if_neg hdone]
      have htora' : ∀ t ∈ s'.objectQueue, (toraHeaderLength t).isSome := by
        intro t ht
        exact htora t (by rw [hobject]; exact List.mem_append_right ts ht)
      have hfit' : s'.objectQueue = [] ∨ s'.biLinks.length < 32 ∧ HellosFit now s' := by
        refine hfit.imp (fun hnil => ?_) fun h => ⟨hbi ▸ h.1, h.2.makePacket htora hmake⟩
        rw [hnil] at hobject
        exact (List.append_eq_nil_iff.mp hobject.symm).2
      obtain ⟨t, made, hflush, hflushed⟩ := ih hdone htora' hfit' (by omega)
      obtain ⟨contents, hall, hacks, hobjects⟩ := hflushed.sent
      rw [hbi] at hall
      refine ⟨t, r :: made, by rw [hflush]; rfl, hflushed.idle, (acks, ts) :: contents, .cons hsent hall, ?_, ?_⟩
      · rw [List.flatMap_cons, hacks, hack]
      · rw [List.flatMap_cons, hobjects, hobject]

/-- With too many hellos an assertion fails, whatever the number of packets before. -/
lemma flush_eq_none (hobjects : s.objectQueue ≠ []) (htora : ∀ t ∈ s.objectQueue, (toraHeaderLength t).isSome)
    (hfit : ¬HellosFit now s) : flush now alloc rounds s = none := by
  induction rounds generalizing s with
  | zero => rfl
  | succ rounds ih =>
    rw [flush]
    cases hmake : s.makePacket now (alloc rounds) with
    | none => rfl
    | some next =>
      obtain ⟨s', r⟩ := next
      obtain ⟨hfit', hqueue⟩ := not_hellosFit_makePacket hfit hobjects htora hmake
      have hobjects' : s'.objectQueue ≠ [] := by rwa [hqueue]
      rw [Option.bind_some]
      dsimp only
      rw [if_neg (fun hdone : s'.Idle => hobjects' hdone.2.2), ih hobjects' (by rwa [hqueue]) hfit', Option.map_none]

/-- The number of responses has five bits. -/
lemma Flushed.biLinks_lt (h : Flushed s t made) (hobjects : s.objectQueue ≠ []) : s.biLinks.length < 32 := by
  obtain ⟨contents, hall, -, hqueue⟩ := h.sent
  have hsome : ∃ c ∈ contents, c.2 ≠ [] := by
    by_contra hnone
    refine hobjects (hqueue ▸ List.flatMap_eq_nil_iff.mpr fun c hc => ?_)
    by_contra hne
    exact hnone ⟨c, hc, hne⟩
  obtain ⟨c, hc, hne⟩ := hsome
  obtain ⟨i, hi, rfl⟩ := List.getElem_of_mem hc
  have hsent := hall.get (i := i) (by rw [hall.length_eq]; exact hi) hi
  obtain ⟨ob, hcarries⟩ := hsent.carries hne
  rw [← hcarries.number]
  exact Nat.mod_lt _ (by decide)

/-- `handlerControlTimer` empties its queues into packets that are not too long, with the response lists in the
packets with objects and in their copies, exactly if no object is queued or if there are at most 31 neighbours to
respond and the hellos leave no packet of 510 bytes. -/
theorem flush_loses_nothing_iff (hidle : ¬s.Idle) (htora : ∀ t ∈ s.objectQueue, (toraHeaderLength t).isSome) :
    (∃ rounds t made, flush now alloc rounds s = some (t, made) ∧ Flushed s t made) ↔
      s.objectQueue = [] ∨ s.biLinks.length < 32 ∧ HellosFit now s := by
  constructor
  · rintro ⟨rounds, t, made, hflush, hflushed⟩
    by_cases hobjects : s.objectQueue = []
    · exact .inl hobjects
    · refine .inr ⟨hflushed.biLinks_lt hobjects, ?_⟩
      by_contra hfit
      rw [flush_eq_none hobjects htora hfit] at hflush
      cases hflush
  · intro hfit
    obtain ⟨t, made, hflushed⟩ := flush_flushed hidle htora hfit le_rfl
    exact ⟨_, t, made, hflushed⟩

/-- A query, of which only the type is written. -/
def query : ToraHeader := fun i => if i = 0 then 1 else 0

/-- A node with an acknowledgement and a query to send, and with some neighbours. -/
def withNeighbors (n : ℕ) : Sender where
  ackQueue := [⟨7, 9⟩]
  objectQueue := [query]
  links := (List.range n).map fun i => ⟨UInt32.ofNat i, LINK_BI, 0⟩

theorem flush_loses_nothing_two : ∃ rounds t made, flush 1 (fun _ _ => 0) rounds (withNeighbors 2) = some (t, made) ∧
    Flushed (withNeighbors 2) t made :=
  (flush_loses_nothing_iff (by decide) (by decide)).mpr (.inr ⟨by decide, by unfold HellosFit; decide⟩)

/-- With 32 neighbours their number is 0 in the five bits, and no copy of the packet is saved. -/
theorem not_flushed_32 :
    ¬(∃ rounds t made, flush 1 (fun _ _ => 0) rounds (withNeighbors 32) = some (t, made) ∧
      Flushed (withNeighbors 32) t made) := by
  rintro ⟨rounds, t, made, -, hflushed⟩
  have hlength : (withNeighbors 32).biLinks.length = 32 := by decide
  have hlt := hflushed.biLinks_lt (by decide)
  omega

end Sender
end NetworkSimulator.Imep
