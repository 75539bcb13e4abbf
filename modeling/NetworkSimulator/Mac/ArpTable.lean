import NetworkSimulator.Library.Runs
import Mathlib.Algebra.Order.Ring.Int
import Mathlib.Data.List.Perm.Basic
import Mathlib.Tactic.Common

/-!
# Address resolution

A packet whose destination has no MAC address yet is held in the entry of the destination. After a number of requests
the packets are handed to their failure callbacks, which may resolve addresses themselves. A call that waits for a
callback to return is on a stack, so that what comes next can be anything.
-/

namespace NetworkSimulator.Arp
open Library

def ARP_MAX_REQUEST_COUNT : ℕ := 3

inductive AddrType
  | none
  | inet
  | other
  deriving DecidableEq

structure Packet where
  uid : ℕ
  /-- There is an `xmit_failure_` callback. -/
  xmit_failure : Bool
  addr_type : AddrType
  next_hop : ℤ
  daddr : ℤ
  deriving DecidableEq

/-- The test of `arpinput` on the packet that is held. -/
def Packet.goesTo (p : Packet) (dst : ℤ) : Bool :=
  p.addr_type = .none ∧ p.daddr = dst ∨ p.addr_type = .inet ∧ p.next_hop = dst

structure ArpEntry where
  up : Bool
  ipaddr : ℤ
  macaddr : ℤ
  hold : Option Packet
  count : ℕ
  deriving DecidableEq

def ArpEntry.new (dst : ℤ) : ArpEntry := ⟨false, dst, 0, none, 0⟩

/-- What becomes of a packet that has been given to `arpresolve`. -/
inductive Fate
  | released (macaddr : ℤ)
  | scheduled (macaddr : ℤ)
  | dropped
  | failed
  deriving DecidableEq

inductive Output
  | packet (p : Packet) (fate : Fate)
  | request (dst : ℤ)
  | reply (dst : ℤ)
  deriving DecidableEq

/-- What a callback returns to: the callback of the packet that was held, with the other packet still to fail, or the
last callback of a call. -/
inductive Frame
  | holdFailing (p : Packet)
  | failing
  deriving DecidableEq

structure ArpTable where
  address : ℤ
  entries : List ArpEntry
  stack : List Frame
  deriving DecidableEq

namespace ArpTable

/-- `arplookup` -/
def arplookup (s : ArpTable) (dst : ℤ) : Option ArpEntry := s.entries.find? fun e => e.ipaddr = dst

/-- The entry that `arplookup` returns becomes another one. -/
def modifyEntry (dst : ℤ) (f : ArpEntry → ArpEntry) : List ArpEntry → List ArpEntry
  | [] => []
  | e :: es => if e.ipaddr = dst then f e :: es else e :: modifyEntry dst f es

def modify (s : ArpTable) (dst : ℤ) (f : ArpEntry → ArpEntry) : ArpTable :=
  { s with entries := modifyEntry dst f s.entries }

/-- The entry of a destination, which is put in front when there is none. -/
def entryOf (s : ArpTable) (dst : ℤ) : ArpTable × ArpEntry :=
  match s.arplookup dst with
  | some llinfo => (s, llinfo)
  | none => ({ s with entries := ArpEntry.new dst :: s.entries }, ArpEntry.new dst)

/-- The packet of the call itself fails, last of all. -/
def failPacket (s : ArpTable) (p : Packet) : ArpTable × List Output :=
  if p.xmit_failure then ({ s with stack := .failing :: s.stack }, [.packet p .failed])
  else (s, [.packet p .dropped])

/-- `arpresolve` from the creation of the entry on: it gives up, up to the first callback, or holds the packet. -/
def holdOrFail (s : ArpTable) (dst : ℤ) (p : Packet) : ArpTable × List Output :=
  let r := s.entryOf dst
  if r.2.count ≥ ARP_MAX_REQUEST_COUNT then
    let s := r.1.modify dst fun llinfo => { llinfo with count := 0, hold := none }
    match r.2.hold with
    | some t =>
      if t.xmit_failure then ({ s with stack := .holdFailing p :: s.stack }, [.packet t .failed])
      else
        let u := s.failPacket p
        (u.1, .packet t .dropped :: u.2)
    | none => s.failPacket p
  else
    (r.1.modify dst fun llinfo => { llinfo with count := llinfo.count + 1, hold := some p },
      (r.2.hold.toList.map fun t => .packet t .dropped) ++ [.request dst])

def arpresolve (s : ArpTable) (dst : ℤ) (p : Packet) : ArpTable × List Output :=
  match s.arplookup dst with
  | some ⟨true, _, macaddr, _, _⟩ => (s, [.packet p (.released macaddr)])
  | _ => s.holdOrFail dst p

/-- A callback returns. -/
def callbackReturns (s : ArpTable) : ArpTable × List Output :=
  match s.stack with
  | .holdFailing p :: stack => failPacket { s with stack := stack } p
  | .failing :: stack => ({ s with stack := stack }, [])
  | [] => (s, [])

/-- `arpinput` with a request or a reply; a packet in the entry that does not go to the sender is fatal. -/
def arpinput (s : ArpTable) (isRequest : Bool) (arp_sha arp_spa arp_tpa : ℤ) : Option (ArpTable × List Output) :=
  let r := s.entryOf arp_spa
  let s := r.1.modify arp_spa fun llinfo => { llinfo with macaddr := arp_sha, up := true, hold := none }
  let reply := if isRequest && arp_tpa = s.address then [.reply arp_spa] else []
  match r.2.hold with
  | some t => if t.goesTo arp_spa then some (s, .packet t (.scheduled arp_sha) :: reply) else none
  | none => some (s, reply)

/-- The packets that are held. -/
def held (s : ArpTable) : List Packet := s.entries.filterMap ArpEntry.hold

/-- `Terminate` -/
def terminate (s : ArpTable) : ArpTable × List Output :=
  ({ s with entries := s.entries.map fun ll => { ll with hold := none } }, s.held.map fun p => .packet p .dropped)

inductive Event
  | resolve (dst : ℤ) (p : Packet)
  | callbackReturns
  | input (isRequest : Bool) (arp_sha arp_spa arp_tpa : ℤ)
  | terminate

def step (s : ArpTable) : Event → Option (ArpTable × List Output)
  | .resolve dst p => some (s.arpresolve dst p)
  | .callbackReturns => some s.callbackReturns
  | .input isRequest arp_sha arp_spa arp_tpa => s.arpinput isRequest arp_sha arp_spa arp_tpa
  | .terminate => some s.terminate

def start (address : ℤ) : ArpTable := ⟨address, [], []⟩

/-- The packets whose calls wait for a callback to return. -/
def pending (s : ArpTable) : List Packet :=
  s.stack.filterMap fun
    | .holdFailing p => some p
    | .failing => none

/-- The packets whose fate has come. -/
def fated (outs : List Output) : List Packet :=
  outs.filterMap fun
    | .packet p _ => some p
    | _ => none

/-- How often a packet is with the table. -/
def kept (s : ArpTable) (q : Packet) : ℕ := s.held.count q + s.pending.count q

/-! ### Entries -/

variable {s t : ArpTable} {dst : ℤ} {p q : Packet} {e : ArpEntry} {es : List ArpEntry} {f : ArpEntry → ArpEntry}

lemma find_cons (a : ArpEntry) : (a :: es).find? (fun e => e.ipaddr = dst) =
    if a.ipaddr = dst then some a else es.find? fun e => e.ipaddr = dst := by
  rw [List.find?_cons]
  by_cases ha : a.ipaddr = dst
  · rw [if_pos ha, decide_eq_true ha]
  · rw [if_neg ha, decide_eq_false ha]

/-- How often a packet is held. -/
lemma count_modifyEntry (h : es.find? (fun e => e.ipaddr = dst) = some e) :
    ((modifyEntry dst f es).filterMap ArpEntry.hold).count q + e.hold.toList.count q =
      (es.filterMap ArpEntry.hold).count q + (f e).hold.toList.count q := by
  have hcons : ∀ (a : ArpEntry) (l : List ArpEntry), ((a :: l).filterMap ArpEntry.hold).count q =
      a.hold.toList.count q + (l.filterMap ArpEntry.hold).count q := by
    intro a l
    rw [List.filterMap_cons]
    cases a.hold with
    | none => simp
    | some b => simp [List.count_cons, Nat.add_comm]
  induction es with
  | nil => cases h
  | cons a es ih =>
    rw [modifyEntry]
    rw [find_cons] at h
    by_cases ha : a.ipaddr = dst
    · rw [if_pos ha] at h
      obtain rfl := Option.some.inj h
      rw [if_pos ha, hcons, hcons]
      omega
    · rw [if_neg ha] at h
      have := ih h
      rw [if_neg ha, hcons, hcons]
      omega

lemma mem_modifyEntry (h : es.find? (fun e => e.ipaddr = dst) = some e) {x : ArpEntry} (hx : x ∈ modifyEntry dst f es) :
    x = f e ∨ x ∈ es := by
  induction es with
  | nil => cases h
  | cons a es ih =>
    rw [modifyEntry] at hx
    rw [find_cons] at h
    by_cases ha : a.ipaddr = dst
    · rw [if_pos ha] at h hx
      obtain rfl := Option.some.inj h
      exact (List.mem_cons.mp hx).imp_right (List.mem_cons_of_mem a)
    · rw [if_neg ha] at h hx
      rcases List.mem_cons.mp hx with rfl | hx
      · exact Or.inr List.mem_cons_self
      · exact (ih h hx).imp_right (List.mem_cons_of_mem a)

lemma map_ipaddr_modifyEntry (hf : ∀ e, (f e).ipaddr = e.ipaddr) :
    (modifyEntry dst f es).map ArpEntry.ipaddr = es.map ArpEntry.ipaddr := by
  induction es with
  | nil => rfl
  | cons a es ih =>
    rw [modifyEntry]
    split
    · rw [List.map_cons, hf, List.map_cons]
    · rw [List.map_cons, ih, List.map_cons]

/-- There is one entry for a destination, and one that has the MAC address holds no packet. -/
structure Sound (s : ArpTable) : Prop where
  up : ∀ e ∈ s.entries, e.up = true → e.hold = none
  once : (s.entries.map ArpEntry.ipaddr).Nodup

lemma Sound.entryOf (h : Sound s) (dst : ℤ) : Sound (s.entryOf dst).1 ∧
    (s.entryOf dst).1.entries.find? (fun e => e.ipaddr = dst) = some (s.entryOf dst).2 ∧
    ∀ q, (s.entryOf dst).1.kept q = s.kept q := by
  unfold ArpTable.entryOf
  cases hfind : s.arplookup dst with
  | some llinfo => exact ⟨h, hfind, fun _ => rfl⟩
  | none =>
    refine ⟨⟨fun e he hup => ?_, ?_⟩, ?_, fun _ => rfl⟩
    · rcases List.mem_cons.mp he with rfl | he
      · rfl
      · exact h.up e he hup
    · refine List.nodup_cons.mpr ⟨fun hmem => ?_, h.once⟩
      obtain ⟨e, he, heq⟩ := List.mem_map.mp hmem
      exact List.find?_eq_none.mp hfind e he (decide_eq_true heq)
    · exact (find_cons _).trans (if_pos rfl)

lemma Sound.modify (h : Sound s) (hfind : s.entries.find? (fun e => e.ipaddr = dst) = some e)
    (hf : ∀ e, (f e).ipaddr = e.ipaddr) (hup : (f e).up = true → (f e).hold = none) : Sound (s.modify dst f) := by
  refine ⟨fun x hx hxup => ?_, ?_⟩
  · rcases mem_modifyEntry hfind hx with rfl | hx
    · exact hup hxup
    · exact h.up x hx hxup
  · show ((modifyEntry dst f s.entries).map ArpEntry.ipaddr).Nodup
    rw [map_ipaddr_modifyEntry hf]
    exact h.once

/-! ### Custody -/

lemma failPacket_count : (fated (s.failPacket p).2).count q + (s.failPacket p).1.kept q = s.kept q + [p].count q := by
  unfold failPacket
  split
  · show [p].count q + s.kept q = _
    exact Nat.add_comm _ _
  · show [p].count q + s.kept q = _
    exact Nat.add_comm _ _

lemma fated_append (l₁ l₂ : List Output) : fated (l₁ ++ l₂) = fated l₁ ++ fated l₂ := List.filterMap_append

lemma fated_map (l : List Packet) (fate : Fate) : fated (l.map fun p => .packet p fate) = l := by
  unfold fated
  rw [List.filterMap_map]
  exact List.filterMap_some

variable (f) in
/-- An entry that is there gives up its packet for another. -/
lemma kept_modify (hfind : s.entries.find? (fun e => e.ipaddr = dst) = some e) (q : Packet) :
    (s.modify dst f).kept q + e.hold.toList.count q = s.kept q + (f e).hold.toList.count q := by
  have hcount : (s.modify dst f).held.count q + e.hold.toList.count q = s.held.count q + (f e).hold.toList.count q :=
    count_modifyEntry hfind
  show (s.modify dst f).held.count q + s.pending.count q + _ = s.held.count q + s.pending.count q + _
  omega

/-- What a call does with the packets. -/
structure Moves (s t : ArpTable) (given : List Packet) (outs : List Output) : Prop where
  sound : Sound t
  count : ∀ q, (fated outs).count q + t.kept q = s.kept q + given.count q

lemma count_cons_eq (p q : Packet) (l : List Packet) : (p :: l).count q = [p].count q + l.count q := by
  rw [← List.singleton_append, List.count_append]

lemma Sound.failPacket (h : Sound s) (p : Packet) : Moves s (s.failPacket p).1 [p] (s.failPacket p).2 := by
  refine ⟨?_, fun q => failPacket_count⟩
  unfold ArpTable.failPacket
  split
  · exact ⟨h.up, h.once⟩
  · exact h

/-- The entry of the destination has no MAC address. -/
lemma Sound.holdOrFail (h : Sound s) (hup : (s.entryOf dst).2.up = false) :
    Moves s (s.holdOrFail dst p).1 [p] (s.holdOrFail dst p).2 := by
  obtain ⟨hsound, hfind, hkept⟩ := h.entryOf dst
  unfold ArpTable.holdOrFail
  dsimp only
  by_cases hcount : (s.entryOf dst).2.count ≥ ARP_MAX_REQUEST_COUNT
  · rw [if_pos hcount]
    -- the entry is emptied before the callbacks
    have hclear : Sound ((s.entryOf dst).1.modify dst fun llinfo => { llinfo with count := 0, hold := none }) :=
      hsound.modify hfind (fun _ => rfl) fun _ => rfl
    have hcleared := kept_modify (fun llinfo => { llinfo with count := 0, hold := none }) hfind
    generalize (s.entryOf dst).1.modify dst (fun llinfo => { llinfo with count := 0, hold := none }) = u at hclear hcleared
    cases hhold : (s.entryOf dst).2.hold with
    | none =>
      obtain ⟨hs, hc⟩ := hclear.failPacket p
      refine ⟨hs, fun q => (hc q).trans ?_⟩
      have hsame := hcleared q
      rw [hhold, hkept] at hsame
      rw [Nat.add_right_cancel (hsame : u.kept q + 0 = s.kept q + 0)]
    | some t =>
      rw [hhold] at hcleared
      dsimp only
      split
      · refine ⟨⟨hclear.up, hclear.once⟩, fun q => ?_⟩
        have hmoved := hcleared q
        rw [hkept] at hmoved
        show [t].count q + (u.held.count q + (p :: u.pending).count q) = _
        change u.held.count q + u.pending.count q + [t].count q = s.kept q + 0 at hmoved
        rw [count_cons_eq p q u.pending]
        omega
      · obtain ⟨hs, hc⟩ := hclear.failPacket p
        refine ⟨hs, fun q => ?_⟩
        have hmoved := hcleared q
        have hfailed := hc q
        rw [hkept] at hmoved
        show (t :: fated (u.failPacket p).2).count q + (u.failPacket p).1.kept q = _
        change _ + [t].count q = _ + 0 at hmoved
        rw [count_cons_eq t q (fated _)]
        omega
  · rw [if_neg hcount]
    refine ⟨hsound.modify hfind (fun _ => rfl) fun htrue => ?_, fun q => ?_⟩
    · change (s.entryOf dst).2.up = true at htrue
      rw [hup] at htrue
      cases htrue
    · have hmoved := kept_modify (fun llinfo => { llinfo with count := llinfo.count + 1, hold := some p }) hfind q
      change _ = _ + [p].count q at hmoved
      rw [hkept] at hmoved
      rw [fated_append, fated_map, List.count_append, ← hmoved, Nat.add_comm]
      rfl

lemma Sound.arpresolve (h : Sound s) (dst : ℤ) (p : Packet) :
    Moves s (s.arpresolve dst p).1 [p] (s.arpresolve dst p).2 := by
  unfold ArpTable.arpresolve
  split
  next macaddr _ _ _ => exact ⟨h, fun q => Nat.add_comm _ _⟩
  next hnot =>
    refine h.holdOrFail ?_
    unfold ArpTable.entryOf
    cases hfind : s.arplookup dst with
    | none => rfl
    | some llinfo =>
      obtain ⟨up, ipaddr, macaddr, hold, count⟩ := llinfo
      cases up with
      | false => rfl
      | true => exact absurd hfind (hnot _ _ _ _)

lemma Sound.callbackReturns (h : Sound s) : Moves s s.callbackReturns.1 [] s.callbackReturns.2 := by
  have hstack : ∀ stack, Sound { s with stack := stack } := fun _ => ⟨h.up, h.once⟩
  unfold ArpTable.callbackReturns
  split
  next p stack hs =>
    obtain ⟨hsound, hcount⟩ := (hstack stack).failPacket p
    refine ⟨hsound, fun q => (hcount q).trans ?_⟩
    have hpending : s.pending = p :: pending { s with stack := stack } := by
      unfold pending
      rw [hs]
      rfl
    unfold kept
    rw [hpending, count_cons_eq p q (pending _)]
    show s.held.count q + _ + _ = s.held.count q + _ + 0
    omega
  next stack hs =>
    refine ⟨hstack stack, fun q => ?_⟩
    have hpending : s.pending = pending { s with stack := stack } := by
      unfold pending
      rw [hs]
      rfl
    unfold kept
    rw [hpending]
    exact Nat.zero_add _
  next => exact ⟨h, fun q => Nat.zero_add _⟩

lemma Sound.arpinput {isRequest : Bool} {arp_sha arp_spa arp_tpa : ℤ} {outs : List Output} (h : Sound s)
    (ht : s.arpinput isRequest arp_sha arp_spa arp_tpa = some (t, outs)) : Moves s t [] outs := by
  obtain ⟨hsound, hfind, hkept⟩ := h.entryOf arp_spa
  have hmodify := hsound.modify hfind (fun _ => rfl)
    (f := fun llinfo => { llinfo with macaddr := arp_sha, up := true, hold := none }) fun _ => rfl
  have hmoved := kept_modify (fun llinfo => { llinfo with macaddr := arp_sha, up := true, hold := none }) hfind
  have hreply : ∀ c : Bool, fated (if c then [.reply arp_spa] else []) = [] := fun c => by cases c <;> rfl
  unfold ArpTable.arpinput at ht
  dsimp only at ht
  cases hhold : (s.entryOf arp_spa).2.hold with
  | none =>
    rw [hhold] at ht hmoved
    obtain ⟨rfl, rfl⟩ := Prod.mk.inj (Option.some.inj ht)
    refine ⟨hmodify, fun q => ?_⟩
    rw [hreply]
    have hsame := hmoved q
    rw [hkept] at hsame
    exact (Nat.zero_add _).trans hsame
  | some p =>
    rw [hhold] at ht hmoved
    dsimp only at ht
    split at ht
    · obtain ⟨rfl, rfl⟩ := Prod.mk.inj (Option.some.inj ht)
      refine ⟨hmodify, fun q => ?_⟩
      have hsame := hmoved q
      rw [hkept] at hsame
      show (p :: fated (if _ then _ else _)).count q + _ = _
      rw [hreply, Nat.add_comm]
      exact hsame
    · cases ht

lemma Sound.terminate (h : Sound s) : Moves s s.terminate.1 [] s.terminate.2 := by
  have hnone : s.terminate.1.held = [] := by
    unfold held ArpTable.terminate
    rw [List.filterMap_map]
    exact List.filterMap_eq_nil_iff.mpr fun _ _ => rfl
  refine ⟨⟨fun e he _ => ?_, ?_⟩, fun q => ?_⟩
  · obtain ⟨e', -, rfl⟩ := List.mem_map.mp he
    rfl
  · show ((s.entries.map _).map ArpEntry.ipaddr).Nodup
    rw [List.map_map]
    exact h.once
  · unfold kept
    rw [hnone]
    show (fated (s.held.map _)).count q + (0 + s.pending.count q) = _
    rw [fated_map]
    show _ = _ + 0
    omega

/-! ### Runs -/

/-- The packets that are given to `arpresolve`. -/
def given (es : List Event) : List Packet :=
  es.filterMap fun
    | .resolve _ p => some p
    | _ => none

lemma Sound.step {e : Event} {outs : List Output} (h : Sound s) (hstep : ArpTable.step s e = some (t, outs)) :
    Moves s t (given [e]) outs := by
  cases e with
  | resolve dst p =>
    obtain ⟨rfl, rfl⟩ := Prod.mk.inj (Option.some.inj hstep)
    exact h.arpresolve dst p
  | callbackReturns =>
    obtain ⟨rfl, rfl⟩ := Prod.mk.inj (Option.some.inj hstep)
    exact h.callbackReturns
  | input isRequest arp_sha arp_spa arp_tpa => exact h.arpinput hstep
  | terminate =>
    obtain ⟨rfl, rfl⟩ := Prod.mk.inj (Option.some.inj hstep)
    exact h.terminate

lemma Sound.run {es : List Event} {outs : List (List Output)} (h : Sound s)
    (hrun : Library.run ArpTable.step s es = some (t, outs)) : Moves s t (given es) outs.flatten := by
  induction es generalizing s outs with
  | nil =>
    obtain ⟨rfl, rfl⟩ := Prod.mk.inj (Option.some.inj hrun)
    exact ⟨h, fun q => Nat.zero_add _⟩
  | cons e es ih =>
    obtain ⟨u, o, os, hstep, hrest, rfl⟩ := run_cons_inv hrun
    obtain ⟨hsound, hcount⟩ := h.step hstep
    obtain ⟨hsound', hcount'⟩ := ih hsound hrest
    refine ⟨hsound', fun q => ?_⟩
    have hfirst := hcount q
    have hrest := hcount' q
    have hgiven : given (e :: es) = given [e] ++ given es := by
      cases e <;> rfl
    rw [List.flatten_cons, fated_append, List.count_append, hgiven, List.count_append]
    omega

lemma sound_start (address : ℤ) : Sound (start address) := ⟨fun _ he => absurd he List.not_mem_nil, List.nodup_nil⟩

/-- Each packet that has been given to `arpresolve` is held, or in a call that waits for a callback, or has come to
its fate, and is so once; a packet is held in one entry only, and not in one that has the MAC address. -/
theorem custody {address : ℤ} {es : List Event} {outs : List (List Output)}
    (hrun : run step (start address) es = some (t, outs)) :
    (t.held ++ t.pending ++ fated outs.flatten).Perm (given es) ∧
      ((given es).Nodup → (t.held ++ t.pending ++ fated outs.flatten).Nodup) ∧
      (t.stack = [] → t.pending = []) ∧
      (∀ e ∈ t.entries, e.up = true → e.hold = none) ∧ (t.entries.map ArpEntry.ipaddr).Nodup := by
  obtain ⟨hsound, hcount⟩ := (sound_start address).run hrun
  have hperm : (t.held ++ t.pending ++ fated outs.flatten).Perm (given es) := by
    rw [List.perm_iff_count]
    intro q
    have hq := hcount q
    change _ = 0 + 0 + (given es).count q at hq
    rw [List.count_append, List.count_append]
    unfold kept at hq
    omega
  refine ⟨hperm, hperm.nodup_iff.mpr, fun hstack => ?_, hsound.up, hsound.once⟩
  unfold pending
  rw [hstack]
  rfl

/-- The third packet replaces the second, and with the fourth the table gives up: the callback of the third packet
resolves the same destination for a fifth one, which goes out when the reply has come. -/
def sixPackets : List Event :=
  [.resolve 5 ⟨1, true, .inet, 5, 0⟩, .resolve 5 ⟨2, true, .inet, 5, 0⟩, .resolve 5 ⟨3, true, .inet, 5, 0⟩,
    .resolve 5 ⟨4, true, .inet, 5, 0⟩, .resolve 5 ⟨5, true, .inet, 5, 0⟩, .callbackReturns, .callbackReturns,
    .input false 77 5 1, .resolve 5 ⟨6, true, .inet, 5, 0⟩]

theorem custody_gives_up :
    ∃ t outs, run step (start 1) sixPackets = some (t, outs) ∧
      ((t.held ++ t.pending ++ fated outs.flatten).Perm (given sixPackets) ∧
        ((given sixPackets).Nodup → (t.held ++ t.pending ++ fated outs.flatten).Nodup) ∧
        (t.stack = [] → t.pending = []) ∧
        (∀ e ∈ t.entries, e.up = true → e.hold = none) ∧ (t.entries.map ArpEntry.ipaddr).Nodup) :=
  ⟨_, _, rfl, custody rfl⟩

/-! ### The packets that are held go to the address of their entry -/

def HeldGoTo (s : ArpTable) : Prop := ∀ e ∈ s.entries, ∀ p, e.hold = some p → p.goesTo e.ipaddr = true

/-- The link layer resolves the address that a packet goes to. -/
def ResolvesOwn : Event → Prop
  | .resolve dst p => p.goesTo dst = true
  | _ => True

lemma HeldGoTo.entryOf (h : HeldGoTo s) (dst : ℤ) : HeldGoTo (s.entryOf dst).1 ∧ (s.entryOf dst).2.ipaddr = dst ∧
    ∀ p, (s.entryOf dst).2.hold = some p → p.goesTo dst = true := by
  unfold ArpTable.entryOf
  cases hfind : s.arplookup dst with
  | some llinfo =>
    have hip : llinfo.ipaddr = dst := by simpa using List.find?_some hfind
    exact ⟨h, hip, fun p hp => hip ▸ h llinfo (List.mem_of_find?_eq_some hfind) p hp⟩
  | none =>
    refine ⟨fun e he p hp => ?_, rfl, fun p hp => by cases hp⟩
    rcases List.mem_cons.mp he with rfl | he
    · cases hp
    · exact h e he p hp

lemma HeldGoTo.modify (h : HeldGoTo s) (hfind : s.entries.find? (fun e => e.ipaddr = dst) = some e)
    (hf : ∀ p, (f e).hold = some p → p.goesTo (f e).ipaddr = true) : HeldGoTo (s.modify dst f) := by
  intro x hx
  rcases mem_modifyEntry hfind hx with rfl | hx
  · exact hf
  · exact h x hx

lemma failPacket_entries : (s.failPacket p).1.entries = s.entries := by
  unfold failPacket
  split <;> rfl

lemma HeldGoTo.arpresolve (h : HeldGoTo s) (hsound : Sound s) (hp : p.goesTo dst = true) :
    HeldGoTo (s.arpresolve dst p).1 := by
  obtain ⟨hentry, hip, -⟩ := h.entryOf dst
  have hfind := (hsound.entryOf dst).2.1
  unfold ArpTable.arpresolve
  split
  · exact h
  · unfold ArpTable.holdOrFail
    dsimp only
    split
    · have hclear : HeldGoTo ((s.entryOf dst).1.modify dst fun llinfo => { llinfo with count := 0, hold := none }) :=
        hentry.modify hfind fun _ hq => nomatch hq
      have hfail := hclear
      unfold HeldGoTo at hfail
      rw [← failPacket_entries (p := p)] at hfail
      cases (s.entryOf dst).2.hold with
      | none => exact hfail
      | some t =>
        dsimp only
        split
        · exact hclear
        · exact hfail
    · refine hentry.modify hfind fun q hq => ?_
      obtain rfl := Option.some.inj hq
      show p.goesTo (s.entryOf dst).2.ipaddr = true
      rw [hip]
      exact hp

/-- `arpinput` never finds a packet that goes elsewhere. -/
theorem run_isSome {es : List Event} (hs : Sound s) (h : HeldGoTo s) (hes : ∀ e ∈ es, ResolvesOwn e) :
    ∃ t outs, run step s es = some (t, outs) := by
  induction es generalizing s with
  | nil => exact ⟨s, [], rfl⟩
  | cons e es ih =>
    have hstep : ∃ u o, step s e = some (u, o) ∧ HeldGoTo u := by
      cases e with
      | resolve dst p => exact ⟨_, _, rfl, h.arpresolve hs (hes _ List.mem_cons_self)⟩
      | callbackReturns =>
        refine ⟨s.callbackReturns.1, s.callbackReturns.2, rfl, ?_⟩
        unfold ArpTable.callbackReturns
        split
        next p stack _ =>
          have hfail : HeldGoTo { s with stack := stack } := h
          unfold HeldGoTo at hfail
          rw [← failPacket_entries (p := p)] at hfail
          exact hfail
        · exact h
        · exact h
      | input isRequest arp_sha arp_spa arp_tpa =>
        obtain ⟨hentry, -, hhold⟩ := h.entryOf arp_spa
        have hmodify := hentry.modify (hs.entryOf arp_spa).2.1
          (f := fun llinfo => { llinfo with macaddr := arp_sha, up := true, hold := none }) fun _ hq => nomatch hq
        show ∃ u o, s.arpinput isRequest arp_sha arp_spa arp_tpa = some (u, o) ∧ HeldGoTo u
        unfold ArpTable.arpinput
        dsimp only
        cases hp : (s.entryOf arp_spa).2.hold with
        | none => exact ⟨_, _, rfl, hmodify⟩
        | some t =>
          dsimp only
          rw [if_pos (hhold t hp)]
          exact ⟨_, _, rfl, hmodify⟩
      | terminate =>
        refine ⟨_, _, rfl, fun x hx p hp => ?_⟩
        obtain ⟨x', -, rfl⟩ := List.mem_map.mp hx
        cases hp
    obtain ⟨u, o, hu, hgo⟩ := hstep
    obtain ⟨t, os, ht⟩ := ih (hs.step hu).sound hgo fun e he => hes e (List.mem_cons_of_mem _ he)
    exact ⟨t, o :: os, by rw [run_cons_of_step hu, ht]; rfl⟩

end ArpTable
end NetworkSimulator.Arp
