import NetworkSimulator.Sctp.Handshake

/-!
# Agreement after the handshake

As long as no INIT ACK comes to an endpoint that waits for a COOKIE ACK, an initiator that is established
has a peer that is established too.
-/

namespace NetworkSimulator
open Library

namespace SctpNetwork
variable {w w' : SctpNetwork} {ev : SctpEvent} {a b a' b' : SctpEndpoint} {side : Side} {chunk : ControlChunk}

/-- The initiator has sent its first COOKIE ECHO. -/
def Echoed (a : SctpEndpoint) : Prop :=
  a.state = .cookieEchoed ∨ a.state = .established

/-- The invariant of the states: the responder is established only after a COOKIE ECHO, and before the
initiator. -/
structure Agree (a b : SctpEndpoint) : Prop where
  responder : b.state = .closed ∨ b.state = .established
  responderInit : b.t1InitTimer = false
  responderCookie : b.t1CookieTimer = false
  cookie : a.t1CookieTimer = true → Echoed a
  echoed : b.state = .established → Echoed a
  agree : a.state = .established → b.state = .established

/-- The invariant of the messages: what may be in flight to an endpoint, given both states. -/
def InOrder (a b : SctpEndpoint) : Side → ControlChunk → Prop
  | .responder, .init _ => True
  | .responder, .cookieEcho => Echoed a
  | .initiator, .initAck _ => True
  | .initiator, .cookieAck => b.state = .established
  | _, _ => a.state = .established

lemma InOrder.mono (h : InOrder a b side chunk) (hechoed : Echoed a → Echoed a')
    (ha : a.state = .established → a'.state = .established)
    (hb : b.state = .established → b'.state = .established) : InOrder a' b' side chunk := by
  cases side <;> cases chunk
  all_goals first
    | exact trivial
    | exact hechoed h
    | exact hb h
    | exact ha h

lemma Echoed.congr (h : Echoed a) (hstate : a'.state = a.state) : Echoed a' := by
  rwa [Echoed, hstate]

/-- The initiator stays in its state. -/
lemma Agree.congr (h : Agree a b) (hstate : a'.state = a.state)
    (hcookie : a'.t1CookieTimer = true → a.t1CookieTimer = true ∨ Echoed a) : Agree a' b := by
  refine ⟨h.responder, h.responderInit, h.responderCookie, fun hpend => ?_, fun hest => ?_, fun hest => ?_⟩
  · exact ((hcookie hpend).elim h.cookie id).congr hstate
  · exact (h.echoed hest).congr hstate
  · exact h.agree (hstate ▸ hest)

lemma t1Init_spec (hlimit : a.initTryCount < a.maxInitRetransmits) :
    ∃ n, a.t1InitTimerExpiration = ({ a with initTryCount := n, t1InitTimer := true }, [.init a.genInit]) := by
  refine ⟨a.initTryCount + 1, ?_⟩
  unfold SctpEndpoint.t1InitTimerExpiration
  rw [if_neg (by dsimp only; omega)]
  rfl

lemma t1Cookie_spec (hlimit : a.initTryCount < a.maxInitRetransmits) :
    ∃ n, a.t1CookieTimerExpiration = ({ a with initTryCount := n, t1CookieTimer := true }, [.cookieEcho]) := by
  refine ⟨a.initTryCount + 1, ?_⟩
  unfold SctpEndpoint.t1CookieTimerExpiration
  rw [if_neg (by dsimp only; omega)]

/-- `sendmsg` starts the handshake, or leaves the state and the timers. -/
lemma sendmsg_spec {source : MessageSource} {out : List ControlChunk}
    (h : a.sendmsg source = some (a', out)) :
    a'.t1CookieTimer = a.t1CookieTimer ∧
    (a'.state = a.state ∧ out = [] ∨ a.state = .closed ∧ a'.state = .cookieWait ∧ ∃ c, out = [.init c]) := by
  unfold SctpEndpoint.sendmsg at h
  extract_lets s at h
  have hs : s.state = a.state ∧ s.t1CookieTimer = a.t1CookieTimer := by
    cases source <;> exact ⟨rfl, rfl⟩
  split at h
  · cases h
  · split at h
    · rename_i hclosed
      obtain ⟨rfl, rfl⟩ := Prod.mk.inj (Option.some.inj h)
      exact ⟨hs.2, Or.inr ⟨hs.1.symm.trans hclosed, rfl, _, rfl⟩⟩
    · split at h
      · cases h
      · obtain ⟨rfl, rfl⟩ := Prod.mk.inj (Option.some.inj h)
        exact ⟨hs.2, Or.inl ⟨hs.1, rfl⟩⟩
    · obtain ⟨rfl, rfl⟩ := Prod.mk.inj (Option.some.inj h)
      exact ⟨hs.2, Or.inl ⟨hs.1, rfl⟩⟩

/-- The invariant, on the nodes of a network. -/
def AgreeAt (σ : Side → SctpEndpoint) : Prop :=
  Agree (σ .initiator) (σ .responder)

def InOrderAt (σ : Side → SctpEndpoint) : Side → ControlChunk → Prop :=
  InOrder (σ .initiator) (σ .responder)

/-- A step of the initiator. -/
lemma keeps_initiator {σ : Side → SctpEndpoint} {out : List ControlChunk}
    (hagree : Agree a' (σ .responder)) (hechoed : Echoed (σ .initiator) → Echoed a')
    (hest : (σ .initiator).state = .established → a'.state = .established)
    (hout : ∀ chunk ∈ out, InOrder a' (σ .responder) .responder chunk) :
    Network.Keeps AgreeAt InOrderAt σ .initiator a' (out.map fun chunk => (Side.initiator.peer, chunk)) := by
  have hself : Function.update σ .initiator a' .initiator = a' := Function.update_self ..
  have hother : Function.update σ .initiator a' .responder = σ .responder :=
    Function.update_of_ne (by decide) ..
  refine ⟨?_, fun side chunk h => ?_, fun p hp => ?_⟩
  · rw [AgreeAt, hself, hother]
    exact hagree
  · rw [InOrderAt, hself, hother]
    exact InOrder.mono h hechoed hest id
  · obtain ⟨chunk, hchunk, rfl⟩ := List.mem_map.mp hp
    rw [InOrderAt, hself, hother]
    exact hout chunk hchunk

/-- A step of the responder. -/
lemma keeps_responder {σ : Side → SctpEndpoint} {out : List ControlChunk}
    (hagree : Agree (σ .initiator) b')
    (hest : (σ .responder).state = .established → b'.state = .established)
    (hout : ∀ chunk ∈ out, InOrder (σ .initiator) b' .initiator chunk) :
    Network.Keeps AgreeAt InOrderAt σ .responder b' (out.map fun chunk => (Side.responder.peer, chunk)) := by
  have hself : Function.update σ .responder b' .responder = b' := Function.update_self ..
  have hother : Function.update σ .responder b' .initiator = σ .initiator :=
    Function.update_of_ne (by decide) ..
  refine ⟨?_, fun side chunk h => ?_, fun p hp => ?_⟩
  · rw [AgreeAt, hself, hother]
    exact hagree
  · rw [InOrderAt, hself, hother]
    exact InOrder.mono h id id hest
  · obtain ⟨chunk, hchunk, rfl⟩ := List.mem_map.mp hp
    rw [InOrderAt, hself, hother]
    exact hout chunk hchunk

/-- The actions: `sendmsg` and the timers below the retry limit. -/
lemma act_keeps {e : SctpAction} {s : SctpEndpoint} {out : List (Side × ControlChunk)}
    (hw : Network.Holds AgreeAt InOrderAt w) (hreg : Regular w (.act side e))
    (hstep : sctpHandlers.act side (w.node side) e = some (s, out)) :
    Network.Keeps AgreeAt InOrderAt w.node side s out := by
  obtain ⟨⟨t, chunks⟩, hact, hres⟩ := Option.map_eq_some_iff.mp hstep
  obtain ⟨rfl, rfl⟩ := Prod.mk.inj hres
  have hagree := hw.nodes
  cases side with
  | initiator =>
    cases e with
    | sendmsg source =>
      obtain ⟨htimer, ⟨hstate, rfl⟩ | ⟨hclosed, hwait, c, rfl⟩⟩ := sendmsg_spec hact
      · refine keeps_initiator (hagree.congr hstate fun h => Or.inl (htimer ▸ h)) (fun h => h.congr hstate)
          (fun h => hstate.trans h) fun chunk hchunk => absurd hchunk List.not_mem_nil
      · have hfirst : ¬Echoed (w.node .initiator) := by
          rw [Echoed, hclosed]
          decide
        refine keeps_initiator ⟨hagree.responder, hagree.responderInit, hagree.responderCookie,
          fun h => ?_, fun h => ?_, fun h => ?_⟩ (fun h => absurd h hfirst) (fun h => ?_) fun chunk hchunk => ?_
        · exact absurd (hagree.cookie (htimer ▸ h)) hfirst
        · exact absurd (hagree.echoed h) hfirst
        · rw [hwait] at h
          cases h
        · rw [hclosed] at h
          cases h
        · obtain rfl := List.mem_singleton.mp hchunk
          trivial
    | t1Init =>
      rw [sctpAct] at hact
      split at hact
      · obtain ⟨n, hspec⟩ := t1Init_spec (a := w.node .initiator) hreg.1
        rw [hspec] at hact
        obtain ⟨rfl, rfl⟩ := Prod.mk.inj (Option.some.inj hact)
        refine keeps_initiator (hagree.congr rfl Or.inl) (fun h => h.congr rfl) id fun chunk hchunk => ?_
        obtain rfl := List.mem_singleton.mp hchunk
        trivial
      · cases hact
    | t1Cookie =>
      rw [sctpAct] at hact
      split at hact
      · rename_i hpending
        have hechoed : Echoed (w.node .initiator) := hagree.cookie hpending
        obtain ⟨n, hspec⟩ := t1Cookie_spec (a := w.node .initiator) hreg.1
        rw [hspec] at hact
        obtain ⟨rfl, rfl⟩ := Prod.mk.inj (Option.some.inj hact)
        refine keeps_initiator (hagree.congr rfl fun _ => Or.inr hechoed) (fun h => h.congr rfl) id
          fun chunk hchunk => ?_
        obtain rfl := List.mem_singleton.mp hchunk
        exact hechoed.congr rfl
      · cases hact
  | responder =>
    cases e with
    | sendmsg source => cases hact
    | t1Init =>
      rw [sctpAct, if_neg (by rw [hagree.responderInit]; decide)] at hact
      cases hact
    | t1Cookie =>
      rw [sctpAct, if_neg (by rw [hagree.responderCookie]; decide)] at hact
      cases hact

lemma processHeartbeatAck_frame {d : ℕ} : (a.processHeartbeatAck d).state = a.state ∧
    (a.processHeartbeatAck d).t1InitTimer = a.t1InitTimer ∧
    (a.processHeartbeatAck d).t1CookieTimer = a.t1CookieTimer := by
  unfold SctpEndpoint.processHeartbeatAck
  dsimp only
  split <;> exact ⟨rfl, rfl, rfl⟩

lemma Agree.responder_congr (h : Agree a b) (hstate : b'.state = b.state)
    (hinit : b'.t1InitTimer = b.t1InitTimer) (hcookie : b'.t1CookieTimer = b.t1CookieTimer) : Agree a b' := by
  refine ⟨?_, hinit.trans h.responderInit, hcookie.trans h.responderCookie, h.cookie, ?_, ?_⟩
  · rw [hstate]
    exact h.responder
  · rw [hstate]
    exact h.echoed
  · rw [hstate]
    exact h.agree

/-- A message to the responder. -/
lemma responder_receives (behind : InitChunk) (h : Agree a b) (hchunk : InOrder a b .responder chunk) :
    Agree a (b.processChunk behind chunk).1 ∧
    (b.state = .established → (b.processChunk behind chunk).1.state = .established) ∧
    ∀ reply ∈ (b.processChunk behind chunk).2, InOrder a (b.processChunk behind chunk).1 .initiator reply := by
  unfold SctpEndpoint.processChunk
  rcases h.responder with hclosed | hest
  · have hno {P : Prop} (h : SctpState.closed = .established) : P := by cases h
    rw [hclosed]
    cases chunk with
    | init c =>
      refine ⟨h.responder_congr rfl rfl rfl, hno, fun reply hreply => ?_⟩
      obtain rfl := List.mem_singleton.mp hreply
      trivial
    | cookieEcho =>
      refine ⟨⟨Or.inr rfl, h.responderInit, h.responderCookie, h.cookie, fun _ => hchunk, fun _ => rfl⟩,
        fun _ => rfl, fun reply hreply => ?_⟩
      obtain rfl := List.mem_singleton.mp hreply
      exact rfl
    | _ => exact ⟨h, hno, fun reply hreply => absurd hreply List.not_mem_nil⟩
  · rw [hest]
    cases chunk with
    | hb d =>
      refine ⟨h, fun _ => hest, fun reply hreply => ?_⟩
      obtain rfl := List.mem_singleton.mp hreply
      exact hchunk
    | hbAck d =>
      have hframe : (b.processHeartbeatAck d).state = b.state ∧
          (b.processHeartbeatAck d).t1InitTimer = b.t1InitTimer ∧
          (b.processHeartbeatAck d).t1CookieTimer = b.t1CookieTimer := processHeartbeatAck_frame
      exact ⟨h.responder_congr hframe.1 hframe.2.1 hframe.2.2, fun _ => hframe.1.trans hest,
        fun reply hreply => absurd hreply List.not_mem_nil⟩
    | cookieEcho =>
      refine ⟨h, fun _ => hest, fun reply hreply => ?_⟩
      obtain rfl := List.mem_singleton.mp hreply
      exact hest
    | _ => exact ⟨h, fun _ => hest, fun reply hreply => absurd hreply List.not_mem_nil⟩

/-- A message to the initiator, no INIT ACK while it waits for a COOKIE ACK. -/
lemma initiator_receives (behind : InitChunk) (h : Agree a b) (hchunk : InOrder a b .initiator chunk)
    (hreg : ∀ c, chunk = .initAck c → a.state ≠ .cookieEchoed) :
    Agree (a.processChunk behind chunk).1 b ∧
    (Echoed a → Echoed (a.processChunk behind chunk).1) ∧
    (a.state = .established → (a.processChunk behind chunk).1.state = .established) ∧
    ∀ reply ∈ (a.processChunk behind chunk).2, InOrder (a.processChunk behind chunk).1 b .responder reply := by
  -- What is in flight to the initiator besides INIT ACKs shows that its peer is established.
  have hkind : (∃ c, chunk = .initAck c) ∨ b.state = .established ∧ (chunk = .cookieAck ∨ a.state = .established) := by
    cases chunk with
    | initAck c => exact Or.inl ⟨c, rfl⟩
    | cookieAck => exact Or.inr ⟨hchunk, Or.inl rfl⟩
    | _ => exact Or.inr ⟨h.agree hchunk, Or.inr hchunk⟩
  cases hstate : a.state with
  | closed =>
    have hfirst : ¬Echoed a := by
      rw [Echoed, hstate]
      decide
    obtain ⟨c, rfl⟩ := hkind.resolve_right fun hk => hfirst (h.echoed hk.1)
    have hres : a.processChunk behind (.initAck c) = (a, []) := by
      unfold SctpEndpoint.processChunk
      rw [hstate]
    rw [hres]
    exact ⟨h, id, fun hest => hstate.trans hest, fun reply hreply => absurd hreply List.not_mem_nil⟩
  | cookieWait =>
    have hfirst : ¬Echoed a := by
      rw [Echoed, hstate]
      decide
    have hres : (a.processChunk behind chunk).1.state = .cookieEchoed ∧
        (a.processChunk behind chunk).2 = [.cookieEcho] := by
      unfold SctpEndpoint.processChunk
      rw [hstate]
      exact ⟨rfl, rfl⟩
    have hechoed : Echoed (a.processChunk behind chunk).1 := Or.inl hres.1
    refine ⟨⟨h.responder, h.responderInit, h.responderCookie, fun _ => hechoed, fun _ => hechoed,
      fun hest => ?_⟩, fun _ => hechoed, nofun, fun reply hreply => ?_⟩
    · rw [hres.1] at hest
      cases hest
    · rw [hres.2] at hreply
      obtain rfl := List.mem_singleton.mp hreply
      exact hechoed
  | cookieEchoed =>
    obtain ⟨hb, hack⟩ := hkind.resolve_left fun ⟨c, hc⟩ => hreg c hc hstate
    have hres : (a.processChunk behind chunk).1.state = .established := by
      unfold SctpEndpoint.processChunk
      rw [hstate]
    have hreply : ∀ reply ∈ (a.processChunk behind chunk).2, ∃ d, reply = .hb d := by
      unfold SctpEndpoint.processChunk
      rw [hstate]
      intro reply hreply
      obtain ⟨d, -, rfl⟩ := List.mem_map.mp hreply
      exact ⟨d, rfl⟩
    refine ⟨⟨h.responder, h.responderInit, h.responderCookie, fun _ => Or.inr hres, fun _ => Or.inr hres,
      fun _ => hb⟩, fun _ => Or.inr hres, fun _ => hres, fun reply hin => ?_⟩
    obtain ⟨d, rfl⟩ := hreply reply hin
    exact hres
  | established =>
    have hres : (a.processChunk behind chunk).1.state = a.state ∧
        (a.processChunk behind chunk).1.t1CookieTimer = a.t1CookieTimer ∧
        ∀ reply ∈ (a.processChunk behind chunk).2, reply = .cookieAck ∨ ∃ d, reply = .hbAck d := by
      unfold SctpEndpoint.processChunk
      rw [hstate]
      cases chunk with
      | hb d =>
        exact ⟨hstate, rfl, fun reply hreply => Or.inr ⟨d, List.mem_singleton.mp hreply⟩⟩
      | hbAck d =>
        exact ⟨processHeartbeatAck_frame.1.trans hstate, processHeartbeatAck_frame.2.2,
          fun reply hreply => absurd hreply List.not_mem_nil⟩
      | cookieEcho =>
        exact ⟨hstate, rfl, fun reply hreply => Or.inl (List.mem_singleton.mp hreply)⟩
      | _ => exact ⟨hstate, rfl, fun reply hreply => absurd hreply List.not_mem_nil⟩
    have hest : (a.processChunk behind chunk).1.state = .established := hres.1.trans hstate
    refine ⟨h.congr hres.1 fun hc => Or.inl (hres.2.1 ▸ hc), fun _ => Or.inr hest, fun _ => hest,
      fun reply hin => ?_⟩
    rcases hres.2.2 reply hin with rfl | ⟨d, rfl⟩
    · exact hest
    · exact hest

/-- The messages, if none of them is an INIT ACK for an endpoint that waits for a COOKIE ACK. -/
lemma receive_keeps {k : ℕ} {behind : InitChunk} {s : SctpEndpoint} {out : List (Side × ControlChunk)}
    (hw : Network.Holds AgreeAt InOrderAt w) (hreg : Regular w (.deliver k behind))
    (hk : w.flight[k]? = some (side, chunk))
    (hstep : sctpHandlers.receive side (w.node side) chunk behind = some (s, out)) :
    Network.Keeps AgreeAt InOrderAt w.node side s out := by
  obtain ⟨rfl, rfl⟩ := Prod.mk.inj (Option.some.inj hstep)
  have hchunk : InOrderAt w.node side chunk := hw.flight _ (List.mem_of_getElem? hk)
  cases side with
  | initiator =>
    obtain ⟨hagree, hechoed, hest, hout⟩ := initiator_receives behind hw.nodes hchunk
      fun c hc => hreg.2 .initiator c (hc ▸ hk)
    exact keeps_initiator hagree hechoed hest hout
  | responder =>
    obtain ⟨hagree, hest, hout⟩ := responder_receives behind hw.nodes hchunk
    exact keeps_responder hagree hest hout

lemma Initial.holds (h : Initial w) : Network.Holds AgreeAt InOrderAt w := by
  refine ⟨⟨Or.inl (h.closed _), h.t1Init _, h.t1Cookie _, fun hc => ?_, fun he => ?_, fun he => ?_⟩,
    fun p hp => ?_⟩
  · rw [h.t1Cookie] at hc
    cases hc
  · rw [h.closed] at he
    cases he
  · rw [h.closed] at he
    cases he
  · rw [h.flight] at hp
    exact absurd hp List.not_mem_nil

/-- An action below the retry limit leaves an endpoint that is not closed in its state. -/
lemma act_state {e : SctpAction} {s : SctpEndpoint} {chunks : List ControlChunk}
    (hreg : BelowLimit w (.act side e)) (hopen : (w.node side).state ≠ .closed)
    (hact : sctpAct side (w.node side) e = some (s, chunks)) : s.state = (w.node side).state := by
  cases e with
  | sendmsg source =>
    rw [sctpAct] at hact
    split at hact
    · obtain ⟨-, ⟨hstate, -⟩ | ⟨hclosed, -⟩⟩ := sendmsg_spec hact
      · exact hstate
      · exact absurd hclosed hopen
    · cases hact
  | t1Init =>
    rw [sctpAct] at hact
    split at hact
    · obtain ⟨n, hspec⟩ := t1Init_spec (a := w.node side) hreg
      rw [hspec] at hact
      obtain ⟨rfl, -⟩ := Prod.mk.inj (Option.some.inj hact)
      rfl
    · cases hact
  | t1Cookie =>
    rw [sctpAct] at hact
    split at hact
    · obtain ⟨n, hspec⟩ := t1Cookie_spec (a := w.node side) hreg
      rw [hspec] at hact
      obtain ⟨rfl, -⟩ := Prod.mk.inj (Option.some.inj hact)
      rfl
    · cases hact

/-- The responder is never in one of the states of an initiator. -/
lemma initiator_of_waiting (hw : Network.Holds AgreeAt InOrderAt w)
    (hwait : (w.node side).state = .cookieWait ∨ (w.node side).state = .cookieEchoed) : side = .initiator := by
  cases side with
  | initiator => rfl
  | responder =>
    rcases hwait with h | h <;> rcases hw.nodes.responder with hb | hb <;> rw [h] at hb <;> cases hb

/-- What comes to an initiator that waits for an INIT ACK. -/
lemma initAck_of_cookieWait (h : Agree a b) (hchunk : InOrder a b .initiator chunk)
    (hwait : a.state = .cookieWait) : ∃ c, chunk = .initAck c := by
  have hfirst : ¬Echoed a := by
    rw [Echoed, hwait]
    decide
  have hest : a.state ≠ .established := fun he => hfirst (Or.inr he)
  cases chunk with
  | initAck c => exact ⟨c, rfl⟩
  | cookieAck => exact absurd (h.echoed hchunk) hfirst
  | _ => exact absurd hchunk hest

/-- What comes to an initiator that waits for a COOKIE ACK. -/
lemma cookieAck_of_cookieEchoed (hchunk : InOrder a b .initiator chunk) (hwait : a.state = .cookieEchoed)
    (hreg : ∀ c, chunk ≠ .initAck c) : chunk = .cookieAck := by
  have hest : a.state ≠ .established := by
    rw [hwait]
    decide
  cases chunk with
  | initAck c => exact absurd rfl (hreg c)
  | cookieAck => rfl
  | _ => exact absurd hchunk hest

/-- In a step that meets the condition, an endpoint leaves COOKIE_WAIT only on an INIT ACK and
COOKIE_ECHOED only on a COOKIE ACK. -/
lemma leaves_of (hw : Network.Holds AgreeAt InOrderAt w) (hreg : Regular w ev)
    (hstep : Network.step sctpHandlers w ev = some (w', ())) :
    ((w.node side).state = .cookieWait → (w'.node side).state ≠ .cookieWait →
      ∃ c, Delivers w side (.initAck c) ev) ∧
    ((w.node side).state = .cookieEchoed → (w'.node side).state ≠ .cookieEchoed →
      Delivers w side .cookieAck ev ∧ (w'.node side).t1CookieTimer = false) := by
  -- An endpoint that no chunk comes to stays in its state.
  have hstay (hsame : (w.node side).state ≠ .closed → (w'.node side).state = (w.node side).state) :
      ((w.node side).state = .cookieWait → (w'.node side).state ≠ .cookieWait →
        ∃ c, Delivers w side (.initAck c) ev) ∧
      ((w.node side).state = .cookieEchoed → (w'.node side).state ≠ .cookieEchoed →
        Delivers w side .cookieAck ev ∧ (w'.node side).t1CookieTimer = false) := by
    refine ⟨fun hwait hleft => ?_, fun hwait hleft => ?_⟩
    · exact absurd ((hsame (by rw [hwait]; decide)).trans hwait) hleft
    · exact absurd ((hsame (by rw [hwait]; decide)).trans hwait) hleft
  cases ev with
  | act other e =>
    obtain ⟨r, hact, hres⟩ := Option.map_eq_some_iff.mp hstep
    obtain ⟨⟨s, chunks⟩, hact', rfl⟩ := Option.map_eq_some_iff.mp hact
    obtain ⟨rfl, -⟩ := Prod.mk.inj hres
    refine hstay fun hopen => ?_
    rcases eq_or_ne side other with rfl | hne
    · dsimp only
      rw [Function.update_self]
      exact act_state hreg.1 hopen hact'
    · dsimp only
      rw [Function.update_of_ne hne]
  | deliver k behind =>
    obtain ⟨⟨other, chunk⟩, hk, hrest⟩ := Option.bind_eq_some_iff.mp hstep
    obtain ⟨r, hr, hres⟩ := Option.map_eq_some_iff.mp hrest
    obtain rfl := Option.some.inj hr
    obtain ⟨rfl, -⟩ := Prod.mk.inj hres
    rcases eq_or_ne side other with rfl | hne
    · have hchunk : InOrderAt w.node side chunk := hw.flight _ (List.mem_of_getElem? hk)
      refine ⟨fun hwait _ => ?_, fun hwait _ => ?_⟩
      · obtain rfl := initiator_of_waiting hw (Or.inl hwait)
        obtain ⟨c, rfl⟩ := initAck_of_cookieWait hw.nodes hchunk hwait
        exact ⟨c, hk⟩
      · obtain rfl := initiator_of_waiting hw (Or.inr hwait)
        have hack : chunk = .cookieAck := cookieAck_of_cookieEchoed hchunk hwait
          fun c hc => hreg.2 .initiator c (hc ▸ hk) hwait
        refine ⟨hack ▸ hk, ?_⟩
        dsimp only
        rw [Function.update_self]
        unfold SctpEndpoint.processChunk
        rw [hwait]
        rfl
    · refine hstay fun _ => ?_
      dsimp only
      rw [Function.update_of_ne hne]
  | lose k =>
    obtain ⟨rfl, -⟩ := Prod.mk.inj (Option.some.inj hstep)
    exact hstay fun _ => rfl

/-- Whenever the initiator is established the responder is, and an endpoint leaves COOKIE_WAIT and
COOKIE_ECHOED only on the chunk it waits for. -/
theorem handshake_run {evs : List SctpEvent} {os : List Unit} (hinit : Initial w)
    (hreg : EachStep (Network.step sctpHandlers) Regular w evs)
    (hrun : run (Network.step sctpHandlers) w evs = some (w', os)) :
    ((w'.node .initiator).state = .established → (w'.node .responder).state = .established) ∧
    ∀ ev w'' side, Regular w' ev → Network.step sctpHandlers w' ev = some (w'', ()) →
      ((w'.node side).state = .cookieWait → (w''.node side).state ≠ .cookieWait →
        ∃ c, Delivers w' side (.initAck c) ev) ∧
      ((w'.node side).state = .cookieEchoed → (w''.node side).state ≠ .cookieEchoed →
        Delivers w' side .cookieAck ev ∧ (w''.node side).t1CookieTimer = false) := by
  have hw : Network.Holds AgreeAt InOrderAt w' :=
    Network.Holds.run (fun _ _ _ _ _ => act_keeps) (fun _ _ _ _ _ _ _ => receive_keeps) hinit.holds hreg hrun
  exact ⟨hw.nodes.agree, fun ev w'' side hreg' hstep => leaves_of hw hreg' hstep⟩

/-- An endpoint with one destination, as `Reset()` leaves it. -/
def freshEndpoint : SctpEndpoint :=
  ⟨.closed, false, false, 0, 8, 65536, 1, 0, 0, [], [.active], true⟩

def freshPair : SctpNetwork :=
  ⟨fun _ => freshEndpoint, []⟩

lemma freshPair_initial : Initial freshPair :=
  ⟨fun _ => rfl, fun _ => rfl, fun _ => rfl, rfl⟩

def deliverFirst : SctpEvent :=
  .deliver 0 freshEndpoint.genInit

/-- The four chunks of the handshake, each delivered in turn. -/
def fourWay : List SctpEvent :=
  [.act .initiator (.sendmsg .infinite), deliverFirst, deliverFirst, deliverFirst, deliverFirst]

lemma fourWay_regular : EachStep (Network.step sctpHandlers) Regular freshPair fourWay := by
  refine ⟨⟨trivial, fun side chunk hk => hk.elim⟩, fun w o h => ?_⟩
  cases h
  refine ⟨⟨trivial, fun side chunk hk => ?_⟩, fun w o h => ?_⟩
  · cases hk
  cases h
  refine ⟨⟨trivial, fun side chunk hk => ?_⟩, fun w o h => ?_⟩
  · cases hk
    decide
  cases h
  refine ⟨⟨trivial, fun side chunk hk => ?_⟩, fun w o h => ?_⟩
  · cases hk
  cases h
  refine ⟨⟨trivial, fun side chunk hk => ?_⟩, fun w o h => trivial⟩
  cases hk

theorem handshake_run_fourWay : ∃ w os, run (Network.step sctpHandlers) freshPair fourWay = some (w, os) ∧
    (w.node .initiator).state = .established ∧ (w.node .responder).state = .established :=
  ⟨_, _, rfl, rfl, (handshake_run freshPair_initial fourWay_regular rfl).1 rfl⟩

/-- The INIT is sent again, both INIT ACKs come to the initiator, and the COOKIE ECHO is lost. -/
def duplicateInit : List SctpEvent :=
  [.act .initiator (.sendmsg .infinite), .act .initiator .t1Init, deliverFirst, deliverFirst, deliverFirst,
    deliverFirst, .lose 0]

lemma duplicateInit_belowLimit : EachStep (Network.step sctpHandlers) BelowLimit freshPair duplicateInit := by
  refine ⟨trivial, fun w o h => ?_⟩
  cases h
  exact ⟨Nat.zero_lt_succ 7, fun _ _ _ => ⟨trivial, fun _ _ _ => ⟨trivial, fun _ _ _ => ⟨trivial, fun _ _ _ =>
    ⟨trivial, fun _ _ _ => ⟨trivial, fun _ _ _ => trivial⟩⟩⟩⟩⟩⟩

/-- The second INIT ACK takes the initiator out of COOKIE_ECHOED; its peer is still closed, and no timer is
left that would send the COOKIE ECHO again. -/
theorem second_initAck_establishes : Initial freshPair ∧
    EachStep (Network.step sctpHandlers) BelowLimit freshPair duplicateInit ∧
    ∃ w os, run (Network.step sctpHandlers) freshPair duplicateInit = some (w, os) ∧
      (w.node .initiator).state = .established ∧ (w.node .initiator).t1CookieTimer = false ∧
      (w.node .responder).state = .closed ∧ ∀ p ∈ w.flight, p.2 ≠ .cookieEcho :=
  ⟨freshPair_initial, duplicateInit_belowLimit, _, _, rfl, rfl, rfl, rfl, by decide⟩

end SctpNetwork

end NetworkSimulator
