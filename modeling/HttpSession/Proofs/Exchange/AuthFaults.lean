import HttpSession.Proofs.Auth.PhaseLaws
import HttpSession.Proofs.Exchange.Histories

/-!
# When authentication ends an exchange

The negotiation with a proxy hears of every response, but inside a tunnel it is not asked for answers. If
the proxy asks for authentication there, candidates stay pending while the next attempt goes out without
an answer, and the response to it counts as a success with no active scheme. As soon as a redirect leads
to a hop whose requests the proxy forwards, an answer is due and there is no scheme to make it.

The invariant follows the negotiation with the proxy through the hops (`HopProxyState`). On forwarded hops
it is asked for an answer in every round, and so is the negotiation with the target on all hops; in a
tunnel it is `Quiescent`, `Pending` or `SuccessPending`, and the history tells which.

Main statement: an exchange ends with a fault of authentication exactly if its history is of that kind,
and the attempt is not refused for its cookies (`exchange_auth_iff`).
-/

namespace HttpSession

open Auth (Side Negotiation)

def Route.isTunnel (r : Route) : Bool := r.proxy.isSome && r.tunnelled

theorem Route.kinds (r : Route) : r.proxy = none ∨ r.isForwarded = true ∨ r.isTunnel = true := by
  cases hp : r.proxy <;> cases ht : r.tunnelled <;> simp [isForwarded, isTunnel, hp, ht]

theorem Route.isTunnel_of_forwarded {r : Route} (h : r.isForwarded = true) : r.isTunnel = false := by
  simp only [isForwarded, Bool.and_eq_true, Bool.not_eq_true'] at h
  simp [isTunnel, h.2]

theorem Route.isForwarded_of_isTunnel {r : Route} (h : r.isTunnel = true) : r.isForwarded = false := by
  simp only [isTunnel, Bool.and_eq_true] at h
  simp [isForwarded, h.2]

namespace Exchange

-- ---------------------------------------------------------------------------
-- What the history tells
-- ---------------------------------------------------------------------------

def beginsHop : Event → Bool
  | .hop _ _ => true
  | _ => false

/-- In the present hop a proxy asked for authentication inside a tunnel. -/
inductive AskedInTunnel : List Event → Prop
  | now {reply : Nat} {r : Response} {a : Attempt} {earlier : List Event}
      (hr : r.status = Side.proxy.status) (ht : a.route.isTunnel = true) :
      AskedInTunnel (.received reply r :: .sent a :: earlier)
  | later {event : Event} {earlier : List Event} (he : beginsHop event = false)
      (h : AskedInTunnel earlier) : AskedInTunnel (event :: earlier)

/-- An attempt was sent when a proxy had asked in the tunnel that the attempt went through. -/
inductive LeftUnanswered : List Event → Prop
  | now {a : Attempt} {earlier : List Event} (h : AskedInTunnel earlier) :
      LeftUnanswered (.sent a :: earlier)
  | later {event : Event} {earlier : List Event} (h : LeftUnanswered earlier) :
      LeftUnanswered (event :: earlier)

/-- After a proxy was left unanswered in a tunnel, a hop began on which it forwards. -/
inductive ForwardedUnanswered : List Event → Prop
  | now {route : Route} {url : Url} {earlier : List Event} (hr : route.isForwarded = true)
      (h : LeftUnanswered earlier) : ForwardedUnanswered (.hop route url :: earlier)
  | later {event : Event} {earlier : List Event} (h : ForwardedUnanswered earlier) :
      ForwardedUnanswered (event :: earlier)

section
variable {h events : List Event} {route : Route} {url : Url} {reply : Nat} {r : Response} {a : Attempt}
  {rules : Option Cookie.Rules} {cookies : List Cookie}

theorem not_askedInTunnel_hop : ¬ AskedInTunnel (.hop route url :: h) := by
  intro ha
  cases ha with
  | later he => cases he

@[simp] theorem leftUnanswered_hop : LeftUnanswered (.hop route url :: h) ↔ LeftUnanswered h := by
  refine ⟨fun hl => ?_, .later⟩
  cases hl with
  | later hl => exact hl

theorem forwardedUnanswered_hop : ForwardedUnanswered (.hop route url :: h) ↔
    (route.isForwarded = true ∧ LeftUnanswered h) ∨ ForwardedUnanswered h := by
  constructor
  · intro hs
    cases hs with
    | now hr hl => exact .inl ⟨hr, hl⟩
    | later hs => exact .inr hs
  · rintro (⟨hr, hl⟩ | hs)
    · exact .now hr hl
    · exact .later hs

theorem askedInTunnel_round :
    AskedInTunnel (.stored rules cookies :: .received reply r :: .sent a :: h) ↔
      (r.status = Side.proxy.status ∧ a.route.isTunnel = true) ∨ AskedInTunnel h := by
  constructor
  · intro ha
    cases ha with
    | later _ ha =>
      cases ha with
      | now hr ht => exact .inl ⟨hr, ht⟩
      | later _ ha =>
        cases ha with
        | later _ ha => exact .inr ha
  · rintro (⟨hr, ht⟩ | ha)
    · exact .later rfl (.now hr ht)
    · exact .later rfl (.later rfl (.later rfl ha))

theorem leftUnanswered_round :
    LeftUnanswered (.stored rules cookies :: .received reply r :: .sent a :: h) ↔
      AskedInTunnel h ∨ LeftUnanswered h := by
  constructor
  · intro hl
    cases hl with
    | later hl =>
      cases hl with
      | later hl =>
        cases hl with
        | now ha => exact .inl ha
        | later hl => exact .inr hl
  · rintro (ha | hl)
    · exact .later (.later (.now ha))
    · exact .later (.later (.later hl))

@[simp] theorem forwardedUnanswered_sent : ForwardedUnanswered (.sent a :: h) ↔ ForwardedUnanswered h := by
  refine ⟨fun hs => ?_, .later⟩
  cases hs with
  | later hs => exact hs

@[simp] theorem forwardedUnanswered_round :
    ForwardedUnanswered (.stored rules cookies :: .received reply r :: .sent a :: h) ↔
      ForwardedUnanswered h := by
  refine ⟨fun hs => ?_, fun hs => .later (.later (.later hs))⟩
  cases hs with
  | later hs =>
    cases hs with
    | later hs => exact forwardedUnanswered_sent.mp hs

theorem tells_body {event : Event} (he : event.isOfBody = true) :
    (AskedInTunnel (event :: h) ↔ AskedInTunnel h) ∧
      (LeftUnanswered (event :: h) ↔ LeftUnanswered h) ∧
        (ForwardedUnanswered (event :: h) ↔ ForwardedUnanswered h) := by
  refine ⟨⟨fun ha => ?_, fun ha => .later ?_ ha⟩, ⟨fun hl => ?_, .later⟩, ⟨fun hs => ?_, .later⟩⟩
  · cases ha with
    | now => cases he
    | later _ ha => exact ha
  · cases event with
    | hop => cases he
    | _ => rfl
  · cases hl with
    | now => cases he
    | later hl => exact hl
  · cases hs with
    | now => cases he
    | later hs => exact hs

theorem tells_append (he : ∀ event ∈ events, event.isOfBody = true) :
    (AskedInTunnel (events ++ h) ↔ AskedInTunnel h) ∧
      (LeftUnanswered (events ++ h) ↔ LeftUnanswered h) ∧
        (ForwardedUnanswered (events ++ h) ↔ ForwardedUnanswered h) := by
  induction events with
  | nil => exact ⟨.rfl, .rfl, .rfl⟩
  | cons event rest ih =>
    obtain ⟨hasked, hleft, hunanswered⟩ := ih fun other ho => he other (List.mem_cons_of_mem _ ho)
    obtain ⟨hasked', hleft', hunanswered'⟩ := tells_body (h := rest ++ h) (he event List.mem_cons_self)
    exact ⟨hasked'.trans hasked, hleft'.trans hleft, hunanswered'.trans hunanswered⟩

end

-- ---------------------------------------------------------------------------
-- Where the proxy stands
-- ---------------------------------------------------------------------------

structure NoTunnelChallenge (h : List Event) : Prop where
  asked : ¬ AskedInTunnel h
  left : ¬ LeftUnanswered h
  forwardedUnanswered : ¬ ForwardedUnanswered h

/-- The state of the negotiation with the proxy in a hop, with what the history tells of it. On a hop whose
requests the proxy forwards it satisfies `P`, which asking it for answers preserves. -/
inductive HopProxyState (P : Negotiation → Prop) (route : Route) (n : Negotiation) (h : List Event) : Prop
  | away (hr : route.proxy = none) (hu : NoTunnelChallenge h)
  | forwarded (hr : route.isForwarded = true) (hu : NoTunnelChallenge h) (hn : P n)
  | quiescent (hr : route.isTunnel = true) (hu : NoTunnelChallenge h) (hn : n.Quiescent)
  | asked (hr : route.isTunnel = true) (ha : AskedInTunnel h) (hs : ¬ ForwardedUnanswered h) (hn : n.Pending)
  | left (hr : route.isTunnel = true) (hl : LeftUnanswered h) (hs : ¬ ForwardedUnanswered h)
    (hn : n.SuccessPending)

inductive BetweenHops (client : Client) (n : Negotiation) (h : List Event) : Prop
  | away (hp : client.proxy = none) (hl : ¬ LeftUnanswered h) (hs : ¬ ForwardedUnanswered h)
  | quiescent (hl : ¬ LeftUnanswered h) (hs : ¬ ForwardedUnanswered h) (hn : n.Quiescent)
  | left (hp : client.proxy ≠ none) (hl : LeftUnanswered h) (hs : ¬ ForwardedUnanswered h)
    (hn : n.SuccessPending)

section
variable {client : Client} {P : Negotiation → Prop} {route : Route} {n : Negotiation} {h : List Event}
  {reply : Nat} {r : Response} {a : Attempt} {rules : Option Cookie.Rules} {cookies : List Cookie}

theorem HopProxyState.not_forwardedUnanswered (hf : HopProxyState P route n h) : ¬ ForwardedUnanswered h := by
  cases hf with
  | away _ hu => exact hu.forwardedUnanswered
  | forwarded _ hu => exact hu.forwardedUnanswered
  | quiescent _ hu => exact hu.forwardedUnanswered
  | asked _ _ hs => exact hs
  | left _ _ hs => exact hs

theorem HopProxyState.ready (hf : HopProxyState Negotiation.Ready route n h) (hr : route.isForwarded = true) :
    n.Ready := by
  have hnot (hk : route.isTunnel = true) : n.Ready := by
    rw [Route.isForwarded_of_isTunnel hk] at hr
    cases hr
  cases hf with
  | away hk => simp [Route.isForwarded, hk] at hr
  | forwarded _ _ hn => exact hn
  | quiescent hk => exact hnot hk
  | asked hk => exact hnot hk
  | left hk => exact hnot hk

theorem HopProxyState.answered {m : Negotiation} (hf : HopProxyState Negotiation.Ready route n h)
    (hm : route.isForwarded = true → m.Settled) (hsame : route.isForwarded = false → m = n) :
    HopProxyState Negotiation.Settled route m h := by
  cases hf with
  | away hk hu => exact .away hk hu
  | forwarded hk hu => exact .forwarded hk hu (hm hk)
  | quiescent hk hu hn =>
    obtain rfl := hsame (Route.isForwarded_of_isTunnel hk)
    exact .quiescent hk hu hn
  | asked hk ha hs hn =>
    obtain rfl := hsame (Route.isForwarded_of_isTunnel hk)
    exact .asked hk ha hs hn
  | left hk hl hs hn =>
    obtain rfl := hsame (Route.isForwarded_of_isTunnel hk)
    exact .left hk hl hs hn

theorem BetweenHops.not_forwardedUnanswered (hb : BetweenHops client n h) : ¬ ForwardedUnanswered h := by
  cases hb with
  | away _ _ hs => exact hs
  | quiescent _ hs => exact hs
  | left _ _ hs => exact hs

/-- A hop begins in a tunnel as the one before ended, and where the proxy forwards it begins quiescent or
with candidates pending after a success. -/
theorem BetweenHops.enter (hb : BetweenHops client n h)
    (hr : route.proxy = client.proxy.map Endpoint.normalized)
    (url : Url) : HopProxyState Negotiation.Ready route n (.hop route url :: h) ∨
      route.isForwarded = true ∧ ForwardedUnanswered (.hop route url :: h) ∧ n.SuccessPending := by
  have hunasked (hl : ¬ LeftUnanswered h) (hs : ¬ ForwardedUnanswered h) :
    NoTunnelChallenge (.hop route url :: h) := by
    refine ⟨not_askedInTunnel_hop, by simpa using hl, ?_⟩
    rw [forwardedUnanswered_hop]
    rintro (⟨-, hl'⟩ | hs')
    · exact hl hl'
    · exact hs hs'
  cases hb with
  | away hp hl hs => exact .inl (.away (by rw [hr, hp]; rfl) (hunasked hl hs))
  | quiescent hl hs hn =>
    rcases route.kinds with hk | hk | hk
    · exact .inl (.away hk (hunasked hl hs))
    · exact .inl (.forwarded hk (hunasked hl hs) (.inl hn.settled))
    · exact .inl (.quiescent hk (hunasked hl hs) hn)
  | left hp hl hs hn =>
    rcases route.kinds with hk | hk | hk
    · rw [hr, Option.map_eq_none_iff] at hk
      exact absurd hk hp
    · exact .inr ⟨hk, .now hk hl, hn⟩
    · refine .inl (.left hk (leftUnanswered_hop.mpr hl) ?_ hn)
      rw [forwardedUnanswered_hop]
      rintro (⟨hf, -⟩ | hs')
      · rw [Route.isForwarded_of_isTunnel hk] at hf
        cases hf
      · exact hs hs'

theorem BetweenHops.leave (hb : BetweenHops client n h) :
    BetweenHops client (if n.isConnectionBased then {} else n) h := by
  cases hb with
  | away hp hl hs => exact .away hp hl hs
  | quiescent hl hs hn =>
    refine .quiescent hl hs ?_
    split
    · exact Negotiation.quiescent_empty
    · exact hn
  | left hp hl hs hn =>
    rw [hn.isConnectionBased]
    exact .left hp hl hs hn

theorem BetweenHops.append {events : List Event} (hb : BetweenHops client n h)
    (he : ∀ event ∈ events, event.isOfBody = true) : BetweenHops client n (events ++ h) := by
  obtain ⟨-, hleft, hunanswered⟩ := tells_append (h := h) he
  cases hb with
  | away hp hl hs => exact .away hp (mt hleft.mp hl) (mt hunanswered.mp hs)
  | quiescent hl hs hn => exact .quiescent (mt hleft.mp hl) (mt hunanswered.mp hs) hn
  | left hp hl hs hn => exact .left hp (hleft.mpr hl) (mt hunanswered.mp hs) hn

theorem HopProxyState.append {events : List Event} (hf : HopProxyState P route n h)
    (he : ∀ event ∈ events, event.isOfBody = true) : HopProxyState P route n (events ++ h) := by
  obtain ⟨hasked, hleft, hunanswered⟩ := tells_append (h := h) he
  have hunasked (hu : NoTunnelChallenge h) : NoTunnelChallenge (events ++ h) :=
    ⟨mt hasked.mp hu.asked, mt hleft.mp hu.left, mt hunanswered.mp hu.forwardedUnanswered⟩
  cases hf with
  | away hr hu => exact .away hr (hunasked hu)
  | forwarded hr hu hn => exact .forwarded hr (hunasked hu) hn
  | quiescent hr hu hn => exact .quiescent hr (hunasked hu) hn
  | asked hr ha hs hn => exact .asked hr (hasked.mpr ha) (mt hunanswered.mp hs) hn
  | left hr hl hs hn => exact .left hr (hleft.mpr hl) (mt hunanswered.mp hs) hn

theorem NoTunnelChallenge.round (hu : NoTunnelChallenge h)
    (hr : r.status = Side.proxy.status → a.route.isTunnel = false) :
    NoTunnelChallenge (.stored rules cookies :: .received reply r :: .sent a :: h) := by
  refine ⟨?_, ?_, ?_⟩
  · rw [askedInTunnel_round]
    rintro (⟨hs, ht⟩ | ha)
    · rw [hr hs] at ht
      cases ht
    · exact hu.asked ha
  · rw [leftUnanswered_round]
    rintro (ha | hl)
    · exact hu.asked ha
    · exact hu.left hl
  · rw [forwardedUnanswered_round]
    exact hu.forwardedUnanswered

/-- The state of the proxy after a round that is repeated. -/
theorem HopProxyState.again {side : Side} {m : Negotiation} (env : Negotiation.Env)
    (hf : HopProxyState Negotiation.Settled route n h) (ha : a.route = route) (hr : r.status = side.status)
    (hm : m = if side = .proxy then (n.react env r.headers).2.1 else (n.hear .proxy r.status).2.1)
    (hagain : side = .proxy → (n.react env r.headers).1 = true) :
    HopProxyState Negotiation.Ready route m (.stored rules cookies :: .received reply r :: .sent a :: h) := by
  subst hm
  cases side with
  | target =>
    have hs : r.status ≠ Side.proxy.status := by
      rw [hr]
      decide
    simp only [reduceCtorEq, if_false]
    cases hf with
    | away hr hu => exact .away hr (hu.round (absurd · hs))
    | forwarded hr hu hn => exact .forwarded hr (hu.round (absurd · hs)) (.inl (hn.hear hs).settled)
    | quiescent hr hu hn => exact .quiescent hr (hu.round (absurd · hs)) (hn.settled.hear hs)
    -- The proxy asked in the tunnel and was not answered; what the target says passes for a success.
    | asked hr ha' hs' hn =>
      exact .left hr (leftUnanswered_round.mpr (.inl ha')) (mt forwardedUnanswered_round.mp hs') (hn.hear hs)
    | left hr hl hs' hn =>
      exact .left hr (leftUnanswered_round.mpr (.inr hl)) (mt forwardedUnanswered_round.mp hs') (hn.hear hs)
  | proxy =>
    have hs : r.status = Side.proxy.status := hr
    have htrue := hagain rfl
    simp only [if_true]
    cases hf with
    | away hr hu =>
      refine .away hr (hu.round fun _ => ?_)
      rw [ha, Route.isTunnel, hr]
      rfl
    | forwarded hr hu hn =>
      exact .forwarded hr (hu.round fun _ => by rw [ha]; exact Route.isTunnel_of_forwarded hr) hn.react.1
    | quiescent hr hu hn =>
      exact .asked hr (askedInTunnel_round.mpr (.inl ⟨hs, ha ▸ hr⟩))
        (mt forwardedUnanswered_round.mp hu.forwardedUnanswered)
        (Negotiation.pending_of_react (.inl hn) htrue)
    | asked hr ha' hs' hn =>
      rw [hn.react.1] at htrue
      cases htrue
    | left hr hl hs' hn =>
      exact .asked hr (askedInTunnel_round.mpr (.inl ⟨hs, ha ▸ hr⟩)) (mt forwardedUnanswered_round.mp hs')
        (Negotiation.pending_of_react (.inr hn) htrue)

theorem HopProxyState.between (hf : HopProxyState Negotiation.Settled route n h)
    (hr : route.proxy = client.proxy.map Endpoint.normalized) (hs : r.status ≠ Side.proxy.status) :
    BetweenHops client (n.hear .proxy r.status).2.1
      (.stored rules cookies :: .received reply r :: .sent a :: h) := by
  have hproxy (hk : route.isTunnel = true) : client.proxy ≠ none := by
    intro hp
    simp [Route.isTunnel, hr, hp] at hk
  cases hf with
  | away hk hu =>
    rw [hr, Option.map_eq_none_iff] at hk
    exact .away hk (hu.round (absurd · hs)).left (mt forwardedUnanswered_round.mp hu.forwardedUnanswered)
  | forwarded hk hu hn =>
    exact .quiescent (hu.round (absurd · hs)).left
      (mt forwardedUnanswered_round.mp hu.forwardedUnanswered) (hn.hear hs)
  | quiescent hk hu hn =>
    exact .quiescent (hu.round (absurd · hs)).left
      (mt forwardedUnanswered_round.mp hu.forwardedUnanswered) (hn.settled.hear hs)
  | asked hk ha' hs' hn =>
    exact .left (hproxy hk) (leftUnanswered_round.mpr (.inl ha')) (mt forwardedUnanswered_round.mp hs')
      (hn.hear hs)
  | left hk hl hs' hn =>
    exact .left (hproxy hk) (leftUnanswered_round.mpr (.inr hl)) (mt forwardedUnanswered_round.mp hs')
      (hn.hear hs)

end

-- ---------------------------------------------------------------------------
-- Attempts and responses
-- ---------------------------------------------------------------------------

section
variable {route : Route} {request : Request} {s t : Session}

theorem Forwarded.settled {p : Option Auth.Answer} (h : Forwarded route request s p t)
    (hp : route.isForwarded = true → (Run.negotiation s .proxy).Ready) :
    Run.negotiation t .target = Run.negotiation s .target ∧
      (route.isForwarded = true → (Run.negotiation t .proxy).Settled) ∧
      (route.isForwarded = false → Run.negotiation t .proxy = Run.negotiation s .proxy) := by
  have htarget := h.negotiation_target
  cases h with
  | asked hr =>
    refine ⟨htarget, fun _ => ?_, fun hn => ?_⟩
    · rw [Session.negotiation_answered]
      exact (hp hr).answer.1
    · rw [hr] at hn
      cases hn
  | passed hr =>
    refine ⟨htarget, fun hn => ?_, fun _ => rfl⟩
    rw [hr] at hn
    cases hn

theorem Prepared.ready {result : Except ExchangeError Attempt} (h : Prepared route request s result t)
    (ht : (Run.negotiation s .target).Ready)
    (hp : route.isForwarded = true → (Run.negotiation s .proxy).Ready)
    (hidle : s.context.config.authenticates = false → ∀ side, Run.negotiation s side = {}) :
    (∃ name, result = .error (.unsupportedPolicy name)) ∨
      (∃ a, result = .ok a ∧ a.route = route) ∧ (Run.negotiation t .target).Settled ∧
        (route.isForwarded = true → (Run.negotiation t .proxy).Settled) ∧
        (route.isForwarded = false → Run.negotiation t .proxy = Run.negotiation s .proxy) := by
  have hcarried {c : Jar.Carrying} (hc : s.jar.attach s.context s.now request = .ok c) :
      route.isForwarded = true → (Run.negotiation (s.carried c) .proxy).Ready := by
    rw [negotiation_carried hc]
    exact hp
  cases h with
  | refused hc =>
    obtain ⟨name, rfl⟩ := Jar.attach_error hc
    exact .inl ⟨name, rfl⟩
  | bare hc ha =>
    have hv := negotiation_carried hc
    refine .inr ⟨⟨_, rfl, rfl⟩, ?_, fun _ => ?_, fun _ => hv _⟩
    · rw [hv, hidle ha]
      exact Negotiation.settled_empty
    · rw [hv, hidle ha]
      exact Negotiation.settled_empty
  | proxyFault hc _ hr hfault => exact absurd hfault ((hcarried hc hr).answer.2 _)
  | targetFault hc _ hf hfault =>
    obtain ⟨htarget, -, -⟩ := hf.settled (hcarried hc)
    rw [Session.outcome, htarget, negotiation_carried hc] at hfault
    exact absurd hfault (ht.answer.2 _)
  | answered hc _ hf =>
    obtain ⟨htarget, hsettled, hsame⟩ := hf.settled (hcarried hc)
    rw [negotiation_carried hc] at htarget hsame
    have hne : Side.proxy ≠ Side.target := by decide
    refine .inr ⟨⟨_, rfl, rfl⟩, ?_, fun hr => ?_, fun hr => ?_⟩
    · rw [Session.negotiation_answered, Session.outcome, htarget]
      exact ht.answer.1
    · rw [Session.negotiation_answered_ne _ _ hne]
      exact hsettled hr
    · rw [Session.negotiation_answered_ne _ _ hne]
      exact hsame hr

/-- Where a proxy that forwards is to be answered and candidates are pending after a success, there is no
attempt. -/
theorem Prepared.successPending {result : Except ExchangeError Attempt}
    (h : Prepared route request s result t)
    (ha : s.context.config.authenticates = true) (hr : route.isForwarded = true)
    (hp : (Run.negotiation s .proxy).SuccessPending) :
    (∃ name, result = .error (.unsupportedPolicy name)) ∨ result = .error (.auth .noScheme) := by
  have hanswer {c : Jar.Carrying} {request' : Request}
      (hc : s.jar.attach s.context s.now request = .ok c) :
      ((s.carried c).outcome .proxy request').answer = .error .noScheme := by
    rw [Session.outcome, negotiation_carried hc]
    exact hp.answer.1
  have hforwarded {c : Jar.Carrying} {p : Option Auth.Answer} {u : Session}
      (hc : s.jar.attach s.context s.now request = .ok c) :
      ¬ Forwarded route c.request (s.carried c) p u := by
    rintro (⟨-, hok⟩ | hn)
    · rw [hanswer hc] at hok
      cases hok
    · rw [hr] at hn
      cases hn
  cases h with
  | refused hc =>
    obtain ⟨name, rfl⟩ := Jar.attach_error hc
    exact .inl ⟨name, rfl⟩
  | bare _ hn =>
    rw [ha] at hn
    cases hn
  | proxyFault hc _ _ hfault =>
    rw [hanswer hc] at hfault
    exact .inr (by rw [← Except.error.inj hfault])
  | targetFault hc _ hf => exact absurd hf (hforwarded hc)
  | answered hc _ hf => exact absurd hf (hforwarded hc)

theorem Judged.negotiation_of_ne {target : Endpoint} {r : Response} {asked : Option Side} {side : Side}
    (h : Judged target route r s asked t) (hs : r.status ≠ side.status)
    (hidle : s.context.config.authenticates = false → Run.negotiation s side = {}) :
    Run.negotiation t side = ((Run.negotiation s side).hear side r.status).2.1 := by
  cases h with
  | disabled ha =>
    rw [hidle ha, Negotiation.hear, if_neg hs]
  | @asked other _ hr =>
    have hne : side ≠ other := by
      rintro rfl
      exact hs hr
    rw [Session.negotiation_reacted_ne _ _ _ hne, Session.negotiation_heardBoth]
  | noTunnelChallenge => rw [Session.negotiation_heardBoth]

theorem Judged.negotiation_of_asked {target : Endpoint} {r : Response} {side : Side}
    (h : Judged target route r s (some side) t) :
    r.status = side.status ∧ ∃ u : Session, ∃ host, u.fixed = s.fixed ∧
      ((Run.negotiation s side).react (u.env side host) r.headers).1 = true ∧
      Run.negotiation t side = ((Run.negotiation s side).react (u.env side host) r.headers).2.1 := by
  generalize ha : some side = asked at h
  cases h with
  | disabled => cases ha
  | noTunnelChallenge => cases ha
  | @asked other _ hr =>
    split at ha
    · rename_i hagain
      obtain rfl := Option.some.inj ha
      have hn : Run.negotiation (s.heardBoth target route r.status) side = Run.negotiation s side := by
        rw [Session.negotiation_heardBoth, Negotiation.hear_asking hr]
      simp only [Session.reaction, hn] at hagain
      refine ⟨hr, s.heardBoth target route r.status, _, ?_, hagain, ?_⟩
      · exact Session.fixed_of_plain (s.plain_heardBoth _ _ _)
      · rw [Session.negotiation_reacted, Session.reaction, hn]
    · cases ha

end

def isOther : ExchangeError → Bool
  | .auth _ => false
  | _ => true

theorem isOther_of_receive {number : Nat} {url : Url} {reply : Reply} {error : ExchangeError}
    (h : Run.receive number url reply = .error error) : isOther error = true := by
  cases reply <;> cases h <;> rfl

theorem isOther_of_contents {r : Response} {error : ExchangeError} (h : r.contents = .error error) :
    isOther error = true := by
  have hprotocol := Response.contents_error h
  cases error <;> first | rfl | cases hprotocol

theorem Led.isOther {client : Client} {first current : Request} {route : Route} {r : Response}
    {s t : Session} {error : ExchangeError} (h : Led client first current route r s (.error error) t) :
    isOther error = true := by
  rcases h.error_cases with ⟨_, rfl⟩ | ⟨_, rfl⟩ | ⟨_, rfl⟩ <;> rfl

-- ---------------------------------------------------------------------------
-- The invariant
-- ---------------------------------------------------------------------------

structure Routed (client : Client) (leg : Leg) : Prop where
  proxy : leg.route.proxy = client.proxy.map Endpoint.normalized
  found : (Endpoint.ofUrl? leg.request.url).isSome

def Point.ProxyStates (client : Client) (s : Session) (h : List Event) : Point → Prop
  | .hopping leg =>
    Routed client leg ∧ (Run.negotiation s .target).Settled ∧ BetweenHops client (Run.negotiation s .proxy) h
  | .attempting leg _ =>
    Routed client leg ∧ (Run.negotiation s .target).Ready ∧
      (HopProxyState Negotiation.Ready leg.route (Run.negotiation s .proxy) h ∨
        leg.route.isForwarded = true ∧ ForwardedUnanswered h ∧ (Run.negotiation s .proxy).SuccessPending)
  | .waiting leg _ a =>
    Routed client leg ∧ (Run.negotiation s .target).Settled ∧ a.route = leg.route ∧
      HopProxyState Negotiation.Settled leg.route (Run.negotiation s .proxy) h
  | .judging leg _ r =>
    Routed client leg ∧ (Run.negotiation s .target).Settled ∧
      ∃ rules cookies reply a earlier,
        h = .stored rules cookies :: .received reply r :: .sent a :: earlier ∧ a.route = leg.route ∧
          HopProxyState Negotiation.Settled leg.route (Run.negotiation s .proxy) earlier
  | .answered leg r =>
    Routed client leg ∧ ¬ ForwardedUnanswered h ∧ ((∀ side : Side, r.status ≠ side.status) →
      (Run.negotiation s .target).Settled ∧ BetweenHops client (Run.negotiation s .proxy) h)
  | .ended result =>
    (∃ fault, result = .error (.auth fault)) ↔
      ForwardedUnanswered h ∧ ∀ name, result ≠ .error (.unsupportedPolicy name)

structure ProxyInvariant (client : Client) (c : Config) (m : Moment) : Prop where
  config : m.session.context.config = c
  /-- Who does not authenticate negotiates with nobody. -/
  idle : c.authenticates = false → ∀ side, Run.negotiation m.session side = {}
  here : m.point.ProxyStates client m.session m.history

section
variable {client : Client} {first : Request} {c : Config} {leg : Leg} {s t : Session} {h : List Event}

theorem proxyStates_ended {result : Except ExchangeError Response} (hs : ¬ ForwardedUnanswered h)
    (hr : ∀ fault, result ≠ .error (.auth fault)) : (Point.ended result).ProxyStates client s h :=
  ⟨fun ⟨fault, he⟩ => absurd he (hr fault), fun he => absurd he.1 hs⟩

theorem proxyStates_failed {error : ExchangeError} (hs : ¬ ForwardedUnanswered h)
    (he : isOther error = true) :
    (Point.ended (.error error)).ProxyStates client s h :=
  proxyStates_ended hs fun fault hf => by
    rw [Except.error.inj hf] at he
    cases he

theorem authenticates_of_successPending
    (hidle : s.context.config.authenticates = false → ∀ side, Run.negotiation s side = {}) {side : Side}
    (hn : (Run.negotiation s side).SuccessPending) : s.context.config.authenticates = true := by
  cases ha : s.context.config.authenticates with
  | true => rfl
  | false =>
    obtain ⟨hphase, -⟩ := hn
    rw [hidle ha side] at hphase
    cases hphase

theorem proxyStates_prepared {k : Nat} {a : Attempt}
    (hidle : s.context.config.authenticates = false → ∀ side, Run.negotiation s side = {})
    (hhere : (Point.attempting leg k).ProxyStates client s h)
    (hp : Prepared leg.route leg.request s (.ok a) t) : (Point.waiting leg k a).ProxyStates client t h := by
  obtain ⟨hrouted, htarget, hhop | ⟨hr, -, hpending⟩⟩ := hhere
  · rcases hp.ready htarget hhop.ready hidle with ⟨name, he⟩ | ⟨⟨_, he, ha⟩, hsettled, hproxy, hsame⟩
    · cases he
    · obtain rfl := Except.ok.inj he
      exact ⟨hrouted, hsettled, ha, hhop.answered hproxy hsame⟩
  · rcases hp.successPending (authenticates_of_successPending hidle hpending) hr hpending
      with ⟨name, he⟩ | he
    · cases he
    · cases he

/-- Where both sides are ready an attempt is refused only for its cookies; a proxy with candidates pending
after a success ends the exchange, unless the cookies do. -/
theorem proxyStates_unprepared {k : Nat} {error : ExchangeError}
    (hidle : s.context.config.authenticates = false → ∀ side, Run.negotiation s side = {})
    (hhere : (Point.attempting leg k).ProxyStates client s h)
    (hp : Prepared leg.route leg.request s (.error error) t) :
    (Point.ended (.error error)).ProxyStates client t h := by
  obtain ⟨-, htarget, hhop | ⟨hr, hs, hpending⟩⟩ := hhere
  · rcases hp.ready htarget hhop.ready hidle with ⟨name, he⟩ | ⟨⟨_, he, -⟩, -⟩
    · obtain rfl := Except.error.inj he
      exact proxyStates_failed hhop.not_forwardedUnanswered rfl
    · cases he
  · rcases hp.successPending (authenticates_of_successPending hidle hpending) hr hpending
      with ⟨name, he⟩ | he
    · obtain rfl := Except.error.inj he
      refine ⟨?_, fun hn => absurd rfl (hn.2 name)⟩
      rintro ⟨fault, hf⟩
      cases hf
    · obtain rfl := Except.error.inj he
      refine ⟨fun _ => ⟨hs, ?_⟩, fun _ => ⟨_, rfl⟩⟩
      rintro name hn
      cases hn

theorem proxyStates_settled {k : Nat} {r : Response} {target : Endpoint}
    (hidle : s.context.config.authenticates = false → ∀ side, Run.negotiation s side = {})
    (hhere : (Point.judging leg k r).ProxyStates client s h) {asked : Option Side}
    (hj : Judged target leg.route r s asked t) : (Point.answered leg r).ProxyStates client t h := by
  obtain ⟨hrouted, htarget, rules, cookies, reply, a, earlier, rfl, -, hhop⟩ := hhere
  refine ⟨hrouted, ?_, fun hr => ⟨?_, ?_⟩⟩
  · rw [forwardedUnanswered_round]
    exact hhop.not_forwardedUnanswered
  · rw [hj.negotiation_of_ne (hr .target) fun ha => hidle ha .target]
    exact (htarget.hear (hr .target)).settled
  · rw [hj.negotiation_of_ne (hr .proxy) fun ha => hidle ha .proxy]
    exact hhop.between hrouted.proxy (hr .proxy)

theorem proxyStates_again {k : Nat} {r : Response} {target : Endpoint} {side : Side}
    (hidle : s.context.config.authenticates = false → ∀ side, Run.negotiation s side = {})
    (hhere : (Point.judging leg k r).ProxyStates client s h)
    (hj : Judged target leg.route r s (some side) t) :
    (Point.attempting leg (k + 1)).ProxyStates client t h := by
  obtain ⟨hrouted, htarget, rules, cookies, reply, a, earlier, rfl, ha, hhop⟩ := hhere
  obtain ⟨hr, u, host, -, hagain, hreact⟩ := hj.negotiation_of_asked
  have hheard (other : Side) (ho : r.status ≠ other.status) :
      Run.negotiation t other = ((Run.negotiation s other).hear other r.status).2.1 :=
    hj.negotiation_of_ne ho fun hn => hidle hn other
  refine ⟨hrouted, ?_, .inl (hhop.again (u.env side host) ha hr ?_ ?_)⟩
  · cases side with
    | target =>
      rw [hreact]
      exact htarget.react.1
    | proxy =>
      have hne : r.status ≠ Side.target.status := by
        rw [hr]
        decide
      rw [hheard .target hne]
      exact .inl (htarget.hear hne).settled
  · cases side with
    | target =>
      exact hheard .proxy (by rw [hr]; decide)
    | proxy => exact hreact
  · rintro rfl
    exact hagain

theorem proxyStates_onward {r : Response} {next : Run.Onward}
    (hhere : (Point.answered leg r).ProxyStates client s h)
    (hf : client.follows s.context.config leg.request r = true)
    (hl : Led client first leg.request leg.route r s (.ok next) t) :
    (Point.hopping ⟨leg.followed + 1, next.route, next.request⟩).ProxyStates client t h := by
  obtain ⟨-, -, hbetween⟩ := hhere
  obtain ⟨htarget, hproxy⟩ := hbetween (status_of_follows hf)
  cases hl with
  | @onward url target route hn ht hr =>
    refine ⟨⟨(resolve?_ok hr).2, by simp [ht]⟩, ?_, ?_⟩
    · rw [Session.negotiation_left_target, Session.negotiation_located]
      split
      · exact htarget
      · exact Negotiation.settled_empty
    · rw [Session.negotiation_left_proxy, Session.negotiation_located]
      split
      · exact hproxy
      · exact hproxy.leave

theorem ProxyInvariant.proxyStates_step {m n : Moment} (hm : ProxyInvariant client c m)
    (h : Step client first m n) :
    n.point.ProxyStates client n.session n.history := by
  obtain ⟨point, s, history⟩ := m
  obtain ⟨hconfig, hidle, hhere⟩ := hm
  simp only at hconfig hidle hhere
  rw [← hconfig] at hidle
  cases h with
  | stray ht =>
    have hfound := hhere.1.found
    rw [ht] at hfound
    cases hfound
  | enter ht =>
    obtain ⟨hrouted, htarget, hproxy⟩ := hhere
    refine ⟨hrouted, .inl ?_, ?_⟩
    · simpa using htarget
    · simpa using hproxy.enter hrouted.proxy _
  | unprepared hp => exact proxyStates_unprepared hidle hhere hp
  | prepared hp => exact proxyStates_prepared hidle hhere hp
  | unreceived hr =>
    obtain ⟨-, -, -, hhop⟩ := hhere
    exact proxyStates_failed (mt forwardedUnanswered_sent.mp hhop.not_forwardedUnanswered)
      (isOther_of_receive hr)
  | received hr hu =>
    obtain ⟨hrouted, htarget, ha, hhop⟩ := hhere
    refine ⟨hrouted, ?_, _, _, _, _, _, rfl, ha, ?_⟩
    · simpa [hu] using htarget
    · simpa [hu] using hhop
  | settled ht hj => exact proxyStates_settled hidle hhere hj
  -- The response still asks, so it is none that is followed, and it does not matter how both sides stand.
  | @spent leg k _ t _ r target side ht hj hk =>
    obtain ⟨hrouted, hunanswered, -⟩ := proxyStates_settled hidle hhere hj
    refine ⟨hrouted, hunanswered, fun hr => absurd hj.negotiation_of_asked.1 (hr side)⟩
  | unread ht hj hk hb =>
    obtain ⟨-, hunanswered, -⟩ := proxyStates_settled hidle hhere hj
    refine proxyStates_failed ?_ (isOther_of_contents hb)
    rw [(tells_append fun _ => Response.isOfBody_of_mem_reading).2.2]
    exact hunanswered
  | again ht hj =>
    obtain ⟨hrouted, htarget, hproxy⟩ := proxyStates_again hidle hhere hj
    refine ⟨hrouted, by simpa using htarget, ?_⟩
    rcases hproxy with hhop | ⟨hr, hs, hpending⟩
    · exact .inl (by simpa using hhop.append fun _ => Response.isOfBody_of_mem_reading)
    · refine .inr ⟨hr, ?_, by simpa using hpending⟩
      exact (tells_append fun _ => Response.isOfBody_of_mem_reading).2.2.mpr hs
  | final hf =>
    obtain ⟨-, hunanswered, -⟩ := hhere
    exact proxyStates_ended hunanswered (fun _ he => by cases he)
  | limit hf hm he =>
    obtain ⟨-, hunanswered, -⟩ := hhere
    refine proxyStates_failed ?_ (by rw [he]; rfl)
    rw [(tells_append fun _ => Response.isOfBody_of_mem_releasing).2.2]
    exact hunanswered
  | unfollowable hf hm hl =>
    obtain ⟨-, hunanswered, -⟩ := hhere
    refine proxyStates_failed ?_ hl.isOther
    rw [(tells_append fun _ => Response.isOfBody_of_mem_releasing).2.2]
    exact hunanswered
  | stuck hf hm hl hb =>
    obtain ⟨-, hunanswered, -⟩ := hhere
    refine proxyStates_failed ?_ (isOther_of_contents hb)
    rw [(tells_append fun _ => Response.isOfBody_of_mem_reading).2.2]
    exact hunanswered
  | onward hf hm hl =>
    obtain ⟨hrouted, htarget, hproxy⟩ := proxyStates_onward hhere hf hl
    exact ⟨hrouted, by simpa using htarget,
      by simpa using hproxy.append fun _ => Response.isOfBody_of_mem_reading⟩

theorem ProxyInvariant.idle_step {m n : Moment} (hm : ProxyInvariant client c m) (h : Step client first m n)
    (ha : c.authenticates = false) (side : Side) : Run.negotiation n.session side = {} := by
  obtain ⟨point, s, history⟩ := m
  obtain ⟨hconfig, hidle, -⟩ := hm
  simp only at hconfig
  have hs : ∀ side, Run.negotiation s side = {} := hidle ha
  have hn : s.context.config.authenticates = false := by rw [hconfig]; exact ha
  have hled {current : Request} {route : Route} {r : Response} {t : Session}
      {result : Except ExchangeError Run.Onward} (hl : Led client first current route r s result t) :
      Run.negotiation t side = {} := by
    have hleft (url : Url) (target : Endpoint) :
        Run.negotiation ((s.located url).left route target) side = {} := by
      cases side with
      | target => simp [Session.negotiation_left_target, hs]
      | proxy => simp [Session.negotiation_left_proxy, hs]
    cases hl with
    | unlocated => exact hs side
    | hostless => simpa using hs side
    | nameless => exact hleft _ _
    | onward => exact hleft _ _
  cases h with
  | stray => simpa using hs side
  | enter => simpa using hs side
  | unprepared hp => exact (hp.negotiation_of_disabled hn side).trans (hs side)
  | prepared hp => exact (hp.negotiation_of_disabled hn side).trans (hs side)
  | unreceived => simpa using hs side
  | received _ hu => simpa [hu] using hs side
  | settled _ hj =>
    obtain ⟨-, rfl⟩ := hj.of_disabled hn
    exact hs side
  | spent _ hj => cases (hj.of_disabled hn).1
  | unread _ hj => cases (hj.of_disabled hn).1
  | again _ hj => cases (hj.of_disabled hn).1
  | final => exact hs side
  | limit => simpa using hs side
  | unfollowable _ _ hl => simpa using hled hl
  | stuck _ _ hl => simpa using hled hl
  | onward _ _ hl => simpa using hled hl

theorem ProxyInvariant.step {m n : Moment} (h : Step client first m n) (hm : ProxyInvariant client c m) :
    ProxyInvariant client c n :=
  ⟨(Session.config_of_fixed h.fixed).trans hm.config, hm.idle_step h, hm.proxyStates_step h⟩

theorem not_leftUnanswered_nil : ¬ LeftUnanswered [] := nofun

theorem not_forwardedUnanswered_nil : ¬ ForwardedUnanswered [] := nofun

theorem ProxyInvariant.start {route : Route} (hfresh : s.IsFresh)
    (hr : (Endpoint.ofUrl? first.url).bind (Route.resolve? client.proxy) = some route) :
    ProxyInvariant client s.context.config (start s route first) := by
  obtain ⟨target, ht, hr⟩ := Option.bind_eq_some_iff.mp hr
  have hn := hfresh.negotiation_start route first
  refine ⟨rfl, fun _ => hn, ⟨(resolve?_ok hr).2, by simp [ht]⟩, ?_, ?_⟩
  · rw [hn]
    exact Negotiation.settled_empty
  · rw [hn]
    exact .quiescent not_leftUnanswered_nil not_forwardedUnanswered_nil Negotiation.quiescent_empty

end

/-- An exchange that begins with nothing held ends with a fault of authentication exactly if a proxy was
left unanswered in a tunnel and is to forward a later hop, whose attempt is not refused for its cookies
before. -/
theorem exchange_auth_iff (client : Client) (request : Request) (s : Session) (hs : s.IsFresh) :
    (∃ fault, ((Run.exchange client request) s).1 = .error (.auth fault)) ↔
      ForwardedUnanswered (history (Run.exchange client request) s) ∧
        ∀ name, ((Run.exchange client request) s).1 ≠ .error (.unsupportedPolicy name) := by
  refine exchange_keeps (I := ProxyInvariant client s.context.config)
    (P := fun outcome h => (∃ fault, outcome.1 = .error (.auth fault)) ↔
      ForwardedUnanswered h ∧ ∀ name, outcome.1 ≠ .error (.unsupportedPolicy name))
    ?_ (fun _ hr => .start hs hr) (fun h hm => hm.step h) fun hm => hm.here
  intro violation hn
  refine ⟨?_, fun hs => absurd hs.1 not_forwardedUnanswered_nil⟩
  rintro ⟨fault, hf⟩
  cases hf

/-- A proxy that asks for a user and a password in a tunnel, and a target behind it that redirects to a host
which the proxy forwards to. -/
def leavingTunnel : Client :=
  { Client.replying
      [.response 407 [(HeaderName.proxyAuthenticate, Utf8.encode "Basic realm=\"r\"")] none,
        .response 302 [(HeaderName.location, Utf8.encode "http://b.example/")] none,
        .response 200 [] none] with
    proxy := some ⟨"http", "proxy", some 3128⟩ }

def isAuthFault : Except ExchangeError Response → Bool
  | .error error => !isOther error
  | .ok _ => false

theorem isAuthFault_leavingTunnel :
    isAuthFault ((Run.exchange leavingTunnel (.to "https" "a.example")) passwordSession).1 = true := by
  decide +kernel

/-- The exchange ends when it leaves the tunnel, as its history says. -/
theorem exchange_auth_leavingTunnel :
    passwordSession.IsFresh ∧
      ((∃ fault, ((Run.exchange leavingTunnel (.to "https" "a.example")) passwordSession).1 =
          .error (.auth fault)) ↔
        ForwardedUnanswered (history (Run.exchange leavingTunnel (.to "https" "a.example")) passwordSession) ∧
          ∀ name, ((Run.exchange leavingTunnel (.to "https" "a.example")) passwordSession).1 ≠
            .error (.unsupportedPolicy name)) ∧
      isAuthFault ((Run.exchange leavingTunnel (.to "https" "a.example")) passwordSession).1 = true :=
  ⟨Session.isFresh_opened _ _, exchange_auth_iff _ _ _ (Session.isFresh_opened _ _),
    isAuthFault_leavingTunnel⟩

/-- Authentication is not without faults that end an exchange. -/
theorem auth_faults_surface :
    ¬ ∀ (client : Client) (request : Request) (s : Session), s.IsFresh →
      ∀ fault, ((Run.exchange client request) s).1 ≠ .error (.auth fault) := by
  intro hnever
  have hends := isAuthFault_leavingTunnel
  cases hr : ((Run.exchange leavingTunnel (.to "https" "a.example")) passwordSession).1 with
  | ok response =>
    rw [hr] at hends
    cases hends
  | error error =>
    rw [hr] at hends
    cases error with
    | auth fault => exact hnever _ _ _ (Session.isFresh_opened _ _) fault hr
    | _ => cases hends

end Exchange

end HttpSession
