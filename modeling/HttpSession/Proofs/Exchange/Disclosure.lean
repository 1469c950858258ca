import HttpSession.Proofs.Exchange.Attempts

/-!
# Which headers go where

A request that follows a redirect carries the headers of the first one as they were given, secrets among
them, to whatever endpoint the redirect names. An answer of the negotiation with a side replaces what they
say to that side, and cookies of the jar are added behind theirs. Only the switch for redirects keeps a
secret at its endpoint.

Main statements: what each attempt carries of the headers of the first request, and which URLs an exchange
can be led to (`exchange_discloses`); secrets of the first request do reach other endpoints
(`exchange_discloses_secrets`).
-/

namespace HttpSession

open Auth (Side)

/-- Whether a URL is where a redirect led that was received and is followed. -/
def LedTo (client : Client) (c : Config) (url : Url) (h : List Event) : Prop :=
  ∃ later reply r a earlier, h = later ++ .received reply r :: .sent a :: earlier ∧
    client.follows c a.request r = true ∧
    Redirect.locationOf c a.request r.status r.headers = .ok url

/-- Whether an attempt carries the headers of the first request, but for answers and cookies, to where
the exchange was led. -/
structure Attempt.Discloses (a : Attempt) (client : Client) (c : Config) (first : Request)
    (earlier : List Event) : Prop where
  cookie : ∃ policy : Option Cookie.Policy, a.request.headers.values HeaderName.cookie =
    first.headers.values HeaderName.cookie ++ (policy.bind (·.format a.cookies)).toList
  answer : ∀ side : Side, a.request.headers.values side.answerHeader =
    match a.answerFor side with
    | some answer => [answer.value]
    | none => first.headers.values side.answerHeader
  led : a.request.url = first.url ∨ LedTo client c a.request.url earlier
  home : c.followsRedirects = false → a.request.url = first.url

theorem LedTo.append {client : Client} {c : Config} {url : Url} {h : List Event}
    (hl : LedTo client c url h) (events : List Event) : LedTo client c url (events ++ h) := by
  obtain ⟨later, reply, r, a, earlier, rfl, hf, hu⟩ := hl
  exact ⟨events ++ later, reply, r, a, earlier, by simp, hf, hu⟩

theorem LedTo.follows {client : Client} {c : Config} {url : Url} {h : List Event}
    (hl : LedTo client c url h) : c.followsRedirects = true := by
  obtain ⟨_, _, _, _, _, -, hf, -⟩ := hl
  simp only [Client.follows, Bool.and_eq_true] at hf
  exact hf.1

namespace Redirect

theorem locationOf_of_nextLocation {c : Config} {visited : List Url} {request : Request}
    {status : Nat} {h : Headers} {url : Url} (hn : nextLocation c visited request status h = .ok url) :
    locationOf c request status h = .ok url := by
  unfold nextLocation at hn
  cases hl : locationOf c request status h with
  | error error =>
    rw [hl] at hn
    cases hn
  | ok located =>
    simp only [hl, bind, Except.bind] at hn
    split at hn
    · cases hn
    · exact hn

end Redirect

namespace Exchange

def Replied (leg : Leg) (r : Response) (h : List Event) : Prop :=
  ∃ later reply a earlier, h = later ++ .received reply r :: .sent a :: earlier ∧
    a.request.url = leg.request.url ∧ a.request.method = leg.request.method

structure Carried (client : Client) (first : Request) (c : Config) (leg : Leg) (h : List Event) :
    Prop where
  headers : leg.request.headers = first.headers
  led : leg.request.url = first.url ∨ LedTo client c leg.request.url h

def Point.Discloses (client : Client) (first : Request) (c : Config) (h : List Event) : Point → Prop
  | .hopping leg | .attempting leg _ => Carried client first c leg h
  | .waiting leg _ a => Carried client first c leg h ∧ a.Carries leg.route leg.request
  | .judging leg _ r | .answered leg r => Carried client first c leg h ∧ Replied leg r h
  | .ended _ => True

structure DisclosureInvariant (client : Client) (first : Request) (c : Config) (m : Moment) : Prop where
  config : m.session.context.config = c
  sends : Sends (fun earlier a => a.Discloses client c first earlier) m.history
  here : m.point.Discloses client first c m.history

variable {client : Client} {first : Request} {c : Config} {leg : Leg} {h : List Event}

theorem Carried.append (hc : Carried client first c leg h) (events : List Event) :
    Carried client first c leg (events ++ h) :=
  ⟨hc.headers, hc.led.imp_right (·.append events)⟩

theorem Carried.discloses (hc : Carried client first c leg h) {a : Attempt}
    (ha : a.Carries leg.route leg.request) : a.Discloses client c first h := by
  have hled : a.request.url = first.url ∨ LedTo client c a.request.url h := by
    rw [ha.url]
    exact hc.led
  refine ⟨?_, ?_, hled, ?_⟩
  · rw [← hc.headers]
    exact ha.values_cookie
  · rw [← hc.headers]
    exact ha.values_answer
  · intro hf
    refine hled.resolve_right fun hl => ?_
    have hfollows := hl.follows
    rw [hf] at hfollows
    cases hfollows

theorem Replied.append {r : Response} (hr : Replied leg r h) (events : List Event) :
    Replied leg r (events ++ h) := by
  obtain ⟨later, reply, a, earlier, rfl, hu, hm⟩ := hr
  exact ⟨events ++ later, reply, a, earlier, by simp, hu, hm⟩

theorem Replied.ledTo {r : Response} (hr : Replied leg r h) {visited : List Url} {url : Url}
    (hf : client.follows c leg.request r = true)
    (hl : Redirect.nextLocation c visited leg.request r.status r.headers = .ok url) :
    LedTo client c url h := by
  obtain ⟨later, reply, a, earlier, rfl, hu, hm⟩ := hr
  refine ⟨later, reply, r, a, earlier, rfl, ?_, ?_⟩
  · simp only [Client.follows, Redirect.isRedirected, hm] at hf ⊢
    exact hf
  · have hlocation := Redirect.locationOf_of_nextLocation hl
    simp only [Redirect.locationOf, hu] at hlocation ⊢
    exact hlocation

theorem Replied.onward {r : Response} (hr : Replied leg r h) {s t : Session} {next : Run.Onward}
    {n : Nat} (hs : s.context.config = c) (hf : client.follows c leg.request r = true)
    (hl : Led client first leg.request leg.route r s (.ok next) t) :
    Carried client first c ⟨n, next.route, next.request⟩ h := by
  cases hl with
  | onward hnext =>
    rw [hs] at hnext
    refine ⟨rfl, .inr ?_⟩
    simp only [url_requestTo]
    exact hr.ledTo hf hnext

theorem DisclosureInvariant.sends_step {m n : Moment} (hm : DisclosureInvariant client first c m)
    (h : Step client first m n) :
    Sends (fun earlier a => a.Discloses client c first earlier) n.history := by
  refine h.sends hm.sends fun leg k a hp => ?_
  have hhere := hm.here
  rw [hp] at hhere
  exact hhere.1.discloses hhere.2

theorem DisclosureInvariant.discloses_step {m n : Moment} (hm : DisclosureInvariant client first c m)
    (h : Step client first m n) : n.point.Discloses client first c n.history := by
  have hconfig := hm.config
  have hhere := hm.here
  cases h with
  | stray => trivial
  | enter => exact hhere.append [_]
  | unprepared => trivial
  | prepared hp => exact ⟨hhere, hp.carries⟩
  | unreceived => trivial
  | @received leg k _ u _ a r =>
    obtain ⟨hc, ha⟩ := hhere
    exact ⟨hc.append [_, _, _], [_], _, a, _, rfl, ha.url, ha.method⟩
  | settled => exact hhere
  | spent => exact hhere
  | unread => trivial
  | again => exact hhere.1.append _
  | final => trivial
  | limit => trivial
  | unfollowable => trivial
  | stuck => trivial
  | onward hf _ hl => exact (hhere.2.onward hconfig (hconfig ▸ hf) hl).append _

theorem DisclosureInvariant.step {m n : Moment} (h : Step client first m n)
    (hm : DisclosureInvariant client first c m) : DisclosureInvariant client first c n :=
  ⟨(Session.config_of_fixed h.fixed).trans hm.config, hm.sends_step h, hm.discloses_step h⟩

/-- Every attempt of an exchange carries the cookies of the first request and behind them those of the
jar; to each side it says what the first request said, or the answer of its own negotiation alone. It
goes where the first request went, or where a redirect led that was received before. -/
theorem exchange_discloses (client : Client) (request : Request) (s : Session) :
    Sends (fun earlier a => a.Discloses client s.context.config request earlier)
      (history (Run.exchange client request) s) :=
  exchange_keeps (I := DisclosureInvariant client request s.context.config)
    (P := fun _ h => Sends (fun earlier a => a.Discloses client s.context.config request earlier) h)
    (fun _ _ => sends_nil) (fun _ _ => ⟨rfl, sends_nil, rfl, .inl rfl⟩) (fun h hm => hm.step h)
    fun hm => hm.sends

def secretHeaders : List Text :=
  [HeaderName.authorization, HeaderName.proxyAuthorization, HeaderName.cookie]

def secretRequest : Request :=
  { Request.to "http" "a.example" with
    headers := [(HeaderName.authorization, Utf8.encode "Bearer secret"),
      (HeaderName.cookie, Utf8.encode "sid=secret")] }

def redirectingAway : Client :=
  .replying [.response 302 [(HeaderName.location, Utf8.encode "http://b.example/")] none,
    .response 200 [] none]

def carriesAway (request : Request) (name : Text) : Event → Bool
  | .sent a => a.request.url.endpoint? ≠ request.url.endpoint? &&
      (request.headers.values name).any fun value => (a.request.headers.values name).contains value
  | _ => false

theorem carriesAway_moving :
    ((Run.exchange redirectingAway secretRequest) (.opened {} [])).2.log.any
      (carriesAway secretRequest HeaderName.authorization) = true := by
  decide +kernel

/-- Secrets of a request do not stay with its endpoint: sent elsewhere by a redirect, the exchange says
them there. -/
theorem exchange_discloses_secrets :
    ¬ ∀ (client : Client) (request : Request) (s : Session), s.IsFresh →
      Sends (fun _ a => a.request.url.endpoint? ≠ request.url.endpoint? →
          ∀ name ∈ secretHeaders, ∀ value ∈ request.headers.values name,
            value ∉ a.request.headers.values name)
        (history (Run.exchange client request) s) := by
  intro hkept
  have hsends := hkept redirectingAway secretRequest (.opened {} []) (Session.isFresh_opened _ _)
  obtain ⟨event, hmem, haway⟩ := List.any_eq_true.mp carriesAway_moving
  rw [log_exchange, List.mem_append, List.mem_reverse] at hmem
  have hhistory := hmem.resolve_left List.not_mem_nil
  cases event with
  | sent a =>
    simp only [carriesAway, Bool.and_eq_true, decide_eq_true_eq, List.any_eq_true,
      List.contains_iff_mem] at haway
    obtain ⟨helse, value, hvalue, hcarried⟩ := haway
    exact hsends.of_mem hhistory helse _ (by simp [secretHeaders]) value hvalue hcarried
  | _ => cases haway

end Exchange

end HttpSession
