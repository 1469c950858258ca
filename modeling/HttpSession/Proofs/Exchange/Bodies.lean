import HttpSession.Proofs.Exchange.Histories

/-!
# Bodies are read before the next attempt

A connection carries the next request only once the last body on it was read. An exchange parts with a
response in one of three ways: it hands the response over as it came; it goes on, and reads the body to
its end first; or a redirect fails, and the body is read all the same, whatever comes of that. Where
reading fails the exchange ends.

Main statement: whenever an attempt is sent, everything received before was read to its end without an
error, and no body is lost (`exchange_drains`).
-/

namespace HttpSession

open Auth (Side)

namespace Exchange

-- ---------------------------------------------------------------------------
-- Bodies
-- ---------------------------------------------------------------------------

/-- Whether the body of a reply was read to its end without an error, among what happened later. -/
def DrainedIn (later : List Event) (n : Nat) (r : Response) : Prop :=
  ∀ body, r.body = some body →
    body.reply = n ∧ (∃ bytes, body.content = .ok bytes) ∧ .bodyRead n ∈ later

def Drained (h : List Event) : Prop :=
  ∀ later n r earlier, h = later ++ .received n r :: earlier → DrainedIn later n r

/-- Whether a response is what was received last and nothing has become of its body, while everything
received before was read. -/
def Untouched (r : Response) (h : List Event) : Prop :=
  ∃ rules cookies n earlier, h = .stored rules cookies :: .received n r :: earlier ∧
    (∀ body, r.body = some body → body.reply = n) ∧ Drained earlier

section
variable {h events earlier : List Event} {event : Event} {n : Nat} {r : Response}

theorem drained_nil : Drained [] := by
  intro later n r earlier he
  simp at he

theorem DrainedIn.append (hd : DrainedIn h n r) (events : List Event) : DrainedIn (events ++ h) n r := by
  intro body hb
  obtain ⟨hreply, hcontent, hread⟩ := hd body hb
  exact ⟨hreply, hcontent, List.mem_append_right _ hread⟩

theorem Drained.cons (hd : Drained h) (he : ∀ n r, event ≠ .received n r) : Drained (event :: h) := by
  intro later n r earlier heq
  cases later with
  | nil => exact absurd (List.cons.inj heq).1 (he n r)
  | cons other later =>
    obtain ⟨-, rfl⟩ := List.cons.inj heq
    exact (hd later n r earlier rfl).append [other]

theorem Drained.append (hd : Drained h) (he : ∀ event ∈ events, event.isOfBody = true) :
    Drained (events ++ h) := by
  induction events with
  | nil => exact hd
  | cons event rest ih =>
    refine (ih fun other ho => he other (List.mem_cons_of_mem _ ho)).cons ?_
    rintro n r rfl
    cases he _ List.mem_cons_self

/-- A response that was read joins what was read before. -/
theorem Drained.read (hd : Drained earlier) (hr : DrainedIn events n r)
    (he : ∀ n r, .received n r ∉ events) : Drained (events ++ .received n r :: earlier) := by
  intro later n' r' earlier' heq
  rcases List.append_eq_append_iff.mp heq with ⟨between, rfl, hrest⟩ | ⟨between, rfl, hrest⟩
  · cases between with
    | nil =>
      obtain ⟨⟨rfl, rfl⟩, -⟩ := List.cons.inj hrest
      simpa using hr
    | cons other between =>
      obtain ⟨-, rfl⟩ := List.cons.inj hrest
      simpa using (hd between n' r' earlier' rfl).append (events ++ [other])
  · cases between with
    | nil =>
      obtain ⟨⟨rfl, rfl⟩, -⟩ := List.cons.inj hrest
      simpa using hr
    | cons other between =>
      obtain ⟨rfl, -⟩ := List.cons.inj hrest
      exact absurd (by simp) (he n' r')

theorem Untouched.drained (hu : Untouched r h) {bytes : Bytes} (hb : r.contents = .ok bytes) :
    Drained (r.reading ++ h) := by
  obtain ⟨rules, cookies, n, earlier, rfl, hreply, hd⟩ := hu
  have hread : DrainedIn (r.reading ++ [.stored rules cookies]) n r := by
    intro body hbody
    obtain rfl := hreply body hbody
    simp only [Response.contents, hbody] at hb
    refine ⟨rfl, ?_, by simp [Response.reading, hbody]⟩
    cases hc : body.content with
    | ok bytes => exact ⟨bytes, rfl⟩
    | error reason =>
      rw [hc] at hb
      cases hb
  have hnone : ∀ n' r', .received n' r' ∉ r.reading ++ [.stored rules cookies] := by
    intro n' r' hm
    rcases List.mem_append.mp hm with hm | hm
    · cases Response.isOfBody_of_mem_reading hm
    · cases List.mem_singleton.mp hm
  simpa using hd.read hread hnone

end

-- ---------------------------------------------------------------------------
-- How an exchange parts with a response
-- ---------------------------------------------------------------------------

inductive Continues (client : Client) (first : Request) : Moment → Response → Prop
  | again {leg : Leg} {k : Nat} {s t : Session} {h : List Event} {r : Response} {target : Endpoint}
      {side : Side} (ht : Endpoint.ofUrl? leg.request.url = some target)
      (hj : Judged target.normalized leg.route r s (some side) t)
      (hk : k + 1 < t.context.config.maxRounds) :
      Continues client first ⟨.judging leg k r, s, h⟩ r
  | onward {leg : Leg} {s t : Session} {h : List Event} {r : Response} {next : Run.Onward}
      (hf : client.follows s.context.config leg.request r = true)
      (hm : leg.followed < s.context.config.maxRedirects)
      (hl : Led client first leg.request leg.route r s (.ok next) t) :
      Continues client first ⟨.answered leg r, s, h⟩ r

/-- Whether a response is a redirect that cannot be followed: there were too many, or it leads nowhere. -/
inductive Unfollowable (client : Client) (first : Request) :
    Moment → Response → ExchangeError → Prop
  | limit {leg : Leg} {s : Session} {h : List Event} {r : Response}
      (hf : client.follows s.context.config leg.request r = true)
      (hm : s.context.config.maxRedirects ≤ leg.followed) :
      Unfollowable client first ⟨.answered leg r, s, h⟩ r (.redirectLimit s.context.config.maxRedirects)
  | unfollowable {leg : Leg} {s t : Session} {h : List Event} {r : Response} {error : ExchangeError}
      (hf : client.follows s.context.config leg.request r = true)
      (hm : leg.followed < s.context.config.maxRedirects)
      (hl : Led client first leg.request leg.route r s (.error error) t) :
      Unfollowable client first ⟨.answered leg r, s, h⟩ r error

section
variable {client : Client} {first : Request} {m : Moment} {r : Response} {error : ExchangeError}

theorem Led.isProtocol {current : Request} {route : Route} {s t : Session}
    (h : Led client first current route r s (.error error) t) : error.isProtocol = true := by
  rcases h.error_cases with ⟨_, rfl⟩ | ⟨_, rfl⟩ | ⟨_, rfl⟩ <;> rfl

theorem Unfollowable.isProtocol (h : Unfollowable client first m r error) : error.isProtocol = true := by
  cases h with
  | limit => rfl
  | unfollowable _ _ hl => exact hl.isProtocol

theorem releasing_of_isProtocol (h : error.isProtocol = true) : r.releasing error = r.reading :=
  if_pos h

/-- Where an exchange goes on behind a response that cannot be read, reading it is its last step. -/
theorem Continues.step (h : Continues client first m r) (hb : r.contents = .error error) :
    ∃ t, Step client first m ⟨.ended (.error error), t, r.reading ++ m.history⟩ := by
  cases h with
  | again ht hj hk => exact ⟨_, .unread ht hj hk hb⟩
  | onward hf hm hl => exact ⟨_, .stuck hf hm hl hb⟩

/-- Where a redirect cannot be followed, reading it is the last step, whether or not it can be read. -/
theorem Unfollowable.step (h : Unfollowable client first m r error) :
    ∃ t, Step client first m ⟨.ended (.error error), t, r.reading ++ m.history⟩ := by
  rw [← releasing_of_isProtocol h.isProtocol]
  cases h with
  | limit hf hm => exact ⟨_, .limit hf hm rfl⟩
  | unfollowable hf hm hl => exact ⟨_, .unfollowable hf hm hl⟩

end

-- ---------------------------------------------------------------------------
-- The invariant
-- ---------------------------------------------------------------------------

def Point.Drains (h : List Event) : Point → Prop
  | .hopping _ | .attempting _ _ | .waiting _ _ _ => Drained h
  | .judging _ _ r | .answered _ r => Untouched r h
  | .ended result => ∀ r, result = .ok r → Untouched r h

structure DrainInvariant (m : Moment) : Prop where
  sends : Sends (fun earlier _ => Drained earlier) m.history
  kept : ∀ n, .bodyDropped n ∉ m.history
  here : m.point.Drains m.history

section
variable {client : Client} {first : Request} {m n : Moment} {h : List Event}

theorem reply_of_receive {number : Nat} {url : Url} {reply : Reply} {r : Response}
    (hr : Run.receive number url reply = .ok r) : ∀ body, r.body = some body → body.reply = number := by
  obtain ⟨_, _, content, -, rfl⟩ := Run.receive_ok hr
  intro body hb
  obtain ⟨_, -, rfl⟩ := Option.map_eq_some_iff.mp hb
  rfl

theorem kept_reading {r : Response} (hk : ∀ n, .bodyDropped n ∉ h) :
    ∀ n, .bodyDropped n ∉ r.reading ++ h := by
  intro n hm
  rcases List.mem_append.mp hm with hm | hm
  · obtain ⟨_, -, he⟩ := List.mem_map.mp hm
    cases he
  · exact hk n hm

theorem DrainInvariant.sends_step (h : Step client first m n) (hm : DrainInvariant m) :
    Sends (fun earlier _ => Drained earlier) n.history := by
  refine h.sends hm.sends fun leg k a hp => ?_
  have hhere := hm.here
  rw [hp] at hhere
  exact hhere

theorem DrainInvariant.kept_step (h : Step client first m n) (hm : DrainInvariant m) :
    ∀ number, .bodyDropped number ∉ n.history := by
  have hkept := hm.kept
  cases h with
  | limit hf hmax he =>
    rw [releasing_of_isProtocol (by rw [he]; rfl)]
    exact kept_reading hkept
  | unfollowable hf hmax hl =>
    rw [releasing_of_isProtocol hl.isProtocol]
    exact kept_reading hkept
  | unread => exact kept_reading hkept
  | again => exact kept_reading hkept
  | stuck => exact kept_reading hkept
  | onward => exact kept_reading hkept
  | _ => simpa using hkept

theorem DrainInvariant.drains_step (h : Step client first m n) (hm : DrainInvariant m) :
    n.point.Drains n.history := by
  obtain ⟨point, s, history⟩ := m
  obtain ⟨-, -, hhere⟩ := hm
  cases h with
  | stray => exact nofun
  | enter => exact Drained.cons hhere nofun
  | unprepared => exact nofun
  | prepared => exact hhere
  | unreceived => exact nofun
  | received hr => exact ⟨_, _, _, _, rfl, reply_of_receive hr, Drained.cons hhere nofun⟩
  | settled => exact hhere
  | spent => exact hhere
  | unread => exact nofun
  | again _ _ _ hb => exact Untouched.drained hhere hb
  | final =>
    rintro _ ⟨rfl⟩
    exact hhere
  | limit => exact nofun
  | unfollowable => exact nofun
  | stuck => exact nofun
  | onward _ _ _ hb => exact Untouched.drained hhere hb

theorem DrainInvariant.step (h : Step client first m n) (hm : DrainInvariant m) : DrainInvariant n :=
  ⟨hm.sends_step h, hm.kept_step h, hm.drains_step h⟩

theorem DrainInvariant.start (s : Session) (route : Route) (request : Request) :
    DrainInvariant (start s route request) :=
  ⟨sends_nil, nofun, drained_nil⟩

end

-- ---------------------------------------------------------------------------
-- Exchanges
-- ---------------------------------------------------------------------------

structure Drains (client : Client) (request : Request) (s : Session) : Prop where
  /-- Whenever an attempt is sent, everything received before was read. -/
  sends : Sends (fun earlier _ => Drained earlier) (history (Run.exchange client request) s)
  /-- The response that is handed over is what was received last, as it came. -/
  handed : ∀ r, ((Run.exchange client request) s).1 = .ok r →
    Untouched r (history (Run.exchange client request) s)
  /-- No body is lost. -/
  kept : ∀ n, .bodyDropped n ∉ history (Run.exchange client request) s
  /-- Where the exchange goes on behind a response that cannot be read, it ends with the error of reading,
  and nothing happens any more. -/
  unread : ∀ route, (Endpoint.ofUrl? request.url).bind (Route.resolve? client.proxy) = some route →
    ∀ m r error, Steps client request (start s route request) m → Continues client request m r →
      r.contents = .error error →
      Untouched r m.history ∧ ((Run.exchange client request) s).1 = .error error ∧
        history (Run.exchange client request) s = r.reading ++ m.history
  /-- Where a redirect cannot be followed, the response is read whatever comes of that, and the exchange
  ends with the error of the redirect. -/
  unfollowable : ∀ route, (Endpoint.ofUrl? request.url).bind (Route.resolve? client.proxy) = some route →
    ∀ m r error, Steps client request (start s route request) m → Unfollowable client request m r error →
      error.isProtocol = true ∧ Untouched r m.history ∧
        ((Run.exchange client request) s).1 = .error error ∧
        history (Run.exchange client request) s = r.reading ++ m.history

section
variable {client : Client} {request : Request} {s : Session} {route : Route} {m : Moment} {r : Response}

/-- Whatever an exchange ends with after some moment is what it ends with. -/
theorem exchange_ends (hr : (Endpoint.ofUrl? request.url).bind (Route.resolve? client.proxy) = some route)
    (hm : Steps client request (start s route request) m)
    {result : Except ExchangeError Response} {t : Session} {h : List Event}
    (hs : Step client request m ⟨.ended result, t, h⟩) :
    ((Run.exchange client request) s).1 = result ∧ history (Run.exchange client request) s = h := by
  obtain ⟨_, -, hn⟩ | ⟨route', h', hr', hsteps⟩ := exchange_steps client request s
  · rw [hr] at hn
    cases hn
  · rw [hr] at hr'
    obtain rfl := Option.some.inj hr'
    obtain ⟨hresult, -, rfl⟩ := hsteps.ends hm hs
    exact ⟨hresult, history_eq hsteps.log⟩

theorem untouched_of_steps (hm : Steps client request (start s route request) m)
    (hp : (∃ leg k, m.point = .judging leg k r) ∨ ∃ leg, m.point = .answered leg r) :
    Untouched r m.history := by
  have hhere := (hm.keeps DrainInvariant.step (DrainInvariant.start s route request)).here
  rcases hp with ⟨leg, k, hp⟩ | ⟨leg, hp⟩
  · rw [hp] at hhere
    exact hhere
  · rw [hp] at hhere
    exact hhere

end

/-- Whenever an exchange sends an attempt, everything received before was read to its end without an
error; what it hands over it has not touched, and no body is lost. Where reading a response fails behind
which it goes on, that error is its end; where a redirect cannot be followed, the response is read for all
that, and the error of the redirect is its end. -/
theorem exchange_drains (client : Client) (request : Request) (s : Session) :
    Drains client request s := by
  have hends : Sends (fun earlier _ => Drained earlier) (history (Run.exchange client request) s) ∧
      (∀ n, .bodyDropped n ∉ history (Run.exchange client request) s) ∧
      ∀ r, ((Run.exchange client request) s).1 = .ok r →
        Untouched r (history (Run.exchange client request) s) :=
    exchange_keeps (I := DrainInvariant)
      (P := fun outcome h => Sends (fun earlier _ => Drained earlier) h ∧ (∀ n, .bodyDropped n ∉ h) ∧
        ∀ r, outcome.1 = .ok r → Untouched r h)
      (fun _ _ => ⟨sends_nil, nofun, nofun⟩) (fun route _ => DrainInvariant.start s route request)
      (fun h hm => hm.step h) fun hm => ⟨hm.sends, hm.kept, hm.here⟩
  obtain ⟨hsends, hkept, hhanded⟩ := hends
  refine ⟨hsends, hhanded, hkept, ?_, ?_⟩
  · intro route hr m r error hm hcontinues hb
    obtain ⟨t, hs⟩ := hcontinues.step hb
    refine ⟨untouched_of_steps hm ?_, exchange_ends hr hm hs⟩
    cases hcontinues with
    | again => exact .inl ⟨_, _, rfl⟩
    | onward => exact .inr ⟨_, rfl⟩
  · intro route hr m r error hm hunfollowable
    obtain ⟨t, hs⟩ := hunfollowable.step
    refine ⟨hunfollowable.isProtocol, untouched_of_steps hm ?_, exchange_ends hr hm hs⟩
    cases hunfollowable with
    | limit => exact .inr ⟨_, rfl⟩
    | unfollowable => exact .inr ⟨_, rfl⟩

end Exchange

end HttpSession
