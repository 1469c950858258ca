import HttpSession.Proofs.Exchange.Disclosure
import HttpSession.Proofs.ExceptLaws

/-!
# The trail of an exchange

The locations that redirects name are kept in the context, so that the caller can be told where the
response came from. A location is noted before it is known whether the exchange can go there; the list
stays in step with the hops because the exchange then goes on there or ends.

Main statement: the hops of an exchange go to the URL of its request and then to the locations, one by
one, and the last of them is where the response came from; an exchange that fails may have noted one
location more (`follow_trails`).
-/

namespace HttpSession

/-- What an exchange does once its route is known: it follows redirects, with no location noted before. -/
def Run.follow (client : Client) (route : Route) (request : Request) : Run Response := do
  changeContext fun c => { c with locations := [] }
  hops client request (← get).context.config.maxRedirects route request

namespace Event

def hopUrl? : Event → Option Url
  | .hop _ url => some url
  | _ => none

/-- Whether an event happens to a response that was received: its cookies are kept, its body is read or
lost. -/
def isAftermath : Event → Bool
  | .stored _ _ => true
  | event => event.isOfBody

end Event

namespace Exchange

def trail (h : List Event) : List Url := (h.filterMap Event.hopUrl?).reverse

def CameFrom (url : Url) (r : Response) (h : List Event) : Prop :=
  ∃ later reply a earlier, h = later ++ .received reply r :: .sent a :: earlier ∧
    a.request.url = url ∧ ∀ event ∈ later, event.isAftermath = true

structure Noted (c : Config) (locations : List Url) : Prop where
  bare : ∀ url ∈ locations, url.fragment = none
  bound : locations.length ≤ c.maxRedirects
  off : c.followsRedirects = false → locations = []
  distinct : c.circularRedirects = false → locations.Nodup

/-- Whether the hops of an exchange that ended are those that its locations tell of. -/
structure Trail (first : Request) (locations : List Url) (h : List Event)
    (result : Except ExchangeError Response) : Prop where
  answered : ∀ r, result = .ok r →
    trail h = first.url :: locations ∧ CameFrom (locations.getLastD first.url) r h
  failed : ∀ error, result = .error error →
    trail h = first.url :: locations ∨
      ∃ visited unvisited, locations = visited ++ [unvisited] ∧ trail h = first.url :: visited

-- ---------------------------------------------------------------------------
-- Hops of a history
-- ---------------------------------------------------------------------------

section
variable {events h : List Event}

theorem trail_append (he : ∀ event ∈ events, event.isOfBody = true) : trail (events ++ h) = trail h := by
  refine eq_append_of_isOfBody (fun event h hb => ?_) he
  cases event <;> first | rfl | cases hb

@[simp] theorem trail_reading (r : Response) : trail (r.reading ++ h) = trail h :=
  trail_append fun _ => Response.isOfBody_of_mem_reading

@[simp] theorem trail_releasing (r : Response) (error : ExchangeError) :
    trail (r.releasing error ++ h) = trail h :=
  trail_append fun _ => Response.isOfBody_of_mem_releasing

end

-- ---------------------------------------------------------------------------
-- Locations
-- ---------------------------------------------------------------------------

theorem locations_of_plain {s t : Session} (h : t.plain = s.plain) :
    t.context.locations = s.context.locations := by
  show t.plain.context.locations = s.plain.context.locations
  rw [h]

theorem Prepared.locations {route : Route} {request : Request} {s t : Session}
    {result : Except ExchangeError Attempt} (h : Prepared route request s result t) :
    t.context.locations = s.context.locations := by
  rcases h.plain with hp | ⟨c, hc, hp⟩
  · exact locations_of_plain hp
  · have hcontext := (Jar.attach_ok hc).1
    refine (locations_of_plain hp).trans ?_
    show c.context.locations = s.context.locations
    rw [hcontext]

@[simp] theorem locations_left (s : Session) (route : Route) (target : Endpoint) :
    (s.left route target).context.locations = s.context.locations := by
  unfold Session.left
  split <;> rfl

theorem nextLocation_ok {c : Config} {visited : List Url} {request : Request} {status : Nat}
    {h : Headers} {url : Url} (hn : Redirect.nextLocation c visited request status h = .ok url) :
    url.fragment = none ∧ (c.circularRedirects = false → url ∉ visited) := by
  have hl := Redirect.locationOf_of_nextLocation hn
  constructor
  · unfold Redirect.locationOf at hl
    split at hl
    · cases hl
    · obtain ⟨_, -, rfl⟩ := map_ok_iff.mp hl
      rfl
  · intro hc hmem
    simp [Redirect.nextLocation, hl, bind, Except.bind, hc, hmem] at hn

variable {client : Client} {first : Request} {c : Config} {leg : Leg} {h : List Event}
  {locations : List Url}

theorem Noted.nil : Noted c [] :=
  ⟨nofun, Nat.zero_le _, fun _ => rfl, fun _ => List.nodup_nil⟩

/-- A location is noted only where a redirect is followed, and only if it was not noted before. -/
theorem Noted.concat (hn : Noted c locations) (hf : c.followsRedirects = true)
    (hm : locations.length < c.maxRedirects) {current : Request} {status : Nat} {headers : Headers}
    {url : Url} (hl : Redirect.nextLocation c locations current status headers = .ok url) :
    Noted c (locations ++ [url]) := by
  obtain ⟨hbare, hfresh⟩ := nextLocation_ok hl
  refine ⟨?_, ?_, ?_, ?_⟩
  · intro other ho
    rcases List.mem_append.mp ho with ho | ho
    · exact hn.bare other ho
    · rw [List.mem_singleton.mp ho]
      exact hbare
  · rw [List.length_append, List.length_singleton]
    omega
  · intro hoff
    rw [hf] at hoff
    cases hoff
  · intro hc
    refine List.nodup_append.mpr ⟨hn.distinct hc, List.pairwise_singleton _ _, ?_⟩
    rintro _ hmem _ hother rfl
    exact hfresh hc (List.mem_singleton.mp hother ▸ hmem)

/-- Where a response leads: nowhere, so that nothing is noted, or to a location that is noted, whether or
not the exchange can go there. -/
theorem Led.noting {current : Request} {route : Route} {response : Response} {s t : Session}
    {result : Except ExchangeError Run.Onward}
    (hl : Led client first current route response s result t) :
    (t.context.locations = s.context.locations ∧ ∃ error, result = .error error) ∨
      ∃ url, Redirect.nextLocation s.context.config s.context.locations current response.status
          response.headers = .ok url ∧
        t.context.locations = s.context.locations ++ [url] ∧
        ∀ next, result = .ok next → next.request.url = url := by
  cases hl with
  | unlocated => exact .inl ⟨rfl, _, rfl⟩
  | hostless hl =>
    refine .inr ⟨_, hl, by simp only [Session.located], ?_⟩
    rintro next ⟨⟩
  | nameless hl =>
    refine .inr ⟨_, hl, by simp [Session.located], ?_⟩
    rintro next ⟨⟩
  | onward hl =>
    refine .inr ⟨_, hl, by simp [Session.located], ?_⟩
    rintro next ⟨rfl⟩
    exact url_requestTo _ _ _

-- ---------------------------------------------------------------------------
-- The invariant
-- ---------------------------------------------------------------------------

structure Reached (first : Request) (leg : Leg) (locations : List Url) (h : List Event) : Prop where
  count : locations.length = leg.followed
  visited : trail h = first.url :: locations
  last : locations.getLastD first.url = leg.request.url

def Point.Trails (first : Request) (locations : List Url) (h : List Event) : Point → Prop
  | .hopping leg =>
    locations.length = leg.followed ∧ trail h ++ [leg.request.url] = first.url :: locations
  | .attempting leg _ => Reached first leg locations h
  | .waiting leg _ a => Reached first leg locations h ∧ a.request.url = leg.request.url
  | .judging leg _ r | .answered leg r => Reached first leg locations h ∧ CameFrom leg.request.url r h
  | .ended result => Trail first locations h result

structure TrailInvariant (first : Request) (c : Config) (m : Moment) : Prop where
  config : m.session.context.config = c
  noted : Noted c m.session.context.locations
  here : m.point.Trails first m.session.context.locations m.history

theorem Reached.of_trail {h' : List Event} (hr : Reached first leg locations h)
    (ht : trail h' = trail h) : Reached first leg locations h' :=
  ⟨hr.count, ht.trans hr.visited, hr.last⟩

theorem Reached.enter {route : Route}
    (hh : locations.length = leg.followed ∧ trail h ++ [leg.request.url] = first.url :: locations) :
    Reached first leg locations (.hop route leg.request.url :: h) := by
  obtain ⟨hcount, hvisited⟩ := hh
  have htrail : trail (.hop route leg.request.url :: h) = first.url :: locations := by
    rw [← hvisited]
    simp [trail, Event.hopUrl?]
  have hlast := congrArg List.getLast? hvisited
  rw [List.getLast?_concat, List.getLast?_cons] at hlast
  exact ⟨hcount, htrail, List.getLastD_eq_getLast?.trans (Option.some.inj hlast).symm⟩

theorem Reached.failed (hr : Reached first leg locations h) {error : ExchangeError} :
    Trail first locations h (.error error) :=
  ⟨nofun, fun _ _ => .inl hr.visited⟩

theorem Reached.answered (hr : Reached first leg locations h) {r : Response}
    (hc : CameFrom leg.request.url r h) : Trail first locations h (.ok r) := by
  refine ⟨?_, nofun⟩
  rintro _ ⟨rfl⟩
  rw [hr.last]
  exact ⟨hr.visited, hc⟩

section
variable {s t : Session} {response : Response} {result : Except ExchangeError Run.Onward}

/-- An exchange that fails on its way to a location may have noted it. -/
theorem Reached.unfollowable (hr : Reached first leg s.context.locations h)
    (hl : Led client first leg.request leg.route response s result t) {error : ExchangeError} :
    Trail first t.context.locations h (.error error) := by
  refine ⟨nofun, fun _ _ => ?_⟩
  rcases hl.noting with ⟨hnone, -⟩ | ⟨url, -, hurl, -⟩
  · rw [hnone]
    exact .inl hr.visited
  · rw [hurl]
    exact .inr ⟨_, url, rfl, hr.visited⟩

/-- Wherever a response leads that is followed, what is noted stays in its bounds. -/
theorem Noted.led (hn : Noted c s.context.locations) (hc : s.context.config = c)
    (hr : Reached first leg s.context.locations h)
    (hf : client.follows s.context.config leg.request response = true)
    (hm : leg.followed < s.context.config.maxRedirects)
    (hl : Led client first leg.request leg.route response s result t) : Noted c t.context.locations := by
  rcases hl.noting with ⟨hsame, -⟩ | ⟨url, hurl, hmore, -⟩
  · rw [hsame]
    exact hn
  · rw [hmore]
    rw [hc] at hf hm hurl
    simp only [Client.follows, Bool.and_eq_true] at hf
    exact hn.concat hf.1 (hr.count ▸ hm) hurl

theorem Reached.hopping {next : Run.Onward} (hr : Reached first leg s.context.locations h)
    (hl : Led client first leg.request leg.route response s (.ok next) t) :
    t.context.locations.length = leg.followed + 1 ∧
      trail h ++ [next.request.url] = first.url :: t.context.locations := by
  rcases hl.noting with ⟨-, error, herror⟩ | ⟨url, -, hmore, hnext⟩
  · cases herror
  · rw [hmore, hnext next rfl, hr.visited, List.length_append, hr.count]
    exact ⟨rfl, rfl⟩

end

theorem TrailInvariant.noted_step {m n : Moment} (hm : TrailInvariant first c m) (h : Step client first m n) :
    Noted c n.session.context.locations := by
  obtain ⟨point, s, history⟩ := m
  obtain ⟨hconfig, hnoted, hhere⟩ := hm
  simp only at hconfig hnoted hhere
  cases h with
  | stray => exact hnoted
  | enter => exact hnoted
  | unprepared hp => exact hp.locations ▸ hnoted
  | prepared hp => exact hp.locations ▸ hnoted
  | unreceived => exact hnoted
  | received _ hu => subst hu; exact hnoted
  | settled _ hj => exact locations_of_plain hj.plain ▸ hnoted
  | spent _ hj => exact locations_of_plain ((Session.plain_gaveUp _ _).trans hj.plain) ▸ hnoted
  | unread _ hj => exact (locations_of_plain hj.plain ▸ hnoted : Noted c _)
  | again _ hj => exact (locations_of_plain hj.plain ▸ hnoted : Noted c _)
  | final => exact hnoted
  | limit => exact hnoted
  | unfollowable hf hlt hl => exact (hnoted.led hconfig hhere.1 hf hlt hl : Noted c _)
  | stuck hf hlt hl => exact (hnoted.led hconfig hhere.1 hf hlt hl : Noted c _)
  | onward hf hlt hl => exact (hnoted.led hconfig hhere.1 hf hlt hl : Noted c _)

theorem TrailInvariant.trails_step {m n : Moment} (hm : TrailInvariant first c m)
    (h : Step client first m n) :
    n.point.Trails first n.session.context.locations n.history := by
  obtain ⟨point, s, history⟩ := m
  obtain ⟨-, -, hhere⟩ := hm
  simp only at hhere
  cases h with
  | stray => exact (Reached.enter hhere).failed
  | enter => exact Reached.enter hhere
  | unprepared hp =>
    simp only [Point.Trails, hp.locations]
    exact hhere.failed
  | prepared hp =>
    simp only [Point.Trails, hp.locations]
    exact ⟨hhere, hp.carries.url⟩
  | @unreceived _ _ _ _ a =>
    have hr : Reached first _ s.context.locations (.sent a :: history) := hhere.1.of_trail rfl
    exact hr.failed
  | received _ hu =>
    subst hu
    exact ⟨hhere.1.of_trail rfl, [_], _, _, _, rfl, hhere.2, by simp [Event.isAftermath]⟩
  | settled _ hj =>
    simp only [Point.Trails, locations_of_plain hj.plain]
    exact hhere
  | spent _ hj =>
    simp only [Point.Trails, locations_of_plain ((Session.plain_gaveUp _ _).trans hj.plain)]
    exact hhere
  | unread _ hj =>
    simp only [Point.Trails, Session.recorded, locations_of_plain hj.plain]
    exact (hhere.1.of_trail (trail_reading _)).failed
  | again _ hj =>
    simp only [Point.Trails, Session.recorded, locations_of_plain hj.plain]
    exact hhere.1.of_trail (trail_reading _)
  | final => exact hhere.1.answered hhere.2
  | limit => exact (hhere.1.of_trail (trail_releasing _ _)).failed
  | unfollowable _ _ hl => exact (hhere.1.of_trail (trail_releasing _ _)).unfollowable hl
  | stuck _ _ hl => exact (hhere.1.of_trail (trail_reading _)).unfollowable hl
  | @onward _ _ _ _ r _ _ _ _ hl =>
    have hr := hhere.1.of_trail (trail_reading r)
    exact (hr.hopping hl :)

theorem TrailInvariant.step {m n : Moment} (h : Step client first m n) (hm : TrailInvariant first c m) :
    TrailInvariant first c n :=
  ⟨(Session.config_of_fixed h.fixed).trans hm.config, hm.noted_step h, hm.trails_step h⟩

theorem TrailInvariant.start (s : Session) (route : Route) :
    TrailInvariant first s.context.config (start s route first) :=
  ⟨rfl, .nil, rfl, rfl⟩

-- ---------------------------------------------------------------------------
-- Exchanges
-- ---------------------------------------------------------------------------

theorem follow_steps (client : Client) (route : Route) (request : Request) (s : Session) :
    ∃ h, Steps client request (start s route request)
      ⟨.ended ((Run.follow client route request) s).1, ((Run.follow client route request) s).2, h⟩ :=
  hops_steps client request _ ⟨0, route, request⟩ _ [] rfl

theorem exchange_eq_follow {client : Client} {request : Request} {route : Route}
    (hr : (Endpoint.ofUrl? request.url).bind (Route.resolve? client.proxy) = some route) :
    Run.exchange client request = Run.follow client route request := by
  obtain ⟨target, ht, hresolve⟩ := Option.bind_eq_some_iff.mp hr
  simp only [Run.exchange, ht, hresolve, Run.follow]

/-- The hops of an exchange go to the URL of its request and then to the locations that its context keeps
at the end, one by one: all of them if it ends with a response, which is what came last from the last of
them, and all but at most the last one if it fails. The locations have no fragments, are no more than may
be followed, and are distinct unless the configuration lets redirects lead in circles. -/
theorem follow_trails (client : Client) (request : Request) (s : Session) :
    (∀ route, (Endpoint.ofUrl? request.url).bind (Route.resolve? client.proxy) = some route →
        Run.exchange client request = Run.follow client route request) ∧
      ∀ route,
        let ended := (Run.follow client route request) s
        Noted s.context.config ended.2.context.locations ∧
          Trail request ended.2.context.locations (history (Run.follow client route request) s)
            ended.1 := by
  refine ⟨fun _ => exchange_eq_follow, fun route => ?_⟩
  obtain ⟨h, hs⟩ := follow_steps client route request s
  have hend := hs.keeps TrailInvariant.step (TrailInvariant.start s route)
  have hh : history (Run.follow client route request) s = h := history_eq hs.log
  rw [hh]
  exact ⟨hend.noted, hend.here⟩

def mailtoPeer : Client where
  peer _ := .response 302 [(HeaderName.location, Utf8.encode "mailto:b")] none

/-- The location to which an exchange cannot go is noted, and has no hop. -/
theorem follow_trails_mailtoPeer :
    ∃ route,
      (Endpoint.ofUrl? (Request.to "http" "a").url).bind (Route.resolve? mailtoPeer.proxy) = some route ∧
      Run.exchange mailtoPeer (.to "http" "a") = Run.follow mailtoPeer route (.to "http" "a") ∧
      let ended := (Run.follow mailtoPeer route (.to "http" "a")) (.opened {} [])
      Noted {} ended.2.context.locations ∧
        Trail (.to "http" "a") ended.2.context.locations
          (history (Run.follow mailtoPeer route (.to "http" "a")) (.opened {} [])) ended.1 ∧
        ended.2.context.locations.map Url.href = ["mailto:b"] := by
  obtain ⟨hexchange, hfollow⟩ := follow_trails mailtoPeer (.to "http" "a") (.opened {} [])
  refine ⟨_, rfl, hexchange _ rfl, (hfollow _).1, (hfollow _).2, ?_⟩
  decide +kernel

end Exchange

end HttpSession
