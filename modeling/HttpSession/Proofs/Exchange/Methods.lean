import HttpSession.Proofs.Exchange.Attempts

/-!
# Methods and bodies along redirects

Redirects of two statuses repeat the request as it is, those of the others ask for their location. A chain
of redirects mixes them, and each one is applied to the request that the one before has left. Still method
and body depend only on the first request and on which statuses occurred.

Main statement: method and body of every attempt, given the redirects that were followed before it, and
which first redirects are followed at all (`exchange_methods`).
-/

namespace HttpSession

def Request.behind (r : Request) (statuses : List Nat) : Text × Option Bytes :=
  if statuses = [] then (r.method, r.body)
  else if r.method = Method.head then (Method.head, none)
  else if ∀ status ∈ statuses, status = 307 ∨ status = 308 then (r.method, r.body)
  else (Method.get, none)

/-- Whether a redirect of some status is followed where it is the first one: the method is one that only
asks, or the client is lax and it is one of two more, or the status is 303. -/
def Client.FollowsFirst (client : Client) (method : Text) (status : Nat) : Prop :=
  status = 303 ∨ method = Method.get ∨ method = Method.head ∨
    client.lax = true ∧ (method = Method.post ∨ method = Method.delete)

namespace Exchange

/-- The statuses of the redirects that were followed, the latest first: of what was received last before
each hop but the first. -/
def redirectsIn : List Event → List Nat
  | [] => []
  | .hop _ _ :: earlier => ((lastReceived? earlier).map (·.status)).toList ++ redirectsIn earlier
  | _ :: earlier => redirectsIn earlier

section
variable {events h : List Event}

theorem redirectsIn_append (he : ∀ event ∈ events, event.isOfBody = true) :
    redirectsIn (events ++ h) = redirectsIn h := by
  refine eq_append_of_isOfBody (fun event h hb => ?_) he
  cases event <;> first | rfl | cases hb

@[simp] theorem redirectsIn_reading (r : Response) : redirectsIn (r.reading ++ h) = redirectsIn h :=
  redirectsIn_append fun _ => Response.isOfBody_of_mem_reading

@[simp] theorem lastReceived?_reading (r : Response) :
    lastReceived? (r.reading ++ h) = lastReceived? h :=
  lastReceived?_append fun _ => Response.isOfBody_of_mem_reading

@[simp] theorem redirectsIn_releasing (r : Response) (error : ExchangeError) :
    redirectsIn (r.releasing error ++ h) = redirectsIn h :=
  redirectsIn_append fun _ => Response.isOfBody_of_mem_releasing

end

-- ---------------------------------------------------------------------------
-- One redirect more
-- ---------------------------------------------------------------------------

section
variable {first current : Request} {statuses : List Nat}

/-- The requests of a chain have the method `HEAD` all together or not at all. -/
theorem method_behind_eq_head_iff (first : Request) (statuses : List Nat) :
    (first.behind statuses).1 = Method.head ↔ first.method = Method.head := by
  have hget : Method.get ≠ Method.head := by decide
  unfold Request.behind
  split
  · rfl
  · split
    · simp_all
    · split
      · rfl
      · simp_all

/-- What one redirect makes of a request that others have left is what all of them make of the first. -/
theorem behind_cons (hc : (current.method, current.body) = first.behind statuses) (url : Url)
    (status : Nat) :
    ((Redirect.requestTo url current status).method, (Redirect.requestTo url current status).body) =
      first.behind (status :: statuses) := by
  have hhead : current.method = Method.head ↔ first.method = Method.head := by
    have hb := method_behind_eq_head_iff first statuses
    rwa [← hc] at hb
  by_cases hm : first.method = Method.head
  · simp [Redirect.requestTo, Request.behind, hm, hhead.mpr hm]
  · have hm' : current.method ≠ Method.head := mt hhead.mp hm
    by_cases hs : status = 307 ∨ status = 308
    · have hkept : ((Redirect.requestTo url current status).method,
          (Redirect.requestTo url current status).body) = first.behind statuses := by
        simp [Redirect.requestTo, hm', hs, hc]
      rw [hkept]
      by_cases hn : statuses = [] <;> simp [Request.behind, hm, hs, hn]
    · simp [Redirect.requestTo, Request.behind, hm, hm', hs]

theorem Redirect.isRedirectable_iff {lax : Bool} {method : Text} :
    Redirect.isRedirectable lax method = true ↔ method = Method.get ∨ method = Method.head ∨
      lax = true ∧ (method = Method.post ∨ method = Method.delete) := by
  simp [Redirect.isRedirectable, or_assoc]

theorem followsFirst_of_follows {client : Client} {c : Config} {r : Response}
    (h : client.follows c current r = true) : client.FollowsFirst current.method r.status := by
  simp only [Client.follows, Bool.and_eq_true] at h
  have hr := h.2
  simp only [Redirect.isRedirected] at hr
  split at hr
  · exact .inr (Redirect.isRedirectable_iff.mp (Bool.and_eq_true_iff.mp hr).1)
  · split at hr
    · exact .inr (Redirect.isRedirectable_iff.mp hr)
    · exact .inl (of_decide_eq_true hr)

/-- A strict client that follows redirects asks with one of two methods behind them, whatever it sent
first. -/
theorem method_behind_of_strict {client : Client} (hlax : client.lax = false) (hn : statuses ≠ [])
    (hf : ∀ status, statuses.getLast? = some status → client.FollowsFirst first.method status) :
    (first.behind statuses).1 = Method.get ∨ (first.behind statuses).1 = Method.head := by
  unfold Request.behind
  rw [if_neg hn]
  split
  · exact .inr rfl
  · split
    · rename_i hkept
      have hlast := hf _ (List.getLast?_eq_some_getLast hn)
      have hstatus := hkept _ (List.getLast_mem hn)
      rcases hlast with h303 | hget | hhead | ⟨h, -⟩
      · omega
      · exact .inl hget
      · exact .inr hhead
      · rw [hlax] at h
        cases h
    · exact .inl rfl

end

-- ---------------------------------------------------------------------------
-- The invariant
-- ---------------------------------------------------------------------------

def Point.redirects (h : List Event) : Point → List Nat
  | .hopping _ => ((lastReceived? h).map (·.status)).toList ++ redirectsIn h
  | _ => redirectsIn h

def Point.Asks (first : Request) (h : List Event) (p : Point) : Prop :=
  match p with
  | .hopping leg | .attempting leg _ =>
    (leg.request.method, leg.request.body) = first.behind (p.redirects h)
  | .waiting leg _ a =>
    (leg.request.method, leg.request.body) = first.behind (p.redirects h) ∧
      (a.request.method, a.request.body) = first.behind (p.redirects h)
  | .judging leg _ r | .answered leg r =>
    (leg.request.method, leg.request.body) = first.behind (p.redirects h) ∧
      lastReceived? h = some r
  | .ended _ => True

structure MethodInvariant (client : Client) (first : Request) (m : Moment) : Prop where
  sends : Sends (fun earlier a => (a.request.method, a.request.body) = first.behind (redirectsIn earlier))
    m.history
  /-- The first of the redirects is one that is followed where it is the first. -/
  allowed : ∀ status, (m.point.redirects m.history).getLast? = some status →
    client.FollowsFirst first.method status
  here : m.point.Asks first m.history

section
variable {client : Client} {first : Request} {m n : Moment}

theorem MethodInvariant.sends_step (h : Step client first m n) (hm : MethodInvariant client first m) :
    Sends (fun earlier a => (a.request.method, a.request.body) = first.behind (redirectsIn earlier))
      n.history := by
  refine h.sends hm.sends fun leg k a hp => ?_
  have hhere := hm.here
  rw [hp] at hhere
  exact hhere.2

/-- Only a step that follows a redirect changes which redirects there were. -/
theorem Step.redirects (h : Step client first m n) :
    n.point.redirects n.history = m.point.redirects m.history ∨
      ∃ leg r, m.point = .answered leg r ∧ client.follows m.session.context.config leg.request r = true ∧
        n.point.redirects n.history =
          ((lastReceived? m.history).map (·.status)).toList ++ m.point.redirects m.history := by
  cases h with
  | onward hf => exact .inr ⟨_, _, rfl, hf, by simp [Point.redirects]⟩
  | unread => exact .inl (redirectsIn_reading _)
  | again => exact .inl (redirectsIn_reading _)
  | limit => exact .inl (redirectsIn_releasing _ _)
  | unfollowable => exact .inl (redirectsIn_releasing _ _)
  | stuck => exact .inl (redirectsIn_reading _)
  | _ => exact .inl rfl

theorem MethodInvariant.allowed_step (h : Step client first m n) (hm : MethodInvariant client first m) :
    ∀ status, (n.point.redirects n.history).getLast? = some status →
      client.FollowsFirst first.method status := by
  obtain hr | ⟨leg, r, hp, hf, hr⟩ := h.redirects
  · rw [hr]
    exact hm.allowed
  · have hhere := hm.here
    rw [hp] at hhere
    obtain ⟨hasks, hlast⟩ := hhere
    have hredirects : m.point.redirects m.history = redirectsIn m.history := by rw [hp]; rfl
    rw [hr, hlast, Option.map_some]
    intro status hstatus
    by_cases hn : m.point.redirects m.history = []
    -- The first redirect is seen by the request of the caller, every other one changes nothing here.
    · simp only [hn, Option.toList_some, List.append_nil, List.getLast?_singleton,
        Option.some.injEq] at hstatus
      have hmethod : leg.request.method = first.method := by
        have hnone : redirectsIn m.history = [] := hredirects ▸ hn
        simp only [Point.redirects, hnone, Request.behind, if_true, Prod.mk.injEq] at hasks
        exact hasks.1
      rw [← hstatus, ← hmethod]
      exact followsFirst_of_follows hf
    · refine hm.allowed status ?_
      rwa [List.getLast?_append, List.getLast?_eq_some_getLast hn, Option.some_or,
        ← List.getLast?_eq_some_getLast hn] at hstatus

theorem MethodInvariant.asks_step (h : Step client first m n) (hm : MethodInvariant client first m) :
    n.point.Asks first n.history := by
  obtain ⟨point, s, history⟩ := m
  obtain ⟨-, -, hhere⟩ := hm
  cases h with
  | stray => trivial
  | enter => exact hhere
  | unprepared => trivial
  | prepared hp => exact ⟨hhere, by rw [hp.carries.method, hp.carries.body]; exact hhere⟩
  | unreceived => trivial
  | received => exact ⟨hhere.1, rfl⟩
  | settled => exact hhere
  | spent => exact hhere
  | unread => trivial
  | again => exact hhere.1.trans (by simp [Point.redirects])
  | final => trivial
  | limit => trivial
  | unfollowable => trivial
  | stuck => trivial
  | onward _ _ hl =>
    cases hl with
    | onward =>
      obtain ⟨hasks, hlast⟩ := hhere
      refine (behind_cons hasks _ _).trans ?_
      simp [Point.redirects, hlast]

theorem MethodInvariant.step (h : Step client first m n) (hm : MethodInvariant client first m) :
    MethodInvariant client first n :=
  ⟨hm.sends_step h, hm.allowed_step h, hm.asks_step h⟩

theorem MethodInvariant.start (client : Client) (s : Session) (route : Route) (request : Request) :
    MethodInvariant client request (start s route request) :=
  ⟨sends_nil, nofun, rfl⟩

end

-- ---------------------------------------------------------------------------
-- Exchanges
-- ---------------------------------------------------------------------------

structure Asks (client : Client) (request : Request) (h : List Event) : Prop where
  /-- Every attempt has the method and the body that the redirects before it leave of the request. -/
  behind : Sends (fun earlier a => (a.request.method, a.request.body) =
    request.behind (redirectsIn earlier)) h
  /-- The first redirect is one that the client follows there. -/
  first : ∀ status, (redirectsIn h).getLast? = some status → client.FollowsFirst request.method status
  /-- A strict client asks with one of two methods behind a redirect. -/
  strict : client.lax = false → Sends (fun earlier a => redirectsIn earlier ≠ [] →
    a.request.method = Method.get ∨ a.request.method = Method.head) h

/-- The redirects that were followed at some time are the first ones of all that are followed. -/
theorem redirectsIn_suffix (later earlier : List Event) :
    redirectsIn earlier <:+ redirectsIn (later ++ earlier) := by
  induction later with
  | nil => exact List.suffix_refl _
  | cons event later ih =>
    cases event with
    | hop => exact ih.trans (List.suffix_append _ _)
    | _ => exact ih

/-- In every exchange, each attempt has the method and the body that the redirects followed before it
leave of the request. The first redirect is followed if its status is 303, or if the method only asks, or
if a lax client sends one of two others; so a strict client only ever asks behind a redirect. -/
theorem exchange_methods (client : Client) (request : Request) (s : Session) :
    Asks client request (history (Run.exchange client request) s) := by
  obtain ⟨hsends, hallowed⟩ : Sends (fun earlier a => (a.request.method, a.request.body) =
      request.behind (redirectsIn earlier)) (history (Run.exchange client request) s) ∧
      ∀ status, (redirectsIn (history (Run.exchange client request) s)).getLast? = some status →
        client.FollowsFirst request.method status :=
    exchange_keeps (I := MethodInvariant client request)
      (P := fun _ h => Sends (fun earlier a => (a.request.method, a.request.body) =
          request.behind (redirectsIn earlier)) h ∧
        ∀ status, (redirectsIn h).getLast? = some status → client.FollowsFirst request.method status)
      (fun _ _ => ⟨sends_nil, nofun⟩) (fun route _ => MethodInvariant.start client s route request)
      (fun h hm => hm.step h) fun hm => ⟨hm.sends, hm.allowed⟩
  refine ⟨hsends, hallowed, ?_⟩
  intro hlax later a earlier heq hn
  have hmethod : a.request.method = (request.behind (redirectsIn earlier)).1 :=
    congrArg Prod.fst (hsends later a earlier heq)
  rw [hmethod]
  refine method_behind_of_strict hlax hn fun status hs => hallowed status ?_
  obtain ⟨more, hmore⟩ := redirectsIn_suffix (later ++ [.sent a]) earlier
  rw [heq, List.append_cons, ← hmore, List.getLast?_append, hs, Option.some_or]

end Exchange

end HttpSession
