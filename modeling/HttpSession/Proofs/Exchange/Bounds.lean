import Mathlib.Algebra.Order.Ring.Nat
import HttpSession.Proofs.Exchange.Histories

/-!
# Bounds on attempts and hops

The peer decides how often an exchange is redirected and challenged, and only the bounds of the
configuration end it. The counters of both loops count upwards here and are compared with these bounds, so
that they stay below them is a theorem: a redirect is followed only while fewer were followed than
allowed, and another round begins only while fewer were made than allowed.

Main statement: an exchange and the opening of a tunnel end whatever the peer replies, after a bounded
number of calls, and no counter leaves the range of its bound (`loops_bounded`).
-/

namespace HttpSession

open Auth (Side)

namespace Config

/-- Whether the bounds of a configuration are ones it can be given: numbers of 32 bits, and one round
at least. -/
structure Bounded (c : Config) : Prop where
  redirects : c.maxRedirects < 2 ^ 32
  rounds : c.maxRounds < 2 ^ 32
  least : 1 ≤ c.maxRounds

/-- The bound on rounds is one at least, whatever is asked for. -/
theorem bounded_withMaxRounds {c : Config} (hc : c.Bounded) {rounds : Nat} (hr : rounds < 2 ^ 32) :
    (c.withMaxRounds rounds).Bounded := by
  refine ⟨hc.redirects, ?_, Nat.le_max_left _ _⟩
  simp only [withMaxRounds]
  omega

theorem bounded_default : ({} : Config).Bounded := by
  constructor <;> decide

def hops (c : Config) : Nat := if c.followsRedirects then c.maxRedirects + 1 else 1

def rounds (c : Config) : Nat := max 1 c.maxRounds

def callsPerHop (c : Config) : Nat := if c.authenticates then c.rounds else 1

theorem rounds_eq {c : Config} (hc : c.Bounded) : c.rounds = c.maxRounds := Nat.max_eq_right hc.least

theorem callsPerHop_le (c : Config) : c.callsPerHop ≤ c.rounds := by
  unfold callsPerHop rounds
  split <;> omega

theorem callsPerHop_pos (c : Config) : 0 < c.callsPerHop := by
  unfold callsPerHop rounds
  split <;> omega

theorem hops_pos (c : Config) : 0 < c.hops := by
  unfold hops
  split <;> omega

theorem hops_le (c : Config) : c.hops ≤ c.maxRedirects + 1 := by
  unfold hops
  split <;> omega

end Config

namespace Exchange

-- ---------------------------------------------------------------------------
-- Calls of hops
-- ---------------------------------------------------------------------------

/-- How many attempts were sent in each hop, the latest hop first. -/
def calls : List Event → List Nat
  | [] => []
  | .hop _ _ :: earlier => 0 :: calls earlier
  | .sent _ :: earlier => (calls earlier).modifyHead (· + 1)
  | _ :: earlier => calls earlier

theorem calls_append {events h : List Event} (he : ∀ event ∈ events, event.isOfBody = true) :
    calls (events ++ h) = calls h := by
  refine eq_append_of_isOfBody (fun event h hb => ?_) he
  cases event <;> first | rfl | cases hb

@[simp] theorem calls_reading (r : Response) (h : List Event) : calls (r.reading ++ h) = calls h :=
  calls_append fun _ => Response.isOfBody_of_mem_reading

@[simp] theorem calls_releasing (r : Response) (error : ExchangeError) (h : List Event) :
    calls (r.releasing error ++ h) = calls h :=
  calls_append fun _ => Response.isOfBody_of_mem_releasing

-- ---------------------------------------------------------------------------
-- The invariant
-- ---------------------------------------------------------------------------

/-- Whether the calls of some hops are those of hops that ended with a response, as many as redirects
were followed. -/
structure Full (c : Config) (followed : Nat) (calls : List Nat) : Prop where
  length : calls.length = followed
  allowed : followed < c.hops
  each : ∀ n ∈ calls, 1 ≤ n ∧ n ≤ c.callsPerHop

/-- Whether the calls of some hops are those of an exchange that ended. A hop without any call is the
last one, and its attempt could not be prepared. -/
structure Complete (c : Config) (result : Except ExchangeError Response) (calls : List Nat) : Prop where
  begun : 1 ≤ calls.length
  length : calls.length ≤ c.hops
  each : ∀ n ∈ calls, n ≤ c.callsPerHop
  empty : (∀ n ∈ calls, 1 ≤ n) ∨
    (∃ earlier, calls = 0 :: earlier ∧ ∀ n ∈ earlier, 1 ≤ n) ∧
      ((∃ name, result = .error (.unsupportedPolicy name)) ∨
        c.authenticates = true ∧ ∃ fault, result = .error (.auth fault))

def Point.Counts (c : Config) (calls : List Nat) : Point → Prop
  | .hopping leg => Full c leg.followed calls ∧ (Endpoint.ofUrl? leg.request.url).isSome
  | .attempting leg k | .waiting leg k _ =>
    ∃ earlier, calls = k :: earlier ∧ k < c.callsPerHop ∧ Full c leg.followed earlier
  | .judging leg k _ =>
    ∃ earlier, calls = (k + 1) :: earlier ∧ k < c.callsPerHop ∧ Full c leg.followed earlier
  | .answered leg _ =>
    ∃ n earlier, calls = n :: earlier ∧ 1 ≤ n ∧ n ≤ c.callsPerHop ∧ Full c leg.followed earlier
  | .ended result => Complete c result calls

structure CountInvariant (c : Config) (base : Nat) (m : Moment) : Prop where
  config : m.session.context.config = c
  attempts : m.session.attempts = base + (calls m.history).sum
  here : m.point.Counts c (calls m.history)

variable {client : Client} {first : Request} {c : Config} {base : Nat}

theorem Full.followed_le {followed : Nat} {earlier : List Nat} (hf : Full c followed earlier) :
    followed ≤ c.maxRedirects := by
  have hallowed := hf.allowed
  have hhops := c.hops_le
  omega

theorem Full.complete {followed n : Nat} {earlier : List Nat} (hf : Full c followed earlier)
    (hp : 1 ≤ n) (hn : n ≤ c.callsPerHop) {result : Except ExchangeError Response} :
    Complete c result (n :: earlier) := by
  have hlength := hf.length
  have hallowed := hf.allowed
  refine ⟨by simp, by rw [List.length_cons]; omega, ?_, .inl ?_⟩
  · intro k hk
    rcases List.mem_cons.mp hk with rfl | hk
    · exact hn
    · exact (hf.each k hk).2
  · intro k hk
    rcases List.mem_cons.mp hk with rfl | hk
    · exact hp
    · exact (hf.each k hk).1

theorem Prepared.refusal {route : Route} {request : Request} {s t : Session} {error : ExchangeError}
    (h : Prepared route request s (.error error) t) :
    (∃ name, error = .unsupportedPolicy name) ∨
      s.context.config.authenticates = true ∧ ∃ fault, error = .auth fault := by
  cases h with
  | refused hc => exact .inl (Jar.attach_error hc)
  | proxyFault _ ha => exact .inr ⟨ha, _, rfl⟩
  | targetFault _ ha => exact .inr ⟨ha, _, rfl⟩

/-- A hop whose attempt cannot be prepared at first makes no call. -/
theorem Full.refused {followed : Nat} {earlier : List Nat} (hf : Full c followed earlier)
    {error : ExchangeError} (he : (∃ name, error = .unsupportedPolicy name) ∨
      c.authenticates = true ∧ ∃ fault, error = .auth fault) :
    Complete c (.error error) (0 :: earlier) := by
  have hlength := hf.length
  have hallowed := hf.allowed
  refine ⟨by simp, by rw [List.length_cons]; omega, ?_, .inr ⟨⟨earlier, rfl, ?_⟩, ?_⟩⟩
  · intro k hk
    rcases List.mem_cons.mp hk with rfl | hk
    · exact Nat.zero_le _
    · exact (hf.each k hk).2
  · exact fun k hk => (hf.each k hk).1
  · rcases he with ⟨name, rfl⟩ | ⟨ha, fault, rfl⟩
    · exact .inl ⟨name, rfl⟩
    · exact .inr ⟨ha, fault, rfl⟩

theorem Full.further {followed n : Nat} {earlier : List Nat} (hf : Full c followed earlier)
    (hp : 1 ≤ n) (hn : n ≤ c.callsPerHop) (hr : c.followsRedirects = true)
    (hm : followed < c.maxRedirects) : Full c (followed + 1) (n :: earlier) := by
  refine ⟨by rw [List.length_cons, hf.length], by rw [Config.hops, if_pos hr]; omega, ?_⟩
  intro k hk
  rcases List.mem_cons.mp hk with rfl | hk
  · exact ⟨hp, hn⟩
  · exact hf.each k hk

theorem CountInvariant.attempts_step {m n : Moment} (hm : CountInvariant c base m)
    (h : Step client first m n) :
    n.session.attempts = base + (calls n.history).sum := by
  obtain ⟨point, s, history⟩ := m
  obtain ⟨-, hattempts, hhere⟩ := hm
  simp only at hattempts hhere
  cases h with
  | stray => exact hattempts.trans (by simp [calls])
  | enter => exact hattempts.trans (by simp [calls])
  | unprepared hp => exact hp.attempts.trans hattempts
  | prepared hp => exact hp.attempts.trans hattempts
  | unreceived =>
    obtain ⟨earlier, hcalls, -⟩ := hhere
    rw [hcalls, List.sum_cons] at hattempts
    simp only [Session.attempts_waited, Session.attempts_sent, calls, hcalls, List.modifyHead_cons,
      List.sum_cons]
    omega
  | received _ hu =>
    obtain ⟨earlier, hcalls, -⟩ := hhere
    rw [hcalls, List.sum_cons] at hattempts
    simp only [hu, Session.attempts_ingested, Session.attempts_recorded, Session.attempts_waited,
      Session.attempts_sent, calls, hcalls, List.modifyHead_cons, List.sum_cons]
    omega
  | settled _ hj => exact (Session.attempts_of_plain hj.plain).trans hattempts
  | spent _ hj =>
    exact (Session.attempts_of_plain ((Session.plain_gaveUp _ _).trans hj.plain)).trans hattempts
  | unread _ hj =>
    rw [Session.attempts_recorded, Session.attempts_of_plain hj.plain, calls_reading, hattempts]
  | again _ hj =>
    rw [Session.attempts_recorded, Session.attempts_of_plain hj.plain, calls_reading, hattempts]
  | final => exact hattempts
  | limit => rw [Session.attempts_recorded, calls_releasing, hattempts]
  | unfollowable _ _ hl => rw [Session.attempts_recorded, calls_releasing, hl.attempts, hattempts]
  | stuck _ _ hl => rw [Session.attempts_recorded, calls_reading, hl.attempts, hattempts]
  | onward _ _ hl => rw [Session.attempts_recorded, calls_reading, hl.attempts, hattempts]

theorem CountInvariant.counts_step {m n : Moment} (hm : CountInvariant c base m) (h : Step client first m n) :
    n.point.Counts c (calls n.history) := by
  obtain ⟨point, s, history⟩ := m
  obtain ⟨hconfig, -, hhere⟩ := hm
  simp only at hconfig hhere
  cases h with
  | stray ht => simp [ht, Point.Counts] at hhere
  | enter => exact ⟨_, rfl, c.callsPerHop_pos, hhere.1⟩
  | @unprepared leg k _ _ _ error hp =>
    obtain ⟨earlier, hcalls, hk, hf⟩ := hhere
    simp only [Point.Counts, hcalls]
    cases k with
    | zero => exact hf.refused (by rw [← hconfig]; exact hp.refusal)
    | succ k => exact hf.complete (by omega) (by omega)
  | prepared => exact hhere
  | unreceived =>
    obtain ⟨earlier, hcalls, hk, hf⟩ := hhere
    simp only [Point.Counts, calls, hcalls, List.modifyHead_cons]
    exact hf.complete (by omega) hk
  | received =>
    obtain ⟨earlier, hcalls, hk, hf⟩ := hhere
    refine ⟨earlier, ?_, hk, hf⟩
    simp only [calls, hcalls, List.modifyHead_cons]
  | settled =>
    obtain ⟨earlier, hcalls, hk, hf⟩ := hhere
    exact ⟨_, earlier, hcalls, by omega, hk, hf⟩
  | spent =>
    obtain ⟨earlier, hcalls, hk, hf⟩ := hhere
    exact ⟨_, earlier, hcalls, by omega, hk, hf⟩
  | unread =>
    obtain ⟨earlier, hcalls, hk, hf⟩ := hhere
    simp only [Point.Counts, calls_reading, hcalls]
    exact hf.complete (by omega) hk
  | again _ hj hlt =>
    obtain ⟨earlier, hcalls, hk, hf⟩ := hhere
    refine ⟨earlier, by rw [calls_reading, hcalls], ?_, hf⟩
    -- Whoever repeats a round authenticates, so the bound of the rounds is that of the calls.
    have ha : c.authenticates = true := hconfig ▸ hj.authenticates
    have hc : _ = c := (Session.config_of_fixed hj.fixed).trans hconfig
    rw [hc] at hlt
    rw [Config.callsPerHop, if_pos ha, Config.rounds]
    omega
  | final =>
    obtain ⟨n, earlier, hcalls, hp, hn, hf⟩ := hhere
    simp only [Point.Counts, hcalls]
    exact hf.complete hp hn
  | limit =>
    obtain ⟨n, earlier, hcalls, hp, hn, hf⟩ := hhere
    simp only [Point.Counts, calls_releasing, hcalls]
    exact hf.complete hp hn
  | unfollowable =>
    obtain ⟨n, earlier, hcalls, hp, hn, hf⟩ := hhere
    simp only [Point.Counts, calls_releasing, hcalls]
    exact hf.complete hp hn
  | stuck =>
    obtain ⟨n, earlier, hcalls, hp, hn, hf⟩ := hhere
    simp only [Point.Counts, calls_reading, hcalls]
    exact hf.complete hp hn
  | onward hfollows hlt hl =>
    obtain ⟨n, earlier, hcalls, hp, hn, hf⟩ := hhere
    simp only [Client.follows, Bool.and_eq_true] at hfollows
    rw [hconfig] at hfollows hlt
    refine ⟨?_, ?_⟩
    · rw [calls_reading, hcalls]
      exact hf.further hp hn hfollows.1 hlt
    · cases hl with
      | onward _ ht => simp [ht]

theorem CountInvariant.step {m n : Moment} (h : Step client first m n) (hm : CountInvariant c base m) :
    CountInvariant c base n :=
  ⟨(Session.config_of_fixed h.fixed).trans hm.config, hm.attempts_step h, hm.counts_step h⟩

-- ---------------------------------------------------------------------------
-- Exchanges end
-- ---------------------------------------------------------------------------

def Terminates {α : Type} (step : α → α → Prop) (a : α) : Prop :=
  ¬ ∃ run : Nat → α, run 0 = a ∧ ∀ i, step (run i) (run (i + 1))

theorem terminates_of_rank {α : Type} {step : α → α → Prop} {I : α → Prop} (rank : α → Nat)
    (hI : ∀ a b, step a b → I a → I b) (hr : ∀ a b, step a b → I a → rank b < rank a) {a : α}
    (ha : I a) : Terminates step a := by
  rintro ⟨run, rfl, hs⟩
  have hrun : ∀ i, I (run i) ∧ rank (run i) + i ≤ rank (run 0) := by
    intro i
    induction i with
    | zero => exact ⟨ha, Nat.le_refl _⟩
    | succ i ih =>
      have hlt := hr _ _ (hs i) ih.1
      exact ⟨hI _ _ (hs i) ih.1, by omega⟩
  have hlast := (hrun (rank (run 0) + 1)).2
  omega

namespace Point

def followed : Point → Nat
  | .hopping leg | .attempting leg _ | .waiting leg _ _ | .judging leg _ _ | .answered leg _ =>
    leg.followed
  | .ended _ => 0

def round : Point → Nat
  | .attempting _ k | .waiting _ k _ | .judging _ k _ => k + 1
  | .hopping _ | .answered _ _ | .ended _ => 0

def ahead (c : Config) (leg : Leg) : Nat := (c.maxRedirects - leg.followed) * (3 * c.rounds + 3)

/-- How many steps may follow at most. A round is three steps. -/
def rank (c : Config) : Point → Nat
  | .hopping leg => ahead c leg + (3 * c.rounds + 2)
  | .attempting leg k => ahead c leg + (3 * (c.rounds - k) + 1)
  | .waiting leg k _ => ahead c leg + 3 * (c.rounds - k)
  | .judging leg k _ => ahead c leg + (3 * (c.rounds - k) - 1)
  | .answered leg _ => ahead c leg + 1
  | .ended _ => 0

theorem counters_le {point : Point} {ns : List Nat} (h : point.Counts c ns) :
    point.followed ≤ c.maxRedirects ∧ point.round ≤ c.rounds := by
  cases point with
  | hopping leg => exact ⟨h.1.followed_le, Nat.zero_le _⟩
  | attempting leg k =>
    obtain ⟨earlier, -, hk, hf⟩ := h
    exact ⟨hf.followed_le, Nat.le_trans hk c.callsPerHop_le⟩
  | waiting leg k attempt =>
    obtain ⟨earlier, -, hk, hf⟩ := h
    exact ⟨hf.followed_le, Nat.le_trans hk c.callsPerHop_le⟩
  | judging leg k response =>
    obtain ⟨earlier, -, hk, hf⟩ := h
    exact ⟨hf.followed_le, Nat.le_trans hk c.callsPerHop_le⟩
  | answered leg response =>
    obtain ⟨n, earlier, -, -, -, hf⟩ := h
    exact ⟨hf.followed_le, Nat.zero_le _⟩
  | ended result => exact ⟨Nat.zero_le _, Nat.zero_le _⟩

end Point

/-- Every step leaves fewer steps to come. -/
theorem Step.rank_lt {m n : Moment} (h : Step client first m n) (hm : CountInvariant c base m) :
    n.point.rank c < m.point.rank c := by
  have hn := hm.step h
  have hround := (Point.counters_le hm.here).2
  have hround' := (Point.counters_le hn.here).2
  have hconfig := hm.config
  cases h <;> simp only [Point.rank, Point.round] at hround hround' ⊢
  case onward leg _ _ _ _ _ _ _ hlt _ _ =>
    -- What one hop may take is spent, however many rounds the next one makes.
    simp only at hconfig
    rw [hconfig] at hlt
    obtain ⟨d, hd⟩ : ∃ d, c.maxRedirects - leg.followed = d + 1 :=
      ⟨c.maxRedirects - leg.followed - 1, by omega⟩
    have hd' : c.maxRedirects - (leg.followed + 1) = d := by omega
    simp only [Point.ahead, hd, hd', Nat.succ_mul]
    omega
  all_goals omega

theorem CountInvariant.start {route : Route} {s : Session}
    (hr : (Endpoint.ofUrl? first.url).bind (Route.resolve? client.proxy) = some route) :
    CountInvariant s.context.config s.attempts (start s route first) := by
  obtain ⟨target, ht, -⟩ := Option.bind_eq_some_iff.mp hr
  refine ⟨rfl, rfl, ⟨rfl, s.context.config.hops_pos, ?_⟩, by simp [ht]⟩
  intro n hn
  cases hn

-- ---------------------------------------------------------------------------
-- Tunnels end
-- ---------------------------------------------------------------------------

def connectAttempt (route : Route) (request : Request) (answer : Option Auth.Answer) : Attempt :=
  ⟨route, request.answering answer, [], answer, none⟩

inductive Once (client : Client) (route : Route) (request : Request) (s : Session) :
    Except ExchangeError (Request × Response) → Session → Prop
  | unanswered {fault : Auth.Fault} (ha : (s.outcome .proxy request).answer = .error fault) :
      Once client route request s (.error (.auth fault)) (s.answered .proxy request)
  | unreceived {answer : Option Auth.Answer} {error : ExchangeError}
      (ha : (s.outcome .proxy request).answer = .ok answer)
      (hr : Run.receive (s.attempts + 1) request.url (client.peer (s.attempts + 1)) = .error error) :
      Once client route request s (.error error)
        (((s.answered .proxy request).sent (connectAttempt route request answer)).waited client)
  | informational {answer : Option Auth.Answer} {r : Response} {t : Session}
      (ha : (s.outcome .proxy request).answer = .ok answer)
      (hr : Run.receive (s.attempts + 1) request.url (client.peer (s.attempts + 1)) = .ok r)
      (ht : t = (((s.answered .proxy request).sent
        (connectAttempt route request answer)).waited client).recorded
        [.received (s.attempts + 1) r])
      (hi : 100 ≤ r.status ∧ r.status < 200) :
      Once client route request s (.error (.protocol (.connectReply r.status))) (t.recorded r.dropping)
  | received {answer : Option Auth.Answer} {r : Response} {t : Session}
      (ha : (s.outcome .proxy request).answer = .ok answer)
      (hr : Run.receive (s.attempts + 1) request.url (client.peer (s.attempts + 1)) = .ok r)
      (ht : t = (((s.answered .proxy request).sent
        (connectAttempt route request answer)).waited client).recorded
        [.received (s.attempts + 1) r])
      (hi : ¬ (100 ≤ r.status ∧ r.status < 200)) :
      Once client route request s (.ok (request.answering answer, r)) t

inductive Opening
  /-- The proxy is to be asked with a request, after some rounds. -/
  | asking (rounds : Nat) (request : Request)
  | ended (result : Except ExchangeError Response)

/-- The loop in which a tunnel is asked for, as a machine that counts its rounds upwards. -/
inductive Ask (client : Client) (route : Route) (proxy : Endpoint) :
    Opening × Session → Opening × Session → Prop
  | failed {k : Nat} {request : Request} {s t : Session} {error : ExchangeError}
      (ha : (Run.askOnce client route request) s = (.error error, t)) :
      Ask client route proxy (.asking k request, s) (.ended (.error error), t)
  | settled {k : Nat} {request sent : Request} {s u t : Session} {response : Response}
      (ha : (Run.askOnce client route request) s = (.ok (sent, response), u))
      (hc : (Run.isChallenged proxy response) u = (.ok false, t)) :
      Ask client route proxy (.asking k request, s) (.ended (.ok response), t)
  | spent {k : Nat} {request sent : Request} {s u t : Session} {response : Response}
      (ha : (Run.askOnce client route request) s = (.ok (sent, response), u))
      (hc : (Run.isChallenged proxy response) u = (.ok true, t))
      (hk : t.context.config.maxRounds ≤ k + 1) :
      Ask client route proxy (.asking k request, s) (.ended (.ok response), t.gaveUp .proxy)
  | unread {k : Nat} {request sent : Request} {s u t : Session} {response : Response} {error : ExchangeError}
      (ha : (Run.askOnce client route request) s = (.ok (sent, response), u))
      (hc : (Run.isChallenged proxy response) u = (.ok true, t))
      (hk : k + 1 < t.context.config.maxRounds) (hb : response.contents = .error error) :
      Ask client route proxy (.asking k request, s)
        (.ended (.error error), t.recorded response.reading)
  | again {k : Nat} {request sent : Request} {s u t : Session} {response : Response} {bytes : Bytes}
      (ha : (Run.askOnce client route request) s = (.ok (sent, response), u))
      (hc : (Run.isChallenged proxy response) u = (.ok true, t))
      (hk : k + 1 < t.context.config.maxRounds) (hb : response.contents = .ok bytes) :
      Ask client route proxy (.asking k request, s)
        (.asking (k + 1) (Run.withoutAnswer sent), t.recorded response.reading)

section
variable {route : Route} {proxy : Endpoint} {request : Request}

theorem once_askOnce (client : Client) (route : Route) (request : Request) (s : Session) :
    Once client route request s ((Run.askOnce client route request) s).1
      ((Run.askOnce client route request) s).2 := by
  simp only [Run.askOnce, Run.run_bind, Run.answer_run, Run.send_run]
  cases ha : (s.outcome .proxy request).answer with
  | error fault => exact .unanswered ha
  | ok answer =>
    simp only [mapError_ok]
    cases hr : Run.receive ((s.answered .proxy request).attempts + 1) request.url
        (client.peer ((s.answered .proxy request).attempts + 1)) with
    | error error => exact .unreceived ha hr
    | ok r =>
      simp only
      split
      · rename_i hi
        simp only [Run.run_bind, Run.close_run, Run.run_throw]
        exact .informational ha hr rfl hi
      · rename_i hi
        exact .received ha hr rfl hi

variable {s t : Session} {result : Except ExchangeError (Request × Response)} {r : Response}

theorem Once.of_run (h : (Run.askOnce client route request) s = (result, t)) :
    Once client route request s result t := by
  have ho := once_askOnce client route request s
  rwa [h] at ho

theorem Once.fixed (h : Once client route request s result t) : t.fixed = s.fixed := by
  have hf : (s.answered .proxy request).fixed = s.fixed := Session.fixed_of_plain (s.plain_answered _ _)
  cases h with
  | unanswered => exact hf
  | unreceived => exact hf
  | informational _ _ ht => subst ht; exact hf
  | received _ _ ht => subst ht; exact hf

theorem Once.attempts_le (h : Once client route request s result t) : t.attempts ≤ s.attempts + 1 := by
  cases h with
  | unanswered => exact Nat.le_succ _
  | unreceived => exact Nat.le_refl _
  | informational _ _ ht => subst ht; exact Nat.le_refl _
  | received _ _ ht => subst ht; exact Nat.le_refl _

theorem isChallenged_ok (proxy : Endpoint) (response : Response) (s : Session) :
    ∃ again t, (Run.isChallenged proxy response) s = (.ok again, t) ∧ t.plain = s.plain := by
  rw [Run.isChallenged_run]
  split
  · exact ⟨_, _, rfl, by simp⟩
  · exact ⟨_, _, rfl, by simp⟩

theorem plain_of_isChallenged {again : Bool} (h : (Run.isChallenged proxy r) s = (.ok again, t)) :
    t.plain = s.plain := by
  obtain ⟨_, _, h', hp⟩ := isChallenged_ok proxy r s
  rw [h] at h'
  obtain ⟨-, rfl⟩ := Prod.mk.inj h'
  exact hp

theorem ask_steps (client : Client) (route : Route) (proxy : Endpoint) (request : Request) (n k : Nat)
    (s : Session) (hn : n = s.context.config.maxRounds - (k + 1)) :
    Relation.ReflTransGen (Ask client route proxy) (.asking k request, s)
      (.ended ((Run.ask client route proxy request n) s).1,
        ((Run.ask client route proxy request n) s).2) := by
  induction n generalizing k request s with
  | zero =>
    unfold Run.ask
    rw [Run.run_bind]
    rcases ha : (Run.askOnce client route request) s with ⟨error | ⟨sent, response⟩, u⟩
    · exact .single (.failed ha)
    · have hf := (Once.of_run ha).fixed
      obtain ⟨again, t, hc, hp⟩ := isChallenged_ok proxy response u
      have hk : t.context.config.maxRounds ≤ k + 1 := by
        rw [Session.config_of_fixed ((Session.fixed_of_plain hp).trans hf)]
        omega
      simp only [Run.run_bind, hc]
      cases again with
      | false => exact .single (.settled ha hc)
      | true =>
        simp only [if_true, Run.run_bind, Run.giveUp_run, Run.run_pure]
        exact .single (.spent ha hc hk)
  | succ n ih =>
    unfold Run.ask
    rw [Run.run_bind]
    rcases ha : (Run.askOnce client route request) s with ⟨error | ⟨sent, response⟩, u⟩
    · exact .single (.failed ha)
    · have hf := (Once.of_run ha).fixed
      obtain ⟨again, t, hc, hp⟩ := isChallenged_ok proxy response u
      have hconfig := Session.config_of_fixed ((Session.fixed_of_plain hp).trans hf)
      have hk : k + 1 < t.context.config.maxRounds := by rw [hconfig]; omega
      simp only [Run.run_bind, hc]
      cases again with
      | false => exact .single (.settled ha hc)
      | true =>
        simp only [if_true, Run.run_bind, Run.readBody_run]
        cases hb : response.contents with
        | error error => exact .single (.unread ha hc hk hb)
        | ok bytes =>
          have hn' : n = (t.recorded response.reading).context.config.maxRounds - (k + 1 + 1) := by
            show n = t.context.config.maxRounds - (k + 1 + 1)
            rw [hconfig]
            omega
          exact .head (.again ha hc hk hb) (ih _ (k + 1) _ hn')

def Opening.Counts (c : Config) (base calls : Nat) : Opening → Prop
  | .asking k _ => calls ≤ base + k ∧ k < c.rounds
  | .ended _ => calls ≤ base + c.rounds

def Opening.round : Opening → Nat
  | .asking k _ => k + 1
  | .ended _ => 0

def Opening.rank (c : Config) : Opening → Nat
  | .asking k _ => c.rounds - k
  | .ended _ => 0

structure Asked (c : Config) (base : Nat) (m : Opening × Session) : Prop where
  config : m.2.context.config = c
  here : m.1.Counts c base m.2.attempts

theorem Asked.step {m n : Opening × Session} (h : Ask client route proxy m n)
    (hm : Asked c base m) : Asked c base n := by
  obtain ⟨point, s⟩ := m
  obtain ⟨hconfig, hhere⟩ := hm
  have hjudged {again : Bool} {request sent : Request} {response : Response} {u t : Session}
      (hu : Once client route request s (.ok (sent, response)) u)
      (hc : (Run.isChallenged proxy response) u = (.ok again, t)) :
      t.context.config = c ∧ t.attempts ≤ s.attempts + 1 := by
    have hp := plain_of_isChallenged hc
    rw [Session.attempts_of_plain hp]
    exact ⟨(Session.config_of_fixed ((Session.fixed_of_plain hp).trans hu.fixed)).trans hconfig,
      hu.attempts_le⟩
  cases h with
  | failed hr =>
    have hcalls := (Once.of_run hr).attempts_le
    refine ⟨(Session.config_of_fixed (Once.of_run hr).fixed).trans hconfig, ?_⟩
    simp only [Opening.Counts] at hhere ⊢
    omega
  | settled hr hc =>
    obtain ⟨ht, hcalls⟩ := hjudged (.of_run hr) hc
    refine ⟨ht, ?_⟩
    simp only [Opening.Counts] at hhere ⊢
    omega
  | spent hr hc =>
    obtain ⟨ht, hcalls⟩ := hjudged (.of_run hr) hc
    refine ⟨ht, ?_⟩
    simp only [Opening.Counts, Session.attempts_of_plain (Session.plain_gaveUp _ _)] at hhere ⊢
    omega
  | unread hr hc =>
    obtain ⟨ht, hcalls⟩ := hjudged (.of_run hr) hc
    refine ⟨ht, ?_⟩
    simp only [Opening.Counts, Session.attempts_recorded] at hhere ⊢
    omega
  | again hr hc hk =>
    obtain ⟨ht, hcalls⟩ := hjudged (.of_run hr) hc
    refine ⟨ht, ?_⟩
    rw [ht] at hk
    simp only [Opening.Counts, Session.attempts_recorded, Config.rounds] at hhere ⊢
    omega

theorem Asked.steps {m n : Opening × Session}
    (h : Relation.ReflTransGen (Ask client route proxy) m n) (hm : Asked c base m) :
    Asked c base n := by
  induction h with
  | refl => exact hm
  | tail _ h ih => exact ih.step h

theorem Ask.rank_lt {m n : Opening × Session} (h : Ask client route proxy m n)
    (hm : Asked c base m) : n.1.rank c < m.1.rank c := by
  obtain ⟨point, s⟩ := m
  have hhere := hm.here
  cases h <;> simp only [Opening.rank, Opening.Counts] at hhere ⊢ <;> omega

theorem Asked.round_le {m : Opening × Session} (hm : Asked c base m) : m.1.round ≤ c.rounds := by
  obtain ⟨point, s⟩ := m
  have hhere := hm.here
  cases point with
  | asking k request => exact hhere.2
  | ended result => exact Nat.zero_le _

theorem Asked.start (request : Request) (s : Session) :
    Asked s.context.config s.attempts (.asking 0 request, s) := by
  refine ⟨rfl, Nat.le_refl _, ?_⟩
  unfold Config.rounds
  omega

end

-- ---------------------------------------------------------------------------
-- The bounds
-- ---------------------------------------------------------------------------

structure Bounds (client : Client) (request : Request) (s : Session) : Prop where
  /-- The loops come to the end of the exchange, and no run of them goes on forever. -/
  ends : ∀ route, (Endpoint.ofUrl? request.url).bind (Route.resolve? client.proxy) = some route →
    Terminates (Step client request) (start s route request) ∧
      ∃ h, Steps client request (start s route request)
        ⟨.ended ((Run.exchange client request) s).1, ((Run.exchange client request) s).2, h⟩
  /-- The counters of the loops stay in their range. -/
  counters : ∀ route, (Endpoint.ofUrl? request.url).bind (Route.resolve? client.proxy) = some route →
    ∀ m, Steps client request (start s route request) m →
      m.point.followed < 2 ^ 32 ∧ m.point.round < 2 ^ 32
  /-- The peer is called at most so often. -/
  total : ((Run.exchange client request) s).2.attempts ≤
    s.attempts + (s.context.config.maxRedirects + 1) * s.context.config.maxRounds
  /-- Without redirects there is one hop, unless there is no way to the target. -/
  oneHop : s.context.config.followsRedirects = false →
    (calls (history (Run.exchange client request) s)).length =
      if ((Endpoint.ofUrl? request.url).bind (Route.resolve? client.proxy)).isSome then 1 else 0
  /-- Without authentication there is one call in each hop, but none where the cookie policy of the
  configuration is not known. -/
  oneCall : s.context.config.authenticates = false →
    (∀ n ∈ calls (history (Run.exchange client request) s), n = 1) ∨
      ∃ earlier name, calls (history (Run.exchange client request) s) = 0 :: earlier ∧
        (∀ n ∈ earlier, n = 1) ∧
        ((Run.exchange client request) s).1 = .error (.unsupportedPolicy name)
  /-- The calls are counted hop by hop. -/
  counted : ((Run.exchange client request) s).2.attempts =
    s.attempts + (calls (history (Run.exchange client request) s)).sum

structure TunnelBounds (client : Client) (proxy target : Endpoint) (s : Session) : Prop where
  /-- The loop comes to its end, and no run of it goes on forever. -/
  ends : ∀ request, Request.connect target.normalized = .ok request →
    let route := Run.tunnelRoute proxy.normalized target.normalized
    let t := s.entered route target.normalized
    let asked := (Run.ask client route proxy.normalized request s.context.config.furtherRounds) t
    Terminates (Ask client route proxy.normalized) (.asking 0 request, t) ∧
      Relation.ReflTransGen (Ask client route proxy.normalized) (.asking 0 request, t)
        (.ended asked.1, asked.2)
  counters : ∀ request, Request.connect target.normalized = .ok request →
    let route := Run.tunnelRoute proxy.normalized target.normalized
    ∀ m, Relation.ReflTransGen (Ask client route proxy.normalized)
        (.asking 0 request, s.entered route target.normalized) m →
      m.1.round < 2 ^ 32
  total : ((Run.tunnel client proxy target) s).2.attempts ≤ s.attempts + s.context.config.maxRounds

theorem sum_le_length_mul {ns : List Nat} {b : Nat} (h : ∀ n ∈ ns, n ≤ b) : ns.sum ≤ ns.length * b := by
  induction ns with
  | nil => exact Nat.zero_le _
  | cons n rest ih =>
    have hn := h n List.mem_cons_self
    have hrest := ih fun k hk => h k (List.mem_cons_of_mem _ hk)
    rw [List.sum_cons, List.length_cons, Nat.succ_mul]
    omega

theorem exchange_calls (client : Client) (request : Request) (s : Session) :
    ((Endpoint.ofUrl? request.url).bind (Route.resolve? client.proxy) = none ∧
        history (Run.exchange client request) s = [] ∧
        ((Run.exchange client request) s).2.attempts = s.attempts) ∨
      ((Endpoint.ofUrl? request.url).bind (Route.resolve? client.proxy)).isSome ∧
        Complete s.context.config ((Run.exchange client request) s).1
          (calls (history (Run.exchange client request) s)) ∧
        ((Run.exchange client request) s).2.attempts =
          s.attempts + (calls (history (Run.exchange client request) s)).sum := by
  obtain ⟨_, hr, hn⟩ | ⟨route, h, hr, hs⟩ := exchange_steps client request s
  · exact .inl ⟨hn, by simp [history, hr], by rw [hr]⟩
  · have hcounted := hs.keeps CountInvariant.step (CountInvariant.start hr)
    have hh : history (Run.exchange client request) s = h := history_eq hs.log
    rw [hh]
    exact .inr ⟨by rw [hr]; rfl, hcounted.here, hcounted.attempts⟩

theorem exchange_bounds (client : Client) (request : Request) (s : Session)
    (hs : s.context.config.Bounded) : Bounds client request s := by
  have hrounds := Config.rounds_eq hs
  have hcalls := exchange_calls client request s
  refine ⟨?_, ?_, ?_, ?_, ?_, ?_⟩
  · intro route hr
    refine ⟨terminates_of_rank (fun m : Moment => m.point.rank s.context.config)
      (fun _ _ h hm => hm.step h) (fun _ _ h hm => h.rank_lt hm) (CountInvariant.start hr), ?_⟩
    obtain ⟨_, _, hn⟩ | ⟨route', h, hr', hsteps⟩ := exchange_steps client request s
    · rw [hr] at hn
      cases hn
    · rw [hr] at hr'
      obtain rfl := Option.some.inj hr'
      exact ⟨h, hsteps⟩
  · intro route hr m hm
    obtain ⟨hf, hround⟩ := Point.counters_le (hm.keeps CountInvariant.step (CountInvariant.start hr)).here
    have hredirects := hs.redirects
    have hbound := hs.rounds
    omega
  · obtain ⟨-, -, ha⟩ | ⟨-, hcomplete, ha⟩ := hcalls
    · omega
    · have hsum := sum_le_length_mul fun n hn =>
        Nat.le_trans (hcomplete.each n hn) s.context.config.callsPerHop_le
      have hhops := Nat.le_trans hcomplete.length s.context.config.hops_le
      rw [ha, ← hrounds]
      exact Nat.add_le_add_left (Nat.le_trans hsum (Nat.mul_le_mul_right _ hhops)) _
  · intro hf
    obtain ⟨hn, hh, -⟩ | ⟨hr, hcomplete, -⟩ := hcalls
    · simp [hn, hh, calls]
    · have hlength := hcomplete.length
      have hbegun := hcomplete.begun
      rw [if_pos hr]
      simp only [Config.hops, hf] at hlength
      simp only [Bool.false_eq_true, if_false] at hlength
      omega
  · intro ha
    obtain ⟨-, hh, -⟩ | ⟨-, hcomplete, -⟩ := hcalls
    · simp [hh, calls]
    · have heach := hcomplete.each
      simp only [Config.callsPerHop, ha, Bool.false_eq_true, if_false] at heach
      rcases hcomplete.empty with hp | ⟨⟨earlier, he, hp⟩, ⟨name, hresult⟩ | ⟨ha', -⟩⟩
      · exact .inl fun n hn => Nat.le_antisymm (heach n hn) (hp n hn)
      · refine .inr ⟨earlier, name, he, ?_, hresult⟩
        intro n hn
        exact Nat.le_antisymm (heach n (by rw [he]; exact List.mem_cons_of_mem _ hn)) (hp n hn)
      · rw [ha] at ha'
        cases ha'
  · obtain ⟨-, hh, ha⟩ | ⟨-, -, ha⟩ := hcalls
    · simp [hh, ha, calls]
    · exact ha

theorem ask_attempts_le (client : Client) (route : Route) (proxy : Endpoint) (request : Request)
    (s : Session) :
    ((Run.ask client route proxy request s.context.config.furtherRounds) s).2.attempts ≤
      s.attempts + s.context.config.rounds := by
  have hsteps := ask_steps client route proxy request s.context.config.furtherRounds 0 s rfl
  exact (Asked.steps hsteps (Asked.start request s)).here

theorem tunnel_bounds (client : Client) (proxy target : Endpoint) (s : Session)
    (hs : s.context.config.Bounded) : TunnelBounds client proxy target s := by
  have hrounds := Config.rounds_eq hs
  have hstart (request : Request) := Asked.start request
    (s.entered (Run.tunnelRoute proxy.normalized target.normalized) target.normalized)
  refine ⟨?_, ?_, ?_⟩
  · intro request _ route t
    refine ⟨?_, ask_steps client route proxy.normalized request _ 0 t rfl⟩
    exact terminates_of_rank (fun m : Opening × Session => m.1.rank s.context.config)
      (fun _ _ h hm => hm.step h) (fun _ _ h hm => h.rank_lt hm) (hstart request)
  · intro request _ route m hm
    have hround := (Asked.steps hm (hstart request)).round_le
    have hbound := hs.rounds
    have hconfig : (s.entered (Run.tunnelRoute proxy.normalized target.normalized)
      target.normalized).context.config = s.context.config := rfl
    rw [hconfig] at hround
    omega
  · rw [Run.tunnel_run]
    cases Request.connect target.normalized with
    | error error => exact Nat.le_add_right _ _
    | ok request =>
      have hle := ask_attempts_le client (Run.tunnelRoute proxy.normalized target.normalized)
        proxy.normalized request
        (s.entered (Run.tunnelRoute proxy.normalized target.normalized) target.normalized)
      have hconfig : (s.entered (Run.tunnelRoute proxy.normalized target.normalized)
        target.normalized).context.config = s.context.config := rfl
      rw [hconfig, hrounds] at hle
      simp only
      generalize (Run.ask client (Run.tunnelRoute proxy.normalized target.normalized) proxy.normalized
        request s.context.config.furtherRounds)
          (s.entered (Run.tunnelRoute proxy.normalized target.normalized) target.normalized) = outcome
        at hle ⊢
      obtain ⟨error | response, t⟩ := outcome
      · exact hle
      · simp only
        split <;> exact hle

/-- The loops of an exchange and of the opening of a tunnel end whatever the peer replies, after at most
so many calls as the configuration allows, and their counters stay in range. -/
theorem loops_bounded (client : Client) (request : Request) (s : Session)
    (hs : s.context.config.Bounded) :
    Bounds client request s ∧ ∀ proxy target, TunnelBounds client proxy target s :=
  ⟨exchange_bounds client request s hs, fun proxy target => tunnel_bounds client proxy target s hs⟩

def redirectingPeer : Client where
  peer _ := .response 302 [(HeaderName.location, Utf8.encode "/")] none

theorem loops_bounded_redirectingPeer :
    (Session.opened {} []).context.config.Bounded ∧
      Bounds redirectingPeer (.to "http" "a") (.opened {} []) ∧
      ∀ proxy target, TunnelBounds redirectingPeer proxy target (.opened {} []) :=
  ⟨Config.bounded_default, loops_bounded _ _ _ Config.bounded_default⟩

end Exchange

end HttpSession
