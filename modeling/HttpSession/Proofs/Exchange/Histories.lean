import HttpSession.Proofs.Exchange.Steps

/-!
# Histories

What an activity recorded, the latest first, so that what came before an event is the rest of the list.
Most of what is said of an exchange is said of each attempt and of what came before it. Reading or dropping
a body is recorded too, and hardly anything depends on it.

Main statement: what every step keeps holds of the history of the exchange (`exchange_keeps`).
-/

namespace HttpSession.Exchange

/-- What an activity records, the latest first. -/
def history {α : Type} (run : Run α) (s : Session) : List Event :=
  ((run s).2.log.drop s.log.length).reverse

theorem history_eq {α : Type} {run : Run α} {s : Session} {h : List Event}
    (hl : (run s).2.log = s.log ++ h.reverse) : history run s = h := by
  simp [history, hl]

-- ---------------------------------------------------------------------------
-- Bodies
-- ---------------------------------------------------------------------------

section
variable {events h : List Event}

/-- What bodies do not change one by one, all of them together do not change. -/
theorem eq_append_of_isOfBody {α : Type} {f : List Event → α}
    (hf : ∀ event h, event.isOfBody = true → f (event :: h) = f h)
    (he : ∀ event ∈ events, event.isOfBody = true) : f (events ++ h) = f h := by
  induction events with
  | nil => rfl
  | cons event rest ih =>
    exact (hf event _ (he event List.mem_cons_self)).trans
      (ih fun other ho => he other (List.mem_cons_of_mem _ ho))

end

-- ---------------------------------------------------------------------------
-- Responses received
-- ---------------------------------------------------------------------------

def lastReceived? : List Event → Option Response
  | [] => none
  | .received _ r :: _ => some r
  | _ :: earlier => lastReceived? earlier

theorem lastReceived?_append {events h : List Event} (he : ∀ event ∈ events, event.isOfBody = true) :
    lastReceived? (events ++ h) = lastReceived? h := by
  refine eq_append_of_isOfBody (fun event h hb => ?_) he
  cases event <;> first | rfl | cases hb

theorem mem_of_lastReceived? {h : List Event} {r : Response} (hr : lastReceived? h = some r) :
    ∃ n, .received n r ∈ h := by
  induction h with
  | nil => cases hr
  | cons event rest ih =>
    cases event with
    | received n other =>
      obtain rfl := Option.some.inj hr
      exact ⟨n, List.mem_cons_self⟩
    | _ => exact (ih hr).imp fun _ hm => List.mem_cons_of_mem _ hm

def Receives (P : Response → Prop) (h : List Event) : Prop := ∀ n r, .received n r ∈ h → P r

section
variable {P : Response → Prop} {events h : List Event} {event : Event}

theorem receives_nil : Receives P [] := nofun

theorem Receives.cons (hh : Receives P h) (he : ∀ n r, event = .received n r → P r) :
    Receives P (event :: h) := by
  intro n r hm
  rcases List.mem_cons.mp hm with heq | hm
  · exact he n r heq.symm
  · exact hh n r hm

theorem mem_of_received_mem_append (he : ∀ event ∈ events, event.isOfBody = true) {n : Nat} {r : Response}
    (hm : .received n r ∈ events ++ h) : .received n r ∈ h := by
  rcases List.mem_append.mp hm with hm | hm
  · cases he _ hm
  · exact hm

theorem Receives.append (hh : Receives P h) (he : ∀ event ∈ events, event.isOfBody = true) :
    Receives P (events ++ h) :=
  fun n r hm => hh n r (mem_of_received_mem_append he hm)

end

-- ---------------------------------------------------------------------------
-- Attempts sent
-- ---------------------------------------------------------------------------

/-- Whether each attempt sent is one that may follow what was recorded before it. -/
def Sends (P : List Event → Attempt → Prop) (h : List Event) : Prop :=
  ∀ later a earlier, h = later ++ .sent a :: earlier → P earlier a

section
variable {P : List Event → Attempt → Prop} {events h : List Event} {event : Event}

theorem sends_nil : Sends P [] := by
  intro later a earlier he
  simp at he

theorem Sends.cons (hs : Sends P h) (he : ∀ a, event = .sent a → P h a) : Sends P (event :: h) := by
  intro later a earlier heq
  cases later with
  | nil =>
    obtain ⟨rfl, rfl⟩ := List.cons.inj heq
    exact he a rfl
  | cons _ later =>
    obtain ⟨-, rfl⟩ := List.cons.inj heq
    exact hs later a earlier rfl

theorem Sends.of_mem {Q : Attempt → Prop} (hs : Sends (fun _ a => Q a) h) {a : Attempt}
    (ha : .sent a ∈ h) : Q a := by
  obtain ⟨later, earlier, he⟩ := List.append_of_mem ha
  exact hs later a earlier he

theorem Sends.mono {Q : List Event → Attempt → Prop} (hs : Sends P h)
    (hpq : ∀ earlier a, P earlier a → Q earlier a) : Sends Q h :=
  fun later a earlier heq => hpq earlier a (hs later a earlier heq)

/-- What happens behind a history is judged with that history before it. -/
theorem Sends.behind (hs : Sends P h) (he : Sends (fun earlier a => P (earlier ++ h) a) events) :
    Sends P (events ++ h) := by
  induction events with
  | nil => exact hs
  | cons event rest ih =>
    have hrest : Sends (fun earlier a => P (earlier ++ h) a) rest := by
      intro later a earlier heq
      exact he (event :: later) a earlier (by rw [heq]; rfl)
    refine (ih hrest).cons ?_
    rintro a rfl
    exact he [] a rest rfl

theorem sends_of_isOfBody (he : ∀ event ∈ events, event.isOfBody = true) : Sends P events := by
  intro later a earlier heq
  cases he (.sent a) (by simp [heq])

theorem Sends.append (hs : Sends P h) (he : ∀ event ∈ events, event.isOfBody = true) :
    Sends P (events ++ h) :=
  hs.behind (sends_of_isOfBody he)

/-- Only the attempt that waits for a reply is sent by a step. -/
theorem Step.sends {client : Client} {first : Request} {m n : Moment} (h : Step client first m n)
    (hs : Sends P m.history) (hw : ∀ leg k a, m.point = .waiting leg k a → P m.history a) :
    Sends P n.history := by
  cases h with
  | stray => exact hs.cons (by simp)
  | enter => exact hs.cons (by simp)
  | unprepared => exact hs
  | prepared => exact hs
  | unreceived =>
    refine hs.cons ?_
    rintro a ⟨rfl⟩
    exact hw _ _ _ rfl
  | received =>
    refine Sends.cons (Sends.cons (hs.cons ?_) (by simp)) (by simp)
    rintro a ⟨rfl⟩
    exact hw _ _ _ rfl
  | settled => exact hs
  | spent => exact hs
  | unread => exact hs.append fun _ => Response.isOfBody_of_mem_reading
  | again => exact hs.append fun _ => Response.isOfBody_of_mem_reading
  | final => exact hs
  | limit => exact hs.append fun _ => Response.isOfBody_of_mem_releasing
  | unfollowable => exact hs.append fun _ => Response.isOfBody_of_mem_releasing
  | stuck => exact hs.append fun _ => Response.isOfBody_of_mem_reading
  | onward => exact hs.append fun _ => Response.isOfBody_of_mem_reading

end

-- ---------------------------------------------------------------------------
-- Exchanges
-- ---------------------------------------------------------------------------

/-- The history of an exchange is what its session has recorded behind what was recorded before. -/
theorem log_exchange (client : Client) (request : Request) (s : Session) :
    ((Run.exchange client request) s).2.log =
      s.log ++ (history (Run.exchange client request) s).reverse := by
  obtain ⟨_, hr, -⟩ | ⟨route, h, -, hs⟩ := exchange_steps client request s
  · simp [history, hr]
  · have ht : ((Run.exchange client request) s).2.log = s.log ++ h.reverse := hs.log
    rw [history_eq ht, ht]

/-- What holds when an exchange begins and is kept by every step holds at its end. -/
theorem exchange_keeps {client : Client} {request : Request} {s : Session} {I : Moment → Prop}
    {P : Except ExchangeError Response × Session → List Event → Prop}
    (hnone : ∀ violation, (Endpoint.ofUrl? request.url).bind (Route.resolve? client.proxy) = none →
      P (.error (.protocol violation), s) [])
    (hstart : ∀ route, (Endpoint.ofUrl? request.url).bind (Route.resolve? client.proxy) = some route →
      I (start s route request))
    (hstep : ∀ {m n}, Step client request m n → I m → I n)
    (hend : ∀ {result t h}, I ⟨.ended result, t, h⟩ → P (result, t) h) :
    P ((Run.exchange client request) s) (history (Run.exchange client request) s) := by
  obtain ⟨violation, hr, hn⟩ | ⟨route, h, hr, hs⟩ := exchange_steps client request s
  · have hh : history (Run.exchange client request) s = [] := by simp [history, hr]
    rw [hh, hr]
    exact hnone violation hn
  · rw [history_eq hs.log]
    exact hend (hs.keeps hstep (hstart route hr))

end HttpSession.Exchange
