import HttpSession.Auth.Negotiation

/-!
# What a negotiation holds in each phase

A negotiation that is asked for an answer before the next response is heard has narrowed its candidates
down to an active one by the time a success is noted: it is `Settled`. If a response is heard while
candidates are pending, it becomes `SuccessPending`: its phase is success, no scheme is active, and it has
no answer.

Main statements: a `Ready` negotiation answers and is settled afterwards (`Ready.answer`); a
`SuccessPending` one fails to answer (`SuccessPending.answer`); the lemmas on `hear` and `react` give the
effect of each kind of response on these conditions.
-/

namespace HttpSession.Auth.Negotiation

-- ---------------------------------------------------------------------------
-- Conditions on a negotiation
-- ---------------------------------------------------------------------------

/-- Nothing is held in the phases before a challenge and after a failure, and one active candidate in all
others. -/
def Settled (n : Negotiation) : Prop :=
  match n.phase with
  | .unchallenged | .failure => n.holding = .idle
  | .challenged | .handshake | .success => ∃ candidate, n.holding = .active candidate

def Pending (n : Negotiation) : Prop :=
  n.phase = .challenged ∧ ∃ candidate rest, n.holding = .pending (candidate :: rest)

def Ready (n : Negotiation) : Prop := n.Settled ∨ n.Pending

def Quiescent (n : Negotiation) : Prop := n = {} ∨ ∃ candidate, n = ⟨.success, .active candidate⟩

/-- A success was noted while candidates were pending. -/
def SuccessPending (n : Negotiation) : Prop :=
  n.phase = .success ∧ ∃ candidates, n.holding = .pending candidates

variable {n : Negotiation} {side : Side} {status : Nat} {env : Env} {h : Headers}
  {cs : List Challenge} {request : Request} {now : Instant} {draws : Draws}

theorem Quiescent.settled (hn : n.Quiescent) : n.Settled := by
  rcases hn with rfl | ⟨candidate, rfl⟩
  · exact rfl
  · exact ⟨candidate, rfl⟩

theorem quiescent_empty : Quiescent {} := .inl rfl

theorem settled_empty : Settled {} := rfl

theorem settled_failed : Settled failed := rfl

theorem SuccessPending.isConnectionBased (hn : n.SuccessPending) : n.isConnectionBased = false := by
  obtain ⟨-, candidates, hh⟩ := hn
  simp [Negotiation.isConnectionBased, scheme?, active?, hh]

-- ---------------------------------------------------------------------------
-- Answers
-- ---------------------------------------------------------------------------

theorem answerFirst_active (held : Holding) (candidate : Candidate) (rest : List Candidate) :
    ∃ active, (answerFirst request now held (candidate :: rest) draws).2.1 = .active active := by
  induction rest generalizing candidate held draws with
  | nil =>
    unfold answerFirst
    split
    · exact ⟨_, rfl⟩
    · exact ⟨_, rfl⟩
  | cons next rest ih =>
    unfold answerFirst
    split
    · exact ⟨_, rfl⟩
    · exact ih _ _

theorem Ready.answer (hn : n.Ready) :
    (n.answer request now draws).negotiation.Settled ∧
      ∀ fault, (n.answer request now draws).answer ≠ .error fault := by
  obtain ⟨phase, holding⟩ := n
  rcases hn with hn | ⟨hp, candidate, rest, hh⟩
  · cases phase with
    | unchallenged =>
      obtain rfl : holding = .idle := hn
      exact ⟨rfl, nofun⟩
    | failure =>
      obtain rfl : holding = .idle := hn
      exact ⟨rfl, nofun⟩
    | challenged =>
      obtain ⟨candidate, rfl⟩ : ∃ candidate, holding = .active candidate := hn
      exact ⟨⟨_, rfl⟩, nofun⟩
    | handshake =>
      obtain ⟨candidate, rfl⟩ : ∃ candidate, holding = .active candidate := hn
      exact ⟨⟨_, rfl⟩, nofun⟩
    | success =>
      obtain ⟨candidate, rfl⟩ : ∃ candidate, holding = .active candidate := hn
      by_cases hc : candidate.scheme.isConnectionBased = true
      · simp only [Negotiation.answer, hc, if_true]
        exact ⟨⟨_, rfl⟩, nofun⟩
      · simp only [Negotiation.answer, hc]
        exact ⟨⟨_, rfl⟩, nofun⟩
  · obtain rfl : phase = .challenged := hp
    obtain rfl : holding = .pending (candidate :: rest) := hh
    exact ⟨answerFirst_active .idle candidate rest, nofun⟩

/-- With candidates pending after a success there is no scheme to answer with. -/
theorem SuccessPending.answer (hn : n.SuccessPending) :
    (n.answer request now draws).answer = .error .noScheme ∧
      (n.answer request now draws).negotiation = n := by
  obtain ⟨phase, holding⟩ := n
  obtain ⟨hp, candidates, hh⟩ := hn
  obtain rfl : phase = .success := hp
  obtain rfl : holding = .pending candidates := hh
  exact ⟨rfl, rfl⟩

-- ---------------------------------------------------------------------------
-- Responses heard
-- ---------------------------------------------------------------------------

theorem hear_asking (hs : status = side.status) : (n.hear side status).2.1 = n := by
  unfold hear
  rw [if_pos hs]

theorem Settled.hear (hn : n.Settled) (hs : status ≠ side.status) : (n.hear side status).2.1.Quiescent := by
  obtain ⟨phase, holding⟩ := n
  unfold Negotiation.hear
  rw [if_neg hs]
  cases phase with
  | unchallenged =>
    obtain rfl : holding = .idle := hn
    exact .inl rfl
  | failure =>
    obtain rfl : holding = .idle := hn
    exact .inl rfl
  | challenged =>
    obtain ⟨candidate, rfl⟩ : ∃ candidate, holding = .active candidate := hn
    exact .inr ⟨candidate, rfl⟩
  | handshake =>
    obtain ⟨candidate, rfl⟩ : ∃ candidate, holding = .active candidate := hn
    exact .inr ⟨candidate, rfl⟩
  | success =>
    obtain ⟨candidate, rfl⟩ : ∃ candidate, holding = .active candidate := hn
    exact .inr ⟨candidate, rfl⟩

/-- Candidates that are pending when a response asks for nothing stay pending after the success. -/
theorem Pending.hear (hn : n.Pending) (hs : status ≠ side.status) :
    (n.hear side status).2.1.SuccessPending := by
  obtain ⟨phase, holding⟩ := n
  obtain ⟨hp, candidate, rest, hh⟩ := hn
  obtain rfl : phase = .challenged := hp
  unfold Negotiation.hear
  rw [if_neg hs]
  exact ⟨rfl, _, hh⟩

theorem SuccessPending.hear (hn : n.SuccessPending) (hs : status ≠ side.status) :
    (n.hear side status).2.1.SuccessPending := by
  obtain ⟨phase, holding⟩ := n
  obtain ⟨hp, hh⟩ := hn
  obtain rfl : phase = .success := hp
  unfold Negotiation.hear
  rw [if_neg hs]
  exact ⟨rfl, hh⟩

-- ---------------------------------------------------------------------------
-- Challenges taken up
-- ---------------------------------------------------------------------------

theorem choose_pending (n : Negotiation) (env : Env) (cs : List Challenge) :
    ((n.choose env cs).1 = true ∧ (n.choose env cs).2.1.Pending) ∨
      ((n.choose env cs).1 = false ∧ (n.choose env cs).2.1 = n) := by
  unfold choose
  split
  · exact .inr ⟨rfl, rfl⟩
  · rename_i hne
    refine .inl ⟨rfl, rfl, ?_⟩
    cases hc : env.strategy.select env.host env.preferred cs with
    | nil => exact absurd hc hne
    | cons candidate rest => exact ⟨candidate, rest, rfl⟩

theorem proceed_settled (candidate : Candidate) (c : Challenge) :
    (proceed candidate c).2.1.Settled := by
  unfold proceed
  split
  · exact settled_empty
  · split
    · exact settled_failed
    · exact ⟨_, rfl⟩

theorem Settled.takeUp (hn : n.Settled) :
    (n.takeUp env cs).2.1.Ready ∧
      ((n.takeUp env cs).1 = false → (n.takeUp env cs).2.1.Settled) := by
  have hchoose (m : Negotiation) (hm : m.Settled) : (m.choose env cs).2.1.Ready ∧
      ((m.choose env cs).1 = false → (m.choose env cs).2.1.Settled) := by
    rcases choose_pending m env cs with ⟨ha, hp⟩ | ⟨-, he⟩
    · exact ⟨.inr hp, fun hf => by rw [ha] at hf; cases hf⟩
    · rw [he]
      exact ⟨.inl hm, fun _ => hm⟩
  unfold Negotiation.takeUp
  cases n.active? with
  | none => exact hchoose n hn
  | some candidate =>
    cases hc : Strategy.challengeOf? cs candidate.scheme.name with
    | none =>
      simp only [hc]
      exact hchoose {} settled_empty
    | some c =>
      simp only [hc]
      exact ⟨.inl (proceed_settled candidate c), fun _ => proceed_settled candidate c⟩

/-- A settled negotiation is ready after the challenges of a response, and still settled if it does not take
them up. -/
theorem Settled.react (hn : n.Settled) :
    (n.react env h).2.1.Ready ∧
      ((n.react env h).1 = false → (n.react env h).2.1.Settled) := by
  unfold Negotiation.react
  split
  · exact ⟨.inl settled_empty, fun _ => settled_empty⟩
  · exact ⟨.inl hn, fun _ => hn⟩
  · split
    · exact ⟨.inl hn, fun _ => hn⟩
    · exact settled_empty.takeUp
    · split
      · exact ⟨.inl settled_failed, fun _ => settled_failed⟩
      · exact hn.takeUp
    · split
      · exact ⟨.inl settled_failed, fun _ => settled_failed⟩
      · exact hn.takeUp
    · exact hn.takeUp

theorem takeUp_empty (env : Env) (cs : List Challenge) : takeUp {} env cs = choose {} env cs := rfl

/-- A new negotiation takes challenges up exactly if there are candidates. -/
theorem react_empty_iff : (react {} env h).1 = true ↔ ∃ cs, env.strategy.challenges h = .ok cs ∧
    env.strategy.select env.host env.preferred cs ≠ [] := by
  have hselect : env.strategy.select env.host env.preferred [] = [] := by
    simp [Strategy.select, Strategy.challengeOf?]
  have hchoose (cs : List Challenge) : (choose {} env cs).1 = true ↔
      env.strategy.select env.host env.preferred cs ≠ [] := by
    unfold choose
    split <;> simp_all
  unfold Negotiation.react
  cases env.strategy.challenges h with
  | error fault => simp
  | ok cs =>
    cases cs with
    | nil => simp [hselect]
    | cons c rest => simp [takeUp_empty, hchoose]

/-- A negotiation that was never challenged, or that had succeeded, chooses anew when it takes challenges
up. -/
theorem pending_of_react (hn : n.Quiescent ∨ n.SuccessPending) (ha : (n.react env h).1 = true) :
    (n.react env h).2.1.Pending := by
  have hempty (cs : List Challenge) (hc : (takeUp {} env cs).1 = true) :
      (takeUp {} env cs).2.1.Pending := by
    rcases choose_pending {} env cs with ⟨-, hp⟩ | ⟨hf, -⟩
    · exact hp
    · have hc' : (choose {} env cs).1 = true := hc
      rw [hf] at hc'
      cases hc'
  have hphase : n = {} ∨ n.phase = .success := by
    rcases hn with (rfl | ⟨candidate, rfl⟩) | ⟨hp, -⟩
    · exact .inl rfl
    · exact .inr rfl
    · exact .inr hp
  unfold react at ha ⊢
  cases hcs : env.strategy.challenges h with
  | error fault =>
    rw [hcs] at ha
    cases ha
  | ok challenges =>
    rw [hcs] at ha
    cases challenges with
    | nil => cases ha
    | cons c rest =>
      rcases hphase with rfl | hp
      · exact hempty _ ha
      · simp only [hp] at ha ⊢
        exact hempty _ ha

/-- A negotiation that was not asked for an answer since its challenge gives up at the next one. -/
theorem Pending.react (hn : n.Pending) :
    (n.react env h).1 = false ∧ (n.react env h).2.1.Ready := by
  obtain ⟨phase, holding⟩ := n
  obtain ⟨hp, candidate, rest, hh⟩ := hn
  obtain rfl : phase = .challenged := hp
  obtain rfl : holding = .pending (candidate :: rest) := hh
  unfold Negotiation.react
  split
  · exact ⟨rfl, .inl settled_empty⟩
  · exact ⟨rfl, .inr ⟨rfl, candidate, rest, rfl⟩⟩
  · exact ⟨rfl, .inl settled_failed⟩

/-- After challenges a negotiation is no longer `SuccessPending`; without any it is unchanged. -/
theorem SuccessPending.react (hn : n.SuccessPending) :
    (n.react env h).2.1.Ready ∨ (n.react env h).2.1 = n := by
  obtain ⟨phase, holding⟩ := n
  obtain ⟨hp, -⟩ := hn
  obtain rfl : phase = .success := hp
  unfold Negotiation.react
  split
  · exact .inl (.inl settled_empty)
  · exact .inr rfl
  · exact .inl settled_empty.takeUp.1

end HttpSession.Auth.Negotiation
