import HttpSession.Auth.State
import HttpSession.Proofs.Auth.Coherence

/-!
# Records of negotiations

A record with three optional fields could hold a scheme without credentials, or options beside a scheme.
The record of a negotiation (`state`) does not, and every operation on it agrees with the operation on the
negotiation (`state_hear`, `state_react`, `state_answer`).

Main statements: after any acts a record is that of the negotiation to which the same acts were applied,
and every next operation has the same result on both (`acts_refine`); so no record that is reached holds a
scheme without credentials, or options beside a scheme (`recorded_paired`).
-/

namespace HttpSession.Auth

theorem Scheme.lower_name (scheme : Scheme) : scheme.name.lower = scheme.name := by
  cases scheme <;> rfl

namespace Negotiation

def state (n : Negotiation) : State := ⟨n.phase, n.scheme?, n.credentials?, n.pending?⟩

theorem state_injective : Function.Injective state := by
  rintro ⟨phase, holding⟩ ⟨phase', holding'⟩ h
  obtain ⟨rfl, hscheme, hcredentials, hoptions⟩ := State.mk.inj h
  congr 1
  cases holding with
  | idle =>
    cases holding' with
    | idle => rfl
    | active candidate => nomatch hscheme
    | pending candidates => nomatch hoptions
  | active candidate =>
    cases holding' with
    | idle => nomatch hscheme
    | active candidate' =>
      obtain ⟨scheme, credentials⟩ := candidate
      obtain rfl : scheme = candidate'.scheme := Option.some.inj hscheme
      obtain rfl : credentials = candidate'.credentials := Option.some.inj hcredentials
      rfl
    | pending candidates => nomatch hscheme
  | pending candidates =>
    cases holding' with
    | idle => nomatch hoptions
    | active candidate => nomatch hoptions
    | pending candidates' => rw [Option.some.inj hoptions]

variable {n : Negotiation} {env : Env} {cs : List Challenge} {h : Headers} {request : Request}
  {now : Instant} {draws : Draws}

-- ---------------------------------------------------------------------------
-- Responses
-- ---------------------------------------------------------------------------

theorem state_hear (n : Negotiation) (side : Side) (status : Nat) : n.state.hear side status =
    ((n.hear side status).1, (n.hear side status).2.1.state, (n.hear side status).2.2) := by
  obtain ⟨phase, holding⟩ := n
  unfold State.hear Negotiation.hear
  split
  · rfl
  · cases phase <;> rfl

theorem state_choose (n : Negotiation) (env : Env) (cs : List Challenge) :
    (n.state.choose env cs).settled =
      ((n.choose env cs).1, (n.choose env cs).2.1.state, (n.choose env cs).2.2) := by
  unfold State.choose Negotiation.choose
  cases env.strategy.select env.host env.preferred cs <;> rfl

theorem state_takeUp (n : Negotiation) (env : Env) (cs : List Challenge) :
    (n.state.takeUp env cs).settled =
      ((n.takeUp env cs).1, (n.takeUp env cs).2.1.state, (n.takeUp env cs).2.2) := by
  obtain ⟨phase, holding⟩ := n
  cases holding with
  | idle => exact state_choose _ env cs
  | pending candidates => exact state_choose _ env cs
  | active candidate =>
    simp only [State.takeUp, Negotiation.takeUp, state, scheme?, active?, Option.map_some,
      Scheme.lower_name]
    cases Strategy.challengeOf? cs candidate.scheme.name with
    | none => exact state_choose {} env cs
    | some c =>
      simp only [proceed]
      rcases candidate.scheme.take c with ⟨_ | _, scheme⟩
      · rfl
      · simp only
        split <;> rfl

theorem state_react (n : Negotiation) (env : Env) (h : Headers) : n.state.react env h =
    ((n.react env h).1, (n.react env h).2.1.state, (n.react env h).2.2) := by
  unfold State.react State.process Negotiation.react
  cases env.strategy.challenges h with
  | error fault => rfl
  | ok challenges =>
    cases challenges with
    | nil => rfl
    | cons c rest =>
      obtain ⟨phase, holding⟩ := n
      have hunderway := state_takeUp ⟨phase, holding⟩ env (c :: rest)
      cases phase with
      | failure => rfl
      | success => exact state_takeUp {} env (c :: rest)
      | unchallenged => exact hunderway
      | challenged => cases holding <;> first | rfl | exact hunderway
      | handshake => cases holding <;> first | rfl | exact hunderway

-- ---------------------------------------------------------------------------
-- Requests
-- ---------------------------------------------------------------------------

-- Each candidate that is taken becomes active, so what was held before the first does not matter.
theorem state_answerFirst (phase : Phase) (held : Holding) (candidates : List Candidate) (draws : Draws) :
    (state ⟨phase, held⟩).answerFirst request now candidates draws =
      let (answer, holding, draws) := answerFirst request now held candidates draws
      (.ok answer, state ⟨phase, holding⟩, draws) := by
  induction candidates generalizing held draws with
  | nil => rfl
  | cons candidate rest ih =>
    simp only [State.answerFirst, answerFirst]
    rcases candidate.scheme.answer candidate.credentials request now draws with ⟨_ | _, scheme, draws⟩
    · exact ih (.active { candidate with scheme }) draws
    · rfl

theorem state_answer (n : Negotiation) (request : Request) (now : Instant) (draws : Draws) :
    n.state.answer request now draws = ((n.answer request now draws).answer,
      (n.answer request now draws).negotiation.state, (n.answer request now draws).draws) := by
  obtain ⟨phase, holding⟩ := n
  cases phase with
  | failure => rfl
  | success =>
    cases holding with
    | active candidate =>
      unfold State.answer Negotiation.answer
      simp only [state, scheme?, active?, Option.map_some]
      split <;> rfl
    | idle => rfl
    | pending candidates => rfl
  | challenged =>
    cases holding with
    | pending candidates => exact state_answerFirst .challenged .idle candidates draws
    | idle => rfl
    | active candidate => rfl
  | unchallenged => cases holding <;> rfl
  | handshake => cases holding <;> rfl

-- ---------------------------------------------------------------------------
-- Runs
-- ---------------------------------------------------------------------------

def Act.applyState (s : State) : Act → State
  | .hear side status => (s.hear side status).2.1
  | .react env h => (s.react env h).2.1
  | .answer request now draws => (s.answer request now draws).2.1
  | .reset => s.reset

theorem state_apply (n : Negotiation) (act : Act) : act.applyState n.state = (act.apply n).state := by
  cases act with
  | hear side status => rw [Act.applyState, state_hear, Act.apply]
  | react env h => rw [Act.applyState, state_react, Act.apply]
  | answer request now draws => rw [Act.applyState, state_answer, Act.apply]
  | reset => rfl

def recorded (acts : List Act) : State := acts.foldl Act.applyState {}

theorem recorded_eq (acts : List Act) : recorded acts = (after acts).state := by
  induction acts using List.reverseRecOn with
  | nil => rfl
  | append_singleton acts act ih =>
    calc recorded (acts ++ [act])
      _ = act.applyState (recorded acts) := by simp [recorded, List.foldl_append]
      _ = (act.apply (after acts)).state := by rw [ih, state_apply]
      _ = (after (acts ++ [act])).state := by rw [after_concat]

theorem acts_refine (acts : List Act) : recorded acts = (after acts).state ∧
    (∀ side status, (recorded acts).hear side status =
      (((after acts).hear side status).1, ((after acts).hear side status).2.1.state,
        ((after acts).hear side status).2.2)) ∧
    (∀ env h, (recorded acts).react env h =
      (((after acts).react env h).1, ((after acts).react env h).2.1.state,
        ((after acts).react env h).2.2)) ∧
    ∀ request now draws, (recorded acts).answer request now draws =
      (((after acts).answer request now draws).answer,
        ((after acts).answer request now draws).negotiation.state,
        ((after acts).answer request now draws).draws) := by
  rw [recorded_eq]
  exact ⟨rfl, state_hear _, state_react _, state_answer _⟩

theorem recorded_paired (acts : List Act) :
    ((recorded acts).scheme.isSome ↔ (recorded acts).credentials.isSome) ∧
      ((recorded acts).options.isSome → (recorded acts).scheme = none) := by
  rw [recorded_eq]
  rcases after acts with ⟨phase, _ | candidate | candidates⟩
  · exact ⟨.rfl, nofun⟩
  · exact ⟨.rfl, nofun⟩
  · exact ⟨.rfl, fun _ => rfl⟩

end Negotiation

end HttpSession.Auth
