import HttpSession.Proofs.Auth.NegotiationLaws
import HttpSession.Proofs.Auth.PhaseLaws

/-!
# Repeated challenges

Some challenges say that the negotiation goes on: a stale nonce, or a token. Any other challenge is a
refusal when it is repeated (`IsFinal`), for each scheme that took a challenge before, whatever happened
to the scheme in between. A negotiation whose candidates were chosen from challenges finds the scheme that
it answered with among them again.

Main statement: a negotiation that has chosen candidates does not take up the same challenges once more,
whether it was asked for an answer or not (`Chosen.gives_up`).
-/

namespace HttpSession.Auth

-- ---------------------------------------------------------------------------
-- Schemes
-- ---------------------------------------------------------------------------

/-- Whether a challenge, if it comes again, is a refusal: it speaks of no stale nonce and brings no
token. -/
def Challenge.IsFinal (c : Challenge) : Prop :=
  (c.scheme = "digest" → (c.param? "stale").any (Text.sameLetters "true") = false) ∧
    (c.scheme = "ntlm" → c.token = none)

instance : DecidablePred Challenge.IsFinal := fun _ => inferInstanceAs (Decidable (_ ∧ _))

namespace Scheme

variable {s : Scheme} {c : Challenge} {credentials : Credentials} {request : Request} {now : Instant}
  {draws : Draws}

/-- Whether a scheme took a challenge at some time. -/
def Begun : Scheme → Prop
  | .ntlm n => n.stage ≠ .uninitiated
  | .basic _ | .digest _ => True

theorem begun_take (h : (s.take c).1 = .ok ()) : (s.take c).2.Begun := by
  cases s with
  | basic => trivial
  | digest d =>
    simp only [take]
    split <;> trivial
  | ntlm n =>
    simp only [take, Ntlm.take] at h ⊢
    split
    · show Ntlm.askedStage n.stage ≠ .uninitiated
      cases n.stage <;> simp [Ntlm.askedStage]
    · split
      · show Stage.type2Received ≠ .uninitiated
        simp
      · cases hs : n.stage <;> simp_all [Ntlm.lateStage, Begun]

theorem Begun.answer (h : s.Begun) : (s.answer credentials request now draws).2.1.Begun := by
  cases s with
  | basic => trivial
  | digest d => trivial
  | ntlm n =>
    have hrestart : n.restart.stage ≠ .uninitiated := by
      unfold Ntlm.restart
      split
      · simp
      · exact h
    show ((n.answer Ntlm.version2 credentials now draws).2.1).stage ≠ .uninitiated
    unfold Ntlm.answer
    split
    · exact h
    · unfold Ntlm.send
      split
      · exact hrestart
      · split
        · exact hrestart
        · simp
      · split
        · exact hrestart
        · simp
      · exact hrestart

end Scheme

theorem Negotiation.proceed_final {candidate : Candidate} {c : Challenge}
    (hbegun : candidate.scheme.Begun) (hname : c.scheme = candidate.scheme.name) (hc : c.IsFinal) :
    (Negotiation.proceed candidate c).1 = false := by
  have hcomplete : (candidate.scheme.take c).1 = .ok () →
      (candidate.scheme.take c).2.isComplete = true := by
    cases hs : candidate.scheme with
    | basic => exact fun _ => rfl
    | digest d =>
      rw [hs] at hname
      have hstale := hc.1 hname
      have hlower : Text.lower "stale" = "stale" := by decide
      rw [Challenge.param?, hlower] at hstale
      by_cases hp : c.params = []
      · simp [Scheme.take, Digest.take, hp]
      · simp only [Scheme.take, Digest.take, hp, if_false, Scheme.isComplete, Digest.isComplete,
          Digest.isStale, Digest.param?, hstale]
        exact fun _ => rfl
    | ntlm n =>
      rw [hs] at hname hbegun
      have htoken := hc.2 hname
      have hstage : n.stage ≠ .uninitiated := hbegun
      intro _
      simp only [Scheme.take, Ntlm.take, htoken]
      cases hn : n.stage <;> simp_all [Scheme.isComplete, Ntlm.isComplete, Ntlm.askedStage]
  unfold Negotiation.proceed
  split
  · rfl
  · rename_i scheme htake
    rw [htake] at hcomplete
    rw [if_pos (hcomplete rfl)]

-- ---------------------------------------------------------------------------
-- Negotiations
-- ---------------------------------------------------------------------------

theorem Strategy.select_begun {s : Strategy} {limits : Ntlm.Limits} {host : Endpoint}
    {preferred : Option (List Text)} {h : Headers} {cs : List Challenge} {candidate : Candidate}
    (hs : s.schemes = (Schemes.known limits : Registry)) (hcs : s.challenges h = .ok cs)
    (hm : candidate ∈ s.select host preferred cs) :
    candidate.scheme.Begun ∧ ∃ c ∈ cs, candidate.scheme.name = c.scheme := by
  obtain ⟨c, -, hcandidate⟩ := mem_select hm
  obtain ⟨scheme, -, htaken, hscheme, -⟩ := candidate?_some hcandidate
  obtain ⟨c', hc', -, hname, -⟩ := select_known hs hcs hm
  refine ⟨?_, c', hc', hname⟩
  rw [hscheme]
  exact Scheme.begun_take htaken

namespace Negotiation

def TookOneOf (cs : List Challenge) (c : Candidate) : Prop :=
  c.scheme.Begun ∧ ∃ challenge ∈ cs, c.scheme.name = challenge.scheme

/-- Whether candidates were chosen from some challenges, and none was asked for an answer so far. -/
structure Chosen (cs : List Challenge) (n : Negotiation) : Prop where
  pending : n.Pending
  took : n.Holds (TookOneOf cs)

variable {cs : List Challenge} {n : Negotiation} {env : Env} {h : Headers} {request : Request}
  {now : Instant} {draws : Draws}

theorem TookOneOf.asked {c : Candidate} (hc : TookOneOf cs c) :
    TookOneOf cs (c.asked request now draws) := by
  refine ⟨hc.1.answer, ?_⟩
  rw [Candidate.asked, Scheme.name_answer]
  exact hc.2

/-- A new negotiation that takes challenges up has chosen from them. -/
theorem chosen_of_react {limits : Ntlm.Limits} (hs : env.strategy.schemes = (Schemes.known limits : Registry))
    (ha : (react {} env h).1 = true) :
    ∃ cs, env.strategy.challenges h = .ok cs ∧ (react {} env h).2.1.Chosen cs := by
  obtain ⟨cs, hcs, hselect⟩ := react_empty_iff.mp ha
  refine ⟨cs, hcs, pending_of_react (.inl quiescent_empty) ha, ?_⟩
  have hreact : (react {} env h).2.1 =
      ⟨.challenged, .pending (env.strategy.select env.host env.preferred cs)⟩ := by
    cases cs with
    | nil => exact absurd (by simp [Strategy.select, Strategy.challengeOf?]) hselect
    | cons c rest => simp only [react, hcs, takeUp_empty, choose]
  rw [hreact]
  exact fun c hc => Strategy.select_begun hs hcs hc

/-- A negotiation that has chosen and was then asked for an answer has one candidate active that took a
challenge. -/
theorem Chosen.answer (hn : n.Chosen cs) (request : Request) (now : Instant) (draws : Draws) :
    ∃ candidate, (n.answer request now draws).negotiation = ⟨.challenged, .active candidate⟩ ∧
      TookOneOf cs candidate := by
  have hholds := (answer_holds request now draws (fun _ _ hc => TookOneOf.asked hc) hn.took).1
  obtain ⟨phase, holding⟩ := n
  obtain ⟨hp, first, rest, hh⟩ := hn.pending
  obtain rfl : phase = .challenged := hp
  obtain rfl : holding = .pending (first :: rest) := hh
  obtain ⟨candidate, hactive⟩ : ∃ candidate,
      (answerFirst request now .idle (first :: rest) draws).2.1 = .active candidate :=
    answerFirst_active .idle first rest
  have hanswer : (Negotiation.answer ⟨.challenged, .pending (first :: rest)⟩ request now draws).negotiation =
      ⟨.challenged, .active candidate⟩ := by
    simp only [Negotiation.answer, hactive]
  rw [hanswer] at hholds ⊢
  exact ⟨candidate, rfl, holds_active.mp hholds⟩

theorem react_active_final {candidate : Candidate} (hc : TookOneOf cs candidate)
    (hcs : env.strategy.challenges h = .ok cs) (hfinal : ∀ c ∈ cs, c.IsFinal) :
    (react ⟨.challenged, .active candidate⟩ env h).1 = false := by
  obtain ⟨hbegun, challenge, hm, hname⟩ := hc
  cases cs with
  | nil => simp [react, hcs]
  | cons first rest =>
    have hactive : active? ⟨.challenged, .active candidate⟩ = some candidate := rfl
    simp only [react, hcs, takeUp, hactive, Option.isNone_some, Bool.false_eq_true, if_false]
    cases hfound : Strategy.challengeOf? (first :: rest) candidate.scheme.name with
    | none =>
      have hne := List.find?_eq_none.mp hfound challenge hm
      simp [hname] at hne
    | some again =>
      obtain ⟨hmem, hscheme⟩ := Strategy.challengeOf?_some hfound
      exact proceed_final hbegun hscheme (hfinal again hmem)

/-- A negotiation that has chosen from challenges gives up when the same ones come again, asked for an
answer or not, unless one of them says that the negotiation goes on. -/
theorem Chosen.gives_up (hn : n.Chosen cs) (env : Env) (hcs : env.strategy.challenges h = .ok cs)
    (hfinal : ∀ c ∈ cs, c.IsFinal) :
    (n.react env h).1 = false ∧ ∀ request now draws,
      ((n.answer request now draws).negotiation.react env h).1 = false := by
  refine ⟨hn.pending.react.1, fun request now draws => ?_⟩
  obtain ⟨candidate, hanswer, htook⟩ := hn.answer request now draws
  rw [hanswer]
  exact react_active_final htook hcs hfinal

end Negotiation

end HttpSession.Auth
