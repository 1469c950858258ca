import Mathlib.Data.List.Induction
import HttpSession.Proofs.Auth.PhaseLaws

/-!
# Coherence of negotiations

A negotiation may be driven in any order: asked for answers that are never sent, shown responses that
answer nothing, or reset. Whatever acts are applied to a new one, it is `Settled`, `Pending` or
`SuccessPending` (`sound_after`), and what it holds follows from that.

Main statement: what each phase implies for scheme, credentials and candidates holds after any acts, and a
negotiation that has just taken up a challenge can answer (`acts_coherent`).
-/

namespace HttpSession.Auth.Negotiation

/-- What may be done with a negotiation. Whether an answer is put into a request makes no difference to it.
-/
inductive Act
  | hear (side : Side) (status : Nat)
  | react (env : Env) (h : Headers)
  | answer (request : Request) (now : Instant) (draws : Draws)
  | reset

def Act.apply (n : Negotiation) : Act → Negotiation
  | .hear side status => (n.hear side status).2.1
  | .react env h => (n.react env h).2.1
  | .answer request now draws => (n.answer request now draws).negotiation
  | .reset => {}

def after (acts : List Act) : Negotiation := acts.foldl Act.apply {}

theorem after_concat (acts : List Act) (act : Act) : after (acts ++ [act]) = act.apply (after acts) := by
  simp [after, List.foldl_append]

-- ---------------------------------------------------------------------------
-- Where acts lead
-- ---------------------------------------------------------------------------

def Sound (n : Negotiation) : Prop := n.Ready ∨ n.SuccessPending

section
variable {n : Negotiation} {side : Side} {status : Nat} {env : Env} {h : Headers}
  {request : Request} {now : Instant} {draws : Draws}

theorem sound_empty : Sound {} := .inl (.inl settled_empty)

theorem Sound.hear (hn : n.Sound) : (n.hear side status).2.1.Sound := by
  by_cases hs : status = side.status
  · rw [hear_asking hs]
    exact hn
  · rcases hn with (hn | hn) | hn
    · exact .inl (.inl (hn.hear hs).settled)
    · exact .inr (hn.hear hs)
    · exact .inr (hn.hear hs)

theorem Ready.react (hn : n.Ready) : (n.react env h).2.1.Ready := by
  rcases hn with hn | hn
  · exact hn.react.1
  · exact hn.react.2

theorem Sound.react (hn : n.Sound) : (n.react env h).2.1.Sound := by
  rcases hn with hn | hn
  · exact .inl hn.react
  · rcases hn.react with hready | hsame
    · exact .inl hready
    · rw [hsame]
      exact .inr hn

theorem Sound.answer (hn : n.Sound) : (n.answer request now draws).negotiation.Sound := by
  rcases hn with hn | hn
  · exact .inl (.inl hn.answer.1)
  · rw [hn.answer.2]
    exact .inr hn

theorem Sound.apply (hn : n.Sound) (act : Act) : (act.apply n).Sound := by
  cases act with
  | hear => exact hn.hear
  | react => exact hn.react
  | answer => exact hn.answer
  | reset => exact sound_empty

theorem sound_after (acts : List Act) : (after acts).Sound := by
  induction acts using List.reverseRecOn with
  | nil => exact sound_empty
  | append_singleton acts act ih =>
    rw [after_concat]
    exact ih.apply act

/-- A negotiation that takes up a challenge is ready, even from `SuccessPending`. -/
theorem Sound.ready_of_react (hn : n.Sound) (ha : (n.react env h).1 = true) :
    (n.react env h).2.1.Ready := by
  rcases hn with hn | hn
  · exact hn.react
  · exact .inr (pending_of_react (.inr hn) ha)

end

-- ---------------------------------------------------------------------------
-- What is held in each phase
-- ---------------------------------------------------------------------------

def credentials? (n : Negotiation) : Option Credentials := n.active?.map (·.credentials)

/-- Phase, scheme, credentials and candidates of a negotiation agree. -/
structure Coherent (n : Negotiation) : Prop where
  pending : n.pending?.isSome → n.scheme? = none ∧ n.credentials? = none
  paired : n.scheme?.isSome ↔ n.credentials?.isSome
  idle : n.phase = .unchallenged ∨ n.phase = .failure →
    n.scheme? = none ∧ n.credentials? = none ∧ n.pending? = none
  handshake : n.phase = .handshake → n.scheme?.isSome
  challenged : n.phase = .challenged →
    (∃ candidate rest, n.pending? = some (candidate :: rest)) ∨ n.scheme?.isSome

variable {n : Negotiation}

theorem Settled.coherent (hn : n.Settled) : n.Coherent := by
  obtain ⟨phase, holding⟩ := n
  cases phase with
  | unchallenged =>
    obtain rfl : holding = .idle := hn
    exact ⟨nofun, .rfl, fun _ => ⟨rfl, rfl, rfl⟩, nofun, nofun⟩
  | failure =>
    obtain rfl : holding = .idle := hn
    exact ⟨nofun, .rfl, fun _ => ⟨rfl, rfl, rfl⟩, nofun, nofun⟩
  | challenged =>
    obtain ⟨candidate, rfl⟩ : ∃ candidate, holding = .active candidate := hn
    exact ⟨nofun, .rfl, nofun, nofun, fun _ => .inr rfl⟩
  | handshake =>
    obtain ⟨candidate, rfl⟩ : ∃ candidate, holding = .active candidate := hn
    exact ⟨nofun, .rfl, nofun, fun _ => rfl, nofun⟩
  | success =>
    obtain ⟨candidate, rfl⟩ : ∃ candidate, holding = .active candidate := hn
    exact ⟨nofun, .rfl, nofun, nofun, nofun⟩

theorem Pending.coherent (hn : n.Pending) : n.Coherent := by
  obtain ⟨phase, holding⟩ := n
  obtain ⟨hp, candidate, rest, hh⟩ := hn
  obtain rfl : phase = .challenged := hp
  obtain rfl : holding = .pending (candidate :: rest) := hh
  exact ⟨fun _ => ⟨rfl, rfl⟩, .rfl, nofun, nofun, fun _ => .inl ⟨candidate, rest, rfl⟩⟩

theorem SuccessPending.coherent (hn : n.SuccessPending) : n.Coherent := by
  obtain ⟨phase, holding⟩ := n
  obtain ⟨hp, candidates, hh⟩ := hn
  obtain rfl : phase = .success := hp
  obtain rfl : holding = .pending candidates := hh
  exact ⟨fun _ => ⟨rfl, rfl⟩, .rfl, nofun, nofun, nofun⟩

theorem Sound.coherent (hn : n.Sound) : n.Coherent := by
  rcases hn with (hn | hn) | hn
  · exact hn.coherent
  · exact hn.coherent
  · exact hn.coherent

/-- After any acts, phase, scheme, credentials and candidates of a negotiation agree, and when it has just
taken up a challenge, asking it for an answer to any request succeeds, be it with none. -/
theorem acts_coherent (acts : List Act) : (after acts).Coherent ∧
    ∀ env h, ((after acts).react env h).1 = true → ∀ request now draws,
      ∃ answer, (((after acts).react env h).2.1.answer request now draws).answer = .ok answer := by
  have hsound := sound_after acts
  refine ⟨hsound.coherent, fun env h ha request now draws => ?_⟩
  have hready := hsound.ready_of_react ha
  cases hanswer : (((after acts).react env h).2.1.answer request now draws).answer with
  | ok answer => exact ⟨answer, rfl⟩
  | error fault => exact absurd hanswer (hready.answer.2 fault)

def exampleEnv : Env where
  strategy := { side := .target, schemes := Schemes.known {}, vault := ([({}, ⟨"u", "p", none⟩)] : Vault) }
  host := ⟨"http", "a", none⟩
  preferred := none

def basicChallenge : Headers := [(HeaderName.wwwAuthenticate, Utf8.encode "Basic realm=\"r\"")]

def exampleRequest : Request where
  method := Method.get
  url := ⟨"http", some ⟨[], [], some (.name "a"), none⟩, "/", none, none⟩

/-- A negotiation with candidates after a success can answer once it is challenged again. -/
theorem acts_coherent_successPending :
    ((after [.react exampleEnv basicChallenge, .hear .target 200]).react exampleEnv basicChallenge).1 = true ∧
      ∃ answer, (((after [.react exampleEnv basicChallenge, .hear .target 200]).react
        exampleEnv basicChallenge).2.1.answer
        exampleRequest .epoch ⟨[], 0⟩).answer = .ok answer := by
  have ha : ((after [.react exampleEnv basicChallenge, .hear .target 200]).react
      exampleEnv basicChallenge).1 = true := by
    decide +kernel
  exact ⟨ha, (acts_coherent _).2 exampleEnv basicChallenge ha exampleRequest .epoch ⟨[], 0⟩⟩

end HttpSession.Auth.Negotiation
