import HttpSession.Auth.Negotiation
import HttpSession.Proofs.Message.HeaderValues

/-!
# What negotiations hold

A negotiation never makes up a candidate: whatever it holds was selected from the challenges of a
response, or is what became of a candidate it held before. A candidate keeps its name and its
credentials, and as long as challenges come from one side, that side too.

Main statements: the challenges of a response do one of four things (`react_reaction`); a condition on name
and credentials that the selected candidates satisfy is satisfied by all that is held and by every answer
(`serves_react`, `answer_serves`); a selected candidate has the credentials that the vault finds for the
host (`select_known`).
-/

namespace HttpSession

namespace Auth

-- ---------------------------------------------------------------------------
-- Schemes
-- ---------------------------------------------------------------------------

theorem Challenge.read_ok {side : Side} {value : Text} {c : Challenge}
    (h : Challenge.read side value = .ok c) : c.side = side ∧ c.scheme.lower = c.scheme := by
  cases hcut : value.trim.cut? Text.isBlank with
  | none =>
    simp only [Challenge.read, hcut, if_true] at h
    split at h
    · cases h
    · obtain rfl := Except.ok.inj h
      exact ⟨rfl, Text.lower_lower _⟩
  | some parts =>
    simp only [Challenge.read, hcut] at h
    split at h
    · cases h
    · split at h
      · obtain rfl := Except.ok.inj h
        exact ⟨rfl, Text.lower_lower _⟩
      · split at h
        · obtain rfl := Except.ok.inj h
          exact ⟨rfl, Text.lower_lower _⟩
        · cases hr : readParams parts.2.trim with
          | error fault =>
            rw [hr] at h
            cases h
          | ok params =>
            rw [hr] at h
            obtain rfl := Except.ok.inj h
            exact ⟨rfl, Text.lower_lower _⟩

namespace Scheme

variable (s : Scheme) (c : Challenge) (credentials : Credentials) (request : Request) (now : Instant)
  (draws : Draws)

@[simp] theorem name_take : (s.take c).2.name = s.name := by
  cases s with
  | basic => rfl
  | digest d =>
    simp only [take]
    split <;> rfl
  | ntlm => rfl

theorem side_take {s : Scheme} {c : Challenge} (h : (s.take c).1 = .ok ()) :
    (s.take c).2.side = c.side := by
  cases s with
  | basic => rfl
  | digest d =>
    simp only [take, Digest.take] at h ⊢
    by_cases hp : c.params = [] <;> simp_all [side]
  | ntlm n =>
    simp only [take, Ntlm.take] at h ⊢
    repeat' split
    all_goals simp_all [side]

@[simp] theorem name_answer : (s.answer credentials request now draws).2.1.name = s.name := by
  cases s <;> rfl

@[simp] theorem side_answer : (s.answer credentials request now draws).2.1.side = s.side := by
  cases s with
  | basic => rfl
  | digest d =>
    simp only [answer, answerText, Digest.answer]
    split <;> rfl
  | ntlm n =>
    simp only [answer, answerText, Ntlm.answer, Ntlm.send, Ntlm.restart]
    repeat' split
    all_goals rfl

theorem pack_ok {s : Scheme} {credentials : Credentials} {text : Text} {a : Answer}
    (h : s.pack credentials text = .ok a) : a = ⟨s.side, Utf8.encode text, s.name, credentials⟩ := by
  unfold pack at h
  split at h
  · rename_i value hvalue
    rw [(HeaderValue.ofText?_eq_some_iff.mp hvalue).2] at h
    exact (Except.ok.inj h).symm
  · cases h

theorem answer_ok {s : Scheme} {credentials : Credentials} {request : Request} {now : Instant}
    {draws : Draws} {a : Answer} (h : (s.answer credentials request now draws).1 = .ok a) :
    a.side = s.side ∧ a.scheme = s.name ∧ a.credentials = credentials := by
  simp only [answer] at h
  generalize (s.answerText credentials request now draws).1 = text at h
  cases text with
  | error fault => cases h
  | ok text =>
    obtain rfl := pack_ok h
    exact ⟨rfl, rfl, rfl⟩

end Scheme
-- ---------------------------------------------------------------------------
-- Selection
-- ---------------------------------------------------------------------------

namespace Strategy

variable {s : Strategy} {host : Endpoint} {preferred : Option (List Text)} {h : Headers}
  {c : Challenge} {cs : List Challenge} {candidate : Candidate}

theorem mem_of_mem_firstOfEach (hc : c ∈ firstOfEach cs) : c ∈ cs := by
  induction cs with
  | nil => exact hc
  | cons first rest ih =>
    rcases List.mem_cons.mp hc with rfl | hc
    · exact List.mem_cons_self
    · exact List.mem_cons_of_mem _ (ih (List.mem_filter.mp hc).1)

theorem mem_of_mem_mapM {α β : Type} {f : α → Option β} {as : List α} {bs : List β} {b : β}
    (h : as.mapM f = some bs) (hb : b ∈ bs) : ∃ a ∈ as, f a = some b := by
  induction as generalizing bs with
  | nil =>
    obtain rfl : [] = bs := by simpa using h
    cases hb
  | cons a rest ih =>
    simp only [List.mapM_cons, Option.bind_eq_bind, Option.bind_eq_some_iff, Option.pure_def,
      Option.some.injEq] at h
    obtain ⟨first, ha, bs, hr, rfl⟩ := h
    rcases List.mem_cons.mp hb with rfl | hb
    · exact ⟨a, List.mem_cons_self, ha⟩
    · obtain ⟨a', ha', hf⟩ := ih hr hb
      exact ⟨a', List.mem_cons_of_mem _ ha', hf⟩

theorem mem_challenges (hcs : s.challenges h = .ok cs) (hc : c ∈ cs) :
    ∃ value ∈ h.values s.side.challengeHeader, ∃ text,
      HeaderValue.text? value = some text ∧ Challenge.read s.side text = .ok c := by
  unfold challenges at hcs
  split at hcs
  · cases hcs
  · rename_i texts htexts
    obtain rfl := Except.ok.inj hcs
    obtain ⟨text, ht, hr⟩ := List.mem_filterMap.mp (mem_of_mem_firstOfEach hc)
    obtain ⟨value, hv, hvt⟩ := mem_of_mem_mapM htexts ht
    refine ⟨value, hv, text, hvt, ?_⟩
    cases hread : Challenge.read s.side text with
    | error fault => simp [hread, Except.toOption] at hr
    | ok c' =>
      rw [hread] at hr
      exact congrArg Except.ok (Option.some.inj hr)

theorem side_of_mem_challenges (hcs : s.challenges h = .ok cs) (hc : c ∈ cs) : c.side = s.side := by
  obtain ⟨_, -, _, -, hr⟩ := mem_challenges hcs hc
  exact (Challenge.read_ok hr).1

theorem challengeOf?_some {name : Text} (hc : challengeOf? cs name = some c) :
    c ∈ cs ∧ c.scheme = name :=
  ⟨List.mem_of_find?_eq_some hc, by simpa using List.find?_some hc⟩

theorem mem_select (hm : candidate ∈ s.select host preferred cs) :
    ∃ c ∈ cs, s.candidate? host c = some candidate := by
  obtain ⟨name, -, hn⟩ := List.mem_filterMap.mp hm
  obtain ⟨c, hc, hs⟩ := Option.bind_eq_some_iff.mp hn
  exact ⟨c, (challengeOf?_some hc).1, hs⟩

theorem create?_known {limits : Ntlm.Limits} {name : Text} {scheme : Scheme}
    (h : (Schemes.known limits).create? name = some scheme) : scheme.name = name.lower := by
  obtain ⟨kind, hk, rfl⟩ := Option.map_eq_some_iff.mp h
  simp only [Schemes.known, List.lookup_cons, List.lookup_nil] at hk
  split at hk
  · rename_i hn
    obtain rfl := Option.some.inj hk
    exact (eq_of_beq hn).symm
  · split at hk
    · rename_i hn
      obtain rfl := Option.some.inj hk
      exact (eq_of_beq hn).symm
    · split at hk
      · rename_i hn
        obtain rfl := Option.some.inj hk
        exact (eq_of_beq hn).symm
      · cases hk

theorem candidate?_some (h : s.candidate? host c = some candidate) :
    ∃ scheme, s.schemes.create? c.scheme = some scheme ∧ (scheme.take c).1 = .ok () ∧
      candidate.scheme = (scheme.take c).2 ∧
      s.vault.find? (scopeFor host candidate.scheme) = some candidate.credentials := by
  simp only [candidate?, Option.bind_eq_bind, Option.bind_eq_some_iff] at h
  obtain ⟨scheme, hcreate, _, htake, credentials, hfind, hsome⟩ := h
  obtain rfl := Option.some.inj hsome
  refine ⟨scheme, hcreate, ?_, rfl, hfind⟩
  cases ht : (scheme.take c).1 with
  | error fault => simp [ht, Except.toOption] at htake
  | ok => rfl

/-- Whatever the schemes are, a selected candidate speaks for the side the challenges came from. -/
theorem side_of_mem_select (hcs : s.challenges h = .ok cs) (hm : candidate ∈ s.select host preferred cs) :
    candidate.scheme.side = s.side := by
  obtain ⟨c, hc, hcandidate⟩ := mem_select hm
  obtain ⟨scheme, -, htaken, hscheme, -⟩ := candidate?_some hcandidate
  rw [hscheme, Scheme.side_take htaken]
  exact side_of_mem_challenges hcs hc

/-- A selected candidate goes by the scheme of a challenge, for the side it came from, and has the
credentials that there are for the host. -/
theorem select_known {limits : Ntlm.Limits} (hs : s.schemes = (Schemes.known limits : Registry))
    (hcs : s.challenges h = .ok cs) (hm : candidate ∈ s.select host preferred cs) :
    ∃ c ∈ cs, candidate.scheme.side = s.side ∧ candidate.scheme.name = c.scheme ∧
      s.vault.find? (scopeFor host candidate.scheme) = some candidate.credentials := by
  obtain ⟨c, hc, hcandidate⟩ := mem_select hm
  obtain ⟨scheme, hcreate, -, hscheme, hfind⟩ := candidate?_some hcandidate
  obtain ⟨value, -, text, -, hr⟩ := mem_challenges hcs hc
  obtain ⟨-, hlower⟩ := Challenge.read_ok hr
  rw [hs] at hcreate
  refine ⟨c, hc, side_of_mem_select hcs hm, ?_, hfind⟩
  rw [hscheme, Scheme.name_take, create?_known hcreate, hlower]

end Strategy

-- ---------------------------------------------------------------------------
-- Negotiations
-- ---------------------------------------------------------------------------

def Candidate.Serves (side : Side) (P : Text → Credentials → Prop) (c : Candidate) : Prop :=
  c.scheme.side = side ∧ P c.scheme.name c.credentials

def Holding.candidates : Holding → List Candidate
  | .idle => []
  | .active candidate => [candidate]
  | .pending candidates => candidates

def Candidate.asked (c : Candidate) (request : Request) (now : Instant) (draws : Draws) : Candidate :=
  { c with scheme := (c.scheme.answer c.credentials request now draws).2.1 }

namespace Negotiation

def Holds (Q : Candidate → Prop) (n : Negotiation) : Prop := ∀ c ∈ n.holding.candidates, Q c

section
variable {Q : Candidate → Prop} {n : Negotiation} {candidate : Candidate}

theorem holds_of_idle (h : n.holding = .idle) : n.Holds Q := by
  simp [Holds, h, Holding.candidates]

theorem holds_active {phase : Phase} : Holds Q ⟨phase, .active candidate⟩ ↔ Q candidate := by
  simp [Holds, Holding.candidates]

theorem active?_holds (h : n.Holds Q) (ha : n.active? = some candidate) : Q candidate := by
  obtain ⟨phase, holding⟩ := n
  cases holding <;> simp [active?] at ha
  subst ha
  exact holds_active.mp h

end

def Serves (side : Side) (P : Text → Credentials → Prop) (n : Negotiation) : Prop :=
  ∀ c ∈ n.holding.candidates, c.Serves side P

section
variable {side : Side} {P : Text → Credentials → Prop} {n : Negotiation}

theorem serves_of_idle (h : n.holding = .idle) : n.Serves side P := holds_of_idle h

theorem Serves.mono {Q : Text → Credentials → Prop} (h : n.Serves side P)
    (hPQ : ∀ name credentials, P name credentials → Q name credentials) : n.Serves side Q :=
  fun c hc => ⟨(h c hc).1, hPQ _ _ (h c hc).2⟩

theorem Serves.of_holding {m : Negotiation} (h : n.Serves side P) (hm : m.holding = n.holding) :
    m.Serves side P := by
  intro c hc
  rw [hm] at hc
  exact h c hc

end

section
variable {side : Side} {P : Text → Credentials → Prop} {n : Negotiation} {env : Env} {h : Headers}
  {cs : List Challenge}

@[simp] theorem holding_hear (n : Negotiation) (side : Side) (status : Nat) :
    (n.hear side status).2.1.holding = n.holding := by
  unfold hear
  split
  · rfl
  · split <;> rfl

/-- What comes of the challenges of a response: nothing changes, or all is dropped, or the active scheme
takes one of them for one more round, or candidates are selected from them. -/
inductive Reaction (n : Negotiation) (env : Env) (h : Headers) :
    Bool × Negotiation × List Notice → Prop
  | same : Reaction n env h (false, n, [])
  | dropped {m : Negotiation} {notices : List Notice} (idle : m.holding = .idle) :
    Reaction n env h (false, m, notices)
  | round {cs : List Challenge} {c : Challenge} {candidate : Candidate} {scheme : Scheme}
    (challenges : env.strategy.challenges h = .ok cs) (given : c ∈ cs)
    (active : n.active? = some candidate) (taken : candidate.scheme.take c = (.ok (), scheme))
    (incomplete : scheme.isComplete = false) :
    Reaction n env h (true, ⟨.handshake, .active { candidate with scheme }⟩, [])
  | selection {cs : List Challenge} (challenges : env.strategy.challenges h = .ok cs) :
    Reaction n env h
      (true, ⟨.challenged, .pending (env.strategy.select env.host env.preferred cs)⟩, [])

theorem reaction_choose {m : Negotiation} (hm : m = n ∨ m.holding = .idle)
    (hcs : env.strategy.challenges h = .ok cs) : Reaction n env h (m.choose env cs) := by
  unfold choose
  split
  · rcases hm with rfl | hm
    · exact .same
    · exact .dropped hm
  · exact .selection hcs

theorem reaction_takeUp {m : Negotiation} (hm : m = n ∨ m.holding = .idle)
    (hcs : env.strategy.challenges h = .ok cs) : Reaction n env h (m.takeUp env cs) := by
  unfold takeUp
  cases ha : m.active? with
  | none => exact reaction_choose hm hcs
  | some candidate =>
    cases hc : Strategy.challengeOf? cs candidate.scheme.name with
    | none =>
      simp only [hc]
      exact reaction_choose (.inr rfl) hcs
    | some c =>
      have hactive : n.active? = some candidate := by
        rcases hm with rfl | hm
        · exact ha
        · simp [active?, hm] at ha
      simp only [hc, proceed]
      split
      · exact .dropped rfl
      · rename_i scheme htaken
        by_cases hcomplete : scheme.isComplete = true
        · rw [if_pos hcomplete]
          exact .dropped rfl
        · rw [if_neg hcomplete]
          exact .round hcs (Strategy.challengeOf?_some hc).1 hactive htaken (by simpa using hcomplete)

theorem react_reaction (n : Negotiation) (env : Env) (h : Headers) :
    Reaction n env h (n.react env h) := by
  unfold react
  split
  · exact .dropped rfl
  · exact .same
  · rename_i hcs
    split
    · exact .same
    · exact reaction_takeUp (.inr rfl) hcs
    · split
      · exact .dropped rfl
      · exact reaction_takeUp (.inl rfl) hcs
    · split
      · exact .dropped rfl
      · exact reaction_takeUp (.inl rfl) hcs
    · exact reaction_takeUp (.inl rfl) hcs

/-- What is held behind a response satisfies a condition if it did before, provided that a round more and
a selection keep to it. -/
theorem holds_react {Q : Candidate → Prop} (hn : n.Holds Q)
    (hround : ∀ cs c candidate scheme, env.strategy.challenges h = .ok cs → c ∈ cs → Q candidate →
      candidate.scheme.take c = (.ok (), scheme) → scheme.isComplete = false → Q { candidate with scheme })
    (hs : (n.react env h).1 = true → ∀ cs, env.strategy.challenges h = .ok cs →
      ∀ c ∈ env.strategy.select env.host env.preferred cs, Q c) :
    (n.react env h).2.1.Holds Q := by
  have hreaction := react_reaction n env h
  generalize n.react env h = result at hreaction hs ⊢
  cases hreaction with
  | same => exact hn
  | dropped idle => exact holds_of_idle idle
  | round challenges given active taken incomplete =>
    exact holds_active.mpr (hround _ _ _ _ challenges given (active?_holds hn active) taken incomplete)
  | selection challenges => exact hs rfl _ challenges

/-- What a negotiation holds behind a response served before, or was selected from its challenges. -/
theorem serves_react (hn : n.Serves side P) (hside : env.strategy.side = side)
    (hs : ∀ cs, env.strategy.challenges h = .ok cs →
      ∀ c ∈ env.strategy.select env.host env.preferred cs, c.Serves side P) :
    (n.react env h).2.1.Serves side P := by
  refine holds_react hn (fun cs c candidate scheme hcs hc hcandidate htaken _ => ⟨?_, ?_⟩) fun _ => hs
  · have htake : (candidate.scheme.take c).2.side = c.side := Scheme.side_take (by rw [htaken])
    rw [htaken] at htake
    exact htake.trans ((Strategy.side_of_mem_challenges hcs hc).trans hside)
  · have hname : scheme.name = candidate.scheme.name := by
      rw [← Scheme.name_take candidate.scheme c, htaken]
    rw [hname]
    exact hcandidate.2

end

section
variable {Q : Candidate → Prop} {side : Side} {P : Text → Credentials → Prop} {n : Negotiation}
  {request : Request} {now : Instant} {draws : Draws}

theorem answerFirst_holds (request : Request) (now : Instant) (draws : Draws)
    (hQ : ∀ c draws, Q c → Q (c.asked request now draws)) {held : Holding}
    {candidates : List Candidate} (hh : Holds Q ⟨.challenged, held⟩) (hc : ∀ c ∈ candidates, Q c) :
    Holds Q ⟨.challenged, (answerFirst request now held candidates draws).2.1⟩ ∧
      ∀ a, (answerFirst request now held candidates draws).1 = some a → ∃ c draws', Q c ∧
        (c.scheme.answer c.credentials request now draws').1 = .ok a ∧
          (answerFirst request now held candidates draws).2.1 = .active (c.asked request now draws') := by
  induction candidates generalizing held draws with
  | nil => exact ⟨hh, by simp [answerFirst]⟩
  | cons candidate rest ih =>
    have hcandidate := hc candidate List.mem_cons_self
    have hnext := hQ candidate draws hcandidate
    unfold answerFirst
    split
    · rename_i a scheme draws' heq
      have hasked : candidate.asked request now draws = { candidate with scheme } := by
        rw [Candidate.asked, heq]
      rw [hasked] at hnext
      refine ⟨holds_active.mpr hnext, ?_⟩
      intro a' ha'
      obtain rfl := Option.some.inj ha'
      exact ⟨candidate, draws, hcandidate, by rw [heq], by rw [hasked]⟩
    · rename_i fault scheme draws' heq
      rw [Candidate.asked, heq] at hnext
      exact ih draws' (holds_active.mpr hnext) fun c hm => hc c (List.mem_cons_of_mem _ hm)

/-- Asking for an answer leaves what satisfies a condition that candidates keep, and the answer comes from
one that does, which is active from then on. -/
theorem answer_holds (request : Request) (now : Instant) (draws : Draws)
    (hQ : ∀ c draws, Q c → Q (c.asked request now draws)) (hn : n.Holds Q) :
    (n.answer request now draws).negotiation.Holds Q ∧
      ∀ a, (n.answer request now draws).answer = .ok (some a) → ∃ c draws', Q c ∧
        (c.scheme.answer c.credentials request now draws').1 = .ok a ∧
          (n.answer request now draws).negotiation.holding = .active (c.asked request now draws') := by
  have hactive : ∀ candidate, n.holding = .active candidate →
      (n.answerActive candidate request now draws).negotiation.Holds Q ∧
        ∀ a, (n.answerActive candidate request now draws).answer = .ok (some a) → ∃ c draws', Q c ∧
          (c.scheme.answer c.credentials request now draws').1 = .ok a ∧
            (n.answerActive candidate request now draws).negotiation.holding =
              .active (c.asked request now draws') := by
    intro candidate hh
    have hc : Q candidate := hn candidate (by simp [hh, Holding.candidates])
    refine ⟨holds_active.mpr (hQ candidate draws hc), ?_⟩
    intro a ha
    refine ⟨candidate, draws, hc, ?_, rfl⟩
    simp only [answerActive, Except.ok.injEq] at ha
    revert ha
    cases (candidate.scheme.answer candidate.credentials request now draws).1 with
    | error fault => simp [Except.toOption]
    | ok a' => simp [Except.toOption]
  have hsame : ∀ result : Except Fault (Option Answer), (∀ a, result ≠ .ok (some a)) →
      (Outcome.mk result n draws).negotiation.Holds Q ∧
        ∀ a, (Outcome.mk result n draws).answer = .ok (some a) → ∃ c draws', Q c ∧
          (c.scheme.answer c.credentials request now draws').1 = .ok a ∧
            (Outcome.mk result n draws).negotiation.holding = .active (c.asked request now draws') :=
    fun result hr => ⟨hn, fun a ha => absurd ha (hr a)⟩
  unfold answer
  split
  · exact hsame _ (by simp)
  · rename_i candidate _ hh
    split
    · exact hsame _ (by simp)
    · exact hactive _ hh
  · exact hsame _ (by simp)
  · rename_i candidates hp hh
    have hcandidates : ∀ c ∈ candidates, Q c := fun c hc =>
      hn c (by simpa [hh, Holding.candidates] using hc)
    have hidle : Holds Q ⟨.challenged, .idle⟩ := nofun
    obtain ⟨hheld, hanswer⟩ := answerFirst_holds request now draws hQ hidle hcandidates
    exact ⟨hheld, fun a ha => hanswer a (Except.ok.inj ha)⟩
  · exact hsame _ (by simp)
  · exact hactive _ (by assumption)
  · exact hsame _ (by simp)

theorem serves_asked {c : Candidate} (hc : c.Serves side P) :
    (c.asked request now draws).Serves side P := by
  refine ⟨?_, ?_⟩
  · rw [Candidate.asked, Scheme.side_answer]
    exact hc.1
  · rw [Candidate.asked, Scheme.name_answer]
    exact hc.2

/-- Asking for an answer leaves what serves, and the answer serves. -/
theorem answer_serves (hn : n.Serves side P) :
    (n.answer request now draws).negotiation.Serves side P ∧
      ∀ a, (n.answer request now draws).answer = .ok (some a) → a.side = side ∧ P a.scheme a.credentials := by
  have hserves : n.Holds (Candidate.Serves side P) := hn
  obtain ⟨hheld, hanswer⟩ := answer_holds request now draws (fun _ _ hc => serves_asked hc) hserves
  refine ⟨hheld, fun a ha => ?_⟩
  obtain ⟨c, _, hc, hok, -⟩ := hanswer a ha
  obtain ⟨hside, hscheme, hcredentials⟩ := Scheme.answer_ok hok
  rw [hside, hscheme, hcredentials]
  exact hc

end

end Negotiation

end Auth

end HttpSession
