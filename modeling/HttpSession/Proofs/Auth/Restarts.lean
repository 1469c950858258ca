import HttpSession.Proofs.Auth.Coherence
import HttpSession.Proofs.Auth.DigestAnswer
import HttpSession.Proofs.Auth.FreshTokens
import HttpSession.Proofs.Auth.MessageLayout

/-!
# Handshakes in negotiations

A handshake by itself may fail and begin anew. Inside a negotiation it does neither: a handshake is
selected with the first challenge taken, a challenge that makes it fail is a refusal, upon which it is
dropped, and a challenge that keeps it going leads to the last message. Once a message was sent, what is
held is past the first one (`Opened`), and only a selection replaces it.

Main statement: no handshake that a negotiation holds is failed or was ever restarted, and between two
first messages that it answers with, candidates were selected (`never_restarts`).
-/

namespace HttpSession.Auth

namespace Ntlm

-- ---------------------------------------------------------------------------
-- First messages
-- ---------------------------------------------------------------------------

/-- The message in the value of a header, as the other side reads it. -/
def messageIn? (value : Bytes) : Option Bytes := do
  let text ← Utf8.decode? value
  let token ← text.after? "NTLM "
  (Base64.decode (Utf8.encode token)).toOption

def IsFirst (value : Bytes) : Prop := (messageIn? value).map (·.take 12) = some (kindOf 1)

instance : DecidablePred IsFirst := fun _ => inferInstanceAs (Decidable (_ = _))

theorem messageIn?_written (message : Bytes) :
    messageIn? (Utf8.encode ("NTLM " ++ Base64.encode message)) = some message := by
  have hafter : Text.after? ("NTLM " ++ Base64.encode message) "NTLM " = some (Base64.encode message) :=
    Text.after?_eq_some_iff.mpr rfl
  simp only [messageIn?, Utf8.decode?_encode, Option.bind_eq_bind, Option.bind_some, hafter,
    Base64.decode_encode, Except.toOption]

theorem not_isFirst_append (lead : Text) (h : lead.head?.any (· ≠ 'N') = true) (rest : Text) :
    ¬ IsFirst (Utf8.encode (lead ++ rest)) := by
  intro hfirst
  simp only [IsFirst, messageIn?, Utf8.decode?_encode, Option.bind_eq_bind, Option.bind_some,
    Option.map_eq_some_iff, Option.bind_eq_some_iff] at hfirst
  obtain ⟨message, ⟨token, htoken, -⟩, -⟩ := hfirst
  have heq := Text.after?_eq_some_iff.mp htoken
  cases lead with
  | nil => cases h
  | cons c lead =>
    obtain ⟨rfl, -⟩ := List.cons.inj heq
    cases h

theorem not_isFirst_respond {credentials : Credentials} {token text : Text} {now : Instant}
    {draws : Draws} (h : (version2.respond credentials token now draws).1 = .ok text) :
    ¬ IsFirst (Utf8.encode ("NTLM " ++ text)) := by
  obtain ⟨-, server, message, -, -, hmessage, rfl⟩ := respond_ok h
  rw [IsFirst, messageIn?_written, Option.map_some, (laidOut_type3 hmessage).kind]
  decide

-- ---------------------------------------------------------------------------
-- Stages
-- ---------------------------------------------------------------------------

/-- Whether a handshake took a challenge, and neither failed nor began anew. -/
structure Underway (n : Ntlm) : Prop where
  begun : n.stage ≠ .uninitiated
  unfailed : n.stage ≠ .failed
  restarts : n.restarts = 0

structure Opened (n : Ntlm) : Prop extends Underway n where
  sent : n.stage ≠ .challengeReceived

section
variable {n : Ntlm} {c : Challenge} {credentials : Credentials} {now : Instant} {draws : Draws}
  {a : Answer} {m : Message}

theorem restart_of_unfailed (h : n.stage ≠ .failed) : n.restart = n := by
  rw [restart, if_neg fun hfailed => h hfailed.1]

theorem underway_take_new {limits : Limits} (h : (({ limits } : Ntlm).take c).1 = .ok ()) :
    Underway (({ limits } : Ntlm).take c).2 := by
  simp only [take] at h ⊢
  split
  · exact ⟨by simp [askedStage], by simp [askedStage], rfl⟩
  split
  · exact ⟨by simp, by simp, rfl⟩
  · -- past the bound a token is out of sequence for who has not begun
    simp_all [lateStage]

/-- A challenge that neither breaks nor completes a handshake calls for its last message. -/
theorem Underway.take (hn : n.Underway) (h : (n.take c).1 = .ok ())
    (hincomplete : (n.take c).2.isComplete = false) : Opened (n.take c).2 := by
  have hstage : (n.take c).2.stage = .type2Received ∧ (n.take c).2.restarts = n.restarts := by
    obtain ⟨hbegun, hunfailed, -⟩ := hn
    simp only [Ntlm.take] at h hincomplete ⊢
    split
    · cases hs : n.stage <;> simp_all [askedStage, isComplete]
    split
    · exact ⟨rfl, rfl⟩
    · cases hs : n.stage <;> simp_all [lateStage, isComplete]
  have hrestarts : (n.take c).2.restarts = 0 := hstage.2.trans hn.restarts
  exact ⟨⟨by simp [hstage.1], by simp [hstage.1], hrestarts⟩, by simp [hstage.1]⟩

theorem Underway.sent (hn : n.Underway) : Opened (n.sent m) := by
  cases m with
  | first => exact ⟨⟨by simp [Ntlm.sent], by simp [Ntlm.sent], hn.restarts⟩, by simp [Ntlm.sent]⟩
  | last => exact ⟨⟨by simp [Ntlm.sent], by simp [Ntlm.sent], hn.restarts⟩, by simp [Ntlm.sent]⟩

/-- A handshake that is asked for a message stays at its stage, without an answer, or has sent one. -/
theorem Underway.answer (hn : n.Underway) (engine : Engine) (credentials : Credentials) (now : Instant)
    (draws : Draws) :
    ((Call.answer engine credentials now draws).next n = n ∧
      (Call.answer engine credentials now draws).header? n = none) ∨
        Opened ((Call.answer engine credentials now draws).next n) := by
  cases hnetwork : credentials.network with
  | none => exact .inl (Call.answer_foreign n engine now draws hnetwork)
  | some network =>
    obtain ⟨result, behind, hsending, hnext, hheader⟩ := Call.answer_sending n engine now draws hnetwork
    rw [restart_of_unfailed hn.unfailed] at hsending
    rw [hnext, hheader]
    cases hsending with
    | message => exact .inr hn.sent
    | fault => exact .inl ⟨rfl, rfl⟩

/-- A first message is due only where none was sent. -/
theorem Opened.not_isFirst (hn : n.Opened)
    (h : (Call.answer version2 credentials now draws).header? n = some a) : ¬ IsFirst a.value := by
  obtain ⟨m, text, hmessage, hvalue, hmade⟩ := Call.exists_of_header? h
  rw [hvalue]
  cases m with
  | first =>
    obtain ⟨_, _, _, _, _, _, -, -, hdue, -⟩ := Call.message?_eq_some_iff.mp hmessage
    rw [restart_of_unfailed hn.unfailed] at hdue
    exact absurd hdue (by cases hs : n.stage <;> simp_all [due?, hn.sent])
  | last =>
    cases hresult : (version2.respond credentials n.token now draws).1 with
    | ok reply =>
      obtain rfl : reply = text := by simpa [Call.reply?, hresult, Except.toOption] using hmade
      exact not_isFirst_respond hresult
    | error fault => simp [Call.reply?, hresult, Except.toOption] at hmade

end

end Ntlm

-- ---------------------------------------------------------------------------
-- Candidates
-- ---------------------------------------------------------------------------

def Candidate.IfHandshake (P : Ntlm → Prop) (c : Candidate) : Prop := ∀ n, c.scheme = .ntlm n → P n

section
variable {candidate : Candidate} {c : Challenge} {scheme : Scheme} {kind : Kind}
  {request : Request} {now : Instant} {draws : Draws} {a : Answer} {n : Ntlm}

theorem Scheme.underway_take_new (h : ((Scheme.new kind).take c).1 = .ok ())
    (hn : ((Scheme.new kind).take c).2 = .ntlm n) : n.Underway := by
  cases kind with
  | basic => cases hn
  | digest =>
    simp only [new, take] at hn
    split at hn <;> cases hn
  | ntlm limits =>
    obtain rfl := Scheme.ntlm.inj hn
    exact Ntlm.underway_take_new h

namespace Candidate

theorem ifHandshake_of_mem_select {s : Strategy} {host : Endpoint} {preferred : Option (List Text)}
    {cs : List Challenge} (h : candidate ∈ s.select host preferred cs) :
    candidate.IfHandshake Ntlm.Underway := by
  obtain ⟨c, -, hcandidate⟩ := Strategy.mem_select h
  obtain ⟨scheme, hcreate, htaken, hscheme, -⟩ := Strategy.candidate?_some hcandidate
  obtain ⟨kind, rfl⟩ := s.schemes.isNew _ _ hcreate
  intro n hn
  rw [hscheme] at hn
  exact Scheme.underway_take_new htaken hn

theorem ifHandshake_taken (h : candidate.IfHandshake Ntlm.Underway)
    (htaken : candidate.scheme.take c = (.ok (), scheme)) (hincomplete : scheme.isComplete = false) :
    IfHandshake Ntlm.Opened { candidate with scheme } := by
  rintro n rfl
  cases hs : candidate.scheme with
  | basic b => simp [hs, Scheme.take] at htaken
  | digest d =>
    rw [hs, Scheme.take] at htaken
    cases hd : d.take c <;> simp [hd] at htaken
  | ntlm n' =>
    rw [hs, Scheme.take] at htaken
    obtain ⟨hok, hnext⟩ := Prod.mk.inj htaken
    obtain rfl := Scheme.ntlm.inj hnext
    exact (h n' hs).take hok hincomplete

theorem header?_of_answer (hs : candidate.scheme = .ntlm n) (request : Request) (now : Instant)
    (draws : Draws) :
    (candidate.scheme.answer candidate.credentials request now draws).1.toOption =
      (Ntlm.Call.answer Ntlm.version2 candidate.credentials now draws).header? n := by
  rw [hs]
  rfl

/-- A handshake that is asked for a message is past the first one, or stays where it is, with no answer. -/
theorem IfHandshake.of_asked (h : candidate.IfHandshake Ntlm.Underway)
    (hn : (candidate.asked request now draws).scheme = .ntlm n) : n.Opened ∨ (candidate.scheme = .ntlm n ∧
      (candidate.scheme.answer candidate.credentials request now draws).1.toOption = none) := by
  cases hs : candidate.scheme with
  | basic b => simp [Candidate.asked, hs, Scheme.answer, Scheme.answerText] at hn
  | digest d => simp [Candidate.asked, hs, Scheme.answer, Scheme.answerText] at hn
  | ntlm n' =>
    rw [Candidate.asked, hs] at hn
    obtain rfl : (Ntlm.Call.answer Ntlm.version2 candidate.credentials now draws).next n' = n :=
      Scheme.ntlm.inj hn
    rcases (h n' hs).answer Ntlm.version2 candidate.credentials now draws with ⟨hsame, hnone⟩ | hopened
    · rw [← hs, header?_of_answer hs _ _ _, hsame]
      exact .inr ⟨hs, hnone⟩
    · exact .inl hopened

theorem IfHandshake.asked (h : candidate.IfHandshake Ntlm.Underway) :
    (candidate.asked request now draws).IfHandshake Ntlm.Underway := by
  intro n hn
  rcases h.of_asked hn with hopened | ⟨hs, -⟩
  · exact hopened.toUnderway
  · exact h n hs

theorem IfHandshake.underway (h : candidate.IfHandshake Ntlm.Opened) :
    candidate.IfHandshake Ntlm.Underway :=
  fun n hn => (h n hn).toUnderway

theorem IfHandshake.asked_opened (h : candidate.IfHandshake Ntlm.Opened) :
    (candidate.asked request now draws).IfHandshake Ntlm.Opened := by
  intro n hn
  rcases h.underway.of_asked hn with hopened | ⟨hs, -⟩
  · exact hopened
  · exact h n hs

/-- A handshake that has answered has sent a message. -/
theorem IfHandshake.asked_answered (h : candidate.IfHandshake Ntlm.Underway)
    (ha : (candidate.scheme.answer candidate.credentials request now draws).1 = .ok a) :
    (candidate.asked request now draws).IfHandshake Ntlm.Opened := by
  intro n hn
  rcases h.of_asked hn with hopened | ⟨-, hnone⟩
  · exact hopened
  · rw [ha] at hnone
    cases hnone

/-- What answers with a first message has a handshake that is not past it. -/
theorem not_isFirst_of_ifHandshake (h : candidate.IfHandshake Ntlm.Opened)
    (ha : (candidate.scheme.answer candidate.credentials request now draws).1 = .ok a) :
    ¬ Ntlm.IsFirst a.value := by
  cases hs : candidate.scheme with
  | basic b =>
    rw [hs] at ha
    have hpack : (Scheme.basic b).pack candidate.credentials (Basic.answer candidate.credentials) =
        .ok a := ha
    rw [Scheme.pack_ok hpack]
    exact Ntlm.not_isFirst_append "Basic " (by decide) _
  | digest d =>
    rw [hs] at ha
    obtain ⟨done, -, hvalue⟩ := Digest.answer_ok ha
    rw [hvalue]
    exact Ntlm.not_isFirst_append "Digest " (by decide) _
  | ntlm n =>
    have hheader : (Ntlm.Call.answer Ntlm.version2 candidate.credentials now draws).header? n = some a := by
      rw [← header?_of_answer hs request now draws, ha]
      rfl
    exact (h n hs).not_isFirst hheader

end Candidate

end

-- ---------------------------------------------------------------------------
-- Negotiations
-- ---------------------------------------------------------------------------

namespace Negotiation

def Act.answer? (n : Negotiation) : Act → Option Answer
  | .answer request now draws => (n.answer request now draws).answer.toOption.join
  | .hear .. | .react .. | .reset => none

def Act.selected? (n : Negotiation) : Act → Option (List Candidate)
  | .react env h => if (n.react env h).1 then (n.react env h).2.1.pending? else none
  | .hear .. | .answer .. | .reset => none

section
variable {n : Negotiation} {act : Act} {a : Answer}

theorem Act.exists_of_answer? (h : act.answer? n = some a) : ∃ request now draws,
    act = .answer request now draws ∧ (n.answer request now draws).answer = .ok (some a) := by
  cases act with
  | answer request now draws =>
    refine ⟨request, now, draws, rfl, ?_⟩
    revert h
    simp only [answer?]
    cases (n.answer request now draws).answer with
    | error fault => nofun
    | ok answer => exact fun h => congrArg Except.ok h
  | hear => cases h
  | react => cases h
  | reset => cases h

theorem Holds.apply_underway (hn : n.Holds (Candidate.IfHandshake Ntlm.Underway)) (act : Act) :
    (act.apply n).Holds (Candidate.IfHandshake Ntlm.Underway) := by
  cases act with
  | hear side status =>
    intro c hc
    rw [Act.apply, holding_hear] at hc
    exact hn c hc
  | react env h =>
    refine holds_react hn (fun cs c candidate scheme _ _ hcandidate htaken hincomplete => ?_)
      fun _ cs _ candidate hmem => Candidate.ifHandshake_of_mem_select hmem
    exact (Candidate.ifHandshake_taken hcandidate htaken hincomplete).underway
  | answer request now draws => exact (answer_holds request now draws (fun _ _ hc => hc.asked) hn).1
  | reset => exact holds_of_idle rfl

/-- Unless it selects candidates, an act leaves what is held past the first message. -/
theorem Holds.apply_opened (hn : n.Holds (Candidate.IfHandshake Ntlm.Opened)) (hs : act.selected? n = none) :
    (act.apply n).Holds (Candidate.IfHandshake Ntlm.Opened) := by
  cases act with
  | hear side status =>
    intro c hc
    rw [Act.apply, holding_hear] at hc
    exact hn c hc
  | react env h =>
    have hreaction := react_reaction n env h
    simp only [Act.selected?] at hs
    simp only [Act.apply]
    generalize n.react env h = result at hreaction hs ⊢
    cases hreaction with
    | same => exact hn
    | dropped idle => exact holds_of_idle idle
    | round challenges given active taken incomplete =>
      have hactive := active?_holds hn active
      exact holds_active.mpr (Candidate.ifHandshake_taken hactive.underway taken incomplete)
    | selection challenges => cases hs
  | answer request now draws =>
    exact (answer_holds request now draws (fun _ _ hc => hc.asked_opened) hn).1
  | reset => exact holds_of_idle rfl

theorem Holds.apply_answered (hn : n.Holds (Candidate.IfHandshake Ntlm.Underway))
    (ha : act.answer? n = some a) : (act.apply n).Holds (Candidate.IfHandshake Ntlm.Opened) := by
  obtain ⟨request, now, draws, rfl, hmade⟩ := Act.exists_of_answer? ha
  obtain ⟨c, draws', hc, hanswer, hactive⟩ :=
    (answer_holds request now draws (fun _ _ hc => hc.asked) hn).2 a hmade
  intro c' hc'
  rw [Act.apply, hactive] at hc'
  obtain rfl := List.mem_singleton.mp hc'
  exact hc.asked_answered hanswer

theorem Holds.not_isFirst (hn : n.Holds (Candidate.IfHandshake Ntlm.Opened)) (ha : act.answer? n = some a) :
    ¬ Ntlm.IsFirst a.value := by
  obtain ⟨request, now, draws, rfl, hmade⟩ := Act.exists_of_answer? ha
  obtain ⟨c, draws', hc, hanswer, -⟩ :=
    (answer_holds request now draws (fun _ _ hc => hc.asked_opened) hn).2 a hmade
  exact Candidate.not_isFirst_of_ifHandshake hc hanswer

end

-- ---------------------------------------------------------------------------
-- Acts of a negotiation
-- ---------------------------------------------------------------------------

section
variable {acts : List Act} {a b : Answer} {j k : Nat}

def before (acts : List Act) (j : Nat) : Negotiation := stateBefore Act.apply {} acts j

def answerAt? (acts : List Act) (j : Nat) : Option Answer := shownAt? Act.apply Act.answer? {} acts j

def selectedAt? (acts : List Act) (j : Nat) : Option (List Candidate) :=
  shownAt? Act.apply Act.selected? {} acts j

theorem underway_before (acts : List Act) (j : Nat) :
    (before acts j).Holds (Candidate.IfHandshake Ntlm.Underway) := by
  induction j with
  | zero => exact holds_of_idle rfl
  | succ j ih =>
    cases hact : acts[j]? with
    | none =>
      rw [before, stateBefore_succ_of_none hact]
      exact ih
    | some act =>
      rw [before, stateBefore_succ hact]
      exact ih.apply_underway act

/-- As long as nothing is selected after an answer, all that is held is past the first message. -/
theorem opened_before (ha : answerAt? acts j = some a) (hjk : j < k)
    (hnone : ∀ i, j < i → i < k → selectedAt? acts i = none) :
    (before acts k).Holds (Candidate.IfHandshake Ntlm.Opened) := by
  induction k, hjk using Nat.le_induction with
  | base =>
    obtain ⟨act, hact, hanswer⟩ := Option.bind_eq_some_iff.mp ha
    rw [before, stateBefore_succ hact]
    exact (underway_before acts j).apply_answered hanswer
  | succ k hjk ih =>
    have ih := ih fun i hji hik => hnone i hji (Nat.lt_succ_of_lt hik)
    cases hact : acts[k]? with
    | none =>
      rw [before, stateBefore_succ_of_none hact]
      exact ih
    | some act =>
      have hselected := hnone k hjk (Nat.lt_succ_self k)
      rw [selectedAt?, shownAt?_of_some hact] at hselected
      rw [before, stateBefore_succ hact]
      exact ih.apply_opened hselected

end

/-- Whatever is done with a new negotiation, for whatever hosts, and with which schemes and credentials: no
handshake that it holds, active or pending, is failed, was ever restarted, or would be if it were asked for
a message; and a first message that comes after any other answer, another first message for one, comes after
candidates were selected since. -/
theorem never_restarts (acts : List Act) :
    (∀ j, ∀ c ∈ (before acts j).holding.candidates, ∀ n, c.scheme = .ntlm n →
      n.stage ≠ .failed ∧ n.restarts = 0 ∧ n.restart = n) ∧
    (∀ j k a b, j < k → answerAt? acts j = some a → answerAt? acts k = some b →
      Ntlm.IsFirst b.value → ∃ i candidates, j < i ∧ i < k ∧ selectedAt? acts i = some candidates) := by
  constructor
  · intro j c hc n hn
    have hunderway := underway_before acts j c hc n hn
    exact ⟨hunderway.unfailed, hunderway.restarts, Ntlm.restart_of_unfailed hunderway.unfailed⟩
  · intro j k a b hjk ha hb hfirst
    by_contra hnone
    push Not at hnone
    have hopened : (before acts k).Holds (Candidate.IfHandshake Ntlm.Opened) :=
      opened_before ha hjk fun i hji hik =>
        Option.eq_none_iff_forall_ne_some.mpr fun candidates => hnone i candidates hji hik
    obtain ⟨act, -, hanswer⟩ := Option.bind_eq_some_iff.mp hb
    exact hopened.not_isFirst hanswer hfirst

/-- A handshake of a host that allows no token out of turn: asked for twice in a row, refused, and begun once
more behind a reset. -/
theorem never_restarts_begun_twice :
    let env : Env :=
      { strategy := { side := .target, schemes := Schemes.known ⟨0, 10⟩,
                      vault := ([({}, .windows "u" "p" none none)] : Vault) }
        host := ⟨"http", "a", none⟩
        preferred := none }
    let ask : Act := .react env [(HeaderName.wwwAuthenticate, Utf8.encode "NTLM")]
    let url : Url := ⟨"http", some ⟨[], [], some (.name "a"), none⟩, "/", none, none⟩
    let answer : Act := .answer { method := Method.get, url } .epoch ⟨[], 0⟩
    let acts := [ask, answer, answer, ask, answer, .reset, ask, answer]
    (∃ c n, c ∈ (before acts 1).holding.candidates ∧ c.scheme = .ntlm n ∧
      n.stage ≠ .failed ∧ n.restarts = 0 ∧ n.restart = n) ∧
    ∃ a b, 1 < 7 ∧ answerAt? acts 1 = some a ∧ answerAt? acts 7 = some b ∧ Ntlm.IsFirst b.value ∧
      ∃ i candidates, 1 < i ∧ i < 7 ∧ selectedAt? acts i = some candidates := by
  intro env ask url answer acts
  constructor
  · let n : Ntlm := { limits := ⟨0, 10⟩, side := some .target, stage := .challengeReceived }
    have hc : ⟨.ntlm n, .windows "u" "p" none none⟩ ∈ (before acts 1).holding.candidates := by
      decide +kernel
    exact ⟨_, n, hc, rfl, (never_restarts acts).1 1 _ hc n rfl⟩
  · obtain ⟨a, ha⟩ : ∃ a, answerAt? acts 1 = some a := Option.isSome_iff_exists.mp (by decide +kernel)
    obtain ⟨b, hb⟩ : ∃ b, answerAt? acts 7 = some b := Option.isSome_iff_exists.mp (by decide +kernel)
    have hfirst : (answerAt? acts 7).any (fun b => Ntlm.IsFirst b.value) = true := by decide +kernel
    rw [hb] at hfirst
    have hfirst : Ntlm.IsFirst b.value := of_decide_eq_true hfirst
    exact ⟨a, b, by decide, ha, hb, hfirst, (never_restarts acts).2 1 7 a b (by decide) ha hb hfirst⟩

end Negotiation

end HttpSession.Auth
