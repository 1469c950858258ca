import HttpSession.Proofs.Auth.Handshakes
import HttpSession.Proofs.Auth.NegotiationLaws
import HttpSession.Proofs.CallByCall

/-!
# Tokens of a handshake

A server may send its tokens in any order, past every bound, and ask anew in between. A handshake keeps the
token of the last challenge, whatever it makes of it, and stands where it can answer a token only as long as
nothing was sent since that challenge (`exists_awaits`): a token is taken by a challenge alone, and the last
message ends the wait for it.

Main statement: every last message answers the token of the latest challenge, and no two of them the same
challenge (`answers_latest_once`).
-/

namespace HttpSession.Auth.Ntlm

/-- Of the calls before call `j`, call `i` is the last one that gives a challenge. -/
structure IsLatest (calls : List Call) (i j : Nat) (c : Challenge) : Prop where
  before : i < j
  given : calls[i]? = some (.take c)
  latest : ∀ k d, i < k → k < j → calls[k]? ≠ some (.take d)

def messageAt? : Ntlm → List Call → Nat → Option Message := shownAt? Call.next Call.message?

namespace Call

def opening? : Call → Option Text
  | .take _ => none
  | .answer engine credentials _ _ =>
    credentials.network.bind fun network =>
      (engine.negotiate network.domain network.workstation).toOption

def reply? (token : Text) : Call → Option Text
  | .take _ => none
  | .answer engine credentials now draws => (engine.respond credentials token now draws).1.toOption

end Call

section
variable {n : Ntlm} {calls : List Call} {call : Call} {i i' j k : Nat} {c c' : Challenge} {m : Message}
  {a : Answer}

theorem IsLatest.extend (h : IsLatest calls i j c) (hj : ∀ d, calls[j]? ≠ some (.take d)) :
    IsLatest calls i (j + 1) c where
  before := Nat.lt_succ_of_lt h.before
  given := h.given
  latest k d hik hkj := by
    rcases Nat.lt_succ_iff_lt_or_eq.mp hkj with hkj | rfl
    · exact h.latest k d hik hkj
    · exact hj d

theorem isLatest_of_take (h : calls[j]? = some (.take c)) : IsLatest calls j (j + 1) c :=
  ⟨Nat.lt_succ_self j, h, fun _ _ hjk hkj => absurd hkj (Nat.not_lt.mpr hjk)⟩

theorem IsLatest.unique (h : IsLatest calls i j c) (h' : IsLatest calls i' j c') : i = i' := by
  rcases Nat.lt_trichotomy i i' with hlt | rfl | hlt
  · exact absurd h'.given (h.latest i' c' hlt h'.before)
  · rfl
  · exact absurd h.given (h'.latest i c hlt h.before)

-- ---------------------------------------------------------------------------
-- What a call leaves
-- ---------------------------------------------------------------------------

theorem token_of_take (h : (n.take c).2.stage = .type2Received) :
    c.token = some (n.take c).2.token ∧ (n.take c).2.token ≠ [] := by
  have htoken : (n.take c).2.token = c.token.getD [] := by
    unfold take
    dsimp only
    split
    · rfl
    · split
      · rfl
      · split <;> rfl
  rw [htoken]
  have hne : c.token.getD [] ≠ [] := by
    intro hnil
    simp only [take, hnil, if_pos] at h
    revert h
    cases n.stage <;> simp [askedStage]
  refine ⟨?_, hne⟩
  cases hc : c.token with
  | none => exact absurd (by rw [hc]; rfl) hne
  | some token => rfl

theorem restart_of_stage (h : n.restart.stage = .type2Received) : n.restart = n := by
  unfold restart at h ⊢
  split at h
  · cases h
  · rename_i hrestart
    rw [if_neg hrestart]

theorem due?_eq_last_iff {stage : Stage} : due? stage = some .last ↔ stage = .type2Received := by
  cases stage <;> simp [due?]

theorem stage_sent_ne (m : Message) : (n.sent m).stage ≠ .type2Received := by
  cases m <;> simp [sent]

namespace Call

variable {engine : Engine} {credentials : Credentials} {now : Instant} {draws : Draws}

/-- A call to answer leaves a token due only if it leaves everything as it was, and returns nothing. -/
theorem answer_waits (h : ((answer engine credentials now draws).next n).stage = .type2Received) :
    (answer engine credentials now draws).next n = n ∧
      (answer engine credentials now draws).header? n = none := by
  cases hnetwork : credentials.network with
  | none => exact answer_foreign n engine now draws hnetwork
  | some network =>
    obtain ⟨result, behind, hsending, hnext, hheader⟩ := answer_sending n engine now draws hnetwork
    rw [hnext] at h ⊢
    rw [hheader]
    cases hsending with
    | message => exact absurd h (stage_sent_ne _)
    | fault => exact ⟨restart_of_stage h, rfl⟩

/-- A header holds the message that is due, as the engine of the call made it. -/
theorem exists_of_header? (h : call.header? n = some a) :
    ∃ m text, call.message? n = some m ∧ a.value = Utf8.encode ("NTLM " ++ text) ∧
      match m with
      | .first => call.opening? = some text
      | .last => call.reply? n.token = some text := by
  cases call with
  | take c => cases h
  | answer engine credentials now draws =>
    cases hnetwork : credentials.network with
    | none =>
      rw [(answer_foreign n engine now draws hnetwork).2] at h
      cases h
    | some network =>
      obtain ⟨result, behind, hsending, -, hheader⟩ := answer_sending n engine now draws hnetwork
      have hsome := h
      rw [hheader] at h
      cases hsending with
      | fault => cases h
      | @message m text hdue hmade =>
        rw [made_restart] at hmade
        have hvalue : a.value = Utf8.encode ("NTLM " ++ text) := by
          simp only [Except.bind] at h
          cases hpack : (Scheme.ntlm n).pack credentials ("NTLM " ++ text) with
          | error fault =>
            rw [hpack] at h
            cases h
          | ok a' =>
            rw [hpack] at h
            obtain rfl := Option.some.inj h
            rw [Scheme.pack_ok hpack]
        refine ⟨m, text, by simp [message?, hsome, hdue], hvalue, ?_⟩
        cases m with
        | first =>
          have hmade : engine.negotiate network.domain network.workstation = .ok text := hmade
          simp [opening?, hnetwork, hmade, Except.toOption]
        | last =>
          have hmade : (engine.respond credentials n.token now draws).1 = .ok text := hmade
          simp [reply?, hmade, Except.toOption]

end Call

theorem stage_of_message? (h : call.message? n = some .last) : n.stage = .type2Received := by
  obtain ⟨_, _, _, _, _, _, -, -, hdue, -⟩ := Call.message?_eq_some_iff.mp h
  have hstage := due?_eq_last_iff.mp hdue
  rwa [restart_of_stage hstage] at hstage

theorem header?_eq_none_of_stage (h : n.stage ∈ [.uninitiated, .type1Sent, .type3Sent]) :
    call.header? n = none := by
  cases hheader : call.header? n with
  | none => rfl
  | some a =>
    obtain ⟨m, text, hmessage, -⟩ := Call.exists_of_header? hheader
    obtain ⟨_, _, _, _, _, _, -, -, hdue, -⟩ := Call.message?_eq_some_iff.mp hmessage
    -- none of these is a stage that restarts, and nothing is due at them
    revert hdue h
    cases hs : n.stage <;> simp [restart, due?, hs]

-- ---------------------------------------------------------------------------
-- Waiting for an answer
-- ---------------------------------------------------------------------------

/-- Before call `j` a handshake holds the token that call `i` gave, and has returned nothing since. -/
structure Awaits (n : Ntlm) (calls : List Call) (i j : Nat) (c : Challenge) : Prop where
  latest : IsLatest calls i j c
  token : c.token = some (stateBefore Call.next n calls j).token
  token_ne_nil : (stateBefore Call.next n calls j).token ≠ []
  unanswered : ∀ k, i < k → k < j → messageAt? n calls k = none

theorem Awaits.extend (h : Awaits n calls i j c) (hj : ∀ d, calls[j]? ≠ some (.take d))
    (hstate : stateBefore Call.next n calls (j + 1) = stateBefore Call.next n calls j)
    (hmessage : messageAt? n calls j = none) : Awaits n calls i (j + 1) c where
  latest := h.latest.extend hj
  token := hstate ▸ h.token
  token_ne_nil := hstate ▸ h.token_ne_nil
  unanswered k hik hkj := by
    rcases Nat.lt_succ_iff_lt_or_eq.mp hkj with hkj | rfl
    · exact h.unanswered k hik hkj
    · exact hmessage

/-- Wherever a token is due, the latest challenge gave it and it has not been answered. -/
theorem exists_awaits (hn : n.stage ≠ .type2Received) (calls : List Call) (j : Nat)
    (h : (stateBefore Call.next n calls j).stage = .type2Received) : ∃ i c, Awaits n calls i j c := by
  induction j with
  | zero => exact absurd h hn
  | succ j ih =>
    cases hcall : calls[j]? with
    | none =>
      have hstate : stateBefore Call.next n calls (j + 1) = stateBefore Call.next n calls j :=
        stateBefore_succ_of_none hcall
      rw [hstate] at h
      obtain ⟨i, c, hawaits⟩ := ih h
      exact ⟨i, c, hawaits.extend (by simp [hcall]) hstate (shownAt?_of_none hcall)⟩
    | some call =>
      have hstate : stateBefore Call.next n calls (j + 1) = call.next (stateBefore Call.next n calls j) :=
        stateBefore_succ hcall
      cases call with
      | take c =>
        -- whatever stood before, the wait begins anew
        rw [hstate] at h
        obtain ⟨htoken, hne⟩ := token_of_take h
        exact ⟨j, c, isLatest_of_take hcall, hstate ▸ htoken, hstate ▸ hne,
          fun k hjk hkj => absurd hkj (Nat.not_lt.mpr hjk)⟩
      | answer engine credentials now draws =>
        -- a wait that goes on behind a call is the one before it, and the call returned nothing
        rw [hstate] at h
        obtain ⟨hsame, hheader⟩ := Call.answer_waits h
        rw [hsame] at h hstate
        obtain ⟨i, c, hawaits⟩ := ih h
        have hmessage : messageAt? n calls j = none := by
          rw [messageAt?, shownAt?_of_some hcall, Call.message?, hheader]
          rfl
        exact ⟨i, c, hawaits.extend (by simp [hcall]) hstate hmessage⟩

theorem exists_awaits_of_messageAt? (hn : n.stage ≠ .type2Received)
    (h : messageAt? n calls j = some .last) : ∃ i c, Awaits n calls i j c := by
  obtain ⟨call, -, hmessage⟩ := Option.bind_eq_some_iff.mp h
  exact exists_awaits hn calls j (stage_of_message? hmessage)

theorem not_lt_of_isLatest (hn : n.stage ≠ .type2Received) (hj : messageAt? n calls j = some .last)
    (hk : messageAt? n calls k = some .last) (hij : IsLatest calls i j c) (hik : IsLatest calls i k c) :
    ¬ j < k := by
  intro hjk
  obtain ⟨i', c', h⟩ := exists_awaits_of_messageAt? hn hk
  obtain rfl := hik.unique h.latest
  exact Option.some_ne_none _ (hj.symm.trans (h.unanswered j hij.before hjk))

end

/-- However a new handshake is given challenges and asked for answers: where a token is due, it is the one
of the latest challenge; every header holds a first message or one that answers this token; no two last
messages answer the same challenge; and nothing is returned out of turn. -/
theorem answers_latest_once (limits : Limits) (calls : List Call) :
    let before := stateBefore Call.next { limits } calls
    (∀ j, (before j).stage = .type2Received →
      ∃ i c, IsLatest calls i j c ∧ c.token = some (before j).token ∧ (before j).token ≠ []) ∧
    (∀ j call a, calls[j]? = some call → call.header? (before j) = some a →
      ∃ text, a.value = Utf8.encode ("NTLM " ++ text) ∧
        ((messageAt? { limits } calls j = some .first ∧ call.opening? = some text) ∨
          (messageAt? { limits } calls j = some .last ∧ ∃ i c token, IsLatest calls i j c ∧
            c.token = some token ∧ token ≠ [] ∧ call.reply? token = some text))) ∧
    (∀ i j k c, messageAt? { limits } calls j = some .last → messageAt? { limits } calls k = some .last →
      IsLatest calls i j c → IsLatest calls i k c → j = k) ∧
    (∀ j call, calls[j]? = some call → (before j).stage ∈ [.uninitiated, .type1Sent, .type3Sent] →
      call.header? (before j) = none) := by
  have hn : ({ limits } : Ntlm).stage ≠ .type2Received := by simp
  refine ⟨fun j h => ?_, fun j call a hcall hheader => ?_, fun i j k c hj hk hij hik => ?_,
    fun j call _ hstage => header?_eq_none_of_stage hstage⟩
  · obtain ⟨i, c, h⟩ := exists_awaits hn calls j h
    exact ⟨i, c, h.latest, h.token, h.token_ne_nil⟩
  · obtain ⟨m, text, hmessage, hvalue, hmade⟩ := Call.exists_of_header? hheader
    have hat : messageAt? { limits } calls j = some m := (shownAt?_of_some hcall).trans hmessage
    refine ⟨text, hvalue, ?_⟩
    cases m with
    | first => exact .inl ⟨hat, hmade⟩
    | last =>
      obtain ⟨i, c, h⟩ := exists_awaits_of_messageAt? hn hat
      exact .inr ⟨hat, i, c, _, h.latest, h.token, h.token_ne_nil, hmade⟩
  · -- the later of the two would find that nothing was returned since the challenge
    have hjk : ¬ j < k := not_lt_of_isLatest hn hj hk hij hik
    have hkj : ¬ k < j := not_lt_of_isLatest hn hk hj hik hij
    exact Nat.le_antisymm (Nat.not_lt.mp hkj) (Nat.not_lt.mp hjk)

-- of two tokens in a row the second one is answered, and only once
example :
    let engine : Engine := ⟨fun _ _ => .ok "hello", fun _ token _ draws => (.ok token, draws)⟩
    let take (token : Option Text) : Call := .take { side := .target, scheme := "ntlm", token }
    let answer : Call := .answer engine (.windows "u" "p" none none) .epoch ⟨[], 1⟩
    let calls := [take none, answer, take (some "old"), take (some "new"), answer, answer]
    (List.range 6).map (messageAt? { limits := {} } calls) =
        [none, some .first, none, none, some .last, none] ∧
      (stateBefore Call.next { limits := {} } calls 4).token = "new" := by
  decide +kernel

end HttpSession.Auth.Ntlm
