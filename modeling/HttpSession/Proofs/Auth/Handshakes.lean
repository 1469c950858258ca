import Mathlib.Data.List.Count
import HttpSession.Auth.Scheme

/-!
# Handshakes, call by call

A handshake is driven by two kinds of calls in any order: to take a challenge, and to answer with some
credentials. A call to answer returns a header with one of the two messages of a client, or a fault.
Nothing is assumed of the engine that makes the messages: it may fail, and be another one each time.

The bound is a potential. A first message uses up the beginning of the handshake or one restart; a last
message uses up a challenge that was accepted, either at any stage or after a first message. A call lowers
the potential by what it sends and never raises it (`withinBudget_call`).

Main statement: of a new handshake no calls make more first messages than it may restart, plus one, nor
more last messages than it may take challenges and restart, plus one (`messages_bounded`).
-/

namespace HttpSession.Auth.Ntlm

-- ---------------------------------------------------------------------------
-- Calls
-- ---------------------------------------------------------------------------

inductive Call
  | take (c : Challenge)
  | answer (engine : Engine) (credentials : Credentials) (now : Instant) (draws : Draws)

inductive Message
  | first
  | last
  deriving DecidableEq, Repr

def due? : Stage → Option Message
  | .challengeReceived => some .first
  | .type2Received => some .last
  | _ => none

def Message.made (n : Ntlm) (engine : Engine) (credentials : Credentials) (network : Network)
    (now : Instant) (draws : Draws) : Message → Except Fault Text
  | .first => engine.negotiate network.domain network.workstation
  | .last => (engine.respond credentials n.token now draws).1

namespace Call

def next (n : Ntlm) : Call → Ntlm
  | .take c => (n.take c).2
  | .answer engine credentials now draws => (n.answer engine credentials now draws).2.1

def header? (n : Ntlm) : Call → Option Answer
  | .take _ => none
  | .answer engine credentials now draws =>
    ((n.answer engine credentials now draws).1.bind ((Scheme.ntlm n).pack credentials)).toOption

def message? (n : Ntlm) (call : Call) : Option Message :=
  if (call.header? n).isSome then due? n.restart.stage else none

end Call

def messages (n : Ntlm) : List Call → List Message
  | [] => []
  | call :: rest => (call.message? n).toList ++ messages (call.next n) rest

def sent (n : Ntlm) : Message → Ntlm
  | .first => { n with stage := .type1Sent }
  | .last => { n with stage := .type3Sent }

section
variable {n next : Ntlm} {engine : Engine} {credentials : Credentials} {network : Network} {now : Instant}
  {draws : Draws} {call : Call} {m : Message}

theorem Call.header?_version2 (n : Ntlm) (credentials : Credentials) (request : Request) (now : Instant)
    (draws : Draws) : ((Scheme.ntlm n).answer credentials request now draws).1.toOption =
      (Call.answer version2 credentials now draws).header? n := rfl

/-- What comes of sending: the message that is due, or a fault, if none is due or the engine makes none. -/
inductive Sending (n : Ntlm) (engine : Engine) (credentials : Credentials) (network : Network)
    (now : Instant) (draws : Draws) : Except Fault Text → Ntlm → Prop
  | message {m : Message} {text : Text} (due : due? n.stage = some m)
    (made : m.made n engine credentials network now draws = .ok text) :
    Sending n engine credentials network now draws (.ok ("NTLM " ++ text)) (n.sent m)
  | fault {fault : Fault}
    (unmade : ∀ m text, due? n.stage = some m → m.made n engine credentials network now draws ≠ .ok text) :
    Sending n engine credentials network now draws (.error fault) n

theorem send_sending (n : Ntlm) (engine : Engine) (credentials : Credentials) (network : Network)
    (now : Instant) (draws : Draws) :
    Sending n engine credentials network now draws (n.send engine credentials network now draws).1
      (n.send engine credentials network now draws).2.1 := by
  cases hstage : n.stage with
  | challengeReceived =>
    have hdue : due? n.stage = some .first := by simp [hstage, due?]
    cases hmade : engine.negotiate network.domain network.workstation with
    | ok text =>
      simp only [send, hstage, hmade]
      exact .message hdue hmade
    | error fault =>
      simp only [send, hstage, hmade]
      refine .fault ?_
      rintro m text hm
      obtain rfl := Option.some.inj (hdue.symm.trans hm)
      simp [Message.made, hmade]
  | type2Received =>
    have hdue : due? n.stage = some .last := by simp [hstage, due?]
    rcases hmade : engine.respond credentials n.token now draws with ⟨fault | text, rest⟩
    · simp only [send, hstage, hmade]
      refine .fault ?_
      rintro m text hm
      obtain rfl := Option.some.inj (hdue.symm.trans hm)
      simp [Message.made, hmade]
    · simp only [send, hstage, hmade]
      exact .message hdue (by simp [Message.made, hmade])
  | _ =>
    simp only [send, hstage]
    exact .fault (by simp [due?, hstage])

theorem made_restart (m : Message) : m.made n.restart engine credentials network now draws =
    m.made n engine credentials network now draws := by
  have htoken : n.restart.token = n.token := by
    unfold restart
    split <;> rfl
  cases m <;> simp [Message.made, htoken]

theorem isSome_pack_iff {s : Scheme} {text : Text} :
    (s.pack credentials text).toOption.isSome = true ↔ (HeaderValue.ofText? text).isSome = true := by
  unfold Scheme.pack
  cases HeaderValue.ofText? text <;> simp [Except.toOption]

namespace Call

/-- What comes of a call to answer with credentials for Windows networks. -/
theorem answer_sending (n : Ntlm) (engine : Engine) (now : Instant) (draws : Draws)
    (hnetwork : credentials.network = some network) : ∃ result behind,
    Sending n.restart engine credentials network now draws result behind ∧
      (answer engine credentials now draws).next n = behind ∧
        (answer engine credentials now draws).header? n =
          (result.bind ((Scheme.ntlm n).pack credentials)).toOption := by
  have hanswer : n.answer engine credentials now draws =
      n.restart.send engine credentials network now draws := by
    simp [Ntlm.answer, hnetwork]
  rw [next, header?, hanswer]
  exact ⟨_, _, send_sending n.restart engine credentials network now draws, rfl, rfl⟩

theorem answer_foreign (n : Ntlm) (engine : Engine) (now : Instant) (draws : Draws)
    (hnetwork : credentials.network = none) : (answer engine credentials now draws).next n = n ∧
      (answer engine credentials now draws).header? n = none := by
  simp [next, header?, Ntlm.answer, hnetwork, Except.bind, Except.toOption]

theorem isSome_header?_iff (hnetwork : credentials.network = some network) :
    ((answer engine credentials now draws).header? n).isSome = true ↔
      ∃ m text, due? n.restart.stage = some m ∧ m.made n engine credentials network now draws = .ok text ∧
        (HeaderValue.ofText? ("NTLM " ++ text)).isSome = true := by
  obtain ⟨result, behind, hsending, -, hheader⟩ := answer_sending n engine now draws hnetwork
  rw [hheader]
  cases hsending with
  | @message m text hdue hmade =>
    rw [made_restart] at hmade
    simp only [Except.bind, isSome_pack_iff]
    constructor
    · intro hvalue
      exact ⟨m, text, hdue, hmade, hvalue⟩
    · rintro ⟨m', text', hdue', hmade', hvalue⟩
      obtain rfl := Option.some.inj (hdue.symm.trans hdue')
      obtain rfl := Except.ok.inj (hmade.symm.trans hmade')
      exact hvalue
  | fault hunmade =>
    simp only [made_restart] at hunmade
    constructor
    · nofun
    · rintro ⟨m, text, hdue, hmade, -⟩
      exact absurd hmade (hunmade m text hdue)

/-- A call returns a header with a message exactly if it answers with credentials for Windows networks,
the message is due, and the engine makes one that a header can hold. -/
theorem message?_eq_some_iff : call.message? n = some m ↔
    ∃ engine credentials now draws network text, call = .answer engine credentials now draws ∧
      credentials.network = some network ∧ due? n.restart.stage = some m ∧
        m.made n engine credentials network now draws = .ok text ∧
          (HeaderValue.ofText? ("NTLM " ++ text)).isSome = true := by
  have hmessage : call.message? n = some m ↔
      (call.header? n).isSome = true ∧ due? n.restart.stage = some m := by
    simp [message?]
  rw [hmessage]
  constructor
  · rintro ⟨hheader, hdue⟩
    cases call with
    | take c => cases hheader
    | answer engine credentials now draws =>
      cases hnetwork : credentials.network with
      | none => simp [(answer_foreign n engine now draws hnetwork).2] at hheader
      | some network =>
        obtain ⟨m', text, hdue', hmade, hvalue⟩ := (isSome_header?_iff hnetwork).mp hheader
        obtain rfl := Option.some.inj (hdue.symm.trans hdue')
        exact ⟨engine, credentials, now, draws, network, text, rfl, hnetwork, hdue, hmade, hvalue⟩
  · rintro ⟨engine, credentials, now, draws, network, text, rfl, hnetwork, hdue, hmade, hvalue⟩
    exact ⟨(isSome_header?_iff hnetwork).mpr ⟨m, text, hdue, hmade, hvalue⟩, hdue⟩

end Call

-- ---------------------------------------------------------------------------
-- Payments
-- ---------------------------------------------------------------------------

/-- The first messages that may still come: one for each restart left, and one if the handshake is not past
its beginning. -/
def firstsLeft (n : Ntlm) : Nat :=
  n.limits.restarts - n.restarts +
    if n.stage = .uninitiated ∨ n.stage = .challengeReceived then 1 else 0

/-- The last messages that may still come: one for each challenge that is accepted at any stage, one for
each first message to come, and one if a challenge is awaited behind a first message or was accepted. -/
def lastsLeft (n : Ntlm) : Nat :=
  n.limits.challenges - n.challenges + n.firstsLeft +
    if n.stage = .type1Sent ∨ n.stage = .type2Received then 1 else 0

/-- A call sends no more than was left before it, less what is left behind it. -/
structure WithinBudget (n : Ntlm) (message : Option Message) (next : Ntlm) : Prop where
  firsts : message.toList.count .first + next.firstsLeft ≤ n.firstsLeft
  persists : message.toList.count .last + next.lastsLeft ≤ n.lastsLeft

theorem withinBudget_take (n : Ntlm) (c : Challenge) : WithinBudget n none (n.take c).2 := by
  simp only [take]
  split
  · constructor <;> cases hstage : n.stage <;> simp [firstsLeft, lastsLeft, askedStage, hstage]
  split
  · constructor <;> cases hstage : n.stage <;> simp [firstsLeft, lastsLeft, hstage] <;> omega
  · constructor <;> cases hstage : n.stage <;> simp [firstsLeft, lastsLeft, lateStage, hstage] <;> omega

theorem withinBudget_restart (n : Ntlm) : WithinBudget n none n.restart := by
  unfold restart
  split
  · rename_i h
    constructor <;> simp [firstsLeft, lastsLeft, h.1] <;> omega
  · constructor <;> simp

theorem withinBudget_sent (h : due? n.stage = some m) : WithinBudget n (some m) (n.sent m) := by
  cases m with
  | first =>
    have hstage : n.stage = .challengeReceived := by
      cases hn : n.stage <;> simp_all [due?]
    constructor <;> simp [sent, firstsLeft, lastsLeft, hstage]
    all_goals omega
  | last =>
    have hstage : n.stage = .type2Received := by
      cases hn : n.stage <;> simp_all [due?]
    constructor <;> simp [sent, firstsLeft, lastsLeft, hstage]
    omega

theorem withinBudget_refl (n : Ntlm) : WithinBudget n none n := ⟨by simp, by simp⟩

theorem WithinBudget.unsent {message : Option Message} (h : WithinBudget n message next) :
    WithinBudget n none next :=
  ⟨Nat.le_trans (by simp) h.firsts, Nat.le_trans (by simp) h.persists⟩

theorem WithinBudget.behind {between : Ntlm} {message : Option Message} (h : WithinBudget n none between)
    (h' : WithinBudget between message next) : WithinBudget n message next where
  firsts := Nat.le_trans h'.firsts (by simpa using h.firsts)
  persists := Nat.le_trans h'.persists (by simpa using h.persists)

theorem withinBudget_call (n : Ntlm) (call : Call) : WithinBudget n (call.message? n) (call.next n) := by
  cases call with
  | take c => exact withinBudget_take n c
  | answer engine credentials now draws =>
    cases hnetwork : credentials.network with
    | none =>
      obtain ⟨hnext, hheader⟩ := Call.answer_foreign n engine now draws hnetwork
      rw [Call.message?, hheader, hnext]
      exact withinBudget_refl n
    | some network =>
      obtain ⟨result, behind, hsending, hnext, hheader⟩ := Call.answer_sending n engine now draws hnetwork
      rw [Call.message?, hheader, hnext]
      refine (withinBudget_restart n).behind ?_
      cases hsending with
      | message hdue =>
        -- a header that cannot hold the message is not returned, but the message is made
        split
        · exact hdue ▸ withinBudget_sent hdue
        · exact (withinBudget_sent hdue).unsent
      | fault => exact withinBudget_refl _

/-- No calls make a handshake send more messages than are left to it. -/
theorem messages_withinBudget (n : Ntlm) (calls : List Call) :
    (n.messages calls).count .first ≤ n.firstsLeft ∧ (n.messages calls).count .last ≤ n.lastsLeft := by
  induction calls generalizing n with
  | nil => simp [messages]
  | cons call rest ih =>
    obtain ⟨hfirsts, hlasts⟩ := withinBudget_call n call
    obtain ⟨hfirst, hlast⟩ := ih (call.next n)
    simp only [messages, List.count_append]
    omega

end

/-- However often and in whatever order a new handshake is given challenges and asked for answers, by
whatever engines, its first messages are at most as many as its restarts and one, and its last messages
at most as many as its challenges and its restarts together and one. -/
theorem messages_bounded (limits : Limits) (calls : List Call) :
    (messages { limits } calls).count .first ≤ limits.restarts + 1 ∧
      (messages { limits } calls).count .last ≤ limits.challenges + limits.restarts + 1 :=
  messages_withinBudget { limits } calls

end HttpSession.Auth.Ntlm
