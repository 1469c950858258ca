import Mathlib.Data.List.DropRight
import HttpSession.Proofs.Auth.DigestAnswer
import HttpSession.Proofs.CallByCall

/-!
# Counts of nonces

A Digest scheme is driven by two kinds of calls in any order: to take a challenge, which it may refuse, and
to answer with some credentials, which may fail. An answer counts as soon as realm, nonce and protection are
known, whatever fails behind that. Challenges leave the count alone, so it goes on when a server repeats a
nonce, and begins anew only when another nonce is answered (`counter_next`).

The count is a number of 32 bits. Behind the last one comes zero; a program that checks its additions stops
there instead, and what it got to before is the same (`WithinWidth`).

Main statement: the count of an answer is one more than the answers to its nonce since another one was
answered last, modulo `2 ^ 32`, and as long as challenges stay with a nonce and the count within 32 bits, the
counts printed for it increase (`counts_answers`).
-/

namespace HttpSession.Auth.Digest

-- ---------------------------------------------------------------------------
-- Hexadecimal numerals
-- ---------------------------------------------------------------------------

def digitValue (c : Char) : Nat := if c.isDigit then c.toNat - '0'.toNat else c.toNat - 'a'.toNat + 10

def hexValue (t : Text) : Nat := t.foldl (fun read c => 16 * read + digitValue c) 0

theorem digitValue_digitChar : ∀ n < 16, digitValue n.digitChar = n := by decide

theorem hexValue_concat (t : Text) (c : Char) : hexValue (t ++ [c]) = 16 * hexValue t + digitValue c := by
  simp [hexValue]

theorem hexValue_toDigits (n : Nat) : hexValue (Nat.toDigits 16 n) = n := by
  induction n using Nat.strongRecOn with
  | ind n ih =>
    by_cases hn : n < 16
    · rw [Nat.toDigits_of_lt_base hn]
      simpa [hexValue] using digitValue_digitChar n hn
    · rw [Nat.toDigits_of_base_le (by decide) (by omega), hexValue_concat, ih (n / 16) (by omega),
        digitValue_digitChar _ (Nat.mod_lt n (by decide)), Nat.div_add_mod]

theorem hexValue_countText (count : UInt32) : hexValue (countText count) = count.toNat := by
  have hzeros (zeros : Nat) (t : Text) : hexValue (List.replicate zeros '0' ++ t) = hexValue t := by
    induction zeros with
    | zero => rfl
    | succ zeros ih => exact ih
  rw [countText, Text.padded, hzeros, hexValue_toDigits]

theorem length_countText (count : UInt32) : (countText count).length = 8 := by
  have hle : (Nat.toDigits 16 count.toNat).length ≤ 8 :=
    (Nat.length_toDigits_le_iff (by decide) (by decide)).mpr count.toNat_lt
  rw [countText, Text.padded, List.length_append, List.length_replicate]
  exact Nat.sub_add_cancel hle

-- ---------------------------------------------------------------------------
-- Calls
-- ---------------------------------------------------------------------------

inductive Call
  | take (c : Challenge)
  | answer (draws : Draws) (credentials : Credentials) (request : Request)

namespace Call

/-- The scheme behind a call; a challenge that is refused leaves it as it was. -/
def next (d : Digest) : Call → Digest
  | .take c =>
    match d.take c with
    | .ok next => next
    | .error _ => d
  | .answer draws credentials request => (d.answer draws credentials request).2.1

/-- The nonce that a call answers, as soon as there is something to make an answer of. -/
def nonce? (d : Digest) : Call → Option Text
  | .take _ => none
  | .answer _ _ _ => d.basis.toOption.map (·.nonce)

def printed? (d : Digest) : Call → Option Text
  | .take _ => none
  | .answer draws credentials request =>
    (d.answered draws credentials request).toOption.bind (·.count)

theorem scheme_take (d : Digest) (c : Challenge) :
    ((Scheme.digest d).take c).2 = .digest ((take c).next d) := by
  simp only [Scheme.take, next]
  cases d.take c <;> rfl

theorem scheme_answer (d : Digest) (draws : Draws) (credentials : Credentials) (request : Request)
    (now : Instant) : ((Scheme.digest d).answer credentials request now draws).2.1 =
      .digest ((answer draws credentials request).next d) := rfl

end Call

def nonceAt? : Digest → List Call → Nat → Option Text := shownAt? Call.next Call.nonce?

def printedAt? : Digest → List Call → Nat → Option Text := shownAt? Call.next Call.printed?

def noncesBefore (d : Digest) (calls : List Call) (j : Nat) : List Text :=
  (List.range j).filterMap (nonceAt? d calls)

/-- How many answers before call `j` went to a nonce since another one was answered last. -/
def streakBefore (d : Digest) (calls : List Call) (j : Nat) (nonce : Text) : Nat :=
  ((noncesBefore d calls j).rtakeWhile (· = nonce)).length

/-- Counting an answer to a nonce goes beyond 32 bits. -/
def Counter.Overflows (c : Counter) (nonce : Text) : Prop :=
  c.nonce = some nonce ∧ UInt32.size ≤ c.count.toNat + 1

/-- No call up to call `j` counts beyond 32 bits. Where additions are checked, this is so of every call that
comes to its end. -/
def WithinWidth (d : Digest) (calls : List Call) (j : Nat) : Prop :=
  ∀ k ≤ j, ∀ nonce, nonceAt? d calls k = some nonce →
    ¬ (stateBefore Call.next d calls k).counter.Overflows nonce

section
variable {d : Digest} {calls : List Call} {call : Call} {i j : Nat} {nonce other text : Text}

-- ---------------------------------------------------------------------------
-- What a call counts
-- ---------------------------------------------------------------------------

theorem nonce_tick (c : Counter) (nonce : Text) : (c.tick nonce).nonce = some nonce := by
  unfold Counter.tick
  split
  · assumption
  · rfl

theorem count_tick_tick (c : Counter) (nonce other : Text) : ((c.tick nonce).tick other).count =
    if nonce = other then (c.tick nonce).count + 1 else 1 := by
  rw [Counter.tick, nonce_tick]
  by_cases h : nonce = other <;> simp [h]

theorem overflows_iff (c : Counter) (nonce : Text) : c.Overflows nonce ↔ (c.tick nonce).count = 0 := by
  unfold Counter.Overflows Counter.tick
  split
  · rename_i h
    have hlt := c.count.toNat_lt
    simp only [h, true_and, ← UInt32.toNat_inj, UInt32.toNat_add, UInt32.size]
    simp only [UInt32.reduceToNat]
    omega
  · rename_i h
    simp [h]

/-- A call counts one answer to the nonce that it answers, and nothing else. -/
theorem counter_next (d : Digest) (call : Call) :
    (call.next d).counter = (call.nonce? d).elim d.counter d.counter.tick := by
  cases call with
  | take c =>
    simp only [Call.next, Call.nonce?, Digest.take, Option.elim_none]
    split
    · rename_i next h
      split at h
      · cases h
      · obtain rfl := Except.ok.inj h
        rfl
    · rfl
  | answer draws credentials request =>
    simp only [Call.next, Call.nonce?, answer]
    cases d.basis <;> rfl

theorem param?_of_nonce? (h : call.nonce? d = some nonce) : d.param? "nonce" = some nonce := by
  cases call with
  | take c => cases h
  | answer draws credentials request =>
    cases hbasis : d.basis with
    | error fault => simp [Call.nonce?, hbasis, Except.toOption] at h
    | ok b =>
      obtain rfl : b.nonce = nonce := by simpa [Call.nonce?, hbasis, Except.toOption] using h
      exact (basis_ok hbasis).2.1

theorem count_of_answered {draws : Draws} {credentials : Credentials} {request : Request}
    {done : Directives} (h : d.answered draws credentials request = .ok done) :
    ∃ b, d.basis = .ok b ∧
      done.count = if b.isProtected then some (countText (d.counter.tick b.nonce).count) else none := by
  obtain ⟨b, hbasis, h⟩ := bind_ok_iff.mp h
  obtain ⟨a, -, rfl⟩ := complete?_ok h
  exact ⟨b, hbasis, rfl⟩

theorem exists_of_printed? (h : call.printed? d = some text) :
    ∃ nonce, call.nonce? d = some nonce ∧ text = countText (d.counter.tick nonce).count := by
  cases call with
  | take c => cases h
  | answer draws credentials request =>
    obtain ⟨done, hdone, hcount⟩ := Option.bind_eq_some_iff.mp h
    have hdone : d.answered draws credentials request = .ok done := by
      cases hanswered : d.answered draws credentials request with
      | error fault => simp [hanswered, Except.toOption] at hdone
      | ok done' => simpa [hanswered, Except.toOption] using hdone
    obtain ⟨b, hbasis, hb⟩ := count_of_answered hdone
    rw [hcount] at hb
    obtain ⟨-, htext⟩ := Option.ite_none_right_eq_some.mp hb.symm
    exact ⟨b.nonce, by simp [Call.nonce?, hbasis, Except.toOption], (Option.some.inj htext).symm⟩

-- ---------------------------------------------------------------------------
-- Streaks
-- ---------------------------------------------------------------------------

theorem streakBefore_succ : streakBefore d calls (j + 1) nonce =
    (nonceAt? d calls j).elim (streakBefore d calls j nonce) fun other =>
      if other = nonce then streakBefore d calls j nonce + 1 else 0 := by
  unfold streakBefore noncesBefore
  rw [List.range_succ, List.filterMap_append]
  cases hnonce : nonceAt? d calls j with
  | none => simp [hnonce]
  | some other => by_cases h : other = nonce <;> simp [hnonce, h]

theorem streakBefore_succ_le (h : (stateBefore Call.next d calls j).param? "nonce" = some nonce) :
    streakBefore d calls j nonce ≤ streakBefore d calls (j + 1) nonce := by
  rw [streakBefore_succ]
  cases hnonce : nonceAt? d calls j with
  | none => exact Nat.le_refl _
  | some other =>
    obtain ⟨call, -, hother⟩ := Option.bind_eq_some_iff.mp hnonce
    obtain rfl := Option.some.inj ((param?_of_nonce? hother).symm.trans h)
    simp

/-- While challenges stay with a nonce, its streak goes on. -/
theorem streakBefore_le (hij : i ≤ j)
    (h : ∀ k, i ≤ k → k < j → (stateBefore Call.next d calls k).param? "nonce" = some nonce) :
    streakBefore d calls i nonce ≤ streakBefore d calls j nonce := by
  induction j, hij using Nat.le_induction with
  | base => exact Nat.le_refl _
  | succ j hij ih =>
    exact (ih fun k hik hkj => h k hik (Nat.lt_succ_of_lt hkj)).trans
      (streakBefore_succ_le (h j hij (Nat.lt_succ_self j)))

/-- The last answer of a streak stands behind a shorter one. -/
theorem exists_of_streakBefore {n : Nat} (h : streakBefore d calls j nonce = n + 1) :
    ∃ k < j, nonceAt? d calls k = some nonce ∧ streakBefore d calls k nonce = n := by
  induction j with
  | zero => cases h
  | succ j ih =>
    rw [streakBefore_succ] at h
    cases hnonce : nonceAt? d calls j with
    | none =>
      rw [hnonce] at h
      obtain ⟨k, hk, hat⟩ := ih h
      exact ⟨k, Nat.lt_succ_of_lt hk, hat⟩
    | some other =>
      rw [hnonce, Option.elim_some] at h
      split at h
      · rename_i hother
        exact ⟨j, Nat.lt_succ_self j, hother ▸ hnonce, Nat.succ.inj h⟩
      · cases h

/-- The next answer to any nonce would be counted one higher than its streak. -/
theorem count_tick_stateBefore (hd : d.counter = {}) (calls : List Call) (j : Nat) (nonce : Text) :
    ((stateBefore Call.next d calls j).counter.tick nonce).count =
      .ofNat (streakBefore d calls j nonce + 1) := by
  -- for any nonce at once: an answer to one ends the streaks of all others
  induction j generalizing nonce with
  | zero =>
    have hstate : (stateBefore Call.next d calls 0).counter = {} := hd
    rw [hstate]
    rfl
  | succ j ih =>
    rw [streakBefore_succ]
    cases hcall : calls[j]? with
    | none =>
      have hnonce : nonceAt? d calls j = none := shownAt?_of_none hcall
      rw [stateBefore_succ_of_none hcall, hnonce]
      exact ih nonce
    | some call =>
      have hnonce : nonceAt? d calls j = call.nonce? (stateBefore Call.next d calls j) :=
        shownAt?_of_some hcall
      rw [stateBefore_succ hcall, counter_next, hnonce]
      cases call.nonce? (stateBefore Call.next d calls j) with
      | none => exact ih nonce
      | some other =>
        simp only [Option.elim_some, count_tick_tick, ih other]
        by_cases h : other = nonce <;> simp [h, UInt32.ofNat_add]

theorem overflows_stateBefore_iff (hd : d.counter = {}) :
    (stateBefore Call.next d calls j).counter.Overflows nonce ↔
      2 ^ 32 ∣ 1 + streakBefore d calls j nonce := by
  rw [overflows_iff, count_tick_stateBefore hd, ← UInt32.toNat_inj, UInt32.toNat_ofNat', Nat.add_comm]
  exact Nat.dvd_iff_mod_eq_zero.symm

/-- Counting stays within 32 bits as long as no streak reaches their end. -/
theorem withinWidth_iff (hd : d.counter = {}) : WithinWidth d calls j ↔
    ∀ k ≤ j, ∀ nonce, nonceAt? d calls k = some nonce → 1 + streakBefore d calls k nonce < 2 ^ 32 := by
  refine ⟨fun h k => ?_, fun h k hk nonce hat hover => ?_⟩
  · -- a streak beyond the end has an answer before that is at the end or beyond it
    induction k using Nat.strongRecOn with
    | ind k ih =>
      intro hk nonce hat
      by_contra hge
      obtain ⟨n, hn⟩ : ∃ n, streakBefore d calls k nonce = n + 1 :=
        ⟨streakBefore d calls k nonce - 1, by omega⟩
      have hne : ¬ 2 ^ 32 ∣ 1 + streakBefore d calls k nonce :=
        fun hdvd => h k hk nonce hat ((overflows_stateBefore_iff hd).mpr hdvd)
      obtain ⟨i, hi, hati, hstreak⟩ := exists_of_streakBefore hn
      have hlt := ih i hi (Nat.le_trans (Nat.le_of_lt hi) hk) nonce hati
      omega
  · have hlt := h k hk nonce hat
    exact absurd (Nat.le_of_dvd (by omega) ((overflows_stateBefore_iff hd).mp hover)) (Nat.not_le_of_lt hlt)

theorem hexValue_of_printedAt? (hd : d.counter = {}) (h : printedAt? d calls j = some text)
    (hnonce : (stateBefore Call.next d calls j).param? "nonce" = some nonce) :
    nonceAt? d calls j = some nonce ∧ text.length = 8 ∧
      hexValue text = (1 + streakBefore d calls j nonce) % 2 ^ 32 := by
  obtain ⟨call, hcall, hprinted⟩ := Option.bind_eq_some_iff.mp h
  obtain ⟨other, hother, rfl⟩ := exists_of_printed? hprinted
  obtain rfl := Option.some.inj ((param?_of_nonce? hother).symm.trans hnonce)
  refine ⟨(shownAt?_of_some hcall).trans hother, length_countText _, ?_⟩
  rw [hexValue_countText, count_tick_stateBefore hd, UInt32.toNat_ofNat', Nat.add_comm]

theorem counter_stateBefore_succ {b : Basis} {draws : Draws} {credentials : Credentials} {request : Request}
    (hd : d.counter = {}) (hcall : calls[j]? = some (.answer draws credentials request))
    (hbasis : (stateBefore Call.next d calls j).basis = .ok b) :
    (stateBefore Call.next d calls (j + 1)).counter =
      ⟨some b.nonce, .ofNat (1 + streakBefore d calls j b.nonce)⟩ := by
  have hnonce : (Call.answer draws credentials request).nonce? (stateBefore Call.next d calls j) =
      some b.nonce := by
    rw [Call.nonce?, hbasis]
    rfl
  rw [stateBefore_succ hcall, counter_next, hnonce, Option.elim_some, Nat.add_comm,
    ← count_tick_stateBefore hd, ← nonce_tick (stateBefore Call.next d calls j).counter b.nonce]

/-- While challenges stay with a nonce and the count within 32 bits, what is printed for it increases. -/
theorem hexValue_lt {text' : Text} (hd : d.counter = {}) (hij : i < j)
    (hnonce : ∀ k, i ≤ k → k ≤ j → (stateBefore Call.next d calls k).param? "nonce" = some nonce)
    (hwidth : WithinWidth d calls j ∨ 1 + streakBefore d calls j nonce < 2 ^ 32)
    (hi : printedAt? d calls i = some text) (hj : printedAt? d calls j = some text') :
    hexValue text < hexValue text' := by
  obtain ⟨hat, -, hvalue⟩ := hexValue_of_printedAt? hd hi (hnonce i (Nat.le_refl i) (Nat.le_of_lt hij))
  obtain ⟨hat', -, hvalue'⟩ := hexValue_of_printedAt? hd hj (hnonce j (Nat.le_of_lt hij) (Nat.le_refl j))
  have hlt : 1 + streakBefore d calls j nonce < 2 ^ 32 :=
    hwidth.elim (fun h => (withinWidth_iff hd).mp h j (Nat.le_refl j) nonce hat') id
  calc hexValue text
    _ ≤ 1 + streakBefore d calls i nonce := hvalue ▸ Nat.mod_le _ _
    _ = streakBefore d calls (i + 1) nonce := by simp [streakBefore_succ, hat, Nat.add_comm]
    _ ≤ streakBefore d calls j nonce :=
      streakBefore_le hij fun k hik hkj => hnonce k (Nat.le_of_succ_le hik) (Nat.le_of_lt hkj)
    _ < 1 + streakBefore d calls j nonce := Nat.lt_one_add_iff.mpr (Nat.le_refl _)
    _ = hexValue text' := (hvalue'.trans (Nat.mod_eq_of_lt hlt)).symm

end

example :
    let take (nonce : Text) : Call := .take
      { side := .target, scheme := "digest", params := [("realm", "r"), ("nonce", nonce), ("qop", "auth")] }
    let answer : Call := .answer ⟨[], 1⟩ ⟨"u", "p", none⟩ ⟨"GET", ⟨"http", none, "/", none, none⟩, [], none⟩
    let calls := [take "one", answer, take "one", answer, take "two", answer, answer]
    (List.range 7).filterMap (printedAt? {} calls) =
      (["00000001", "00000002", "00000001", "00000002"] : List Text) := by
  decide +kernel

end HttpSession.Auth.Digest
