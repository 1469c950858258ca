import HttpSession.Proofs.Auth.NegotiationLaws
import HttpSession.Proofs.Auth.ParameterLaws

/-!
# Answers of Digest

An answer is a list of directives. Someone who knows the password and the method can compute the
response from the others, and a reader of challenges can read them: neither is so for all answers.

Main statements: the response follows from the other directives exactly if the challenge offers
protection or names no algorithm for sessions (`answer_verifiable_iff`); what the challenge, the
credentials and the request gave is read back exactly if it survives quotes (`answer_read_back_iff`).
-/

namespace HttpSession.Auth

-- ---------------------------------------------------------------------------
-- Tokens of an answer
-- ---------------------------------------------------------------------------

theorem isTokenChar_digitChar : ∀ n < 16, isTokenChar n.digitChar = true := by decide

theorem isTokenChar_of_mem_toDigits {n : Nat} {c : Char} (h : c ∈ Nat.toDigits 16 n) :
    isTokenChar c = true := by
  induction n using Nat.strongRecOn with
  | ind n ih =>
    by_cases hn : n < 16
    · rw [Nat.toDigits_of_lt_base hn, List.mem_singleton] at h
      exact h ▸ isTokenChar_digitChar n hn
    · rw [Nat.toDigits_of_base_le (by omega) (by omega), List.mem_append, List.mem_singleton] at h
      rcases h with h | rfl
      · exact ih (n / 16) (by omega) h
      · exact isTokenChar_digitChar _ (Nat.mod_lt n (by decide))

theorem isToken_padded (width n : Nat) : IsToken (Text.padded width (Nat.toDigits 16 n)) := by
  constructor
  · have hpos : 0 < (Nat.toDigits 16 n).length := Nat.length_toDigits_pos
    have hne : Nat.toDigits 16 n ≠ [] := List.ne_nil_of_length_pos hpos
    simp [Text.padded, hne]
  · refine List.all_eq_true.mpr fun c hc => ?_
    rcases List.mem_append.mp hc with hc | hc
    · rw [List.eq_of_mem_replicate hc]
      decide
    · exact isTokenChar_of_mem_toDigits hc

theorem isToken_hex {bytes : Bytes} (h : bytes ≠ []) : IsToken (Bytes.hex bytes) := by
  obtain ⟨b, rest, rfl⟩ := List.exists_cons_of_ne_nil h
  constructor
  · exact List.append_ne_nil_of_left_ne_nil (isToken_padded 2 b.toNat).1 _
  · refine List.all_eq_true.mpr fun c hc => ?_
    obtain ⟨b, -, hb⟩ := List.mem_flatMap.mp hc
    exact (isToken_padded 2 b.toNat).isTokenChar hb

theorem isTokenChar_of_toUpper {c : Char} (h : isTokenChar c.toUpper = true) : isTokenChar c = true := by
  by_cases hc : c.isLower = true
  · simp [isTokenChar, Char.isAlphanum, Char.isAlpha, hc]
  · rwa [Char.toUpper_eq_of_not_isLower hc] at h

theorem isToken_of_upper {t : Text} (h : IsToken t.upper) : IsToken t :=
  ⟨fun ht => h.1 (by rw [ht]; rfl),
    List.all_eq_true.mpr fun _ hc => isTokenChar_of_toUpper (h.isTokenChar (List.mem_map_of_mem hc))⟩

namespace Digest

theorem algorithm?_some {name : Text} {a : Algorithm} (h : algorithm? name = some a) :
    name.upper ∈ (["MD5", "MD5-SESS", "SHA-256", "SHA-256-SESS"] : List Text) ∧
      (a.hash = Hash.Md5.digest ∨ a.hash = Hash.Sha256.digest) := by
  unfold algorithm? at h
  dsimp only at h
  split at h
  · rename_i hname
    obtain rfl := Option.some.inj h
    exact ⟨hname ▸ .head _, .inl rfl⟩
  split at h
  · rename_i hname
    obtain rfl := Option.some.inj h
    exact ⟨hname ▸ .tail _ (.head _), .inl rfl⟩
  split at h
  · rename_i hname
    obtain rfl := Option.some.inj h
    exact ⟨hname ▸ .tail _ (.tail _ (.head _)), .inr rfl⟩
  split at h
  · rename_i hname
    obtain rfl := Option.some.inj h
    exact ⟨hname ▸ .tail _ (.tail _ (.tail _ (.head _))), .inr rfl⟩
  · cases h

theorem isToken_of_algorithm? {name : Text} {a : Algorithm} (h : algorithm? name = some a) :
    IsToken name := by
  have hnames : (["MD5", "MD5-SESS", "SHA-256", "SHA-256-SESS"] : List Text).all
      (fun name => IsToken name) = true := by decide
  exact isToken_of_upper (of_decide_eq_true (List.all_eq_true.mp hnames _ (algorithm?_some h).1))

theorem hash_ne_nil {name : Text} {a : Algorithm} (h : algorithm? name = some a) (bytes : Bytes) :
    a.hash bytes ≠ [] := by
  refine List.ne_nil_of_length_pos ?_
  rcases (algorithm?_some h).2 with ha | ha
  · rw [ha, Hash.Md5.length_digest]
    decide
  · rw [ha, Hash.Sha256.length_digest]
    decide

theorem isToken_over {name : Text} {a : Algorithm} (h : algorithm? name = some a) (parts : List Text) :
    IsToken (a.over parts) :=
  isToken_hex (hash_ne_nil h _)

-- ---------------------------------------------------------------------------
-- What is printed
-- ---------------------------------------------------------------------------

def Directives.printed (d : Directives) : List Directive :=
  [⟨"username", d.username, true⟩, ⟨"realm", d.realm, true⟩, ⟨"nonce", d.nonce, true⟩,
      ⟨"uri", d.uri, true⟩, ⟨"response", d.response, true⟩] ++
    (match d.count with
      | some count => [⟨"qop", protection, false⟩, ⟨"nc", count, false⟩, ⟨"cnonce", d.cnonce, true⟩]
      | none => []) ++
    d.algorithm.toList.map (⟨"algorithm", ·, false⟩) ++ d.returned.toList.map (⟨"opaque", ·, true⟩)

theorem text_quoted (name value : Text) : Directive.text ⟨name, value, true⟩ = quoted name value := by
  simp [quoted, Directive.text, Directive.written]

theorem text_bare (name value : Text) : Directive.text ⟨name, value, false⟩ = name ++ "=" ++ value := by
  simp [Directive.text, Directive.written]

theorem text_eq (d : Directives) : d.text = "Digest" ++ ' ' :: Directive.join d.printed := by
  have hlead : ("Digest " : Text) = "Digest" ++ [' '] := by decide
  have hqop : ("qop=" : Text) = "qop" ++ "=" := by decide
  have hcount : ("nc=" : Text) = "nc" ++ "=" := by decide
  have halgorithm : ("algorithm=" : Text) = "algorithm" ++ "=" := by decide
  unfold Directives.text Directives.printed Directive.join
  cases d.count <;> cases d.algorithm <;> cases d.returned <;>
    simp only [hlead, Option.toList, List.map_append, List.map_cons, List.map_nil, text_quoted,
      text_bare, hqop, hcount, halgorithm, List.append_assoc, List.singleton_append]

def printedNames (isCounted hasAlgorithm isReturned : Bool) : List Text :=
  ["username", "realm", "nonce", "uri", "response"] ++
    (if isCounted then ["qop", "nc", "cnonce"] else []) ++
    (if hasAlgorithm then ["algorithm"] else []) ++ (if isReturned then ["opaque"] else [])

theorem names_printed (d : Directives) :
    d.printed.map (·.name) = printedNames d.count.isSome d.algorithm.isSome d.returned.isSome := by
  unfold Directives.printed
  cases d.count <;> cases d.algorithm <;> cases d.returned <;> rfl

theorem nodup_printedNames : ∀ isCounted hasAlgorithm isReturned,
    (printedNames isCounted hasAlgorithm isReturned).Nodup := by
  decide

theorem all_printedNames : ∀ isCounted hasAlgorithm isReturned,
    ((printedNames isCounted hasAlgorithm isReturned).all fun name =>
      IsToken name ∧ name.lower = name) = true := by
  decide

/-- What is printed bare is a token, and so is what was computed. -/
structure Directives.Regular (d : Directives) : Prop where
  response : IsToken d.response
  cnonce : IsToken d.cnonce
  count : ∀ count, d.count = some count → IsToken count
  algorithm : ∀ name, d.algorithm = some name → IsToken name

theorem forall_mem_printed {d : Directives} {P : Directive → Prop} :
    (∀ e ∈ d.printed, P e) ↔
      P ⟨"username", d.username, true⟩ ∧ P ⟨"realm", d.realm, true⟩ ∧ P ⟨"nonce", d.nonce, true⟩ ∧
        P ⟨"uri", d.uri, true⟩ ∧ P ⟨"response", d.response, true⟩ ∧
      (∀ count, d.count = some count →
        P ⟨"qop", protection, false⟩ ∧ P ⟨"nc", count, false⟩ ∧ P ⟨"cnonce", d.cnonce, true⟩) ∧
      (∀ name, d.algorithm = some name → P ⟨"algorithm", name, false⟩) ∧
      ∀ value, d.returned = some value → P ⟨"opaque", value, true⟩ := by
  unfold Directives.printed
  cases d.count <;> cases d.algorithm <;> cases d.returned <;> simp [and_assoc]

theorem Directives.Regular.bare {d : Directives} (hd : d.Regular) :
    ∀ e ∈ d.printed, e.isQuoted = false → IsToken e.value :=
  forall_mem_printed.mpr ⟨nofun, nofun, nofun, nofun, nofun,
    fun _ hcount => ⟨fun _ => by decide, fun _ => hd.count _ hcount, nofun⟩,
    fun _ hname _ => hd.algorithm _ hname, fun _ _ => nofun⟩

theorem Directives.Regular.sound {d : Directives} (hd : d.Regular) {e : Directive} (h : e ∈ d.printed) :
    e.Sound := by
  have hname : e.name ∈ d.printed.map (·.name) := List.mem_map_of_mem h
  rw [names_printed] at hname
  obtain ⟨htoken, hlower⟩ := of_decide_eq_true (List.all_eq_true.mp (all_printedNames _ _ _) _ hname)
  exact ⟨htoken, hlower, hd.bare e h⟩

-- ---------------------------------------------------------------------------
-- What is answered
-- ---------------------------------------------------------------------------

def answered (d : Digest) (draws : Draws) (credentials : Credentials) (request : Request) :
    Except Fault Directives := do
  let b ← d.basis
  let cnonce := Bytes.hex (Draws.bytes draws.next.1)
  complete? (d.directives b (d.counter.tick b.nonce).count cnonce credentials request)
    credentials.password request.method

theorem answer_eq (d : Digest) (draws : Draws) (credentials : Credentials) (request : Request) :
    (d.answer draws credentials request).1 =
      (d.answered draws credentials request).map Directives.text := by
  unfold answer answered
  cases d.basis <;> rfl

variable {d : Digest} {draws : Draws} {credentials : Credentials} {request : Request} {done : Directives}

theorem elim_ok_iff {fault : Fault} {found : Option Text} {value : Text} :
    found.elim (Except.error fault) Except.ok = .ok value ↔ found = some value := by
  cases found <;> simp

theorem isProtected_ok {isProtected : Bool} (h : d.isProtected = .ok isProtected) :
    isProtected = (d.param? "qop").isSome := by
  unfold Digest.isProtected at h
  split at h
  · rename_i hnone
    obtain rfl := Except.ok.inj h
    rw [hnone]
    rfl
  · rename_i offered hsome
    split at h
    · obtain rfl := Except.ok.inj h
      rw [hsome]
      rfl
    · cases h

theorem basis_ok {b : Basis} (h : d.basis = .ok b) :
    d.param? "realm" = some b.realm ∧ d.param? "nonce" = some b.nonce ∧
      b.isProtected = (d.param? "qop").isSome := by
  obtain ⟨realm, hrealm, h⟩ := bind_ok_iff.mp h
  obtain ⟨nonce, hnonce, h⟩ := bind_ok_iff.mp h
  obtain ⟨isProtected, hprotected, h⟩ := bind_ok_iff.mp h
  obtain rfl := Except.ok.inj h
  exact ⟨elim_ok_iff.mp hrealm, elim_ok_iff.mp hnonce, isProtected_ok hprotected⟩

structure Directives.MadeFrom (done : Directives) (d : Digest) (credentials : Credentials)
    (request : Request) (a : Algorithm) : Prop where
  username : done.username = credentials.principal
  realm : d.param? "realm" = some done.realm
  nonce : d.param? "nonce" = some done.nonce
  uri : done.uri = request.target
  count : done.count.isSome = (d.param? "qop").isSome
  algorithm : done.algorithm = d.param? "algorithm"
  known : algorithm? (done.algorithm.getD usual) = some a
  returned : done.returned = d.param? "opaque"
  response : done.response = done.responseFor a credentials.password request.method
  regular : done.Regular

theorem complete?_ok {bare : Directives} {password method : Text}
    (h : complete? bare password method = .ok done) :
    ∃ a, algorithm? (bare.algorithm.getD usual) = some a ∧
      done = { bare with response := bare.responseFor a password method } := by
  unfold complete? at h
  dsimp only at h
  split at h
  · cases h
  · rename_i a ha
    exact ⟨a, ha, (Except.ok.inj h).symm⟩

theorem responseFor_isToken {name : Text} {a : Algorithm} (h : algorithm? name = some a) (d : Directives)
    (password method : Text) : IsToken (d.responseFor a password method) := by
  unfold Directives.responseFor
  dsimp only
  split <;> exact isToken_over h _

theorem answered_ok (h : d.answered draws credentials request = .ok done) :
    ∃ a, done.MadeFrom d credentials request a := by
  obtain ⟨b, hbasis, h⟩ := bind_ok_iff.mp h
  obtain ⟨hrealm, hnonce, hprotected⟩ := basis_ok hbasis
  obtain ⟨a, hknown, rfl⟩ := complete?_ok h
  refine ⟨a, ?_⟩
  exact
    { username := rfl
      realm := hrealm
      nonce := hnonce
      uri := rfl
      count := by
        rw [← hprotected]
        show Option.isSome (if b.isProtected = true then _ else none) = b.isProtected
        cases b.isProtected <;> rfl
      algorithm := rfl
      known := hknown
      returned := rfl
      response := rfl
      regular :=
        { response := responseFor_isToken hknown _ _ _
          cnonce := isToken_hex (List.ne_nil_of_length_pos (by rw [Draws.length_bytes]; decide))
          count := fun count hcount => by
            obtain ⟨-, hcount⟩ := Option.ite_none_right_eq_some.mp hcount
            exact Option.some.inj hcount ▸ isToken_padded 8 _
          algorithm := fun name hname => by
            have hgiven : (d.param? "algorithm").getD usual = name :=
              congrArg (Option.getD · usual) hname
            exact isToken_of_algorithm? (hgiven ▸ hknown) } }

theorem answer_ok {a : Answer} {now : Instant}
    (h : (Scheme.answer (.digest d) credentials request now draws).1 = .ok a) :
    ∃ done, d.answered draws credentials request = .ok done ∧ a.value = Utf8.encode done.text := by
  obtain ⟨text, htext, hpack⟩ := bind_ok_iff.mp h
  have htext : (d.answer draws credentials request).1 = .ok text := htext
  rw [answer_eq, map_ok_iff] at htext
  obtain ⟨done, hdone, rfl⟩ := htext
  exact ⟨done, hdone, by rw [Scheme.pack_ok hpack]⟩

-- ---------------------------------------------------------------------------
-- Verifying
-- ---------------------------------------------------------------------------

def valueOf? (ds : List Directive) (name : Text) : Option Text := (ds.map Directive.param).lookup name

/-- The response, as it is computed after RFC 2617 and RFC 7616 by someone who knows the password and the
method, from the other directives of an answer; `none` where one is missing that it takes. -/
def expected? (ds : List Directive) (password method : Text) : Option Text := do
  let username ← valueOf? ds "username"
  let realm ← valueOf? ds "realm"
  let nonce ← valueOf? ds "nonce"
  let uri ← valueOf? ds "uri"
  let a ← algorithm? ((valueOf? ds "algorithm").getD "MD5")
  let first := a.over [username, realm, password]
  let first ←
    if a.session then (valueOf? ds "cnonce").map fun cnonce => a.over [first, nonce, cnonce]
    else some first
  let second := a.over [method, uri]
  match valueOf? ds "qop" with
  | none => some (a.over [first, nonce, second])
  | some qop =>
    let count ← valueOf? ds "nc"
    let cnonce ← valueOf? ds "cnonce"
    some (a.over [first, nonce, count, cnonce, qop, second])

section
variable {name value : Text} {isQuoted : Bool}

theorem valueOf?_printed (h : ⟨name, value, isQuoted⟩ ∈ done.printed) :
    valueOf? done.printed name = some value := by
  refine Directive.lookup_param ?_ h
  rw [names_printed]
  exact nodup_printedNames _ _ _

theorem valueOf?_eq_none
    (h : name ∉ printedNames done.count.isSome done.algorithm.isSome done.returned.isSome) :
    valueOf? done.printed name = none := by
  rw [valueOf?, List.lookup_eq_none_iff]
  intro entry hentry
  obtain ⟨e, he, rfl⟩ := List.mem_map.mp hentry
  rw [← names_printed] at h
  rw [bne_iff_ne]
  rintro rfl
  exact h (List.mem_map_of_mem he)

end

theorem valueOf?_always (done : Directives) :
    valueOf? done.printed "username" = some done.username ∧
    valueOf? done.printed "realm" = some done.realm ∧
    valueOf? done.printed "nonce" = some done.nonce ∧
    valueOf? done.printed "uri" = some done.uri ∧
    valueOf? done.printed "response" = some done.response := by
  have hmem : ∀ e ∈ [⟨"username", done.username, true⟩, ⟨"realm", done.realm, true⟩,
      ⟨"nonce", done.nonce, true⟩, ⟨"uri", done.uri, true⟩, ⟨"response", done.response, true⟩],
      e ∈ done.printed := fun e he =>
    List.mem_append_left _ (List.mem_append_left _ (List.mem_append_left _ he))
  exact ⟨valueOf?_printed (hmem ⟨"username", done.username, true⟩ (by simp)),
    valueOf?_printed (hmem ⟨"realm", done.realm, true⟩ (by simp)),
    valueOf?_printed (hmem ⟨"nonce", done.nonce, true⟩ (by simp)),
    valueOf?_printed (hmem ⟨"uri", done.uri, true⟩ (by simp)),
    valueOf?_printed (hmem ⟨"response", done.response, true⟩ (by simp))⟩

theorem valueOf?_counted (done : Directives) :
    valueOf? done.printed "qop" = done.count.map (fun _ => protection) ∧
    valueOf? done.printed "nc" = done.count ∧
    valueOf? done.printed "cnonce" = done.count.map fun _ => done.cnonce := by
  cases hc : done.count with
  | none =>
    have hqop : ∀ y z, ("qop" : Text) ∉ printedNames false y z := by decide
    have hnc : ∀ y z, ("nc" : Text) ∉ printedNames false y z := by decide
    have hcnonce : ∀ y z, ("cnonce" : Text) ∉ printedNames false y z := by decide
    refine ⟨valueOf?_eq_none ?_, valueOf?_eq_none ?_, valueOf?_eq_none ?_⟩ <;> rw [hc]
    · exact hqop _ _
    · exact hnc _ _
    · exact hcnonce _ _
  | some count =>
    have hmem : ∀ e ∈ [⟨"qop", protection, false⟩, ⟨"nc", count, false⟩, ⟨"cnonce", done.cnonce, true⟩],
        e ∈ done.printed := by
      intro e he
      simp only [Directives.printed, hc]
      exact List.mem_append_left _ (List.mem_append_left _ (List.mem_append_right _ he))
    exact ⟨valueOf?_printed (hmem ⟨"qop", protection, false⟩ (by simp)),
      valueOf?_printed (hmem ⟨"nc", count, false⟩ (by simp)),
      valueOf?_printed (hmem ⟨"cnonce", done.cnonce, true⟩ (by simp))⟩

theorem valueOf?_algorithm (done : Directives) : valueOf? done.printed "algorithm" = done.algorithm := by
  cases ha : done.algorithm with
  | none =>
    have habsent : ∀ x z, ("algorithm" : Text) ∉ printedNames x false z := by decide
    exact valueOf?_eq_none (by rw [ha]; exact habsent _ _)
  | some name =>
    have hmem : ⟨"algorithm", name, false⟩ ∈ done.printed := by simp [Directives.printed, ha]
    exact valueOf?_printed hmem

theorem valueOf?_returned (done : Directives) : valueOf? done.printed "opaque" = done.returned := by
  cases hr : done.returned with
  | none =>
    have habsent : ∀ x y, ("opaque" : Text) ∉ printedNames x y false := by decide
    exact valueOf?_eq_none (by rw [hr]; exact habsent _ _)
  | some value =>
    have hmem : ⟨"opaque", value, true⟩ ∈ done.printed := by simp [Directives.printed, hr]
    exact valueOf?_printed hmem

/-- Everything that the response takes is printed, but for the number of the client where an algorithm
for sessions takes it and no count goes along. -/
theorem expected?_printed {a : Algorithm} (h : algorithm? (done.algorithm.getD usual) = some a)
    (password method : Text) :
    expected? done.printed password method =
      if a.session = true ∧ done.count = none then none else some (done.responseFor a password method) := by
  obtain ⟨husername, hrealm, hnonce, huri, -⟩ := valueOf?_always done
  obtain ⟨hqop, hnc, hcnonce⟩ := valueOf?_counted done
  have halgorithm : algorithm? ((valueOf? done.printed "algorithm").getD "MD5") = some a := by
    rw [valueOf?_algorithm]
    exact h
  unfold expected? Directives.responseFor
  rw [husername, hrealm, hnonce, huri, hqop, hnc, hcnonce]
  simp only [halgorithm, Option.bind_eq_bind, Option.bind_some]
  cases done.count <;> cases a.session <;> simp

/-- The response of an answer can be computed from what is printed with it exactly if the challenge offers
protection or the algorithm is none for sessions. -/
theorem answer_verifiable_iff {a : Answer} {now : Instant}
    (h : (Scheme.answer (.digest d) credentials request now draws).1 = .ok a) :
    ∃ done response, d.answered draws credentials request = .ok done ∧
      a.value = Utf8.encode ("Digest" ++ ' ' :: Directive.join done.printed) ∧
        valueOf? done.printed "response" = some response ∧
          (expected? done.printed credentials.password request.method = some response ↔
            (d.param? "qop").isSome = true ∨
              (algorithm? ((d.param? "algorithm").getD "MD5")).any (·.session) = false) := by
  obtain ⟨done, hdone, hvalue⟩ := answer_ok h
  obtain ⟨algorithm, hmade⟩ := answered_ok hdone
  obtain ⟨-, -, -, -, hresponse⟩ := valueOf?_always done
  refine ⟨done, done.response, hdone, by rw [hvalue, text_eq], hresponse, ?_⟩
  have hsession : algorithm? ((d.param? "algorithm").getD "MD5") = some algorithm :=
    hmade.algorithm ▸ hmade.known
  rw [expected?_printed hmade.known, ← hmade.count, hsession, ← hmade.response]
  cases done.count <;> cases hs : algorithm.session <;> simp [hs]

def asked (params : List (Text × Text)) : Digest := { side := some .target, params, complete := true }

def someCredentials : Credentials := { user := "u", password := "p" }

def someRequest : Request :=
  { method := Method.get
    url := ⟨"http", some ⟨[], [], some (.name "a.example"), none⟩, "/", none, none⟩ }

def someAnswer (d : Digest) (draws : Draws) : Except Fault Answer × Scheme × Draws :=
  Scheme.answer (.digest d) someCredentials someRequest .epoch draws

theorem answer_verifiable_protected :
    let d := asked [("realm", "r"), ("nonce", "n"), ("qop", "auth"), ("algorithm", "MD5-sess")]
    ∃ a done response, (someAnswer d ⟨[], 1⟩).1 = .ok a ∧
      d.answered ⟨[], 1⟩ someCredentials someRequest = .ok done ∧
        a.value = Utf8.encode ("Digest" ++ ' ' :: Directive.join done.printed) ∧
          valueOf? done.printed "response" = some response ∧
            expected? done.printed someCredentials.password someRequest.method = some response := by
  intro d
  have hok : (someAnswer d ⟨[], 1⟩).1.isOk = true := by decide +kernel
  obtain ⟨a, ha⟩ := exists_of_isOk hok
  obtain ⟨done, response, hdone, hvalue, hresponse, hexpected⟩ := answer_verifiable_iff ha
  exact ⟨a, done, response, ha, hdone, hvalue, hresponse, hexpected.mpr (.inl (by decide +kernel))⟩

def Directives.others (d : Directives) : List Directive := d.printed.filter (·.name ≠ "response")

def sessionAsked : Digest := asked [("realm", "r"), ("nonce", "n"), ("algorithm", "MD5-sess")]

def sessionAnswered (number : UInt64) : Except Fault Directives :=
  sessionAsked.answered ⟨[], number⟩ someCredentials someRequest

/-- In no way whatsoever can every response be computed from the rest of the answer: two answers may
differ in nothing but the response. -/
theorem session_unverifiable :
    ¬ ∃ verify : List Directive → Text → Text → Option Text,
      ∀ (d : Digest) (credentials : Credentials) (request : Request) (now : Instant) (draws : Draws)
        (a : Answer) (done : Directives),
        (Scheme.answer (.digest d) credentials request now draws).1 = .ok a →
          d.answered draws credentials request = .ok done →
            verify done.others credentials.password request.method =
              valueOf? done.printed "response" := by
  rintro ⟨verify, hverify⟩
  have hverified (number : UInt64) (h : (someAnswer sessionAsked ⟨[], number⟩).1.isOk = true) :
      ∃ done, sessionAnswered number = .ok done ∧
        verify done.others someCredentials.password someRequest.method =
          valueOf? done.printed "response" := by
    obtain ⟨a, ha⟩ := exists_of_isOk h
    obtain ⟨done, hdone, -⟩ := answer_ok ha
    exact ⟨done, hdone, hverify _ _ _ _ _ a done ha hdone⟩
  obtain ⟨one, hone, hverified₁⟩ := hverified 1 (by decide +kernel)
  obtain ⟨two, htwo, hverified₂⟩ := hverified 2 (by decide +kernel)
  have hothers : (sessionAnswered 1).map Directives.others = (sessionAnswered 2).map Directives.others := by
    decide +kernel
  have hresponses : (sessionAnswered 1).map (valueOf? ·.printed "response") ≠
      (sessionAnswered 2).map (valueOf? ·.printed "response") := by
    decide +kernel
  rw [hone, htwo] at hothers hresponses
  have hothers : one.others = two.others := Except.ok.inj hothers
  have hresponses : valueOf? one.printed "response" ≠ valueOf? two.printed "response" :=
    fun h => hresponses (congrArg Except.ok h)
  exact hresponses (by rw [← hverified₁, ← hverified₂, hothers])

-- ---------------------------------------------------------------------------
-- Reading back
-- ---------------------------------------------------------------------------

theorem legible_printed_iff (hd : done.Regular) :
    Directive.Legible done.printed ↔
      (∀ value ∈ [done.username, done.realm, done.nonce, done.uri], QuoteSafe value ∧ QuoteBalanced value) ∧
        ∀ value, done.returned = some value → QuoteSafe value := by
  have hresponse := quoteSafe_of_isToken hd.response
  have hcnonce := quoteSafe_of_isToken hd.cnonce
  unfold Directives.printed
  cases done.count <;> cases done.algorithm <;> cases done.returned <;>
    simp [Directive.Legible, Directive.IsRecoverable, Directive.IsBalanced, hresponse,
      quoteBalanced_of_isToken hd.response,
      hcnonce, quoteBalanced_of_isToken hd.cnonce, and_assoc]

/-- Whether a text is read as an answer of Digest with certain values. -/
def ReadsBackAs (side : Side) (text username realm nonce uri : Text) (returned : Option Text) : Prop :=
  ∃ c, Challenge.read side text = .ok c ∧ c.scheme = "digest" ∧ c.param? "username" = some username ∧
    c.param? "realm" = some realm ∧ c.param? "nonce" = some nonce ∧ c.param? "uri" = some uri ∧
      c.param? "opaque" = returned

theorem read_printed (hd : done.Regular) (side : Side) :
    Challenge.read side ("Digest" ++ ' ' :: Directive.join done.printed) =
      (Challenge.readParams (Directive.join done.printed)).map fun params =>
        { side, scheme := "digest", params } := by
  have hscheme : IsToken "Digest" := by decide
  have hlower : Text.lower "Digest" = "digest" := by decide
  have hquoted : ∃ e ∈ done.printed, e.isQuoted = true :=
    ⟨_, (forall_mem_printed.mp fun e he => he).1, rfl⟩
  rw [Challenge.read_join side hscheme (fun e he => hd.sound he) hquoted, hlower]

theorem param?_eq_lookup {c : Challenge} {name : Text} (h : name.lower = name) :
    c.param? name = c.params.lookup name := by
  rw [Challenge.param?, h]

theorem lower_names : Text.lower "username" = "username" ∧ Text.lower "realm" = "realm" ∧
    Text.lower "nonce" = "nonce" ∧ Text.lower "uri" = "uri" ∧ Text.lower "opaque" = "opaque" := by
  decide

/-- The values that count are given back exactly if all that is printed is legible. -/
theorem readsBackAs_iff (hd : done.Regular) (side : Side) :
    ReadsBackAs side ("Digest" ++ ' ' :: Directive.join done.printed) done.username done.realm done.nonce
        done.uri done.returned ↔ Directive.Legible done.printed := by
  have hnodup : (done.printed.map (·.name)).Nodup := by
    rw [names_printed]
    exact nodup_printedNames _ _ _
  have hprotection : IsToken protection := by decide
  obtain ⟨lusername, lrealm, lnonce, luri, lreturned⟩ := lower_names
  unfold ReadsBackAs
  rw [read_printed hd]
  constructor
  · rintro ⟨c, hread, -, husername, hrealm, hnonce, huri, hreturned⟩
    obtain ⟨params, hparams, rfl⟩ := map_ok_iff.mp hread
    rw [param?_eq_lookup lusername] at husername
    rw [param?_eq_lookup lrealm] at hrealm
    rw [param?_eq_lookup lnonce] at hnonce
    rw [param?_eq_lookup luri] at huri
    rw [param?_eq_lookup lreturned] at hreturned
    -- the other values are tokens, which are read back anyway
    refine (Challenge.readParams_join_iff (fun e he => hd.sound he) hnodup).mp
      ⟨params, hparams, forall_mem_printed.mpr ?_⟩
    exact ⟨.inr husername, .inr hrealm, .inr hnonce, .inr huri, .inl hd.response,
      fun count hcount => ⟨.inl hprotection, .inl (hd.count count hcount), .inl hd.cnonce⟩,
      fun name hname => .inl (hd.algorithm name hname), fun value hvalue => .inr (hreturned.trans hvalue)⟩
  · intro h
    obtain ⟨husername, hrealm, hnonce, huri, -⟩ := valueOf?_always done
    rw [Challenge.readParams_join (fun e he => hd.sound he) h]
    refine ⟨{ side, scheme := "digest", params := done.printed.map Directive.param }, rfl, rfl, ?_⟩
    rw [param?_eq_lookup lusername, param?_eq_lookup lrealm, param?_eq_lookup lnonce, param?_eq_lookup luri,
      param?_eq_lookup lreturned]
    exact ⟨husername, hrealm, hnonce, huri, valueOf?_returned done⟩

/-- What the credentials, the challenge and the request gave is read back from the answer exactly if it is
`QuoteSafe`; everything but the last value has to be `QuoteBalanced` besides. -/
theorem answer_read_back_iff {d₀ : Digest} {c : Challenge} {a : Answer} {now : Instant} (side : Side)
    (ht : d₀.take c = .ok d) (h : (Scheme.answer (.digest d) credentials request now draws).1 = .ok a) :
    ∃ text realm nonce, a.value = Utf8.encode text ∧ c.param? "realm" = some realm ∧
      c.param? "nonce" = some nonce ∧
      (ReadsBackAs side text credentials.principal realm nonce request.target (c.param? "opaque") ↔
        (∀ value ∈ [credentials.principal, realm, nonce, request.target],
          QuoteSafe value ∧ QuoteBalanced value) ∧
          ∀ value, c.param? "opaque" = some value → QuoteSafe value) := by
  obtain ⟨done, hdone, hvalue⟩ := answer_ok h
  obtain ⟨_, hmade⟩ := answered_ok hdone
  have hparams : d.params = c.params := by
    unfold Digest.take at ht
    split at ht
    · cases ht
    · obtain rfl := Except.ok.inj ht
      rfl
  have hparam (name : Text) (hname : name.lower = name) : c.param? name = d.param? name := by
    rw [param?_eq_lookup hname, Digest.param?, hparams]
  obtain ⟨-, lrealm, lnonce, -, lreturned⟩ := lower_names
  refine ⟨_, done.realm, done.nonce, by rw [hvalue, text_eq], ?_, ?_, ?_⟩
  · rw [hparam _ lrealm, hmade.realm]
  · rw [hparam _ lnonce, hmade.nonce]
  · rw [hparam _ lreturned, ← hmade.returned, ← hmade.username, ← hmade.uri, readsBackAs_iff hmade.regular,
      legible_printed_iff hmade.regular]

def challengeWith (params : List (Text × Text)) : Challenge :=
  { side := .target, scheme := "digest", params }

def quotingParams : List (Text × Text) := [("realm", "a \"b\", c"), ("nonce", "n")]

theorem answer_read_back_quoting :
    Challenge.read .target "Digest realm=\"a \\\"b\\\", c\", nonce=\"n\"" =
        .ok (challengeWith quotingParams) ∧
      Digest.take {} (challengeWith quotingParams) = .ok (asked quotingParams) ∧
        ∃ a text, (someAnswer (asked quotingParams) ⟨[], 1⟩).1 = .ok a ∧ a.value = Utf8.encode text ∧
          ReadsBackAs .target text "u" "a \"b\", c" "n" "/" none := by
  have htake : Digest.take {} (challengeWith quotingParams) = .ok (asked quotingParams) := by
    decide +kernel
  have hok : (someAnswer (asked quotingParams) ⟨[], 1⟩).1.isOk = true := by decide +kernel
  obtain ⟨a, ha⟩ := exists_of_isOk hok
  refine ⟨by decide +kernel, htake, a, ?_⟩
  obtain ⟨text, realm, nonce, hvalue, hrealm, hnonce, hread⟩ := answer_read_back_iff .target htake ha
  have hrealm' : (challengeWith quotingParams).param? "realm" = some "a \"b\", c".toList := by
    decide +kernel
  have hnonce' : (challengeWith quotingParams).param? "nonce" = some "n".toList := by decide +kernel
  have hreturned : (challengeWith quotingParams).param? "opaque" = none := by decide +kernel
  obtain rfl := Option.some.inj (hrealm.symm.trans hrealm')
  obtain rfl := Option.some.inj (hnonce.symm.trans hnonce')
  rw [hreturned] at hread
  refine ⟨text, ha, hvalue, hread.mpr ⟨?_, nofun⟩⟩
  simp only [List.forall_mem_cons, List.not_mem_nil, false_implies, implies_true, and_true]
  decide +kernel

/-- Not everything is given back: the backslash between a domain and a user is gone. -/
theorem domain_not_read_back :
    ¬ ∀ (d₀ d : Digest) (c : Challenge) (credentials : Credentials) (request : Request) (now : Instant)
        (draws : Draws) (a : Answer) (side : Side) (text realm nonce : Text),
        d₀.take c = .ok d → (Scheme.answer (.digest d) credentials request now draws).1 = .ok a →
          a.value = Utf8.encode text → c.param? "realm" = some realm → c.param? "nonce" = some nonce →
            ReadsBackAs side text credentials.principal realm nonce request.target (c.param? "opaque") := by
  intro hall
  let params : List (Text × Text) := [("realm", "r"), ("nonce", "n")]
  let credentials := Credentials.windows "u" "p" (some "dom") none
  let text : Text := "Digest username=\"DOM\\u\", realm=\"r\", nonce=\"n\", uri=\"/\", " ++
    "response=\"ddaedc9a1286dee53988704529f16bd2\""
  have hanswer : (Scheme.answer (.digest (asked params)) credentials someRequest .epoch ⟨[], 1⟩).1.map
      (·.value) = .ok (Utf8.encode text) := by decide +kernel
  obtain ⟨a, ha, hvalue⟩ := map_ok_iff.mp hanswer
  obtain ⟨c, hread, -, husername, -⟩ := hall {} (asked params) (challengeWith params) credentials
    someRequest .epoch ⟨[], 1⟩ a .target text "r" "n" (by decide +kernel) ha hvalue (by decide +kernel)
    (by decide +kernel)
  have hfound : (Challenge.read .target text).map (·.param? "username") = .ok (some "DOMu".toList) := by
    decide +kernel
  rw [hread] at hfound
  have hfound : c.param? "username" = some "DOMu".toList := Except.ok.inj hfound
  rw [husername] at hfound
  exact absurd (Option.some.inj hfound) (by decide +kernel)

end Digest

end HttpSession.Auth
