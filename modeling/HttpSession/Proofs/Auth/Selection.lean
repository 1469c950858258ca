import HttpSession.Proofs.Auth.NegotiationLaws
import HttpSession.Proofs.Persistence

/-!
# Options in order of preference

A strategy learns from what it is told of hosts, and lists an option for each scheme it prefers if the
response challenges with it, the scheme is known and takes the challenge, and there are credentials.

Main statement: the scheme that is remembered for a host is that of the last telling success; it comes
first where it is listed at all; each listed scheme gives its option in its place; and headers of different
schemes may change places (`selects_preferred`).
-/

namespace HttpSession.Auth

/-- Whether a notice says something about the scheme to begin with: that one failed, or that one succeeded
which will answer every request anew. -/
def Notice.Tells : Notice → Prop
  | .succeeded scheme => scheme.isComplete ∧ ¬ scheme.isConnectionBased
  | .failed _ => True

namespace Strategy

-- ---------------------------------------------------------------------------
-- What is remembered
-- ---------------------------------------------------------------------------

def after (s : Strategy) (history : List (Endpoint × Notice)) : Strategy :=
  history.foldl (fun s (host, notice) => s.note host notice) s

/-- Whether the last telling notice for a host, however its port is written, was a success of a scheme of
that name. -/
def Remembers (history : List (Endpoint × Notice)) (host : Endpoint) (name : Text) : Prop :=
  Persists
    (fun (told, notice) => told.normalized = host.normalized ∧ notice.Tells ∧
      ∃ scheme, notice = .succeeded scheme ∧ scheme.name = name)
    (fun (told, notice) => told.normalized = host.normalized → ¬ notice.Tells) history

section
variable {s : Strategy} {host told : Endpoint} {notice : Notice} {name : Text}

theorem lookup_cons_of_ne {α β : Type} [DecidableEq α] {a b : α} (h : b ≠ a) (value : β)
    (l : List (α × β)) : ((a, value) :: l).lookup b = l.lookup b := by
  rw [List.lookup_cons, beq_eq_false_iff_ne.mpr h]

theorem lookup_filter_ne {α β : Type} [DecidableEq α] {a b : α} (h : b ≠ a) (l : List (α × β)) :
    (l.filter (·.1 ≠ a)).lookup b = l.lookup b := by
  induction l with
  | nil => rfl
  | cons entry rest ih =>
    obtain ⟨key, value⟩ := entry
    by_cases hb : b = key
    · subst hb
      simp [h]
    · by_cases hkey : key = a
      · rw [lookup_cons_of_ne hb, ← ih]
        simp [hkey]
      · rw [lookup_cons_of_ne hb, ← ih, List.filter_cons_of_pos (by simpa using hkey), lookup_cons_of_ne hb]

theorem cachedScheme_forget (h : told.normalized = host.normalized) :
    (s.forget told).cachedScheme host = none := by
  rw [cachedScheme, forget, List.lookup_eq_none_iff]
  intro entry hentry
  have hne : entry.1 ≠ told.normalized := by simpa using (List.mem_filter.mp hentry).2
  rw [bne_iff_ne, ← h]
  exact hne.symm

theorem cachedScheme_forget_ne (h : told.normalized ≠ host.normalized) :
    (s.forget told).cachedScheme host = s.cachedScheme host :=
  lookup_filter_ne h.symm s.cache

theorem note_succeeded {scheme : Scheme} (h : (Notice.succeeded scheme).Tells) :
    s.note told (.succeeded scheme) =
      { s with cache := (told.normalized, scheme.name) :: (s.forget told).cache } :=
  if_pos h

theorem note_of_not_tells (h : ¬ notice.Tells) : s.note told notice = s := by
  cases notice with
  | succeeded scheme => exact if_neg h
  | failed scheme => exact absurd trivial h

theorem cachedScheme_note_ne (h : told.normalized ≠ host.normalized) :
    (s.note told notice).cachedScheme host = s.cachedScheme host := by
  by_cases htells : notice.Tells
  · cases notice with
    | succeeded scheme =>
      rw [note_succeeded htells]
      exact (lookup_cons_of_ne h.symm _ _).trans (cachedScheme_forget_ne h)
    | failed scheme => exact cachedScheme_forget_ne h
  · rw [note_of_not_tells htells]

theorem cachedScheme_note_iff :
    (s.note told notice).cachedScheme host = some name ↔
      (told.normalized = host.normalized ∧ notice.Tells ∧
        ∃ scheme, notice = .succeeded scheme ∧ scheme.name = name) ∨
      (s.cachedScheme host = some name ∧ (told.normalized = host.normalized → ¬ notice.Tells)) := by
  by_cases hsame : told.normalized = host.normalized
  · by_cases htells : notice.Tells
    · cases notice with
      | succeeded scheme => simp [note_succeeded htells, cachedScheme, hsame, htells]
      | failed scheme => simp [note, cachedScheme_forget hsame, htells, hsame]
    · simp [note_of_not_tells htells, htells]
  · simp [cachedScheme_note_ne hsame, hsame]

theorem cachedScheme_after (hs : s.cache = []) (history : List (Endpoint × Notice)) :
    (s.after history).cachedScheme host = some name ↔ Remembers history host name := by
  induction history using List.reverseRecOn with
  | nil => simp [after, Remembers, cachedScheme, hs]
  | append_singleton history last ih =>
    rw [Remembers, persists_concat_iff, ← Remembers, ← ih, after, List.foldl_append]
    exact cachedScheme_note_iff

theorem after_books (s : Strategy) (history : List (Endpoint × Notice)) :
    { s.after history with cache := [] } = { s with cache := [] } := by
  induction history generalizing s with
  | nil => rfl
  | cons first rest ih => exact (ih (s.note first.1 first.2)).trans (s.note_books first.1 first.2)

end

-- ---------------------------------------------------------------------------
-- The order of preference
-- ---------------------------------------------------------------------------

inductive MovedToFront (name : Text) : List Text → List Text → Prop
  | moved {before after : List Text} (first : name ∉ before) :
      MovedToFront name (before ++ name :: after) (name :: (before ++ after))
  | absent {order : List Text} (absent : name ∉ order) : MovedToFront name order order

theorem movedToFront_toFront (name : Text) (order : List Text) :
    MovedToFront name order (toFront name order) := by
  unfold toFront
  split
  · rename_i hmem
    obtain ⟨before, after, rfl, hfirst⟩ := List.eq_append_cons_of_mem hmem
    rw [List.erase_append_right _ hfirst, List.erase_cons_head]
    exact .moved hfirst
  · rename_i hmem
    exact .absent hmem

def listed (preferred : Option (List Text)) : List Text :=
  match preferred with
  | some names => names.map Text.lower
  | none => usualOrder

/-- Whether an order is the listed one, with what is remembered for the host moved to the front. -/
def Prefers (history : List (Endpoint × Notice)) (host : Endpoint) (preferred : Option (List Text))
    (order : List Text) : Prop :=
  (∀ name, Remembers history host name → MovedToFront name (listed preferred) order) ∧
    ((∀ name, ¬ Remembers history host name) → order = listed preferred)

theorem prefers_order {s : Strategy} (hs : s.cache = []) (history : List (Endpoint × Notice))
    (host : Endpoint) (preferred : Option (List Text)) :
    Prefers history host preferred ((s.after history).order host preferred) := by
  have hlisted : (preferred.map (·.map Text.lower)).getD usualOrder = listed preferred := by
    cases preferred <;> rfl
  unfold Prefers order
  simp only [← cachedScheme_after hs history, hlisted]
  cases (s.after history).cachedScheme host with
  | none => simp
  | some name =>
    refine ⟨fun other hother => ?_, fun h => absurd rfl (h name)⟩
    obtain rfl := Option.some.inj hother
    exact movedToFront_toFront name _

-- ---------------------------------------------------------------------------
-- The challenge of a scheme
-- ---------------------------------------------------------------------------

def heard? (side : Side) (value : Bytes) : Option Challenge :=
  (HeaderValue.text? value).bind fun text => (Challenge.read side text).toOption

def announces (side : Side) (name : Text) (value : Bytes) : Bool :=
  (heard? side value).any (·.scheme = name)

/-- Whether a challenge is the first of its scheme in a response. -/
def FirstOf (side : Side) (h : Headers) (name : Text) (c : Challenge) : Prop :=
  ∃ earlier value later, h.values side.challengeHeader = earlier ++ value :: later ∧
    heard? side value = some c ∧ c.scheme = name ∧ ∀ other ∈ earlier, announces side name other = false

section
variable {side : Side} {name : Text} {c : Challenge} {h h' : Headers} {values : List Bytes}

theorem find?_firstOfEach (cs : List Challenge) (name : Text) :
    challengeOf? (firstOfEach cs) name = challengeOf? cs name := by
  unfold challengeOf?
  induction cs with
  | nil => rfl
  | cons first rest ih =>
    by_cases hname : first.scheme = name
    · simp [firstOfEach, hname]
    · rw [firstOfEach, List.find?_cons_of_neg (by simpa using hname), List.find?_filter,
        List.find?_cons_of_neg (by simpa using hname), ← ih]
      refine List.find?_congr fun other _ => ?_
      by_cases hother : other.scheme = name <;> simp [hother, Ne.symm hname]

theorem challengeOf?_filterMap (values : List Bytes) (name : Text) :
    challengeOf? (values.filterMap (heard? side)) name =
      (values.find? (announces side name)).bind (heard? side) := by
  rw [challengeOf?, List.find?_filterMap]
  rfl

theorem announces_eq_true_iff {value : Bytes} (hc : heard? side value = some c) :
    announces side name value = true ↔ c.scheme = name := by
  simp [announces, hc]

theorem challengeOf?_eq_some_iff :
    challengeOf? ((h.values side.challengeHeader).filterMap (heard? side)) name = some c ↔
      FirstOf side h name c := by
  rw [challengeOf?_filterMap, Option.bind_eq_some_iff]
  simp only [List.find?_eq_some_iff_append, Bool.not_eq_true']
  constructor
  · rintro ⟨value, ⟨hvalue, earlier, later, heq, hearlier⟩, hc⟩
    exact ⟨earlier, value, later, heq, hc, (announces_eq_true_iff hc).mp hvalue, hearlier⟩
  · rintro ⟨earlier, value, later, heq, hc, hname, hearlier⟩
    exact ⟨value, ⟨(announces_eq_true_iff hc).mpr hname, earlier, later, heq, hearlier⟩, hc⟩

/-- Whether the challenges of a response changes places only with those of other schemes. -/
def Rearranged (side : Side) (h h' : Headers) : Prop :=
  (h'.values side.challengeHeader).Perm (h.values side.challengeHeader) ∧
    ∀ name, (h'.values side.challengeHeader).filter (announces side name) =
      (h.values side.challengeHeader).filter (announces side name)

theorem Rearranged.challengeOf?_eq (hh : Rearranged side h h') (name : Text) :
    challengeOf? ((h'.values side.challengeHeader).filterMap (heard? side)) name =
      challengeOf? ((h.values side.challengeHeader).filterMap (heard? side)) name := by
  rw [challengeOf?_filterMap, challengeOf?_filterMap, ← List.head?_filter, ← List.head?_filter, hh.2 name]

theorem mapM_text? {f : Text → Option Challenge}
    (htext : ∀ value ∈ values, (HeaderValue.text? value).isSome) :
    ∃ texts, values.mapM HeaderValue.text? = some texts ∧
      texts.filterMap f = values.filterMap fun value => (HeaderValue.text? value).bind f := by
  induction values with
  | nil => exact ⟨[], rfl, rfl⟩
  | cons value rest ih =>
    obtain ⟨text, ht⟩ := Option.isSome_iff_exists.mp (htext value List.mem_cons_self)
    obtain ⟨texts, hrest, heq⟩ := ih fun v hv => htext v (List.mem_cons_of_mem _ hv)
    refine ⟨text :: texts, by simp [ht, hrest], ?_⟩
    simp only [List.filterMap_cons, ht, Option.bind_some, heq]

theorem challenges_eq {s : Strategy}
    (htext : ∀ value ∈ h.values s.side.challengeHeader, (HeaderValue.text? value).isSome) :
    s.challenges h = .ok (firstOfEach ((h.values s.side.challengeHeader).filterMap (heard? s.side))) := by
  obtain ⟨texts, htexts, heq⟩ := mapM_text? (f := fun text => (Challenge.read s.side text).toOption) htext
  rw [challenges, htexts]
  exact congrArg (fun cs => Except.ok (firstOfEach cs)) heq

end

-- ---------------------------------------------------------------------------
-- Options
-- ---------------------------------------------------------------------------

/-- Whether a list has, in order, what belongs to each element of another list, if anything does. -/
inductive Picks {α β : Type} (R : α → β → Prop) : List α → List β → Prop
  | nil : Picks R [] []
  | picked {a b as bs} : R a b → Picks R as bs → Picks R (a :: as) (b :: bs)
  | passed {a as bs} : (∀ b, ¬ R a b) → Picks R as bs → Picks R (a :: as) bs

theorem picks_filterMap {α β : Type} {R : α → β → Prop} {f : α → Option β}
    (hf : ∀ a b, f a = some b ↔ R a b) (as : List α) : Picks R as (as.filterMap f) := by
  induction as with
  | nil => exact .nil
  | cons a rest ih =>
    cases ha : f a with
    | none =>
      rw [List.filterMap_cons_none ha]
      refine .passed (fun b hb => ?_) ih
      rw [(hf a b).mpr hb] at ha
      cases ha
    | some b =>
      rw [List.filterMap_cons_some ha]
      exact .picked ((hf a b).mp ha) ih

/-- Whether a candidate is the option for a scheme: the response challenges with it, the registry makes a
scheme of that name, which takes the challenge, and there are credentials for the host, its effective port,
the realm and the scheme. -/
def IsOption (side : Side) (schemes : Registry) (vault : Provider) (host : Endpoint) (h : Headers)
    (name : Text) (candidate : Candidate) : Prop :=
  ∃ c scheme, FirstOf side h name c ∧ schemes.create? name = some scheme ∧
    scheme.take c = (.ok (), candidate.scheme) ∧
      vault.find? (.of (some host.hostname) (some host.effectivePort) candidate.scheme.realm?
        (some candidate.scheme.name)) = some candidate.credentials

section
variable {s : Strategy} {host : Endpoint} {c : Challenge} {candidate : Candidate}

theorem candidate?_eq_some_iff :
    s.candidate? host c = some candidate ↔
      ∃ scheme, s.schemes.create? c.scheme = some scheme ∧ scheme.take c = (.ok (), candidate.scheme) ∧
          s.vault.find? (scopeFor host candidate.scheme) = some candidate.credentials := by
  constructor
  · intro h
    obtain ⟨scheme, hcreate, htaken, hscheme, hfound⟩ := candidate?_some h
    exact ⟨scheme, hcreate, Prod.ext htaken hscheme.symm, hfound⟩
  · rintro ⟨scheme, hcreate, htaken, hfound⟩
    simp [candidate?, hcreate, htaken, hfound, Except.toOption]

theorem select_firstOfEach (host : Endpoint) (preferred : Option (List Text)) (cs : List Challenge) :
    s.select host preferred (firstOfEach cs) =
      (s.order host preferred).filterMap fun name => (challengeOf? cs name).bind (s.candidate? host) := by
  unfold select
  simp only [find?_firstOfEach]

end

/-- A strategy that begins with no memory and has been told of hosts remembers for each the scheme of the
last telling success, and of a response whose challenges are text lists one option for each name that it
prefers and that has one, in the preferred order; where challenges of different schemes change places, the
options are the same. -/
theorem selects_preferred (side : Side) (schemes : Registry) (vault : Provider)
    (history : List (Endpoint × Notice)) (host : Endpoint) (preferred : Option (List Text)) (h : Headers)
    (htext : ∀ value ∈ h.values side.challengeHeader, (HeaderValue.text? value).isSome) :
    let s := after { side, schemes, vault } history
    (∀ name, s.cachedScheme host = some name ↔ Remembers history host name) ∧
    ∃ challenges, s.challenges h = .ok challenges ∧
      (∃ order, Prefers history host preferred order ∧
        Picks (IsOption side schemes vault host h) order (s.select host preferred challenges)) ∧
      ∀ h', Rearranged side h h' → ∃ challenges', s.challenges h' = .ok challenges' ∧
        s.select host preferred challenges' = s.select host preferred challenges := by
  intro s
  have hbooks := after_books { side, schemes, vault } history
  have hside : s.side = side := congrArg Strategy.side hbooks
  have hschemes : s.schemes = schemes := congrArg Strategy.schemes hbooks
  have hvault : s.vault = vault := congrArg Strategy.vault hbooks
  have hheard (h : Headers)
      (htext : ∀ value ∈ h.values side.challengeHeader, (HeaderValue.text? value).isSome) :
      s.challenges h = .ok (firstOfEach ((h.values side.challengeHeader).filterMap (heard? side))) := by
    rw [← hside] at htext ⊢
    exact challenges_eq htext
  refine ⟨fun name => cachedScheme_after rfl history, _, hheard h htext, ?_, fun h' hh => ?_⟩
  · refine ⟨s.order host preferred, prefers_order rfl history host preferred, ?_⟩
    rw [select_firstOfEach]
    refine picks_filterMap (fun name candidate => ?_) _
    simp only [Option.bind_eq_some_iff, challengeOf?_eq_some_iff, candidate?_eq_some_iff, hschemes, hvault]
    constructor
    · rintro ⟨c, hc, scheme, hcreate, hrest⟩
      obtain ⟨-, -, -, -, -, hname, -⟩ := id hc
      exact ⟨c, scheme, hc, hname ▸ hcreate, hrest⟩
    · rintro ⟨c, scheme, hc, hcreate, hrest⟩
      obtain ⟨-, -, -, -, -, hname, -⟩ := id hc
      exact ⟨c, hc, scheme, hname ▸ hcreate, hrest⟩
  · have htext' : ∀ value ∈ h'.values side.challengeHeader, (HeaderValue.text? value).isSome :=
      fun value hvalue => htext value (hh.1.mem_iff.mp hvalue)
    refine ⟨_, hheard h' htext', ?_⟩
    rw [select_firstOfEach, select_firstOfEach]
    simp only [hh.challengeOf?_eq]

def noticesOfTwo : List (Endpoint × Notice) :=
  [(⟨"http", "a", none⟩, .succeeded (.basic { complete := true })), (⟨"http", "b", none⟩, .failed none)]

def twoChallenges : Headers :=
  [(HeaderName.wwwAuthenticate, Utf8.encode "Digest realm=\"r\", nonce=\"n\""),
    (HeaderName.wwwAuthenticate, Utf8.encode "="),
    (HeaderName.wwwAuthenticate, Utf8.encode "Basic realm=\"r\"")]

def reversedChallenges : Headers := twoChallenges.reverse

theorem rearranged_backwards : Rearranged .target twoChallenges reversedChallenges := by
  have hreverse : reversedChallenges.values (Side.challengeHeader .target) =
      (twoChallenges.values (Side.challengeHeader .target)).reverse := List.filterMap_reverse
  refine ⟨hreverse ▸ List.reverse_perm _, fun name => ?_⟩
  have hvalues : twoChallenges.values (Side.challengeHeader .target) =
      [Utf8.encode "Digest realm=\"r\", nonce=\"n\"", Utf8.encode "=", Utf8.encode "Basic realm=\"r\""] := rfl
  have hdigest : (heard? .target (Utf8.encode "Digest realm=\"r\", nonce=\"n\"")).map (·.scheme) =
      some "digest".toList := by decide +kernel
  have hnone : heard? .target (Utf8.encode "=") = none := by decide +kernel
  have hbasic : (heard? .target (Utf8.encode "Basic realm=\"r\"")).map (·.scheme) = some "basic".toList := by
    decide +kernel
  rw [hreverse, hvalues]
  generalize Utf8.encode "Digest realm=\"r\", nonce=\"n\"" = first at hdigest ⊢
  generalize Utf8.encode "=" = second at hnone ⊢
  generalize Utf8.encode "Basic realm=\"r\"" = third at hbasic ⊢
  obtain ⟨digest, hdigest, hname⟩ := Option.map_eq_some_iff.mp hdigest
  obtain ⟨basic, hbasic, hname'⟩ := Option.map_eq_some_iff.mp hbasic
  -- no two of them announce one scheme, so of each name there is at most one
  by_cases hn : name = "digest".toList
  · simp [announces, hdigest, hnone, hbasic, hname, hname', hn]
  · have hfirst : announces .target name first = false := by
      rw [Bool.eq_false_iff, Ne, announces_eq_true_iff hdigest, hname]
      exact Ne.symm hn
    have hsecond : announces .target name second = false := by simp [announces, hnone]
    simp [hfirst, hsecond, List.filter_cons]

def exampleStrategy : Strategy :=
  after { side := .target, schemes := Schemes.known {},
          vault := ([({}, { user := "u", password := "p" })] : Vault) } noticesOfTwo

theorem selects_preferred_exampleStrategy :
    (∀ value ∈ twoChallenges.values (Side.challengeHeader .target), (HeaderValue.text? value).isSome) ∧
      exampleStrategy.cachedScheme ⟨"http", "a", some 80⟩ = some "basic" ∧
      Rearranged .target twoChallenges reversedChallenges ∧
      ∃ challenges challenges', exampleStrategy.challenges twoChallenges = .ok challenges ∧
        exampleStrategy.challenges reversedChallenges = .ok challenges' ∧
        exampleStrategy.select ⟨"http", "a", some 80⟩ none challenges' =
          exampleStrategy.select ⟨"http", "a", some 80⟩ none challenges := by
  have htext : ∀ value ∈ twoChallenges.values (Side.challengeHeader .target),
      (HeaderValue.text? value).isSome := by
    decide +kernel
  obtain ⟨hcached, challenges, hchallenges, -, hrearranged⟩ := selects_preferred .target (Schemes.known {})
    ([({}, { user := "u", password := "p" })] : Vault) noticesOfTwo ⟨"http", "a", some 80⟩ none
    twoChallenges htext
  obtain ⟨challenges', hchallenges', hsame⟩ := hrearranged _ rearranged_backwards
  refine ⟨htext, (hcached "basic").mpr ?_, rearranged_backwards, challenges, challenges', hchallenges,
    hchallenges', hsame⟩
  refine ⟨[], _, _, rfl, ⟨rfl, ⟨rfl, by decide⟩, _, rfl, rfl⟩, ?_⟩
  simp [Endpoint.normalized]

end Strategy

end HttpSession.Auth
