import HttpSession.Proofs.Cookie.Occurrences
import HttpSession.Proofs.Cookie.Purging
import HttpSession.Proofs.Cookie.StrictHeaders
import HttpSession.Proofs.Exchange.Attempts

/-!
# Requests carry all their cookies

The cookies that are chosen for a request are written into one header value, which may hold no control
character. What a response sets has none, for the header it was read from had none; the text of a cookie
file may have some.

Main statement: a request carries every cookie of its jar that is for it if what would be written of
those from cookie files has no control characters (`Jar.carriesAll`). A file can have others, which then
keep all cookies from being sent (`Jar.carries_none`).
-/

namespace HttpSession

open HeaderValue (Legible)

namespace Cookie

-- ---------------------------------------------------------------------------
-- Legible elements
-- ---------------------------------------------------------------------------

structure Element.IsLegible (e : Element) : Prop where
  name : Legible e.name
  value : Legible e.value
  attributes : ∀ a ∈ e.attributes, Legible (a.value.getD [])

namespace Element

variable {t : Text} {e : Element} {elements : List Element}

theorem legible_readPair (h : Legible t) : Legible (readPair t).1 ∧ Legible (readPair t).2 := by
  unfold readPair
  split
  · rename_i name value hcut
    exact ⟨h.subset fun c hc => Text.mem_of_mem_cut? hcut (.inl (Text.mem_of_mem_trim hc)),
      h.subset fun c hc => Text.mem_of_mem_cut? hcut (.inr (Text.mem_of_mem_trim hc))⟩
  · exact ⟨h, nofun⟩

theorem legible_readAttribute (h : Legible t) : Legible ((readAttribute t).value.getD []) := by
  unfold readAttribute
  split
  · rename_i name value hcut
    exact h.subset fun c hc => Text.mem_of_mem_cut? hcut (.inr (Text.mem_of_mem_trim hc))
  · exact nofun

theorem isLegible_of_read (ht : Legible t) (h : Element.read t = .ok e) : e.IsLegible := by
  have hpiece : ∀ piece ∈ t.splitUnquoted ';', Legible piece.trim := fun piece hp =>
    ht.subset fun c hc => Text.mem_of_mem_splitUnquoted hp (Text.mem_of_mem_trim hc)
  unfold Element.read at h
  split at h
  · cases h
  · rename_i first rest hsplit
    rw [hsplit] at hpiece
    by_cases hne : (readPair first.trim).1 = []
    · simp [hne] at h
    · simp only [hne, if_false] at h
      obtain rfl := Except.ok.inj h
      obtain ⟨hname, hvalue⟩ := legible_readPair (hpiece first List.mem_cons_self)
      refine ⟨hname, hvalue, fun a ha => ?_⟩
      obtain ⟨part, hpart, -, rfl⟩ := mem_readAttributes_iff.mp ha
      exact legible_readAttribute (hpiece part (List.mem_cons_of_mem _ hpart))

theorem isLegible_of_mem_readAll (ht : Legible t) (h : readAll t = .ok elements) (he : e ∈ elements) :
    e.IsLegible := by
  obtain ⟨piece, hpiece, hread⟩ := exists_of_mem_mapM h he
  refine isLegible_of_read (ht.subset fun c hc => ?_) hread
  exact Text.mem_of_mem_splitUnquoted (List.mem_filter.mp hpiece).1 hc

theorem isLegible_of_mem_elements {p : Policy} {source : Source} (ht : Legible t)
    (h : p.elements source t = .ok elements) (he : e ∈ elements) : e.IsLegible := by
  have hlisted (h : listed t = .ok elements) : e.IsLegible := by
    obtain ⟨first, hfirst, h⟩ := bind_ok_iff.mp h
    split at h
    · exact isLegible_of_mem_readAll ht h he
    · obtain rfl := Except.ok.inj h
      obtain rfl := List.mem_singleton.mp he
      exact isLegible_of_read ht hfirst
  unfold Policy.elements at h
  split at h
  · exact isLegible_of_mem_readAll ht h he
  · exact isLegible_of_mem_readAll ht h he
  · exact hlisted h

end Element

-- ---------------------------------------------------------------------------
-- Cookies that headers can hold
-- ---------------------------------------------------------------------------

/-- Whether a header can hold what is written of a cookie: its name and value, and where quotes are put
around values, the path and the domain that were given. -/
structure Sendable (quotes : Bool) (c : Cookie) : Prop where
  name : Legible c.name
  value : Legible c.value
  path : quotes = true → c.pathGiven = true → Legible c.path
  domain : quotes = true → c.domainGiven = true → Legible c.domain

section
variable {quotes : Bool} {now : Instant} {origin : Origin} {e : Element} {c : Cookie} {a : Attribute}

theorem legible_slash : Legible ['/'] := by decide

theorem Compatibility.Draft.sendable_finish {d : Draft} (h : d.cookie.Sendable quotes) :
    d.finish.Sendable quotes := by
  unfold finish
  split
  · exact ⟨h.name, h.value, h.path, h.domain⟩
  · exact h

theorem Compatibility.sendable_of_ofElement (he : e.IsLegible) (h : ofElement now origin e = .ok c) :
    c.Sendable quotes := by
  have hattribute {name : Text} {a : Attribute} (ha : lastNamed e.attributes name = some a) :
      Legible (a.value.getD []) :=
    he.attributes a (List.mem_reverse.mp (mem_and_name_of_firstNamed ha).1)
  obtain ⟨-, rfl⟩ := ofElement_ok_iff.mp h
  refine Draft.sendable_finish ⟨he.name, he.value, fun _ hgiven => ?_, fun _ hgiven => ?_⟩
  · obtain ⟨a, ha⟩ := Option.isSome_iff_exists.mp hgiven
    have hpath : (drafted now origin e (lastNamed e.attributes)).cookie.path =
        if a.value.getD [] = [] then ['/'] else a.value.getD [] := by
      unfold drafted
      rw [ha]
      rfl
    rw [hpath]
    split
    · exact legible_slash
    · exact hattribute ha
  · obtain ⟨a, ha⟩ := Option.isSome_iff_exists.mp hgiven
    have hdomain : (drafted now origin e (lastNamed e.attributes)).cookie.domain =
        (a.value.getD []).lower := by
      unfold drafted
      rw [ha]
      rfl
    rw [hdomain]
    exact (hattribute ha).lower

theorem Strict.legible_unquoted (h : Legible (a.value.getD [])) : Legible ((unquoted a).getD []) := by
  unfold unquoted
  cases hvalue : a.value with
  | none => exact nofun
  | some value =>
    rw [hvalue] at h
    exact h.subset fun c hc => Text.mem_of_mem_unquote hc

theorem Strict.legible_dotted_marked (h : Legible (a.value.getD [])) :
    Legible (dotted ((marked a).getD [])) := by
  have hmarked : Legible ((marked a).getD []) := by
    refine (legible_unquoted h).subset fun c hc => ?_
    unfold marked at hc
    cases hvalue : unquoted a with
    | none =>
      rw [hvalue] at hc
      exact absurd hc List.not_mem_nil
    | some value =>
      rw [hvalue, Option.filter_some] at hc
      split at hc
      · exact hc
      · exact absurd hc List.not_mem_nil
  unfold dotted
  split
  · exact hmarked
  · exact List.forall_mem_cons.mpr ⟨by decide, hmarked⟩

theorem Strict.sendable_of_ofElement {fromSetCookie2 : Bool} (he : e.IsLegible)
    (h : ofElement now fromSetCookie2 origin e = .ok c) : c.Sendable quotes := by
  have hattribute {name : Text} {a : Attribute} (ha : firstNamed e.attributes name = some a) :
      Legible (a.value.getD []) :=
    he.attributes a (mem_and_name_of_firstNamed ha).1
  obtain ⟨-, rfl⟩ := ofElement_ok_iff.mp h
  refine ⟨he.name, he.value.subset fun c hc => Text.mem_of_mem_unquote hc, fun _ hgiven => ?_,
    fun _ hgiven => ?_⟩
  · obtain ⟨a, ha⟩ := Option.isSome_iff_exists.mp hgiven
    have hpath : (assembled now fromSetCookie2 origin e (firstNamed e.attributes)).path =
        if ((unquoted a).getD []).trim = [] then ['/'] else (unquoted a).getD [] := by
      unfold assembled
      rw [ha]
      rfl
    rw [hpath]
    split
    · exact legible_slash
    · exact legible_unquoted (hattribute ha)
  · obtain ⟨a, ha⟩ := Option.isSome_iff_exists.mp hgiven
    have hdomain : (assembled now fromSetCookie2 origin e (firstNamed e.attributes)).domain =
        (dotted ((marked a).getD [])).lower := by
      unfold assembled
      rw [ha]
      rfl
    rw [hdomain]
    exact (legible_dotted_marked (hattribute ha)).lower

/-- A header can hold what another header said. -/
theorem sendable_of_mem_accepted {rules : Rules} {response : Headers}
    (h : c ∈ accepted rules now response) (quotes : Bool) : c.Sendable quotes := by
  obtain ⟨source, bytes, -, h⟩ := exists_mem_acceptedFrom h
  obtain ⟨text, cookies, htext, hread, hc, -⟩ := mem_acceptedFrom h
  obtain ⟨elements, strict, helements, e, he, hmade⟩ := Policy.exists_of_mem_read hread hc
  have hlegible := Element.isLegible_of_mem_elements (HeaderValue.legible_of_text? htext) helements he
  cases strict with
  | true => exact Strict.sendable_of_ofElement hlegible hmade
  | false => exact Compatibility.sendable_of_ofElement hlegible hmade

end

-- ---------------------------------------------------------------------------
-- Where cookies come from
-- ---------------------------------------------------------------------------

def StoreEvent.Feeds : StoreEvent → Prop
  | .visit _ (.ingest _ _ _) | .load _ _ => True
  | .visit _ (.attach _ _ _) | .visit _ (.edit _) => False

def StoreEvent.loaded : StoreEvent → List Cookie
  | .load _ file => ((File.read file).toOption.map (·.cookies)).getD []
  | .visit _ _ => []

def storeAfter (history : List StoreEvent) : Store :=
  history.foldl (fun s event => (event.outcome s).store) {}

section
variable {s : Store} {c : Cookie} {event : StoreEvent} {history : List StoreEvent}

theorem StoreEvent.store_load (s : Store) (now : Instant) (file : Bytes) :
    ((load now file).outcome s).store = s.addAll now (load now file).loaded := by
  simp only [outcome, loaded]
  cases File.read file <;> rfl

theorem StoreEvent.mem_outcome (hf : event.Feeds) (hc : c ∈ (event.outcome s).store.toList) :
    c ∈ s.toList ∨ c ∈ event.loaded ∨ ∀ quotes, c.Sendable quotes := by
  cases event with
  | load now file =>
    rw [store_load] at hc
    exact (Store.mem_of_mem_addAll hc).symm.imp_right .inl
  | visit p visit =>
    cases visit with
    | attach origin now request => exact hf.elim
    | edit change => exact hf.elim
    | ingest origin now response =>
      rcases Store.mem_of_mem_addAll hc with hc | hc
      · exact .inr (.inr (sendable_of_mem_accepted hc))
      · exact .inl hc

theorem mem_storeAfter (hf : ∀ event ∈ history, event.Feeds)
    (hc : c ∈ (storeAfter history).toList) :
    c ∈ history.flatMap StoreEvent.loaded ∨ ∀ quotes, c.Sendable quotes := by
  induction history using List.reverseRecOn with
  | nil => exact absurd hc List.not_mem_nil
  | append_singleton history event ih =>
    rw [storeAfter, List.foldl_append] at hc
    rw [List.flatMap_append, List.mem_append]
    rcases StoreEvent.mem_outcome (hf event (by simp)) hc with hc | hc | hc
    · exact (ih (fun h hh => hf h (by simp [hh])) hc).imp_left .inl
    · exact .inl (.inr (by simpa using hc))
    · exact .inr hc

end

-- ---------------------------------------------------------------------------
-- What is written
-- ---------------------------------------------------------------------------

def Policy.quotes (p : Policy) (cookies : List Cookie) : Bool :=
  match p with
  | .bestMatch => writesStrict cookies
  | .strict => true
  | .compatibility | .ignoring => false

def partsBy (quotes : Bool) (cookies : List Cookie) : List HeaderPart :=
  if quotes then Strict.parts cookies else Compatibility.parts cookies

section
variable {quotes : Bool} {c : Cookie} {cookies : List Cookie} {m : Mention} {p : Policy}

theorem Policy.text_eq (hp : p ≠ .ignoring) (cookies : List Cookie) : p.text cookies =
    some (Text.join [';'] ((partsBy (p.quotes cookies) cookies).map (·.text))) := by
  cases p with
  | bestMatch => exact text_bestMatch cookies
  | compatibility => exact congrArg some (Compatibility.format_eq cookies)
  | strict => exact congrArg some (Strict.format_eq cookies)
  | ignoring => exact absurd rfl hp

theorem mem_partsBy (hc : c ∈ cookies) :
    ∃ lead, HeaderPart.ofCookie quotes lead c ∈ partsBy quotes cookies := by
  cases quotes with
  | true =>
    refine ⟨[' '], List.mem_cons_of_mem _ (List.mem_flatMap.mpr ⟨c, ?_, List.mem_cons_self⟩)⟩
    exact (List.mergeSort_perm _ _).mem_iff.mpr hc
  | false =>
    cases cookies with
    | nil => cases hc
    | cons first rest =>
      rcases List.mem_cons.mp hc with rfl | hc
      · exact ⟨[], List.mem_cons_self⟩
      · exact ⟨[' '], List.mem_cons_of_mem _ (List.mem_map_of_mem hc)⟩

theorem Strict.legible_mention (h : c.Sendable true) (hm : m ∈ mentions c) : Legible m.text := by
  have hquoted {name body : Text} (hname : Legible name) (hbody : Legible body) :
      Legible (⟨name, some body⟩ : Mention).text := by
    have hquote : Legible (Text.quote body) :=
      List.forall_mem_cons.mpr ⟨by decide, HeaderValue.legible_append.mpr ⟨hbody, by decide⟩⟩
    exact HeaderValue.legible_append.mpr ⟨hname, List.forall_mem_cons.mpr ⟨by decide, hquote⟩⟩
  rcases eq_of_mem_mentions hm with rfl | ⟨hgiven, rfl⟩ | ⟨hgiven, rfl⟩ | rfl
  · exact hquoted h.name h.value
  · exact hquoted (by decide) (h.path rfl hgiven)
  · exact hquoted (by decide) (h.domain rfl hgiven)
  · cases hports : mentionedPorts c.ports with
    | none => exact (by decide : Legible "$Port")
    | some list =>
      obtain ⟨-, rfl⟩ := mentionedPorts_eq_some_iff.mp hports
      have hcomma : Legible "," := by decide
      refine hquoted (by decide) (Text.forall_mem_join hcomma fun piece hpiece => ?_)
      obtain ⟨port, -, rfl⟩ := List.mem_map.mp hpiece
      exact HeaderValue.legible_ofNat port

theorem legible_partsBy (h : ∀ c ∈ cookies, c.Sendable quotes) :
    ∀ part ∈ partsBy quotes cookies, Legible part.text := by
  intro part hpart
  cases quotes with
  | true =>
    have htext : part.text ∈ (Strict.parts cookies).map (·.text) := List.mem_map_of_mem hpart
    rw [Strict.text_parts] at htext
    rcases List.mem_cons.mp htext with htext | htext
    · rw [htext]
      exact HeaderValue.legible_append.mpr ⟨by decide, HeaderValue.legible_ofNat _⟩
    · obtain ⟨m, hm, htext⟩ := List.mem_map.mp htext
      obtain ⟨c, hc, hm⟩ := List.mem_flatMap.mp hm
      have hsendable := h c ((List.mergeSort_perm _ _).mem_iff.mp hc)
      rw [← htext]
      exact List.forall_mem_cons.mpr ⟨by decide, Strict.legible_mention hsendable hm⟩
  | false =>
    have hone {lead : Text} {c : Cookie} (hl : Legible lead) (hc : c ∈ cookies) :
        Legible (HeaderPart.ofCookie false lead c).text :=
      HeaderValue.legible_append.mpr ⟨HeaderValue.legible_append.mpr ⟨hl, (h c hc).name⟩,
        List.forall_mem_cons.mpr ⟨by decide, (h c hc).value⟩⟩
    cases cookies with
    | nil => cases hpart
    | cons first rest =>
      rcases List.mem_cons.mp hpart with rfl | hpart
      · exact hone nofun List.mem_cons_self
      · obtain ⟨c, hc, rfl⟩ := List.mem_map.mp hpart
        exact hone (by decide) (List.mem_cons_of_mem _ hc)

/-- A text with everything that is written of some cookies. -/
theorem Policy.format_of_sendable (hp : p ≠ .ignoring) (hne : cookies ≠ [])
    (h : ∀ c ∈ cookies, c.Sendable (p.quotes cookies)) :
    ∃ text, p.format cookies = some (Utf8.encode text) ∧
      ∀ c ∈ cookies, c.name ++ '=' :: HeaderPart.written (p.quotes cookies) c.value <:+: text := by
  have hsemicolon : Legible [';'] := by decide
  refine ⟨Text.join [';'] ((partsBy (p.quotes cookies) cookies).map (·.text)), ?_, fun c hc => ?_⟩
  · rw [format, if_neg hne, text_eq hp, Option.bind_some, HeaderValue.ofText?_eq_some_iff]
    refine ⟨Text.forall_mem_join hsemicolon fun piece hpiece => ?_, rfl⟩
    obtain ⟨part, hpart, rfl⟩ := List.mem_map.mp hpiece
    exact legible_partsBy h part hpart
  · obtain ⟨lead, hpart⟩ := mem_partsBy hc
    have hinfix : c.name ++ '=' :: HeaderPart.written (p.quotes cookies) c.value <:+:
        (HeaderPart.ofCookie (p.quotes cookies) lead c).text := ⟨lead, [], by simp [HeaderPart.ofCookie]⟩
    exact hinfix.trans (Text.isInfix_join (List.mem_map_of_mem hpart))

end

end Cookie

-- ---------------------------------------------------------------------------
-- Requests
-- ---------------------------------------------------------------------------

namespace Jar

open Cookie (StoreEvent Policy Rules originOf storeAfter)

structure Judges (jar : Jar) (context : Context) (request : Request) (target : Endpoint) (route : Route)
    (p : Policy) : Prop where
  method : request.method ≠ Method.connect
  target : (context.targetHost <|> Endpoint.ofUrl? request.url) = some target
  route : context.route = some route
  policy : Policy.lookup jar.policies (context.config.cookiePolicy.getD jar.usual) = some p
  keepsSilent : p ≠ .ignoring

/-- Whether a request gets one value, behind those it has, that shows every cookie of a jar that is for
it. -/
def CarriesAll (jar : Jar) (context : Context) (now : Instant) (request : Request) (rules : Rules) :
    Prop :=
  ∃ carrying text, jar.attach context now request = .ok carrying ∧
    carrying.request.headers.values HeaderName.cookie =
        request.headers.values HeaderName.cookie ++ [Utf8.encode text] ∧
      ∀ c ∈ jar.store.toList, c.expiredAt now = false → rules.policy.isSentTo c rules.origin = true →
        c.name ++ '=' :: Cookie.HeaderPart.written (rules.policy.quotes (jar.store.chosen rules now))
          c.value <:+: text

section
variable {jar : Jar} {context : Context} {now : Instant} {request : Request} {target : Endpoint}
  {route : Route} {p : Policy} {rules : Rules} {history : List StoreEvent} {c : Cookie}

theorem Judges.rulesFor (h : jar.Judges context request target route p) :
    jar.rulesFor context request = .ok (some ⟨p, originOf target route request.url.path⟩) := by
  unfold Jar.rulesFor
  rw [if_neg h.method, h.target, h.route]
  simp only [h.policy]

theorem attach_eq (h : jar.rulesFor context request = .ok (some rules)) :
    jar.attach context now request =
      .ok ⟨request.withCookies (some rules) (jar.store.chosen rules now), jar.store.chosen rules now,
        { context with rules := some rules }⟩ := by
  unfold attach
  rw [h]
  rfl

theorem values_cookie_of_attach {carrying : Carrying}
    (h : jar.rulesFor context request = .ok (some rules))
    (ha : jar.attach context now request = .ok carrying) :
    carrying.request.headers.values HeaderName.cookie = request.headers.values HeaderName.cookie ++
      (rules.policy.format (jar.store.chosen rules now)).toList := by
  rw [attach_eq h] at ha
  obtain rfl := Except.ok.inj ha
  exact Request.values_cookie_withCookies request (some rules) _

theorem mem_chosen_iff : c ∈ jar.store.chosen rules now ↔
    c ∈ jar.store.toList ∧ c.expiredAt now = false ∧ rules.policy.isSentTo c rules.origin = true := by
  simp [Cookie.Store.chosen]

/-- A request carries every cookie that is for it, if some are, whatever files and responses brought
them, as long as a header can hold what would be written of those from files. -/
theorem carriesAll (hj : jar.Judges context request target route p)
    (hf : ∀ event ∈ history, event.Feeds) (hs : jar.store = storeAfter history)
    (hne : ∃ c ∈ jar.store.toList, c.expiredAt now = false ∧
      p.isSentTo c (originOf target route request.url.path) = true)
    (hl : ∀ c ∈ jar.store.chosen ⟨p, originOf target route request.url.path⟩ now,
      c ∈ history.flatMap StoreEvent.loaded →
        c.Sendable (p.quotes (jar.store.chosen ⟨p, originOf target route request.url.path⟩ now))) :
    jar.CarriesAll context now request ⟨p, originOf target route request.url.path⟩ := by
  have hrules := hj.rulesFor
  generalize originOf target route request.url.path = origin at hne hl hrules ⊢
  obtain ⟨c, hc⟩ := hne
  have hchosen : c ∈ jar.store.chosen ⟨p, origin⟩ now := mem_chosen_iff.mpr hc
  have hsendable : ∀ c ∈ jar.store.chosen ⟨p, origin⟩ now,
      c.Sendable (p.quotes (jar.store.chosen ⟨p, origin⟩ now)) := by
    intro c hc
    have hstored : c ∈ (storeAfter history).toList := hs ▸ (mem_chosen_iff.mp hc).1
    rcases Cookie.mem_storeAfter hf hstored with hloaded | hset
    · exact hl c hc hloaded
    · exact hset _
  obtain ⟨text, hformat, htext⟩ :=
    Policy.format_of_sendable hj.keepsSilent (List.ne_nil_of_mem hchosen) hsendable
  refine ⟨_, text, attach_eq hrules, ?_, fun c hc hexpired hsent => ?_⟩
  · rw [values_cookie_of_attach hrules (attach_eq hrules), hformat]
    rfl
  · exact htext c (mem_chosen_iff.mpr ⟨hc, hexpired, hsent⟩)

end

def page : Endpoint := ⟨"http", "a.example", none⟩

def pageOrigin : Cookie.Origin := .of "a.example" 80 "/" false

def toPage : Context := { route := some (.direct page.normalized) }

theorem judges_page (store : Cookie.Store) : ({ store } : Jar).Judges toPage (.to "http" "a.example") page
    (.direct page.normalized) .bestMatch :=
  ⟨by decide, by decide, rfl, rfl, nofun⟩

def elsewhereFile : Bytes := Utf8.encode
  "a.example\tFALSE\t/\tFALSE\t0\tsid\t1\nb.example\tFALSE\t/\tFALSE\t0\tbad\tx\x01y\n"

def pageHistory : List StoreEvent :=
  [.load .epoch elsewhereFile, .visit .bestMatch
    (.ingest pageOrigin .epoch [(HeaderName.setCookie, Utf8.encode "lang=de; Path=/")])]

theorem carriesAll_page :
    ({ store := storeAfter pageHistory } : Jar).CarriesAll toPage .epoch (.to "http" "a.example")
      ⟨.bestMatch, pageOrigin⟩ := by
  have hchosen : (storeAfter pageHistory).chosen ⟨.bestMatch, pageOrigin⟩ .epoch =
      [{ name := "lang", value := "de", domain := "a.example", pathGiven := true },
        { name := "sid", value := "1", domain := "a.example", pathGiven := true }] := by
    decide +kernel
  have hfeeds : ∀ event ∈ pageHistory, event.Feeds := by
    simp [pageHistory, StoreEvent.Feeds]
  refine carriesAll (judges_page (storeAfter pageHistory)) hfeeds rfl (by decide +kernel) fun c hc _ => ?_
  have hmem : c ∈ (storeAfter pageHistory).chosen ⟨.bestMatch, pageOrigin⟩ .epoch := hc
  rw [hchosen] at hmem
  simp only [List.mem_cons, List.not_mem_nil, or_false] at hmem
  obtain rfl | rfl := hmem
  · exact ⟨by decide, by decide, fun _ _ => by decide, fun _ _ => by decide⟩
  · exact ⟨by decide, by decide, fun _ _ => by decide, fun _ _ => by decide⟩

def controlFile : Bytes := Utf8.encode
  "a.example\tFALSE\t/\tFALSE\t0\tbad\tx\x01y\na.example\tFALSE\t/\tFALSE\t0\tsid\t1\n"

/-- Not every request carries all cookies that are for it. -/
theorem carries_none : ¬ ∀ (jar : Jar) (context : Context) (now : Instant) (request : Request)
    (target : Endpoint) (route : Route) (p : Policy) (history : List StoreEvent),
    jar.Judges context request target route p → (∀ event ∈ history, event.Feeds) →
      jar.store = storeAfter history →
        (∃ c ∈ jar.store.toList, c.expiredAt now = false ∧
          p.isSentTo c (originOf target route request.url.path) = true) →
          jar.CarriesAll context now request ⟨p, originOf target route request.url.path⟩ := by
  intro hall
  have hnone : Policy.bestMatch.format
      ((storeAfter [.load .epoch controlFile]).chosen ⟨.bestMatch, pageOrigin⟩ .epoch) = none := by
    decide +kernel
  have hjudges := judges_page (storeAfter [.load .epoch controlFile])
  have hfeeds : ∀ event ∈ [StoreEvent.load .epoch controlFile], event.Feeds := by
    simp [StoreEvent.Feeds]
  obtain ⟨carrying, text, hattach, hvalues, -⟩ :=
    hall _ _ .epoch _ _ _ _ _ hjudges hfeeds rfl (by decide +kernel)
  have hformat := values_cookie_of_attach hjudges.rulesFor hattach
  have hempty := hvalues.symm.trans (hformat.trans (congrArg (_ ++ Option.toList ·) hnone))
  cases hempty

end Jar

end HttpSession
