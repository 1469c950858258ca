import HttpSession.Proofs.Cookie.HeaderLaws
import HttpSession.Proofs.Message.HeaderValues
import HttpSession.Proofs.Text.IntegerLaws
import HttpSession.Proofs.Text.QuotedBodies

/-!
# Headers of the strict rules

The strict rules put quotes around all that a cookie says of itself. As long as the quotes in it stand
behind backslashes, a scan that enters it inside quotes leaves it inside quotes, whatever separators it
shows, so the header falls into the very pieces that it was written in.

Main statement: a header that the strict rules write is cut at its semicolons into the least version
and, for the cookies with longer paths first, their values and what was given of each, and everything in
quotes is what the cookie has (`Strict.header_roundtrip`).
-/

namespace HttpSession.Cookie

-- ---------------------------------------------------------------------------
-- What a header mentions
-- ---------------------------------------------------------------------------

structure Mention where
  name : Text
  body : Option Text

def Mention.text (m : Mention) : Text :=
  match m.body with
  | none => m.name
  | some body => m.name ++ '=' :: Text.quote body

structure IsPlainName (name : Text) : Prop extends IsName name where
  semicolon : ';' ∉ name
  quote : '"' ∉ name

structure Mention.Plain (m : Mention) : Prop where
  name : IsPlainName m.name
  body : ∀ body, m.body = some body → Text.IsBody body

namespace Mention.Plain

variable {m : Mention} {body : Text}

theorem closed (h : m.Plain) : Text.Closed ';' (' ' :: m.text) := by
  have hname : Text.Closed ';' (' ' :: m.name) :=
    .of_not_mem (by simp [h.name.semicolon]) (by simp [h.name.quote])
  unfold text
  split
  · exact hname
  · rename_i body hbody
    have hquote : Text.Closed ';' (['='] ++ Text.quote body) :=
      .append (.of_not_mem (by decide) (by decide)) (.quote (by decide) (h.body body hbody))
    exact hname.append hquote

theorem trim (h : m.Plain) : Text.trim (' ' :: m.text) = m.text := by
  rw [Text.trim_cons (by decide)]
  unfold text
  split
  · exact h.name.trimmed
  · rename_i body hbody
    rw [Text.trim_append_cons (by decide), Text.trimStart_of_trim h.name.trimmed,
      Text.trimEnd_of_trim (Text.trim_quote body)]

theorem readPair_text (h : m.Plain) (hbody : m.body = some body) :
    Element.readPair m.text = (m.name, Text.quote body) := by
  have hcut : (m.name ++ '=' :: Text.quote body).cut? (· = '=') = some (m.name, Text.quote body) :=
    Text.cut?_append_cons (fun d hd => decide_eq_false fun heq => h.name.unequal (heq ▸ hd)) (by decide)
  unfold text Element.readPair
  rw [hbody]
  simp only [hcut, h.name.trimmed, Text.trim_quote]

end Mention.Plain

namespace Strict

def portList (ports : List Nat) : Text := Text.join "," (ports.map Text.ofNat)

def mentionedPorts (ports : Option (List Nat)) : Option Text :=
  match ports.getD [] with
  | [] => none
  | ports => some (portList ports)

def mentions (c : Cookie) : List Mention :=
  ⟨c.name, some c.value⟩ ::
    ((if c.pathGiven then [⟨"$Path", some c.path⟩] else []) ++
      (if c.domainGiven then [⟨"$Domain", some c.domain⟩] else []) ++
        if c.portGiven then [⟨"$Port", mentionedPorts c.ports⟩] else [])

/-- Cookies that a header can show as they are. A port has 16 bits. -/
structure Writable (c : Cookie) : Prop where
  name : IsPlainName c.name
  value : Text.IsBody c.value
  path : Text.IsBody c.path
  domain : Text.IsBody c.domain
  ports : ∀ port ∈ c.ports.getD [], port ≤ Text.Width.port.greatest

/-- Cookies in the order in which they are written: those with longer paths first, and those with paths
of one length as they were. -/
structure Ordered (cookies ordered : List Cookie) : Prop where
  perm : ordered.Perm cookies
  longerFirst : ordered.Pairwise fun c d => pathSize d ≤ pathSize c
  stable : ∀ size, ordered.filter (pathSize · = size) = cookies.filter (pathSize · = size)

section
variable {c : Cookie} {cookies : List Cookie} {m : Mention} {body : Text} {ports : List Nat}

theorem ordered_mergeSort (cookies : List Cookie) :
    Ordered cookies (cookies.mergeSort fun c d => pathSize d ≤ pathSize c) := by
  have htrans : ∀ a b c : Cookie, decide (pathSize b ≤ pathSize a) = true →
      decide (pathSize c ≤ pathSize b) = true → decide (pathSize c ≤ pathSize a) = true :=
    fun a b c hab hbc => decide_eq_true ((of_decide_eq_true hbc).trans (of_decide_eq_true hab))
  have htotal : ∀ a b : Cookie,
      (decide (pathSize b ≤ pathSize a) || decide (pathSize a ≤ pathSize b)) = true := by
    intro a b
    simpa using Nat.le_total (pathSize b) (pathSize a)
  have hperm := List.mergeSort_perm cookies fun c d => decide (pathSize d ≤ pathSize c)
  refine ⟨hperm, (List.pairwise_mergeSort htrans htotal cookies).imp of_decide_eq_true, fun size => ?_⟩
  -- cookies of one size are in order already, so sorting keeps them as they are
  have hsorted : (cookies.filter (pathSize · = size)).Pairwise
      fun c d => decide (pathSize d ≤ pathSize c) = true := by
    refine List.pairwise_of_forall_mem_list fun c hc d hd => decide_eq_true ?_
    rw [of_decide_eq_true (List.mem_filter.mp hc).2, of_decide_eq_true (List.mem_filter.mp hd).2]
  have hsub := (List.sublist_mergeSort htrans htotal hsorted List.filter_sublist).filter
    (pathSize · = size)
  rw [List.filter_filter] at hsub
  simp only [Bool.and_self] at hsub
  exact (hsub.eq_of_length (hperm.filter _).length_eq.symm).symm

theorem portPart_eq (ports : Option (List Nat)) :
    portPart ports = ' ' :: (⟨"$Port", mentionedPorts ports⟩ : Mention).text := by
  unfold portPart mentionedPorts
  cases ports.getD [] with
  | nil => rfl
  | cons port rest =>
    have hlead : (" $Port=\"" : Text) = ' ' :: ("$Port" ++ ['=', '"']) := by decide
    have hend : ("\"" : Text) = ['"'] := by decide
    simp only [hlead, hend, Mention.text, Text.quote, portList, List.append_assoc, List.cons_append,
      List.nil_append]

theorem given_eq (c : Cookie) : given c = (mentions c).tail.map fun m => ' ' :: m.text := by
  have hpath : (" $Path=\"" : Text) = ' ' :: ("$Path" ++ ['=', '"']) := by decide
  have hdomain : (" $Domain=\"" : Text) = ' ' :: ("$Domain" ++ ['=', '"']) := by decide
  have hend : ("\"" : Text) = ['"'] := by decide
  have hone (b : Bool) {t : Text} {m : Mention} (h : t = ' ' :: m.text) :
      (if b then [t] else []) = (if b then [m] else []).map fun m => ' ' :: m.text := by
    cases b with
    | false => rfl
    | true => exact congrArg (fun t => [t]) h
  have hquoted (lead name body : Text) (h : lead = ' ' :: (name ++ ['=', '"'])) :
      lead ++ body ++ ['"'] = ' ' :: (⟨name, some body⟩ : Mention).text := by
    simp [h, Mention.text, Text.quote]
  unfold given
  rw [hend, hone _ (hquoted _ _ _ hpath), hone _ (hquoted _ _ _ hdomain), hone _ (portPart_eq c.ports),
    ← List.map_append, ← List.map_append]
  rfl

theorem text_partsOf (c : Cookie) :
    (partsOf c).map (·.text) = (mentions c).map fun m => ' ' :: m.text := by
  have hgiven : ((given c).map HeaderPart.own).map (·.text) = given c := by
    simp [HeaderPart.own, Function.comp_def]
  rw [partsOf, List.map_cons, hgiven, given_eq]
  rfl

theorem not_mem_portList {d : Char} (hd : d.isDigit = false) (hcomma : d ≠ ',') : d ∉ portList ports := by
  refine Text.not_mem_join (by simpa using hcomma) fun piece hpiece => ?_
  obtain ⟨n, -, rfl⟩ := List.mem_map.mp hpiece
  exact Text.not_mem_ofNat hd

theorem isBody_portList (ports : List Nat) : Text.IsBody (portList ports) :=
  .of_not_mem (not_mem_portList (by decide) (by decide)) (not_mem_portList (by decide) (by decide))

theorem mentionedPorts_eq_some_iff {given : Option (List Nat)} :
    mentionedPorts given = some body ↔ given.getD [] ≠ [] ∧ portList (given.getD []) = body := by
  unfold mentionedPorts
  cases given.getD [] <;> simp

theorem eq_of_mem_mentions (hm : m ∈ mentions c) :
    m = ⟨c.name, some c.value⟩ ∨ (c.pathGiven = true ∧ m = ⟨"$Path", some c.path⟩) ∨
      (c.domainGiven = true ∧ m = ⟨"$Domain", some c.domain⟩) ∨ m = ⟨"$Port", mentionedPorts c.ports⟩ := by
  have hif {b : Bool} {m' : Mention} (hm : m ∈ if b then [m'] else []) : b = true ∧ m = m' := by
    cases b with
    | false => cases hm
    | true => exact ⟨rfl, List.mem_singleton.mp hm⟩
  rcases List.mem_cons.mp hm with hm | hm
  · exact .inl hm
  rcases List.mem_append.mp hm with hm | hm
  · rcases List.mem_append.mp hm with hm | hm
    · exact .inr (.inl (hif hm))
    · exact .inr (.inr (.inl (hif hm)))
  · exact .inr (.inr (.inr (hif hm).2))

theorem Writable.plain (h : Writable c) (hm : m ∈ mentions c) : m.Plain := by
  have hpath : IsPlainName "$Path" := ⟨⟨by decide, by decide, by decide⟩, by decide, by decide⟩
  have hdomain : IsPlainName "$Domain" := ⟨⟨by decide, by decide, by decide⟩, by decide, by decide⟩
  have hport : IsPlainName "$Port" := ⟨⟨by decide, by decide, by decide⟩, by decide, by decide⟩
  rcases eq_of_mem_mentions hm with rfl | ⟨-, rfl⟩ | ⟨-, rfl⟩ | rfl
  · exact ⟨h.name, fun body hbody => Option.some.inj hbody ▸ h.value⟩
  · exact ⟨hpath, fun body hbody => Option.some.inj hbody ▸ h.path⟩
  · exact ⟨hdomain, fun body hbody => Option.some.inj hbody ▸ h.domain⟩
  · refine ⟨hport, fun body hbody => ?_⟩
    obtain ⟨-, rfl⟩ := mentionedPorts_eq_some_iff.mp hbody
    exact isBody_portList _

theorem readPorts_portList (hne : ports ≠ []) (h : ∀ port ∈ ports, port ≤ Text.Width.port.greatest) :
    readPorts (Text.quote (portList ports)) = .ok ports := by
  have hpieces : (portList ports).pieces ',' = ports.map Text.ofNat := by
    refine Text.pieces_join (by simpa using hne) fun piece hpiece => ?_
    obtain ⟨port, -, rfl⟩ := List.mem_map.mp hpiece
    exact Text.not_mem_ofNat (by decide)
  have hunquote : (Text.quote (portList ports)).unquote = portList ports := Text.unquote_quoted _
  unfold readPorts
  rw [hunquote, hpieces, mapM_eq_ok_iff, List.forall₂_map_left_iff, List.forall₂_same]
  intro port hport
  rw [Text.trim_ofNat, Text.Width.readNat?_ofNat (h port hport)]
  rfl

-- ---------------------------------------------------------------------------
-- Headers
-- ---------------------------------------------------------------------------

theorem text_parts (cookies : List Cookie) :
    (parts cookies).map (·.text) = ("$Version=" ++ Text.ofNat ((leastVersion? cookies).getD 0)) ::
      ((cookies.mergeSort fun c d => pathSize d ≤ pathSize c).flatMap mentions).map
        fun m => ' ' :: m.text := by
  rw [parts, List.map_cons, List.map_flatMap, List.map_flatMap]
  exact congrArg _ (List.flatMap_congr fun c _ => text_partsOf c)

theorem closed_version (version : Nat) : Text.Closed ';' ("$Version=" ++ Text.ofNat version) :=
  .append (.of_not_mem (by decide) (by decide))
    (.of_not_mem (Text.not_mem_ofNat rfl) (Text.not_mem_ofNat rfl))

theorem trim_version (version : Nat) :
    Text.trim ("$Version=" ++ Text.ofNat version) = "$Version=" ++ Text.ofNat version := by
  refine Text.trim_eq_self (fun c hc => ?_) fun c hc => ?_
  · obtain rfl := Option.some.inj hc
    decide
  · rw [List.getLast?_append_of_ne_nil _ (Text.ofNat_ne_nil version)] at hc
    exact Text.isBlank_of_isDigit (Text.isDigit_of_mem_ofNat (List.mem_of_getLast? hc))

theorem splitUnquoted_format (h : ∀ c ∈ cookies, Writable c) :
    ((format cookies).splitUnquoted ';').map Text.trim =
      ("$Version=" ++ Text.ofNat ((leastVersion? cookies).getD 0)) ::
        ((cookies.mergeSort fun c d => pathSize d ≤ pathSize c).flatMap mentions).map Mention.text := by
  generalize hordered : (cookies.mergeSort fun c d => pathSize d ≤ pathSize c) = ordered
  have hplain : ∀ m ∈ ordered.flatMap mentions, m.Plain := by
    intro m hm
    obtain ⟨c, hc, hm⟩ := List.mem_flatMap.mp hm
    exact (h c ((hordered ▸ List.mergeSort_perm cookies _ : ordered.Perm cookies).mem_iff.mp hc)).plain hm
  have hclosed : Text.Parted ';' ((parts cookies).map (·.text)) := by
    refine Text.parted_of_closed (by simp [parts]) fun piece hpiece => ?_
    rw [text_parts, hordered] at hpiece
    rcases List.mem_cons.mp hpiece with rfl | hpiece
    · exact closed_version _
    · obtain ⟨m, hm, rfl⟩ := List.mem_map.mp hpiece
      exact (hplain m hm).closed
  rw [format_eq, (Text.splitUnquoted_join_iff _ _).mpr hclosed, text_parts, hordered, List.map_cons,
    List.map_map]
  exact congrArg₂ List.cons (trim_version _) (List.map_congr_left fun m hm => (hplain m hm).trim)

/-- A header that the strict rules write falls into the least version and into what it mentions of each
cookie, those with longer paths first; everything in quotes is what the cookie has, and its ports are
read back. -/
theorem header_roundtrip {bytes : Bytes} (h : ∀ c ∈ cookies, Writable c)
    (hb : Policy.strict.format cookies = some bytes) :
    ∃ text version ordered, Utf8.decode? bytes = some text ∧
      (version ∈ cookies.map (·.version) ∧ ∀ c ∈ cookies, version ≤ c.version) ∧
        Ordered cookies ordered ∧
          (text.splitUnquoted ';').map Text.trim =
            ("$Version=" ++ Text.ofNat version) :: (ordered.flatMap mentions).map Mention.text ∧
              (∀ m ∈ ordered.flatMap mentions, ∀ body, m.body = some body →
                Element.readPair m.text = (m.name, Text.quote body) ∧
                  (Text.quote body).unquote = body) ∧
                ∀ c ∈ cookies, ∀ list, mentionedPorts c.ports = some list →
                  readPorts (Text.quote list) = .ok (c.ports.getD []) := by
  have hne : cookies ≠ [] := by
    rintro rfl
    cases hb
  have hbytes : HeaderValue.ofText? (format cookies) = some bytes := by
    unfold Policy.format at hb
    rwa [if_neg hne] at hb
  obtain ⟨version, hversion⟩ : ∃ version, leastVersion? cookies = some version :=
    Option.ne_none_iff_exists'.mp (by simpa [leastVersion?] using hne)
  have hordered := ordered_mergeSort cookies
  refine ⟨format cookies, version, _, ?_, ?_, hordered, ?_, fun m hm body hbody => ?_,
    fun c hc list hlist => ?_⟩
  · rw [(HeaderValue.ofText?_eq_some_iff.mp hbytes).2]
    exact Utf8.decode?_encode _
  · obtain ⟨hmem, hle⟩ := List.min?_eq_some_iff.mp hversion
    exact ⟨hmem, fun c hc => hle _ (List.mem_map_of_mem hc)⟩
  · rw [splitUnquoted_format h, hversion]
    rfl
  · obtain ⟨c, hc, hm⟩ := List.mem_flatMap.mp hm
    have hplain := (h c (hordered.perm.mem_iff.mp hc)).plain hm
    exact ⟨hplain.readPair_text hbody, Text.unquote_quoted body⟩
  · obtain ⟨hports, rfl⟩ := mentionedPorts_eq_some_iff.mp hlist
    exact readPorts_portList hports (h c hc).ports

end

def writableCookies : List Cookie :=
  [{ name := "a", value := "x\\\";y", version := 2, pathGiven := true },
    { name := "b", value := "2", domain := ".a.example", path := "/docs", version := 1,
      ports := some [80, 8080], domainGiven := true, pathGiven := true, portGiven := true },
    { name := "c", value := [], version := 1, ports := some [], portGiven := true }]

def writtenCookies : Text :=
  "$Version=1; b=\"2\"; $Path=\"/docs\"; $Domain=\".a.example\"; $Port=\"80,8080\"; a=\"x\\\";y\"; $Path=\"/\"; c=\"\"; $Port"

theorem writable_of_mem_writableCookies {c : Cookie} (hc : c ∈ writableCookies) : Writable c := by
  have hbody {t : Text} (hquote : '"' ∉ t) (hbackslash : '\\' ∉ t) : Text.IsBody t :=
    .of_not_mem hquote hbackslash
  have hvalue : Text.IsBody "x\\\";y" :=
    .plain (by decide) (by decide) (.escaped (hbody (by decide) (by decide)))
  have hname : ∀ name ∈ (["a", "b", "c"] : List Text), IsPlainName name := by
    intro name h
    simp only [List.mem_cons, List.not_mem_nil, or_false] at h
    obtain rfl | rfl | rfl := h <;> exact ⟨⟨by decide, by decide, by decide⟩, by decide, by decide⟩
  simp only [writableCookies, List.mem_cons, List.not_mem_nil, or_false] at hc
  obtain rfl | rfl | rfl := hc
  · exact ⟨hname _ (by decide), hvalue, hbody (by decide) (by decide), .nil, by decide⟩
  · exact ⟨hname _ (by decide), hbody (by decide) (by decide), hbody (by decide) (by decide),
      hbody (by decide) (by decide), by decide⟩
  · exact ⟨hname _ (by decide), .nil, hbody (by decide) (by decide), .nil, by decide⟩

theorem header_roundtrip_writable :
    ∃ ordered, Ordered writableCookies ordered ∧
      (writtenCookies.splitUnquoted ';').map Text.trim =
        ("$Version=1" : Text) :: (ordered.flatMap mentions).map Mention.text := by
  have hsorted : writableCookies.mergeSort (fun c d => pathSize d ≤ pathSize c) =
      [writableCookies[1], writableCookies[0], writableCookies[2]] := by
    cbv
  have htext : format writableCookies = writtenCookies := by
    unfold format
    rw [hsorted]
    decide +kernel
  have hbytes : Policy.strict.format writableCookies = some (Utf8.encode writtenCookies) := by
    show HeaderValue.ofText? (format writableCookies) = _
    rw [htext]
    decide +kernel
  obtain ⟨text, version, ordered, htext, ⟨hmem, hleast⟩, hordered, hsplit, -⟩ :=
    header_roundtrip (fun c => writable_of_mem_writableCookies) hbytes
  obtain rfl := Option.some.inj ((Utf8.decode?_encode _).symm.trans htext)
  have hversion : version = 1 := by
    have hone : version ≤ 1 := hleast _ (List.mem_cons_of_mem _ List.mem_cons_self)
    have hlisted : version ∈ [2, 1, 1] := hmem
    simp only [List.mem_cons, List.not_mem_nil, or_false] at hlisted
    omega
  rw [hversion] at hsplit
  exact ⟨ordered, hordered, hsplit⟩

end Strict

end HttpSession.Cookie
