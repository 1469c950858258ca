import HttpSession.Proofs.ExceptLaws
import HttpSession.Proofs.Text.IntegerLaws
import HttpSession.Settings.Reading

/-!
# Settings as they are written

Settings can be written in many ways: line by line in any order, with blanks and comments where one
likes, and with values that a later line takes back. All of them are read as the same settings, as long as
no text holds a double quote.

Main statement: a file in which settings in bounds are written is read as exactly them, and what is read
is in bounds always (`reads_as_written`).
-/

namespace HttpSession.Settings

-- ---------------------------------------------------------------------------
-- Keys and values
-- ---------------------------------------------------------------------------

inductive Value
  | text (t : Text)
  | number (n : Nat)
  | boolean (b : Bool)

namespace Setting

def key : Setting → Key
  | .cookiePolicy _ => .cookiePolicy
  | .maxRedirects _ => .maxRedirects
  | .followsRedirects _ => .followsRedirects
  | .proxy _ => .proxy
  | .cookieFile _ => .cookieFile
  | .connectTimeout _ => .connectTimeout
  | .requestTimeout _ => .requestTimeout
  | .userAgent _ => .userAgent

def value : Setting → Value
  | .cookiePolicy t | .proxy t | .cookieFile t | .userAgent t => .text t
  | .maxRedirects n | .connectTimeout n | .requestTimeout n => .number n
  | .followsRedirects b => .boolean b

/-- Whether a value can be written: text has no double quote, and numbers have the bits for them. -/
def Legible : Setting → Prop
  | .cookiePolicy t | .proxy t | .cookieFile t | .userAgent t => '"' ∉ t
  | .maxRedirects n => n ≤ Text.Width.word.greatest
  | .connectTimeout n | .requestTimeout n => n ≤ Text.Width.double.greatest
  | .followsRedirects _ => True

end Setting

def assigned? (s : Settings) : Key → Option Setting
  | .cookiePolicy => s.cookiePolicy.map .cookiePolicy
  | .maxRedirects => s.maxRedirects.map .maxRedirects
  | .followsRedirects => s.followsRedirects.map .followsRedirects
  | .proxy => s.proxy.map .proxy
  | .cookieFile => s.cookieFile.map .cookieFile
  | .connectTimeout => s.connectTimeout.map .connectTimeout
  | .requestTimeout => s.requestTimeout.map .requestTimeout
  | .userAgent => s.userAgent.map .userAgent

def texts (s : Settings) : List Text := [s.cookiePolicy, s.proxy, s.cookieFile, s.userAgent].reduceOption

section
variable {s s' : Settings} {k : Key} {setting : Setting}

theorem ext_assigned? (h : ∀ k, s.assigned? k = s'.assigned? k) : s = s' := by
  cases s
  cases s'
  rw [Settings.mk.injEq]
  refine ⟨?_, ?_, ?_, ?_, ?_, ?_, ?_, ?_⟩
  · exact Option.map_injective (fun _ _ => Setting.cookiePolicy.inj) (h .cookiePolicy)
  · exact Option.map_injective (fun _ _ => Setting.maxRedirects.inj) (h .maxRedirects)
  · exact Option.map_injective (fun _ _ => Setting.followsRedirects.inj) (h .followsRedirects)
  · exact Option.map_injective (fun _ _ => Setting.proxy.inj) (h .proxy)
  · exact Option.map_injective (fun _ _ => Setting.cookieFile.inj) (h .cookieFile)
  · exact Option.map_injective (fun _ _ => Setting.connectTimeout.inj) (h .connectTimeout)
  · exact Option.map_injective (fun _ _ => Setting.requestTimeout.inj) (h .requestTimeout)
  · exact Option.map_injective (fun _ _ => Setting.userAgent.inj) (h .userAgent)

theorem key_of_assigned? (h : s.assigned? k = some setting) : setting.key = k := by
  cases k <;> obtain ⟨_, -, rfl⟩ := Option.map_eq_some_iff.mp h <;> rfl

theorem assigned?_apply (s : Settings) (setting : Setting) (k : Key) :
    (s.apply setting).assigned? k = if setting.key = k then some setting else s.assigned? k := by
  cases setting <;> cases k <;> rfl

end

-- ---------------------------------------------------------------------------
-- Lines and files
-- ---------------------------------------------------------------------------

def Value.Spelled (literal : Text) : Value → Prop
  | .text t => literal = '"' :: (t ++ ['"'])
  | .number n => literal ≠ [] ∧ (∀ c ∈ literal, c.isDigit = true) ∧ Nat.ofDigitChars 10 literal 0 = n
  | .boolean b => literal = if b then "true" else "false"

instance instDecidableSpelled (literal : Text) : (value : Value) → Decidable (value.Spelled literal)
  | .text _ => inferInstanceAs (Decidable (_ = _))
  | .number _ =>
    have : Decidable (∀ c ∈ literal, c.isDigit = true) := List.decidableBAll _ literal
    inferInstanceAs (Decidable (_ ∧ (∀ c ∈ literal, c.isDigit = true) ∧ _))
  | .boolean _ => inferInstanceAs (Decidable (_ = _))

def Blank (t : Text) : Prop := ∀ c ∈ t, Text.isBlank c = true

instance instDecidableBlank (t : Text) : Decidable (Blank t) := List.decidableBAll _ t

inductive Remark : Text → Prop
  | nil : Remark []
  | comment (t : Text) : Remark ('#' :: t)

inductive Assigns (setting : Setting) : Text → Prop
  | line {lead before behind literal tail remark : Text} :
      Blank lead → Blank before → Blank behind → setting.value.Spelled literal → Blank tail →
        Remark remark →
          Assigns setting
            (lead ++ (setting.key.text ++ before) ++ '=' :: (behind ++ (literal ++ tail)) ++ remark)

/-- Lines that say which settings hold, and in which order they are assigned. What was assigned before is
any line that can be read as a value for a key that is assigned again. -/
inductive Says : List Text → List Setting → Prop
  | nil : Says [] []
  | remark {blank remark : Text} {lines : List Text} {settings : List Setting} :
      Blank blank → Remark remark → Says lines settings → Says ((blank ++ remark) :: lines) settings
  | assignment {setting : Setting} {line : Text} {lines : List Text} {settings : List Setting} :
      Assigns setting line → setting.key ∉ settings.map Setting.key → Says lines settings →
        Says (line :: lines) (setting :: settings)
  | earlier {setting : Setting} {line : Text} {lines : List Text} {settings : List Setting} :
      (∀ number, readLine number line = .ok (some setting)) → setting.key ∈ settings.map Setting.key →
        Says lines settings → Says (line :: lines) settings

def WrittenIn (s : Settings) (file : Text) : Prop :=
  ∃ settings, Says file.lines settings ∧
    ∀ setting, setting ∈ settings ↔ s.assigned? setting.key = some setting

-- ---------------------------------------------------------------------------
-- Literals
-- ---------------------------------------------------------------------------

section
variable {n : Nat} {b inside : Bool} {t u v lead before behind literal tail remark line : Text}
  {value : Value} {setting : Setting}

theorem uncommented_append (hquote : '"' ∉ t) (hmark : inside = true ∨ '#' ∉ t) (u : Text) :
    uncommented inside (t ++ u) = t ++ uncommented inside u := by
  induction t with
  | nil => rfl
  | cons c rest ih =>
    simp only [List.mem_cons, not_or] at hquote hmark
    have hplain : ¬ (c = '#' ∧ ¬ inside = true) := by
      rintro ⟨rfl, hinside⟩
      exact hmark.elim hinside fun hmark => hmark.1 rfl
    rw [List.cons_append, uncommented, if_neg hplain, if_neg (Ne.symm hquote.1),
      ih hquote.2 (hmark.imp_right And.right)]
    rfl

theorem uncommented_quoted (h : '"' ∉ t) (u : Text) :
    uncommented false ('"' :: (t ++ '"' :: u)) = '"' :: (t ++ '"' :: uncommented false u) := by
  have hopen : uncommented false ('"' :: (t ++ '"' :: u)) = '"' :: uncommented true (t ++ '"' :: u) := rfl
  have hclose : uncommented true ('"' :: u) = '"' :: uncommented false u := rfl
  rw [hopen, uncommented_append h (.inl rfl), hclose]

theorem not_mem_of_blank {c : Char} (h : Blank t) (hc : Text.isBlank c = false) : c ∉ t :=
  fun hmem => Bool.false_ne_true (hc.symm.trans (h c hmem))

theorem uncommented_blank (h : Blank t) (u : Text) : uncommented false (t ++ u) = t ++ uncommented false u :=
  uncommented_append (not_mem_of_blank h rfl) (.inr (not_mem_of_blank h rfl)) u

theorem uncommented_remark (h : Remark remark) : uncommented false remark = [] := by
  cases h <;> rfl

/-- A literal stays as it is, with whatever would begin a comment elsewhere. -/
theorem uncommented_literal (h : value.Spelled literal) (hquote : ∀ t, value = .text t → '"' ∉ t)
    (u : Text) : uncommented false (literal ++ u) = literal ++ uncommented false u := by
  cases value with
  | text t =>
    obtain rfl := h
    simpa using uncommented_quoted (hquote t rfl) u
  | number n =>
    obtain ⟨-, hdigits, -⟩ := h
    exact uncommented_append (Text.not_mem_of_isDigit hdigits rfl)
      (.inr (Text.not_mem_of_isDigit hdigits rfl)) u
  | boolean b =>
    obtain rfl := h
    cases b <;> exact uncommented_append (by decide) (by decide) u

theorem trim_literal (h : value.Spelled literal) : literal.trim = literal := by
  cases value with
  | text t =>
    obtain rfl := h
    refine Text.trim_eq_self (fun c hc => ?_) fun c hc => ?_
    · obtain rfl := Option.some.inj hc
      rfl
    · rw [← List.cons_append, List.getLast?_concat] at hc
      obtain rfl := Option.some.inj hc
      rfl
  | number n =>
    exact Text.trim_of_isDigit h.2.1
  | boolean b =>
    obtain rfl := h
    cases b <;> rfl

theorem readText_spelled (h : (Value.text t).Spelled literal) : readText literal = .ok t := by
  have hquoted := Text.quoted?_eq_some_iff.mpr h
  unfold readText
  rw [hquoted]

theorem readNumber_spelled (h : (Value.number n).Spelled literal) (hn : n ≤ Text.Width.double.greatest) :
    readNumber literal = .ok n := by
  obtain ⟨hne, hdigits, rfl⟩ := h
  have hwide : Text.Width.double.greatest ≤ Text.Width.signedQuadruple.greatest := by decide +kernel
  have hread := Text.Width.read_of_isDigit hne hdigits (hn.trans hwide)
  unfold readNumber
  rw [if_neg hne, hread]
  simp [hn]

theorem readBoolean_spelled (h : (Value.boolean b).Spelled literal) : readBoolean literal = .ok b := by
  obtain rfl := h
  cases b <;> rfl

theorem readSetting_spelled (h : setting.value.Spelled literal) (hlegible : setting.Legible)
    (line : Nat) : readSetting line setting.key literal = .ok setting := by
  cases setting with
  | maxRedirects n =>
    have hn : n ≤ Text.Width.double.greatest :=
      le_trans (show n ≤ Text.Width.word.greatest from hlegible) (by decide +kernel)
    simp only [readSetting, Setting.key, readNumber_spelled h hn]
    exact if_pos hlegible
  | followsRedirects b => simp only [readSetting, Setting.key, readBoolean_spelled h]; rfl
  | connectTimeout n => simp only [readSetting, Setting.key, readNumber_spelled h hlegible]; rfl
  | requestTimeout n => simp only [readSetting, Setting.key, readNumber_spelled h hlegible]; rfl
  | cookiePolicy t => simp only [readSetting, Setting.key, readText_spelled h]; rfl
  | proxy t => simp only [readSetting, Setting.key, readText_spelled h]; rfl
  | cookieFile t => simp only [readSetting, Setting.key, readText_spelled h]; rfl
  | userAgent t => simp only [readSetting, Setting.key, readText_spelled h]; rfl

-- ---------------------------------------------------------------------------
-- Reading lines
-- ---------------------------------------------------------------------------

theorem Key.not_mem_text (k : Key) : '"' ∉ k.text ∧ '#' ∉ k.text ∧ '=' ∉ k.text := by
  cases k <;> decide

theorem Key.trim_text (k : Key) : k.text.trim = k.text := by cases k <;> rfl

theorem Key.ofText?_text (k : Key) : ofText? k.text = some k := by cases k <;> rfl

theorem trim_between (hu : Blank u) (hv : Blank v) (t : Text) : Text.trim (u ++ (t ++ v)) = t.trim := by
  rw [Text.trim_append_left hu, Text.trim_append_right hv]

theorem trim_blank (h : Blank t) : t.trim = [] := Text.trim_append_right h []

theorem readLine_remark (hblank : Blank t) (h : Remark remark) (number : Nat) :
    readLine number (t ++ remark) = .ok none := by
  unfold readLine
  rw [uncommented_blank hblank, uncommented_remark h, List.append_nil, trim_blank hblank]
  rfl

theorem Setting.Legible.not_mem (h : setting.Legible) (ht : setting.value = .text t) : '"' ∉ t := by
  cases setting <;> cases ht <;> exact h

theorem uncommented_assigns (h : setting.value.Spelled literal) (hlegible : setting.Legible)
    (hlead : Blank lead) (hbefore : Blank before) (hbehind : Blank behind) (htail : Blank tail)
    (hremark : Remark remark) :
    uncommented false
        (lead ++ (setting.key.text ++ before) ++ '=' :: (behind ++ (literal ++ tail)) ++ remark) =
      lead ++ (setting.key.text ++ before) ++ '=' :: (behind ++ (literal ++ tail)) := by
  obtain ⟨hquote, hmark, -⟩ := setting.key.not_mem_text
  have hequals (u : Text) : uncommented false ('=' :: u) = '=' :: uncommented false u := rfl
  simp only [List.append_assoc, List.cons_append]
  rw [uncommented_blank hlead, uncommented_append hquote (.inr hmark), uncommented_blank hbefore, hequals,
    uncommented_blank hbehind, uncommented_literal h fun _ => hlegible.not_mem, uncommented_blank htail,
    uncommented_remark hremark, List.append_nil]

theorem readLine_assigns (h : Assigns setting line) (hlegible : setting.Legible) (number : Nat) :
    readLine number line = .ok (some setting) := by
  cases h with
  | @line lead before behind literal tail remark hlead hbefore hbehind hspelled htail hremark =>
    obtain ⟨-, -, hequals⟩ := setting.key.not_mem_text
    have hfirst : ∀ c ∈ (lead ++ (setting.key.text ++ before)).trimStart, decide (c = '=') = false := by
      intro c hc
      have hmem := (List.dropWhile_sublist _).subset hc
      rw [List.mem_append, List.mem_append] at hmem
      refine decide_eq_false ?_
      rintro rfl
      obtain hmem | hmem | hmem := hmem
      · exact not_mem_of_blank hlead rfl hmem
      · exact hequals hmem
      · exact not_mem_of_blank hbefore rfl hmem
    have hne : (lead ++ (setting.key.text ++ before)).trimStart ++
        '=' :: (behind ++ (literal ++ tail)).trimEnd ≠ [] := List.append_ne_nil_of_right_ne_nil _ nofun
    unfold readLine
    rw [uncommented_assigns hspelled hlegible hlead hbefore hbehind htail hremark,
      Text.trim_append_cons rfl]
    simp only [if_neg hne, Text.cut?_append_cons hfirst (decide_eq_true rfl), Text.trimStart_trim,
      Text.trimEnd_trim, trim_between hlead hbefore, trim_between hbehind htail, Key.trim_text,
      Key.ofText?_text, trim_literal hspelled, readSetting_spelled hspelled hlegible]
    rfl

-- ---------------------------------------------------------------------------
-- Reading files
-- ---------------------------------------------------------------------------

/-- The last line for a key decides. -/
theorem readLines_says {lines : List Text} {settings : List Setting} (h : Says lines settings)
    (hlegible : ∀ setting ∈ settings, setting.Legible) (number : Nat) :
    ∃ read, readLines number lines = .ok read ∧ ∀ (s : Settings) (k : Key),
      (read.foldl apply s).assigned? k = (settings.find? (·.key = k)).or (s.assigned? k) := by
  -- over whatever was set before the lines that are left, since each line adds to that
  induction h generalizing number with
  | nil => exact ⟨[], rfl, fun _ _ => rfl⟩
  | @remark blank remark lines settings hblank hremark hrest ih =>
    obtain ⟨read, hread, hlast⟩ := ih hlegible (number + 1)
    refine ⟨read, ?_, hlast⟩
    rw [readLines, readLine_remark hblank hremark, hread]
    rfl
  | @assignment setting line lines settings hline hkey hrest ih =>
    rw [List.forall_mem_cons] at hlegible
    obtain ⟨read, hread, hlast⟩ := ih hlegible.2 (number + 1)
    refine ⟨setting :: read, ?_, fun s k => ?_⟩
    · rw [readLines, readLine_assigns hline hlegible.1, hread]
      rfl
    · rw [List.foldl_cons, hlast, assigned?_apply]
      by_cases hk : setting.key = k
      · have hnone : settings.find? (·.key = k) = none := by
          rw [List.find?_eq_none]
          intro other hother heq
          exact hkey (List.mem_map.mpr ⟨other, hother, (of_decide_eq_true heq).trans hk.symm⟩)
        simp [hk, hnone]
      · simp [hk]
  | @earlier setting line lines settings hline hkey hrest ih =>
    obtain ⟨read, hread, hlast⟩ := ih hlegible (number + 1)
    refine ⟨setting :: read, ?_, fun s k => ?_⟩
    · rw [readLines, hline, hread]
      rfl
    · rw [List.foldl_cons, hlast, assigned?_apply]
      -- a later line sets the same key, so this one does not show
      by_cases hk : setting.key = k
      · obtain ⟨other, hother, heq⟩ := List.mem_map.mp hkey
        have hsome : (settings.find? (·.key = k)).isSome :=
          List.find?_isSome.mpr ⟨other, hother, decide_eq_true (heq.trans hk)⟩
        obtain ⟨last, hlast⟩ := Option.isSome_iff_exists.mp hsome
        simp [hlast]
      · simp [hk]

end

section
variable {s : Settings} {k : Key} {setting : Setting} {settings : List Setting}

theorem find?_eq_assigned? (h : ∀ setting, setting ∈ settings ↔ s.assigned? setting.key = some setting)
    (k : Key) : settings.find? (·.key = k) = s.assigned? k := by
  cases hfound : settings.find? (·.key = k) with
  | some setting =>
    have hkey : setting.key = k := by simpa using List.find?_some hfound
    rw [← hkey, (h setting).mp (List.mem_of_find?_eq_some hfound)]
  | none =>
    rw [List.find?_eq_none] at hfound
    refine (Option.eq_none_iff_forall_ne_some.mpr fun setting hset => ?_).symm
    have hkey := key_of_assigned? hset
    exact hfound setting ((h setting).mpr (hkey ▸ hset)) (decide_eq_true hkey)

theorem checkBounds_eq_ok_iff {least greatest : Nat} {value : Option Nat} :
    checkBounds k least greatest value = .ok () ↔ ∀ n, value = some n → least ≤ n ∧ n ≤ greatest := by
  cases value with
  | none => simp [checkBounds]
  | some n =>
    by_cases hn : least ≤ n ∧ n ≤ greatest <;> simp [checkBounds, hn]

/-- What is in bounds has the bits for it. -/
theorem legible_of_check (hcheck : s.check = .ok ()) (htexts : ∀ t ∈ s.texts, '"' ∉ t)
    (h : s.assigned? k = some setting) : setting.Legible := by
  obtain ⟨_, hbound, hcheck⟩ := bind_ok_iff.mp hcheck
  obtain ⟨_, hconnect, hrequest⟩ := bind_ok_iff.mp hcheck
  rw [checkBounds_eq_ok_iff] at hbound hconnect hrequest
  have hword : 1000 ≤ Text.Width.word.greatest := by decide
  have hdouble : 3600 ≤ Text.Width.double.greatest := by decide +kernel
  have htexts (t : Text) (ht : some t ∈ [s.cookiePolicy, s.proxy, s.cookieFile, s.userAgent]) : '"' ∉ t :=
    htexts t (List.reduceOption_mem_iff.mpr ht)
  cases k with
  | maxRedirects =>
    obtain ⟨n, hn, rfl⟩ := Option.map_eq_some_iff.mp h
    exact (hbound n hn).2.trans hword
  | connectTimeout =>
    obtain ⟨n, hn, rfl⟩ := Option.map_eq_some_iff.mp h
    exact (hconnect n hn).2.trans hdouble
  | requestTimeout =>
    obtain ⟨n, hn, rfl⟩ := Option.map_eq_some_iff.mp h
    exact (hrequest n hn).2.trans hdouble
  | followsRedirects =>
    obtain ⟨b, -, rfl⟩ := Option.map_eq_some_iff.mp h
    trivial
  | cookiePolicy | proxy | cookieFile | userAgent =>
    obtain ⟨t, ht, rfl⟩ := Option.map_eq_some_iff.mp h
    exact htexts t (by simp [ht])

theorem read_eq_ok_iff_readLines {file : Text} : read file = .ok s ↔
    ∃ settings, readLines 1 file.lines = .ok settings ∧ settings.foldl apply {} = s ∧ s.check = .ok () := by
  unfold read
  rw [bind_ok_iff]
  refine exists_congr fun settings => and_congr_right fun _ => ?_
  rw [bind_ok_iff]
  constructor
  · rintro ⟨_, hcheck, heq⟩
    obtain rfl := Except.ok.inj heq
    exact ⟨rfl, hcheck⟩
  · rintro ⟨rfl, hcheck⟩
    exact ⟨(), hcheck, rfl⟩

/-- A file that says what is set is read as that, and what is read is in bounds. -/
theorem reads_as_written :
    (∀ (s : Settings) (file : Text), s.check = .ok () → (∀ t ∈ s.texts, '"' ∉ t) → s.WrittenIn file →
        read file = .ok s) ∧
      ∀ (file : Text) (s : Settings), read file = .ok s → s.check = .ok () := by
  constructor
  · rintro s file hcheck htexts ⟨settings, hsays, hall⟩
    have hlegible : ∀ setting ∈ settings, setting.Legible := fun setting hmem =>
      legible_of_check hcheck htexts ((hall setting).mp hmem)
    obtain ⟨assigned, hread, hlast⟩ := readLines_says hsays hlegible 1
    refine read_eq_ok_iff_readLines.mpr ⟨assigned, hread, ?_, hcheck⟩
    refine ext_assigned? fun k => ?_
    rw [hlast, find?_eq_assigned? hall]
    cases k <;> exact Option.or_none
  · intro file s hread
    obtain ⟨_, _, _, hcheck⟩ := read_eq_ok_iff_readLines.mp hread
    exact hcheck

end

def listing : Text :=
  "# settings\n max_redirects = 4000000000\n\nuser_agent\t=\"a # b = c \" # so\n" ++
    "follow_redirects=false\r\nmax_redirects = 007#\n"

def listed : Settings where
  maxRedirects := some 7
  followsRedirects := some false
  userAgent := some "a # b = c "

theorem written_listing : listed.WrittenIn listing := by
  have hlines : listing.lines = [
      [] ++ '#' :: (" settings" : Text),
      [' '] ++ (Key.text .maxRedirects ++ [' ']) ++ '=' :: ([' '] ++ (("4000000000" : Text) ++ [])) ++ [],
      [] ++ [],
      [] ++ (Key.text .userAgent ++ ['\t']) ++ '=' :: ([] ++ (("\"a # b = c \"" : Text) ++ [' '])) ++
        '#' :: (" so" : Text),
      [] ++ (Key.text .followsRedirects ++ []) ++ '=' :: ([] ++ (("false" : Text) ++ [])) ++ [],
      [] ++ (Key.text .maxRedirects ++ [' ']) ++ '=' :: ([' '] ++ (("007" : Text) ++ [])) ++ ['#']] := by
    decide +kernel
  have hbeyond : Assigns (.maxRedirects 4000000000)
      ([' '] ++ (Key.text .maxRedirects ++ [' ']) ++ '=' :: ([' '] ++ (("4000000000" : Text) ++ [])) ++ []) :=
    .line (by decide) (by decide) (by decide) (by decide) (by decide) .nil
  have hlegible : 4000000000 ≤ Text.Width.word.greatest := by decide
  refine ⟨[.userAgent "a # b = c ", .followsRedirects false, .maxRedirects 7], ?_, fun setting => ?_⟩
  · rw [hlines]
    refine .remark nofun (.comment _) (.earlier (readLine_assigns hbeyond hlegible) (by decide) ?_)
    refine .remark nofun .nil (.assignment ?_ (by decide) (.assignment ?_ (by decide)
      (.assignment ?_ (by decide) .nil)))
    · exact .line (by decide) (by decide) (by decide) (by decide) (by decide) (.comment _)
    · exact .line (by decide) (by decide) (by decide) (by decide) (by decide) .nil
    · exact .line (by decide) (by decide) (by decide) (by decide) (by decide) (.comment _)
  · cases setting <;> simp [listed, assigned?, Setting.key, eq_comm]

theorem reads_as_written_listing :
    listed.check = .ok () ∧ listed.WrittenIn listing ∧ read listing = .ok listed :=
  ⟨rfl, written_listing, reads_as_written.1 listed listing rfl (by decide) written_listing⟩

end HttpSession.Settings
