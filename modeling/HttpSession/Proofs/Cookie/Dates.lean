import HttpSession.Cookie.Date
import HttpSession.Proofs.Text.QuotedBodies
import HttpSession.Proofs.Time.DateTexts

/-!
# Dates of cookies

Dates with dashes are written in several styles, of which the reader of HTTP dates knows one
(`Style.readLong?_write`). The others are rewritten first, and what a date with dashes is rewritten to is
the HTTP date of the same second, whatever its style (`Style.undashed?_write`). So no second is read from
its date but the one that was written, and two digits of a year mean the same to both readers
(`readDate?_written`).
-/

namespace HttpSession.Cookie

open HttpDate (Bare Plain clock dayNames longDayNames monthNames weekdayName plain_clock plain_monthName
  plain_padded plain_weekdayName)

/-- How a date with dashes is written: with the whole name of the weekday, without a zero in front of the
day, with the last two digits of the year. -/
structure Style where
  longWeekday : Bool
  shortDay : Bool
  shortYear : Bool
  deriving DecidableEq, Repr

namespace Style

section
variable (style : Style)

def day (n : Nat) : Text := if style.shortDay then Text.ofNat n else Text.padded 2 (Text.ofNat n)

def year (n : Nat) : Text :=
  if style.shortYear then Text.padded 2 (Text.ofNat (n % 100)) else Text.padded 4 (Text.ofNat n)

def dated (m : Moment) : Text :=
  style.day m.date.day ++ "-" ++ monthNames.getD (m.date.month - 1) [] ++ "-" ++ style.year m.date.year ++
    " " ++ clock m ++ " GMT"

def write (m : Moment) (k : Nat) : Text := weekdayName style.longWeekday k ++ ", " ++ style.dated m

def DeterminesYear (year : Nat) : Prop := style.shortYear = true → year ≤ 2069

/-- Whether the reader of HTTP dates knows the style of a date: it has the whole name of the weekday and
two digits for the day and for the year. -/
def HasHttpForm (day : Nat) : Prop :=
  style.longWeekday = true ∧ style.shortYear = true ∧ (style.shortDay = true → 10 ≤ day)

instance (day : Nat) : Decidable (style.HasHttpForm day) :=
  inferInstanceAs (Decidable (_ ∧ _ ∧ (_ → _)))

end

variable {m : Moment} {k n : Nat}

-- ---------------------------------------------------------------------------
-- Words
-- ---------------------------------------------------------------------------

theorem day_eq (style : Style) (n : Nat) :
    style.day n = Text.padded (if style.shortDay then 0 else 2) (Text.ofNat n) := by
  unfold day
  split
  · exact (Text.padded_of_le (Nat.zero_le _)).symm
  · rfl

theorem plain_day (style : Style) (n : Nat) : Plain (style.day n) := by
  rw [day_eq]
  exact plain_padded _ _

theorem plain_year (style : Style) (n : Nat) : Plain (style.year n) := by
  unfold year
  split <;> exact plain_padded _ _

theorem map_of_no_dash {t : Text} (h : '-' ∉ t) : t.map (fun c => if c = '-' then ' ' else c) = t := by
  refine (List.map_congr_left fun c hc => if_neg ?_).trans (List.map_id _)
  rintro rfl
  exact h hc

theorem words_write (style : Style) (hm : m.InRange) (hk : k < 7) :
    Text.words ((style.write m k).map fun c => if c = '-' then ' ' else c) =
      [weekdayName style.longWeekday k ++ ",", style.day m.date.day, monthNames.getD (m.date.month - 1) [],
        style.year m.date.year, clock m, "GMT"] := by
  have hweekday := plain_weekdayName style.longWeekday k hk
  have hday := plain_day style m.date.day
  have hmonth := plain_monthName _ hm.month_lt
  have hyear := plain_year style m.date.year
  have hclock := plain_clock m
  have hplain : ∀ word ∈ [weekdayName style.longWeekday k ++ ",", style.day m.date.day,
      monthNames.getD (m.date.month - 1) [], style.year m.date.year, clock m, "GMT"], Plain word := by
    simp only [List.forall_mem_cons]
    exact ⟨hweekday.append (by decide), hday, hmonth, hyear, hclock, by decide, nofun⟩
  rw [← Text.words_join (List.cons_ne_nil _ _) fun word hword =>
    ⟨(hplain word hword).1, fun c hc => (hplain word hword).isBlank hc⟩]
  congr 1
  simp only [write, dated, List.map_append, map_of_no_dash hweekday.no_dash, map_of_no_dash hday.no_dash,
    map_of_no_dash hmonth.no_dash, map_of_no_dash hyear.no_dash, map_of_no_dash hclock.no_dash,
    Text.join_cons]
  simp

-- ---------------------------------------------------------------------------
-- Dates without their dashes
-- ---------------------------------------------------------------------------

theorem year?_year {style : Style} (hyear : n ≤ 9999) (hdetermines : 1970 ≤ n ∧ style.DeterminesYear n) :
    year? (style.year n) = some n := by
  have hword {n : Nat} (hn : n ≤ 9999) : n ≤ Text.Width.word.greatest := hn.trans (by decide)
  unfold year
  split
  · have hlast := hdetermines.2 ‹_›
    rw [year?, Text.Width.readNat?_padded (hword (by omega)), HttpDate.length_two (by omega)]
    simp only [Option.bind_eq_bind, Option.bind_some, if_true, Option.some.injEq]
    split <;> omega
  · rw [year?, Text.Width.readNat?_padded (hword hyear), Text.length_padded (by decide) (by omega)]
    rfl

theorem readNat?_day (style : Style) (h : n ≤ 31) : Text.Width.word.readNat? (style.day n) = some n := by
  rw [day_eq, Text.Width.readNat?_padded (h.trans (by decide))]

/-- The first three letters of a weekday, however it is written, are its short name. -/
theorem shortened_weekdayName : ∀ long, ∀ k < 7,
    ((weekdayName long k ++ ",").reverse.dropWhile (· = ',')).reverse.take 3 = weekdayName false k ∧
      3 ≤ ((weekdayName long k ++ ",").reverse.dropWhile (· = ',')).reverse.length := by decide

/-- What a date with dashes is rewritten to does not depend on its style. -/
theorem undashed?_write {style : Style} (hm : m.InRange) (hk : k < 7)
    (hdetermines : style.DeterminesYear m.date.year) :
    undashed? (style.write m k) = some (HttpDate.write m k) := by
  have hfour : Text.padded 4 (Text.ofNat m.date.year) = Text.ofNat m.date.year := by
    refine Text.padded_of_le (Nat.lt_of_not_le fun hshort => ?_)
    have hyear := (Text.length_ofNat_le_iff (by decide : 0 < 3)).mp hshort
    exact absurd hm.year.1 (by omega)
  obtain ⟨hname, hlength⟩ := shortened_weekdayName style.longWeekday k hk
  have hyear := year?_year hm.year.2 ⟨hm.year.1, hdetermines⟩
  simp only [undashed?, words_write style hm hk, if_pos hlength, hname, hyear, readNat?_day style hm.day.2,
    Option.bind_eq_bind, Option.bind_some]
  rw [HttpDate.write_eq, hfour]
  simp

-- ---------------------------------------------------------------------------
-- The reader of HTTP dates
-- ---------------------------------------------------------------------------

theorem length_day (style : Style) (hm : m.InRange) : (style.day m.date.day).length =
    if style.shortDay = true ∧ m.date.day < 10 then 1 else 2 := by
  have hday := hm.day
  unfold day
  cases style.shortDay with
  | false => simpa using HttpDate.length_two (show m.date.day < 100 by omega)
  | true =>
    have hone := Text.length_ofNat_le_iff (n := m.date.day) (by decide : 0 < 1)
    have htwo := Text.length_ofNat_le_iff (n := m.date.day) (by decide : 0 < 2)
    have hpos := List.length_pos_of_ne_nil (Text.ofNat_ne_nil m.date.day)
    simp only [if_true, true_and]
    split <;> omega

theorem length_year (style : Style) (hm : m.InRange) :
    (style.year m.date.year).length = if style.shortYear = true then 2 else 4 := by
  have hyear := hm.year
  unfold year
  split <;> exact Text.length_padded (by decide) (by omega)

theorem length_dated (style : Style) (hm : m.InRange) : (style.dated m).length =
    (style.day m.date.day).length + (style.year m.date.year).length + 18 := by
  have hdash : ("-" : Text).length = 1 := rfl
  have hblank : (" " : Text).length = 1 := rfl
  have hzone : (" GMT" : Text).length = 4 := rfl
  simp only [dated, List.length_append, HttpDate.length_monthName _ hm.month_lt, HttpDate.length_clock hm]
  omega

theorem length_write (style : Style) (hm : m.InRange) (k : Nat) : (style.write m k).length =
    (weekdayName style.longWeekday k).length + (style.day m.date.day).length +
      (style.year m.date.year).length + 20 := by
  have hcomma : (", " : Text).length = 2 := rfl
  rw [write, List.length_append, List.length_append, length_dated style hm]
  omega

theorem length_weekdayName : ∀ long, ∀ k < 7,
    if long = true then 6 ≤ (weekdayName long k).length else (weekdayName long k).length = 3 := by decide

theorem field_longName (hk : k < 7) (t : Text) :
    HttpDate.field (weekdayName true k ++ t) 3 2 ≠ ", ".toList := by
  interval_cases k <;> simp [weekdayName, longDayNames, HttpDate.field]

theorem readFixed?_write (style : Style) (hm : m.InRange) (hk : k < 7) :
    HttpDate.readFixed? (style.write m k) = none := by
  have hday := length_day style hm
  have hyear := length_year style hm
  have hlength := length_write style hm k
  have hname := length_weekdayName style.longWeekday k hk
  refine HttpDate.readFixed?_eq_none ?_
  cases hlong : style.longWeekday with
  | true =>
    rw [write, hlong, List.append_assoc]
    exact .inr (.inl (field_longName hk _))
  | false =>
    -- of the length that is asked for, there is a dash in the place of a blank
    rw [hlong] at hname hlength
    rw [if_neg (by decide)] at hname
    by_cases htwo : (style.day m.date.day).length = 2
    · have hlead : (weekdayName false k ++ ", " ++ style.day m.date.day).length = 7 := by
        rw [List.length_append, List.length_append, hname, htwo]
        rfl
      have hwrite : style.write m k = (weekdayName false k ++ ", " ++ style.day m.date.day) ++ '-' ::
          (monthNames.getD (m.date.month - 1) [] ++ "-" ++ style.year m.date.year ++ " " ++ clock m ++
            " GMT") := by
        simp [write, dated, hlong]
      have hdash : HttpDate.field (style.write m k) 7 1 = ['-'] := by
        rw [hwrite, ← hlead]
        exact HttpDate.field_append _ _ 0 1
      rw [hdash]
      exact .inr (.inr (by decide))
    · refine .inl ?_
      split at hday <;> split at hyear <;> omega

/-- Years that two digits tell are those from 1970 to 2069. -/
theorem century (hyear : 1970 ≤ n ∧ n ≤ 2069) :
    (if n % 100 < 70 then 2000 + n % 100 else 1900 + n % 100) = n := by
  split <;> omega

theorem readDashed?_dated {style : Style} (hm : m.InRange) (hdetermines : style.DeterminesYear m.date.year)
    (k : Nat) :
    HttpDate.readDashed? k (style.dated m) =
      if style.shortYear = true ∧ (style.shortDay = true → 10 ≤ m.date.day) then some ⟨m, k⟩ else none := by
  have hday := length_day style hm
  have hyear := length_year style hm
  split
  · rename_i hknown
    obtain ⟨hshort, hzero⟩ := hknown
    have hhour := hm.hour
    have hminute := hm.minute
    have hsecond := hm.second
    rw [if_neg fun h => absurd (hzero h.1) (Nat.not_le.mpr h.2)] at hday
    rw [if_pos hshort] at hyear
    have hdated : style.dated m = style.day m.date.day ++ "-" ++ monthNames.getD (m.date.month - 1) [] ++
        "-" ++ style.year m.date.year ++ " " ++ Text.padded 2 (Text.ofNat m.hour) ++ ":" ++
        Text.padded 2 (Text.ofNat m.minute) ++ ":" ++ Text.padded 2 (Text.ofNat m.second) ++ " GMT" := by
      simp only [dated, clock, List.append_assoc]
    have hnumber : HttpDate.number? (style.year m.date.year) = some (m.date.year % 100) := by
      rw [year, if_pos hshort, HttpDate.number?_padded]
    rw [hdated, HttpDate.readDashed?_parts k hday (HttpDate.length_monthName _ hm.month_lt) hyear
      (HttpDate.length_two (by omega)) (HttpDate.length_two (by omega)) (HttpDate.length_two (by omega))]
    simp only [hnumber, day_eq, HttpDate.number?_padded, HttpDate.nameIn?_monthNames _ hm.month_lt,
      Option.bind_eq_bind, Option.bind_some, century ⟨hm.year.1, hdetermines hshort⟩,
      Nat.sub_add_cancel hm.month.1]
  · refine if_pos (.inl ?_)
    rw [length_dated style hm, hday, hyear]
    split <;> split <;> simp_all

theorem readLong?_write {style : Style} (hm : m.InRange) (hk : k < 7)
    (hdetermines : style.DeterminesYear m.date.year) :
    HttpDate.readLong? (style.write m k) = if style.HasHttpForm m.date.day then some ⟨m, k⟩ else none := by
  have hcut : (style.write m k).cut? (· = ',') =
      some (weekdayName style.longWeekday k, ' ' :: style.dated m) := by
    have hwrite : style.write m k = weekdayName style.longWeekday k ++ ',' :: ' ' :: style.dated m := by
      simp [write]
    rw [hwrite]
    refine Text.cut?_append_cons (fun c hc => decide_eq_false ?_) (by decide)
    rintro rfl
    exact (by decide : ∀ long, ∀ k < 7, ',' ∉ weekdayName long k) _ k hk hc
  have hafter : Text.after? (' ' :: style.dated m) [' '] = some (style.dated m) :=
    Text.after?_eq_some_iff.mpr rfl
  simp only [HttpDate.readLong?, hcut, HttpDate.nameIn?_longDayNames _ k hk, Option.bind_eq_bind,
    Option.bind_some]
  by_cases hlong : style.longWeekday = true
  · simp [hlong, hafter, readDashed?_dated hm hdetermines, HasHttpForm]
  · simp [hlong, HasHttpForm]

theorem readPlain?_write (style : Style) (hm : m.InRange) (hk : k < 7) :
    HttpDate.readPlain? (style.write m k) = none := by
  have hday := length_day style hm
  have hyear := length_year style hm
  have hlength := length_write style hm k
  have hname := length_weekdayName style.longWeekday k hk
  refine if_pos (.inl ?_)
  split at hname <;> split at hday <;> split at hyear <;> omega

theorem bare_write (style : Style) (hm : m.InRange) (hk : k < 7) : Bare (style.write m k) := by
  have hwrite : style.write m k = weekdayName style.longWeekday k ++
      (", " ++ style.day m.date.day ++ "-" ++ monthNames.getD (m.date.month - 1) [] ++ "-" ++
        style.year m.date.year ++ " " ++ clock m) ++ " GMT" := by
    simp only [write, dated, List.append_assoc]
  rw [hwrite]
  refine .dated _ hk ?_
  simp only [List.all_append, (plain_day style _).isAscii, (plain_monthName _ hm.month_lt).isAscii,
    (plain_year style _).isAscii, (plain_clock m).isAscii]
  rfl

theorem parse?_write {style : Style} (h : n < HttpDate.limit)
    (hdetermines : style.DeterminesYear (Moment.ofSeconds n).date.year) :
    HttpDate.parse? (style.write (Moment.ofSeconds n) (weekdayOf (n / 86400))) =
      if style.HasHttpForm (Moment.ofSeconds n).date.day then some ⟨n, 0⟩ else none := by
  have hm := Moment.inRange_ofSeconds h
  have hk := weekdayOf_lt (n / 86400)
  rw [(style.bare_write hm hk).parse?_eq, readFixed?_write style hm hk, readLong?_write hm hk hdetermines,
    readPlain?_write style hm hk]
  split
  · exact HttpDate.instant?_ofSeconds h
  · rfl

end Style

-- ---------------------------------------------------------------------------
-- Dates that are read
-- ---------------------------------------------------------------------------

variable {t : Text} {s : Nat}

/-- Quotes around a date do not count. -/
theorem readDate?_bare (ht : Bare t) :
    readDate? t = (HttpDate.parse? t <|> (undashed? t).bind HttpDate.parse?) ∧
      readDate? t.quote = readDate? t := by
  have hbare : t.trim.unquote = t := by rw [ht.trim_eq, ht.unquote_eq]
  have hquote : t.quote.trim.unquote = t := by rw [Text.trim_quote, Text.quote, Text.unquote_quoted]
  simp only [readDate?, hbare, hquote, and_self]

/-- Every second from 1970 to 9999 is read from its HTTP date and from its dates with dashes, with quotes
around them or without. A date in the form of HTTP is read as the same second by the reader of HTTP dates
and by way of the date that it is rewritten to, in the same century. -/
theorem readDate?_written (h : (Moment.after s).date.year ≤ 9999) :
    (readDate? (HttpDate.write (.after s) (weekdayOf (s / 86400))) = some ⟨s, 0⟩ ∧
        readDate? (HttpDate.write (.after s) (weekdayOf (s / 86400))).quote = some ⟨s, 0⟩) ∧
      ∀ style : Style, style.DeterminesYear (Moment.after s).date.year →
        (readDate? (style.write (.after s) (weekdayOf (s / 86400))) = some ⟨s, 0⟩ ∧
            readDate? (style.write (.after s) (weekdayOf (s / 86400))).quote = some ⟨s, 0⟩) ∧
          (undashed? (style.write (.after s) (weekdayOf (s / 86400)))).bind HttpDate.parse? = some ⟨s, 0⟩ ∧
            HttpDate.parse? (style.write (.after s) (weekdayOf (s / 86400))) =
              if style.HasHttpForm (Moment.after s).date.day then some ⟨s, 0⟩ else none := by
  rw [← Moment.ofSeconds_eq_after] at h ⊢
  rw [← Moment.lt_limit_iff] at h
  have hm := Moment.inRange_ofSeconds h
  have hk := weekdayOf_lt (s / 86400)
  have hfixed := HttpDate.parse?_write h
  refine ⟨?_, fun style hdetermines => ?_⟩
  · obtain ⟨hread, hquoted⟩ := readDate?_bare (HttpDate.bare_write hm hk)
    rw [hquoted, hread, hfixed]
    exact ⟨rfl, rfl⟩
  · obtain ⟨hread, hquoted⟩ := readDate?_bare (style.bare_write hm hk)
    have hparsed := Style.parse?_write h hdetermines
    have hundashed : (undashed? (style.write (.ofSeconds s) (weekdayOf (s / 86400)))).bind HttpDate.parse? =
        some ⟨s, 0⟩ := by
      rw [Style.undashed?_write hm hk hdetermines, Option.bind_some, hfixed]
    refine ⟨?_, hundashed, hparsed⟩
    rw [hquoted, and_self, hread, hundashed, hparsed]
    split <;> rfl

theorem readDate?_written_shortest :
    ((Moment.after 784111777).date.year ≤ 9999 ∧
        (⟨true, true, true⟩ : Style).DeterminesYear (Moment.after 784111777).date.year) ∧
      readDate? "Sunday, 6-Nov-94 08:49:37 GMT" = some ⟨784111777, 0⟩ := by
  have hmoment : Moment.after 784111777 = ⟨⟨1994, 11, 6⟩, 8, 49, 37⟩ := by
    rw [← Moment.ofSeconds_eq_after]
    decide
  have hyear : (Moment.after 784111777).date.year ≤ 9999 := by
    rw [hmoment]
    decide
  have hdetermines : (⟨true, true, true⟩ : Style).DeterminesYear (Moment.after 784111777).date.year := by
    rw [hmoment]
    exact fun _ => by decide
  have htext : Style.write ⟨true, true, true⟩ ⟨⟨1994, 11, 6⟩, 8, 49, 37⟩ (weekdayOf (784111777 / 86400)) =
      "Sunday, 6-Nov-94 08:49:37 GMT" := by decide
  have hread := ((readDate?_written hyear).2 ⟨true, true, true⟩ hdetermines).1.1
  rw [hmoment, htext] at hread
  exact ⟨⟨hyear, hdetermines⟩, hread⟩

end HttpSession.Cookie
