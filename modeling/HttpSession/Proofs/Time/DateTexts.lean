import HttpSession.Proofs.Text.IntegerLaws
import HttpSession.Proofs.Time.CalendarLaws
import HttpSession.Time.HttpDate

/-!
# Laws of date texts

Every field of a date has its width, so a reader finds each of them where it was written
(`readFixed?_parts`, `readDashed?_parts`). A date that is written for a second is read as that second
(`parse?_write`), since the calendar gives each day one number.
-/

namespace HttpSession

-- ---------------------------------------------------------------------------
-- Moments
-- ---------------------------------------------------------------------------

namespace Moment

/-- Whether the parts of a moment are those of a time of day and of a day of the years 1970 to 9999. -/
structure InRange (m : Moment) : Prop where
  year : 1970 ≤ m.date.year ∧ m.date.year ≤ 9999
  month : 1 ≤ m.date.month ∧ m.date.month ≤ 12
  day : 1 ≤ m.date.day ∧ m.date.day ≤ 31
  hour : m.hour < 24
  minute : m.minute < 60
  second : m.second < 60

/-- The moment so many seconds after 1970-01-01 00:00:00, its day counted one by one. -/
def after (s : Nat) : Moment :=
  ⟨Day.next^[s / 86400] ⟨1970, 1, 1⟩, s / 3600 % 24, s / 60 % 60, s % 60⟩

variable {s : Nat} {m : Moment}

theorem InRange.month_lt (hm : m.InRange) : m.date.month - 1 < 12 := by
  have hmonth := hm.month
  omega

theorem ofSeconds_eq_after (s : Nat) : ofSeconds s = after s := by
  simp only [ofSeconds, after, Day.ofNumber_eq_iterate, Moment.mk.injEq, true_and]
  omega

/-- The seconds before the limit are those up to the end of the year 9999. -/
theorem lt_limit_iff : s < HttpDate.limit ↔ (ofSeconds s).date.year ≤ 9999 := by
  have hdays := Nat.div_lt_iff_lt_mul (x := s) (y := 2932897) (by decide : 0 < 86400)
  exact hdays.symm.trans (Day.ofNumber_year _).2.symm

theorem inRange_ofSeconds (h : s < HttpDate.limit) : (ofSeconds s).InRange := by
  have hyear := (Day.ofNumber_year (s / 86400)).1
  refine ⟨⟨hyear, lt_limit_iff.mp h⟩, Day.ofNumber_month _, Day.ofNumber_day _, ?_, ?_, ?_⟩ <;>
    simp only [ofSeconds] <;> omega

theorem seconds_ofSeconds (s : Nat) : (ofSeconds s).seconds = s := by
  simp only [seconds, ofSeconds, Day.number_ofNumber]
  omega

end Moment

theorem weekdayOf_lt (n : Nat) : weekdayOf n < 7 := Nat.mod_lt _ (by decide)

namespace HttpDate

-- ---------------------------------------------------------------------------
-- Words
-- ---------------------------------------------------------------------------

def weekdayName (long : Bool) (k : Nat) : Text := (if long then longDayNames else dayNames).getD k []

def clock (m : Moment) : Text :=
  Text.padded 2 (Text.ofNat m.hour) ++ ":" ++ Text.padded 2 (Text.ofNat m.minute) ++ ":" ++
    Text.padded 2 (Text.ofNat m.second)

def isAscii (c : Char) : Bool := c.toNat < 128

def isPlain (c : Char) : Bool := isAscii c && !Text.isBlank c && c ≠ '-'

def Plain (t : Text) : Prop := t ≠ [] ∧ t.all isPlain = true

instance (t : Text) : Decidable (Plain t) := inferInstanceAs (Decidable (t ≠ [] ∧ _))

variable {w d mo y h mi s t u : Text} {m : Moment} {k n : Nat} {c : Char}

theorem isPlain_of_isDigit (h : c.isDigit = true) : isPlain c = true := by
  have hascii : isAscii c = true := by
    have hrange := Text.toNat_of_isDigit h
    exact decide_eq_true (by omega)
  have hdash : c ≠ '-' := by
    rintro rfl
    exact absurd h (by decide)
  simp [isPlain, hascii, Text.isBlank_of_isDigit h, hdash]

theorem isBlank_of_isAlpha (h : c.isAlpha = true) : Text.isBlank c = false := by
  simp only [Char.isAlpha, Char.isUpper, Char.isLower, Bool.or_eq_true, Bool.and_eq_true, decide_eq_true_eq,
    ge_iff_le, UInt32.le_iff_toNat_le] at h
  change (65 ≤ c.toNat ∧ c.toNat ≤ 90) ∨ (97 ≤ c.toNat ∧ c.toNat ≤ 122) at h
  simp only [Text.isBlank, Bool.or_eq_false_iff, Bool.and_eq_false_iff, decide_eq_false_iff_not]
  omega

namespace Plain

theorem isPlain (ht : Plain t) (hc : c ∈ t) : isPlain c = true := List.all_eq_true.mp ht.2 c hc

theorem append (ht : Plain t) (hu : Plain u) : Plain (t ++ u) :=
  ⟨List.append_ne_nil_of_left_ne_nil ht.1 _, by rw [List.all_append, ht.2, hu.2]; rfl⟩

theorem isAscii (ht : Plain t) : t.all HttpDate.isAscii = true := by
  rw [List.all_eq_true]
  intro c hc
  have hplain := ht.isPlain hc
  simp only [HttpDate.isPlain, Bool.and_eq_true] at hplain
  exact hplain.1.1

theorem isBlank (ht : Plain t) (hc : c ∈ t) : Text.isBlank c = false := by
  have hplain := ht.isPlain hc
  simp only [HttpDate.isPlain, Bool.and_eq_true, Bool.not_eq_true'] at hplain
  exact hplain.1.2

theorem no_dash (ht : Plain t) : '-' ∉ t := fun hc => absurd (ht.isPlain hc) (by decide)

end Plain

theorem plain_padded (width n : Nat) : Plain (Text.padded width (Text.ofNat n)) :=
  ⟨List.append_ne_nil_of_right_ne_nil _ (Text.ofNat_ne_nil n),
    List.all_eq_true.mpr fun _ hc => isPlain_of_isDigit (Text.isDigit_of_mem_padded hc)⟩

theorem plain_weekdayName : ∀ long, ∀ k < 7, Plain (weekdayName long k) := by decide

theorem plain_monthName : ∀ k < 12, Plain (monthNames.getD k []) := by decide

theorem plain_clock (m : Moment) : Plain (clock m) := by
  have hcolon : Plain ":" := by decide
  exact ((((plain_padded _ _).append hcolon).append (plain_padded _ _)).append hcolon).append
    (plain_padded _ _)

theorem first_weekdayName : ∀ long, ∀ k < 7, (weekdayName long k).head?.any Char.isAlpha = true := by decide

-- ---------------------------------------------------------------------------
-- Fields
-- ---------------------------------------------------------------------------

theorem number?_padded (width n : Nat) : number? (Text.padded width (Text.ofNat n)) = some n := by
  have hdigits : (Text.padded width (Text.ofNat n)).all Char.isDigit = true :=
    List.all_eq_true.mpr fun _ => Text.isDigit_of_mem_padded
  have hnumber := Text.ofDigitChars_padded width n
  simp only [Nat.ofDigitChars_eq_foldl, Nat.mul_comm 10] at hnumber
  rw [number?, if_pos hdigits, hnumber]

theorem nameIn?_dayNames : ∀ k < 7, nameIn? dayNames (dayNames.getD k []) = some k := by decide

theorem nameIn?_longDayNames : ∀ long, ∀ k < 7,
    nameIn? longDayNames (weekdayName long k) = if long = true then some k else none := by decide

theorem nameIn?_monthNames : ∀ k < 12, nameIn? monthNames (monthNames.getD k []) = some k := by decide

theorem length_dayName : ∀ k < 7, (dayNames.getD k []).length = 3 := by decide

theorem length_monthName : ∀ k < 12, (monthNames.getD k []).length = 3 := by decide

theorem length_two (h : n < 100) : (Text.padded 2 (Text.ofNat n)).length = 2 :=
  Text.length_padded (by decide) h

theorem length_clock (hm : m.InRange) : (clock m).length = 8 := by
  have hhour := hm.hour
  have hminute := hm.minute
  have hsecond := hm.second
  simp only [clock, List.length_append, length_two (show m.hour < 100 by omega),
    length_two (show m.minute < 100 by omega), length_two (show m.second < 100 by omega)]
  rfl

theorem field_append (t u : Text) (start count : Nat) :
    field (t ++ u) (t.length + start) count = field u start count := by
  rw [field, field, List.drop_append, List.drop_of_length_le (Nat.le_add_right _ _),
    Nat.add_sub_cancel_left, List.nil_append]

theorem readFixed?_eq_none (h : t.length ≠ 29 ∨ field t 3 2 ≠ ", ".toList ∨ field t 7 1 ≠ [' ']) :
    readFixed? t = none :=
  if_pos (by tauto)

theorem readFixed?_parts (hw : w.length = 3) (hd : d.length = 2) (hmo : mo.length = 3) (hy : y.length = 4)
    (hh : h.length = 2) (hmi : mi.length = 2) (hs : s.length = 2) :
    readFixed? (w ++ ", " ++ d ++ " " ++ mo ++ " " ++ y ++ " " ++ h ++ ":" ++ mi ++ ":" ++ s ++ " GMT") = (do
      let second ← number? s
      let minute ← number? mi
      let hour ← number? h
      let day ← number? d
      let month ← nameIn? monthNames mo
      let year ← number? y
      let weekday ← nameIn? dayNames w
      some ⟨⟨⟨year, month + 1, day⟩, hour, minute, second⟩, weekday⟩) := by
  obtain ⟨_, _, _, rfl⟩ := List.length_eq_three.mp hw
  obtain ⟨_, _, rfl⟩ := List.length_eq_two.mp hd
  obtain ⟨_, _, _, rfl⟩ := List.length_eq_three.mp hmo
  obtain ⟨_, _, rfl⟩ := List.length_eq_two.mp hh
  obtain ⟨_, _, rfl⟩ := List.length_eq_two.mp hmi
  obtain ⟨_, _, rfl⟩ := List.length_eq_two.mp hs
  match y, hy with
  | [_, _, _, _], _ => simp [readFixed?, field]

theorem readDashed?_parts (k : Nat) (hd : d.length = 2) (hmo : mo.length = 3) (hy : y.length = 2)
    (hh : h.length = 2) (hmi : mi.length = 2) (hs : s.length = 2) :
    readDashed? k (d ++ "-" ++ mo ++ "-" ++ y ++ " " ++ h ++ ":" ++ mi ++ ":" ++ s ++ " GMT") = (do
      let short ← number? y
      let second ← number? s
      let minute ← number? mi
      let hour ← number? h
      let day ← number? d
      let month ← nameIn? monthNames mo
      some ⟨⟨⟨if short < 70 then 2000 + short else 1900 + short, month + 1, day⟩, hour, minute, second⟩,
        k⟩) := by
  obtain ⟨_, _, rfl⟩ := List.length_eq_two.mp hd
  obtain ⟨_, _, _, rfl⟩ := List.length_eq_three.mp hmo
  obtain ⟨_, _, rfl⟩ := List.length_eq_two.mp hy
  obtain ⟨_, _, rfl⟩ := List.length_eq_two.mp hh
  obtain ⟨_, _, rfl⟩ := List.length_eq_two.mp hmi
  obtain ⟨_, _, rfl⟩ := List.length_eq_two.mp hs
  simp [readDashed?, field]

-- ---------------------------------------------------------------------------
-- Texts that stand for themselves
-- ---------------------------------------------------------------------------

structure Bare (t : Text) : Prop where
  ascii : t.all isAscii = true
  first : t.head?.any Char.isAlpha = true
  last : t.getLast?.any Char.isAlpha = true

namespace Bare

/-- A date begins with a weekday and ends with its zone. -/
theorem dated (long : Bool) (hk : k < 7) (ht : t.all isAscii = true) :
    Bare (weekdayName long k ++ t ++ " GMT") := by
  refine ⟨?_, ?_, ?_⟩
  · rw [List.all_append, List.all_append, (plain_weekdayName long k hk).isAscii, ht]
    rfl
  · rw [List.append_assoc, List.head?_append_of_ne_nil _ (plain_weekdayName long k hk).1]
    exact first_weekdayName long k hk
  · rw [List.getLast?_append]
    rfl

theorem trim_eq (ht : Bare t) : t.trim = t := by
  refine Text.trim_eq_self (fun c hc => ?_) fun c hc => ?_
  · have hfirst := ht.first
    rw [hc] at hfirst
    exact isBlank_of_isAlpha hfirst
  · have hlast := ht.last
    rw [hc] at hlast
    exact isBlank_of_isAlpha hlast

theorem unquote_eq (ht : Bare t) : t.unquote = t := by
  rw [Text.unquote_eq_self_iff, Option.eq_none_iff_forall_ne_some]
  intro u hu
  have hfirst := ht.first
  rw [Text.quoted?_eq_some_iff.mp hu] at hfirst
  exact absurd hfirst (by simp)

theorem parse?_eq (ht : Bare t) :
    parse? t = (readFixed? t <|> readLong? t <|> readPlain? t).bind Reading.instant? := by
  have hascii : (t.all fun c => c.toNat < 128) = true := ht.ascii
  rw [parse?, if_pos hascii]
  simp only [ht.trim_eq]
  cases readFixed? t <|> readLong? t <|> readPlain? t <;> rfl

end Bare

-- ---------------------------------------------------------------------------
-- Dates that are written
-- ---------------------------------------------------------------------------

/-- What is read of a second names that second. -/
theorem instant?_ofSeconds (h : n < limit) :
    Reading.instant? ⟨Moment.ofSeconds n, weekdayOf (n / 86400)⟩ = some ⟨n, 0⟩ := by
  have hm := Moment.inRange_ofSeconds h
  have hdate : (Moment.ofSeconds n).date = Day.ofNumber (n / 86400) := rfl
  simp only [Reading.instant?, Moment.seconds_ofSeconds]
  rw [if_pos]
  exact ⟨hm.second, hm.minute, hm.hour, hm.year.1, hm.year.2, hm.month.1, hm.month.2, hm.day.1, hm.day.2,
    by rw [hdate, Day.number_ofNumber], by rw [hdate, Day.number_ofNumber]⟩

theorem write_eq (m : Moment) (k : Nat) :
    write m k = weekdayName false k ++ (", " ++ Text.padded 2 (Text.ofNat m.date.day) ++ " " ++
      monthNames.getD (m.date.month - 1) [] ++ " " ++ Text.padded 4 (Text.ofNat m.date.year) ++ " " ++
      clock m) ++ " GMT" := by
  simp only [write, clock, List.append_assoc]
  rfl

theorem bare_write (hm : m.InRange) (hk : k < 7) : Bare (write m k) := by
  rw [write_eq]
  refine .dated false hk ?_
  simp only [List.all_append, (plain_padded _ _).isAscii, (plain_monthName _ hm.month_lt).isAscii,
    (plain_clock m).isAscii]
  rfl

theorem readFixed?_write (hm : m.InRange) (hk : k < 7) : readFixed? (write m k) = some ⟨m, k⟩ := by
  have hyear : (Text.padded 4 (Text.ofNat m.date.year)).length = 4 :=
    Text.length_padded (by decide) (Nat.lt_succ_of_le hm.year.2)
  have hday := hm.day
  have hhour := hm.hour
  have hminute := hm.minute
  have hsecond := hm.second
  rw [write, readFixed?_parts (length_dayName _ hk) (length_two (by omega)) (length_monthName _ hm.month_lt)
    hyear (length_two (by omega)) (length_two (by omega)) (length_two (by omega))]
  simp only [number?_padded, nameIn?_dayNames _ hk, nameIn?_monthNames _ hm.month_lt, Option.bind_eq_bind,
    Option.bind_some, Nat.sub_add_cancel hm.month.1]

/-- A second is read back from the date that is written for it. -/
theorem parse?_write (h : n < limit) :
    parse? (write (Moment.ofSeconds n) (weekdayOf (n / 86400))) = some ⟨n, 0⟩ := by
  have hm := Moment.inRange_ofSeconds h
  rw [(bare_write hm (weekdayOf_lt _)).parse?_eq, readFixed?_write hm (weekdayOf_lt _)]
  exact instant?_ofSeconds h

end HttpDate

end HttpSession
