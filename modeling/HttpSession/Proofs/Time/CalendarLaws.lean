import Mathlib.Logic.Function.Iterate
import Mathlib.Tactic.IntervalCases
import HttpSession.Time.Calendar

/-!
# Laws of the calendar

Days are numbered one by one from 1970-01-01, in months whose lengths are those of the Gregorian
calendar. The computation counts years and months from March, so that a leap day is the last of its
year: every number falls into one year, one month of it and one day of the month (`Split`).

Main statements: a numbered day has its number (`number_ofNumber`), and it is reached from 1970-01-01 by
as many steps from one day to the next (`ofNumber_eq_iterate`).
-/

namespace HttpSession.Day

-- ---------------------------------------------------------------------------
-- The Gregorian calendar
-- ---------------------------------------------------------------------------

def IsLeap (year : Nat) : Prop := 4 ∣ year ∧ ¬ 100 ∣ year ∨ 400 ∣ year

instance (year : Nat) : Decidable (IsLeap year) :=
  inferInstanceAs (Decidable (4 ∣ year ∧ ¬ 100 ∣ year ∨ 400 ∣ year))

def monthLength (year month : Nat) : Nat :=
  if month = 2 then if IsLeap year then 29 else 28
  else if month = 4 ∨ month = 6 ∨ month = 9 ∨ month = 11 then 30
  else 31

def next (d : Day) : Day :=
  if d.day < monthLength d.year d.month then { d with day := d.day + 1 }
  else if d.month < 12 then ⟨d.year, d.month + 1, 1⟩
  else ⟨d.year + 1, 1, 1⟩

-- ---------------------------------------------------------------------------
-- Years and months from March
-- ---------------------------------------------------------------------------

/-- Days from 0000-03-01 to the first of March of a year. -/
def marchOf (year : Nat) : Nat := 365 * year + year / 4 - year / 100 + year / 400

/-- Days from the first of March to that of a month, counted from March. -/
def monthStart (month : Nat) : Nat := (153 * month + 2) / 5

/-- The days before one of a cycle, as if there were no leap days. -/
def plainDays (inCycle : Nat) : Nat := inCycle - inCycle / 1460 + inCycle / 36524 - inCycle / 146096

def fromMarch (year month day : Nat) : Day :=
  if month < 10 then ⟨year, month + 3, day + 1⟩ else ⟨year + 1, month - 9, day + 1⟩

/-- Whether the day of a count is a day of a year and a month that are both counted from March. -/
structure Split (count year month day : Nat) : Prop where
  eq : count = marchOf year + monthStart month + day
  isMonth : month < 12
  inMonth : monthStart month + day < monthStart (month + 1)
  inYear : count < marchOf (year + 1)

variable {n count year month day inCycle : Nat}

theorem marchOf_mono {y z : Nat} (h : y ≤ z) : marchOf y ≤ marchOf z := by
  induction h with
  | refl => exact Nat.le_refl _
  | step _ ih =>
    refine ih.trans ?_
    unfold marchOf
    omega

theorem marchOf_add_cycles (cycles year : Nat) :
    marchOf (cycles * 400 + year) = cycles * cycle + marchOf year := by
  unfold marchOf cycle
  omega

/-- A year from March is one day longer if its February is that of a leap year. -/
theorem marchOf_succ (year : Nat) :
    marchOf (year + 1) = marchOf year + if IsLeap (year + 1) then 366 else 365 := by
  have hmore : year / 100 ≤ year / 4 := Nat.div_le_div_left (by decide) (by decide)
  simp only [marchOf, Nat.succ_div]
  by_cases hleap : IsLeap (year + 1)
  · rw [if_pos hleap]
    unfold IsLeap at hleap
    split_ifs <;> omega
  · rw [if_neg hleap]
    unfold IsLeap at hleap
    split_ifs <;> omega

theorem marchOf_succ_bounds (year : Nat) :
    marchOf year + 365 ≤ marchOf (year + 1) ∧ marchOf (year + 1) ≤ marchOf year + 366 := by
  rw [marchOf_succ]
  split <;> omega

theorem marchOf_of_lt (h : year < 400) : marchOf year = 365 * year + year / 4 - year / 100 := by
  unfold marchOf
  omega

theorem monthStart_mono {m k : Nat} (h : m ≤ k) : monthStart m ≤ monthStart k := by
  unfold monthStart
  omega

theorem plainDays_mono {r s : Nat} (h : r ≤ s) : plainDays r ≤ plainDays s := by
  unfold plainDays
  omega

theorem plainDays_marchOf (h : year < 400) : plainDays (marchOf year) = 365 * year := by
  have hmarch := marchOf_of_lt h
  have hfour : marchOf year / 1460 = year / 4 := by omega
  have hcentury : marchOf year / 36524 = year / 100 := by omega
  have hcycle : marchOf year / 146096 = 0 := by omega
  rw [plainDays, hfour, hcentury, hcycle]
  omega

theorem plainDays_before_marchOf (h : year < 400) :
    plainDays (marchOf (year + 1) - 1) < 365 * (year + 1) := by
  -- the last day of a cycle is the only one behind four full centuries
  by_cases hlast : year = 399
  · subst hlast
    decide
  · generalize hz : year + 1 = z
    have hmarch := marchOf_of_lt (show z < 400 by omega)
    have hfour : z / 4 ≤ (marchOf z - 1) / 1460 := by omega
    have hcentury : (marchOf z - 1) / 36524 ≤ z / 100 := by omega
    unfold plainDays
    omega

/-- The year of a cycle that a day of the cycle is in. -/
theorem marchOf_year (h : inCycle < cycle) :
    plainDays inCycle / 365 < 400 ∧ marchOf (plainDays inCycle / 365) ≤ inCycle ∧
      inCycle < marchOf (plainDays inCycle / 365 + 1) := by
  have hlast : plainDays inCycle / 365 < 400 := by
    have hmono := plainDays_mono (Nat.le_sub_one_of_lt h)
    have hend : plainDays (cycle - 1) = 145999 := rfl
    omega
  generalize hyear : plainDays inCycle / 365 = year at *
  refine ⟨hlast, Nat.le_of_not_lt fun hlt => ?_, Nat.lt_of_not_le fun hle => ?_⟩
  · cases year with
    | zero => simp [marchOf] at hlt
    | succ year =>
      have hbefore := plainDays_before_marchOf (show year < 400 by omega)
      have hmono := plainDays_mono (Nat.le_sub_one_of_lt hlt)
      omega
  · have hmono := plainDays_mono hle
    by_cases hnext : year + 1 < 400
    · have hstart := plainDays_marchOf hnext
      omega
    · obtain rfl : year = 399 := by omega
      exact absurd h (Nat.not_lt.mpr hle)

-- ---------------------------------------------------------------------------
-- Numbered days
-- ---------------------------------------------------------------------------

theorem split_ofNumber (n : Nat) :
    ∃ year month day, Split (n + shift) year month day ∧ ofNumber n = fromMarch year month day := by
  obtain ⟨hyear, hstart, hend⟩ := marchOf_year (Nat.mod_lt (n + shift) (by decide : 0 < cycle))
  generalize hr : (n + shift) % cycle = inCycle at hyear hstart hend
  generalize hy : plainDays inCycle / 365 = y at hyear hstart hend
  have hmarch := marchOf_of_lt hyear
  have hlength := (marchOf_succ_bounds y).2
  have hcount := Nat.div_add_mod' (n + shift) cycle
  refine ⟨(n + shift) / cycle * 400 + y, (5 * (inCycle - marchOf y) + 2) / 153,
    inCycle - marchOf y - monthStart ((5 * (inCycle - marchOf y) + 2) / 153), ⟨?_, ?_, ?_, ?_⟩, ?_⟩
  · rw [marchOf_add_cycles]
    unfold monthStart
    omega
  · omega
  · unfold monthStart
    omega
  · rw [Nat.add_assoc, marchOf_add_cycles]
    omega
  · rw [plainDays] at hy
    simp only [ofNumber, hr, hy, ← hmarch, fromMarch, monthStart]

theorem number_fromMarch (h : month < 12) :
    (fromMarch year month day).number = marchOf year + monthStart month + day - shift := by
  have hyears := Nat.div_add_mod' year 400
  have hmarch : marchOf year =
      year / 400 * cycle + (year % 400 * 365 + year % 400 / 4 - year % 400 / 100) := by
    unfold marchOf cycle
    omega
  unfold fromMarch monthStart
  split
  · simp only [number, if_neg (show ¬ month + 3 ≤ 2 by omega), Nat.add_sub_cancel, hmarch]
    omega
  · have hmonth : month - 9 + 9 = month := by omega
    simp only [number, if_pos (show month - 9 ≤ 2 by omega), Nat.add_sub_cancel, hmonth, hmarch]
    omega

theorem number_ofNumber (n : Nat) : (ofNumber n).number = n := by
  obtain ⟨year, month, day, hsplit, hday⟩ := split_ofNumber n
  rw [hday, number_fromMarch hsplit.isMonth, ← hsplit.eq, Nat.add_sub_cancel]

/-- A number lies behind one start and before the next of increasing starts only once. -/
theorem index_unique {start : Nat → Nat} {i j : Nat} (hmono : ∀ i j, i ≤ j → start i ≤ start j)
    (hi : start i ≤ n) (hi' : n < start (i + 1)) (hj : start j ≤ n) (hj' : n < start (j + 1)) : i = j := by
  by_contra hne
  rcases Nat.lt_or_gt_of_ne hne with hlt | hlt
  · have hle := hmono (i + 1) j hlt
    omega
  · have hle := hmono (j + 1) i hlt
    omega

theorem Split.unique {y m d : Nat} (h : Split count year month day) (h' : Split count y m d) :
    year = y ∧ month = m ∧ day = d := by
  obtain ⟨heq, -, hmonth, hyear⟩ := h
  obtain ⟨heq', -, hmonth', hyear'⟩ := h'
  obtain rfl : year = y :=
    index_unique (fun _ _ => marchOf_mono) (by omega) hyear (by omega) hyear'
  obtain rfl : month = m :=
    index_unique (fun _ _ => monthStart_mono) (Nat.le_add_right _ day) hmonth (by omega) (by omega)
  omega

/-- How many days of a month, counted from March, there are. -/
theorem monthLength_fromMarch (year day : Nat) (h : month < 12) :
    monthLength (fromMarch year month day).year (fromMarch year month day).month =
      min (monthStart (month + 1)) (marchOf (year + 1) - marchOf year) - monthStart month := by
  rw [marchOf_succ, Nat.add_sub_cancel_left]
  by_cases hleap : IsLeap (year + 1) <;> interval_cases month <;>
    simp [fromMarch, monthLength, monthStart, hleap]

/-- The day behind a day has the next number. -/
theorem Split.next (h : Split count year month day) :
    ∃ y m d, Split (count + 1) y m d ∧ (fromMarch year month day).next = fromMarch y m d := by
  obtain ⟨heq, hmonth, hday, hyear⟩ := h
  have hlength := monthLength_fromMarch year day hmonth
  have hdate : (fromMarch year month day).day = day + 1 := by
    unfold fromMarch
    split <;> rfl
  by_cases hlast : day + 1 < monthLength (fromMarch year month day).year (fromMarch year month day).month
  · refine ⟨year, month, day + 1, ⟨?_, hmonth, ?_, ?_⟩, ?_⟩
    · omega
    · omega
    · omega
    · rw [Day.next, hdate, if_pos hlast, fromMarch, fromMarch]
      split <;> rfl
  · rw [Day.next, if_neg (by rwa [hdate])]
    obtain ⟨hshorter, hlonger⟩ := marchOf_succ_bounds year
    have hthere : marchOf year + min (monthStart (month + 1)) (marchOf (year + 1) - marchOf year) =
        count + 1 := by omega
    by_cases hmonth' : month = 11
    · subst hmonth'
      have hbehind : monthStart (11 + 1) = 367 := rfl
      have hend : count + 1 = marchOf (year + 1) := by omega
      have hnext := marchOf_succ_bounds (year + 1)
      exact ⟨year + 1, 0, 0, ⟨hend, by decide, by decide, by omega⟩, rfl⟩
    · have hinside : monthStart (month + 1) < marchOf (year + 1) - marchOf year := by
        have hstart := monthStart_mono (show month + 1 ≤ 11 by omega)
        have hfebruary : monthStart 11 = 337 := rfl
        omega
      refine ⟨year, month + 1, 0, ⟨?_, ?_, ?_, ?_⟩, ?_⟩
      · omega
      · omega
      · unfold monthStart
        omega
      · omega
      · clear hlength hdate hlast
        interval_cases month <;> rfl

theorem ofNumber_succ (n : Nat) : ofNumber (n + 1) = (ofNumber n).next := by
  obtain ⟨year, month, day, hsplit, hday⟩ := split_ofNumber n
  obtain ⟨y, m, d, hnext, hbehind⟩ := hsplit.next
  obtain ⟨y', m', d', hsplit', hday'⟩ := split_ofNumber (n + 1)
  rw [Nat.add_right_comm] at hsplit'
  obtain ⟨rfl, rfl, rfl⟩ := hnext.unique hsplit'
  rw [hday, hday', hbehind]

theorem ofNumber_eq_iterate (n : Nat) : ofNumber n = next^[n] ⟨1970, 1, 1⟩ := by
  induction n with
  | zero => rfl
  | succ n ih => rw [ofNumber_succ, ih, Function.iterate_succ_apply']

theorem ofNumber_month (n : Nat) : 1 ≤ (ofNumber n).month ∧ (ofNumber n).month ≤ 12 := by
  obtain ⟨year, month, day, hsplit, hday⟩ := split_ofNumber n
  have hmonth := hsplit.isMonth
  rw [hday]
  unfold fromMarch
  split <;> simp only <;> omega

theorem ofNumber_day (n : Nat) : 1 ≤ (ofNumber n).day ∧ (ofNumber n).day ≤ 31 := by
  obtain ⟨year, month, day, hsplit, hday⟩ := split_ofNumber n
  have hmonth := hsplit.inMonth
  rw [hday]
  unfold monthStart at hmonth
  unfold fromMarch
  split <;> simp only <;> omega

/-- The days of the years 1970 to 9999 are those before the day numbered 2932897. -/
theorem ofNumber_year (n : Nat) :
    1970 ≤ (ofNumber n).year ∧ ((ofNumber n).year ≤ 9999 ↔ n < 2932897) := by
  obtain ⟨year, month, day, ⟨heq, hmonth, hinMonth, hinYear⟩, hday⟩ := split_ofNumber n
  have hstarts : marchOf 1969 = 719162 ∧ marchOf 9999 = 3652059 ∧ marchOf 10000 = 3652425 := by decide
  have hshift : shift = 719468 := rfl
  have hfirst : 1969 ≤ year := by
    by_contra hlt
    have hmono := marchOf_mono (show year + 1 ≤ 1969 by omega)
    omega
  rw [hday]
  unfold fromMarch
  -- the years that count from March begin in one year and end in the next
  split
  · rename_i hbefore
    have hinside : monthStart month + day < 306 := by
      unfold monthStart at *
      omega
    refine ⟨?_, fun hle => ?_, fun hlt => ?_⟩
    · by_contra hlt
      obtain rfl : year = 1969 := by simp only at hlt; omega
      omega
    · have hmono := marchOf_mono hle
      simp only at hmono
      omega
    · by_contra hle
      have hmono := marchOf_mono (show 10000 ≤ year by simp only at hle; omega)
      omega
  · have hbehind : 306 ≤ monthStart month := by
      unfold monthStart
      omega
    refine ⟨by simp only; omega, fun hle => ?_, fun hlt => ?_⟩
    · have hmono := marchOf_mono hle
      simp only at hmono
      omega
    · by_contra hle
      have hmono := marchOf_mono (show 9999 ≤ year by simp only at hle; omega)
      omega

end HttpSession.Day
