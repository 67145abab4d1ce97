import Shipment.Proofs.Text.Number
import Mathlib.Tactic.SplitIfs

/-!
# The calendar

`dayNumber` counts the days of the Gregorian calendar in the obvious way: 365 days to a year, one
more for each leap year before it, and the months of the year.  `dateOfDays` counts from March
instead and takes the year from one quotient.  What it finds is a date of the calendar, and its
number is the one that was given (`dateOfDays_spec`).

So an instant without a leap second can be read off its date and time of day, and, in the years
of four digits, off the row of digits that these are written as (`digits_inj`).
-/

namespace Shipment

namespace CivilTime

/-! ## Dates -/

/-- Whether a year has a leap day. -/
def isLeap (year : Int) : Bool := year % 4 == 0 && (year % 100 != 0 || year % 400 == 0)

/-- The days of a month. -/
def monthDays (leap : Bool) : Nat → Nat
  | 2 => if leap then 29 else 28
  | 4 | 6 | 9 | 11 => 30
  | _ => 31

/-- The days of a year before a month of it. -/
def daysBefore (leap : Bool) (month : Nat) : Nat :=
  ((List.range' 1 (month - 1)).map (monthDays leap)).sum

/-- The days from the start of 1970 to that of a year. -/
def yearStart (year : Int) : Int :=
  365 * (year - 1) + (year - 1) / 4 - (year - 1) / 100 + (year - 1) / 400 - 719162

theorem isLeap_iff {year : Int} :
    isLeap year = true ↔ year % 4 = 0 ∧ (year % 100 ≠ 0 ∨ year % 400 = 0) := by
  simp only [isLeap, Bool.and_eq_true, Bool.or_eq_true, beq_iff_eq, bne_iff_ne]

theorem yearStart_succ (year : Int) :
    yearStart (year + 1) = yearStart year + 365 + (isLeap year).toNat := by
  have h4 : year / 4 = (year - 1) / 4 + if year % 4 = 0 then 1 else 0 := by split <;> omega
  have h100 : year / 100 = (year - 1) / 100 + if year % 100 = 0 then 1 else 0 := by
    split <;> omega
  have h400 : year / 400 = (year - 1) / 400 + if year % 400 = 0 then 1 else 0 := by
    split <;> omega
  -- A year that is a multiple of 400 is one of 100, and that is one of 4.
  have hmultiple : (year % 400 = 0 → year % 100 = 0) ∧ (year % 100 = 0 → year % 4 = 0) := by
    omega
  have hleap : ((isLeap year).toNat : Int) = (if year % 4 = 0 then 1 else 0) -
      (if year % 100 = 0 then 1 else 0) + if year % 400 = 0 then 1 else 0 := by
    show ((bif isLeap year then 1 else 0 : Nat) : Int) = _
    rw [Bool.cond_eq_ite]
    simp only [isLeap_iff]
    split_ifs <;> simp_all
  rw [yearStart, Int.add_sub_cancel, h4, h100, h400, hleap, yearStart]
  omega

/-- A date of the calendar. -/
structure IsDate (date : Int × Nat × Nat) : Prop where
  one_le_month : 1 ≤ date.2.1
  month_le : date.2.1 ≤ 12
  one_le_day : 1 ≤ date.2.2
  day_le : date.2.2 ≤ monthDays (isLeap date.1) date.2.1

/-- The days from the start of 1970 to a date. -/
def dayNumber (date : Int × Nat × Nat) : Int :=
  yearStart date.1 + daysBefore (isLeap date.1) date.2.1 + (date.2.2 - 1 : Int)

/-! ## Years from March

An era is 400 years.  Within one, `yearOfEra` takes a leap day off for each four years, adds one
for each hundred, and takes one off at the end, so that 365 days are left of each year.
-/

/-- The year of a day of an era. -/
def yearOfEra (dayOfEra : Nat) : Nat :=
  (dayOfEra - dayOfEra / 1460 + dayOfEra / 36524 - dayOfEra / 146096) / 365

/-- The centuries, the fours and the ones of the year are read off the days of an era.  The last day
of the fours is in their last year, which is why the ones stop at three. -/
theorem yearOfEra_eq {e q r : Nat} (he : e < 4) (hq : q < 25) (hr : r < 1461)
    (hlast : q = 24 → r = 1460 → e = 3) :
    yearOfEra (36524 * e + 1461 * q + r) = 100 * e + 4 * q + min (r / 365) 3 := by
  unfold yearOfEra
  by_cases hend : q = 24 ∧ r = 1460
  · obtain ⟨rfl, rfl⟩ := hend
    obtain rfl := hlast rfl rfl
    rfl
  · have h1 : (36524 * e + 1461 * q + r) / 1460 = 25 * e + q + (24 * e + q + r) / 1460 := by omega
    have h2 : (36524 * e + 1461 * q + r) / 36524 = e := by omega
    have h3 : (36524 * e + 1461 * q + r) / 146096 = 0 := by omega
    have h4 : 36524 * e + 1461 * q + r - (25 * e + q + (24 * e + q + r) / 1460) + e - 0 =
        365 * (100 * e + 4 * q) + (r - (24 * e + q + r) / 1460) := by omega
    rw [h1, h2, h3, h4, Nat.mul_add_div (by decide)]
    omega

/-- A day of an era is one of its year.  The year starts in March, so it has a leap day if the next
year of the calendar is a leap year. -/
theorem yearOfEra_spec {day : Nat} (h : day < 146097) : ∃ year rest, yearOfEra day = year ∧
    year < 400 ∧ day = 365 * year + year / 4 - year / 100 + rest ∧ rest ≤ 365 ∧
    (rest = 365 → (year + 1) % 4 = 0 ∧ ((year + 1) % 100 ≠ 0 ∨ (year + 1) % 400 = 0)) := by
  obtain ⟨e, he⟩ : ∃ e, e = min (day / 36524) 3 := ⟨_, rfl⟩
  obtain ⟨q, hq⟩ : ∃ q, q = (day - 36524 * e) / 1461 := ⟨_, rfl⟩
  obtain ⟨r, hr⟩ : ∃ r, r = (day - 36524 * e) % 1461 := ⟨_, rfl⟩
  obtain ⟨t, ht⟩ : ∃ t, t = min (r / 365) 3 := ⟨_, rfl⟩
  have hday : day = 36524 * e + 1461 * q + r := by omega
  have hbounds : e < 4 ∧ q < 25 ∧ r < 1461 ∧ (q = 24 → r = 1460 → e = 3) := by omega
  obtain ⟨he4, hq25, hr1461, hlast⟩ := hbounds
  have hyear := yearOfEra_eq he4 hq25 hr1461 hlast
  rw [← hday, ← ht] at hyear
  clear h he hq hr
  have h4 : (100 * e + 4 * q + t) / 4 = 25 * e + q := by omega
  have h100 : (100 * e + 4 * q + t) / 100 = e := by omega
  refine ⟨_, r - 365 * t, hyear, by omega, by omega, by omega, fun hrest => ?_⟩
  have hend : t = 3 ∧ r = 1460 := by omega
  refine ⟨by omega, ?_⟩
  by_cases hq24 : q = 24
  · have := hlast hq24 hend.2
    omega
  · omega

/-! ## Months from March -/

/-- The month of the calendar, of a month counted from March. -/
def ofMarch (month : Nat) : Nat := if month < 10 then month + 3 else month - 9

/-- The days before a month, from the first of March. -/
def marchBefore (month : Nat) : Nat := (153 * month + 2) / 5

/-- The months that are counted from March have the lengths and places of the calendar.  The
last of them ends where the year does. -/
theorem march_table : ∀ month < 12, ∀ leap,
    (1 ≤ ofMarch month ∧ ofMarch month ≤ 12) ∧
    marchBefore month + monthDays leap (ofMarch month) =
      min (marchBefore (month + 1)) (365 + leap.toNat) ∧
    daysBefore leap (ofMarch month) + 306 =
      marchBefore month + if ofMarch month ≤ 2 then 0 else 365 + leap.toNat := by
  decide

/-- The date of a day in a year that starts in March. -/
def ofMarchDay (year : Int) (day : Nat) : Int × Nat × Nat :=
  let month := (5 * day + 2) / 153
  (year + (if ofMarch month ≤ 2 then 1 else 0), ofMarch month, day - marchBefore month + 1)

/-- A day of a year that starts in March has a date of the calendar, which is as far from 1970. -/
theorem ofMarchDay_spec {year : Int} {day : Nat} (h : day ≤ 365)
    (hleap : day = 365 → isLeap (year + 1) = true) : IsDate (ofMarchDay year day) ∧
      dayNumber (ofMarchDay year day) = yearStart (year + 1) - 306 + day := by
  obtain ⟨month, hmonth⟩ : ∃ month, month = (5 * day + 2) / 153 := ⟨_, rfl⟩
  obtain ⟨year', hyear'⟩ : ∃ year', year' = year + if ofMarch month ≤ 2 then 1 else 0 := ⟨_, rfl⟩
  have hbefore : marchBefore month ≤ day := by unfold marchBefore; omega
  have hbehind : day < marchBefore (month + 1) := by unfold marchBefore; omega
  -- The last day of a long year is in February.
  have hend : day < 365 + (isLeap year').toNat := by
    rcases Nat.lt_or_eq_of_le h with hlt | heq
    · omega
    · have hfeb : month = 11 := by omega
      rw [hyear', hfeb, if_pos (by decide), hleap heq]
      exact Nat.lt_succ_of_le h
  obtain ⟨⟨h1, h12⟩, hdays, hplace⟩ := march_table month (by omega) (isLeap year')
  rw [ofMarchDay, ← hmonth, ← hyear']
  refine ⟨⟨h1, h12, Nat.le_add_left _ _, ?_⟩, ?_⟩
  · show day - marchBefore month + 1 ≤ monthDays (isLeap year') (ofMarch month)
    omega
  · show yearStart year' + daysBefore (isLeap year') (ofMarch month) +
      ((day - marchBefore month + 1 : Nat) - 1 : Int) = yearStart (year + 1) - 306 + day
    have hyear := yearStart_succ year
    split at hplace
    · rw [if_pos ‹_›] at hyear'
      subst hyear'
      omega
    · rw [if_neg ‹_›, Int.add_zero] at hyear'
      subst hyear'
      omega

/-- Every day is one of a year that starts in March. -/
theorem exists_marchDay (days : Int) : ∃ year day, dateOfDays days = ofMarchDay year day ∧
    day ≤ 365 ∧ (day = 365 → isLeap (year + 1) = true) ∧
    days = yearStart (year + 1) - 306 + day := by
  obtain ⟨era, hera⟩ : ∃ era, era = (days + epochDays).fdiv eraDays := ⟨_, rfl⟩
  obtain ⟨dayOfEra, hday⟩ : ∃ d, d = (days + epochDays - era * eraDays).toNat := ⟨_, rfl⟩
  have hera' := hera
  rw [Int.fdiv_eq_ediv_of_nonneg _ (by decide)] at hera'
  have hsplit : days + 719468 = era * 146097 + dayOfEra ∧ dayOfEra < 146097 := by
    unfold epochDays eraDays at *
    omega
  obtain ⟨year, rest, hyear, hyear400, hdayOfEra, hrest, hleap⟩ := yearOfEra_spec hsplit.2
  have hdate : dateOfDays days = ofMarchDay (year + era * 400)
      (dayOfEra - (365 * year + year / 4 - year / 100)) := by
    rw [← hyear]
    subst hday hera
    rfl
  refine ⟨year + era * 400, rest, ?_, hrest, fun h365 => ?_, ?_⟩
  · rw [hdate]
    congr 1
    omega
  · have := hleap h365
    simp only [isLeap, Bool.and_eq_true, Bool.or_eq_true, beq_iff_eq, bne_iff_ne]
    omega
  · have h4 : (year + era * 400 : Int) / 4 = year / 4 + era * 100 := by omega
    have h100 : (year + era * 400 : Int) / 100 = year / 100 + era * 4 := by omega
    have h400 : (year + era * 400 : Int) / 400 = era := by omega
    rw [yearStart, Int.add_sub_cancel, h4, h100, h400]
    omega

theorem dateOfDays_spec (days : Int) :
    IsDate (dateOfDays days) ∧ dayNumber (dateOfDays days) = days := by
  obtain ⟨year, day, hdate, hday, hleap, hdays⟩ := exists_marchDay days
  rw [hdate, hdays]
  exact ofMarchDay_spec hday hleap

/-! ## Times -/

/-- A date and time of day that is no leap second. -/
structure IsTime (t : CivilTime) : Prop where
  isDate : IsDate (t.year, t.month, t.day)
  hour_lt : t.hour < 24
  minute_lt : t.minute < 60
  second_lt : t.second < 60

/-- The seconds from the start of 1970 to a date and time of day. -/
def secondNumber (t : CivilTime) : Int :=
  dayNumber (t.year, t.month, t.day) * 86400 + t.hour * 3600 + t.minute * 60 + t.second

/-- The date and time of an instant are those of the calendar, and are as many seconds from 1970. -/
theorem ofInstant_spec {i : Instant} (h : i.nanos < 1000000000) :
    IsTime (ofInstant i) ∧ secondNumber (ofInstant i) = i.seconds := by
  obtain ⟨days, hdays⟩ : ∃ days, days = i.seconds.fdiv daySeconds := ⟨_, rfl⟩
  obtain ⟨rest, hrest⟩ : ∃ rest, rest = (i.seconds - days * daySeconds).toNat := ⟨_, rfl⟩
  have hsplit : i.seconds = days * 86400 + rest ∧ rest < 86400 := by
    rw [Int.fdiv_eq_ediv_of_nonneg _ (by decide)] at hdays
    unfold daySeconds at *
    omega
  have htime : ofInstant i = ⟨(dateOfDays days).1, (dateOfDays days).2.1, (dateOfDays days).2.2,
      rest / 3600, rest % 3600 / 60, rest % 60⟩ := by
    rw [ofInstant, ← hdays, ← hrest, Nat.div_eq_of_lt h, Nat.add_zero]
  obtain ⟨hdate, hnumber⟩ := dateOfDays_spec days
  rw [htime]
  refine ⟨⟨hdate, ?_, ?_, ?_⟩, ?_⟩
  · show rest / 3600 < 24
    omega
  · show rest % 3600 / 60 < 60
    omega
  · show rest % 60 < 60
    omega
  · show dayNumber (dateOfDays days) * 86400 + (rest / 3600 : Nat) * 3600 +
      (rest % 3600 / 60 : Nat) * 60 + (rest % 60 : Nat) = i.seconds
    omega

/-! ## Rows of digits -/

variable {t t' : CivilTime}

/-- The months, days, hours, minutes and seconds of a time have two digits. -/
theorem IsTime.lt_hundred (h : IsTime t) :
    t.month < 100 ∧ t.day < 100 ∧ t.hour < 100 ∧ t.minute < 100 ∧ t.second < 100 := by
  obtain ⟨⟨-, hmonth, -, hday⟩, hhour, hminute, hsecond⟩ := h
  have hmonths : ∀ month ≤ 12, ∀ leap, monthDays leap month < 100 := by decide
  have := hmonths _ hmonth (isLeap t.year)
  dsimp only at hmonth hday this
  omega

theorem toList_yearText {year : Int} (h0 : 0 ≤ year) (h9999 : year ≤ 9999) :
    (yearText year).toList = (Text.padded 4 year.toNat).toList := by
  rw [yearText, if_pos (by simp [h0, h9999])]

theorem length_digits (h : IsTime t) (h0 : 0 ≤ t.year) (h9999 : t.year ≤ 9999) :
    t.digits.toList.length = 14 := by
  obtain ⟨hmonth, hday, hhour, hminute, hsecond⟩ := h.lt_hundred
  have htwo {n : Nat} (hn : n < 100) := @Text.length_toList_padded 2 n (by decide) hn
  have hfour := @Text.length_toList_padded 4 t.year.toNat (by decide) (by omega)
  simp only [digits, String.toList_append, List.length_append, toList_yearText h0 h9999, hfour,
    htwo hmonth, htwo hday, htwo hhour, htwo hminute, htwo hsecond]

theorem mem_digits (h0 : 0 ≤ t.year) (h9999 : t.year ≤ 9999) {c : Char}
    (hc : c ∈ t.digits.toList) : Text.isAsciiDigit c = true := by
  simp only [digits, String.toList_append, List.mem_append, toList_yearText h0 h9999] at hc
  rcases hc with ((((h | h) | h) | h) | h) | h
  all_goals exact Text.mem_padded h

/-- A row of digits belongs to one time. -/
theorem digits_inj (h : IsTime t) (h' : IsTime t') (h0 : 0 ≤ t.year) (h9999 : t.year ≤ 9999)
    (h0' : 0 ≤ t'.year) (h9999' : t'.year ≤ 9999) (hdigits : t.digits = t'.digits) : t = t' := by
  have htwo {m n : Nat} (hm : m < 100) (hn : n < 100) :
      (Text.padded 2 m).toList.length = (Text.padded 2 n).toList.length := by
    rw [Text.length_toList_padded (by decide) hm, Text.length_toList_padded (by decide) hn]
  obtain ⟨hmonth, hday, hhour, hminute, hsecond⟩ := h.lt_hundred
  obtain ⟨hmonth', hday', hhour', hminute', hsecond'⟩ := h'.lt_hundred
  have hrow := congrArg String.toList hdigits
  simp only [digits, String.toList_append, toList_yearText h0 h9999,
    toList_yearText h0' h9999'] at hrow
  obtain ⟨hrow, esecond⟩ := List.append_inj' hrow (htwo hsecond hsecond')
  obtain ⟨hrow, eminute⟩ := List.append_inj' hrow (htwo hminute hminute')
  obtain ⟨hrow, ehour⟩ := List.append_inj' hrow (htwo hhour hhour')
  obtain ⟨hrow, eday⟩ := List.append_inj' hrow (htwo hday hday')
  obtain ⟨eyear, emonth⟩ := List.append_inj' hrow (htwo hmonth hmonth')
  have hyear : t.year = t'.year := by
    have := Text.padded_inj eyear
    omega
  obtain ⟨year, month, day, hour, minute, second⟩ := t
  obtain ⟨year', month', day', hour', minute', second'⟩ := t'
  rw [CivilTime.mk.injEq]
  exact ⟨hyear, Text.padded_inj emonth, Text.padded_inj eday, Text.padded_inj ehour,
    Text.padded_inj eminute, Text.padded_inj esecond⟩

end CivilTime

/-- An instant of the years 0 to 9999 that is in no leap second. -/
structure Instant.Plain (i : Instant) : Prop where
  nanos_lt : i.nanos < 1000000000
  year_nonneg : 0 ≤ (CivilTime.ofInstant i).year
  year_le : (CivilTime.ofInstant i).year ≤ 9999

/-- A row of digits belongs to one second. -/
theorem Instant.Plain.seconds_inj {i i' : Instant} (h : i.Plain) (h' : i'.Plain)
    (hdigits : (CivilTime.ofInstant i).digits = (CivilTime.ofInstant i').digits) :
    i.seconds = i'.seconds := by
  obtain ⟨htime, hseconds⟩ := CivilTime.ofInstant_spec h.nanos_lt
  obtain ⟨htime', hseconds'⟩ := CivilTime.ofInstant_spec h'.nanos_lt
  rw [← hseconds, ← hseconds', CivilTime.digits_inj htime htime' h.year_nonneg h.year_le
    h'.year_nonneg h'.year_le hdigits]

end Shipment
