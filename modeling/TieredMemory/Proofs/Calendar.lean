import Mathlib
import TieredMemory.Calendar
import TieredMemory.Proofs.Text.Digits

/-!
# The calendar and the stored text of a time

Days are counted by months that begin in March (`monthStart`), and every day lies in the month that
its date names (`ofDayNumber_isDateOf`). Hence a time with a year of at most four digits is given back
by its moment (`toTime_ofTime`), and by the stored text of it (`ofStored?_stored`); and the texts are
in the order of the times (`stored_lt_iff`), although the fraction is only there when there are
microseconds.
-/

namespace TieredMemory.Moment

open Text

/-! ### Months and days -/

/-- Days from 1 March of the year 0 to the first day of a month, months counted from that March. -/
def monthStart (k : Int) : Int :=
  365 * (k / 12) + k / 12 / 4 - k / 12 / 100 + k / 12 / 400 + (153 * (k % 12) + 2) / 5

theorem monthStart_mul_add {y m : Int} (h0 : 0 ≤ m) (h1 : m < 12) :
    monthStart (12 * y + m) = 365 * y + y / 4 - y / 100 + y / 400 + (153 * m + 2) / 5 := by
  have hy : (12 * y + m) / 12 = y := by omega
  have hm : (12 * y + m) % 12 = m := by omega
  rw [monthStart, hy, hm]

/-- A month has 28 to 31 days. -/
theorem monthStart_succ (k : Int) :
    monthStart k + 28 ≤ monthStart (k + 1) ∧ monthStart (k + 1) ≤ monthStart k + 31 := by
  obtain ⟨y, m, rfl, h0, h1⟩ : ∃ y m : Int, k = 12 * y + m ∧ 0 ≤ m ∧ m < 12 :=
    ⟨k / 12, k % 12, by omega, by omega, by omega⟩
  rw [monthStart_mul_add h0 h1]
  obtain h | rfl : m < 11 ∨ m = 11 := by omega
  · rw [show 12 * y + m + 1 = 12 * y + (m + 1) by ring, monthStart_mul_add (by omega) (by omega)]
    omega
  · rw [show 12 * y + 11 + 1 = 12 * (y + 1) + 0 by ring, monthStart_mul_add le_rfl (by omega)]
    omega

theorem monthStart_strictMono : StrictMono monthStart :=
  strictMono_int_of_lt_succ fun k => by
    have := (monthStart_succ k).1
    omega

/-- The number of the month of a date. -/
def monthIndex (year : Int) (month : Nat) : Int := 12 * year + month - 3

theorem dayNumber_eq {year month day : Nat} (h1 : 1 ≤ month) (h2 : month ≤ 12) :
    dayNumber year month day = monthStart (monthIndex year month) + day - 1 := by
  obtain ⟨y, m, hk, hy, hm, hm'⟩ : ∃ y m : Int, monthIndex year month = 12 * y + m ∧
      y = (year : Int) - (if month ≤ 2 then 1 else 0) ∧ 0 ≤ m ∧ m < 12 :=
    ⟨_, ((month : Int) + 9) % 12, by unfold monthIndex; split <;> omega, rfl, by omega, by omega⟩
  have hm9 : ((month : Int) + 9) % 12 = m := by
    unfold monthIndex at hk
    split at hy <;> omega
  rw [hk, monthStart_mul_add hm hm', dayNumber, ← hy, hm9]

/-- A day of 400 years by century, cycle of four years, year of the cycle and day of the year. -/
structure DayParts (e c q u t : Int) : Prop where
  eq : e = 36524 * c + 1461 * q + 365 * u + t
  century : 0 ≤ c ∧ c < 4
  cycle : 0 ≤ q ∧ q < 25
  year : 0 ≤ u ∧ u < 4
  day : 0 ≤ t ∧ t < 366
  leap : t = 365 → u = 3 ∧ (q < 24 ∨ c = 3)

theorem exists_dayParts {e : Int} (h0 : 0 ≤ e) (h1 : e < 146097) :
    ∃ c q u t, DayParts e c q u t := by
  obtain rfl | hlt : e = 146096 ∨ e < 146096 := by omega
  · exact ⟨3, 24, 3, 365, by constructor <;> decide⟩
  obtain ⟨c, r, rfl, hc, hr⟩ :
      ∃ c r : Int, e = 36524 * c + r ∧ (0 ≤ c ∧ c < 4) ∧ (0 ≤ r ∧ r < 36524) :=
    ⟨e / 36524, e % 36524, by omega, by omega, by omega⟩
  obtain ⟨q, s, rfl, hq, hs⟩ :
      ∃ q s : Int, r = 1461 * q + s ∧ (0 ≤ q ∧ q < 25) ∧ (0 ≤ s ∧ s < 1461) :=
    ⟨r / 1461, r % 1461, by omega, by omega, by omega⟩
  obtain rfl | hs' : s = 1460 ∨ s < 1460 := by omega
  · exact ⟨c, q, 3, 365, by constructor <;> omega⟩
  · exact ⟨c, q, s / 365, s % 365, by constructor <;> omega⟩

/-- The year of a day of 400 years. -/
theorem DayParts.yearOf {e c q u t : Int} (h : DayParts e c q u t) :
    (e - e / 1460 + e / 36524 - e / 146096) / 365 = 100 * c + 4 * q + u := by
  obtain ⟨he, hc, hq, hu, ht, hl⟩ := h
  -- the last day alone lies beyond the fourth century, where the last divisor makes up for it
  have hcentury : e / 36524 - e / 146096 = c := by
    obtain hlast | hlast : e = 146096 ∨ e < 146096 := by omega
    · have h3 : c = 3 := by omega
      rw [hlast, h3]
      decide
    · have hrest : 1461 * q + 365 * u + t < 36524 := by omega
      omega
  obtain ⟨k, hk⟩ : ∃ k, k = (24 * c + q + 365 * u + t) / 1460 := ⟨_, rfl⟩
  have hcycle : e / 1460 = 25 * c + q + k := by omega
  have hdays : e - e / 1460 + e / 36524 - e / 146096 = 365 * (100 * c + 4 * q + u) + (t - k) := by
    omega
  rw [hdays]
  omega

/-- A day of 400 years lies in its year. -/
theorem yearOf_bounds {e y : Int} (h0 : 0 ≤ e) (h1 : e < 146097)
    (hy : y = (e - e / 1460 + e / 36524 - e / 146096) / 365) :
    (0 ≤ y ∧ y < 400) ∧ 365 * y + y / 4 - y / 100 ≤ e ∧
      e < 365 * (y + 1) + (y + 1) / 4 - (y + 1) / 100 + (y + 1) / 400 := by
  obtain ⟨c, q, u, t, h⟩ := exists_dayParts h0 h1
  rw [h.yearOf] at hy
  obtain ⟨rfl, hc, hq, hu, ht, hl⟩ := h
  have h4 : y / 4 = 25 * c + q := by omega
  have h100 : y / 100 = c := by omega
  have h400 : 0 ≤ (y + 1) / 400 := by omega
  refine ⟨by omega, by omega, ?_⟩
  rcases lt_or_ge u 3 with h3 | h3
  · have h4' : (y + 1) / 4 = 25 * c + q := by omega
    have h100' : (y + 1) / 100 = c := by omega
    omega
  · obtain rfl : u = 3 := by omega
    have h4' : (y + 1) / 4 = 25 * c + q + 1 := by omega
    rcases lt_or_ge q 24 with hq' | hq'
    · have h100' : (y + 1) / 100 = c := by omega
      omega
    · have h100' : (y + 1) / 100 = c + 1 := by omega
      have h400' : c = 3 → (y + 1) / 400 = 1 := by omega
      omega

/-- A date names the month that a day lies in, and the day of that month. -/
structure IsDateOf (n : Int) (date : Int × Nat × Nat) : Prop where
  month : 1 ≤ date.2.1 ∧ date.2.1 ≤ 12
  start : monthStart (monthIndex date.1 date.2.1) + date.2.2 - 1 = n
  first : 1 ≤ date.2.2
  last : n < monthStart (monthIndex date.1 date.2.1 + 1)

/-- The date of a day by era, year of the era, day of that year and month of that year. -/
theorem isDateOf_parts {n era e y d m : Int} (hn : 146097 * era + e = n) (hy : 0 ≤ y ∧ y < 400)
    (hd : d = e - (365 * y + y / 4 - y / 100)) (hd0 : 0 ≤ d)
    (hlast : e < 365 * (y + 1) + (y + 1) / 4 - (y + 1) / 100 + (y + 1) / 400)
    (hm : m = (5 * d + 2) / 153) :
    IsDateOf n (y + era * 400 + (if (if m < 10 then m + 3 else m - 9) ≤ 2 then 1 else 0),
      (if m < 10 then m + 3 else m - 9).toNat, (d - (153 * m + 2) / 5 + 1).toNat) := by
  have hm0 : 0 ≤ m ∧ m < 12 := by omega
  have hday : (153 * m + 2) / 5 ≤ d := by omega
  obtain ⟨y', hy'⟩ : ∃ y', y' = y + era * 400 := ⟨_, rfl⟩
  have hindex : monthIndex
      (y + era * 400 + (if (if m < 10 then m + 3 else m - 9) ≤ 2 then 1 else 0))
      (if m < 10 then m + 3 else m - 9).toNat = 12 * y' + m := by
    unfold monthIndex
    rcases lt_or_ge m 10 with h | h
    · rw [if_pos h]
      omega
    · rw [if_neg (Int.not_lt.2 h)]
      omega
  have h4 : y' / 4 = y / 4 + 100 * era := by omega
  have h100 : y' / 100 = y / 100 + 4 * era := by omega
  have h400 : y' / 400 = era := by omega
  have hstart : monthStart (12 * y' + m) + d - (153 * m + 2) / 5 = n := by
    rw [monthStart_mul_add hm0.1 hm0.2]
    omega
  refine ⟨?_, ?_, ?_, ?_⟩
  · show 1 ≤ (if m < 10 then m + 3 else m - 9).toNat ∧ (if m < 10 then m + 3 else m - 9).toNat ≤ 12
    split <;> omega
  · show monthStart (monthIndex _ _) + ((d - (153 * m + 2) / 5 + 1).toNat : Int) - 1 = n
    rw [hindex]
    omega
  · show 1 ≤ (d - (153 * m + 2) / 5 + 1).toNat
    omega
  · show n < monthStart (monthIndex _ _ + 1)
    rw [hindex]
    -- the last month of the year ends with the year
    rcases lt_or_ge m 11 with h | h
    · rw [show 12 * y' + m + 1 = 12 * y' + (m + 1) by ring,
        monthStart_mul_add (by omega) (by omega)]
      rw [monthStart_mul_add hm0.1 hm0.2] at hstart
      omega
    · obtain rfl : m = 11 := by omega
      rw [show 12 * y' + 11 + 1 = 12 * (y' + 1) + 0 by ring, monthStart_mul_add le_rfl (by omega)]
      have h4' : (y' + 1) / 4 = (y + 1) / 4 + 100 * era := by omega
      have h100' : (y' + 1) / 100 = (y + 1) / 100 + 4 * era := by omega
      have h400' : (y' + 1) / 400 = (y + 1) / 400 + era := by omega
      omega

theorem ofDayNumber_isDateOf (n : Int) : IsDateOf n (ofDayNumber n) := by
  obtain ⟨hy, hlow, hhigh⟩ := yearOf_bounds (e := n % 146097) (by omega) (by omega) rfl
  exact isDateOf_parts (Int.mul_ediv_add_emod n 146097) hy rfl (by omega) hhigh rfl

/-- The days of a month have two digits at most. -/
theorem IsDateOf.day_le {n : Int} {date : Int × Nat × Nat} (h : IsDateOf n date) :
    date.2.2 ≤ 31 := by
  have := (monthStart_succ (monthIndex date.1 date.2.1)).2
  have := h.start
  have := h.last
  omega

/-- A day in an earlier month, or earlier in the same month, is an earlier day. -/
theorem IsDateOf.lt {n n' : Int} {date date' : Int × Nat × Nat} (h : IsDateOf n date)
    (h' : IsDateOf n' date')
    (hlt : monthIndex date.1 date.2.1 < monthIndex date'.1 date'.2.1 ∨
      monthIndex date.1 date.2.1 = monthIndex date'.1 date'.2.1 ∧ date.2.2 < date'.2.2) :
    n < n' := by
  have hstart := h'.start
  rcases hlt with hmonth | ⟨hmonth, hday⟩
  · have hle := monthStart_strictMono.monotone (Int.add_one_le_of_lt hmonth)
    have hlast := h.last
    have hfirst := h'.first
    omega
  · have := h.start
    rw [hmonth] at this
    omega

/-! ### Moments -/

/-- The time has a year from 1 to 9999. -/
def IsDated (t : Time) : Prop := 1 ≤ (ofTime t).year ∧ (ofTime t).year ≤ 9999

instance (t : Time) : Decidable (IsDated t) := inferInstanceAs (Decidable (_ ∧ _))

/-- The fields, the greatest first. -/
def fields (m : Moment) : List Nat := [m.year, m.month, m.day, m.hour, m.minute, m.second, m.micro]

/-- Every field has a value that its width has room for. -/
structure Fits (m : Moment) : Prop where
  year : m.year < 10 ^ 4
  month : m.month < 10 ^ 2
  day : m.day < 10 ^ 2
  hour : m.hour < 10 ^ 2
  minute : m.minute < 10 ^ 2
  second : m.second < 10 ^ 2
  micro : m.micro < 10 ^ 6

/-- What the fields of the moment of a time say of the time: the day that it lies in, and the
microseconds from its midnight. -/
structure IsMomentOf (t : Int) (m : Moment) (n rest : Int) : Prop where
  time : n * dayLength + rest - origin = t
  date : IsDateOf n (m.year, m.month, m.day)
  clock : (((m.hour * 60 + m.minute) * 60 + m.second) * 1000000 + m.micro : Nat) = rest
  hour : m.hour < 24
  minute : m.minute < 60
  second : m.second < 60
  micro : m.micro < 1000000

theorem isMomentOf_ofTime {t : Int} (h : IsDated t) :
    ∃ n rest, IsMomentOf t (ofTime t) n rest := by
  obtain ⟨n, hn⟩ : ∃ n, n = (t + origin) / dayLength := ⟨_, rfl⟩
  obtain ⟨rest, hrest⟩ : ∃ rest, rest = ((t + origin) % dayLength).toNat := ⟨_, rfl⟩
  have hm : ofTime t = ⟨(ofDayNumber n).1.toNat, (ofDayNumber n).2.1, (ofDayNumber n).2.2,
      rest / 3600000000, rest / 60000000 % 60, rest / 1000000 % 60, rest % 1000000⟩ := by
    rw [hn, hrest]
    rfl
  have hlt : rest < 86400000000 := by
    unfold dayLength at hrest
    omega
  have hyear : (((ofDayNumber n).1.toNat : Nat) : Int) = (ofDayNumber n).1 := by
    have := h.1
    rw [hm] at this
    simp only at this
    omega
  have hdate := ofDayNumber_isDateOf n
  refine ⟨n, rest, ?_⟩
  rw [hm]
  refine ⟨?_, ?_, ?_, ?_, ?_, ?_, ?_⟩
  · unfold dayLength at hn hrest ⊢
    omega
  · simpa only [hyear] using hdate
  all_goals simp only
  · omega
  all_goals omega

variable {s t : Int} {a b m : Moment} {n n' rest rest' : Int}

theorem IsMomentOf.toTime (h : IsMomentOf t m n rest) : m.toTime = t := by
  obtain ⟨h1, h2⟩ := h.date.month
  have hday := h.date.start
  simp only at h1 h2 hday
  rw [Moment.toTime, dayNumber_eq h1 h2, hday, h.clock, h.time]

/-- Reading the fields of a time gives the time back. -/
theorem toTime_ofTime (h : IsDated t) : (ofTime t).toTime = t := by
  obtain ⟨n, rest, hm⟩ := isMomentOf_ofTime h
  exact hm.toTime

theorem fits_ofTime (h : IsDated t) : (ofTime t).Fits := by
  obtain ⟨n, rest, hm⟩ := isMomentOf_ofTime h
  have hmonth := hm.date.month
  have hday := hm.date.day_le
  have hhour := hm.hour
  have hminute := hm.minute
  have hsecond := hm.second
  have hmicro := hm.micro
  have hyear := h.2
  simp only at hmonth hday
  constructor <;> omega

theorem IsMomentOf.rest_bounds (h : IsMomentOf t m n rest) : 0 ≤ rest ∧ rest < dayLength := by
  have hclock := h.clock
  have hhour := h.hour
  have hminute := h.minute
  have hsecond := h.second
  have hmicro := h.micro
  unfold dayLength
  omega

/-- An earlier day is an earlier time. -/
theorem IsMomentOf.lt_of_day_lt (h : IsMomentOf s a n rest) (h' : IsMomentOf t b n' rest')
    (hlt : n < n') : s < t := by
  have hs := h.time
  have ht := h'.time
  have hrest := h.rest_bounds
  have hrest' := h'.rest_bounds
  unfold dayLength at *
  omega

/-- Fields in order are times in order. -/
theorem IsMomentOf.lt (h : IsMomentOf s a n rest) (h' : IsMomentOf t b n' rest')
    (hlt : a.fields < b.fields) : s < t := by
  have hmonth := h.date.month
  have hmonth' := h'.date.month
  simp only at hmonth hmonth'
  simp only [fields, List.cons_lt_cons_iff, List.lt_irrefl, and_false, or_false] at hlt
  rcases hlt with hyear | ⟨hyear, hmon | ⟨hmon, hday | ⟨hday, hclock⟩⟩⟩
  · refine h.lt_of_day_lt h' (h.date.lt h'.date (.inl ?_))
    simp only [monthIndex]
    omega
  · refine h.lt_of_day_lt h' (h.date.lt h'.date (.inl ?_))
    simp only [monthIndex]
    omega
  · refine h.lt_of_day_lt h' (h.date.lt h'.date (.inr ⟨?_, hday⟩))
    simp only [hyear, hmon]
  · -- on the same day the clocks decide
    have hn : n = n' := by
      rw [← h.date.start, ← h'.date.start]
      simp only [hyear, hmon, hday]
    have hs := h.time
    have ht := h'.time
    have hc := h.clock
    have hc' := h'.clock
    have hbounds := And.intro h.minute (And.intro h.second h.micro)
    have hbounds' := And.intro h'.minute (And.intro h'.second h'.micro)
    have hrest : rest < rest' := by
      clear hs ht
      omega
    rw [hn] at hs
    omega

/-- Times are in the order of their fields. -/
theorem fields_lt_iff (hs : IsDated s) (ht : IsDated t) :
    (ofTime s).fields < (ofTime t).fields ↔ s < t := by
  obtain ⟨n, rest, h⟩ := isMomentOf_ofTime hs
  obtain ⟨n', rest', h'⟩ := isMomentOf_ofTime ht
  refine ⟨h.lt h', fun hlt => ?_⟩
  rcases lt_trichotomy (ofTime s).fields (ofTime t).fields with hf | hf | hf
  · exact hf
  · have : ofTime s = ofTime t := by
      cases hm : ofTime s
      cases hm' : ofTime t
      simpa [hm, hm', fields] using hf
    rw [← toTime_ofTime hs, ← toTime_ofTime ht, this] at hlt
    omega
  · have := h'.lt h hf
    omega

/-! ### The stored text -/

/-- The characters of the fraction. -/
def storedFraction (micro : Nat) : List Char :=
  if micro = 0 then [] else '.' :: fixedDigits 10 6 micro

theorem stored_toList (h : m.Fits) :
    m.stored.toList = fixedDigits 10 4 m.year ++ '-' :: (fixedDigits 10 2 m.month ++
      '-' :: (fixedDigits 10 2 m.day ++ 'T' :: (fixedDigits 10 2 m.hour ++
        ':' :: (fixedDigits 10 2 m.minute ++ ':' :: (fixedDigits 10 2 m.second ++
          storedFraction m.micro))))) := by
  have toString_text (s : String) : toString s = s := rfl
  have hfraction : (if m.micro == 0 then "" else "." ++ Decimal.padded 6 m.micro).toList =
      storedFraction m.micro := by
    unfold storedFraction
    by_cases hz : m.micro = 0
    · simp [hz]
    · simp [hz, padded_toList (by omega : 0 < 6) h.micro]
  simp only [stored, toString_text, String.toList_append, hfraction,
    padded_toList (by omega : 0 < 4) h.year, padded_toList (by omega : 0 < 2) h.month,
    padded_toList (by omega : 0 < 2) h.day, padded_toList (by omega : 0 < 2) h.hour,
    padded_toList (by omega : 0 < 2) h.minute, padded_toList (by omega : 0 < 2) h.second]
  simp

theorem storedFraction_lt_iff {i j : Nat} (hi : i < 10 ^ 6) (hj : j < 10 ^ 6) :
    storedFraction i < storedFraction j ↔ i < j := by
  unfold storedFraction
  split
  · split
    · simp_all
    · simp only [List.nil_lt_cons, true_iff]
      omega
  · split
    · simp_all
    · simp [fixedDigits_lt_iff hi hj]

/-- Stored texts are in the order of the fields. -/
theorem stored_lt_iff_fields_lt (ha : a.Fits) (hb : b.Fits) :
    a.stored < b.stored ↔ a.fields < b.fields := by
  show a.stored.toList < b.stored.toList ↔ _
  rw [stored_toList ha, stored_toList hb]
  simp only [List.cons_lt_cons_iff, fixedDigits_append_lt_iff ha.year hb.year,
    fixedDigits_append_lt_iff ha.month hb.month, fixedDigits_append_lt_iff ha.day hb.day,
    fixedDigits_append_lt_iff ha.hour hb.hour, fixedDigits_append_lt_iff ha.minute hb.minute,
    fixedDigits_append_lt_iff ha.second hb.second, storedFraction_lt_iff ha.micro hb.micro,
    fields, Char.lt_irrefl, true_and, false_or, List.lt_irrefl, and_false, or_false]

/-- Stored texts of times are in the order of the times. -/
theorem stored_lt_iff (hs : IsDated s) (ht : IsDated t) :
    (ofTime s).stored < (ofTime t).stored ↔ s < t :=
  (stored_lt_iff_fields_lt (fits_ofTime hs) (fits_ofTime ht)).trans (fields_lt_iff hs ht)

theorem number?_fixedDigits {width i : Nat} (hw : 0 < width) (hi : i < 10 ^ width) :
    number? (fixedDigits 10 width i) = some i := by
  have hall : (fixedDigits 10 width i).all Char.isDigit = true :=
    List.all_eq_true.2 (isDigit_fixedDigits hi)
  have hne : (fixedDigits 10 width i).isEmpty = false := by
    rw [List.isEmpty_eq_false_iff, ← List.length_pos_iff, length_fixedDigits]
    exact hw
  simp [number?, hall, hne, value_fixedDigits hi]

/-- A stored text gives its moment back. -/
theorem ofStored?_stored (h : m.Fits) : ofStored? m.stored = some m := by
  have hyear := number?_fixedDigits (by omega) h.year
  have hmonth := number?_fixedDigits (by omega) h.month
  have hday := number?_fixedDigits (by omega) h.day
  have hhour := number?_fixedDigits (by omega) h.hour
  have hminute := number?_fixedDigits (by omega) h.minute
  have hsecond := number?_fixedDigits (by omega) h.second
  have hmicro := number?_fixedDigits (by omega) h.micro
  rw [ofStored?, stored_toList h]
  by_cases hz : m.micro = 0
  · simp only [storedFraction, hz, if_true, fixedDigits, List.cons_append, List.nil_append,
      List.append_nil] at hyear hmonth hday hhour hminute hsecond ⊢
    simp only [hyear, hmonth, hday, hhour, hminute, hsecond, bind, Option.bind_some]
    rw [← hz]
  · simp only [storedFraction, hz, if_false, fixedDigits, List.cons_append, List.nil_append]
      at hyear hmonth hday hhour hminute hsecond hmicro ⊢
    simp only [hyear, hmonth, hday, hhour, hminute, hsecond, hmicro, bind, Option.bind_some,
      List.length_cons, List.length_nil, BEq.rfl, if_true, Option.map_some]

/-- A stored time is read back. -/
theorem time_ofStored?_stored (h : IsDated t) :
    ((ofStored? (ofTime t).stored).map toTime).getD 0 = t := by
  rw [ofStored?_stored (fits_ofTime h), Option.map_some, Option.getD_some, toTime_ofTime h]

end TieredMemory.Moment
