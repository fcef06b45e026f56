import TieredMemory.Proofs.Calendar

/-!
# Dates of the calendar

A moment is *valid* if its month has the day that it names and its clock shows a time of day, in a year
of one to four digits. Months have the lengths of the calendar (`monthStart_succ_eq`), so that a day has
one date (`IsDateOf.unique`). Hence valid moments and dated times are the same: each is given back by the
other (`ofTime_toTime`, `isDated_iff`), and times are in the order of the fields of their moments
(`toTime_lt_iff`).
-/

namespace TieredMemory.Moment

/-- The year has a 29 February. -/
def IsLeap (year : Nat) : Prop := year % 4 = 0 ∧ (year % 100 ≠ 0 ∨ year % 400 = 0)

instance (year : Nat) : Decidable (IsLeap year) := inferInstanceAs (Decidable (_ ∧ _))

/-- The number of days of a month. -/
def daysIn (year month : Nat) : Nat :=
  if month = 2 then if IsLeap year then 29 else 28
  else if month = 4 ∨ month = 6 ∨ month = 9 ∨ month = 11 then 30 else 31

/-- A date and a time of day that there are, in one of the years 1 to 9999. -/
structure Valid (m : Moment) : Prop where
  year : 1 ≤ m.year ∧ m.year ≤ 9999
  month : 1 ≤ m.month ∧ m.month ≤ 12
  day : 1 ≤ m.day ∧ m.day ≤ daysIn m.year m.month
  hour : m.hour < 24
  minute : m.minute < 60
  second : m.second < 60
  micro : m.micro < 1000000

/-! ### Days of a month -/

/-- A month ends after its days. -/
theorem monthStart_succ_eq {year month : Nat} (h1 : 1 ≤ month) (h2 : month ≤ 12) :
    monthStart (monthIndex year month + 1) =
      monthStart (monthIndex year month) + daysIn year month := by
  obtain rfl | hne := eq_or_ne month 2
  · -- February is the last month of a year that begins in March
    have hindex : monthIndex year 2 = 12 * ((year : Int) - 1) + 11 := by
      unfold monthIndex
      omega
    have hnext : 12 * ((year : Int) - 1) + 11 + 1 = 12 * (year : Int) + 0 := by ring
    rw [hindex, hnext, monthStart_mul_add le_rfl (by omega), monthStart_mul_add (by omega) (by omega),
      daysIn, if_pos rfl]
    by_cases hleap : IsLeap year
    · rw [if_pos hleap]
      unfold IsLeap at hleap
      omega
    · rw [if_neg hleap]
      unfold IsLeap at hleap
      omega
  · obtain ⟨y, m, hindex, hm⟩ : ∃ y m : Int, monthIndex year month = 12 * y + m ∧
        (m = month - 3 ∧ 3 ≤ month ∨ m = 10 ∧ month = 1) := by
      rcases Nat.lt_or_ge month 3 with h | h
      · exact ⟨(year : Int) - 1, 10, by unfold monthIndex; omega, .inr ⟨rfl, by omega⟩⟩
      · exact ⟨year, (month : Int) - 3, by unfold monthIndex; omega, .inl ⟨rfl, h⟩⟩
    rw [hindex, add_assoc, monthStart_mul_add (by omega) (by omega),
      monthStart_mul_add (by omega) (by omega), daysIn, if_neg hne]
    clear hindex
    interval_cases month <;> simp only [Nat.reduceEqDiff, or_false, false_or, if_true, if_false] <;>
      omega

theorem isDateOf_dayNumber {year month day : Nat} (hmonth : 1 ≤ month ∧ month ≤ 12)
    (hday : 1 ≤ day ∧ day ≤ daysIn year month) :
    IsDateOf (dayNumber year month day) (year, month, day) where
  month := hmonth
  start := (dayNumber_eq hmonth.1 hmonth.2).symm
  first := hday.1
  last := by
    rw [dayNumber_eq hmonth.1 hmonth.2, monthStart_succ_eq hmonth.1 hmonth.2]
    omega

/-- A day has one date. -/
theorem IsDateOf.unique {n : Int} {date date' : Int × Nat × Nat} (h : IsDateOf n date)
    (h' : IsDateOf n date') : date = date' := by
  have hmonth : monthIndex date.1 date.2.1 = monthIndex date'.1 date'.2.1 := by
    rcases lt_trichotomy (monthIndex date.1 date.2.1) (monthIndex date'.1 date'.2.1) with hlt | he | hlt
    · exact absurd (h.lt h' (.inl hlt)) (lt_irrefl n)
    · exact he
    · exact absurd (h'.lt h (.inl hlt)) (lt_irrefl n)
  have hstart := h.start
  have hstart' := h'.start
  have hbounds := h.month
  have hbounds' := h'.month
  rw [hmonth] at hstart
  unfold monthIndex at hmonth
  refine Prod.ext ?_ (Prod.ext ?_ ?_) <;> omega

/-! ### Valid moments and dated times -/

variable {a b m : Moment} {t : Time}

theorem Valid.daysIn_le (h : m.Valid) : m.day ≤ 31 := by
  have hday := h.day.2
  unfold daysIn at hday
  split at hday <;> split at hday <;> omega

theorem Valid.fits (h : m.Valid) : m.Fits := by
  have hyear := h.year
  have hmonth := h.month
  have hday := h.daysIn_le
  have hhour := h.hour
  have hminute := h.minute
  have hsecond := h.second
  have hmicro := h.micro
  constructor <;> omega

/-- A valid moment is given back by its time. -/
theorem ofTime_toTime (h : m.Valid) : ofTime m.toTime = m := by
  obtain ⟨t, ht⟩ : ∃ t : Int, t = m.toTime := ⟨_, rfl⟩
  obtain ⟨n, hn⟩ : ∃ n, n = dayNumber m.year m.month m.day := ⟨_, rfl⟩
  obtain ⟨clock, hclock⟩ :
      ∃ clock, clock = ((m.hour * 60 + m.minute) * 60 + m.second) * 1000000 + m.micro := ⟨_, rfl⟩
  have hhour := h.hour
  have hminute := h.minute
  have hsecond := h.second
  have hmicro := h.micro
  have htime : t + origin = n * dayLength + (clock : Int) := by
    rw [ht, Moment.toTime, ← hn, ← hclock]
    ring
  have hday : (t + origin) / dayLength = n := by
    rw [htime]
    unfold dayLength
    omega
  have hrest : ((t + origin) % dayLength).toNat = clock := by
    rw [htime]
    unfold dayLength
    omega
  have hdate : ofDayNumber n = ((m.year : Int), m.month, m.day) :=
    (ofDayNumber_isDateOf n).unique (hn ▸ isDateOf_dayNumber h.month h.day)
  rw [← ht, ofTime]
  simp only [hday, hrest, hdate, Int.toNat_natCast]
  obtain ⟨year, month, day, hour, minute, second, micro⟩ := m
  simp only [mk.injEq, true_and] at hclock hhour hminute hsecond hmicro ⊢
  omega

theorem Valid.isDated (h : m.Valid) : IsDated m.toTime := by
  unfold IsDated
  rw [ofTime_toTime h]
  exact h.year

/-- The moment of a dated time is valid. -/
theorem valid_ofTime (h : IsDated t) : (ofTime t).Valid := by
  obtain ⟨n, rest, hm⟩ := isMomentOf_ofTime h
  refine ⟨h, hm.date.month, ⟨hm.date.first, ?_⟩, hm.hour, hm.minute, hm.second, hm.micro⟩
  have hmonth := hm.date.month
  have hstart := hm.date.start
  have hlast := hm.date.last
  simp only at hmonth hstart hlast
  rw [monthStart_succ_eq hmonth.1 hmonth.2] at hlast
  omega

/-- The dated times are those of valid moments. -/
theorem isDated_iff : IsDated t ↔ ∃ m : Moment, m.Valid ∧ m.toTime = t := by
  constructor
  · exact fun h => ⟨ofTime t, valid_ofTime h, toTime_ofTime h⟩
  · rintro ⟨m, hm, rfl⟩
    exact hm.isDated

/-- Times are in the order of the fields of their moments. -/
theorem toTime_lt_iff (ha : a.Valid) (hb : b.Valid) :
    a.toTime < b.toTime ↔ a.fields < b.fields := by
  rw [← fields_lt_iff ha.isDated hb.isDated, ofTime_toTime ha, ofTime_toTime hb]

end TieredMemory.Moment
