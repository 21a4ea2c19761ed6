import TwinVoice.Nlu.Slots

/-! # Buckets of time

The buckets of one unit follow each other without a gap, months of any length
among them, and the one at offset 0 has the present in it. A shift is taken to
be eight hours from midnight on, so the present is in it until eight. -/

namespace TwinVoice.Nlu

/-! ## Months -/

/-- Where a count that starts anew at every `n` is at zero, it was at `n - 1` before. -/
theorem emod_pred {z n : Int} (hn : 0 < n) : (z - 1) % n = if z % n = 0 then n - 1 else z % n - 1 := by
  have hlow : 0 ≤ z % n := Int.emod_nonneg z hn.ne'
  have hhigh : z % n < n := Int.emod_lt_of_pos z hn
  have hsame : (z - 1) % n = (z % n - 1) % n := by rw [Int.sub_emod z 1, Int.sub_emod (z % n) 1, Int.emod_emod]
  rw [hsame]
  split
  · rename_i hzero
    have hback : z % n - 1 = n - 1 - n := by omega
    rw [hback, Int.sub_emod_right, Int.emod_eq_of_lt (by omega) (by omega)]
  · rw [Int.emod_eq_of_lt (by omega) (by omega)]

/-- The day before a shifted year begins is the last one of a year. -/
theorem dayOfShiftedYear_last {day : Int} (h : dayOfShiftedYear day = 0) :
    dayOfShiftedYear (day - 1) = 364 ∨ dayOfShiftedYear (day - 1) = 365 := by
  simp only [dayOfShiftedYear] at h ⊢
  have hera : (day - 1 + 719468) % 146097 =
      if (day + 719468) % 146097 = 0 then 146096 else (day + 719468) % 146097 - 1 := by
    rw [sub_add_eq_add_sub]
    exact emod_pred (n := 146097) (by decide)
  have hbound : (day + 719468) % 146097 < 146097 := Int.emod_lt_of_pos _ (by decide)
  have hnonneg : 0 ≤ (day + 719468) % 146097 := Int.emod_nonneg _ (by decide)
  rw [hera]
  generalize (day + 719468) % 146097 = dayOfEra at h hbound hnonneg
  split
  · exact .inr (by decide)
  rename_i hsecond
  generalize hcentury : dayOfEra - 36524 * min (dayOfEra / 36524) 3 = dayOfCentury at h
  have hlast : dayOfEra - 1 - 36524 * min ((dayOfEra - 1) / 36524) 3 =
      if dayOfCentury = 0 then 36523 else dayOfCentury - 1 := by
    split <;> omega
  rw [hlast]
  split
  · exact .inl (by decide)
  rw [emod_pred (by decide)]
  generalize dayOfCentury % 1461 = dayOfQuartet at h
  split
  · exact .inr (by decide)
  · omega

/-- A month is at least 28 days long. -/
theorem dayOfMonth_last {day : Int} (h : dayOfMonth day = 1) : 28 ≤ dayOfMonth (day - 1) := by
  have hnonneg := dayOfShiftedYear_nonneg day
  have hfirst (n m : Int) (hn : n = 364 ∨ n = 365) (hm : m = (5 * n + 2) / 153) :
      28 ≤ n - (153 * m + 2) / 5 + 1 := by
    omega
  have hlater (n : Int) (hn : 1 ≤ n) (hone : n - (153 * ((5 * n + 2) / 153) + 2) / 5 + 1 = 1) :
      28 ≤ n - 1 - (153 * ((5 * (n - 1) + 2) / 153) + 2) / 5 + 1 := by
    have hmonth : (5 * (n - 1) + 2) / 153 = (5 * n + 2) / 153 - 1 := by omega
    omega
  by_cases hyear : dayOfShiftedYear day = 0
  · exact hfirst _ _ (dayOfShiftedYear_last hyear) rfl
  · have hback := @dayOfShiftedYear_back day 1 (by decide) (by omega)
    have hmonth := hlater (dayOfShiftedYear day) (by omega) h
    rwa [← hback] at hmonth

/-- Four weeks on from its first day, a month is still the same. -/
theorem dayOfMonth_after {day j : Int} (h : dayOfMonth day = 1) (hj : 0 ≤ j) (hle : j ≤ 27) :
    dayOfMonth (day + j) = 1 + j := by
  obtain ⟨hlow, -⟩ := dayOfMonth_bounds (day + j)
  by_cases hwithin : j < dayOfMonth (day + j)
  · have hback := dayOfMonth_back hj hwithin
    rw [add_sub_cancel_right, h] at hback
    omega
  -- another month would begin within 28 days of this one's first
  let next := day + j - (dayOfMonth (day + j) - 1)
  have hnext : dayOfMonth next = 1 := dayOfMonth_first (day + j)
  have hlast : 28 ≤ dayOfMonth (next - 1) := dayOfMonth_last hnext
  have hback : dayOfMonth (next - 1 - (next - 1 - day)) = dayOfMonth (next - 1) - (next - 1 - day) :=
    dayOfMonth_back (by omega) (by omega)
  rw [sub_sub_cancel, h] at hback
  omega

/-- No month begins after the first of a day's month and up to the day. -/
theorem no_first_between {day first : Int} (hfirst : dayOfMonth first = 1) (hle : first ≤ day) :
    first ≤ day - (dayOfMonth day - 1) := by
  by_contra hlater
  have hback : dayOfMonth (day - (day - first)) = dayOfMonth day - (day - first) :=
    dayOfMonth_back (by omega) (by omega)
  rw [sub_sub_cancel, hfirst] at hback
  omega

/-! ## Midnights -/

theorem midnight_day (day : Int) : day * dayMicros / dayMicros = day := Int.mul_ediv_cancel day (by decide)

theorem replaceDay_midnight (day d : Int) :
    replaceDay (day * dayMicros) d = (day + (d - dayOfMonth day)) * dayMicros := by
  unfold replaceDay
  rw [midnight_day, ← add_mul]

theorem midnightOf_eq (now : Instant) : midnightOf now = now / dayMicros * dayMicros := by
  have hsplit := Int.mul_ediv_add_emod now dayMicros
  rw [mul_comm] at hsplit
  exact sub_eq_of_eq_add hsplit.symm

/-- The midnight with which a month begins. -/
structure MonthStart (t : Instant) : Prop where
  midnight : t / dayMicros * dayMicros = t
  first : OnFirst t

theorem monthStart_replaceDay (day : Int) : MonthStart (replaceDay (day * dayMicros) 1) := by
  refine ⟨?_, onFirst_replaceDay _⟩
  rw [replaceDay_midnight, midnight_day]

namespace MonthStart

variable {t : Instant}

theorem dvd (h : MonthStart t) : dayMicros ∣ t := ⟨t / dayMicros, by rw [mul_comm, h.midnight]⟩

theorem dayOfMonth_eq (h : MonthStart t) : dayOfMonth (t / dayMicros) = 1 := h.first

theorem previousMonth_eq (h : MonthStart t) :
    previousMonth t = (t / dayMicros - dayOfMonth (t / dayMicros - 1)) * dayMicros := by
  have hback : t - dayMicros = (t / dayMicros - 1) * dayMicros := by rw [sub_one_mul, h.midnight]
  have hday (n d : Int) : n - 1 + (1 - d) = n - d := by omega
  rw [previousMonth, hback, replaceDay_midnight, hday]

theorem nextMonth_eq (h : MonthStart t) :
    nextMonth t = (t / dayMicros + 32 - dayOfMonth (t / dayMicros + 31)) * dayMicros := by
  have hlater : replaceDay t 28 + 4 * dayMicros = (t / dayMicros + 31) * dayMicros := by
    rw [← h.midnight, replaceDay_midnight, midnight_day, h.dayOfMonth_eq]
    ring
  have hday (n d : Int) : n + 31 + (1 - d) = n + 32 - d := by omega
  rw [nextMonth, hlater, replaceDay_midnight, hday]

theorem previousMonth (h : MonthStart t) : MonthStart (previousMonth t) := by
  have hback : t - dayMicros = (t / dayMicros - 1) * dayMicros := by rw [sub_one_mul, h.midnight]
  unfold Nlu.previousMonth
  rw [hback]
  exact monthStart_replaceDay _

theorem nextMonth (h : MonthStart t) : MonthStart (nextMonth t) := by
  refine ⟨?_, onFirst_replaceDay _⟩
  rw [h.nextMonth_eq, midnight_day]

/-- The month after the one before is the month itself. -/
theorem nextMonth_previousMonth (h : MonthStart t) : Nlu.nextMonth (Nlu.previousMonth t) = t := by
  have hlast := dayOfMonth_last h.dayOfMonth_eq
  obtain ⟨-, hlong⟩ := dayOfMonth_bounds (t / dayMicros - 1)
  have hfirst := h.dayOfMonth_eq
  rw [h.previousMonth.nextMonth_eq, h.previousMonth_eq, midnight_day]
  generalize dayOfMonth (t / dayMicros - 1) = length at hlast hlong
  have hday (n : Int) : n - length + 31 = n + (31 - length) := by omega
  have hsame (n : Int) : n - length + 32 - (1 + (31 - length)) = n := by omega
  rw [hday, dayOfMonth_after hfirst (sub_nonneg.mpr hlong) (by omega), hsame, h.midnight]

theorem iterate {step : Instant → Instant} (hstep : ∀ {t}, MonthStart t → MonthStart (step t)) (h : MonthStart t)
    (n : Nat) : MonthStart (step^[n] t) := by
  induction n with
  | zero => exact h
  | succ n ih =>
    rw [Function.iterate_succ_apply']
    exact hstep ih

end MonthStart

/-! ## Buckets -/

/-- The first instant of the month of `now`. -/
theorem monthStart_midnightOf (now : Instant) : MonthStart (replaceDay (midnightOf now) 1) := by
  rw [midnightOf_eq]
  exact monthStart_replaceDay _

/-- The instant is in the month of its day. -/
theorem mem_month (now : Instant) :
    replaceDay (midnightOf now) 1 ≤ now ∧ now < nextMonth (replaceDay (midnightOf now) 1) := by
  obtain ⟨hlow, -⟩ := dayOfMonth_bounds (now / dayMicros)
  have hstart := monthStart_midnightOf now
  have hfirst : replaceDay (midnightOf now) 1 = (now / dayMicros - (dayOfMonth (now / dayMicros) - 1)) * dayMicros := by
    rw [midnightOf_eq, replaceDay_midnight]
    ring
  have hbegun (n d : Int) (hd : 1 ≤ d) : (n / 86400000000 - (d - 1)) * 86400000000 ≤ n := by omega
  have hwithin (n m : Int) (hlt : n / 86400000000 < m) : n < m * 86400000000 := by omega
  have hdays (n m : Int) (hlt : n * 86400000000 < m * 86400000000) : n < m := by omega
  refine ⟨?_, ?_⟩
  · rw [hfirst]
    exact hbegun now _ hlow
  -- the next month begins on a first later than this one's, so on a later day than today
  have hlater := hstart.first.lt_nextMonth
  have hnext := hstart.nextMonth
  generalize nextMonth (replaceDay (midnightOf now) 1) = next at hlater hnext
  rw [hfirst, ← hnext.midnight] at hlater
  have hday := hdays _ _ hlater
  rw [← hnext.midnight]
  refine hwithin now _ ?_
  by_contra hpast
  exact absurd (no_first_between hnext.first (not_lt.mp hpast)) (not_le.mpr hday)

/-- A bucket ends where the next one starts. -/
theorem bucketBounds_adjacent (bucket : String) (now : Instant) (k : Int) :
    (bucketBounds bucket k now).stop = (bucketBounds bucket (k + 1) now).start := by
  unfold bucketBounds
  by_cases hhour : bucket = "hour"
  · simp only [if_pos hhour]
    ring
  by_cases hday : bucket = "day"
  · simp only [if_neg hhour, if_pos hday]
    ring
  by_cases hweek : bucket = "week"
  · simp only [if_neg hhour, if_neg hday, if_pos hweek]
    ring
  by_cases hmonth : bucket = "month"
  · simp only [if_neg hhour, if_neg hday, if_neg hweek, if_pos hmonth]
    have hstart := monthStart_midnightOf now
    generalize replaceDay (midnightOf now) 1 = first at hstart
    cases k with
    | ofNat n =>
      have hahead : ¬Int.ofNat n < 0 := by simp
      have hahead' : ¬Int.ofNat n + 1 < 0 := by simp only [Int.ofNat_eq_natCast]; omega
      rw [if_neg hahead, if_neg hahead', ← Function.iterate_succ_apply' nextMonth]
      rfl
    | negSucc n =>
      rw [if_pos (Int.negSucc_lt_zero n), Int.natAbs_negSucc, Function.iterate_succ_apply',
        (hstart.iterate MonthStart.previousMonth n).nextMonth_previousMonth, Int.negSucc_eq, neg_add,
        neg_add_cancel_right, Int.natAbs_neg, Int.natAbs_natCast]
      cases n with
      | zero => rfl
      | succ n =>
        have hback : -((n + 1 : Nat) : Int) < 0 := by omega
        rw [if_pos hback]
  · simp only [if_neg hhour, if_neg hday, if_neg hweek, if_neg hmonth]
    ring

/-- Whenever it is asked for, a bucket that is no hour begins at the same time of day. -/
theorem dayMicros_dvd_start_sub {bucket : String} (h : bucket ≠ "hour") (k : Int) (now now' : Instant) :
    dayMicros ∣ (bucketBounds bucket k now).start - (bucketBounds bucket k now').start := by
  have hmidnight (t : Instant) : dayMicros ∣ midnightOf t := ⟨t / dayMicros, by rw [midnightOf_eq, mul_comm]⟩
  have hmidnights : dayMicros ∣ midnightOf now - midnightOf now' := Int.dvd_sub (hmidnight now) (hmidnight now')
  unfold bucketBounds
  by_cases hday : bucket = "day"
  · simp only [if_neg h, if_pos hday, add_sub_add_right_eq_sub]
    exact hmidnights
  by_cases hweek : bucket = "week"
  · simp only [if_neg h, if_neg hday, if_pos hweek, add_sub_add_right_eq_sub]
    exact Int.dvd_sub (Int.dvd_sub (hmidnight now) (dvd_mul_left _ _))
      (Int.dvd_sub (hmidnight now') (dvd_mul_left _ _))
  by_cases hmonth : bucket = "month"
  · simp only [if_neg h, if_neg hday, if_neg hweek, if_pos hmonth]
    have hstart (t : Instant) : MonthStart ((if k < 0 then previousMonth else nextMonth)^[k.natAbs]
        (replaceDay (midnightOf t) 1)) := by
      refine (monthStart_midnightOf t).iterate (fun {t} ht => ?_) _
      split
      · exact ht.previousMonth
      · exact ht.nextMonth
    exact Int.dvd_sub (hstart now).dvd (hstart now').dvd
  · simp only [if_neg h, if_neg hday, if_neg hweek, if_neg hmonth, add_sub_add_right_eq_sub]
    exact hmidnights

/-- The buckets tile time with the present in the one at offset 0: every unit but the
shift, which has the present in it until eight in the morning. -/
theorem buckets_tile_iff (bucket : String) (now : Instant) :
    (((bucketBounds bucket 0 now).start ≤ now ∧ now < (bucketBounds bucket 0 now).stop) ∧
      ∀ k, (bucketBounds bucket k now).stop = (bucketBounds bucket (k + 1) now).start) ↔
    bucket ∈ ["hour", "day", "week", "month"] ∨ now % dayMicros < 8 * hourMicros := by
  rw [and_iff_left (bucketBounds_adjacent bucket now)]
  unfold bucketBounds
  by_cases hhour : bucket = "hour"
  · have hin (t : Int) : t - t % 3600000000 + 0 * 3600000000 ≤ t ∧
        t < t - t % 3600000000 + 0 * 3600000000 + 3600000000 := by omega
    rw [if_pos hhour]
    exact iff_of_true (hin now) (.inl (by simp [hhour]))
  by_cases hday : bucket = "day"
  · have hin (t : Int) : t - t % 86400000000 + 0 * 86400000000 ≤ t ∧
        t < t - t % 86400000000 + 0 * 86400000000 + 86400000000 := by omega
    rw [if_neg hhour, if_pos hday]
    exact iff_of_true (hin now) (.inl (by simp [hday]))
  by_cases hweek : bucket = "week"
  · have hin (t : Int) : t - t % 86400000000 - ((t - t % 86400000000) / 86400000000 + 3) % 7 * 86400000000 +
          0 * (7 * 86400000000) ≤ t ∧
        t < t - t % 86400000000 - ((t - t % 86400000000) / 86400000000 + 3) % 7 * 86400000000 +
          0 * (7 * 86400000000) + 7 * 86400000000 := by omega
    rw [if_neg hhour, if_neg hday, if_pos hweek]
    exact iff_of_true (hin now) (.inl (by simp [hweek]))
  by_cases hmonth : bucket = "month"
  · rw [if_neg hhour, if_neg hday, if_neg hweek, if_pos hmonth]
    exact iff_of_true (mem_month now) (.inl (by simp [hmonth]))
  · have hin (t : Int) : (t - t % 86400000000 + 8 * 0 * 3600000000 ≤ t ∧
        t < t - t % 86400000000 + 8 * 0 * 3600000000 + 8 * 3600000000) ↔ t % 86400000000 < 8 * 3600000000 := by omega
    have hunit : bucket ∉ ["hour", "day", "week", "month"] := by simp [hhour, hday, hweek, hmonth]
    rw [if_neg hhour, if_neg hday, if_neg hweek, if_neg hmonth, or_iff_right hunit]
    exact hin now

/-- In the afternoon, the present is not in this shift. -/
theorem afternoon_after_shift :
    ¬((bucketBounds "shift" 0 (15 * hourMicros)).start ≤ 15 * hourMicros ∧
      15 * hourMicros < (bucketBounds "shift" 0 (15 * hourMicros)).stop) := by decide

end TwinVoice.Nlu
