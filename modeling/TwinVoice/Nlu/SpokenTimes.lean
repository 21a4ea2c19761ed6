import TwinVoice.Nlu.Slots

/-! # Spoken times

What is said resolves to some hour of today or of a later day. Every form but
the one that names today rolls forward past the present instant. Whether
something is resolved at all is a matter of the words only. -/

namespace TwinVoice.Nlu

namespace Lexicon

/-- The hour that a spoken time means; without a part of the day it is eight. -/
def spokenHour (x : Lexicon) (text : String) : Int :=
  ((x.words text).findSome? fun t => timeOfDay.lookup t).getD 8

/-- The form that names today, which naming tomorrow overrides. -/
def NamesToday (x : Lexicon) (text : String) : Prop :=
  ("today" ∈ x.words text ∨ "aaj" ∈ x.words text) ∧ "tomorrow" ∉ x.words text ∧ "kal" ∉ x.words text

theorem spokenHour_bounds (x : Lexicon) (text : String) : 0 ≤ x.spokenHour text ∧ x.spokenHour text < 24 := by
  have hterms : ∀ e ∈ timeOfDay, 0 ≤ e.2 ∧ e.2 < 24 := by decide
  unfold spokenHour
  cases h : (x.words text).findSome? fun t => timeOfDay.lookup t with
  | none => exact ⟨by decide, by decide⟩
  | some hour =>
    obtain ⟨token, -, htoken⟩ := List.exists_of_findSome?_eq_some h
    obtain ⟨front, back, hsplit, -⟩ := List.lookup_eq_some_iff.mp htoken
    have hmem : (token, hour) ∈ timeOfDay := by
      rw [hsplit]
      exact List.mem_append_right front List.mem_cons_self
    exact hterms _ hmem

/-- A day's hour is later than any instant of the days before, and today's than any instant before it. -/
theorem midnightOf_bounds (now : Instant) : midnightOf now ≤ now ∧ now < midnightOf now + dayMicros := by
  have hbounds (t : Int) : t - t % 86400000000 ≤ t ∧ t < t - t % 86400000000 + 86400000000 := by omega
  exact hbounds now

/-- The hour that was said, so many days after today. -/
def spokenOn (x : Lexicon) (text : String) (now : Instant) (days : Int) : Instant :=
  midnightOf now + x.spokenHour text * hourMicros + days * dayMicros

theorem lt_spokenOn (x : Lexicon) (text : String) (now : Instant) {days : Int} (h : 1 ≤ days) :
    now < x.spokenOn text now days := by
  obtain ⟨hhour, -⟩ := spokenHour_bounds x text
  obtain ⟨-, hlater⟩ := midnightOf_bounds now
  have hover (midnight hour now : Int) (hlater : now < midnight + 86400000000) (hhour : 0 ≤ hour) :
      now < midnight + hour * 3600000000 + days * 86400000000 := by omega
  exact hover _ _ _ hlater hhour

/-- The words that name a day but are no weekday. -/
def dayWords : List String := ["tomorrow", "kal", "today", "aaj", "week", "hafte"]

/-- A word of the text is a day, a weekday or a part of the day. -/
def NamesTime (x : Lexicon) (text : String) : Prop :=
  text ≠ "" ∧ ∃ t ∈ x.words text, t ∈ dayWords ∨ (weekdays.lookup t).isSome ∨ (timeOfDay.lookup t).isSome

/-- Whether a text is resolved does not depend on when it is said. -/
theorem parseDatetime_isSome_iff (x : Lexicon) (text : String) (now : Instant) :
    (x.parseDatetime text now).isSome ↔ x.NamesTime text := by
  unfold parseDatetime
  dsimp only
  by_cases hempty : text = ""
  · rw [if_pos hempty]
    exact iff_of_false (by simp) fun hnames => hnames.1 hempty
  rw [if_neg hempty]
  by_cases htomorrow : "tomorrow" ∈ x.words text ∨ "kal" ∈ x.words text
  · rw [if_pos htomorrow]
    refine iff_of_true rfl ⟨hempty, ?_⟩
    rcases htomorrow with hword | hword
    · exact ⟨_, hword, .inl (by decide)⟩
    · exact ⟨_, hword, .inl (by decide)⟩
  rw [if_neg htomorrow]
  by_cases htoday : "today" ∈ x.words text ∨ "aaj" ∈ x.words text
  · rw [if_pos htoday]
    refine iff_of_true rfl ⟨hempty, ?_⟩
    rcases htoday with hword | hword
    · exact ⟨_, hword, .inl (by decide)⟩
    · exact ⟨_, hword, .inl (by decide)⟩
  rw [if_neg htoday]
  cases hday : (x.words text).findSome? fun t => weekdays.lookup t with
  | some weekday =>
    obtain ⟨token, htoken, hlookup⟩ := List.exists_of_findSome?_eq_some hday
    exact iff_of_true rfl ⟨hempty, token, htoken, .inr (.inl (by rw [hlookup]; rfl))⟩
  | none =>
    dsimp only
    by_cases hweek : "week" ∈ x.words text ∨ "hafte" ∈ x.words text
    · rw [if_pos hweek]
      refine iff_of_true rfl ⟨hempty, ?_⟩
      rcases hweek with hword | hword
      · exact ⟨_, hword, .inl (by decide)⟩
      · exact ⟨_, hword, .inl (by decide)⟩
    rw [if_neg hweek]
    by_cases hpart : ((x.words text).any fun t => (timeOfDay.lookup t).isSome) = true
    · rw [if_pos hpart]
      obtain ⟨token, htoken, hlookup⟩ := List.any_eq_true.mp hpart
      exact iff_of_true rfl ⟨hempty, token, htoken, .inr (.inr hlookup)⟩
    · rw [if_neg hpart]
      refine iff_of_false (by simp) ?_
      rintro ⟨-, token, htoken, hword | hword | hword⟩
      · have hcases : token ∈ ["tomorrow", "kal"] ∨ token ∈ ["today", "aaj"] ∨ token ∈ ["week", "hafte"] := by
          simpa [dayWords, or_assoc] using hword
        simp only [List.mem_cons, List.not_mem_nil, or_false] at hcases
        rcases hcases with (rfl | rfl) | (rfl | rfl) | (rfl | rfl)
        · exact htomorrow (.inl htoken)
        · exact htomorrow (.inr htoken)
        · exact htoday (.inl htoken)
        · exact htoday (.inr htoken)
        · exact hweek (.inl htoken)
        · exact hweek (.inr htoken)
      · have hnone := List.findSome?_eq_none_iff.mp hday token htoken
        rw [hnone] at hword
        cases hword
      · exact hpart (List.any_eq_true.mpr ⟨token, htoken, hword⟩)

/-- A spoken time is its hour on a day; the form that names today stays there, and every other one is ahead. -/
theorem parseDatetime_eq {x : Lexicon} {text : String} {now t : Instant} (h : x.parseDatetime text now = some t) :
    ∃ days, t = x.spokenOn text now days ∧ (x.NamesToday text → days = 0) ∧ (¬ x.NamesToday text → now < t) := by
  have hnow : midnightOf now + x.spokenHour text * hourMicros = x.spokenOn text now 0 := by
    rw [spokenOn, Int.zero_mul, Int.add_zero]
  have hnext : midnightOf now + x.spokenHour text * hourMicros + dayMicros = x.spokenOn text now 1 := by
    rw [spokenOn, Int.one_mul]
  unfold parseDatetime at h
  dsimp only at h
  rw [← spokenHour] at h
  by_cases hempty : text = ""
  · rw [if_pos hempty] at h
    cases h
  rw [if_neg hempty] at h
  by_cases htomorrow : "tomorrow" ∈ x.words text ∨ "kal" ∈ x.words text
  · rw [if_pos htomorrow, hnext] at h
    obtain rfl := Option.some_inj.mp h
    have hnot : ¬ x.NamesToday text := fun hnames => htomorrow.elim hnames.2.1 hnames.2.2
    exact ⟨1, rfl, fun hnames => absurd hnames hnot, fun _ => x.lt_spokenOn text now (Int.le_refl 1)⟩
  rw [if_neg htomorrow] at h
  obtain ⟨hno, hnokal⟩ := not_or.mp htomorrow
  by_cases htoday : "today" ∈ x.words text ∨ "aaj" ∈ x.words text
  · rw [if_pos htoday, hnow] at h
    obtain rfl := Option.some_inj.mp h
    exact ⟨0, rfl, fun _ => rfl, fun hnot => absurd ⟨htoday, hno, hnokal⟩ hnot⟩
  rw [if_neg htoday] at h
  have hnot : ¬ x.NamesToday text := fun hnames => htoday hnames.1
  cases hday : (x.words text).findSome? fun t => weekdays.lookup t with
  | some weekday =>
    rw [hday] at h
    dsimp only at h
    obtain rfl := Option.some_inj.mp h
    have hahead : 0 ≤ (weekday - weekdayOf now) % 7 := Int.emod_nonneg _ (by decide)
    generalize (weekday - weekdayOf now) % 7 = ahead at hahead
    refine ⟨_, rfl, fun hnames => absurd hnames hnot, fun _ => ?_⟩
    split
    · exact x.lt_spokenOn text now (by omega)
    · rename_i hstays
      by_cases hlater : 1 ≤ ahead
      · exact x.lt_spokenOn text now (by omega)
      · have hzero : ahead = 0 := by omega
        simp only [hzero, true_or, true_and, not_or, not_le] at hstays
        rw [hzero, Int.add_zero, Int.zero_mul, Int.add_zero]
        exact hstays.1
  | none =>
    rw [hday] at h
    dsimp only at h
    by_cases hweek : "week" ∈ x.words text ∨ "hafte" ∈ x.words text
    · rw [if_pos hweek] at h
      obtain rfl := Option.some_inj.mp h
      exact ⟨7, rfl, fun hnames => absurd hnames hnot, fun _ => x.lt_spokenOn text now (by decide)⟩
    rw [if_neg hweek] at h
    by_cases hpart : ((x.words text).any fun t => (timeOfDay.lookup t).isSome) = true
    · rw [if_pos hpart] at h
      obtain rfl := Option.some_inj.mp h
      by_cases hlater : midnightOf now + x.spokenHour text * hourMicros > now
      · rw [if_pos hlater]
        exact ⟨0, hnow, fun hnames => absurd hnames hnot, fun _ => hlater⟩
      · rw [if_neg hlater]
        refine ⟨1, hnext, fun hnames => absurd hnames hnot, fun _ => ?_⟩
        rw [hnext]
        exact x.lt_spokenOn text now (Int.le_refl 1)
    · rw [if_neg hpart] at h
      cases h

/-- What a text resolves to is ahead of the present unless it names today and the hour has passed. -/
theorem parseDatetime_future_iff (x : Lexicon) (text : String) (now t : Instant)
    (h : x.parseDatetime text now = some t) :
    now < t ↔ (x.NamesToday text → now < midnightOf now + x.spokenHour text * hourMicros) := by
  obtain ⟨days, rfl, htoday, hahead⟩ := parseDatetime_eq h
  by_cases hnames : x.NamesToday text
  · rw [htoday hnames, spokenOn, Int.zero_mul, Int.add_zero]
    exact ⟨fun hlt _ => hlt, fun hall => hall hnames⟩
  · exact iff_of_true (hahead hnames) fun hname => absurd hname hnames

end Lexicon

/-- The tables on the ASCII characters and `float()` on digits. -/
def asciiLexicon : Lexicon := ⟨asciiTables, Char.isDigit, fun token => token.toNat?.map Nat.cast⟩

/-- Ten in the morning of a Thursday; Friday morning is ahead. -/
theorem friday_morning_future : 10 * hourMicros < 32 * hourMicros ↔
    (asciiLexicon.NamesToday "friday morning" →
      10 * hourMicros < midnightOf (10 * hourMicros) + asciiLexicon.spokenHour "friday morning" * hourMicros) :=
  asciiLexicon.parseDatetime_future_iff "friday morning" (10 * hourMicros) (32 * hourMicros) (by decide +kernel)

/-- At ten in the morning, today is eight o'clock. -/
theorem today_past :
    ¬∀ (x : Lexicon) (text : String) (now t : Instant), x.parseDatetime text now = some t → now < t := by
  intro h
  have htoday := h asciiLexicon "today" (10 * hourMicros) (8 * hourMicros) (by decide +kernel)
  exact absurd htoday (by decide)

end TwinVoice.Nlu
