import Mathlib.Data.List.Sort
import TwinVoice.Analytics.Calendar

/-! # Shifts

The rollup reads the shifts of a plant from the database and asks which one
the time of day is in; the simulator lays the shifts of the fleet file out as
occurrences, each on the working day that it starts. Where a shift wraps past
midnight the first looks at the weekday of the moment and the second at the
weekday of the start. -/

namespace TwinVoice.Analytics

structure Shift where
  code : String
  starts : TimeOfDay
  ends : TimeOfDay
  deriving DecidableEq

/-- A row of `shifts`. -/
structure ShiftRow extends Shift where
  daysOfWeek : List Int
  deriving DecidableEq

/-- `ShiftRepository.for_plant`: by code, as the database collates texts. -/
def forPlant (collate : String → String → Bool) (rows : List ShiftRow) : List ShiftRow :=
  rows.insertionSort fun r r' => collate r.code r'.code

/-! ## The rollup -/

/-- The bounds of the local day. -/
def calendarDay (offset nowLocal : Int) : Int × Int :=
  (combine (dayOf nowLocal) midnight - offset, combine (dayOf nowLocal) midnight + day - offset)

/-- `_shift_bounds`; a local time is `offset` ahead of UTC. -/
def shiftBounds (shifts : List ShiftRow) (offset now : Int) : Int × Int :=
  let nowLocal := now + offset
  let clock := clockOf nowLocal
  match shifts.find? fun s => weekday (dayOf nowLocal) ∈ s.daysOfWeek ∧ Within clock s.starts s.ends with
  | some s =>
    let startLocal := combine (dayOf nowLocal) s.starts
    if s.ends ≤ s.starts then
      let startLocal := if clock < s.ends then startLocal - day else startLocal
      (startLocal - offset, combine (dayOf (startLocal + day)) s.ends - offset)
    else (startLocal - offset, combine (dayOf startLocal) s.ends - offset)
  | none => calendarDay offset nowLocal

/-! ## The simulator's calendar -/

/-- A shift with the local times at which it starts and ends. -/
structure Occurrence where
  shift : Shift
  start : Int
  stop : Int
  deriving DecidableEq

def Shift.occurrence (s : Shift) (d : Int) : Occurrence :=
  let start := combine d s.starts
  let stop := combine d s.ends
  ⟨s, start, if stop ≤ start then stop + day else stop⟩

/-- `_instances`: a shift belongs to the day it starts. -/
def instances (shifts : List Shift) (workingDays : List Int) (firstDay : Int) (days : Nat) :
    List Occurrence :=
  (List.range days).flatMap fun offset =>
    if weekday (firstDay + offset) ∈ workingDays then shifts.map (·.occurrence (firstDay + offset)) else []

/-- `active`, with the times of the shift that it returns. -/
def active (shifts : List Shift) (workingDays : List Int) (offset t : Int) : Option Occurrence :=
  let nowLocal := t + offset
  (instances shifts workingDays (dayOf nowLocal - 1) 2).find? fun o => o.start ≤ nowLocal ∧ nowLocal < o.stop

/-! ## Where they agree -/

/-- Yesterday's occurrence is not over. -/
def Shift.CarriesOver (s : Shift) (clock : TimeOfDay) : Prop := s.ends ≤ s.starts ∧ clock < s.ends

/-- Today's occurrence has started and is not over. -/
def Shift.StartedToday (s : Shift) (clock : TimeOfDay) : Prop :=
  s.starts ≤ clock ∧ (s.ends ≤ s.starts ∨ clock < s.ends)

/-- The time of day is one of the shift's, whatever the day, and the shift is not a whole day. -/
def Shift.OnHours (s : Shift) (clock : TimeOfDay) : Prop :=
  s.starts ≠ s.ends ∧ (s.CarriesOver clock ∨ s.StartedToday clock)

instance (s : Shift) (clock : TimeOfDay) : Decidable (s.CarriesOver clock) :=
  inferInstanceAs (Decidable (_ ∧ _))

instance (s : Shift) (clock : TimeOfDay) : Decidable (s.StartedToday clock) :=
  inferInstanceAs (Decidable (_ ∧ _))

instance (s : Shift) (clock : TimeOfDay) : Decidable (s.OnHours clock) :=
  inferInstanceAs (Decidable (_ ∧ _))

/-- Yesterday was a working day, and one of its shifts is not over. -/
def CarriedOver (table : List Shift) (workingDays : List Int) (today : Int) (clock : TimeOfDay) : Prop :=
  weekday (today - 1) ∈ workingDays ∧ ∃ s ∈ table, s.CarriesOver clock

instance (table : List Shift) (workingDays : List Int) (today : Int) (clock : TimeOfDay) :
    Decidable (CarriedOver table workingDays today clock) :=
  inferInstanceAs (Decidable (_ ∧ ∃ s ∈ table, _))

/-- The first shift that the calendar comes to: yesterday's come before today's. -/
def firstOfTable (table : List Shift) (workingDays : List Int) (today : Int) (clock : TimeOfDay) : Option Shift :=
  if CarriedOver table workingDays today clock then table.find? (·.CarriesOver clock)
  else table.find? (·.StartedToday clock)

/-- Where the two agree. On a day off nothing may be carried over from a working day. On a working
day the first shift by code that is on its hours must have the hours of the first shift of the
calendar; a shift of a whole day must run from midnight to midnight, and then no other be on. -/
def Aligned (collate : String → String → Bool) (table : List Shift) (workingDays : List Int) (today : Int)
    (clock : TimeOfDay) : Prop :=
  if weekday today ∈ workingDays then
    match firstOfTable table workingDays today clock,
      (table.insertionSort fun s s' => collate s.code s'.code).find? (·.OnHours clock) with
    | none, none => True
    | none, some _ => False
    | some s, none => s.starts = midnight ∧ s.ends = midnight
    | some s, some r => s.starts = r.starts ∧ s.ends = r.ends
  else ¬ CarriedOver table workingDays today clock

/-- The rollup's bounds are those of the active occurrence, or else those of the day. -/
def ShiftsAgree (collate : String → String → Bool) (table : List Shift) (workingDays : List Int)
    (offset now : Int) : Prop :=
  shiftBounds (forPlant collate (table.map (⟨·, workingDays⟩))) offset now =
    match active table workingDays offset now with
    | some o => (o.start - offset, o.stop - offset)
    | none => calendarDay offset (now + offset)

theorem stop_of_wraps {s : Shift} (d : Int) (h : s.ends ≤ s.starts) :
    (s.occurrence d).stop = combine d s.ends + day := by
  refine if_pos ?_
  simp only [combine, TimeOfDay.le_iff] at *
  omega

theorem stop_of_not_wraps {s : Shift} (d : Int) (h : ¬ s.ends ≤ s.starts) :
    (s.occurrence d).stop = combine d s.ends := by
  refine if_neg ?_
  simp only [combine, TimeOfDay.le_iff] at *
  omega

theorem covers_yesterday (s : Shift) (d : Int) (clock : TimeOfDay) :
    ((s.occurrence (d - 1)).start ≤ combine d clock ∧ combine d clock < (s.occurrence (d - 1)).stop) ↔
      s.CarriesOver clock := by
  have hclock := clock.nonneg
  have hstarts := s.starts.lt_day
  have hends := s.ends.lt_day
  have hstart : (s.occurrence (d - 1)).start = combine (d - 1) s.starts := rfl
  by_cases h : s.ends ≤ s.starts
  · rw [stop_of_wraps _ h, hstart]
    simp only [Shift.CarriesOver, combine, TimeOfDay.le_iff, TimeOfDay.lt_iff, day] at *
    omega
  · rw [stop_of_not_wraps _ h, hstart]
    simp only [Shift.CarriesOver, combine, TimeOfDay.le_iff, TimeOfDay.lt_iff, day] at *
    omega

theorem covers_today (s : Shift) (d : Int) (clock : TimeOfDay) :
    ((s.occurrence d).start ≤ combine d clock ∧ combine d clock < (s.occurrence d).stop) ↔
      s.StartedToday clock := by
  have hclock := clock.lt_day
  have hends := s.ends.nonneg
  have hstart : (s.occurrence d).start = combine d s.starts := rfl
  by_cases h : s.ends ≤ s.starts
  · rw [stop_of_wraps _ h, hstart]
    simp only [Shift.StartedToday, combine, TimeOfDay.le_iff, TimeOfDay.lt_iff, day] at *
    omega
  · rw [stop_of_not_wraps _ h, hstart]
    simp only [Shift.StartedToday, combine, TimeOfDay.le_iff, TimeOfDay.lt_iff, day] at *
    omega

theorem within_iff_onHours (s : Shift) (clock : TimeOfDay) :
    Within clock s.starts s.ends ↔ s.OnHours clock := by
  have hne : s.starts ≠ s.ends ↔ s.starts.micros ≠ s.ends.micros :=
    not_congr ⟨congrArg TimeOfDay.micros, TimeOfDay.ext_micros⟩
  simp only [Within, Shift.OnHours, hne, Shift.CarriesOver, Shift.StartedToday, TimeOfDay.le_iff,
    TimeOfDay.lt_iff]
  split <;> omega

/-! ## The proof -/

theorem Shift.carries_xor_started {s : Shift} {clock : TimeOfDay} (h : s.CarriesOver clock) :
    ¬ s.StartedToday clock := by
  simp only [Shift.CarriesOver, Shift.StartedToday, TimeOfDay.le_iff, TimeOfDay.lt_iff] at *
  omega

def Occurrence.bounds (o : Occurrence) (offset : Int) : Int × Int := (o.start - offset, o.stop - offset)

/-- An occurrence is known by its times, up to the name of the shift. -/
theorem bounds_inj {s r : Shift} {d d' offset : Int} :
    (s.occurrence d).bounds offset = (r.occurrence d').bounds offset ↔
      d = d' ∧ s.starts = r.starts ∧ s.ends = r.ends := by
  constructor
  · intro h
    obtain ⟨hstart, hstop⟩ := Prod.mk.inj h
    have hstarts : combine d s.starts = combine d' r.starts := sub_left_injective hstart
    obtain ⟨rfl, hs⟩ := combine_inj.mp hstarts
    refine ⟨rfl, hs, TimeOfDay.ext_micros ?_⟩
    have h1 := s.ends.nonneg
    have h2 := s.ends.lt_day
    have h3 := r.ends.nonneg
    have h4 := r.ends.lt_day
    by_cases hwraps : s.ends ≤ s.starts <;> by_cases hwraps' : r.ends ≤ r.starts
    · rw [stop_of_wraps _ hwraps, stop_of_wraps _ hwraps'] at hstop
      simp only [combine] at hstop
      omega
    · rw [stop_of_wraps _ hwraps, stop_of_not_wraps _ hwraps'] at hstop
      simp only [combine, TimeOfDay.le_iff, hs, day] at *
      omega
    · rw [stop_of_not_wraps _ hwraps, stop_of_wraps _ hwraps'] at hstop
      simp only [combine, TimeOfDay.le_iff, hs, day] at *
      omega
    · rw [stop_of_not_wraps _ hwraps, stop_of_not_wraps _ hwraps'] at hstop
      simp only [combine] at hstop
      omega
  · intro h
    obtain ⟨hd, hs, he⟩ := h
    simp only [Occurrence.bounds, Shift.occurrence, hd, hs, he]

/-- Yesterday's occurrence while it lasts, else today's. -/
def Shift.latest (s : Shift) (today : Int) (clock : TimeOfDay) : Occurrence :=
  s.occurrence (if s.CarriesOver clock then today - 1 else today)

theorem latest_inj {s r : Shift} {today offset : Int} {clock : TimeOfDay} :
    (s.latest today clock).bounds offset = (r.latest today clock).bounds offset ↔
      s.starts = r.starts ∧ s.ends = r.ends := by
  unfold Shift.latest
  rw [bounds_inj]
  constructor
  · intro h
    exact h.2
  · intro ⟨hs, he⟩
    have hover : s.CarriesOver clock ↔ r.CarriesOver clock := by
      simp only [Shift.CarriesOver, hs, he]
    exact ⟨if_congr hover rfl rfl, hs, he⟩

/-- The bounds of the day are those of a shift from midnight to midnight. -/
theorem calendarDay_eq_iff {s : Shift} {offset nowLocal : Int} {clock : TimeOfDay} :
    calendarDay offset nowLocal = (s.latest (dayOf nowLocal) clock).bounds offset ↔
      s.starts = midnight ∧ s.ends = midnight := by
  have hday : calendarDay offset nowLocal =
      ((⟨"", midnight, midnight⟩ : Shift).latest (dayOf nowLocal) clock).bounds offset := by
    have hnot : ¬ (⟨"", midnight, midnight⟩ : Shift).CarriesOver clock := fun h => absurd h.2 (not_lt.mpr clock.nonneg)
    rw [Shift.latest, if_neg hnot]
    simp [calendarDay, Occurrence.bounds, Shift.occurrence]
  rw [hday, latest_inj]
  exact and_congr eq_comm eq_comm

theorem holds_of_find {p : Shift → Prop} [DecidablePred p] {table : List Shift} {s : Shift}
    (h : table.find? (p ·) = some s) : p s :=
  of_decide_eq_true (List.find?_some (p := fun s => decide (p s)) h)

theorem find_occurrence (table : List Shift) {p : Shift → Prop} [DecidablePred p] {d nowLocal : Int}
    (h : ∀ s : Shift, ((s.occurrence d).start ≤ nowLocal ∧ nowLocal < (s.occurrence d).stop) ↔ p s) :
    (table.map (·.occurrence d)).find? (fun o => o.start ≤ nowLocal ∧ nowLocal < o.stop) =
      (table.find? (p ·)).map (·.occurrence d) := by
  rw [List.find?_map]
  congr 2
  funext s
  exact decide_eq_decide.mpr (h s)

theorem active_eq (table : List Shift) (workingDays : List Int) (offset now : Int) :
    active table workingDays offset now =
      let today := dayOf (now + offset)
      let clock := clockOf (now + offset)
      if CarriedOver table workingDays today clock ∨ weekday today ∈ workingDays then
        (firstOfTable table workingDays today clock).map (·.latest today clock)
      else none := by
  have hnow := combine_dayOf_clockOf (now + offset)
  dsimp only
  generalize dayOf (now + offset) = today at *
  generalize clockOf (now + offset) = clock at *
  have hinstances : instances table workingDays (today - 1) 2 =
      (if weekday (today - 1) ∈ workingDays then table.map (·.occurrence (today - 1)) else []) ++
        (if weekday today ∈ workingDays then table.map (·.occurrence today) else []) := by
    have hday : today - 1 + 1 = today := by omega
    simp [instances, List.range_succ, hday]
  have hyesterday := find_occurrence table (fun s => covers_yesterday s today clock)
  have htoday := find_occurrence table (fun s => covers_today s today clock)
  unfold active
  rw [← hnow]
  simp only [dayOf_combine, hinstances, List.find?_append]
  by_cases hcarried : CarriedOver table workingDays today clock
  · have hsome : ((table.find? (·.CarriesOver clock)).map (·.occurrence (today - 1))).isSome := by
      obtain ⟨s, hs, hover⟩ := hcarried.2
      simp only [Option.isSome_map, List.find?_isSome]
      exact ⟨s, hs, decide_eq_true hover⟩
    rw [if_pos hcarried.1, if_pos (Or.inl hcarried), hyesterday, Option.or_of_isSome hsome, firstOfTable,
      if_pos hcarried]
    refine Option.map_congr ?_
    intro s hs
    have hover : s.CarriesOver clock := holds_of_find hs
    rw [Shift.latest, if_pos hover]
  · have hnone : (if weekday (today - 1) ∈ workingDays then table.map (·.occurrence (today - 1)) else []).find?
        (fun o => o.start ≤ combine today clock ∧ combine today clock < o.stop) = none := by
      split
      · rename_i hworked
        rw [hyesterday, Option.map_eq_none_iff, List.find?_eq_none]
        intro s hs hover
        exact hcarried ⟨hworked, s, hs, of_decide_eq_true hover⟩
      · rfl
    rw [hnone, Option.none_or, firstOfTable, if_neg hcarried]
    by_cases hworked : weekday today ∈ workingDays
    · rw [if_pos hworked, if_pos (Or.inr hworked), htoday]
      refine Option.map_congr ?_
      intro s hs
      have hstarted : s.StartedToday clock := holds_of_find hs
      rw [Shift.latest, if_neg fun hover => s.carries_xor_started hover hstarted]
    · rw [if_neg hworked, if_neg (not_or.mpr ⟨hcarried, hworked⟩)]
      rfl

/-- The row that the loop stops at gives the times of its occurrence. -/
theorem shiftBounds_eq (shifts : List ShiftRow) (offset now : Int) :
    shiftBounds shifts offset now =
      let today := dayOf (now + offset)
      let clock := clockOf (now + offset)
      match shifts.find? fun s => weekday today ∈ s.daysOfWeek ∧ s.OnHours clock with
      | some s => (s.latest today clock).bounds offset
      | none => calendarDay offset (now + offset) := by
  unfold shiftBounds
  simp only [within_iff_onHours]
  split
  · rename_i s hfind
    have hon : s.OnHours (clockOf (now + offset)) := by
      have h := List.find?_some hfind
      exact (of_decide_eq_true h).2
    generalize clockOf (now + offset) = clock at *
    generalize dayOf (now + offset) = today at *
    by_cases hwraps : s.ends ≤ s.starts
    · rw [if_pos hwraps]
      by_cases hclock : clock < s.ends
      · have hover : s.CarriesOver clock := ⟨hwraps, hclock⟩
        have hstop := stop_of_wraps (today - 1) hwraps
        rw [if_pos hclock, Shift.latest, if_pos hover, Occurrence.bounds, hstop, combine_sub_day, combine_add_day,
          combine_add_day, dayOf_combine, sub_add_cancel]
        rfl
      · have hover : ¬ s.CarriesOver clock := fun h => hclock h.2
        have hstop := stop_of_wraps today hwraps
        rw [if_neg hclock, Shift.latest, if_neg hover, Occurrence.bounds, hstop, combine_add_day, combine_add_day, dayOf_combine]
        rfl
    · have hover : ¬ s.CarriesOver clock := fun h => hwraps h.1
      have hstop := stop_of_not_wraps today hwraps
      rw [if_neg hwraps, Shift.latest, if_neg hover, Occurrence.bounds, hstop, dayOf_combine]
      rfl
  · rfl

theorem shiftBounds_forPlant (collate : String → String → Bool) (table : List Shift) (workingDays : List Int)
    (offset now : Int) :
    shiftBounds (forPlant collate (table.map (⟨·, workingDays⟩))) offset now =
      let today := dayOf (now + offset)
      let clock := clockOf (now + offset)
      if weekday today ∈ workingDays then
        match (table.insertionSort fun s s' => collate s.code s'.code).find? (·.OnHours clock) with
        | some s => (s.latest today clock).bounds offset
        | none => calendarDay offset (now + offset)
      else calendarDay offset (now + offset) := by
  have hsort : forPlant collate (table.map (⟨·, workingDays⟩)) =
      (table.insertionSort fun s s' => collate s.code s'.code).map (⟨·, workingDays⟩) :=
    (List.map_insertionSort (fun s s' : Shift => collate s.code s'.code = true)
      (fun r r' : ShiftRow => collate r.code r'.code = true) (⟨·, workingDays⟩) table
      fun _ _ _ _ => Iff.rfl).symm
  rw [shiftBounds_eq, hsort]
  simp only [List.find?_map, Function.comp_def]
  split
  · rename_i r hfind
    obtain ⟨s, hs, rfl⟩ := Option.map_eq_some_iff.mp hfind
    have hworked := (of_decide_eq_true (List.find?_some (p := fun s => decide (_ ∧ _)) hs)).1
    simp only [hworked, true_and] at hs
    rw [if_pos hworked, hs]
  · rename_i hfind
    split
    · rename_i hworked
      have hnone := Option.map_eq_none_iff.mp hfind
      simp only [hworked, true_and] at hnone
      rw [hnone]
    · rfl

/-- The rollup and the simulator agree on the shift exactly when their shifts are aligned. -/
theorem shifts_agree_iff (collate : String → String → Bool) (table : List Shift) (workingDays : List Int)
    (offset now : Int) :
    ShiftsAgree collate table workingDays offset now ↔
      Aligned collate table workingDays (dayOf (now + offset)) (clockOf (now + offset)) := by
  unfold ShiftsAgree Aligned
  rw [shiftBounds_forPlant, active_eq]
  dsimp only
  have hwhole : ∀ s : Shift, calendarDay offset (now + offset) =
      (s.latest (dayOf (now + offset)) (clockOf (now + offset))).bounds offset ↔
        s.starts = midnight ∧ s.ends = midnight := fun s => calendarDay_eq_iff
  generalize calendarDay offset (now + offset) = whole at *
  generalize dayOf (now + offset) = today at *
  generalize clockOf (now + offset) = clock at *
  by_cases hworked : weekday today ∈ workingDays
  · rw [if_pos hworked, if_pos hworked, if_pos (Or.inr hworked)]
    cases hfirst : firstOfTable table workingDays today clock with
    | none =>
      cases hrow : (table.insertionSort fun s s' => collate s.code s'.code).find? (·.OnHours clock) with
      | none => simp
      | some r =>
        have hon : r.OnHours clock := holds_of_find hrow
        simp only [Option.map_none, iff_false]
        intro hbounds
        obtain ⟨hs, he⟩ := (hwhole r).mp hbounds.symm
        exact hon.1 (hs.trans he.symm)
    | some s =>
      cases hrow : (table.insertionSort fun s s' => collate s.code s'.code).find? (·.OnHours clock) with
      | none => exact hwhole s
      | some r => exact eq_comm.trans latest_inj
  · rw [if_neg hworked, if_neg hworked]
    by_cases hcarried : CarriedOver table workingDays today clock
    · rw [if_pos (Or.inl hcarried), iff_false_right (not_not_intro hcarried), firstOfTable, if_pos hcarried]
      cases hfirst : table.find? (·.CarriesOver clock) with
      | none =>
        obtain ⟨s, hs, hover⟩ := hcarried.2
        exact absurd (decide_eq_true hover) (List.find?_eq_none.mp hfirst s hs)
      | some s =>
        have hover : s.CarriesOver clock := holds_of_find hfirst
        intro hbounds
        have hends := ((hwhole s).mp hbounds).2
        rw [Shift.CarriesOver, hends] at hover
        exact absurd hover.2 (not_lt.mpr clock.nonneg)
    · rw [if_neg (not_or.mpr ⟨hcarried, hworked⟩)]
      exact iff_of_true rfl hcarried

instance (collate : String → String → Bool) (table : List Shift) (workingDays : List Int) (offset now : Int) :
    Decidable (ShiftsAgree collate table workingDays offset now) :=
  inferInstanceAs (Decidable (_ = _))

/-- Three shifts from Monday to Friday, around the two nights at the edge of the week. On Saturday
at two the night shift of Friday is active and the rollup takes the day; on Monday at two none is,
and the rollup takes a night shift of Sunday. -/
theorem night_shift_at_week_edge :
    let table : List Shift := [⟨"A", .ofHour 6, .ofHour 14⟩, ⟨"B", .ofHour 14, .ofHour 22⟩,
      ⟨"C", .ofHour 22, .ofHour 6⟩]
    let workingDays : List Int := [0, 1, 2, 3, 4]
    let moment : Int → Fin 24 → Int := fun d hour => combine d (.ofHour hour)
    let bounds := shiftBounds (forPlant (fun _ _ => true) (table.map (⟨·, workingDays⟩))) 0
    (weekday 2 = 5 ∧ bounds (moment 2 2) = (moment 2 0, moment 3 0) ∧
      active table workingDays 0 (moment 2 2) = some ⟨⟨"C", .ofHour 22, .ofHour 6⟩, moment 1 22, moment 2 6⟩) ∧
    (weekday 4 = 0 ∧ bounds (moment 4 2) = (moment 3 22, moment 4 6) ∧ active table workingDays 0 (moment 4 2) = none) ∧
    ¬ ShiftsAgree (fun _ _ => true) table workingDays 0 (moment 2 2) ∧
      ¬ ShiftsAgree (fun _ _ => true) table workingDays 0 (moment 4 2) := by
  decide +kernel

end TwinVoice.Analytics
