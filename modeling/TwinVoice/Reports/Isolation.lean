import TwinVoice.Lib.Traversal
import TwinVoice.Reports.Firing

/-! # Schedules beside each other

The loop has no handler: what a schedule fails with ends the tick for all that
come after it. -/

namespace TwinVoice.Reports

open TwinVoice.Lib

section
variable (env : Environment) (now : Instant)

/-- The expression names the minute, and the last run is long enough ago. -/
def ReportSchedule.IsDue (s : ReportSchedule) : Prop :=
  ∃ c, parse env s.cron = .ok c ∧ firesAt env c s now = true

/-- The schedule is due and its report would be requested. -/
def Ready (s : ReportSchedule) : Prop := s.active = true ∧ s.IsDue env now ∧ s.acceptable env = true

/-- The expression cannot be evaluated, or the schedule is due and its report is refused. -/
def Broken (s : ReportSchedule) : Prop :=
  s.active = true ∧ ((∃ failure, parse env s.cron = .error failure) ∨ s.IsDue env now ∧ s.acceptable env = false)

/-- The report of a schedule on its own. -/
def ownReport (s : ReportSchedule) : Option Report :=
  match s.turn env now with
  | .ok report => report
  | .error _ => none

/-- The row of a schedule after a tick on its own. -/
def ownRow (s : ReportSchedule) : ReportSchedule := if (ownReport env now s).isSome then s.markRun now else s

/-- Every schedule does in the tick what it would do on its own. -/
structure Isolated (schedules : List ReportSchedule) : Prop where
  reports : (runReportSchedules env now schedules).reports = schedules.filterMap (ownReport env now)
  rows : (runReportSchedules env now schedules).schedules = schedules.map (ownRow env now)

end

variable {env : Environment} {now : Instant}

theorem turn_of_parse {s : ReportSchedule} {c : Crontab} (hactive : s.active = true) (hparse : parse env s.cron = .ok c) :
    s.turn env now = if firesAt env c s now then some <$> s.request env now else .ok none := by
  unfold ReportSchedule.turn isDue cronMatches
  rw [if_pos hactive, hparse]
  rfl

theorem turn_of_inactive {s : ReportSchedule} (h : ¬ s.active = true) : s.turn env now = .ok none := if_neg h

theorem turn_of_unparsed {s : ReportSchedule} {failure : Failure} (hactive : s.active = true)
    (hparse : parse env s.cron = .error failure) : s.turn env now = .error failure := by
  unfold ReportSchedule.turn isDue cronMatches
  rw [if_pos hactive, hparse]
  rfl

theorem isDue_iff {s : ReportSchedule} {c : Crontab} (h : parse env s.cron = .ok c) :
    s.IsDue env now ↔ firesAt env c s now = true := by
  constructor
  · intro hdue
    obtain ⟨c', hc', hfires⟩ := hdue
    rw [h] at hc'
    cases hc'
    exact hfires
  · intro hfires
    exact ⟨c, h, hfires⟩

theorem refused_iff {s : ReportSchedule} : (∃ failure, s.request env now = .error failure) ↔ s.acceptable env = false := by
  rw [← Bool.not_eq_true, ← ReportSchedule.request_eq_ok_iff]
  cases s.request env now with
  | ok report => simp
  | error failure => simp

/-- What a schedule does in its turn: it is ready, it is broken, or neither. -/
theorem turn_cases (env : Environment) (now : Instant) (s : ReportSchedule) :
    (Ready env now s ∧ ¬ Broken env now s ∧ ∃ report, s.turn env now = .ok (some report)) ∨
      (¬ Ready env now s ∧ Broken env now s ∧ ∃ failure, s.turn env now = .error failure) ∨
      (¬ Ready env now s ∧ ¬ Broken env now s ∧ s.turn env now = .ok none) := by
  by_cases hactive : s.active = true
  · cases hparse : parse env s.cron with
    | error failure =>
      have hnot : ¬ s.IsDue env now := by
        intro hdue
        obtain ⟨c, hc, _⟩ := hdue
        rw [hparse] at hc
        cases hc
      exact .inr (.inl ⟨fun h => hnot h.2.1, ⟨hactive, .inl ⟨failure, hparse⟩⟩, failure, turn_of_unparsed hactive hparse⟩)
    | ok c =>
      have hparsed : ¬ ∃ failure, parse env s.cron = .error failure := by
        simp [hparse]
      have hturn := @turn_of_parse env now _ _ hactive hparse
      by_cases hfires : firesAt env c s now = true
      · have hdue := (isDue_iff hparse).mpr hfires
        rw [if_pos hfires] at hturn
        cases hrequest : s.request env now with
        | ok report =>
          have haccept := ReportSchedule.request_eq_ok_iff.mp ⟨report, hrequest⟩
          rw [hrequest] at hturn
          refine .inl ⟨⟨hactive, hdue, haccept⟩, fun h => ?_, report, hturn⟩
          rcases h.2 with hunparsed | hrefused
          · exact hparsed hunparsed
          · rw [haccept] at hrefused
            cases hrefused.2
        | error failure =>
          have hrefused := refused_iff.mp ⟨failure, hrequest⟩
          rw [hrequest] at hturn
          refine .inr (.inl ⟨fun h => ?_, ⟨hactive, .inr ⟨hdue, hrefused⟩⟩, failure, hturn⟩)
          have haccept := h.2.2
          rw [hrefused] at haccept
          cases haccept
      · have hnot : ¬ s.IsDue env now := mt (isDue_iff hparse).mp hfires
        rw [if_neg hfires] at hturn
        refine .inr (.inr ⟨fun h => hnot h.2.1, fun h => ?_, hturn⟩)
        rcases h.2 with hunparsed | hrefused
        · exact hparsed hunparsed
        · exact hnot hrefused.1
  · exact .inr (.inr ⟨fun h => hactive h.1, fun h => hactive h.1, turn_of_inactive hactive⟩)

theorem ownReport_eq_none_iff {s : ReportSchedule} : ownReport env now s = none ↔ ¬ Ready env now s := by
  rcases turn_cases env now s with ⟨hready, _, report, hturn⟩ | ⟨hready, _, failure, hturn⟩ | ⟨hready, _, hturn⟩
  · simp [ownReport, hturn, hready]
  · simp [ownReport, hturn, hready]
  · simp [ownReport, hturn, hready]

theorem ownRow_of_not_ready {s : ReportSchedule} (h : ¬ Ready env now s) : ownRow env now s = s := by
  rw [ownRow, ownReport_eq_none_iff.mpr h]
  rfl

/-- Where the first schedule fails, the others must have had nothing to do. -/
theorem isolated_of_error {s : ReportSchedule} {rest : List ReportSchedule} {failure : Failure} (hturn : s.turn env now = .error failure) :
    Isolated env now (s :: rest) ↔ ∀ x ∈ rest, ¬ Ready env now x := by
  have hown : ownReport env now s = none := by rw [ownReport, hturn]
  have hloop : runReportSchedules env now (s :: rest) = ⟨s :: rest, [], some failure⟩ := by rw [runReportSchedules, hturn]
  constructor
  · intro h x hx
    have hreports := h.reports
    rw [hloop, List.filterMap_cons_none hown] at hreports
    exact ownReport_eq_none_iff.mp (List.filterMap_eq_nil_iff.mp hreports.symm x hx)
  · intro h
    refine ⟨?_, ?_⟩
    · rw [hloop, List.filterMap_cons_none hown]
      exact (List.filterMap_eq_nil_iff.mpr fun x hx => ownReport_eq_none_iff.mpr (h x hx)).symm
    · rw [hloop, List.map_cons, ownRow_of_not_ready (ownReport_eq_none_iff.mp hown)]
      exact congrArg (s :: ·) ((List.map_id rest).symm.trans (List.map_congr_left fun x hx => (ownRow_of_not_ready (h x hx)).symm))

/-- Where it does not fail, the others are on their own. -/
theorem isolated_of_ok {s : ReportSchedule} {rest : List ReportSchedule} {report : Option Report} (hturn : s.turn env now = .ok report) :
    Isolated env now (s :: rest) ↔ Isolated env now rest := by
  have hown : ownReport env now s = report := by rw [ownReport, hturn]
  cases report with
  | none =>
    have hloop : runReportSchedules env now (s :: rest) =
        ⟨s :: (runReportSchedules env now rest).schedules, (runReportSchedules env now rest).reports,
          (runReportSchedules env now rest).failure⟩ := by rw [runReportSchedules, hturn]
    have hrow := ownRow_of_not_ready (ownReport_eq_none_iff.mp hown)
    constructor
    · intro h
      have hreports := h.reports
      have hrows := h.rows
      rw [hloop, List.filterMap_cons_none hown] at hreports
      rw [hloop, List.map_cons, hrow] at hrows
      exact ⟨hreports, (List.cons.inj hrows).2⟩
    · intro h
      refine ⟨?_, ?_⟩
      · rw [hloop, List.filterMap_cons_none hown]
        exact h.reports
      · rw [hloop, List.map_cons, hrow, ← h.rows]
  | some report =>
    have hloop : runReportSchedules env now (s :: rest) =
        ⟨s.markRun now :: (runReportSchedules env now rest).schedules, report :: (runReportSchedules env now rest).reports,
          (runReportSchedules env now rest).failure⟩ := by rw [runReportSchedules, hturn]
    have hrow : ownRow env now s = s.markRun now := by
      rw [ownRow, hown]
      rfl
    constructor
    · intro h
      have hreports := h.reports
      have hrows := h.rows
      rw [hloop, List.filterMap_cons_some hown] at hreports
      rw [hloop, List.map_cons, hrow] at hrows
      exact ⟨(List.cons.inj hreports).2, (List.cons.inj hrows).2⟩
    · intro h
      refine ⟨?_, ?_⟩
      · rw [hloop, List.filterMap_cons_some hown, ← h.reports]
      · rw [hloop, List.map_cons, hrow, ← h.rows]

/-- A schedule that fails or is refused stops no other exactly if none that is ready comes after it. -/
theorem isolated_iff (env : Environment) (now : Instant) (schedules : List ReportSchedule) :
    Isolated env now schedules ↔ schedules.Pairwise fun s x => Broken env now s → ¬ Ready env now x := by
  induction schedules with
  | nil => exact iff_of_true ⟨rfl, rfl⟩ .nil
  | cons s rest ih =>
    rw [List.pairwise_cons]
    rcases turn_cases env now s with ⟨_, hbroken, report, hturn⟩ | ⟨_, hbroken, failure, hturn⟩ | ⟨_, hbroken, hturn⟩
    · rw [isolated_of_ok hturn, ih]
      exact (and_iff_right fun x _ h => absurd h hbroken).symm
    · rw [isolated_of_error hturn]
      constructor
      · intro h
        exact ⟨fun x hx _ => h x hx, List.pairwise_of_forall_mem_list fun _ _ x hx _ => h x hx⟩
      · intro h x hx
        exact h.1 x hx hbroken
    · rw [isolated_of_ok hturn, ih]
      exact (and_iff_right fun x _ h => absurd h hbroken).symm

/-- An incident report of no machine, before the report on the energy. -/
def incidentFirst : List ReportSchedule := [{ energyEveryMinute with type := .incident }, energyEveryMinute]

/-- The request of the first is refused, and the second does not come to its turn. -/
theorem refused_request_stops_the_next : ¬ Isolated starEnvironment 0 incidentFirst := by
  have hreports : (runReportSchedules starEnvironment 0 incidentFirst).reports ≠
      incidentFirst.filterMap (ownReport starEnvironment 0) := by decide +kernel
  exact fun h => hreports h.reports

end TwinVoice.Reports
