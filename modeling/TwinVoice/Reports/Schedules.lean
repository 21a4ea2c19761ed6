import Mathlib.Data.List.Basic
import TwinVoice.Basic

/-! # Report schedules

Once a minute, or later, the enabled schedules are looked at one after the
other. One whose expression matches the minute, and that has not run for ten
minutes, requests its report. The parser of the expressions and the clock of
the plant are given. -/

namespace TwinVoice.Reports

inductive ReportType
  | machineHealth | weeklyMaintenance | energy | benchmark | incident
  deriving DecidableEq

def ReportType.text : ReportType → String
  | .machineHealth => "machine_health"
  | .weeklyMaintenance => "weekly_maintenance"
  | .energy => "energy"
  | .benchmark => "benchmark"
  | .incident => "incident"

inductive ReportFormat
  | pdf | docx | md | html
  deriving DecidableEq

inductive Scope
  | plant | line | asset
  deriving DecidableEq

/-- A row of `report_schedules`. -/
structure ReportSchedule where
  id : Uuid
  type : ReportType
  scope : Option Scope
  scopeId : Option Uuid
  format : ReportFormat
  cron : String
  enabled : Bool
  deletedAt : Option Instant
  lastRunAt : Option Instant

/-- A row of `reports`, as it is queued. -/
structure Report where
  type : ReportType
  scope : Scope
  scopeId : Uuid
  periodStart : Instant
  periodEnd : Instant
  format : ReportFormat
  status : String
  requestedVia : String
  deriving DecidableEq

structure ReportCreate where
  type : ReportType
  scope : Option Scope
  scopeId : Option Uuid
  periodStart : Option Instant
  periodEnd : Option Instant
  format : ReportFormat

/-- The fields of a local time that an expression is about. -/
structure Civil where
  minute : Nat
  hour : Nat
  day : Nat
  month : Nat
  isoweekday : Nat

/-- A parsed expression: the values of its fields. -/
structure Crontab where
  minute : Nat → Bool
  hour : Nat → Bool
  dayOfMonth : Nat → Bool
  monthOfYear : Nat → Bool
  dayOfWeek : Nat → Bool

/-- What the task finds around it: the parser, the local time of each minute in the zone of the plant, and the plant. -/
structure Environment where
  crontab : (minute hour dayOfMonth monthOfYear dayOfWeek : String) → Except Failure Crontab
  civil : Int → Civil
  plant : Option Uuid

/-- `str.isspace`. -/
def isSpace (c : Char) : Bool :=
  let n := c.toNat
  (9 ≤ n && n ≤ 13) || (28 ≤ n && n ≤ 32) || n = 0x85 || n = 0xa0 || n = 0x1680 || (0x2000 ≤ n && n ≤ 0x200a) ||
    n = 0x2028 || n = 0x2029 || n = 0x202f || n = 0x205f || n = 0x3000

/-- `str.split()`. -/
def fields (expression : String) : List String :=
  ((expression.toList.splitOnP isSpace).filter (· ≠ [])).map String.ofList

/-- The minute of an instant, counted from the epoch. -/
def minuteOf (t : Instant) : Int := t / 60000000

def catchupWindow : Duration := minutes 10

/-- Celery numbers Sunday as 0, which is `isoweekday` 7. -/
def Crontab.contains (schedule : Crontab) (now : Civil) : Bool :=
  schedule.minute now.minute && schedule.hour now.hour && schedule.dayOfWeek (now.isoweekday % 7) &&
    schedule.dayOfMonth now.day && schedule.monthOfYear now.month

/-- The schedule that an expression stands for. -/
def parse (env : Environment) (expression : String) : Except Failure Crontab :=
  match fields expression with
  | [minute, hour, dayOfMonth, monthOfYear, dayOfWeek] => env.crontab minute hour dayOfMonth monthOfYear dayOfWeek
  | _ => .error (.crash "ValueError")

/-- `_matches`. -/
def cronMatches (env : Environment) (expression : String) (now : Instant) : Except Failure Bool := do
  let schedule ← parse env expression
  return schedule.contains (env.civil (minuteOf now))

/-- The last run is long enough ago. -/
def rested (now : Instant) (lastRunAt : Option Instant) : Bool :=
  match lastRunAt with
  | none => true
  | some last => catchupWindow ≤ now - last

/-- `_is_due`. -/
def isDue (env : Environment) (expression : String) (now : Instant) (lastRunAt : Option Instant) : Except Failure Bool := do
  let onMinute ← cronMatches env expression now
  return onMinute && rested now lastRunAt

/-! ## Requests -/

/-- The reports about one machine. -/
def ReportType.needsAsset : ReportType → Bool
  | .machineHealth | .incident => true
  | _ => false

/-- A period of the request that ends before it starts. -/
def ReportCreate.reversed (r : ReportCreate) : Bool :=
  match r.periodStart, r.periodEnd with
  | some start, some stop => stop ≤ start
  | _, _ => false

def ReportCreate.check (r : ReportCreate) : Except Failure Unit :=
  if r.reversed then .error (.crash "period_end must be after period_start")
  else if r.type.needsAsset && r.scopeId.isNone then
    .error (.crash ("A " ++ r.type.text.replace "_" " " ++ " report needs an asset"))
  else .ok ()

def resolveScope (env : Environment) (scope : Option Scope) (scopeId : Option Uuid) : Except Failure (Scope × Uuid) :=
  match scopeId with
  | some id => .ok (scope.getD .asset, id)
  | none => match env.plant with
    | some plant => .ok (.plant, plant)
    | none => .error (.problem (.unprocessable "No plant is configured yet"))

/-- `DEFAULT_WINDOWS`. -/
def defaultWindow : ReportType → Duration
  | .machineHealth | .weeklyMaintenance | .energy => minutes (7 * 24 * 60)
  | .benchmark => minutes (30 * 24 * 60)
  | .incident => minutes (2 * 24 * 60)

/-- `ReportService.request`. -/
def request (env : Environment) (payload : ReportCreate) (now : Instant) (via : String) : Except Failure Report := do
  let scope ← resolveScope env payload.scope payload.scopeId
  let stop := payload.periodEnd.getD now
  let start := payload.periodStart.getD (stop - defaultWindow payload.type)
  if stop ≤ start then .error (.problem (.unprocessable "period_end must be after period_start"))
  else return ⟨payload.type, scope.1, scope.2, start, stop, payload.format, "queued", via⟩

def ReportSchedule.payload (s : ReportSchedule) : ReportCreate := ⟨s.type, s.scope, s.scopeId, none, none, s.format⟩

/-- The report of a schedule that is due. -/
def ReportSchedule.request (env : Environment) (s : ReportSchedule) (now : Instant) : Except Failure Report := do
  s.payload.check
  Reports.request env s.payload now "schedule"

/-! ## The loop -/

/-- What `run_report_schedules` leaves behind: the schedules, the reports it requested and what it failed with. -/
structure Tick where
  schedules : List ReportSchedule
  reports : List Report
  failure : Option Failure

/-- The schedules that the loop runs over. -/
def ReportSchedule.active (s : ReportSchedule) : Bool := s.enabled && s.deletedAt.isNone

/-- One turn of the loop: the report that the schedule requests, if it does. -/
def ReportSchedule.turn (env : Environment) (now : Instant) (s : ReportSchedule) : Except Failure (Option Report) :=
  if s.active then do
    let due ← isDue env s.cron now s.lastRunAt
    if due then some <$> s.request env now else .ok none
  else .ok none

/-- `mark_run`. -/
def ReportSchedule.markRun (s : ReportSchedule) (t : Instant) : ReportSchedule := { s with lastRunAt := some t }

/-- The first failure leaves the loop; what was committed before it stays. -/
def runReportSchedules (env : Environment) (now : Instant) : List ReportSchedule → Tick
  | [] => ⟨[], [], none⟩
  | s :: rest =>
    match s.turn env now with
    | .error failure => ⟨s :: rest, [], some failure⟩
    | .ok none =>
      let tick := runReportSchedules env now rest
      ⟨s :: tick.schedules, tick.reports, tick.failure⟩
    | .ok (some report) =>
      let tick := runReportSchedules env now rest
      ⟨s.markRun now :: tick.schedules, report :: tick.reports, tick.failure⟩

theorem defaultWindow_pos (type : ReportType) : 0 < defaultWindow type := by
  cases type <;> decide

/-- The report of a schedule is refused if it needs a machine and has none, or a plant and there is none. -/
def ReportSchedule.acceptable (env : Environment) (s : ReportSchedule) : Bool :=
  s.scopeId.isSome || (!s.type.needsAsset && env.plant.isSome)

theorem ReportSchedule.request_eq_ok_iff {env : Environment} {s : ReportSchedule} {now : Instant} :
    (∃ report, s.request env now = .ok report) ↔ s.acceptable env = true := by
  have hperiod : ¬ now ≤ now - defaultWindow s.type := by
    have hearlier : ∀ x y : Int, 0 < y → ¬ x ≤ x - y := by omega
    exact hearlier now _ (defaultWindow_pos s.type)
  have hreversed : s.payload.reversed = false := rfl
  unfold ReportSchedule.request ReportCreate.check ReportSchedule.acceptable
  rw [hreversed]
  cases hscope : s.scopeId with
  | some id =>
    simp [ReportSchedule.payload, hscope, Reports.request, resolveScope, bind, Except.bind, hperiod, pure, Except.pure]
  | none =>
    cases hneeds : s.type.needsAsset with
    | true => simp [ReportSchedule.payload, hscope, hneeds, bind, Except.bind]
    | false =>
      cases hplant : env.plant with
      | none => simp [ReportSchedule.payload, hscope, hneeds, Reports.request, resolveScope, hplant, bind, Except.bind]
      | some plant =>
        simp [ReportSchedule.payload, hscope, hneeds, Reports.request, resolveScope, hplant, bind, Except.bind, hperiod, pure,
          Except.pure]

end TwinVoice.Reports
