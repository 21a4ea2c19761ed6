import TwinVoice.Nlu.SpokenNumbers
import TwinVoice.Nlu.SpokenTimes
import TwinVoice.Voice.Resolved

/-! # When to service, as a what-if hears it

`run_what_if` asks the engine what a service at another time would change. The
time is spoken as the slot `value`, which is a text; the request takes an
instant, and puts a week in the place of everything else. -/

namespace TwinVoice.Voice

open TwinVoice.Lib TwinVoice.Nlu

variable {W : Type}

/-! ## The request -/

/-- A hypothetical operating point. -/
structure WhatIfRequest where
  loadPct : Option Rat
  speedPct : Option Rat
  ambientC : Option Rat
  maintenanceInH : Option Rat
  horizonH : Rat
  trials : Nat

namespace WhatIfRequest

/-- The defaults: nothing is changed. -/
def unchanged : WhatIfRequest := ⟨none, none, none, none, 168, 500⟩

def valid (r : WhatIfRequest) : Bool :=
  (r.loadPct.all fun q => 0 ≤ q ∧ q ≤ 200) ∧ (r.speedPct.all fun q => 0 ≤ q ∧ q ≤ 200) ∧
    (r.ambientC.all fun q => -40 ≤ q ∧ q ≤ 120) ∧ (r.maintenanceInH.all fun q => 0 ≤ q ∧ q ≤ 8760) ∧
    0 < r.horizonH ∧ r.horizonH ≤ 8760 ∧ 50 ≤ r.trials ∧ r.trials ≤ 5000

/-- The defaults pass their own checks. -/
theorem unchanged_valid : unchanged.valid = true := by decide +kernel

end WhatIfRequest

/-- `(when - now).total_seconds() / 3600`. -/
def hoursUntil (now t : Instant) : Rat := ((t - now : Int) : Rat) / 3600000000

/-- `_percentage`: a number, or the number of what is said. -/
def percentage (x : Lexicon) (c : Codec) (value : Value) : Option Rat :=
  let number := match value with
    | .number q => some q
    | .bool b => some (if b then 1 else 0)
    | v => if v.truthy then x.parseNumber (c.text v) else none
  number.filter fun q => 0 < q ∧ q ≤ 200

/-- `_what_if_request`. -/
def whatIfRequest (x : Lexicon) (c : Codec) (parameter value : Value) (now : Instant) : Prepared WhatIfRequest :=
  if parameter = .text "maintenance_at" then
    let hours := match value with
      | .instant t => hoursUntil now t
      | _ => 168
    validated WhatIfRequest.valid { WhatIfRequest.unchanged with maintenanceInH := some (max hours 0) }
  else
    match percentage x c value with
    | none => .error (.refused (.unprocessable "I need a percentage, for example 'reduce load to 80 percent'"))
    | some pct =>
      if parameter = .text "speed" then
        validated WhatIfRequest.valid { WhatIfRequest.unchanged with speedPct := some pct }
      else if parameter ∈ [.text "ambient", .text "temperature"] then
        validated WhatIfRequest.valid { WhatIfRequest.unchanged with ambientC := some pct }
      else validated WhatIfRequest.valid { WhatIfRequest.unchanged with loadPct := some pct }

/-- The request that `run_what_if` makes of its arguments. -/
def runWhatIfRequest (x : Lexicon) (c : Codec) (params : Params) (now : Instant) : Prepared WhatIfRequest :=
  whatIfRequest x c ((argument "run_what_if" params "parameter").getD .null)
    ((argument "run_what_if" params "value").getD .null) now

/-! ## The time that reaches it -/

/-- A service that is asked for with anything but an instant is one in a week. -/
theorem whatIfRequest_service (x : Lexicon) (c : Codec) (now : Instant) {value : Value} (h : ∀ t, value ≠ .instant t) :
    whatIfRequest x c (.text "maintenance_at") value now =
      .ok { WhatIfRequest.unchanged with maintenanceInH := some 168 } := by
  have hvalid : ({ WhatIfRequest.unchanged with maintenanceInH := some (max 168 0) } : WhatIfRequest).valid = true := by
    decide +kernel
  unfold whatIfRequest
  rw [if_pos rfl]
  cases value with
  | instant t => exact absurd rfl (h t)
  | null | bool | text | number => exact if_pos hvalid

variable {w : Wiring} {x : Lexicon} {scorer : String → String → Rat} {env : Env W} {actor : CurrentUser}
  {data : UtteranceIn} {db : Database W} {p : Params} {session : VoiceSession} {result : RouterResult}
  {resolution : Resolution}

/-- The arguments that are no machine's and no other intent's are the slots. -/
theorem RanFrom.argument_eq
    (h : RanFrom (shippedWiring w x scorer) env actor data db "run_what_if" p session result resolution) {key : String}
    (hkey : key ∉ ["asset_id", "asset_label", "alarm_id", "explanation_id"]) : p.get? key = result.slots.get? key := by
  have hkpi : result.intent ≠ "get_kpi" := by
    rw [← h.intent]
    decide
  simp only [List.mem_cons, List.not_mem_nil, or_false, not_or] at hkey
  obtain ⟨hid, hlabel, halarm, hexplanation⟩ := hkey
  obtain ⟨base, hstored⟩ := resolveSlots_stored hkpi h.resolved h.answered
  rw [h.params, hstored.others key (by simp [halarm, hexplanation]), hstored.machine.get?_other (by simp [hid, hlabel])]

/-- Every what-if about a service is about one in a week. -/
theorem service_request
    (h : RanFrom (shippedWiring w x scorer) env actor data db "run_what_if" p session result resolution)
    (hservice : result.slots.get? "parameter" = some (.text "maintenance_at")) (now : Instant) :
    runWhatIfRequest x w.codec p now = .ok { WhatIfRequest.unchanged with maintenanceInH := some 168 } := by
  have hparameter : argument "run_what_if" p "parameter" = some (.text "maintenance_at") := by
    unfold argument
    rw [h.argument_eq (by decide), hservice]
    rfl
  have hvalue (t : Instant) : (argument "run_what_if" p "value").getD .null ≠ .instant t := by
    have htype : slotType result.intent "value" = some "text" := by
      rw [← h.intent]
      decide
    unfold argument
    rw [h.argument_eq (by decide), get?_routed h.routed (by decide), htype]
    cases result.rawSlots.lookup "value" <;> exact Value.noConfusion
  unfold runWhatIfRequest
  rw [hparameter]
  exact whatIfRequest_service x w.codec now hvalue

theorem hoursUntil_eq_week (now t : Instant) : hoursUntil now t = 168 ↔ t = now + 168 * hourMicros := by
  have hweek : (168 * 3600000000 : Rat) = ((168 * hourMicros : Int) : Rat) := by norm_num [hourMicros]
  unfold hoursUntil
  rw [div_eq_iff (by norm_num), hweek, Int.cast_inj]
  exact sub_eq_iff_eq_add'

def workshop : Wiring :=
  { plainWiring with
    grammar := { plainWiring.grammar with
      match? := fun text =>
        if text = "what if we service the press next week"
        then some ⟨"run_what_if", "en", [("asset", "the press"), ("value", "next week")], 19 / 20⟩
        else none } }

def workshopService : Wiring := shippedWiring workshop decimalLexicon fun _ _ => 100

def serviceQuestion : UtteranceIn := say "what if we service the press next week" none

def serviceParams : Params :=
  [("asset", .text "press"), ("parameter", .text "maintenance_at"), ("value", .text "next week"),
    ("asset_id", .text "5"), ("asset_label", .text "Press 04")]

/-- What the question comes to at a second of the first day. -/
def ServiceAsked (second : Int) (session : VoiceSession) (result : RouterResult) : Prop :=
  Event.toolRun none "run_what_if" serviceParams ∈
      (afterUtterance workshopService (atSecond second) operator serviceQuestion waitingDatabase).log ∧
    understoodAs workshopService (atSecond second) operator serviceQuestion waitingDatabase = some (session, result) ∧
    result.slots.get? "parameter" = some (.text "maintenance_at") ∧
    result.rawSlots.lookup "value" = some "next week" ∧
    decimalLexicon.parseDatetime "next week" (atSecond second).now = some (176 * hourMicros)

theorem serviceAsked {second : Int}
    (h : Event.toolRun none "run_what_if" serviceParams ∈
        (afterUtterance workshopService (atSecond second) operator serviceQuestion waitingDatabase).log ∧
      (understoodAs workshopService (atSecond second) operator serviceQuestion waitingDatabase).isSome ∧
      (∀ e ∈ understoodAs workshopService (atSecond second) operator serviceQuestion waitingDatabase,
        e.2.slots.get? "parameter" = some (.text "maintenance_at") ∧ e.2.rawSlots.lookup "value" = some "next week") ∧
      decimalLexicon.parseDatetime "next week" (atSecond second).now = some (176 * hourMicros)) :
    ∃ session result, ServiceAsked second session result := by
  obtain ⟨hrun, hsome, hall, hwhen⟩ := h
  obtain ⟨⟨session, result⟩, hresult⟩ := Option.isSome_iff_exists.mp hsome
  obtain ⟨hparameter, hvalue⟩ := hall _ hresult
  exact ⟨session, result, hrun, hresult, hparameter, hvalue, hwhen⟩

end TwinVoice.Voice
