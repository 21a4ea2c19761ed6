import TwinVoice.Voice.Naming

/-! # What a confirmation settles

A confirmation in time ends with the action executed, rejected or failed,
unless something that is no `ProblemError` gets out of it. The parameters were
collected from speech, and the request that the tool builds from them has a
schema of its own. So it comes down to what was spoken, and to the ids that
the dialogue context brought in. -/

namespace TwinVoice.Voice

open TwinVoice.Lib TwinVoice.Nlu

variable {W : Type}

/-! ## Confirming a pending action -/

/-- The action is settled, and nothing but a problem of the API was raised. -/
def SettledBy (r : Except Failure (VoiceAction × String) × Session (Database W) Event) (id : Uuid) : Prop :=
  (∃ b, r.2.stored.actions.find id = some b ∧ b.status ∈ [ActionStatus.executed, .rejected, .failed]) ∧
    ∀ failure, r.1 = .error failure → ∃ problem, failure = .problem problem

/-- Actuation is switched off for the tier, so nobody asks for the PIN. -/
def Withheld (env : Env W) (tier : Tier) : Prop := (needsSecondFactor tier && !env.allowT3) = true

/-- Whoever checks the PIN gives an answer, if asked. -/
def AnswersPin (env : Env W) (actor : CurrentUser) (tier : Tier) (pin : Option String) : Prop :=
  Withheld env tier ∨ ∃ ok, secondFactor env actor tier pin = .ok ok

/-- The parameters get to be validated. -/
def Reaches (env : Env W) (actor : CurrentUser) (tier : Tier) (pin : Option String) : Prop :=
  ¬ Withheld env tier ∧ secondFactor env actor tier pin = .ok true

variable {w : Wiring} {env : Env W} {actor : CurrentUser} {pin : Option String} {lang : String}
  {s : Session (Database W) Event} {a : VoiceAction}

/-- A saved and committed row is found. -/
theorem settledBy_row {b : VoiceAction} {r : Except Failure (VoiceAction × String) × Session (Database W) Event}
    (hfind : s.work.actions.find a.id = some a) (hid : b.id = a.id)
    (hdone : b.status ∈ [ActionStatus.executed, .rejected, .failed])
    (hrow : r.2.stored.actions = putAction s.work.actions b)
    (hproblem : ∀ failure, r.1 = .error failure → ∃ problem, failure = .problem problem) : SettledBy r a.id := by
  refine ⟨⟨b, ?_, hdone⟩, hproblem⟩
  rw [hrow, ← hid]
  exact find_putAction (hid ▸ hfind)

/-- After every test the tool decides: the action is settled unless it dies. -/
theorem execute_settles_iff (hfind : s.work.actions.find a.id = some a) {run : Tool W}
    (hrun : env.tools a.tool = some run) :
    SettledBy ((execute w env actor a lang).run s) a.id ↔
      ∀ reason, (confirmedCall w env actor lang s.work a run).ending ≠ .died reason := by
  have hsame : SameAction a (a.confirm env.later) :=
    (SameAction.factorPassed a).trans ⟨rfl, rfl, rfl, rfl⟩
  have hheld : (putAction s.work.actions (a.confirm env.later)).find a.id = some (a.confirm env.later) := by
    have hput := find_putAction (b := a.confirm env.later) (hsame.id ▸ hfind)
    rwa [hsame.id] at hput
  generalize hr : (execute w env actor a lang).run s = r
  simp only [execute, Tx.run_bind, run_saveAction, Tx.andThen_ok, Tx.run_read, run_callTool hrun,
    sessionIdOf_actions] at hr
  unfold confirmedCall
  generalize run _ (w.codec.reviveParams a.params) s.work.registry = call at hr ⊢
  obtain ⟨registry, committed, ending⟩ := call
  -- What a handled ending saves a second time is what is found.
  have hsecond (b : VoiceAction) (hid : b.id = a.id) (hdone : b.status ∈ [ActionStatus.executed, .rejected, .failed])
      (hrow : r.2.stored.actions = putAction (putAction s.work.actions (a.confirm env.later)) b)
      (hok : ∃ answer, r.1 = .ok answer) : SettledBy r a.id := by
    obtain ⟨answer, hanswer⟩ := hok
    refine ⟨⟨b, ?_, hdone⟩, fun failure hfailure => ?_⟩
    · rw [hrow, ← hid]
      exact find_putAction (hid ▸ hheld)
    · rw [hanswer] at hfailure
      cases hfailure
  have hexecuted : ActionStatus.executed ∈ [ActionStatus.executed, .rejected, .failed] := by decide
  have hfailed : ActionStatus.failed ∈ [ActionStatus.executed, .rejected, .failed] := by decide
  cases ending with
  | done output =>
    exact iff_of_true (hsecond ((a.confirm env.later).finish env.later (w.codec.jsonable output)) hsame.id
      hexecuted (by rw [← hr]; rfl) ⟨_, by rw [← hr]; rfl⟩) (by simp)
  | refused problem =>
    exact iff_of_true (hsecond ((a.confirm env.later).fail problem.text) hsame.id
      hfailed (by rw [← hr]; rfl) ⟨_, by rw [← hr]; rfl⟩) (by simp)
  | died reason =>
    refine iff_of_false (fun hsettled => ?_) (fun hall => hall reason rfl)
    have hcrash : r.1 = .error (.crash reason) := by
      rw [← hr]
      rfl
    obtain ⟨problem, hproblem⟩ := hsettled.2 _ hcrash
    cases hproblem

/-- Confirming a pending action in time settles it exactly when the PIN check answers if asked and,
once the parameters are validated, their ids can be read and the tool does not die. -/
theorem confirm_settles_iff (hwork : s.work.actions.find a.id = some a)
    (hstored : s.stored.actions.find a.id = some a) (hpending : a.status = .pending)
    (hopen : a.windowClosed env.later = false) {run : Tool W} (hrun : env.tools a.tool = some run) :
    SettledBy ((confirm w env actor a.id pin lang).run s) a.id ↔
      AnswersPin env actor a.tier pin ∧ (Reaches env actor a.tier pin →
        ∃ errors, validate w.codec s.work.registry a env.later = .ok errors ∧ (errors = [] →
          ∀ reason, (confirmedCall w env actor lang s.work a run).ending ≠ .died reason)) := by
  have hrejected : ActionStatus.rejected ∈ [ActionStatus.executed, .rejected, .failed] := by decide
  generalize hr : (confirm w env actor a.id pin lang).run s = r
  simp only [confirm, Tx.run_bind, run_actionOr404 hwork, Tx.andThen_ok, Tx.run_read] at hr
  -- While the action waits, a failure before the first save leaves it as it is.
  have hwaits {failure : Failure} (hends : r = (.error failure, s)) : ¬ SettledBy r a.id := by
    rintro ⟨⟨b, hb, hdone⟩, -⟩
    rw [hends, hstored] at hb
    rw [← Option.some.inj hb, hpending] at hdone
    exact absurd hdone (by decide)
  unfold check at hr
  rw [if_neg (not_not.mpr hpending), if_neg (by rw [hopen]; exact Bool.false_ne_true)] at hr
  by_cases hoff : (needsSecondFactor a.tier && !env.allowT3) = true
  · rw [if_pos hoff] at hr
    refine iff_of_true ?_ ⟨.inl hoff, fun hreaches => absurd hoff hreaches.1⟩
    refine settledBy_row (b := { a with status := .rejected }) hwork rfl hrejected (by rw [← hr]; rfl) ?_
    intro failure hfailure
    rw [← hr] at hfailure
    cases hfailure
    exact ⟨_, rfl⟩
  rw [if_neg hoff] at hr
  unfold AnswersPin Reaches
  cases hfactor : secondFactor env actor a.tier pin with
  | error failure =>
    rw [hfactor] at hr
    refine iff_of_false (hwaits hr.symm) ?_
    rintro ⟨hwithheld | ⟨ok, hok⟩, -⟩
    · exact hoff hwithheld
    · cases hok
  | ok passed =>
    rw [hfactor] at hr
    cases passed with
    | false =>
      refine iff_of_true ?_ ⟨.inr ⟨_, rfl⟩, fun hreaches => by cases hreaches.2⟩
      refine settledBy_row (b := { a with status := .rejected, secondFactorOk := some false }) hwork rfl hrejected
        (by rw [← hr]; rfl) ?_
      intro failure hfailure
      rw [← hr] at hfailure
      cases hfailure
      exact ⟨_, rfl⟩
    | true =>
      rw [and_iff_right (.inr ⟨_, rfl⟩), imp_iff_right ⟨hoff, rfl⟩]
      cases hvalid : validate w.codec s.work.registry a env.later with
      | error reason =>
        rw [hvalid] at hr
        refine iff_of_false (hwaits hr.symm) ?_
        rintro ⟨errors, herrors, -⟩
        cases herrors
      | ok errors =>
        rw [hvalid] at hr
        cases errors with
        | nil =>
          rw [← hr]
          refine (execute_settles_iff hwork hrun).trans ⟨fun hall => ⟨[], rfl, fun _ => hall⟩, ?_⟩
          rintro ⟨errors, herrors, hall⟩
          exact hall (Except.ok.inj herrors).symm
        | cons error errors =>
          refine iff_of_true ?_ ⟨_, rfl, fun hnil => absurd hnil (List.cons_ne_nil _ _)⟩
          refine settledBy_row
            (b := { a.factorPassed with status := .rejected, validationErrors := some (error :: errors) }) hwork
            (SameAction.factorPassed a).id hrejected (by rw [← hr]; rfl) ?_
          intro failure hfailure
          rw [← hr] at hfailure
          cases hfailure

/-! ## How the tools end -/

/-- The work of a tool ends in an exception that is no problem of the API. -/
def Dies {α : Type} (x : Prepared α) : Prop := ∃ reason, x = .error (.died reason)

theorem dies_bind {α β : Type} {x : Prepared α} {f : α → Prepared β} :
    Dies (x >>= f) ↔ Dies x ∨ ∃ d, x = .ok d ∧ Dies (f d) := by
  cases x with
  | error ending =>
    refine ⟨fun ⟨reason, hreason⟩ => .inl ⟨reason, congrArg Except.error (Except.error.inj hreason)⟩, ?_⟩
    rintro (⟨reason, hreason⟩ | ⟨d, hd, -⟩)
    · exact ⟨reason, congrArg Except.error (Except.error.inj hreason)⟩
    · cases hd
  | ok d =>
    refine ⟨fun hdies => .inr ⟨d, rfl, hdies⟩, ?_⟩
    rintro (⟨reason, hreason⟩ | ⟨e, he, hdies⟩)
    · cases hreason
    · exact Except.ok.inj he ▸ hdies

@[simp] theorem not_dies_ok {α : Type} (d : α) : ¬ Dies (.ok d : Prepared α) := by
  rintro ⟨reason, hreason⟩
  cases hreason

@[simp] theorem not_dies_refused {α : Type} (problem : Problem) :
    ¬ Dies (.error (.refused problem) : Prepared α) := by
  rintro ⟨reason, hreason⟩
  cases hreason

theorem dies_committed {reg : Registry W} {x : Prepared (Registry W × Params)} :
    (∃ reason, (committed reg x).ending = .died reason) ↔ Dies x := by
  cases x with
  | error ending => exact exists_congr fun reason => ⟨congrArg Except.error, Except.error.inj⟩
  | ok d => exact iff_of_false (fun ⟨reason, hreason⟩ => by cases hreason) (not_dies_ok d)

/-- An id that `uuid.UUID` takes. -/
def Readable (c : Codec) (v : Value) : Prop := (c.parseUuid (c.text v)).isSome = true

theorem dies_ident {c : Codec} {v : Value} : Dies (c.ident v) ↔ ¬ Readable c v := by
  unfold Readable Codec.ident Codec.uuid
  cases c.parseUuid (c.text v) with
  | none => exact iff_of_true ⟨_, rfl⟩ Bool.false_ne_true
  | some id => exact iff_of_false (not_dies_ok id) (not_not.mpr rfl)

theorem dies_assetArgument {c : Codec} {reg : Registry W} {v : Value} :
    Dies (assetArgument c reg (some v)) ↔ ¬ Readable c v := by
  unfold assetArgument
  rw [dies_bind, Option.getD_some, dies_ident]
  refine or_iff_left ?_
  rintro ⟨id, -, hdies⟩
  cases hfind : (reg.assets.find? fun a => a.id = id).filter fun a => a.deletedAt = none with
  | none =>
    rw [hfind] at hdies
    exact not_dies_refused _ hdies
  | some asset =>
    rw [hfind] at hdies
    exact not_dies_ok asset hdies

/-- The parameters with the ids that the tool reads before it asks the registry. -/
def idKeys (svc : Services W) (tool : String) : List String :=
  if tool = "acknowledge_alarm" then ["alarm_id"]
  else if tool = "create_work_order" then ["asset_id"]
  else if tool = "set_simulation_scenario" then if svc.simulator.isSome then ["asset_id"] else []
  else if tool = "give_feedback" then ["explanation_id"]
  else []

/-- The request that a tool builds from the parameters satisfies its schema, if it gets to build one. -/
def RequestFits (c : Codec) (tool : String) (params : Params) : Prop :=
  match tool with
  | "create_work_order" => ∀ assetId, ∃ data, createWorkOrderData c params assetId = .ok data
  | "generate_report" => ∃ data, generateReportData c params = .ok data
  | "give_feedback" =>
    argument tool params "explanation_id" ∉ [none, some .null] → ∃ data, giveFeedbackData params = .ok data
  | "set_simulation_scenario" => ∀ code, ∃ data, setSimulationScenarioData params code = .ok data
  | _ => True

/-- No parameter that the tool needs is missing, and an explanation is given as text. -/
structure IdsStored (tool : String) (params : Params) : Prop where
  text : tool = "give_feedback" → ∀ v, params.get? "explanation_id" = some v → ∃ s, v = .text s
  required : ∀ key ∈ requiredArguments tool, params.get? key ≠ none

theorem IdsStored.argument {tool : String} {params : Params} (h : IdsStored tool params) (key : String)
    (hkey : key ∈ requiredArguments tool) : ∃ v, params.get? key = some v ∧ argument tool params key = some v := by
  obtain ⟨v, hv⟩ := Option.ne_none_iff_exists'.mp (h.required key hkey)
  refine ⟨v, hv, ?_⟩
  unfold TwinVoice.Voice.argument
  rw [hv, Option.some_or]

variable {c : Codec} {svc : Services W} {ctx : ToolContext} {params : Params} {reg : Registry W}

theorem exists_unreadable {key : String} {v : Value} (hv : params.get? key = some v) :
    ¬ Readable c v ↔ ∃ v, params.get? key = some v ∧ ¬ Readable c v := by
  rw [hv]
  exact ⟨fun h => ⟨v, rfl, h⟩, fun ⟨u, hu, h⟩ => Option.some.inj hu ▸ h⟩

theorem acknowledgeAlarm_dies (hstored : IdsStored "acknowledge_alarm" params) :
    (∃ reason, (acknowledgeAlarm c svc ctx params reg).ending = .died reason) ↔
      ∃ v, params.get? "alarm_id" = some v ∧ ¬ Readable c v := by
  obtain ⟨v, hv, hargument⟩ := hstored.argument "alarm_id" (by decide)
  unfold acknowledgeAlarm acknowledgeAlarmData
  rw [dies_committed, dies_bind, hargument, Option.getD_some, dies_ident, ← exists_unreadable hv]
  refine or_iff_left ?_
  rintro ⟨id, -, hdies⟩
  split at hdies
  · exact not_dies_refused _ hdies
  · split at hdies
    · exact not_dies_refused _ hdies
    · exact not_dies_ok _ hdies

theorem createWorkOrder_dies (hstored : IdsStored "create_work_order" params)
    (hfits : RequestFits c "create_work_order" params) :
    (∃ reason, (createWorkOrder c svc ctx params reg).ending = .died reason) ↔
      ∃ v, params.get? "asset_id" = some v ∧ ¬ Readable c v := by
  obtain ⟨v, hv, hargument⟩ := hstored.argument "asset_id" (by decide)
  unfold createWorkOrder
  rw [dies_committed, dies_bind, hargument, dies_assetArgument, ← exists_unreadable hv]
  refine or_iff_left ?_
  rintro ⟨asset, -, hdies⟩
  obtain ⟨data, hdata⟩ := hfits asset.id
  rw [hdata] at hdies
  exact not_dies_ok _ hdies

theorem generateReport_dies (hfits : RequestFits c "generate_report" params) :
    ¬ ∃ reason, (generateReport c svc ctx params reg).ending = .died reason := by
  unfold generateReport
  obtain ⟨data, hdata⟩ := hfits
  rw [dies_committed, hdata, dies_bind]
  rintro (hdies | ⟨d, -, hdies⟩)
  · exact not_dies_ok data hdies
  rw [dies_bind] at hdies
  rcases hdies with hdies | ⟨target, -, hdies⟩
  · unfold resolveScope at hdies
    cases hid : d.scopeId with
    | some id =>
      rw [hid] at hdies
      exact not_dies_ok _ hdies
    | none =>
      rw [hid] at hdies
      cases hplant : svc.firstPlant reg.rest with
      | some plant =>
        rw [hplant] at hdies
        exact not_dies_ok _ hdies
      | none =>
        rw [hplant] at hdies
        exact not_dies_refused _ hdies
  · dsimp only at hdies
    split at hdies
    · exact not_dies_refused _ hdies
    · exact not_dies_ok _ hdies

theorem giveFeedback_dies (hstored : IdsStored "give_feedback" params)
    (hfits : RequestFits c "give_feedback" params) :
    (∃ reason, (giveFeedback c svc ctx params reg).ending = .died reason) ↔
      ∃ v, params.get? "explanation_id" = some v ∧ ¬ Readable c v := by
  unfold giveFeedback
  rw [dies_committed]
  rcases Option.eq_none_or_eq_some (params.get? "explanation_id") with hv | ⟨v, hv⟩
  · have hargument : argument "give_feedback" params "explanation_id" = some .null := by
      unfold argument
      rw [hv, Option.none_or]
      decide
    rw [hargument, hv]
    exact iff_of_false (not_dies_refused _) (fun ⟨v, hother, _⟩ => by cases hother)
  · obtain ⟨id, rfl⟩ := hstored.text rfl v hv
    have hargument : argument "give_feedback" params "explanation_id" = some (.text id) := by
      unfold argument
      rw [hv, Option.some_or]
    rw [hargument, ← exists_unreadable hv]
    show Dies _ ↔ _
    rw [dies_bind, dies_ident]
    refine or_iff_left ?_
    rintro ⟨read, -, hdies⟩
    obtain ⟨data, hdata⟩ := hfits (by rw [hargument]; simp)
    rw [hdata, dies_bind] at hdies
    rcases hdies with hdies | ⟨d, -, hdies⟩
    · exact not_dies_ok data hdies
    · split at hdies
      · exact not_dies_refused _ hdies
      · exact not_dies_ok _ hdies

theorem setSimulationScenario_dies (hstored : IdsStored "set_simulation_scenario" params)
    (hfits : RequestFits c "set_simulation_scenario" params) :
    (∃ reason, (setSimulationScenario c svc ctx params reg).ending = .died reason) ↔
      svc.simulator.isSome = true ∧ ∃ v, params.get? "asset_id" = some v ∧ ¬ Readable c v := by
  obtain ⟨v, hv, hargument⟩ := hstored.argument "asset_id" (by decide)
  unfold setSimulationScenario
  rw [dies_committed]
  cases svc.simulator with
  | none => exact iff_of_false (not_dies_refused _) (fun h => Bool.false_ne_true h.1)
  | some simulator =>
    rw [and_iff_right (a := (some simulator).isSome = true) rfl, ← exists_unreadable hv, hargument]
    show Dies (_ >>= _) ↔ _
    rw [dies_bind, dies_assetArgument]
    refine or_iff_left ?_
    rintro ⟨asset, -, hdies⟩
    obtain ⟨data, hdata⟩ := hfits asset.code
    rw [hdata, dies_bind] at hdies
    rcases hdies with hdies | ⟨d, -, hdies⟩
    · exact not_dies_ok data hdies
    rw [dies_bind] at hdies
    rcases hdies with ⟨reason, hreason⟩ | ⟨answer, -, hdies⟩
    · cases hanswer : (simulator d).answer with
      | ok done =>
        rw [hanswer] at hreason
        cases hreason
      | error problem =>
        rw [hanswer] at hreason
        cases hreason
    · exact not_dies_ok _ hdies

/-- A tool with a request that fits dies exactly at an id that it cannot read. -/
theorem tool_dies (ctx : ToolContext) (reg : Registry W) {others : String → Option (Tool W)} {tool : String}
    (htool : tool ∈ gatedTools) {run : Tool W} (hrun : toolTable c svc others tool = some run) (hstored : IdsStored tool params)
    (hfits : RequestFits c tool params) :
    (∃ reason, (run ctx params reg).ending = .died reason) ↔
      ∃ key ∈ idKeys svc tool, ∃ v, params.get? key = some v ∧ ¬ Readable c v := by
  have hone (key : String) : (∃ k ∈ [key], ∃ v, params.get? k = some v ∧ ¬ Readable c v) ↔
      ∃ v, params.get? key = some v ∧ ¬ Readable c v := by
    simp only [List.mem_singleton, exists_eq_left]
  simp only [gatedTools, List.mem_cons, List.not_mem_nil, or_false] at htool
  rcases htool with rfl | rfl | rfl | rfl | rfl
  · cases hrun
    exact (acknowledgeAlarm_dies hstored).trans (hone "alarm_id").symm
  · cases hrun
    exact (createWorkOrder_dies hstored hfits).trans (hone "asset_id").symm
  · cases hrun
    refine iff_of_false (generateReport_dies hfits) ?_
    rintro ⟨key, hkey, -⟩
    exact absurd hkey List.not_mem_nil
  · cases hrun
    refine (setSimulationScenario_dies hstored hfits).trans ?_
    show _ ↔ ∃ key ∈ (if svc.simulator.isSome then ["asset_id"] else []), _
    by_cases hsimulator : svc.simulator.isSome = true
    · rw [if_pos hsimulator, and_iff_right hsimulator, hone]
    · rw [if_neg hsimulator]
      exact iff_of_false (fun h => hsimulator h.1) (fun ⟨key, hkey, _⟩ => absurd hkey List.not_mem_nil)
  · cases hrun
    exact (giveFeedback_dies hstored hfits).trans (hone "explanation_id").symm

/-! ## Validation -/

theorem validateAsset_ok (reg : Registry W) : (∃ errors, validateAsset c reg params = .ok errors) ↔
    ∀ v, params.truthy? "asset_id" = some v → Readable c v := by
  unfold validateAsset Readable Codec.uuid
  cases params.truthy? "asset_id" with
  | none => exact iff_of_true ⟨[], rfl⟩ nofun
  | some v =>
    simp only [Option.some.injEq, forall_eq']
    cases c.parseUuid (c.text v) with
    | none => exact iff_of_false (fun ⟨errors, herrors⟩ => by cases herrors) Bool.false_ne_true
    | some id => exact iff_of_true ⟨_, rfl⟩ rfl

theorem validateAlarm_ok (reg : Registry W) {tool : String} : (∃ errors, validateAlarm c reg tool params = .ok errors) ↔
    (tool = "acknowledge_alarm" → ∀ v, params.truthy? "alarm_id" = some v → Readable c v) := by
  unfold validateAlarm Readable Codec.uuid
  cases params.truthy? "alarm_id" with
  | none => exact iff_of_true ⟨[], rfl⟩ (fun _ => nofun)
  | some v =>
    by_cases htool : tool = "acknowledge_alarm"
    · simp only [htool, if_true, Option.some.injEq, forall_eq', forall_const]
      cases c.parseUuid (c.text v) with
      | none => exact iff_of_false (fun ⟨errors, herrors⟩ => by cases herrors) Bool.false_ne_true
      | some id => exact iff_of_true ⟨_, rfl⟩ rfl
    · simp only [if_neg htool]
      exact iff_of_true ⟨[], rfl⟩ (fun h => absurd h htool)

/-- With a time that is an instant and no technician, only the ids can break the validation. -/
theorem validate_ok_iff {action : VoiceAction} {now : Instant}
    (hwhen : ∀ v, spokenTime (c.reviveParams action.params) = some v → ∃ t, v = .instant t)
    (htechnician : (c.reviveParams action.params).truthy? "technician_id" = none) :
    (∃ errors, validate c reg action now = .ok errors) ↔
      (∀ v, (c.reviveParams action.params).truthy? "asset_id" = some v → Readable c v) ∧
        (action.tool = "acknowledge_alarm" → ∀ v,
          (c.reviveParams action.params).truthy? "alarm_id" = some v → Readable c v) := by
  rw [← validateAsset_ok reg, ← validateAlarm_ok reg]
  unfold validate
  dsimp only
  have htime : ∃ errors, validateWhen c (c.reviveParams action.params) now = .ok errors := by
    unfold validateWhen
    cases hspoken : spokenTime (c.reviveParams action.params) with
    | none => exact ⟨[], rfl⟩
    | some v =>
      obtain ⟨t, rfl⟩ := hwhen v hspoken
      exact ⟨_, rfl⟩
  have hnobody : validateTechnician c reg (c.reviveParams action.params) = .ok [] := by
    unfold validateTechnician
    rw [htechnician]
  obtain ⟨time, htime⟩ := htime
  rw [htime, hnobody]
  cases validateAsset c reg (c.reviveParams action.params) with
  | error reason =>
    exact iff_of_false (fun ⟨errors, herrors⟩ => by cases herrors) (fun ⟨⟨errors, herrors⟩, _⟩ => by cases herrors)
  | ok asset =>
    cases validateAlarm c reg action.tool (c.reviveParams action.params) with
    | error reason =>
      exact iff_of_false (fun ⟨errors, herrors⟩ => by cases herrors) (fun ⟨_, errors, herrors⟩ => by cases herrors)
    | ok alarm => exact iff_of_true ⟨_, rfl⟩ ⟨⟨_, rfl⟩, _, rfl⟩

/-! ## Schemas -/

theorem validated_ok {α : Type} {valid : α → Bool} {d : α} :
    (∃ data, validated valid d = .ok data) ↔ valid d = true := by
  unfold validated
  by_cases hvalid : valid d = true
  · rw [if_pos hvalid]
    exact iff_of_true ⟨d, rfl⟩ hvalid
  · rw [if_neg hvalid]
    exact iff_of_false (fun ⟨data, hdata⟩ => by cases hdata) hvalid

theorem createWorkOrderData_ok (c : Codec) (assetId : Uuid) {task : String} {start : Option Instant}
    (htask : argument "create_work_order" params "task" = some (.text task))
    (hwhen : optionalInstant (argument "create_work_order" params "when") = .ok start)
    (htechnician : argument "create_work_order" params "technician_id" = some .null)
    (hduration : argument "create_work_order" params "est_duration_min" = some (.number 120)) :
    (∃ data, createWorkOrderData c params assetId = .ok data) ↔ task ≠ "" ∧ task.length ≤ 3981 := by
  unfold createWorkOrderData
  simp only [htask, hwhen, htechnician, hduration, textArgument, numberArgument, Codec.optionalIdent, bind, Except.bind]
  refine validated_ok.trans ?_
  have htitle : (String.ofList (task.toList.take 200)).length = min 200 task.length := by
    rw [String.length_ofList, List.length_take, String.length_toList]
  have hdescription : (raisedByVoice task).length = task.length + 19 := by
    have hlead : "Raised by voice: “".length = 18 := by decide
    have hquote : "”".length = 1 := by decide
    unfold raisedByVoice
    rw [String.length_append, String.length_append, hlead, hquote]
    omega
  have hempty : task ≠ "" ↔ 1 ≤ task.length := by
    rw [Nat.one_le_iff_ne_zero, ne_eq, ne_eq, String.length_eq_zero_iff]
  have hordered : ordered start (start.map fun t => t + minutes (120 : Rat).floor) = true := by
    cases start with
    | none => rfl
    | some t =>
      have hlater (t : Int) : t < t + 7200000000 := by omega
      exact decide_eq_true (hlater t)
  have hfloor : (1 : Int) ≤ (120 : Rat).floor ∧ (120 : Rat).floor ≤ 10080 := by decide
  unfold WorkOrderCreate.valid
  simp only [htitle, hdescription, hordered, hfloor, decide_eq_true_eq, and_true, hempty]
  omega

theorem generateReportData_ok {type scope : String} {start stop : Option Instant}
    (htype : argument "generate_report" params "type" = some (.text type)) (hknown : type ∈ reportTypes)
    (hscope : argument "generate_report" params "scope" = some (.text scope))
    (hid : argument "generate_report" params "scope_id" = some .null)
    (hstart : optionalInstant (argument "generate_report" params "period_start") = .ok start)
    (hstop : optionalInstant (argument "generate_report" params "period_end") = .ok stop)
    (hordered : ordered start stop = true)
    (hformat : argument "generate_report" params "format" = some (.text "pdf")) :
    (∃ data, generateReportData c params = .ok data) ↔ type ∉ assetReports ∧ scope ∈ reportScopes := by
  unfold generateReportData
  dsimp only
  rw [htype, hscope, hid, hstart, hstop, hformat]
  refine validated_ok.trans ?_
  have hpdf : "pdf" ∈ reportFormats := by decide
  unfold ReportCreate.valid
  simp only [hknown, hordered, hpdf, Option.all_some, decide_eq_true_eq, and_true, true_and]
  exact and_comm

theorem giveFeedbackData_ok {verdict : String} {reason : Option String}
    (hverdict : argument "give_feedback" params "verdict" = some (.text verdict))
    (hreason : optionalText (argument "give_feedback" params "reason") = .ok reason) :
    (∃ data, giveFeedbackData params = .ok data) ↔ verdict ∈ verdicts ∧ ∀ r ∈ reason, r.length ≤ 1000 := by
  unfold giveFeedbackData
  dsimp only
  rw [hverdict, hreason]
  refine validated_ok.trans ?_
  unfold FeedbackCreate.valid
  cases reason with
  | none => simp
  | some r => simp

theorem setSimulationScenarioData_ok {scenario code : String}
    (hscenario : argument "set_simulation_scenario" params "scenario" = some (.text scenario))
    (hseverity : argument "set_simulation_scenario" params "severity" = some (.number (1 / 2))) :
    ∃ data, setSimulationScenarioData params code = .ok data := by
  unfold setSimulationScenarioData
  dsimp only
  rw [hscenario, hseverity]
  refine validated_ok.mpr ?_
  have hhalf : (0 : Rat) ≤ 1 / 2 ∧ (1 / 2 : Rat) ≤ 1 := by norm_num
  exact decide_eq_true hhalf

/-! ## What the resolver stores -/

/-- The id that a parameter gets from the dialogue context. -/
def contextId (slots : Params) (context : DialogueContext) (key : String) : Option String :=
  if key = "asset_id" then if spokenReference slots = none then context.currentAssetId else none
  else if key = "alarm_id" then
    if spokenReference slots = none ∧ context.currentAssetId = none then context.lastAlarmId else none
  else if key = "explanation_id" then context.lastExplanationId
  else none

theorem references_id {result : RouterResult} {ref : AssetRef} (href : ref ∈ references w reg result) :
    ∃ id, w.codec.uuidText id = ref.id := by
  unfold references at href
  split at href
  · rcases List.mem_append.mp href with hasset | hline
    · obtain ⟨machine, -, rfl⟩ := List.mem_map.mp hasset
      exact ⟨machine.id, rfl⟩
    · obtain ⟨line, -, rfl⟩ := List.mem_map.mp hline
      exact ⟨line.id, rfl⟩
  · obtain ⟨machine, -, rfl⟩ := List.mem_map.mp href
    exact ⟨machine.id, rfl⟩

/-- The parameter that an intent has the id for. -/
def HasId (intent key : String) : Prop :=
  key = "asset_id" ∨ key = "alarm_id" ∧ intent = "acknowledge_alarm" ∨
    key = "explanation_id" ∧ intent = "give_feedback"

/-- What was spoken fits the request that the tool builds from it. -/
structure SlotsFit (intent : String) (slots : Params) (context : DialogueContext) : Prop where
  task : intent = "create_work_order" → ∀ t, slots.get? "task" = some (.text t) → t ≠ "" ∧ t.length ≤ 3981
  type : intent = "generate_report" → ∀ t, slots.get? "type" = some (.text t) → t ∉ assetReports
  scope : intent = "generate_report" → ∀ t, slots.get? "scope" = some (.text t) → t ∈ reportScopes
  verdict : intent = "give_feedback" → context.lastExplanationId ≠ none →
    ∀ t, slots.get? "verdict" = some (.text t) → t ∈ verdicts
  reason : intent = "give_feedback" → context.lastExplanationId ≠ none →
    ∀ t, slots.get? "reason" = some (.text t) → t.length ≤ 1000

theorem hasId_of_idKeys {svc : Services W} {tool key : String} (hkey : key ∈ idKeys svc tool) : HasId tool key := by
  have hone {k : String} {keys : List String} (hk : k ∈ keys) (hkeys : keys = ["asset_id"] ∨ keys = []) :
      HasId tool k := by
    rcases hkeys with rfl | rfl
    · exact .inl (List.mem_singleton.mp hk)
    · exact absurd hk List.not_mem_nil
  unfold idKeys at hkey
  split at hkey
  · exact .inr (.inl ⟨List.mem_singleton.mp hkey, ‹_›⟩)
  split at hkey
  · exact hone hkey (.inl rfl)
  split at hkey
  · refine hone hkey ?_
    split
    · exact .inl rfl
    · exact .inr rfl
  split at hkey
  · exact .inr (.inr ⟨List.mem_singleton.mp hkey, ‹_›⟩)
  · exact hone hkey (.inr rfl)

namespace ReadBackFrom

variable {x : Lexicon} {scorer : String → String → Rat} {data : UtteranceIn} {db : Database W} {p : Params}
  {session : VoiceSession} {result : RouterResult} {resolution : Resolution}
  (h : ReadBackFrom (shippedWiring w x scorer) env actor data db a p session result resolution)

include h

/-- A stored id is that of the context, or one that was written from the registry. -/
theorem storedId (hids : ∀ id, w.codec.parseUuid (w.codec.uuidText id) = some id) {key : String}
    (hkey : HasId result.intent key) :
    p.get? key = (contextId result.slots (liveContext session.context env.now) key).map Value.text ∨
      contextId result.slots (liveContext session.context env.now) key = none ∧
        ∃ id, p.get? key = some (.text id) ∧ Readable w.codec (.text id) := by
  obtain ⟨base, hstored⟩ := h.stored
  have hreadable (id : Uuid) : Readable w.codec (.text (w.codec.uuidText id)) := by
    show (w.codec.parseUuid (w.codec.uuidText id)).isSome = true
    rw [hids]
    rfl
  have hasset : base.get? "asset_id" = p.get? "asset_id" := (hstored.others _ (by decide)).symm
  rcases hkey with rfl | ⟨rfl, hintent⟩ | ⟨rfl, hintent⟩
  · rw [← hasset]
    unfold contextId
    rw [if_pos rfl]
    cases hstored.machine with
    | spoken v ref reference found entries =>
      have hspoken : spokenReference result.slots ≠ none := by
        rw [reference]
        exact Option.some_ne_none v
      refine .inr ⟨if_neg hspoken, ref.id, ?_, ?_⟩
      · rw [entries, Params.get?_set, if_neg (by decide), Params.get?_set, if_pos rfl]
      · obtain ⟨id, hid⟩ := references_id (Lexicon.resolve_mem found)
        exact hid ▸ hreadable id
    | remembered id silent live entries =>
      refine .inl ?_
      rw [if_pos silent, live, entries, Params.get?_set, if_neg (by decide), Params.get?_set, if_pos rfl]
      rfl
    | nothing silent live entries =>
      refine .inl ?_
      rw [if_pos silent, live, entries, h.get?_unspoken (by decide)]
      rfl
  · obtain ⟨id, hid, hresolved⟩ := hstored.alarm hintent
    unfold contextId
    rw [if_neg (by decide), if_pos rfl]
    unfold resolveAlarm at hresolved
    cases hmachine : base.get? "asset_id" with
    | none =>
      rw [hmachine] at hresolved
      have hlast := Except.ok.inj hresolved
      cases hstored.machine with
      | spoken v ref reference found entries =>
        rw [entries, Params.get?_set, if_neg (by decide), Params.get?_set, if_pos rfl] at hmachine
        cases hmachine
      | remembered other silent live entries =>
        rw [entries, Params.get?_set, if_neg (by decide), Params.get?_set, if_pos rfl] at hmachine
        cases hmachine
      | nothing silent live entries =>
        refine .inl ?_
        rw [if_pos ⟨silent, live⟩, hid]
        exact congrArg (Option.map Value.text) hlast.symm
    | some v =>
      rw [hmachine] at hresolved
      dsimp only at hresolved
      cases hread : (shippedWiring w x scorer).codec.uuid v with
      | error reason =>
        rw [hread] at hresolved
        cases hresolved
      | ok machine =>
      rw [hread] at hresolved
      obtain ⟨alarm, -, rfl⟩ := Option.map_eq_some_iff.mp (Except.ok.inj hresolved)
      refine .inr ⟨if_neg ?_, _, hid, hreadable _⟩
      rintro ⟨hsilent, hnothing⟩
      cases hstored.machine with
      | spoken v ref reference found entries =>
        rw [hsilent] at reference
        cases reference
      | remembered other silent live entries =>
        rw [hnothing] at live
        cases live
      | nothing silent live entries =>
        rw [entries, h.get?_unspoken (by decide)] at hmachine
        cases hmachine
  · refine .inl ?_
    rw [hstored.explanation hintent, hstored.machine.get?_other (by decide), h.get?_unspoken (by decide),
      Option.or_none]
    rfl

/-- The ids that cannot be read are those of the context. -/
theorem unreadable_iff (hids : ∀ id, w.codec.parseUuid (w.codec.uuidText id) = some id) {key : String}
    (hkey : HasId result.intent key) :
    (∃ v, p.get? key = some v ∧ ¬ Readable w.codec v) ↔
      ∃ id, contextId result.slots (liveContext session.context env.now) key = some id ∧
        ¬ Readable w.codec (.text id) := by
  rcases h.storedId hids hkey with hcontext | ⟨hnone, id, hid, hreadable⟩
  · rw [hcontext]
    constructor
    · rintro ⟨v, hv, hunreadable⟩
      obtain ⟨id, hid, rfl⟩ := Option.map_eq_some_iff.mp hv
      exact ⟨id, hid, hunreadable⟩
    · rintro ⟨id, hid, hunreadable⟩
      exact ⟨_, by rw [hid]; rfl, hunreadable⟩
  · rw [hnone, hid]
    refine iff_of_false ?_ (fun ⟨other, hother, _⟩ => by cases hother)
    rintro ⟨v, hv, hunreadable⟩
    exact hunreadable (Option.some.inj hv ▸ hreadable)

/-- What validation reads is readable, if the ids of the context are. -/
theorem truthy_readable_iff (hids : ∀ id, w.codec.parseUuid (w.codec.uuidText id) = some id) {key : String}
    (hkey : HasId result.intent key) :
    (∀ v, p.truthy? key = some v → Readable w.codec v) ↔
      ∀ id, contextId result.slots (liveContext session.context env.now) key = some id → id ≠ "" →
        Readable w.codec (.text id) := by
  unfold Params.truthy?
  rcases h.storedId hids hkey with hcontext | ⟨hnone, id, hid, hreadable⟩
  · rw [hcontext]
    constructor
    · intro hall id hid hne
      refine hall _ ?_
      rw [hid, Option.map_some, Option.filter_some, if_pos (by simp [Value.truthy, hne])]
    · intro hall v hv
      obtain ⟨hmap, htruthy⟩ := Option.filter_eq_some_iff.mp hv
      obtain ⟨id, hid, rfl⟩ := Option.map_eq_some_iff.mp hmap
      exact hall id hid (by simpa [Value.truthy] using htruthy)
  · rw [hnone, hid]
    refine iff_of_true (fun v hv => ?_) fun id hnone => by cases hnone
    obtain ⟨hsome, -⟩ := Option.filter_eq_some_iff.mp hv
    exact Option.some.inj hsome ▸ hreadable

theorem idsStored : IdsStored result.intent p := by
  refine ⟨fun hintent v hv => ?_, fun key hkey => h.required hkey⟩
  obtain ⟨base, hstored⟩ := h.stored
  rw [hstored.explanation hintent, hstored.machine.get?_other (by decide), h.get?_unspoken (by decide),
    Option.or_none] at hv
  obtain ⟨id, -, rfl⟩ := Option.map_eq_some_iff.mp hv
  exact ⟨id, rfl⟩

/-- A spoken time is an instant. -/
theorem when_instant {v : Value} (hv : p.get? "when" = some v) : ∃ t, v = .instant t := by
  rw [h.get?_params (by decide), h.get?_slots (by decide)] at hv
  obtain ⟨type, htype, hrest⟩ := Option.bind_eq_some_iff.mp hv
  obtain ⟨spoken, -, hparsed⟩ := Option.bind_eq_some_iff.mp hrest
  have htypes : ∀ tool ∈ gatedTools, slotType tool "when" = none ∨ slotType tool "when" = some "datetime" := by decide
  rcases htypes _ h.intent_gated with hnone | hdatetime
  · rw [htype] at hnone
    cases hnone
  · rw [htype] at hdatetime
    exact (parseSlot_instant hparsed).mpr (Option.some.inj hdatetime)


/-- A parameter that the tool needs was spoken, in words. -/
theorem spokenText (key : String) (hrequired : key ∈ requiredArguments result.intent)
    (hkey : key ∉ ["asset_id", "asset_label", "alarm_id", "explanation_id"]) (hwhen : key ≠ "when")
    (hbound : key ∉ Lexicon.boundKeys) :
    ∃ s, result.slots.get? key = some (.text s) ∧ argument result.intent p key = some (.text s) := by
  obtain ⟨v, hv, hargument⟩ := h.idsStored.argument key hrequired
  rw [h.get?_params hkey] at hv
  obtain ⟨s, rfl⟩ := h.get?_text hwhen hbound hv
  exact ⟨s, hv, hargument⟩

/-- A parameter with a default is what was spoken, or else the default. -/
theorem argument_spoken {key : String} (hkey : key ∉ ["asset_id", "asset_label", "alarm_id", "explanation_id"]) :
    argument result.intent p key = (result.slots.get? key).or ((signature result.intent).lookup key).join := by
  unfold argument
  rw [h.get?_params hkey]

theorem workOrder_fits_iff (hintent : result.intent = "create_work_order") {context : DialogueContext} :
    RequestFits w.codec result.intent p ↔ SlotsFit result.intent result.slots context := by
  obtain ⟨task, hslot, htask⟩ := h.spokenText "task" (by rw [hintent]; decide) (by decide) (by decide)
    (by decide)
  have hwhen : ∃ start, optionalInstant (argument result.intent p "when") = .ok start := by
    unfold argument
    cases hv : p.get? "when" with
    | none =>
      rw [hintent]
      exact ⟨none, rfl⟩
    | some v =>
      obtain ⟨t, rfl⟩ := h.when_instant hv
      exact ⟨some t, rfl⟩
  have htechnician := h.argument_unspoken "technician_id" (by decide) (by decide)
  have hduration := h.argument_unspoken "est_duration_min" (by decide) (by decide)
  obtain ⟨start, hstart⟩ := hwhen
  rw [hintent] at htask hstart htechnician hduration ⊢
  have hdata (assetId : Uuid) := createWorkOrderData_ok w.codec assetId htask hstart
    htechnician hduration
  show (∀ assetId, ∃ data, createWorkOrderData w.codec p assetId = .ok data) ↔ _
  constructor
  · intro hfits
    refine ⟨fun _ t ht => ?_, nofun, nofun, nofun, nofun⟩
    rw [hslot] at ht
    cases ht
    exact (hdata 0).mp (hfits 0)
  · intro hfit assetId
    exact (hdata assetId).mpr (hfit.task rfl task hslot)

theorem report_fits_iff (hintent : result.intent = "generate_report") {context : DialogueContext} :
    RequestFits w.codec result.intent p ↔ SlotsFit result.intent result.slots context := by
  obtain ⟨type, hslot, htype⟩ := h.spokenText "type" (by rw [hintent]; decide) (by decide) (by decide)
    (by decide)
  have hknown : type ∈ reportTypes := by
    obtain ⟨t, ht, htext⟩ := h.reportType (by rw [hintent]; decide) hslot
    have hterms : ∀ t ∈ reportTypeTerms.map Prod.snd, t ∈ reportTypes := by decide
    exact Value.text.inj htext ▸ hterms t ht
  have hscope : ∃ scope, argument result.intent p "scope" = some (.text scope) ∧
      (scope ∈ reportScopes ↔ ∀ t, result.slots.get? "scope" = some (.text t) → t ∈ reportScopes) := by
    rw [h.argument_spoken (by decide)]
    cases hv : result.slots.get? "scope" with
    | none =>
      rw [hintent]
      exact ⟨"plant", rfl, iff_of_true (by decide) nofun⟩
    | some v =>
      obtain ⟨t, rfl⟩ := h.get?_text (by decide) (by decide) hv
      exact ⟨t, rfl, fun ht u hu => Value.text.inj (Option.some.inj hu) ▸ ht, fun hall => hall t rfl⟩
  have hbounds : ∃ start stop, optionalInstant (argument result.intent p "period_start") = .ok start ∧
      optionalInstant (argument result.intent p "period_end") = .ok stop ∧ ordered start stop = true := by
    have hperiod : slotType result.intent "period" = some "period" := by
      rw [hintent]
      decide
    rw [h.argument_spoken (by decide), h.argument_spoken (by decide), h.get?_bound (by decide),
      h.get?_bound (by decide), if_pos hperiod, if_pos hperiod]
    unfold Lexicon.spokenBound
    cases result.rawSlots.lookup "period" with
    | none =>
      rw [hintent]
      exact ⟨none, none, rfl, rfl, rfl⟩
    | some spoken =>
      have hlater : Lexicon.boundOf "period_start" (x.parsePeriod spoken env.now) <
          Lexicon.boundOf "period_end" (x.parsePeriod spoken env.now) := by
        rw [Lexicon.boundOf, if_pos rfl, Lexicon.boundOf, if_neg (by decide)]
        exact bucketBounds_ordered (x.periodTerm spoken).1 (x.periodTerm spoken).2 env.now
      simp only [Option.elim_some, Option.some_or, optionalInstant]
      generalize Lexicon.boundOf "period_start" (x.parsePeriod spoken env.now) = start at hlater ⊢
      generalize Lexicon.boundOf "period_end" (x.parsePeriod spoken env.now) = stop at hlater ⊢
      exact ⟨some start, some stop, rfl, rfl, decide_eq_true hlater⟩
  have hid := h.argument_unspoken "scope_id" (by decide) (by decide)
  have hformat := h.argument_unspoken "format" (by decide) (by decide)
  obtain ⟨scope, hargument, hscopes⟩ := hscope
  obtain ⟨start, stop, hstart, hstop, hordered⟩ := hbounds
  rw [hintent] at htype hargument hid hstart hstop hformat ⊢
  show (∃ data, generateReportData w.codec p = .ok data) ↔ _
  rw [generateReportData_ok htype hknown hargument hid hstart hstop hordered hformat, hscopes]
  constructor
  · rintro ⟨hasset, hall⟩
    refine ⟨nofun, fun _ t ht => ?_, fun _ => hall, nofun, nofun⟩
    rw [hslot] at ht
    exact Value.text.inj (Option.some.inj ht) ▸ hasset
  · exact fun hfit => ⟨hfit.type rfl type hslot, hfit.scope rfl⟩


theorem feedback_fits_iff (hintent : result.intent = "give_feedback") :
    RequestFits w.codec result.intent p ↔
      SlotsFit result.intent result.slots (liveContext session.context env.now) := by
  generalize hcontext : liveContext session.context env.now = context
  obtain ⟨base, hstored⟩ := h.stored
  have hgiven : argument result.intent p "explanation_id" ∉ [none, some .null] ↔ context.lastExplanationId ≠ none := by
    unfold argument
    rw [hstored.explanation hintent, hstored.machine.get?_other (by decide), h.get?_unspoken (by decide),
      Option.or_none, hcontext, hintent]
    cases context.lastExplanationId with
    | none => exact iff_of_false (by decide) (fun hne => hne rfl)
    | some id => exact iff_of_true (by simp) (Option.some_ne_none id)
  have hverdict : ∃ verdict, argument result.intent p "verdict" = some (.text verdict) ∧
      (verdict ∈ verdicts ↔ ∀ t, result.slots.get? "verdict" = some (.text t) → t ∈ verdicts) := by
    rw [h.argument_spoken (by decide)]
    cases hv : result.slots.get? "verdict" with
    | none =>
      rw [hintent]
      exact ⟨"disagree", rfl, iff_of_true (by decide) nofun⟩
    | some v =>
      obtain ⟨t, rfl⟩ := h.get?_text (by decide) (by decide) hv
      exact ⟨t, rfl, fun ht u hu => Value.text.inj (Option.some.inj hu) ▸ ht, fun hall => hall t rfl⟩
  have hreason : ∃ reason, optionalText (argument result.intent p "reason") = .ok reason ∧
      ((∀ r ∈ reason, r.length ≤ 1000) ↔ ∀ t, result.slots.get? "reason" = some (.text t) → t.length ≤ 1000) := by
    rw [h.argument_spoken (by decide)]
    cases hv : result.slots.get? "reason" with
    | none =>
      rw [hintent]
      exact ⟨none, rfl, iff_of_true nofun nofun⟩
    | some v =>
      obtain ⟨t, rfl⟩ := h.get?_text (by decide) (by decide) hv
      refine ⟨some t, rfl, fun hall u hu => Value.text.inj (Option.some.inj hu) ▸ hall t rfl, fun hall r hr => ?_⟩
      exact Option.some.inj hr ▸ hall t rfl
  obtain ⟨verdict, hverdict, hverdicts⟩ := hverdict
  obtain ⟨reason, hreason, hreasons⟩ := hreason
  rw [hintent] at hgiven hverdict hreason ⊢
  show (argument "give_feedback" p "explanation_id" ∉ [none, some .null] →
    ∃ data, giveFeedbackData p = .ok data) ↔ _
  rw [hgiven, giveFeedbackData_ok hverdict hreason, hverdicts, hreasons]
  constructor
  · exact fun hall => ⟨nofun, nofun, nofun, fun _ hne => (hall hne).1, fun _ hne => (hall hne).2⟩
  · exact fun hfit hne => ⟨hfit.verdict rfl hne, hfit.reason rfl hne⟩

/-- The stored parameters fit the request of the tool exactly when what was spoken does. -/
theorem fits_iff : RequestFits w.codec result.intent p ↔
    SlotsFit result.intent result.slots (liveContext session.context env.now) := by
  have hgated := h.intent_gated
  simp only [gatedTools, List.mem_cons, List.not_mem_nil, or_false] at hgated
  rcases hgated with hintent | hintent | hintent | hintent | hintent
  · rw [hintent]
    exact iff_of_true trivial ⟨nofun, nofun, nofun, nofun, nofun⟩
  · exact h.workOrder_fits_iff hintent
  · exact h.report_fits_iff hintent
  · obtain ⟨scenario, -, hscenario⟩ := h.spokenText "scenario" (by rw [hintent]; decide) (by decide)
      (by decide) (by decide)
    have hseverity := h.argument_unspoken "severity" (by decide) (by decide)
    rw [hintent] at hscenario hseverity ⊢
    exact iff_of_true (fun code => setSimulationScenarioData_ok hscenario hseverity)
      ⟨nofun, nofun, nofun, nofun, nofun⟩
  · exact h.feedback_fits_iff hintent

/-- Validation breaks exactly at an id of the context that it reads. -/
theorem validates_iff (hids : ∀ id, w.codec.parseUuid (w.codec.uuidText id) = some id) (reg : Registry W)
    (now : Instant) :
    (∃ errors, validate w.codec reg a now = .ok errors) ↔
      ∀ key ∈ ["asset_id", "alarm_id"], HasId result.intent key → ∀ id,
        contextId result.slots (liveContext session.context env.now) key = some id → id ≠ "" →
          Readable w.codec (.text id) := by
  have htool : a.tool = result.intent := by
    obtain ⟨turn, ha⟩ := h.action
    rw [ha]
    rfl
  have hunplanned : p.get? "planned_start" = none := by
    rw [h.get?_params (by decide), h.get?_slots (by decide)]
    have htypes : ∀ tool ∈ gatedTools, slotType tool "planned_start" = none := by decide
    rw [htypes _ h.intent_gated, Option.bind_none]
  have hwhen (v : Value) (hv : spokenTime (w.codec.reviveParams a.params) = some v) : ∃ t, v = .instant t := by
    have hspoken : (p.truthy? "when").or (p.truthy? "planned_start") = some v := h.revived ▸ hv
    unfold Params.truthy? at hspoken
    rw [hunplanned, Option.filter_none, Option.or_none] at hspoken
    exact h.when_instant (Option.filter_eq_some_iff.mp hspoken).1
  have htechnician : (w.codec.reviveParams a.params).truthy? "technician_id" = none := by
    rw [h.revived]
    unfold Params.truthy?
    rw [h.get?_params (by decide), h.get?_unspoken (by decide)]
    rfl
  rw [validate_ok_iff hwhen htechnician, h.revived, htool, h.truthy_readable_iff hids (.inl rfl)]
  constructor
  · rintro ⟨hasset, halarm⟩ key hkey hhas
    simp only [List.mem_cons, List.not_mem_nil, or_false] at hkey
    rcases hkey with rfl | rfl
    · exact hasset
    · rcases hhas with hother | ⟨-, hintent⟩ | ⟨hother, -⟩
      · exact absurd hother (by decide)
      · exact (h.truthy_readable_iff hids (.inr (.inl ⟨rfl, hintent⟩))).mp (halarm hintent)
      · exact absurd hother (by decide)
  · intro hall
    refine ⟨hall _ (by decide) (.inl rfl), fun hintent => ?_⟩
    have hhas : HasId result.intent "alarm_id" := .inr (.inl ⟨rfl, hintent⟩)
    exact (h.truthy_readable_iff hids hhas).mpr (hall _ (by decide) hhas)


end ReadBackFrom

/-- What settles the confirmation of a read-back: the request fits what was spoken, the PIN check answers if it is
asked, and the ids that the context brought in can be read by whoever reads them. -/
structure Confirmable (w : Wiring) (svc : Services W) (later : Env W) (caller : CurrentUser) (pin : Option String)
    (reg : Registry W) (a : VoiceAction) (context : DialogueContext) (result : RouterResult) : Prop where
  fits : SlotsFit result.intent result.slots context
  answers : AnswersPin later caller a.tier pin
  validated : Reaches later caller a.tier pin → ∀ key ∈ ["asset_id", "alarm_id"], HasId result.intent key →
    ∀ id, contextId result.slots context key = some id → id ≠ "" → Readable w.codec (.text id)
  read : Reaches later caller a.tier pin → validate w.codec reg a later.later = .ok [] →
    ∀ key ∈ idKeys svc result.intent, ∀ id, contextId result.slots context key = some id → Readable w.codec (.text id)

/-- In every session that still has the action as it was read back, confirming it in time settles it, and its
parameters fit the request of the tool, exactly when it is `Confirmable`. -/
theorem confirmed_settles_iff {x : Lexicon} {scorer : String → String → Rat} {data : UtteranceIn} {db : Database W}
    {p : Params} (hids : ∀ id, w.codec.parseUuid (w.codec.uuidText id) = some id)
    (hread : Event.readBack a p ∈ (afterUtterance (shippedWiring w x scorer) env actor data db).log)
    {later : Env W} (hintime : later.later < env.now + confirmWindow) {svc : Services W}
    {others : String → Option (Tool W)} (htools : later.tools = toolTable w.codec svc others)
    (hwork : s.work.actions.find a.id = some a) (hstored : s.stored.actions.find a.id = some a)
    (caller : CurrentUser) (pin : Option String) (lang : String) :
    ∃ session result, understoodAs (shippedWiring w x scorer) env actor data db = some (session, result) ∧
      (SettledBy ((confirm (shippedWiring w x scorer) later caller a.id pin lang).run s) a.id ∧
          RequestFits w.codec a.tool p ↔
        Confirmable w svc later caller pin s.work.registry a (liveContext session.context env.now) result) := by
  obtain ⟨session, result, resolution, h⟩ := readBackFrom hread
  refine ⟨session, result, h.heard, ?_⟩
  obtain ⟨turn, ha⟩ := h.action
  have htool : a.tool = result.intent := by rw [ha]; rfl
  have hpending : a.status = .pending := by rw [ha]; rfl
  have hopen : a.windowClosed later.later = false := by
    rw [ha]
    exact decide_eq_false (not_le.mpr hintime)
  have hknown : ∀ tool ∈ gatedTools, ∃ run, toolTable w.codec svc others tool = some run := by
    intro tool hgated
    simp only [gatedTools, List.mem_cons, List.not_mem_nil, or_false] at hgated
    obtain rfl | rfl | rfl | rfl | rfl := hgated <;> exact ⟨_, rfl⟩
  obtain ⟨run, hrun⟩ := hknown _ h.intent_gated
  have hrun' : later.tools a.tool = some run := by rw [htools, htool, hrun]
  have hdies (hfits : RequestFits w.codec result.intent p) :
      (∀ reason, (confirmedCall (shippedWiring w x scorer) later caller lang s.work a run).ending ≠ .died reason) ↔
        ∀ key ∈ idKeys svc result.intent, ∀ id,
          contextId result.slots (liveContext session.context env.now) key = some id → Readable w.codec (.text id) := by
    have hcall : confirmedCall (shippedWiring w x scorer) later caller lang s.work a run =
        run (confirmContext later caller (sessionIdOf s.work a) lang) p s.work.registry :=
      congrArg (fun params => run (confirmContext later caller (sessionIdOf s.work a) lang) params s.work.registry)
        h.revived
    rw [hcall]
    have htool := tool_dies (confirmContext later caller (sessionIdOf s.work a) lang) s.work.registry h.intent_gated
      hrun h.idsStored hfits
    constructor
    · intro hlives key hkey id hid
      by_contra hunreadable
      obtain ⟨reason, hreason⟩ := htool.mpr
        ⟨key, hkey, (h.unreadable_iff hids (hasId_of_idKeys hkey)).mpr ⟨id, hid, hunreadable⟩⟩
      exact hlives reason hreason
    · intro hall reason hreason
      obtain ⟨key, hkey, hunreadable⟩ := htool.mp ⟨reason, hreason⟩
      obtain ⟨id, hid, hunreadable⟩ := (h.unreadable_iff hids (hasId_of_idKeys hkey)).mp hunreadable
      exact hunreadable (hall key hkey id hid)
  have hvalidates := h.validates_iff hids s.work.registry later.later
  rw [confirm_settles_iff (w := shippedWiring w x scorer) hwork hstored hpending hopen hrun', htool]
  constructor
  · rintro ⟨⟨hanswers, hreached⟩, hfits⟩
    refine ⟨h.fits_iff.mp hfits, hanswers, fun hreaches => ?_, fun hreaches hclear => ?_⟩
    · obtain ⟨errors, herrors, -⟩ := hreached hreaches
      exact hvalidates.mp ⟨errors, herrors⟩
    · obtain ⟨errors, herrors, hlives⟩ := hreached hreaches
      have hnone : errors = [] := Except.ok.inj (herrors.symm.trans hclear)
      exact (hdies hfits).mp (hlives hnone)
  · rintro ⟨hfits, hanswers, hvalidated, hreads⟩
    have hrequest := h.fits_iff.mpr hfits
    refine ⟨⟨hanswers, fun hreaches => ?_⟩, hrequest⟩
    obtain ⟨errors, herrors⟩ := hvalidates.mpr (hvalidated hreaches)
    refine ⟨errors, herrors, fun hnone => (hdies hrequest).mpr (hreads hreaches ?_)⟩
    rw [← hnone]
    exact herrors

/-! The weekly report is confirmed, and so is one on the health of the machine
that was named before. -/

/-- Services that write nothing and find one plant. -/
def quietServices : Services Unit where
  now := seconds 8
  acknowledge _ _ _ rest := rest
  addOrder _ _ rest := (⟨rest, 40, seconds 8⟩, 1)
  firstPlant _ := some 2
  addReport _ _ _ _ _ _ _ rest := ⟨rest, 41, seconds 8⟩
  hasExplanation _ _ := true
  addFeedback _ _ _ rest := ⟨rest, 42, seconds 8⟩
  simulator := none
  noteFault _ _ _ rest := rest

/-- The request that confirms, three seconds after the read-back. -/
def confirming : Env Unit :=
  { atSecond 8 with tools := toolTable decimalCodec quietServices fun _ => none }

def afterAsking (text : String) : Session (Database Unit) Event :=
  let db := (afterUtterance pressService (atSecond 5) operator (say text none) namedDatabase).stored
  ⟨db, db, []⟩

theorem confirmed_report_settles :
    SettledBy ((confirm pressService confirming operator 21 none "en").run
      (afterAsking "generate the weekly report for this week")) 21 ∧
    RequestFits decimalCodec "generate_report" weeklyParams := by
  obtain ⟨⟨hread, hheld⟩, hasked⟩ := weeklyReport_asked
  obtain ⟨session, result, hheard, hiff⟩ := confirmed_settles_iff decimalCodec_ids hread
    (by decide : confirming.later < (atSecond 5).now + confirmWindow) rfl
    (s := afterAsking "generate the weekly report for this week") hheld hheld operator none "en"
  obtain ⟨hcontext, hintent, hslots, -⟩ := hasked _ hheard
  dsimp only at hcontext hintent hslots
  have hreadable : ∀ key ∈ ["asset_id", "alarm_id"],
      ∀ id ∈ contextId (weeklyParams.take 4) (liveContext namedContext (seconds 5)) key,
        (decimalCodec.parseUuid id).isSome = true := by decide +kernel
  refine hiff.mpr ⟨?_, .inr ⟨true, rfl⟩, fun _ key hkey _ id hid _ => ?_, fun _ _ key hkey => ?_⟩
  · rw [hintent, hslots]
    refine ⟨fun h => absurd h (by decide), fun _ t ht => ?_, nofun, fun h => absurd h (by decide),
      fun h => absurd h (by decide)⟩
    cases ht
    decide
  · rw [hcontext, hslots] at hid
    exact hreadable key hkey id hid
  · rw [hintent] at hkey
    exact absurd hkey List.not_mem_nil

def healthParams : Params := [("type", .text "machine_health"), ("asset_id", .text "5"), ("asset_label", .null)]

/-- Nothing stores the machine as the scope of the report. -/
def healthReport : VoiceAction := readAtFive "generate_report" healthParams
  "Generating the machine health report for the plant, as PDF. Say confirm or cancel."

theorem health_report_unsettled :
    ¬ ∀ (w : Wiring) (x : Lexicon) (scorer : String → String → Rat) (env : Env Unit) (actor : CurrentUser)
      (data : UtteranceIn) (db : Database Unit) (a : VoiceAction) (p : Params) (later : Env Unit)
      (svc : Services Unit) (others : String → Option (Tool Unit)) (s : Session (Database Unit) Event)
      (caller : CurrentUser) (pin : Option String) (lang : String),
      (∀ id, w.codec.parseUuid (w.codec.uuidText id) = some id) →
      Event.readBack a p ∈ (afterUtterance (shippedWiring w x scorer) env actor data db).log →
      later.later < env.now + confirmWindow → later.tools = toolTable w.codec svc others →
      s.work.actions.find a.id = some a → s.stored.actions.find a.id = some a →
      SettledBy ((confirm (shippedWiring w x scorer) later caller a.id pin lang).run s) a.id := by
  intro h
  have hasked : (Event.readBack healthReport healthParams ∈ (afterUtterance pressService (atSecond 5) operator
        (say "generate the machine health report" none) namedDatabase).log ∧
      (afterAsking "generate the machine health report").work.actions.find 21 = some healthReport) ∧
      ((confirm pressService confirming operator 21 none "en").run
        (afterAsking "generate the machine health report")).2.stored.actions.find 21 = some healthReport := by
    decide +kernel
  obtain ⟨⟨hread, hheld⟩, hleft⟩ := hasked
  obtain ⟨⟨b, hb, hdone⟩, -⟩ := h _ _ _ _ _ _ _ _ _ confirming quietServices (fun _ => none) _ operator none "en"
    decimalCodec_ids hread (by decide) rfl hheld hheld
  have hsame : b = healthReport := Option.some.inj (hb.symm.trans hleft)
  rw [hsame] at hdone
  exact absurd hdone (by decide)

end TwinVoice.Voice
