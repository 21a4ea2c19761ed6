import TwinVoice.Voice.Service

/-! # One turn of the dialogue

`handle` and what it calls: the two ways through it are the control phrases,
which act on the session's pending action, and the intents, whose slots are
resolved against the registry and the dialogue context. -/

namespace TwinVoice.Voice

open TwinVoice.Lib TwinVoice.Nlu

variable {W : Type}

structure UtteranceIn where
  text : String
  sessionId : Option Uuid
  lang : Option String
  channel : String
  transcriptConfidence : Option Rat
  sttMs : Option Int
  snrDb : Option Rat

structure Suggestion where
  label : String
  value : String

structure TurnResponse where
  sessionId : Uuid
  turnId : Uuid
  intent : String
  tier : Tier
  router : RouterKind
  confidence : Rat
  lang : String
  slots : Params
  text : String
  citations : Params
  hypothetical : Bool
  action : Option VoiceAction
  suggestions : List Suggestion
  navigate : Option Params

/-- `pending_for_session`: the one read-back that a bare control phrase refers to. -/
def pendingForSession (db : Database W) (sessionId : Uuid) (now : Instant) : Option VoiceAction :=
  newest VoiceAction.createdAt <| db.actions.select fun a =>
    a.status = .pending && (match a.expiresAt with | some t => decide (now < t) | none => false) &&
      sessionIdOf db a = some sessionId

def lastTurn (db : Database W) (sessionId : Uuid) : Option VoiceTurn :=
  newest VoiceTurn.at <| db.turns.select fun t => t.sessionId = sessionId

/-- `expire_stale`: every read-back whose window has closed. -/
def expireStale (db : Database W) (now : Instant) : Database W :=
  { db with
    actions := db.actions.update (fun a => a.status = .pending && a.windowClosed now)
      (fun a => { a with status := .expired }) fun _ => rfl }

/-! ## Dialogue context -/

def liveContext (context : DialogueContext) (now : Instant) : DialogueContext :=
  match context.touchedAt with
  | some touched => if now - touched > contextTtl then DialogueContext.empty else context
  | none => context

/-- `_remember`: what the turn names replaces what the live context held. -/
def remember (context : DialogueContext) (now : Instant)
    (assetId assetCode predictionId explanationId : Option String) : DialogueContext :=
  let live := liveContext context now
  { live with
    currentAssetId := assetId.or live.currentAssetId
    currentAssetCode := if assetId.isSome then assetCode else live.currentAssetCode
    lastPredictionId := predictionId.or live.lastPredictionId
    lastExplanationId := explanationId.or live.lastExplanationId
    touchedAt := some now }

/-! ## Slot resolution -/

def Registry.assetRefs (c : Codec) (reg : Registry W) : List AssetRef :=
  (reg.assets.filter fun a => a.deletedAt = none ∧ a.status ≠ "retired").map fun a =>
    ⟨c.uuidText a.id, a.code, a.name⟩

def Registry.lineRefs (c : Codec) (reg : Registry W) : List AssetRef :=
  (reg.lines.filter fun l => l.deletedAt = none).map fun l => ⟨c.uuidText l.id, l.code, l.name⟩

def suggestion (ref : AssetRef) : Suggestion := ⟨ref.name, ref.id⟩

def needAsWell (name : String) : String := "I need the " ++ name.replace "_" " " ++ " as well."

def askFor (argument : String) : String :=
  match argument with
  | "asset_id" => "Which machine do you mean?"
  | "alarm_id" => "Which alarm do you mean?"
  | "explanation_id" => "Which prediction should I explain?"
  | "scope_id" => "For which machine or line?"
  | "task" => "What should the work order say?"
  | _ => needAsWell (argument.replace "_id" "")

/-- What slot resolution comes to: parameters, or a question to ask instead. -/
structure Resolution where
  context : DialogueContext
  params : Params
  ask : Option String
  suggestions : List Suggestion

/-- `_resolve_alarm`: the newest alarm of the machine that is still active. -/
def resolveAlarm (c : Codec) (reg : Registry W) (assetId : Option Value) (context : DialogueContext) :
    Except String (Option String) :=
  match assetId with
  | none => .ok context.lastAlarmId
  | some v => (c.uuid v).map fun id =>
      (newest Alarm.raisedAt (reg.alarms.filter fun a => a.assetId = id ∧ a.status = "active")).map
        fun a => c.uuidText a.id

/-- The least name, in the order of `sorted`. -/
def least (names : List String) : Option String :=
  names.foldl (fun best n =>
    match best with
    | none => some n
    | some b => if n < b then some n else some b) none

/-- The last part of `_resolve`: what the tool or the intent still lacks. -/
def missingQuestion (w : Wiring) (result : RouterResult) (params : Params) : Option String :=
  match (w.requiredArguments result.intent).find? (· ∉ params.keys) with
  | some name => some (askFor name)
  | none =>
    let scopeSlot := if "scope" ∈ result.slots.keys then "scope" else "asset"
    let required := match w.catalogue.get result.intent with
      | some intent => (intent.slots.filter Slot.required).map Slot.name
      | none => []
    let satisfied := params.keys ++ if (params.truthy? "asset_id").isSome then [scopeSlot] else []
    let missing := required.filter fun name =>
      name ∉ satisfied ∧ name ∉ ["asset", "alarm", "scope", "verdict", "parameter"]
    (least missing).map needAsWell

def spokenReference (slots : Params) : Option Value :=
  (slots.truthy? "asset").or ((slots.truthy? "alarm").or (slots.truthy? "scope"))

/-- The reference as a machine or line: parameters that name it, or a question. -/
def resolveReference (w : Wiring) (reg : Registry W) (session : VoiceSession) (result : RouterResult)
    (spoken : Value) (now : Instant) : Resolution :=
  let assets := reg.assetRefs w.codec
  let lines := reg.lineRefs w.codec
  let refs := if result.intent = "get_kpi" ∨ "scope" ∈ result.slots.keys then assets ++ lines else assets
  match w.resolve (w.codec.text spoken) refs with
  | (none, alternatives) =>
    let text := if alternatives.isEmpty then "I don't know a machine called " ++ w.codec.text spoken ++ "."
      else w.didYouMean (alternatives.map AssetRef.name) session.lang
    ⟨session.context, result.slots, some text, alternatives.map suggestion⟩
  | (some ref, _) =>
    let named := (result.slots.set "asset_id" (.text ref.id)).set "asset_label" (.text ref.name)
    let scope := if ref.id ∈ lines.map AssetRef.id then "line" else "asset"
    let params := if result.intent = "get_kpi"
      then ((named.set "scope_id" (.text ref.id)).set "scope" (.text scope)).set
        "scope_label" (.text ref.name)
      else named
    ⟨remember session.context now (some ref.id) (some ref.code) none none, params, none, []⟩

/-- No reference was spoken: the machine of the live context, if there is one. -/
def resolveFromContext (session : VoiceSession) (result : RouterResult) (now : Instant) : Resolution :=
  match (liveContext session.context now).currentAssetId with
  | none => ⟨session.context, result.slots, none, []⟩
  | some id =>
    let label := match (liveContext session.context now).currentAssetLabel with
      | some l => Value.text l
      | none => Value.null
    let named := (result.slots.set "asset_id" (.text id)).set "asset_label" label
    let params := if result.intent = "get_kpi"
      then (named.setDefault "scope_id" (.text id)).setDefault "scope" (.text "asset")
      else named
    ⟨session.context, params, none, []⟩

/-- `_resolve`. A malformed id is the one exception it can end in. -/
def resolveSlots (w : Wiring) (reg : Registry W) (session : VoiceSession) (result : RouterResult)
    (now : Instant) : Except String Resolution := do
  let context := liveContext session.context now
  let r := match spokenReference result.slots with
    | some spoken => resolveReference w reg session result spoken now
    | none => resolveFromContext session result now
  if r.ask.isSome then return r
  let alarm ← if result.intent = "acknowledge_alarm"
    then (resolveAlarm w.codec reg (r.params.get? "asset_id") context).map some
    else .ok none
  match alarm with
  | some none => return { r with ask := some "I can't find an open alarm on that machine." }
  | _ =>
    let params := match alarm with
      | some (some id) => r.params.set "alarm_id" (.text id)
      | _ => r.params
    let params := match context.lastExplanationId with
      | some id => if result.intent = "give_feedback" then params.set "explanation_id" (.text id) else params
      | none => params
    return { r with params := params, ask := missingQuestion w result params }

/-- The machine of an utterance, spoken or remembered. -/
def resolveMachine (w : Wiring) (reg : Registry W) (session : VoiceSession) (result : RouterResult)
    (now : Instant) : Resolution :=
  match spokenReference result.slots with
  | some spoken => resolveReference w reg session result spoken now
  | none => resolveFromContext session result now

/-- The parameters that intents of their own kind have besides, and what is still missing. -/
def completeSlots (w : Wiring) (result : RouterResult) (context : DialogueContext) (r : Resolution)
    (alarm : Option (Option String)) : Resolution :=
  match alarm with
  | some none => { r with ask := some "I can't find an open alarm on that machine." }
  | _ =>
    let params := match alarm with
      | some (some id) => r.params.set "alarm_id" (.text id)
      | _ => r.params
    let params := match context.lastExplanationId with
      | some id => if result.intent = "give_feedback" then params.set "explanation_id" (.text id) else params
      | none => params
    { r with params := params, ask := missingQuestion w result params }

/-- The machine first, then the alarm, then the rest. -/
theorem resolveSlots_eq (w : Wiring) (reg : Registry W) (session : VoiceSession) (result : RouterResult)
    (now : Instant) :
    resolveSlots w reg session result now =
      if (resolveMachine w reg session result now).ask.isSome then .ok (resolveMachine w reg session result now)
      else (if result.intent = "acknowledge_alarm"
        then (resolveAlarm w.codec reg ((resolveMachine w reg session result now).params.get? "asset_id")
          (liveContext session.context now)).map some
        else .ok none) >>= fun alarm =>
          .ok (completeSlots w result (liveContext session.context now) (resolveMachine w reg session result now)
            alarm) := by
  unfold resolveSlots resolveMachine
  cases spokenReference result.slots with
  | some spoken =>
    refine if_congr Iff.rfl rfl ?_
    by_cases hintent : result.intent = "acknowledge_alarm"
    · rw [if_pos hintent, if_pos hintent]
      dsimp only
      cases resolveAlarm w.codec reg ((resolveReference w reg session result spoken now).params.get? "asset_id")
          (liveContext session.context now) with
      | error reason => rfl
      | ok id => cases id <;> rfl
    · rw [if_neg hintent, if_neg hintent]
      rfl
  | none =>
    refine if_congr Iff.rfl rfl ?_
    by_cases hintent : result.intent = "acknowledge_alarm"
    · rw [if_pos hintent, if_pos hintent]
      dsimp only
      cases resolveAlarm w.codec reg ((resolveFromContext session result now).params.get? "asset_id")
          (liveContext session.context now) with
      | error reason => rfl
      | ok id => cases id <;> rfl
    · rw [if_neg hintent, if_neg hintent]
      rfl

/-- What slot resolution ends in: what became of the machine, or that with the
rest of the parameters, among them the alarm that was looked for. -/
theorem resolveSlots_ok {w : Wiring} {reg : Registry W} {session : VoiceSession} {result : RouterResult}
    {now : Instant} {resolution : Resolution} (h : resolveSlots w reg session result now = .ok resolution) :
    let r := resolveMachine w reg session result now
    let context := liveContext session.context now
    r.ask.isSome ∧ resolution = r ∨
      r.ask = none ∧ ∃ alarm, resolution = completeSlots w result context r alarm ∧
        (result.intent = "acknowledge_alarm" →
          ∃ id, alarm = some id ∧ resolveAlarm w.codec reg (r.params.get? "asset_id") context = .ok id) ∧
        (result.intent ≠ "acknowledge_alarm" → alarm = none) := by
  intro r context
  rw [resolveSlots_eq] at h
  by_cases hask : r.ask.isSome
  · rw [if_pos hask] at h
    exact .inl ⟨hask, (Except.ok.inj h).symm⟩
  · rw [if_neg hask] at h
    refine .inr ⟨Option.not_isSome_iff_eq_none.mp hask, ?_⟩
    by_cases hintent : result.intent = "acknowledge_alarm"
    · rw [if_pos hintent] at h
      cases halarm : resolveAlarm w.codec reg (r.params.get? "asset_id") context with
      | error reason =>
        rw [halarm] at h
        cases h
      | ok id =>
        rw [halarm] at h
        exact ⟨some id, (Except.ok.inj h).symm, fun _ => ⟨id, rfl, rfl⟩, fun hne => absurd hintent hne⟩
    · rw [if_neg hintent] at h
      exact ⟨none, (Except.ok.inj h).symm, fun heq => absurd heq hintent, fun _ => rfl⟩

theorem context_completeSlots (w : Wiring) (result : RouterResult) (context : DialogueContext) (r : Resolution)
    (alarm : Option (Option String)) : (completeSlots w result context r alarm).context = r.context := by
  unfold completeSlots
  split <;> rfl

end TwinVoice.Voice
