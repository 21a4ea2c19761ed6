import TwinVoice.Voice.Dialogue

/-! # Handling an utterance

The two paths of `handle`. A control phrase goes to `handleControl`, where it
repeats, cancels or confirms; everything else goes to `respond`, which asks
back, answers, reads an action back or runs a tool at once. -/

namespace TwinVoice.Voice

open TwinVoice.Lib TwinVoice.Nlu

variable {W : Type}

def saveTurn (turn : VoiceTurn) : VoiceTx W Unit :=
  Tx.write fun db => { db with
    turns := db.turns.modify turn.id (fun r => { turn with id := r.id }) fun _ => rfl }

def saveContext (session : VoiceSession) (context : DialogueContext) : VoiceTx W Unit :=
  Tx.write fun db => { db with
    sessions := db.sessions.modify session.id (fun r => { r with context := context }) fun _ => rfl }

/-- An `INSERT` of an id in use is an `IntegrityError`. -/
def integrityError : Failure := .crash "IntegrityError"

def addTurn (turn : VoiceTurn) : VoiceTx W Unit := do
  let db ← Tx.read
  let turns ← Tx.orRaise (db.turns.insert turn) integrityError
  Tx.write fun db => { db with turns := turns }

def orCrash {α : Type} : Except String α → VoiceTx W α
  | .ok a => pure a
  | .error reason => Tx.raise (.crash reason)

def newSession (env : Env W) (actor : CurrentUser) (data : UtteranceIn) : VoiceSession :=
  ⟨env.newSession, some actor.userId, data.channel, none, data.lang.getD "en", DialogueContext.empty⟩

/-- `get_session_or_404`, or `start_session` with its own commit. -/
def openSession (env : Env W) (actor : CurrentUser) (data : UtteranceIn) : VoiceTx W VoiceSession := do
  let db ← Tx.read
  match data.sessionId with
  | some id => Tx.orRaise (db.sessions.find id) (.problem (.notFound "Voice session not found"))
  | none => do
    let session := newSession env actor data
    let sessions ← Tx.orRaise (db.sessions.insert session) integrityError
    Tx.write fun db => { db with sessions := sessions }
    Tx.commit
    return session

/-- The recogniser gave a confidence, and it is below the threshold. -/
def UtteranceIn.doubted (data : UtteranceIn) : Bool :=
  match data.transcriptConfidence with
  | some c => c < lowTranscriptConfidence
  | none => false

/-- The part of a response that every branch of `respond` shares. -/
def baseResponse (w : Wiring) (session : VoiceSession) (turn : VoiceTurn) (result : RouterResult)
    (lang : String) : TurnResponse where
  sessionId := session.id
  turnId := turn.id
  intent := result.intent
  tier := result.tier
  router := result.router
  confidence := result.confidence
  lang := lang
  slots := w.codec.jsonable result.slots
  text := ""
  citations := []
  hypothetical := false
  action := none
  suggestions := []
  navigate := none

def outputText (c : Codec) (output : Params) (key : String) : Option String :=
  (output.truthy? key).map c.text

/-- `_execute_now`. -/
def executeNow (w : Wiring) (env : Env W) (actor : CurrentUser) (session : VoiceSession)
    (result : RouterResult) (resolution : Resolution) (lang : String) (base : TurnResponse) :
    VoiceTx W TurnResponse := do
  let context : ToolContext := ⟨actor, env.later, lang, some session.id, resolution.context⟩
  match ← callTool env none result.intent context resolution.params with
  | .error problem => return { base with text := problem.text }
  | .ok output =>
    let out := outputText w.codec output
    saveContext session (remember resolution.context env.later (out "asset_id") (out "asset_code")
      (out "prediction_id") (out "explanation_id"))
    let hypothetical : Bool := result.tier = .t1
    return { base with
      text := w.compose result.intent output lang hypothetical
      citations := w.citations output
      hypothetical := hypothetical
      navigate := if result.intent = "navigate_dashboard" then some output else none }

/-- The action that `_read_back` stores. -/
def readBackAction (w : Wiring) (env : Env W) (turn : VoiceTurn) (result : RouterResult)
    (params : Params) (lang : String) : VoiceAction where
  id := env.newAction
  turnId := turn.id
  tool := result.intent
  params := w.codec.jsonable params
  tier := result.tier
  readback := w.readback result.intent (result.slots.foldl (fun p e => p.set e.1 e.2) params) lang
  status := .pending
  validationErrors := none
  expiresAt := some (env.now + confirmWindow)
  confirmedAt := none
  secondFactorOk := none
  executedAt := none
  result := none
  error := none
  createdAt := env.txStart

/-- `_read_back`. -/
def readBack (w : Wiring) (env : Env W) (turn : VoiceTurn) (result : RouterResult) (params : Params)
    (lang : String) (base : TurnResponse) : VoiceTx W TurnResponse :=
  if needsSecondFactor result.tier && !env.allowT3 then
    return { base with text := "Actuation is disabled on this installation." }
  else do
    let action := readBackAction w env turn result params lang
    let db ← Tx.read
    let actions ← Tx.orRaise (db.actions.insert action) integrityError
    Tx.write fun db => { db with actions := actions }
    Tx.emit (.readBack action params)
    return { base with text := action.readback, action := some action }

/-- The end of `_respond`: ask, read back or run, by what the slots resolved to. -/
def respondResolved (w : Wiring) (env : Env W) (actor : CurrentUser) (session : VoiceSession)
    (turn : VoiceTurn) (result : RouterResult) (resolution : Resolution) (lang : String)
    (base : TurnResponse) : VoiceTx W TurnResponse :=
  match resolution.ask with
  | some ask => return { base with text := ask, suggestions := resolution.suggestions }
  | none =>
    if needsConfirmation result.tier then readBack w env turn result resolution.params lang base
    else executeNow w env actor session result resolution lang base

/-- `_respond`. A doubted transcript is a question, never an action. -/
def respond (w : Wiring) (env : Env W) (actor : CurrentUser) (session : VoiceSession)
    (turn : VoiceTurn) (result : RouterResult) (data : UtteranceIn) (lang : String) :
    VoiceTx W TurnResponse := do
  let base := baseResponse w session turn result lang
  let db ← Tx.read
  if data.doubted then
    let spoken := ((result.slots.truthy? "asset").map w.codec.text).getD data.text
    let suggestions := (w.rank spoken (db.registry.assetRefs w.codec)).map suggestion
    let text := if suggestions.isEmpty then w.notUnderstood lang
      else w.didYouMean (suggestions.map Suggestion.label) lang
    return { base with text := text, suggestions := suggestions }
  else if !result.understood then
    return { base with text := w.compose "help" [("ok", .bool true)] lang false }
  else
    let resolution ← orCrash (resolveSlots w db.registry session result env.now)
    saveContext session resolution.context
    respondResolved w env actor session turn result resolution lang base

def controlTurn (env : Env W) (session : VoiceSession) (data : UtteranceIn) (result : RouterResult)
    (control : Control) : VoiceTurn where
  id := env.newTurn
  sessionId := session.id
  «at» := env.txStart
  transcript := data.text
  transcriptConfidence := none
  sttMs := none
  snrDb := none
  intent := "control:" ++ control.key
  slots := none
  intentConfidence := result.confidence
  router := result.router
  tier := none
  responseText := none
  citations := none

/-- The end of every branch of `_handle_control`. -/
def answerControl (base : TurnResponse) (turn : VoiceTurn) (text : String)
    (action : Option VoiceAction) : VoiceTx W TurnResponse := do
  saveTurn { turn with responseText := some text }
  Tx.commit
  return { base with intent := turn.intent, tier := .t0, slots := [], text := text, action := action }

/-- A phrase that is not "repeat" or "cancel" goes to `confirm`. -/
def obeyControl (w : Wiring) (env : Env W) (actor : CurrentUser) (session : VoiceSession)
    (turn : VoiceTurn) (control : Control) (lang : String) (base : TurnResponse) :
    VoiceTx W TurnResponse := do
  let db ← Tx.read
  if control = .repeat then
    let text := ((lastTurn db session.id).bind VoiceTurn.responseText).filter (· ≠ "")
    answerControl base turn (text.getD (w.notUnderstood lang)) none
  else
    match pendingForSession db session.id env.now with
    | none => answerControl base turn "There is nothing waiting for confirmation." none
    | some pending =>
      let response ← if control = .cancel then cancel pending.id
        else confirm w env actor pending.id none lang
      answerControl base turn response.2 (some response.1)

/-- `_handle_control`. -/
def handleControl (w : Wiring) (env : Env W) (actor : CurrentUser) (session : VoiceSession)
    (data : UtteranceIn) (result : RouterResult) (control : Control) : VoiceTx W TurnResponse := do
  let turn := controlTurn env session data result control
  addTurn turn
  let lang := data.lang.getD session.lang
  obeyControl w env actor session turn control lang (baseResponse w session turn result lang)

def intentTurn (w : Wiring) (env : Env W) (session : VoiceSession) (data : UtteranceIn)
    (result : RouterResult) : VoiceTurn where
  id := env.newTurn
  sessionId := session.id
  «at» := env.txStart
  transcript := data.text
  transcriptConfidence := data.transcriptConfidence
  sttMs := data.sttMs
  snrDb := data.snrDb
  intent := result.intent
  slots := some (w.codec.jsonable result.slots)
  intentConfidence := result.confidence
  router := result.router
  tier := some result.tier
  responseText := none
  citations := none

/-- The way of an utterance that is no control phrase. -/
def handleIntent (w : Wiring) (env : Env W) (actor : CurrentUser) (session : VoiceSession)
    (data : UtteranceIn) (result : RouterResult) (lang : String) : VoiceTx W TurnResponse := do
  let turn := intentTurn w env session data result
  addTurn turn
  let response ← respond w env actor session turn result data lang
  saveTurn { turn with
    responseText := some response.text, citations := some (w.codec.jsonable response.citations) }
  Tx.commit
  return response

def handle (w : Wiring) (env : Env W) (actor : CurrentUser) (data : UtteranceIn) :
    VoiceTx W TurnResponse := do
  let session ← openSession env actor data
  let lang := data.lang.getD session.lang
  Tx.write fun db => expireStale db env.now
  let result ← orCrash (route w.grammar w.catalogue data.text env.now lang env.llm)
  match result.control with
  | some control => handleControl w env actor session data result control
  | none => handleIntent w env actor session data result lang

end TwinVoice.Voice
