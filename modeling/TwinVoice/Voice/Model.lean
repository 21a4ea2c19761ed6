import TwinVoice.Lib.Session
import TwinVoice.Lib.Table
import TwinVoice.Nlu.Router

/-! # The data of the voice service

The rows of `voice_sessions`, `voice_turns` and `voice_actions`, the part of
the plant's registry that validation and slot resolution read, and what one
request brings along: its clock readings, its settings, the tools and the ids
that the database generates. Audit rows and timings are left out. -/

namespace TwinVoice.Voice

open TwinVoice.Lib TwinVoice.Nlu

/-- The dialogue context on the session row. -/
structure DialogueContext where
  currentAssetId : Option String
  currentAssetCode : Option String
  currentAssetLabel : Option String
  lastPredictionId : Option String
  lastExplanationId : Option String
  lastAlarmId : Option String
  touchedAt : Option Instant
  deriving DecidableEq

def DialogueContext.empty : DialogueContext := ⟨none, none, none, none, none, none, none⟩

structure VoiceSession where
  id : Uuid
  userId : Option Uuid
  channel : String
  device : Option String
  lang : String
  context : DialogueContext
  deriving DecidableEq

structure VoiceTurn where
  id : Uuid
  sessionId : Uuid
  «at» : Instant
  transcript : String
  transcriptConfidence : Option Rat
  sttMs : Option Int
  snrDb : Option Rat
  intent : String
  slots : Option Params
  intentConfidence : Rat
  router : RouterKind
  tier : Option Tier
  responseText : Option String
  citations : Option Params
  deriving DecidableEq

inductive ActionStatus
  | pending | confirmed | cancelled | expired | executed | failed | rejected
  deriving DecidableEq

def ActionStatus.name : ActionStatus → String
  | .pending => "pending"
  | .confirmed => "confirmed"
  | .cancelled => "cancelled"
  | .expired => "expired"
  | .executed => "executed"
  | .failed => "failed"
  | .rejected => "rejected"

structure VoiceAction where
  id : Uuid
  turnId : Uuid
  tool : String
  params : Params
  tier : Tier
  readback : String
  status : ActionStatus
  validationErrors : Option (List (String × String))
  expiresAt : Option Instant
  confirmedAt : Option Instant
  secondFactorOk : Option Bool
  executedAt : Option Instant
  result : Option Params
  error : Option String
  createdAt : Instant
  deriving DecidableEq

instance : Keyed VoiceSession Uuid := ⟨VoiceSession.id⟩
instance : Keyed VoiceTurn Uuid := ⟨VoiceTurn.id⟩
instance : Keyed VoiceAction Uuid := ⟨VoiceAction.id⟩

structure Asset where
  id : Uuid
  code : String
  name : String
  status : String
  deletedAt : Option Instant
  deriving DecidableEq

structure Line where
  id : Uuid
  code : String
  name : String
  deletedAt : Option Instant
  deriving DecidableEq

structure Technician where
  id : Uuid
  deletedAt : Option Instant
  deriving DecidableEq

structure TechnicianAvailability where
  technicianId : Uuid
  kind : String
  startsAt : Instant
  endsAt : Instant
  deriving DecidableEq

structure Alarm where
  id : Uuid
  assetId : Uuid
  status : String
  raisedAt : Instant
  deriving DecidableEq

/-- Everything outside the voice tables; `rest` is what the voice service itself never reads. -/
structure Registry (W : Type) where
  assets : List Asset
  lines : List Line
  technicians : List Technician
  availability : List TechnicianAvailability
  alarms : List Alarm
  rest : W
  deriving DecidableEq

structure Database (W : Type) where
  sessions : Table VoiceSession
  turns : Table VoiceTurn
  actions : Table VoiceAction
  registry : Registry W

/-- The caller, with the id of their row in `users`. -/
structure CurrentUser where
  sub : String
  userId : Uuid

structure ToolContext where
  actor : CurrentUser
  now : Instant
  lang : String
  sessionId : Option Uuid
  context : DialogueContext

/-- How a tool call ends: with its output, with a `ProblemError`, or with an
exception that is not one. -/
inductive Ending
  | done (output : Params)
  | refused (problem : Problem)
  | died (reason : String)
  deriving DecidableEq

/-- A tool works in the caller's session: it leaves the registry as `registry`
there, and `committed` is what it last committed on the way, if anything. -/
structure ToolResult (W : Type) where
  registry : Registry W
  committed : Option (Registry W)
  ending : Ending

abbrev Tool (W : Type) := ToolContext → Params → Registry W → ToolResult W

/-- The tool ended in an exception that no handler catches, with nothing committed. -/
def ToolResult.diesUncommitted {W : Type} (r : ToolResult W) : Bool :=
  match r.ending, r.committed with
  | .died _, none => true
  | _, _ => false

/-- What leaves the service: a sentence that reads an action back, with the
parameters as they were resolved, or a call of a tool. A call made for a
stored action names it. -/
inductive Event
  | readBack (action : VoiceAction) (resolved : Params)
  | toolRun (action : Option Uuid) (tool : String) (params : Params)
  deriving DecidableEq

/-- What one request finds around it. `now` is read by `handle`, `later` by
`confirm` or for an immediate tool, and `txStart` is the server's `now()`. -/
structure Env (W : Type) where
  now : Instant
  later : Instant
  txStart : Instant
  allowT3 : Bool
  verify : String → String → Except Failure Bool
  tools : String → Option (Tool W)
  llm : Option LlmCall
  newSession : Uuid
  newTurn : Uuid
  newAction : Uuid

structure AssetRef where
  id : String
  code : String
  name : String

/-- The text forms of ids and instants. -/
structure Codec where
  isoformat : Instant → String
  fromisoformat : String → Option Instant
  fromisoformat_isoformat : ∀ t, fromisoformat (isoformat t) = some t
  uuidText : Uuid → String
  parseUuid : String → Option Uuid
  str : Value → String

/-- The parts of the service that no proof looks into: the grammar, the fuzzy
matcher, the signatures of the tools and the narrator. -/
structure Wiring where
  grammar : Grammar
  catalogue : Catalogue
  codec : Codec
  resolve : String → List AssetRef → Option AssetRef × List AssetRef
  rank : String → List AssetRef → List AssetRef
  requiredArguments : String → List String
  compose : String → Params → String → Bool → String
  citations : Params → Params
  readback : String → Params → String → String
  didYouMean : List String → String → String
  notUnderstood : String → String

abbrev VoiceTx (W : Type) := Tx (Database W) Event Failure

end TwinVoice.Voice
