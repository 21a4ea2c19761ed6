import TwinVoice.Sim.Engine

/-! # Commands from the twin

`handle_command` checks the payload of `twinvoice/cmd/{asset}/{command}`, has
the engine carry the command out and answers with an acknowledgement. What the
handler does not catch leaves it as a crash. -/

namespace TwinVoice.Sim

/-- A decoded JSON value; an object holds each key once. -/
inductive Json
  | null
  | bool (b : Bool)
  | int (n : Int)
  | float (x : Double)
  | text (s : String)
  | array (items : List Json)
  | object (fields : List (String × Json))

namespace Json

/-- Python's truth value. -/
def truthy : Json → Bool
  | null => false
  | bool b => b
  | int n => n ≠ 0
  | float x => x ≠ .finite 0
  | text s => s ≠ ""
  | array items => ¬ items.isEmpty
  | object fields => ¬ fields.isEmpty

end Json

/-- The formats that the messages use. -/
structure Formats where
  g : Rat → String
  str : Json → String
  iso : Instant → String

structure Ack where
  commandId : Json
  command : String
  status : String
  error : Option String
  t : String

/-- From here on an integer rounds to no finite double. Below, rounding keeps it
in or out of the ranges that the engine admits. -/
def floatLimit : Nat := 2 ^ 1024 - 2 ^ 970

/-- `_number`. -/
def number (params : List (String × Json)) (key : String) : Except SimError Double :=
  match params.lookup key with
  | some (.int n) =>
    if n.natAbs < floatLimit then .ok (.finite n)
    else .error (.crash "OverflowError: int too large to convert to float")
  | some (.float x) => .ok x
  | _ => .error (.invalidRequest ("params." ++ key ++ " must be a number"))

/-- `_parse` on a payload that is text of a JSON value, or not. -/
def parse (payload : Option Json) : Except SimError (List (String × Json)) :=
  match payload with
  | none => .error (.invalidRequest "payload is not valid JSON")
  | some (.object data) => .ok data
  | some _ => .error (.invalidRequest "payload must be a JSON object")

/-- `params.get("component_code")`: absent is null. -/
def componentCode (params : List (String × Json)) : Except SimError (Option String) :=
  match params.lookup "component_code" with
  | none => .ok none
  | some .null => .ok none
  | some (.text code) => .ok (some code)
  | some _ => .error (.invalidRequest "params.component_code must be a string or null")

/-- `data.get("params") or {}`. -/
def paramsOf (data : List (String × Json)) : Except SimError (List (String × Json)) :=
  match (data.lookup "params").filter Json.truthy with
  | none => .ok []
  | some (.object params) => .ok params
  | some _ => .error (.invalidRequest "params must be an object")

def checkCommandId (data : List (String × Json)) : Except SimError Unit :=
  match data.lookup "command_id" with
  | some (.text id) => if id = "" then .error (.invalidRequest "command_id is required") else .ok ()
  | _ => .error (.invalidRequest "command_id is required")

/-- What the handler does under the lock. -/
def obey (f : Formats) (engine : Engine) (assetCode command : String) (params : List (String × Json)) :
    Except SimError Engine := do
  let _ ← engine.machine assetCode
  match command with
  | "set_load" => engine.setLoad f.g assetCode (← number params "load_pct")
  | "set_speed" => engine.setSpeed f.g assetCode (← number params "speed_pct")
  | "maintenance_reset" => engine.reset assetCode (← componentCode params)
  | _ => throw (.invalidRequest ("unknown command " ++ command))

/-- The body of the `try`. -/
def carryOut (f : Formats) (engine : Engine) (assetCode command : String) (payload : Option Json) :
    Except SimError Engine := do
  let data ← parse payload
  checkCommandId data
  let params ← paramsOf data
  obey f engine assetCode command params

def field (payload : Option Json) (key : String) : Json :=
  match parse payload with
  | .ok data => (data.lookup key).getD .null
  | .error _ => .null

def issuer (f : Formats) (payload : Option Json) : String :=
  match field payload "issued_by" with
  | .text s => if s = "" then "unknown" else s
  | j => if j.truthy then f.str j else "unknown"

/-- The acknowledgement and the engine after the command, or the exception that escapes. -/
def handleCommand (f : Formats) (now : Instant) (engine : Engine) (assetCode command : String)
    (payload : Option Json) : Except String (Ack × Engine) :=
  let known := (engine.machines.find assetCode).map fun _ => assetCode
  let who := "Command " ++ command ++ " from " ++ issuer f payload
  let rejected (message : String) : Ack × Engine :=
    (⟨field payload "command_id", command, "rejected", some message, f.iso now⟩,
      engine.record .warning (who ++ " rejected: " ++ message) known)
  match carryOut f engine assetCode command payload with
  | .ok engine' => .ok
      (⟨field payload "command_id", command, "accepted", none, f.iso now⟩,
        engine'.record .info (who ++ " accepted") known)
  | .error (.unknownAsset code) => .ok (rejected ("unknown asset " ++ code))
  | .error (.invalidRequest message) => .ok (rejected message)
  | .error (.crash reason) => .error reason

end TwinVoice.Sim
