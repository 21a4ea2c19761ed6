import TwinVoice.Basic
import TwinVoice.Lib.Session

/-! # The command gateway

`CommandGateway.execute` publishes a command for a machine and waits for the
machine's acknowledgement. What becomes of a command on its way is up to the
broker and the machine. -/

namespace TwinVoice.Twin

open TwinVoice.Lib

/-- The payload published under `twinvoice/cmd/{asset}/{command}`. -/
structure Command where
  id : Uuid
  assetCode : String
  command : String
  params : Params
  issuedBy : String
  tier : String
  deriving DecidableEq

inductive Delivery
  | notConnected
  | publishFailed
  | unanswered
  | acked (ack : Params)
  deriving DecidableEq

/-- The broker and the machine: what a command meets within the time given. -/
abbrev Channel := Command → Duration → Delivery

/-- The id of the command and the acknowledgement, if one came in time. -/
def execute {σ : Type} (channel : Channel) (command : Command) (timeout : Duration) :
    Tx σ Command Failure (Uuid × Option Params) :=
  match channel command timeout with
  | .notConnected =>
    Tx.raise (.problem (.serviceUnavailable "MQTT broker unavailable; command not sent"))
  | .publishFailed => Tx.raise (.problem (.serviceUnavailable "MQTT publish failed; command not sent"))
  | .unanswered => do
    Tx.emit command
    return (command.id, none)
  | .acked ack => do
    Tx.emit command
    return (command.id, some ack)

/-- `reply.get("status")` where a `null` is no status. -/
def ackStatus (ack : Params) : Option Value :=
  (ack.get? "status").filter (· ≠ .null)

def Delivery.accepted : Delivery → Bool
  | .acked ack => ackStatus ack = some (.text "accepted")
  | _ => false

end TwinVoice.Twin
