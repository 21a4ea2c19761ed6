import TwinVoice.Sim.Machine

/-! # The fleet

The engine's control operations, which the command handler calls: each looks up
the machine, checks its argument, acts on the machine and leaves an entry in
the log. -/

namespace TwinVoice.Sim

open TwinVoice.Lib

inductive Level
  | info | warning | error
  deriving DecidableEq

structure LogEntry where
  t : Instant
  level : Level
  message : String
  assetCode : Option String
  deriving DecidableEq

structure Engine where
  machines : Table Machine
  simTime : Instant
  log : List LogEntry

/-- `UnknownAssetError`, `InvalidRequestError`, or any other exception. -/
inductive SimError
  | unknownAsset (code : String)
  | invalidRequest (message : String)
  | crash (reason : String)
  deriving DecidableEq

/-- What a Python `float` can be. -/
inductive Double
  | finite (q : Rat)
  | nan
  | infinity (negative : Bool)
  deriving DecidableEq

/-- `lo <= x <= hi`, which no value that is not finite satisfies. -/
def Double.within (x : Double) (lo hi : Rat) : Option Rat :=
  match x with
  | finite q => if lo ≤ q ∧ q ≤ hi then some q else none
  | nan => none
  | infinity _ => none

namespace Engine

/-- `LOG_SIZE`. -/
def logSize : Nat := 100

def record (e : Engine) (level : Level) (message : String) (assetCode : Option String) : Engine :=
  let log := e.log ++ [⟨e.simTime, level, message, assetCode⟩]
  { e with log := log.drop (log.length - logSize) }

@[simp] theorem machines_record (e : Engine) (level : Level) (message : String)
    (assetCode : Option String) : (e.record level message assetCode).machines = e.machines := by
  unfold record
  dsimp only

def machine (e : Engine) (code : String) : Except SimError Machine :=
  match e.machines.find code with
  | some m => .ok m
  | none => .error (.unknownAsset code)

def putMachine (e : Engine) (m : Machine) : Engine := { e with machines := e.machines.put m }

/-- `set_load`; `g` is the format `g` of a number. -/
def setLoad (g : Rat → String) (e : Engine) (asset : String) (loadPct : Double) :
    Except SimError Engine := do
  let m ← e.machine asset
  match loadPct.within 0 110 with
  | none => throw (.invalidRequest "load_pct must be within 0..110")
  | some pct =>
    return (e.putMachine (m.setLoadSetpoint pct)).record .info
      ("Load setpoint " ++ g pct ++ " %") (some asset)

def setSpeed (g : Rat → String) (e : Engine) (asset : String) (speedPct : Double) :
    Except SimError Engine := do
  let m ← e.machine asset
  match speedPct.within 50 120 with
  | none => throw (.invalidRequest "speed_pct must be within 50..120")
  | some pct =>
    return (e.putMachine { m with speedSetpointPct := pct }).record .info
      ("Speed setpoint " ++ g pct ++ " %") (some asset)

def reset (e : Engine) (asset : String) (componentCode : Option String) : Except SimError Engine := do
  let m ← e.machine asset
  match componentCode.filter fun code => code ∉ m.codes with
  | some code => throw (.invalidRequest (asset ++ " has no component " ++ code))
  | none =>
    let (m', codes) := m.reset componentCode
    return (e.putMachine m').record .info ("Maintenance reset: " ++ ", ".intercalate codes) (some asset)

end Engine

end TwinVoice.Sim
