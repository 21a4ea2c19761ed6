import Mathlib.Data.Rat.Init
import Mathlib.Data.Rat.Defs

/-! # Values shared by the services

Instants are microseconds, as PostgreSQL stores them. A parameter record is
what a Python `dict` with string keys is: entries in insertion order, at most
one for each key once it is built with `set`. -/

namespace TwinVoice

/-- Microseconds since the epoch. -/
abbrev Instant := Int

/-- A length of time in microseconds. -/
abbrev Duration := Int

def seconds (n : Int) : Duration := n * 1000000

def minutes (n : Int) : Duration := seconds (n * 60)

abbrev Uuid := Nat

/-- What a parameter of a tool can be. -/
inductive Value
  | null
  | bool (b : Bool)
  | text (s : String)
  | number (q : Rat)
  | instant (t : Instant)
  deriving DecidableEq

/-- Python's truth value. -/
def Value.truthy : Value → Bool
  | .null => false
  | .bool b => b
  | .text s => s ≠ ""
  | .number q => q ≠ 0
  | .instant _ => true

/-- A `dict[str, Any]`. -/
abbrev Params := List (String × Value)

namespace Params

def get? (p : Params) (key : String) : Option Value := p.lookup key

def keys (p : Params) : List String := p.map Prod.fst

/-- `p[key] = v`: an entry in place is overwritten in place. -/
def set (p : Params) (key : String) (v : Value) : Params :=
  if key ∈ p.keys then p.map fun e => if e.1 = key then (key, v) else e
  else p ++ [(key, v)]

/-- `p.setdefault(key, v)`. -/
def setDefault (p : Params) (key : String) (v : Value) : Params :=
  if key ∈ p.keys then p else p ++ [(key, v)]

/-- `p.get(key)` where only a truthy value counts. -/
def truthy? (p : Params) (key : String) : Option Value :=
  (p.get? key).filter Value.truthy

end Params

/-- A `ProblemError`: the status, the title of its class and the detail. -/
structure Problem where
  status : Nat
  title : String
  detail : Option String
  deriving DecidableEq

namespace Problem

/-- `exc.detail or exc.title`. -/
def text (p : Problem) : String :=
  match p.detail with
  | some d => if d = "" then p.title else d
  | none => p.title

def forbidden (detail : String) : Problem := ⟨403, "Forbidden", some detail⟩

def notFound (detail : String) : Problem := ⟨404, "Not Found", some detail⟩

def conflict (detail : String) : Problem := ⟨409, "Conflict", some detail⟩

def unprocessable (detail : String) : Problem := ⟨422, "Unprocessable Entity", some detail⟩

def badGateway (detail : String) : Problem := ⟨502, "Bad Gateway", some detail⟩

def serviceUnavailable (detail : String) : Problem := ⟨503, "Service Unavailable", some detail⟩

end Problem

/-- How a request can fail: with a problem the API reports, or with any other
exception, which no handler of the services catches. -/
inductive Failure
  | problem (p : Problem)
  | crash (reason : String)
  deriving DecidableEq

end TwinVoice
