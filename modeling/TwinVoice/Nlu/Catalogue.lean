import TwinVoice.Basic

/-! # The intent catalogue

`intents.yaml` as `schema.py` loads it: for each intent its risk tier and its
slots, and the control phrases of every language. Templates and samples are
read by the rule matcher and its tests only. -/

namespace TwinVoice.Nlu

inductive Tier
  | t0 | t1 | t2 | t3
  deriving DecidableEq

def needsConfirmation (tier : Tier) : Bool := tier = .t2 ∨ tier = .t3

def needsSecondFactor (tier : Tier) : Bool := tier = .t3

/-- `CONFIRM_WINDOW_S`. -/
def confirmWindow : Duration := seconds 10

/-- The kinds of control phrase, in the order `control_word` tries them. -/
inductive Control
  | confirm | cancel | «repeat» | slower
  deriving DecidableEq

def Control.all : List Control := [.confirm, .cancel, .repeat, .slower]

def Control.key : Control → String
  | .confirm => "confirm"
  | .cancel => "cancel"
  | .repeat => "repeat"
  | .slower => "slower"

structure Slot where
  name : String
  type : String
  required : Bool
  context : Option String

structure Intent where
  name : String
  tier : Tier
  slots : List Slot

/-- `control` maps a kind to its phrases in each language. -/
structure Catalogue where
  intents : List Intent
  control : List (String × List (String × List String))

namespace Catalogue

def get (cat : Catalogue) (name : String) : Option Intent :=
  cat.intents.find? fun i => i.name = name

def tier (cat : Catalogue) (name : String) : Option Tier := (cat.get name).map Intent.tier

/-- Every language's phrases for a control word, flattened. -/
def controlPhrases (cat : Catalogue) (kind : String) : List String :=
  ((cat.control.lookup kind).getD []).flatMap Prod.snd

theorem get_name {cat : Catalogue} {name : String} {i : Intent} (h : cat.get name = some i) :
    i.name = name := by
  simpa using List.find?_some h

end Catalogue

/-- The catalogue that ships with the package. -/
def shipped : Catalogue where
  intents := [
    ⟨"get_machine_status", .t0, [⟨"asset", "asset", true, some "current_asset"⟩]⟩,
    ⟨"explain_prediction", .t0, [⟨"asset", "asset", false, some "current_asset"⟩]⟩,
    ⟨"get_counterfactual", .t0, [⟨"asset", "asset", false, some "current_asset"⟩,
      ⟨"target", "number", false, none⟩]⟩,
    ⟨"run_what_if", .t1, [⟨"asset", "asset", false, some "current_asset"⟩,
      ⟨"parameter", "enum", true, none⟩, ⟨"value", "text", true, none⟩]⟩,
    ⟨"list_alarms", .t0, [⟨"scope", "asset", false, some "current_asset"⟩,
      ⟨"severity", "severity", false, none⟩]⟩,
    ⟨"acknowledge_alarm", .t2, [⟨"alarm", "asset", true, some "last_alarm"⟩]⟩,
    ⟨"create_work_order", .t2, [⟨"asset", "asset", true, some "current_asset"⟩,
      ⟨"task", "text", true, none⟩, ⟨"when", "datetime", false, none⟩,
      ⟨"technician", "text", false, none⟩]⟩,
    ⟨"get_kpi", .t0, [⟨"kpi", "kpi", true, none⟩, ⟨"scope", "asset", false, some "current_asset"⟩,
      ⟨"period", "period", false, none⟩]⟩,
    ⟨"generate_report", .t2, [⟨"type", "report_type", true, none⟩,
      ⟨"scope", "asset", false, some "current_asset"⟩, ⟨"period", "period", false, none⟩]⟩,
    ⟨"set_simulation_scenario", .t3, [⟨"scenario", "text", true, none⟩,
      ⟨"asset", "asset", false, some "current_asset"⟩]⟩,
    ⟨"navigate_dashboard", .t0, [⟨"view", "view", false, none⟩, ⟨"asset", "asset", false, none⟩,
      ⟨"period", "period", false, none⟩]⟩,
    ⟨"give_feedback", .t2, [⟨"verdict", "verdict", true, none⟩, ⟨"reason", "text", false, none⟩]⟩,
    ⟨"help", .t0, []⟩]
  control := [
    ("confirm", [
      ("en", ["confirm", "yes confirm", "confirmed", "yes go ahead", "go ahead"]),
      ("hi", ["haan confirm", "confirm karo", "haan karo", "theek hai confirm"])]),
    ("cancel", [
      ("en", ["cancel", "no", "stop", "abort", "never mind"]),
      ("hi", ["cancel", "nahi", "rehne do", "band karo"])]),
    ("repeat", [
      ("en", ["repeat", "say that again", "come again", "repeat that"]),
      ("hi", ["phir se bolo", "dobara bolo"])]),
    ("slower", [
      ("en", ["slower", "speak slower", "slow down"]),
      ("hi", ["dheere bolo"])])]

end TwinVoice.Nlu
