import TwinVoice.Nlu.Slots
import TwinVoice.Voice.Service

/-! # The read-back

`tiers.readback`: the sentence that the operator has to agree to. A template
is a list of parts, and every field of it is filled with a phrase: the words
that say a value, and what leads up to them. -/

namespace TwinVoice.Nlu

open TwinVoice.Voice

inductive Part
  | text (s : String)
  | field (name : String)
  deriving DecidableEq

/-- `_READBACK`. -/
def readbackTemplates : List (String × List (String × List Part)) := [
  ("create_work_order", [
    ("en", [.text "Creating work order: ", .field "task", .text " on ", .field "asset", .field "when",
      .field "technician", .text "."]),
    ("hi", [.text "Work order bana rahe hain: ", .field "asset", .text " par ", .field "task", .field "when",
      .field "technician", .text "."])]),
  ("acknowledge_alarm", [
    ("en", [.text "Acknowledging the ", .field "severity", .text " alarm on ", .field "asset", .text "."]),
    ("hi", [.field "asset", .text " ka ", .field "severity", .text " alarm acknowledge kar rahe hain."])]),
  ("generate_report", [
    ("en", [.text "Generating the ", .field "type", .text " report for ", .field "scope", .field "period",
      .text ", as ", .field "format", .text "."]),
    ("hi", [.field "scope", .text " ki ", .field "type", .text " report ", .field "period",
      .text " banayi ja rahi hai, ", .field "format", .text " mein."])]),
  ("set_simulation_scenario", [
    ("en", [.text "Injecting ", .field "scenario", .text " into ", .field "asset",
      .text ". This changes the live simulation."]),
    ("hi", [.field "asset", .text " mein ", .field "scenario",
      .text " inject kar rahe hain. Yeh live simulation badal dega."])]),
  ("give_feedback", [
    ("en", [.text "Recording that you ", .field "verdict", .text " with this explanation", .field "reason",
      .text "."]),
    ("hi", [.text "Aapki raay darj kar rahe hain: ", .field "verdict", .field "reason", .text "."])])]

/-- `_TAIL`. -/
def readbackTail (lang : String) : String :=
  if lang = "hi" then " Confirm ya cancel boliye." else " Say confirm or cancel."

/-- The template in the language, or in English. -/
def readbackTemplate (intent lang : String) : Option (List Part) :=
  (readbackTemplates.lookup intent).bind fun byLang => (byLang.lookup lang).or (byLang.lookup "en")

/-! ## Times as they are spoken -/

def weekdayNames : List String :=
  ["Monday", "Tuesday", "Wednesday", "Thursday", "Friday", "Saturday", "Sunday"]

def monthNames : List String := ["January", "February", "March", "April", "May", "June", "July", "August",
  "September", "October", "November", "December"]

def twoDigits (n : Int) : String := if n < 10 then "0" ++ toString n else toString n

/-- `strftime("%A %d %B %H:%M")`. -/
def spokenInstant (t : Instant) : String :=
  let day := t / dayMicros
  weekdayNames.getD (weekdayOf t).toNat "" ++ " " ++ twoDigits (dayOfMonth day) ++ " " ++
    monthNames.getD (monthOf day - 1).toNat "" ++ " " ++ twoDigits (t % dayMicros / hourMicros) ++ ":" ++
    twoDigits (t % hourMicros / 60000000)

/-! ## Fields -/

/-- What fills a field: the words for the value, after what leads up to them. -/
structure Phrase where
  lead : String
  words : String

def Phrase.said (p : Phrase) : String := p.lead ++ p.words

/-- The words for a value. -/
def spokenValue (c : Codec) : Value → String
  | .instant t => spokenInstant t
  | v => c.text v

/-- `_phrase`. -/
def phrase (c : Codec) (value : Option Value) (leadEn leadHi lang : String) : Phrase :=
  match value with
  | none => ⟨"", ""⟩
  | some v =>
    if v = .null ∨ v = .text "" then ⟨"", ""⟩
    else ⟨if lang = "hi" then leadHi else leadEn, spokenValue c v⟩

/-- The first of the keys with a truthy value, or what is said without one. -/
def firstSaid (c : Codec) (slots : Params) (keys : List String) (otherwise : String) : Phrase :=
  ⟨"", ((keys.findSome? fun key => slots.truthy? key).map c.text).getD otherwise⟩

/-- `slots.get(key, otherwise)`. -/
def saidOr (c : Codec) (slots : Params) (key otherwise : String) : Phrase :=
  ⟨"", ((slots.get? key).map c.text).getD otherwise⟩

/-- A code without its underscores. -/
def unscored (s : String) : String := String.ofList (s.toList.map fun c => if c = '_' then ' ' else c)

def readbackField (c : Codec) (slots : Params) (lang : String) : String → Phrase
  | "task" => saidOr c slots "task" "maintenance"
  | "asset" => firstSaid c slots ["asset_label", "asset", "scope"] "the asset"
  | "when" => phrase c (slots.get? "when") ", " ", " lang
  | "technician" =>
    phrase c ((slots.truthy? "technician_label").or (slots.get? "technician")) ", assigned to " ", " lang
  | "severity" => saidOr c slots "severity" "open"
  | "type" =>
    let type := unscored (saidOr c slots "type" "").words
    ⟨"", if type = "" then "machine health" else type⟩
  | "scope" => firstSaid c slots ["scope_label", "scope"] "the plant"
  | "period" => phrase c (slots.get? "period") " for this " " " lang
  | "format" => ⟨"", "PDF"⟩
  | "scenario" => saidOr c slots "scenario" "a fault"
  | "verdict" => saidOr c slots "verdict" "disagree"
  | "reason" => phrase c (slots.get? "reason") ": " ": " lang
  | _ => ⟨"", ""⟩

def Part.fill (c : Codec) (slots : Params) (lang : String) : Part → String
  | .text s => s
  | .field name => (readbackField c slots lang name).said

/-- An intent without a template gets a generic read-back. -/
def genericReadback (c : Codec) (intent : String) (slots : Params) : String :=
  let body := (slots.filter fun e => e.2 ≠ .null ∧ e.2 ≠ .text "").map fun e => e.1 ++ " " ++ c.text e.2
  unscored intent ++ ": " ++ String.intercalate ", " body ++ "."

def readback (c : Codec) (intent : String) (slots : Params) (lang : String) : String :=
  match readbackTemplate intent lang with
  | none => genericReadback c intent slots ++ readbackTail lang
  | some parts => String.join (parts.map (Part.fill c slots lang)) ++ readbackTail lang

/-- The words in a field, where the template has that field. -/
def readbackSays (c : Codec) (intent : String) (slots : Params) (lang field : String) : Option String :=
  match readbackTemplate intent lang with
  | none => none
  | some parts => if .field field ∈ parts then some (readbackField c slots lang field).words else none

/-- What a field says stands in the text, word for word. -/
theorem readbackSays_infix {c : Codec} {intent : String} {slots : Params} {lang field words : String}
    (h : readbackSays c intent slots lang field = some words) :
    words.toList <:+: (readback c intent slots lang).toList := by
  unfold readbackSays at h
  unfold readback
  cases htemplate : readbackTemplate intent lang with
  | none =>
    rw [htemplate] at h
    cases h
  | some parts =>
    simp only [htemplate] at h
    split at h
    · rename_i hfield
      rw [← Option.some.inj h]
      have hsaid : (readbackField c slots lang field).said.toList <:+:
          (String.join (parts.map (Part.fill c slots lang))).toList := by
        obtain ⟨before, after, rfl⟩ := List.append_of_mem hfield
        refine ⟨(before.map (Part.fill c slots lang)).flatMap String.toList,
          (after.map (Part.fill c slots lang)).flatMap String.toList, ?_⟩
        rw [String.toList_join, List.map_append, List.flatMap_append, List.map_cons, List.flatMap_cons, List.append_assoc]
        rfl
      have hwords : (readbackField c slots lang field).words.toList <:+
          (readbackField c slots lang field).said.toList := by
        unfold Phrase.said
        rw [String.toList_append]
        exact List.suffix_append _ _
      refine (hwords.isInfix.trans hsaid).trans ?_
      rw [String.toList_append]
      exact (List.prefix_append _ _).isInfix
    · cases h

end TwinVoice.Nlu
