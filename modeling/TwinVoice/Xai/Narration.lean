import Mathlib.Data.List.Sort
import TwinVoice.Lib.Dict
import TwinVoice.Lib.FloatText
import TwinVoice.Nlu.Router

/-! # Narration of an explanation

Attributions with the labels of their features, the English `why` template
composed from them, the audit of a paraphrase, and the narration service that
keeps the paraphrase if it passes and the template if it does not. -/

namespace TwinVoice.Xai

open TwinVoice.Lib TwinVoice.Nlu

abbrev Double := Floating binary64

inductive XaiError
  | valueError (message : String)
  | unprocessable (message : String)
  | indexError
  deriving DecidableEq

/-- The Unicode tables, what `\d` matches, `capitalize` and what `float()` makes of a word. -/
structure Texts where
  tables : UnicodeTables
  isDigit : Char → Bool
  capitalize : String → String
  float? : String → Option Double

def Texts.lower (x : Texts) : String → String := x.tables.lower

/-- numpy's sum, whose order of addition is its own, and its `argsort`. -/
structure Numpy where
  sum : List Double → Double
  argsort : List Double → List Nat

/-! ## Labels -/

inductive Direction
  | raising | lowering | neutral
  deriving DecidableEq

/-- An entry of `features`, with the default of each field. -/
structure FeatureSpec where
  label : Option String := none
  unit : String := ""
  higherIs : String := "worse"
  actionable : Bool := false
  min : Option Nat := none
  max : Option Nat := none
  step : Option Nat := none
  deriving DecidableEq

structure FeatureLabel where
  name : String
  label : String
  unit : String
  higherIs : String
  actionable : Bool
  min : Option Nat
  max : Option Nat
  step : Option Nat

/-- How a contribution reads to a human. -/
def directionWord (contribution : Double) : Direction :=
  if contribution.eq (Floating.ofRat _ 0) then .neutral
  else if (Floating.ofRat _ 0).lt contribution then .raising
  else .lowering

structure FeatureLabels where
  features : Dict String FeatureSpec
  suffixes : Dict String String

/-- `name[: -len(suffix)]`, of a name that ends with the suffix. -/
def stem? (name suffix : String) : Option String :=
  if suffix.toList <:+ name.toList then
    -- `name[: -0]` is empty.
    some (if suffix = "" then "" else String.ofList (name.toList.take (name.length - suffix.length)))
  else none

namespace FeatureLabels

/-- `_split_suffix`: a feature of the table wins outright, then a suffix of one, then any suffix. -/
def splitSuffix (l : FeatureLabels) (name : String) : String × Option String :=
  if l.features.get? name ≠ none then (name, none)
  else
    let ofFeature := l.suffixes.findSome? fun (suffix, word) =>
      (stem? name suffix).bind fun base => if l.features.get? base ≠ none then some (base, some word) else none
    let ofAny := l.suffixes.findSome? fun (suffix, word) => (stem? name suffix).map fun base => (base, some word)
    (ofFeature.or ofAny).getD (name, none)

/-- The label of a feature that the table does not have. -/
def spelledOut (x : Texts) (base : String) : String :=
  let spaced := base.toList.map fun c => if c = '_' ∨ c = '.' then ' ' else c
  x.capitalize (String.ofList (strip x.tables.isSpace spaced))

def get (l : FeatureLabels) (x : Texts) (name : String) : FeatureLabel :=
  let (base, suffixWord) := l.splitSuffix name
  let spec := (l.features.get? base).getD {}
  let label := spec.label.getD (spelledOut x base)
  { name := name
    label := if suffixWord.getD "" ≠ "" then label ++ " " ++ suffixWord.getD "" else label
    unit := spec.unit
    higherIs := spec.higherIs
    -- A derived statistic is not something an operator can dial in.
    actionable := spec.actionable && suffixWord.isNone
    min := spec.min
    max := spec.max
    step := spec.step }

def vocabulary (l : FeatureLabels) (x : Texts) : List String :=
  l.features.map fun (name, _) => x.lower (l.get x name).label

/-- `feature_labels.yaml`. -/
def shipped : FeatureLabels where
  features := [
    ("spindle.vib_rms", { label := "Spindle vibration", unit := "mm/s" }),
    ("motor.current", { label := "Motor current", unit := "A" }),
    ("motor.temp", { label := "Motor temperature", unit := "°C" }),
    ("bearing.temp", { label := "Bearing temperature", unit := "°C" }),
    ("coolant_temp", { label := "Coolant temperature", unit := "°C", actionable := true, min := some 15,
                       max := some 45, step := some 1 }),
    ("load_pct", { label := "Load", unit := "%", actionable := true, min := some 20, max := some 100,
                   step := some 5 }),
    ("speed", { label := "Spindle speed", unit := "rpm", actionable := true, min := some 500, max := some 12000,
                step := some 250 }),
    ("lube_interval", { label := "Lubrication interval", unit := "h", actionable := true, min := some 4,
                        max := some 168, step := some 4 }),
    ("power_kw", { label := "Power draw", unit := "kW" }),
    ("pressure", { label := "Hydraulic pressure", unit := "bar" }),
    ("flow", { label := "Coolant flow", unit := "L/min", higherIs := "better" }),
    ("energy_per_unit", { label := "Energy per unit", unit := "kWh/unit" })]
  suffixes := [
    ("_mean", "average"), ("_std", "variability"), ("_min", "minimum"), ("_max", "peak"), ("_rms", "RMS"),
    ("_slope", "trend"), ("_kurtosis", "impulsiveness"), ("_skew", "asymmetry"), ("_peak_factor", "peak factor"),
    ("_spectral_centroid", "spectral centroid"), ("_peak_freq", "peak frequency")]

end FeatureLabels

/-! ## Attributions -/

structure Attribution where
  feature : String
  label : String
  value : Double
  unit : String
  contribution : Double
  direction : Direction
  share : Double
  rank : Nat
  deriving DecidableEq

/-- Ranked by absolute contribution; a share is one of the total absolute weight. -/
def buildAttributions (x : Texts) (np : Numpy) (l : FeatureLabels) (names : List String)
    (values contributions : List Double) : Except XaiError (List Attribution) :=
  if ¬(names.length = values.length ∧ values.length = contributions.length) then
    .error (.valueError ("length mismatch: " ++ toString names.length ++ " names, " ++ toString values.length ++
      " values, " ++ toString contributions.length ++ " contributions"))
  else
    let total := np.sum (contributions.map Floating.abs)
    let order := np.argsort (contributions.map fun c => c.abs.neg)
    order.zipIdx.mapM fun (idx, i) =>
      match names[idx]?, values[idx]?, contributions[idx]? with
      | some name, some value, some contribution =>
        let label := l.get x name
        .ok {
          feature := name
          label := label.label
          value := value
          unit := label.unit
          contribution := contribution
          direction := directionWord contribution
          -- A total of 0 is a perfectly flat explanation.
          share := if (Floating.ofRat _ 0).lt total then contribution.abs.div total else Floating.ofRat _ 0
          rank := i + 1 }
      | _, _, _ => .error .indexError

/-! ## Template -/

/-- `DIRECTION_WORDS` in English. -/
def Direction.word : Direction → String
  | .raising => "raising"
  | .lowering => "lowering"
  | .neutral => "not moving"

structure WhyContext where
  topLabel : String
  topValue : Double
  topUnit : String
  topDirection : String
  topShare : Double
  others : String

def whyContext (attributions : List Attribution) (topK : Nat) : Except XaiError WhyContext :=
  match attributions with
  | [] => .error (.valueError "cannot narrate 'why' without attributions")
  | top :: _ => .ok {
      topLabel := top.label
      topValue := top.value.roundTo 3
      topUnit := if top.unit ≠ "" then " " ++ top.unit else ""
      topDirection := top.direction.word
      topShare := top.share.mul (Floating.ofRat _ 100)
      others := String.intercalate ", " (((attributions.take topK).drop 1).map Attribution.label) }

/-- The template `why_single`. -/
def whySingle (c : WhyContext) : String :=
  "The main driver is " ++ c.topLabel ++ " at " ++ c.topValue.number.generalText ++ c.topUnit ++ ", " ++
    c.topDirection ++ " the estimate and accounting for " ++ c.topShare.number.wholeText ++ "% of it."

/-- The template `why`. -/
def whyOthers (c : WhyContext) : String := whySingle c ++ " Next are " ++ c.others ++ "."

def why (x : Texts) (attributions : List Attribution) : Except XaiError String := do
  let context ← whyContext attributions 3
  let text := if context.others ≠ "" then whyOthers context else whySingle context
  return String.ofList (strip x.tables.isSpace text.toList)

end TwinVoice.Xai
