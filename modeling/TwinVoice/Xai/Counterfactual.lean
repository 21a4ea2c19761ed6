import Mathlib.Algebra.BigOperators.Group.List.Basic
import Mathlib.Algebra.Order.Field.Basic
import Mathlib.Data.List.MinMax
import TwinVoice.Lib.Choices
import TwinVoice.Lib.Rounding
import TwinVoice.Lib.Table

/-! # Counterfactuals

The search sets some of the actionable features of a point to values of their
grids, first every one of them alone, then two at a time and so on, and takes
the cheapest change with which the prediction is as wanted, of the fewest
features that allow for one. -/

namespace TwinVoice.Xai

open TwinVoice.Lib TwinVoice.Lib.Choices TwinVoice.Lib.Rounding

/-- What the search reads of the label of an actionable feature. -/
structure Setting (K : Type) [LE K] where
  name : String
  label : String
  unit : String
  min : Option K
  max : Option K
  step : Option K
  ordered : ∀ low ∈ min, ∀ high ∈ max, low ≤ high
  deriving DecidableEq

instance {K : Type} [LE K] : Keyed (Setting K) String := ⟨Setting.name⟩

/-- A row of the feature matrix under the names of its features. -/
@[ext] structure Point (K : Type) where
  names : List String
  values : List K
  lengths : values.length = names.length

structure Change (K : Type) where
  feature : String
  label : String
  unit : String
  from_ : K
  to_ : K
  actionable : Bool

structure CounterfactualResult (K : Type) where
  target : String
  changes : List (Change K)
  outcome : List (String × K)
  feasibilityScore : K
  actionText : String
  found : Bool

/-! ## Points -/

/-- The place of a name: the dict of the names keeps the last of equal ones. -/
def lastIndex (names : List String) (name : String) : Option Nat :=
  (names.zipIdx.reverse.find? fun e => e.1 = name).map Prod.snd

namespace Point
variable {K : Type}

def index (x : Point K) (name : String) : Option Nat := lastIndex x.names name

/-- `x[index[name]] = value`. -/
def set (x : Point K) (name : String) (value : K) : Point K where
  names := x.names
  values := match x.index name with
    | some i => x.values.set i value
    | none => x.values
  lengths := by
    split
    · rw [List.length_set, x.lengths]
    · exact x.lengths

/-- `x[index[name]]`, of a name that there is. -/
def valueAt [Zero K] (x : Point K) (name : String) : K := ((x.index name).bind fun i => x.values[i]?).getD 0

end Point

/-! ## The grid and the cost -/

section
variable {K : Type} [Field K] [LinearOrder K] [FloorRing K]

/-- A value of the feature is inside of its declared range. -/
def Setting.InRange (s : Setting K) (value : K) : Prop := (∀ low ∈ s.min, low ≤ value) ∧ ∀ high ∈ s.max, value ≤ high

/-- `_grid`. -/
def Setting.grid (s : Setting K) (current : K) : List K :=
  let low := s.min.getD (current * 0.5)
  let high := s.max.getD (current * 1.5)
  let step := (s.step.filter (· ≠ 0)).getD (Max.max ((high - low) / 10.0) 1e-6)
  let n := roundHalfEven ((high - low) / step) + 1
  (List.range (Max.max n 2).toNat).map fun i => roundTo 6 (low + i * step)

/-- The span by which a move is measured, never zero. -/
def Setting.span (s : Setting K) (current : K) : K :=
  let span := match s.min, s.max with
    | some low, some high => high - low
    | _, _ => if |current| = 0 then 1 else |current|
  if span = 0 then 1 else span

/-- `_relative_move`. -/
def Setting.relativeMove (s : Setting K) (current value : K) : K := |value - current| / s.span current

/-- Values for some features. -/
abbrev Assignment (K : Type) [LE K] := List (Setting K × K)

/-- The probe. -/
def Point.assign (x : Point K) (c : Assignment K) : Point K := c.foldl (fun p m => p.set m.1.name m.2) x

def cost (x : Point K) (c : Assignment K) : K := (c.map fun m => m.1.relativeMove (x.valueAt m.1.name) m.2).sum

/-- The values that are not the current ones. -/
def changed (x : Point K) (c : Assignment K) : Assignment K := c.filter fun m => m.2 ≠ x.valueAt m.1.name

def change (x : Point K) (m : Setting K × K) : Change K :=
  ⟨m.1.name, m.1.label, m.1.unit, x.valueAt m.1.name, m.2, true⟩

/-- `action_text`; `g` is the format `:g`. -/
def actionText (g : K → String) (changes : List (Change K)) : String :=
  if changes = [] then "No change needed."
  else
    let parts := changes.map fun c =>
      c.label ++ " from " ++ g c.from_ ++ " to " ++ g c.to_ ++ (if c.unit ≠ "" then " " ++ c.unit else "")
    "Adjust " ++ String.intercalate " and " parts ++ "."

/-! ## The search -/

variable (predict : List K → K) (satisfied : K → Bool) (x : Point K) (labels : Table (Setting K))

def candidates : List (Setting K) := labels.select fun s => (x.index s.name).isSome

/-- The changes of so many features on their grids, in the order in which they are tried. -/
def gridChanges (size : Nat) : List (Assignment K) :=
  assignments size (candidates x labels) fun s => s.grid (x.valueAt s.name)

/-- The prediction for the point with these values is as wanted. -/
def reaches (c : Assignment K) : Bool := satisfied (predict (x.assign c).values)

def reaching (size : Nat) : List (Assignment K) := (gridChanges x labels size).filter (reaches predict satisfied x)

/-- A smaller change set that works ends the search; of those of one size the first of the cheapest is kept. -/
def best (maxFeaturesChanged : Nat) : Option (Assignment K) :=
  (List.range maxFeaturesChanged).findSome? fun i => (reaching predict satisfied x labels (i + 1)).argmin (cost x)

def searchCounterfactual (g : K → String) (target : String) (maxFeaturesChanged : Nat) (outcomeKey : String) :
    CounterfactualResult K :=
  match best predict satisfied x labels maxFeaturesChanged with
  | none => ⟨target, [], [], 0, "", false⟩
  | some c =>
    let changes := (changed x c).map (change x)
    { target := target
      changes := changes
      outcome := [(outcomeKey, roundTo 4 (predict (x.assign c).values))]
      feasibilityScore := roundTo 4 (1 / (1 + cost x c))
      actionText := actionText g changes
      found := true }

end

end TwinVoice.Xai
