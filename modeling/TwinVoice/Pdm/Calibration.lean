import Mathlib.Algebra.BigOperators.Ring.List
import Mathlib.Algebra.Order.BigOperators.Group.List
import TwinVoice.Lib.Curves
import TwinVoice.Pdm.Bundle

/-! # Calibrated probabilities

`apply_isotonic` maps the raw probability of each class through the knots of
that class and divides by the total, or gives the raw ones back where all are
mapped to 0. Over exact numbers it makes a probability vector of one. -/

namespace TwinVoice.Pdm

open TwinVoice.Lib.Interpolation
open TwinVoice.Sim (Double Json)

/-- The knots of a class: at least one, with places that go up and values in [0, 1]. -/
structure Knots where
  first : Rat × Rat
  rest : List (Rat × Rat)
  increasing : (first :: rest).Pairwise fun p q => p.1 < q.1
  unit : ∀ p ∈ first :: rest, 0 ≤ p.2 ∧ p.2 ≤ 1

namespace Knots

def points (knots : Knots) : List (Rat × Rat) := knots.first :: knots.rest

def xs (knots : Knots) : Json := .array (knots.points.map fun p => .float (.finite p.1))

def ys (knots : Knots) : Json := .array (knots.points.map fun p => .float (.finite p.2))

/-- As `isotonic_maps` writes them. -/
def toJson (knots : Knots) : Json := .object [("x", knots.xs), ("y", knots.ys)]

def value (knots : Knots) (x : Rat) : Rat := interpolate knots.first knots.rest x

theorem value_mem (knots : Knots) (x : Rat) : 0 ≤ knots.value x ∧ knots.value x ≤ 1 := interpolate_mem knots.unit x

end Knots

/-- `np.interp` is the interpolation between knots whose places go up. -/
def Interpolates (p : Platform) : Prop :=
  ∀ (knots : Knots) (x : Rat), p.interp (.finite x) knots.xs knots.ys = some (.finite (knots.value x))

/-- Shares of a whole. -/
structure Probabilities (xs : List Rat) : Prop where
  unit : ∀ x ∈ xs, 0 ≤ x ∧ x ≤ 1
  total : xs.sum = 1

/-- Shares of a positive total. -/
theorem probabilities_of_pos {xs : List Rat} (h : ∀ x ∈ xs, 0 ≤ x) (hpos : 0 < xs.sum) :
    Probabilities (xs.map (· / xs.sum)) where
  unit y hy := by
    obtain ⟨x, hx, rfl⟩ := List.mem_map.mp hy
    exact ⟨div_nonneg (h x hx) hpos.le, (div_le_one hpos).mpr (List.single_le_sum h x hx)⟩
  total := by
    simp only [div_eq_mul_inv, List.sum_map_mul_right, List.map_id']
    exact mul_inv_cancel₀ hpos.ne'

/-! ## All classes -/

variable {p : Platform}

theorem calibrated_knots (hinterp : Interpolates p) {raw : List Rat} (knots : Knots) {k : Nat} {x : Rat} (hx : raw[k]? = some x) :
    calibrated p (raw.map .finite) knots.toJson k = some (.finite (knots.value x)) := by
  have hraw : (raw.map Double.finite)[k]? = some (.finite x) := by rw [List.getElem?_map, hx, Option.map_some]
  simp only [calibrated, Knots.toJson, hraw]
  exact hinterp knots x

/-- What the knots make of the raw probabilities. -/
def mapped (knots : List Knots) (raw : List Rat) : List Rat := (knots.zip raw).map fun e => e.1.value e.2

/-- The classes one after the other, from some class on. -/
theorem mapM_calibrated (hinterp : Interpolates p) (front : List Rat) {knots : List Knots} {raw : List Rat}
    (hlength : knots.length = raw.length) :
    ((knots.map Knots.toJson).zipIdx front.length).mapM (fun e => calibrated p ((front ++ raw).map .finite) e.1 e.2) =
      some ((mapped knots raw).map .finite) := by
  induction knots generalizing front raw with
  | nil => rfl
  | cons first knots ih =>
    cases raw with
    | nil => cases hlength
    | cons x raw =>
      have hx : (front ++ x :: raw)[front.length]? = some x := by simp
      have hrest := ih (front ++ [x]) (Nat.succ.inj hlength)
      rw [List.append_assoc, List.singleton_append, List.length_append, List.length_singleton] at hrest
      rw [List.map_cons, List.zipIdx_cons, List.mapM_cons, calibrated_knots hinterp first hx, hrest]
      rfl

theorem length_mapped {knots : List Knots} {raw : List Rat} (hlength : knots.length = raw.length) :
    (mapped knots raw).length = raw.length := by
  rw [mapped, List.length_map, List.length_zip, hlength, Nat.min_self]

theorem applyIsotonic_eq (hinterp : Interpolates p) {knots : List Knots} {raw : List Rat} (hlength : knots.length = raw.length) :
    applyIsotonic p (raw.map .finite) (.array (knots.map Knots.toJson)) = some ((if 0 < (mapped knots raw).sum then
      (mapped knots raw).map (· / (mapped knots raw).sum) else raw).map .finite) := by
  have hmaps := mapM_calibrated hinterp [] hlength
  have hcount : ((mapped knots raw).map Double.finite).length = (raw.map Double.finite).length := by
    rw [List.length_map, List.length_map, length_mapped hlength]
  rw [List.nil_append, List.length_nil] at hmaps
  simp only [applyIsotonic, hmaps, Option.bind_eq_bind, Option.bind_some, Double.sum_finite]
  by_cases hpos : 0 < (mapped knots raw).sum
  · have hdiv : ∀ x : Rat, (Double.finite x).div (.finite (mapped knots raw).sum) = .finite (x / (mapped knots raw).sum) :=
      fun x => if_neg hpos.ne'
    rw [if_pos (by simpa [Double.lt] using hpos), if_pos hpos, if_pos (by rw [List.length_map, hcount])]
    simp only [List.map_map, Function.comp_def, hdiv]
  · rw [if_neg (by simpa [Double.lt] using hpos), if_neg hpos, if_pos (.inl hcount)]

/-- The calibrated probabilities are probabilities. -/
theorem calibrated_probabilities (p : Platform) (hinterp : Interpolates p) (raw : List Rat) (hraw : Probabilities raw)
    (knots : List Knots) (hlength : knots.length = raw.length) :
    ∃ out : List Rat, applyIsotonic p (raw.map .finite) (.array (knots.map Knots.toJson)) = some (out.map .finite) ∧
      out.length = raw.length ∧ Probabilities out := by
  refine ⟨_, applyIsotonic_eq hinterp hlength, ?_, ?_⟩
  · split
    · rw [List.length_map, length_mapped hlength]
    · rfl
  · split
    · rename_i hpos
      refine probabilities_of_pos (fun y hy => ?_) hpos
      obtain ⟨e, -, rfl⟩ := List.mem_map.mp hy
      exact (e.1.value_mem e.2).1
    · exact hraw

/-! ## Two classes -/

/-- A knot of two finite numbers. -/
def knotOf : Json × Json → Option (Rat × Rat)
  | (.float (.finite a), .float (.finite b)) => some (a, b)
  | _ => none

/-- Interpolation between arrays of finite numbers. -/
def interpFinite : Double → Json → Json → Option Double
  | .finite x, .array xs, .array ys => do
    let points ← (xs.zip ys).mapM knotOf
    match points with
    | first :: rest => some (.finite (interpolate first rest x))
    | [] => none
  | _, _, _ => none

def interpolatingPlatform : Platform where
  float
    | .float x => some x
    | _ => none
  str
    | .text s => s
    | _ => "None"
  interp := interpFinite
  round2 x := x
  float_float _ := rfl
  str_text _ := rfl

theorem interpolates_interpolatingPlatform : Interpolates interpolatingPlatform := by
  intro knots x
  have hread : ∀ points : List (Rat × Rat), ((points.map fun p => Json.float (.finite p.1)).zip
      (points.map fun p => Json.float (.finite p.2))).mapM knotOf = some points := by
    intro points
    induction points with
    | nil => rfl
    | cons q points ih =>
      rw [List.map_cons, List.map_cons, List.zip_cons_cons, List.mapM_cons, ih]
      rfl
  show (((knots.points.map fun p => Json.float (.finite p.1)).zip
    (knots.points.map fun p => Json.float (.finite p.2))).mapM knotOf >>= _) = _
  rw [hread]
  rfl

/-- A class that is below its knots, and one that is above them. -/
def twoKnots : List Knots :=
  [⟨(1 / 2, 0), [(1, 1)], by decide +kernel, by decide +kernel⟩, ⟨(0, 0), [(1 / 2, 1 / 2)], by decide +kernel, by decide +kernel⟩]

theorem calibrated_two_classes : ∃ out : List Rat,
    applyIsotonic interpolatingPlatform ([1 / 4, 3 / 4].map .finite) (.array (twoKnots.map Knots.toJson)) =
      some (out.map .finite) ∧ out.length = 2 ∧ Probabilities out :=
  calibrated_probabilities interpolatingPlatform interpolates_interpolatingPlatform [1 / 4, 3 / 4]
    ⟨by decide +kernel, by decide +kernel⟩ twoKnots rfl

end TwinVoice.Pdm
