import Mathlib.Algebra.Order.Field.Rat
import TwinVoice.Sim.Engine

/-! # Arithmetic of floats

Finite floats are computed with exactly; infinities and what is not a number
spread as IEEE 754 has it. A finite result of a sum comes of finite summands. -/

namespace TwinVoice.Sim.Double

def add : Double → Double → Double
  | finite a, finite b => finite (a + b)
  | nan, _ => nan
  | _, nan => nan
  | infinity s, infinity t => if s = t then infinity s else nan
  | infinity s, finite _ => infinity s
  | finite _, infinity t => infinity t

def neg : Double → Double
  | finite a => finite (-a)
  | nan => nan
  | infinity s => infinity !s

def sub (x y : Double) : Double := x.add y.neg

def mul : Double → Double → Double
  | finite a, finite b => finite (a * b)
  | nan, _ => nan
  | _, nan => nan
  | infinity s, infinity t => infinity (s != t)
  | infinity s, finite b => if b = 0 then nan else infinity (s != decide (b < 0))
  | finite a, infinity t => if a = 0 then nan else infinity (decide (a < 0) != t)

def div : Double → Double → Double
  | finite a, finite b => if b = 0 then (if a = 0 then nan else infinity (decide (a < 0))) else finite (a / b)
  | nan, _ => nan
  | _, nan => nan
  | infinity _, infinity _ => nan
  | infinity s, finite b => infinity (s != decide (b < 0))
  | finite _, infinity _ => finite 0

/-- The root, given that of the numbers that have one. -/
def sqrt (root : Rat → Rat) : Double → Double
  | finite a => if a < 0 then nan else finite (root a)
  | nan => nan
  | infinity s => if s then nan else infinity false

/-- `x < y`. -/
def lt : Double → Double → Bool
  | finite a, finite b => decide (a < b)
  | nan, _ => false
  | _, nan => false
  | infinity s, infinity t => s && !t
  | infinity s, finite _ => s
  | finite _, infinity t => !t

/-- The smaller of two, not a number if one is none. -/
def min (x y : Double) : Double := if x = nan ∨ y = nan then nan else if y.lt x then y else x

def max (x y : Double) : Double := if x = nan ∨ y = nan then nan else if x.lt y then y else x

def sum (xs : List Double) : Double := xs.foldl add (finite 0)

def Finite (x : Double) : Prop := ∃ q, x = finite q

/-- `np.isfinite(x)`. -/
def isFinite : Double → Bool
  | finite _ => true
  | nan => false
  | infinity _ => false

theorem isFinite_iff {x : Double} : x.isFinite = true ↔ x.Finite := by
  cases x <;> simp [isFinite, Finite]

theorem finite_add_iff {x y : Double} : (x.add y).Finite ↔ x.Finite ∧ y.Finite := by
  cases x with
  | finite a =>
    cases y with
    | finite b => exact iff_of_true ⟨_, rfl⟩ ⟨⟨a, rfl⟩, b, rfl⟩
    | nan => simp [add, Finite]
    | infinity t => simp [add, Finite]
  | nan => simp [add, Finite]
  | infinity s =>
    cases y with
    | finite b => simp [add, Finite]
    | nan => simp [add, Finite]
    | infinity t => by_cases h : s = t <;> simp [add, Finite, h]

theorem Finite.sub {x y : Double} (hx : x.Finite) (hy : y.Finite) : (x.sub y).Finite := by
  obtain ⟨a, rfl⟩ := hx
  obtain ⟨b, rfl⟩ := hy
  exact ⟨_, rfl⟩

theorem Finite.mul {x y : Double} (hx : x.Finite) (hy : y.Finite) : (x.mul y).Finite := by
  obtain ⟨a, rfl⟩ := hx
  obtain ⟨b, rfl⟩ := hy
  exact ⟨_, rfl⟩

theorem finite_div_iff {x : Double} {b : Rat} (hb : b ≠ 0) : (x.div (finite b)).Finite ↔ x.Finite := by
  cases x with
  | finite a => exact iff_of_true ⟨a / b, if_neg hb⟩ ⟨a, rfl⟩
  | nan => exact Iff.rfl
  | infinity s => simp [div, Finite]

theorem Finite.min {x y : Double} (hx : x.Finite) (hy : y.Finite) : (x.min y).Finite := by
  obtain ⟨a, rfl⟩ := hx
  obtain ⟨b, rfl⟩ := hy
  unfold Double.min
  rw [if_neg (by simp)]
  split
  · exact ⟨b, rfl⟩
  · exact ⟨a, rfl⟩

theorem Finite.max {x y : Double} (hx : x.Finite) (hy : y.Finite) : (x.max y).Finite := by
  obtain ⟨a, rfl⟩ := hx
  obtain ⟨b, rfl⟩ := hy
  unfold Double.max
  rw [if_neg (by simp)]
  split
  · exact ⟨b, rfl⟩
  · exact ⟨a, rfl⟩

theorem finite_foldl_add_iff {xs : List Double} {x : Double} :
    (xs.foldl add x).Finite ↔ x.Finite ∧ ∀ y ∈ xs, y.Finite := by
  induction xs generalizing x with
  | nil => simp
  | cons y xs ih => simp [ih, finite_add_iff, and_assoc]

/-- A sum is finite if all the summands are. -/
theorem finite_sum_iff {xs : List Double} : (sum xs).Finite ↔ ∀ x ∈ xs, x.Finite := by
  rw [sum, finite_foldl_add_iff]
  exact and_iff_right ⟨0, rfl⟩

theorem foldl_add_finite (qs : List Rat) (q : Rat) : (qs.map finite).foldl add (finite q) = finite (q + qs.sum) := by
  induction qs generalizing q with
  | nil => simp
  | cons r qs ih =>
    rw [List.map_cons, List.foldl_cons]
    show (qs.map finite).foldl add (finite (q + r)) = _
    rw [ih, List.sum_cons, add_assoc]

theorem sum_finite (qs : List Rat) : sum (qs.map finite) = finite qs.sum := by
  rw [sum, foldl_add_finite, zero_add]

end TwinVoice.Sim.Double
