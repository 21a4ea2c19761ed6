import Mathlib.Algebra.Order.BigOperators.Group.List
import TwinVoice.Lib.Windows
import TwinVoice.Sim.Floats

/-! # Features of a window

`build_features` cuts a frame of samples into windows and computes the
statistics of every sensor in each of them. A frame has a row for each sample
and in it a value for each sensor. -/

namespace TwinVoice.Pdm

open TwinVoice.Sim

inductive Stat
  | mean | std | min | max | slope | rms | kurtosis | last
  deriving DecidableEq

namespace Stat

def name : Stat → String
  | mean => "mean"
  | std => "std"
  | min => "min"
  | max => "max"
  | slope => "slope"
  | rms => "rms"
  | kurtosis => "kurtosis"
  | last => "last"

/-- `STAT_NAMES`. -/
def all : List Stat := [mean, std, min, max, slope, rms, kurtosis, last]

def ofName? (s : String) : Option Stat := all.find? (·.name = s)

theorem ofName?_name (stat : Stat) : ofName? stat.name = some stat := by
  cases stat <;> decide +kernel

theorem underscore_not_mem_name (stat : Stat) : '_' ∉ stat.name.toList := by
  cases stat <;> decide +kernel

end Stat

structure FeatureSpec where
  windowSize : Nat
  stride : Nat
  statFeatures : List String
  sensorCols : List String

/-- A row of a frame. -/
abbrev FrameRow := String → Double

/-- The windows of `size` rows that begin at every `stride`-th row. -/
def rollingWindows {α : Type} (rows : List α) (size stride : Nat) : List (List α) :=
  if rows.length < size then []
  else ((List.range (rows.length - size + 1)).filter (· % stride = 0)).map fun i => (rows.drop i).take size

/-! ## Statistics -/

section
variable (root : Rat → Rat)

def mean (xs : List Double) : Double := (Double.sum xs).div (.finite xs.length)

def centred (xs : List Double) : List Double := xs.map fun x => x.sub (mean xs)

def square (x : Double) : Double := x.mul x

def std (xs : List Double) : Double := (mean ((centred xs).map square)).sqrt root

/-- Below it the deviation counts as none. -/
def flat : Rat := 1 / 10 ^ 10

/-- The place of row `i` of `n`, counted from the middle. -/
def place (n i : Nat) : Rat := i - ((n : Rat) - 1) / 2

def slope (xs : List Double) : Double :=
  let n := xs.length
  let denominator := ((List.range n).map fun i => place n i ^ 2).sum
  if 0 < denominator then
    (Double.sum (xs.zipIdx.map fun e => (Double.finite (place n e.2)).mul e.1)).div (.finite denominator)
  else .finite 0

def rms (xs : List Double) : Double := (mean (xs.map square)).sqrt root

/-- The excess kurtosis, 0 for a flat or very short window. -/
def kurtosis (xs : List Double) : Double :=
  let deviation := std root xs
  if deviation.lt (.finite flat) = true ∨ xs.length < 4 then .finite 0
  else (mean ((centred xs).map fun x => square (square (x.div deviation)))).sub (.finite 3)

/-- What `_window_stats` computes for one sensor. -/
def windowStat : Stat → List Double → Double
  | .mean, xs => mean xs
  | .std, xs => std root xs
  | .min, xs => xs.tail.foldl Double.min (xs.headD (.finite 0))
  | .max, xs => xs.tail.foldl Double.max (xs.headD (.finite 0))
  | .slope, xs => slope xs
  | .rms, xs => rms root xs
  | .kurtosis, xs => kurtosis root xs
  | .last, xs => xs.getLastD (.finite 0)

/-! ## Features -/

/-- `{sensor}_{stat}`. -/
def featureName (sensor : String) (stat : Stat) : String := sensor ++ "_" ++ stat.name

def FeatureSpec.stats (spec : FeatureSpec) : List Stat := spec.statFeatures.filterMap Stat.ofName?

def featureNames (spec : FeatureSpec) : List String :=
  spec.sensorCols.flatMap fun sensor => spec.stats.map (featureName sensor)

/-- The row of features of one window. -/
def features (spec : FeatureSpec) (window : List FrameRow) : List (String × Double) :=
  spec.sensorCols.flatMap fun sensor =>
    spec.stats.map fun stat => (featureName sensor stat, windowStat root stat (window.map (· sensor)))

/-- `build_features` on one group. An empty window has no minimum, which numpy raises. -/
def buildFeatures (frame : List FrameRow) (spec : FeatureSpec) : Option (List (List (String × Double))) :=
  if spec.windowSize = 0 then none
  else some ((rollingWindows frame spec.windowSize spec.stride).map (features root spec))

end

/-! ## Finite windows -/

theorem finite_mean_iff {xs : List Double} (h : xs ≠ []) : (mean xs).Finite ↔ ∀ x ∈ xs, x.Finite := by
  have hlength : (xs.length : Rat) ≠ 0 := Nat.cast_ne_zero.mpr fun hzero => h (List.length_eq_zero_iff.mp hzero)
  rw [mean, Double.finite_div_iff hlength, Double.finite_sum_iff]

theorem exists_rat {xs : List Double} (h : ∀ x ∈ xs, x.Finite) : ∃ qs : List Rat, xs = qs.map .finite := by
  induction xs with
  | nil => exact ⟨[], rfl⟩
  | cons x xs ih =>
    obtain ⟨q, rfl⟩ := h x List.mem_cons_self
    obtain ⟨qs, rfl⟩ := ih fun y hy => h y (List.mem_cons_of_mem _ hy)
    exact ⟨q :: qs, rfl⟩

theorem mean_finite {qs : List Rat} (h : qs ≠ []) : mean (qs.map .finite) = .finite (qs.sum / qs.length) := by
  have hlength : (qs.length : Rat) ≠ 0 := Nat.cast_ne_zero.mpr fun hzero => h (List.length_eq_zero_iff.mp hzero)
  rw [mean, Double.sum_finite, List.length_map]
  exact if_neg hlength

theorem finite_centred {xs : List Double} (h : ∀ x ∈ xs, x.Finite) : ∀ x ∈ centred xs, x.Finite := by
  intro x hx
  obtain ⟨y, hy, rfl⟩ := List.mem_map.mp hx
  have hne : xs ≠ [] := List.ne_nil_of_mem hy
  exact (h y hy).sub ((finite_mean_iff hne).mpr h)

/-- The root of a mean of squares. -/
theorem finite_root (root : Rat → Rat) {xs : List Double} (h : ∀ x ∈ xs, x.Finite) (hne : xs ≠ []) :
    ((mean (xs.map square)).sqrt root).Finite := by
  obtain ⟨qs, rfl⟩ := exists_rat h
  have hsquares : (qs.map Double.finite).map square = (qs.map fun q => q * q).map .finite := by
    simp [List.map_map, Function.comp_def, square, Double.mul]
  have hqs : qs.map (fun q => q * q) ≠ [] := by simpa using hne
  have hnonneg : 0 ≤ (qs.map fun q => q * q).sum / ((qs.map fun q => q * q).length : Rat) := by
    refine div_nonneg (List.sum_nonneg ?_) (Nat.cast_nonneg _)
    intro q hq
    obtain ⟨r, -, rfl⟩ := List.mem_map.mp hq
    exact mul_self_nonneg r
  rw [hsquares, mean_finite hqs]
  exact ⟨_, if_neg (not_lt.mpr hnonneg)⟩

theorem finite_foldl {f : Double → Double → Double} (hf : ∀ x y, x.Finite → y.Finite → (f x y).Finite) {xs : List Double}
    (h : ∀ x ∈ xs, x.Finite) {x : Double} (hx : x.Finite) : (xs.foldl f x).Finite := by
  induction xs generalizing x with
  | nil => exact hx
  | cons y xs ih => exact ih (fun z hz => h z (List.mem_cons_of_mem _ hz)) (hf x y hx (h y List.mem_cons_self))

theorem finite_slope {xs : List Double} (h : ∀ x ∈ xs, x.Finite) : (slope xs).Finite := by
  unfold slope
  dsimp only
  split
  · rename_i hpos
    refine (Double.finite_div_iff hpos.ne').mpr (Double.finite_sum_iff.mpr ?_)
    intro x hx
    obtain ⟨e, he, rfl⟩ := List.mem_map.mp hx
    exact Double.Finite.mul ⟨_, rfl⟩ (h e.1 (List.fst_mem_of_mem_zipIdx he))
  · exact ⟨0, rfl⟩

theorem finite_kurtosis {root : Rat → Rat} {xs : List Double} (h : ∀ x ∈ xs, x.Finite) (hne : xs ≠ []) :
    (kurtosis root xs).Finite := by
  have hcentred : centred xs ≠ [] := by simpa [centred] using hne
  obtain ⟨q, hq⟩ := finite_root root (finite_centred h) hcentred
  unfold kurtosis
  rw [show std root xs = .finite q from hq]
  dsimp only
  split
  · exact ⟨0, rfl⟩
  · rename_i hflat
    have hdeviation : q ≠ 0 := by
      rintro rfl
      exact hflat (.inl (by decide +kernel))
    refine Double.Finite.sub ((finite_mean_iff (by simpa using hcentred)).mpr ?_) ⟨3, rfl⟩
    intro x hx
    obtain ⟨y, hy, rfl⟩ := List.mem_map.mp hx
    have hdiv := (Double.finite_div_iff hdeviation).mpr (finite_centred h y hy)
    exact (hdiv.mul hdiv).mul (hdiv.mul hdiv)

/-- The statistics of finite values are finite. -/
theorem finite_windowStat (root : Rat → Rat) {xs : List Double} (h : ∀ x ∈ xs, x.Finite) (hne : xs ≠ []) (stat : Stat) :
    (windowStat root stat xs).Finite := by
  obtain ⟨x, rest, rfl⟩ := List.exists_cons_of_ne_nil hne
  have hx : x.Finite := h x List.mem_cons_self
  have hrest : ∀ y ∈ rest, y.Finite := fun y hy => h y (List.mem_cons_of_mem _ hy)
  cases stat with
  | mean => exact (finite_mean_iff hne).mpr h
  | std => exact finite_root root (finite_centred h) (by simp [centred])
  | min => exact finite_foldl (fun _ _ => Double.Finite.min) hrest hx
  | max => exact finite_foldl (fun _ _ => Double.Finite.max) hrest hx
  | slope => exact finite_slope h
  | rms => exact finite_root root h hne
  | kurtosis => exact finite_kurtosis h hne
  | last =>
    refine h _ ?_
    show (x :: rest).getLastD (.finite 0) ∈ x :: rest
    rw [List.getLastD_cons, ← List.getLast_eq_getLastD]
    exact List.getLast_mem hne

end TwinVoice.Pdm

/-! ## The cutting of windows

`rolling_windows` takes every `stride`-th of the windows of a table. The `k`-th
that is left begins at row `k * stride`. -/

namespace TwinVoice.Pdm

open TwinVoice.Lib

/-- `rolling_windows`. A slice of step 0 raises, unless there are too few rows for it to be taken. -/
def cutWindows {α : Type} (rows : List α) (size stride : Nat) : Option (List (List α)) :=
  if rows.length < size then some []
  else if stride = 0 then none
  else some (rollingWindows rows size stride)

/-- The multiples of the stride. -/
theorem filter_range_mod {stride : Nat} (n : Nat) :
    (List.range (n + 1)).filter (· % stride = 0) = (List.range (n / stride + 1)).map (· * stride) := by
  induction n with
  | zero => simp
  | succ n ih =>
    rw [List.range_succ, List.filter_append, ih, Nat.succ_div]
    by_cases hdvd : stride ∣ n + 1
    · have hplace : (n / stride + 1) * stride = n + 1 := by
        have hsucc := Nat.succ_div (a := n) (b := stride)
        rw [if_pos hdvd] at hsucc
        rw [← hsucc, Nat.div_mul_cancel hdvd]
      rw [if_pos hdvd, List.range_succ (n := n / stride + 1), List.map_append, List.map_singleton, hplace,
        List.filter_singleton, Nat.mod_eq_zero_of_dvd hdvd]
      rfl
    · have hmod : (n + 1) % stride ≠ 0 := fun hzero => hdvd (Nat.dvd_of_mod_eq_zero hzero)
      rw [if_neg hdvd, List.filter_singleton, decide_eq_false hmod, cond_false, List.append_nil, Nat.add_zero]

theorem rollingWindows_eq_strided {α : Type} (rows : List α) (size stride : Nat) :
    rollingWindows rows size stride = Windows.strided size stride rows := by
  unfold rollingWindows Windows.strided Windows.count
  split
  · rfl
  · rw [filter_range_mod, List.map_map]
    rfl

theorem cutWindows_eq_strided {α : Type} (rows : List α) (size : Nat) {stride : Nat} (h : 0 < stride) :
    cutWindows rows size stride = some (Windows.strided size stride rows) := by
  unfold cutWindows
  split
  · rename_i hshort
    rw [Windows.strided, Windows.count, if_pos hshort]
    rfl
  · rw [if_neg h.ne', rollingWindows_eq_strided]

theorem cutWindows_of_length_lt {α : Type} {rows : List α} {size : Nat} (h : rows.length < size) (stride : Nat) :
    cutWindows rows size stride = some [] := if_pos h

end TwinVoice.Pdm
