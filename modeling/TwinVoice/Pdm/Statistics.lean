import TwinVoice.Lib.LeastSquares
import TwinVoice.Lib.Windows
import TwinVoice.Pdm.Features

/-! # Statistics of a block of windows

`_window_stats` computes each statistic for all windows and sensors at once,
over exact numbers. At a window and a sensor its value describes the readings
of that sensor in that window. -/

namespace TwinVoice.Pdm

open TwinVoice.Lib TwinVoice.Lib.LeastSquares TwinVoice.Lib.NdArray

variable {K : Type} [Field K] [LinearOrder K]

/-! ## What the statistics mean -/

/-- The readings of a window against their places in it. -/
def points (xs : List K) : List (K × K) := xs.zipIdx.map fun e => (e.2, e.1)

/-- No line with another slope is closer to the points. -/
def LeastSlope (xs : List K) (slope : K) : Prop :=
  ∃ intercept, ∀ intercept' slope', residuals (points xs) intercept slope ≤ residuals (points xs) intercept' slope'

/-- The standard deviation of the population. -/
def deviation (sqrt : K → K) (xs : List K) : K := sqrt (squares xs (Grouping.mean xs) / xs.length)

def Describes (sqrt : K → K) : Stat → List K → K → Prop
  | .mean, xs, v => v = Grouping.mean xs
  | .std, xs, v => v = deviation sqrt xs
  | .min, xs, v => v ∈ xs ∧ ∀ x ∈ xs, v ≤ x
  | .max, xs, v => v ∈ xs ∧ ∀ x ∈ xs, x ≤ v
  | .slope, xs, v => LeastSlope xs v
  | .rms, xs, v => v = sqrt (squares xs 0 / xs.length)
  | .kurtosis, xs, v => v = if deviation sqrt xs < (flat : K) ∨ xs.length < 4 then 0
      else Grouping.mean (xs.map fun x => ((x - Grouping.mean xs) / deviation sqrt xs) ^ 4) - ((3 : ℕ) : K)
  | .last, xs, v => xs.getLast? = some v

/-! ## What is computed -/

section
variable {k n f : Nat}

/-- `windows - mean[:, None, :]`. -/
def centredBlock (windows : Array3 K k n f) : Array3 K k n f := fun b t j => windows b t j - reduce Grouping.mean windows b j

def stdBlock (sqrt : K → K) (windows : Array3 K k n f) : Array2 K k f := fun b j =>
  sqrt (reduce Grouping.mean (fun b t j => centredBlock windows b t j ^ 2) b j)

/-- The places of a window, counted from its middle. -/
def places (n : Nat) : List K := (List.range n).map fun t => (place n t : K)

/-- `einsum("t,btf->bf", x, windows)`. -/
def einsum (x : List K) (windows : Array3 K k n f) : Array2 K k f :=
  reduce (fun xs => (x.zipWith (· * ·) xs).sum) windows

def slopeBlock (windows : Array3 K k n f) : Array2 K k f :=
  let denominator := ((places n : List K).map (· ^ 2)).sum
  if 0 < denominator then fun b j => einsum (places n) windows b j / denominator else fun _ _ => 0

def kurtosisBlock (sqrt : K → K) (windows : Array3 K k n f) : Array2 K k f :=
  let std := stdBlock sqrt windows
  let safeStd : Array2 K k f := fun b j => if std b j < (flat : K) then 1 else std b j
  let kurtosis : Array2 K k f := fun b j =>
    reduce Grouping.mean (fun b t j => (centredBlock windows b t j / safeStd b j) ^ 4) b j - ((3 : ℕ) : K)
  fun b j => if std b j < (flat : K) ∨ n < 4 then 0 else kurtosis b j

/-- `_window_stats` of windows that are not empty. -/
def windowStats (sqrt : K → K) (windows : Array3 K k n f) (h : 0 < n) : Stat → Array2 K k f
  | .mean => reduce Grouping.mean windows
  | .std => stdBlock sqrt windows
  | .min => reduce (fun xs => xs.min?.getD 0) windows
  | .max => reduce (fun xs => xs.max?.getD 0) windows
  | .slope => slopeBlock windows
  | .rms => fun b j => sqrt (reduce Grouping.mean (fun b t j => windows b t j ^ 2) b j)
  | .kurtosis => kurtosisBlock sqrt windows
  | .last => fun b j => windows b ⟨n - 1, Nat.sub_lt h Nat.one_pos⟩ j

variable (sqrt : K → K) (windows : Array3 K k n f) (b : Fin k) (j : Fin f)

omit [LinearOrder K] in
theorem stdBlock_eq : stdBlock sqrt windows b j = deviation sqrt (fibre windows b j) := by
  have hcentred := fibre_map windows (fun b' j' x => (x - reduce Grouping.mean windows b' j') ^ 2) b j
  refine congrArg sqrt ((congrArg Grouping.mean hcentred).trans ?_)
  rw [Grouping.mean, List.length_map]
  rfl

theorem kurtosisBlock_describes :
    Describes sqrt .kurtosis (fibre windows b j) (kurtosisBlock sqrt windows b j) := by
  show kurtosisBlock sqrt windows b j = if deviation sqrt (fibre windows b j) < (flat : K) ∨ (fibre windows b j).length < 4
    then 0 else _
  unfold kurtosisBlock
  dsimp only
  rw [stdBlock_eq, length_fibre]
  split
  · rfl
  · rename_i hkept
    have hfibre := fibre_map windows (fun b' j' x => ((x - reduce Grouping.mean windows b' j') /
      (if stdBlock sqrt windows b' j' < (flat : K) then 1 else stdBlock sqrt windows b' j')) ^ 4) b j
    have hflat : ¬ deviation sqrt (fibre windows b j) < (flat : K) := fun hlt => hkept (.inl hlt)
    rw [stdBlock_eq, if_neg hflat] at hfibre
    exact congrArg (fun xs => Grouping.mean xs - ((3 : ℕ) : K)) hfibre

end

/-! ## The slope -/

/-- The places of `n` readings. -/
def positions (n : Nat) : List K := (List.range n).map fun (t : Nat) => (t : K)

section
omit [LinearOrder K]

@[simp] theorem length_points (xs : List K) : (points xs).length = xs.length := by
  simp [points]

theorem map_fst_points (xs : List K) : (points xs).map Prod.fst = positions xs.length := by
  rw [points, List.map_map, positions, List.range_eq_range', ← List.zipIdx_map_snd, List.map_map]
  rfl

theorem map_snd_points (xs : List K) : (points xs).map Prod.snd = xs := by
  rw [points, List.map_map]
  exact List.zipIdx_map_fst 0 xs

theorem two_mul_sum_positions (n : Nat) : ((2 : ℕ) : K) * (positions n).sum = n * (n - 1) := by
  induction n with
  | zero => simp [positions]
  | succ n ih =>
    have hsucc : (positions (n + 1) : List K) = positions n ++ [(n : K)] := by
      rw [positions, List.range_succ, List.map_append]
      rfl
    rw [hsucc, List.sum_append, List.sum_singleton, mul_add, ih]
    push_cast
    ring

theorem places_eq [CharZero K] {n : Nat} (h : 0 < n) :
    (places n : List K) = (positions n).map (· - Grouping.mean (positions n : List K)) := by
  have hmean : Grouping.mean (positions n : List K) = (n - 1) / ((2 : ℕ) : K) := by
    have hn : (n : K) ≠ 0 := Nat.cast_ne_zero.mpr h.ne'
    have htwo : ((2 : ℕ) : K) ≠ 0 := Nat.cast_ne_zero.mpr two_ne_zero
    rw [Grouping.mean, positions, List.length_map, List.length_range, div_eq_div_iff hn htwo, mul_comm]
    exact (two_mul_sum_positions n).trans (mul_comm _ _)
  rw [hmean, places, positions, List.map_map]
  refine List.map_congr_left fun t _ => ?_
  simp [place]

/-- The sum of the readings by their places is that of the deviations from the means. -/
theorem sum_zipWith_places [CharZero K] {xs : List K} (h : xs ≠ []) :
    ((places xs.length).zipWith (· * ·) xs).sum =
      products (points xs) (Grouping.mean ((points xs).map Prod.fst)) (Grouping.mean ((points xs).map Prod.snd)) := by
  set m : K := Grouping.mean ((points xs).map Prod.fst) with hm
  have hpositions : (points xs).map Prod.fst ≠ [] := by
    intro hnil
    have hlength := congrArg List.length hnil
    rw [List.length_map, length_points] at hlength
    exact h (List.length_eq_zero_iff.mp hlength)
  have hzip : (places xs.length).zipWith (· * ·) xs = (points xs).map fun p => (p.1 - m) * p.2 := by
    calc (places xs.length).zipWith (· * ·) xs
        = (((points xs).map Prod.fst).map (· - m)).zipWith (· * ·) ((points xs).map Prod.snd) := by
          rw [places_eq (List.length_pos_iff.mpr h), hm, map_fst_points, map_snd_points]
      _ = (points xs).map fun p => (p.1 - m) * p.2 := by
          rw [List.map_map, List.zipWith_map, List.zipWith_self]
          rfl
  have hzero : ((points xs).map fun p => p.1 - m).sum = 0 := by
    have hsum := sum_sub_mean ((points xs).map Prod.fst) hpositions
    rwa [List.map_map] at hsum
  have hexpand : ∀ c : K, (points xs).map (fun p => (p.1 - m) * (p.2 - c)) =
      (points xs).map fun p => (p.1 - m) * p.2 + -c * (p.1 - m) := by
    intro c
    refine List.map_congr_left fun p _ => ?_
    ring
  rw [hzip, products, hexpand, List.sum_map_add, List.sum_map_mul_left, hzero, mul_zero, add_zero]

end

variable [IsStrictOrderedRing K]

/-- The places are apart from each other, if there are two. -/
theorem squares_positions_pos {n : Nat} (h : 2 ≤ n) :
    0 < squares (positions n : List K) (Grouping.mean (positions n)) := by
  refine squares_map_pos.mpr ⟨0, List.mem_range.mpr (by omega), 1, List.mem_range.mpr (by omega), ?_⟩
  simp

theorem leastSlope_best {xs : List K} (h : 2 ≤ xs.length) : LeastSlope xs (bestSlope (points xs)) := by
  have hpos := squares_positions_pos (K := K) h
  rw [← map_fst_points] at hpos
  exact ⟨_, residuals_best_le hpos.ne'⟩

/-- With two readings there is one such slope. -/
theorem LeastSlope.eq_best {xs : List K} {slope : K} (h : LeastSlope xs slope) (hlength : 2 ≤ xs.length) :
    slope = bestSlope (points xs) := by
  have hpos := squares_positions_pos (K := K) hlength
  rw [← map_fst_points] at hpos
  obtain ⟨intercept, hleast⟩ := h
  exact (best_unique hpos.ne' (hleast _ _)).2

/-- Any line through one reading will do. -/
theorem leastSlope_singleton (x slope : K) : LeastSlope [x] slope := by
  refine ⟨x, fun intercept' slope' => ?_⟩
  have hzero : residuals (points [x]) x slope = 0 := by simp [residuals, points]
  rw [hzero]
  refine List.sum_nonneg fun y hy => ?_
  obtain ⟨p, -, rfl⟩ := List.mem_map.mp hy
  exact sq_nonneg _

theorem slopeBlock_describes {k n f : Nat} (windows : Array3 K k n f) (h : 0 < n) (b : Fin k) (j : Fin f) :
    LeastSlope (fibre windows b j) (slopeBlock windows b j) := by
  have hlength : (fibre windows b j).length = n := length_fibre windows b j
  have hne : fibre windows b j ≠ [] := List.length_pos_iff.mp (hlength.symm ▸ h)
  have hdenominator : ((places n : List K).map (· ^ 2)).sum = squares (positions n : List K) (Grouping.mean (positions n)) := by
    rw [places_eq h, List.map_map]
    rfl
  unfold slopeBlock
  rw [hdenominator]
  split
  · rename_i hpos
    have hbest : einsum (places n) windows b j / squares (positions n : List K) (Grouping.mean (positions n)) =
        bestSlope (points (fibre windows b j)) := by
      have hsum := sum_zipWith_places hne
      rw [hlength] at hsum
      rw [bestSlope, ← hsum, map_fst_points, hlength]
      rfl
    refine (congrArg (LeastSlope _) hbest).mpr (leastSlope_best ?_)
    by_contra hshort
    have hone : n = 1 := by omega
    rw [hone] at hpos
    simp [positions, squares, Grouping.mean] at hpos
  · rename_i hflat
    have hshort : ¬ 2 ≤ n := fun htwo => hflat (squares_positions_pos htwo)
    obtain ⟨x, hx⟩ := List.length_eq_one_iff.mp (hlength.trans (show n = 1 by omega))
    rw [hx]
    exact leastSlope_singleton x 0

/-! ## All of them -/

theorem windowStats_describes (sqrt : K → K) {k n f : Nat} (windows : Array3 K k n f) (h : 0 < n) (stat : Stat)
    (b : Fin k) (j : Fin f) : Describes sqrt stat (fibre windows b j) (windowStats sqrt windows h stat b j) := by
  have hne : fibre windows b j ≠ [] := List.length_pos_iff.mp ((length_fibre windows b j).symm ▸ h)
  cases stat with
  | mean => exact rfl
  | std => exact stdBlock_eq sqrt windows b j
  | min =>
    obtain ⟨v, hv⟩ := Option.ne_none_iff_exists'.mp (mt List.min?_eq_none_iff.mp hne)
    show (fibre windows b j).min?.getD 0 ∈ _ ∧ ∀ x ∈ _, (fibre windows b j).min?.getD 0 ≤ x
    rw [hv, Option.getD_some]
    exact List.min?_eq_some_iff.mp hv
  | max =>
    obtain ⟨v, hv⟩ := Option.ne_none_iff_exists'.mp (mt List.max?_eq_none_iff.mp hne)
    show (fibre windows b j).max?.getD 0 ∈ _ ∧ ∀ x ∈ _, x ≤ (fibre windows b j).max?.getD 0
    rw [hv, Option.getD_some]
    exact List.max?_eq_some_iff.mp hv
  | slope => exact slopeBlock_describes windows h b j
  | rms =>
    have hsquares := fibre_map windows (fun _ _ x => x ^ 2) b j
    show sqrt (Grouping.mean (fibre (fun b t j => windows b t j ^ 2) b j)) = sqrt (squares (fibre windows b j) 0 / _)
    rw [hsquares, Grouping.mean, List.length_map, squares]
    simp only [sub_zero]
  | kurtosis => exact kurtosisBlock_describes sqrt windows b j
  | last =>
    show (fibre windows b j).getLast? = some _
    rw [List.getLast?_eq_getElem?, length_fibre, fibre, List.getElem?_ofFn, dif_pos (Nat.sub_lt h Nat.one_pos)]
    rfl

end TwinVoice.Pdm
