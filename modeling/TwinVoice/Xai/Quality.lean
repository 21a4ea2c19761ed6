import Mathlib.Algebra.Order.Ring.Rat
import Mathlib.Data.Fin.Tuple.Sort
import Mathlib.Data.Fin.VecNotation
import Mathlib.Data.List.OfFn
import TwinVoice.Lib.Curves

/-! # Explanation quality

The features of a point are set to zero most important first and a curve of the
outputs is read. The area under it is taken relative to its own range, so it is
between 0 and 1. A curve without a range is given 0, and that is less
than what any curve is given that goes below its start. -/

namespace TwinVoice.Xai

open TwinVoice.Lib.Curves

/-- `argsort`. How it orders equal keys is left open. -/
structure Argsort (K : Type*) [LinearOrder K] (n : Nat) where
  order : (Fin n → K) → Equiv.Perm (Fin n)
  sorted : ∀ keys, Monotone (keys ∘ order keys)

section
variable {K : Type*} {n : Nat}

/-- The consecutive slices of a length. -/
def slices (order : List (Fin n)) (chunk : Nat) : List (List (Fin n)) :=
  (List.range' 0 ((order.length + chunk - 1) / chunk) chunk).map fun start => (order.drop start).take chunk

/-- `none` is the division by zero. -/
def chunkSize (n : Nat) (steps : Int) : Option Nat :=
  if steps = 0 then none else some (max 1 ((n : Int).fdiv steps)).toNat

variable [Field K] [LinearOrder K]

def zeroed (probe : Fin n → K) (slice : List (Fin n)) : Fin n → K := fun i => if i ∈ slice then 0 else probe i

def ablationCurve (argsort : Argsort K n) (predict : (Fin n → K) → K) (x contributions : Fin n → K) (steps : Int)
    (descending : Bool) : Option (List K) :=
  let magnitudes := fun i => |contributions i|
  let order := List.ofFn (argsort.order (if descending then fun i => - magnitudes i else magnitudes))
  (chunkSize n steps).map fun chunk => ((slices order chunk).scanl zeroed x).map predict

def normalisedAuc (curve : List K) : K :=
  if high curve - low curve = 0 then 0 else trapezoid (rescaled curve) / (curve.length - 1)

def deletionAuc (argsort : Argsort K n) (predict : (Fin n → K) → K) (x contributions : Fin n → K) (steps : Int) :
    Option K :=
  (ablationCurve argsort predict x contributions steps true).map normalisedAuc

end

/-! ## Areas -/

section
variable {K : Type*} [Field K] [LinearOrder K] [IsStrictOrderedRing K]

theorem normalisedAuc_mem_unit (curve : List K) : 0 ≤ normalisedAuc curve ∧ normalisedAuc curve ≤ 1 := by
  unfold normalisedAuc
  by_cases hspan : high curve - low curve = 0
  · rw [if_pos hspan]
    exact ⟨le_rfl, zero_le_one⟩
  · rw [if_neg hspan]
    cases curve with
    | nil => simp [rescaled]
    | cons a rest =>
      have hunit : ∀ v ∈ rescaled (a :: rest), 0 ≤ v ∧ v ≤ 1 := fun v hv => rescaled_mem_unit hv
      have harea : trapezoid (rescaled (a :: rest)) ≤ ((rest.map _).length : Nat) :=
        trapezoid_le fun v hv => (hunit v hv).2
      rw [List.length_map] at harea
      rw [List.length_cons, Nat.cast_succ, add_sub_cancel_right]
      exact ⟨div_nonneg (trapezoid_nonneg fun v hv => (hunit v hv).1) (Nat.cast_nonneg _),
        div_le_one_of_le₀ harea (Nat.cast_nonneg _)⟩

omit [IsStrictOrderedRing K] in
theorem normalisedAuc_flat {a : K} {rest : List K} (h : ∀ v ∈ a :: rest, v = a) : normalisedAuc (a :: rest) = 0 :=
  if_pos (sub_eq_zero.mpr (high_eq_low_iff.mpr h))

theorem normalisedAuc_pos {a v : K} {rest : List K} (hv : v ∈ a :: rest) (hlt : v < a) : 0 < normalisedAuc (a :: rest) := by
  have hlow : low (a :: rest) < a := (low_le hv).trans_lt hlt
  have hhigh : a ≤ high (a :: rest) := le_high List.mem_cons_self
  have hspan : 0 < high (a :: rest) - low (a :: rest) := by linarith
  have hrest : rest ≠ [] := by
    intro hnil
    rw [hnil] at hv
    exact absurd (List.mem_singleton.mp hv) hlt.ne
  obtain ⟨b, rest, rfl⟩ := List.exists_cons_of_ne_nil hrest
  have hunit : ∀ w ∈ rescaled (a :: b :: rest), 0 ≤ w ∧ w ≤ 1 := fun w hw => rescaled_mem_unit hw
  have hpos : 0 < trapezoid (rescaled (a :: b :: rest)) :=
    trapezoid_pos (div_pos (by linarith) hspan) fun w hw => (hunit w (List.mem_cons_of_mem _ hw)).1
  rw [normalisedAuc, if_neg hspan.ne']
  refine div_pos hpos ?_
  rw [List.length_cons, Nat.cast_succ, add_sub_cancel_right, List.length_cons, Nat.cast_succ]
  positivity

end

/-! ## Removals -/

section
variable {n : Nat}

theorem mem_slices {order : List (Fin n)} {chunk : Nat} (hchunk : 0 < chunk) {i : Fin n} (h : i ∈ order) :
    ∃ slice ∈ slices order chunk, i ∈ slice := by
  obtain ⟨p, hp, rfl⟩ := List.mem_iff_getElem.mp h
  have hsplit := Nat.div_add_mod p chunk
  have hmod := Nat.mod_lt p hchunk
  have hcount : p / chunk < (order.length + chunk - 1) / chunk := by
    rw [Nat.lt_iff_add_one_le, Nat.le_div_iff_mul_le hchunk, Nat.add_mul, Nat.one_mul, Nat.mul_comm]
    omega
  refine ⟨(order.drop (chunk * (p / chunk))).take chunk,
    List.mem_map.mpr ⟨chunk * (p / chunk), List.mem_range'.mpr ⟨p / chunk, hcount, by rw [Nat.zero_add]⟩, rfl⟩, ?_⟩
  refine List.mem_iff_getElem.mpr ⟨p % chunk, ?_, ?_⟩
  · rw [List.length_take, List.length_drop]
    omega
  · rw [List.getElem_take, List.getElem_drop]
    congr 1

theorem chunkSize_of_ne {steps : Int} (h : steps ≠ 0) (n : Nat) : ∃ chunk, chunkSize n steps = some chunk := ⟨_, if_neg h⟩

theorem chunkSize_pos {steps : Int} {chunk : Nat} (h : chunkSize n steps = some chunk) : 0 < chunk := by
  unfold chunkSize at h
  split at h
  · cases h
  · have hchunk := Option.some.inj h
    omega

variable {K : Type*} [Field K]

/-- A removed feature is zero in the end. -/
theorem foldl_zeroed {removed : List (List (Fin n))} {x : Fin n → K} {i : Fin n}
    (h : x i = 0 ∨ ∃ slice ∈ removed, i ∈ slice) : removed.foldl zeroed x i = 0 := by
  induction removed generalizing x with
  | nil => exact h.resolve_right fun h => by simp at h
  | cons slice removed ih =>
    refine ih ?_
    rcases h with hzero | ⟨found, hfound, hi⟩
    · left
      rw [zeroed, hzero, ite_self]
    · rcases List.mem_cons.mp hfound with rfl | hlater
      · exact .inl (if_pos hi)
      · exact .inr ⟨found, hlater, hi⟩

end

section
variable {K : Type*} [Field K] [LinearOrder K] {n : Nat} (argsort : Argsort K n) (predict : (Fin n → K) → K)
  (x : Fin n → K) (steps : Int)

/-- The removals of an explanation leave the output as it is. -/
def Unchanges (contributions : Fin n → K) : Prop :=
  ∃ curve, ablationCurve argsort predict x contributions steps true = some curve ∧ ∀ v ∈ curve, v = predict x

/-- The removals of an explanation lower the output and never raise it above its start. -/
def Lowers (contributions : Fin n → K) : Prop :=
  ∃ curve, ablationCurve argsort predict x contributions steps true = some curve ∧ (∀ v ∈ curve, v ≤ predict x) ∧
    ∃ v ∈ curve, v < predict x

/-- The metric ranks the explanations of a point as its ends say: less is better. -/
structure Ranks : Prop where
  bounded : ∀ c, ∃ a, deletionAuc argsort predict x c steps = some a ∧ 0 ≤ a ∧ a ≤ 1
  ordered : ∀ c d, Unchanges argsort predict x steps c → Lowers argsort predict x steps d →
    ∀ a ∈ deletionAuc argsort predict x c steps, ∀ b ∈ deletionAuc argsort predict x d steps, b ≤ a

variable {argsort predict x steps}

/-- The curve starts at the output for the point itself. -/
theorem ablationCurve_eq {c : Fin n → K} {descending : Bool} {curve : List K}
    (h : ablationCurve argsort predict x c steps descending = some curve) : ∃ rest, curve = predict x :: rest := by
  obtain ⟨chunk, -, rfl⟩ := Option.map_eq_some_iff.mp h
  cases slices (List.ofFn (argsort.order _)) chunk with
  | nil => exact ⟨[], rfl⟩
  | cons slice rest => exact ⟨_, by rw [List.scanl_cons, List.map_cons]⟩

/-- Where an explanation leaves the output as it is, so does removing all features. -/
theorem Unchanges.predict_zero {c : Fin n → K} (h : Unchanges argsort predict x steps c) : predict 0 = predict x := by
  obtain ⟨curve, hcurve, hall⟩ := h
  obtain ⟨chunk, hchunk, rfl⟩ := Option.map_eq_some_iff.mp hcurve
  have hlast : (slices (List.ofFn (argsort.order fun i => - |c i|)) chunk).foldl zeroed x = 0 := by
    funext i
    refine foldl_zeroed (.inr (mem_slices (chunkSize_pos hchunk) ?_))
    exact List.mem_ofFn.mpr ⟨(argsort.order _).symm i, Equiv.apply_symm_apply _ _⟩
  refine hall _ (List.mem_map.mpr ⟨0, ?_, rfl⟩)
  exact List.mem_of_getLast? (List.getLast?_scanl.trans (congrArg some hlast))

end

section
variable {K : Type*} [Field K] [LinearOrder K] [IsStrictOrderedRing K] {n : Nat} {argsort : Argsort K n}
  {predict : (Fin n → K) → K} {x : Fin n → K} {steps : Int}

theorem deletionAuc_mem_unit {c : Fin n → K} {a : K} (h : deletionAuc argsort predict x c steps = some a) : 0 ≤ a ∧ a ≤ 1 := by
  obtain ⟨curve, -, rfl⟩ := Option.map_eq_some_iff.mp h
  exact normalisedAuc_mem_unit curve

omit [IsStrictOrderedRing K] in
/-- An explanation that leaves the output as it is gets what is documented for one that takes it down at once. -/
theorem Unchanges.deletionAuc {c : Fin n → K} (h : Unchanges argsort predict x steps c) :
    deletionAuc argsort predict x c steps = some 0 := by
  obtain ⟨curve, hcurve, hall⟩ := h
  obtain ⟨rest, rfl⟩ := ablationCurve_eq hcurve
  rw [Xai.deletionAuc, hcurve, Option.map_some, normalisedAuc_flat hall]

theorem Lowers.deletionAuc_pos {c : Fin n → K} (h : Lowers argsort predict x steps c) :
    ∃ a, deletionAuc argsort predict x c steps = some a ∧ 0 < a := by
  obtain ⟨curve, hcurve, -, v, hv, hlt⟩ := h
  obtain ⟨rest, rfl⟩ := ablationCurve_eq hcurve
  exact ⟨_, by rw [Xai.deletionAuc, hcurve, Option.map_some], normalisedAuc_pos hv hlt⟩

/-- The metric ranks no two explanations of a point right of which one leaves the output as it is and one lowers it. -/
theorem ranks_iff : Ranks argsort predict x steps ↔
    steps ≠ 0 ∧ ¬ ((∃ c, Unchanges argsort predict x steps c) ∧ ∃ c, Lowers argsort predict x steps c) := by
  constructor
  · intro h
    constructor
    · intro hsteps
      obtain ⟨a, ha, -⟩ := h.bounded 0
      rw [hsteps] at ha
      cases ha
    · intro hboth
      obtain ⟨⟨c, hc⟩, d, hd⟩ := hboth
      obtain ⟨b, hb, hpos⟩ := hd.deletionAuc_pos
      exact absurd (h.ordered c d hc hd 0 hc.deletionAuc b hb) (not_le.mpr hpos)
  · intro h
    obtain ⟨hsteps, hnone⟩ := h
    constructor
    · intro c
      obtain ⟨chunk, hchunk⟩ := chunkSize_of_ne hsteps n
      have hsome : ∃ a, deletionAuc argsort predict x c steps = some a :=
        ⟨_, by rw [deletionAuc, ablationCurve, hchunk, Option.map_some, Option.map_some]⟩
      obtain ⟨a, ha⟩ := hsome
      exact ⟨a, ha, deletionAuc_mem_unit ha⟩
    · intro c d hc hd
      exact absurd ⟨⟨c, hc⟩, d, hd⟩ hnone

end

/-! The output is 1 unless the first feature is there without the second. -/

def sorting (n : Nat) : Argsort ℚ n := ⟨Tuple.sort, Tuple.monotone_sort⟩

def implied (v : Fin 2 → ℚ) : ℚ := 1 - v 0 * (1 - v 1)

/-- Two different keys leave no choice. -/
theorem order_two (argsort : Argsort ℚ 2) {keys : Fin 2 → ℚ} {i j : Fin 2} (h : keys i < keys j) :
    List.ofFn (argsort.order keys) = [i, j] := by
  have hle : keys (argsort.order keys 0) ≤ keys (argsort.order keys 1) := argsort.sorted keys (Fin.zero_le 1)
  have hne : argsort.order keys 0 ≠ argsort.order keys 1 := (argsort.order keys).injective.ne (by decide)
  have hij : i ≠ j := fun heq => absurd h (heq ▸ lt_irrefl _)
  have hcases : ∀ i j k l : Fin 2, i ≠ j → k ≠ l → (k = i ∧ l = j) ∨ (k = j ∧ l = i) := by decide
  change [argsort.order keys 0, argsort.order keys 1] = [i, j]
  rcases hcases _ _ _ _ hij hne with ⟨hi, hj⟩ | ⟨hj, hi⟩
  · rw [hi, hj]
  · rw [hi, hj] at hle
    exact absurd h (not_lt.mpr hle)

theorem ablationCurve_two (argsort : Argsort ℚ 2) (predict : (Fin 2 → ℚ) → ℚ) (x : Fin 2 → ℚ) {c : Fin 2 → ℚ} {i j : Fin 2}
    (h : |c j| < |c i|) : ablationCurve argsort predict x c 10 true =
      some [predict x, predict (zeroed x [i]), predict (zeroed (zeroed x [i]) [j])] := by
  have horder : List.ofFn (argsort.order fun i => - |c i|) = [i, j] := order_two argsort (neg_lt_neg h)
  change (chunkSize 2 10).map (fun chunk =>
    ((slices (List.ofFn (argsort.order fun i => - |c i|)) chunk).scanl zeroed x).map predict) = _
  have hchunk : chunkSize 2 10 = some 1 := by decide
  have hslices : slices [i, j] 1 = [[i], [j]] := by simp [slices, List.range'_succ]
  rw [horder, hchunk, Option.map_some, hslices, List.scanl_cons, List.scanl_cons, List.scanl_nil]
  rfl

/-- Removing the first feature first changes nothing and is scored better than removing the second first, which
takes the output to 0. -/
theorem no_change_ranks_first :
    deletionAuc (sorting 2) implied ![1, 1] ![2, 1] 10 = some 0 ∧
      deletionAuc (sorting 2) implied ![1, 1] ![1, 2] 10 = some (1 / 2) ∧
      ¬ Ranks (sorting 2) implied ![1, 1] 10 := by
  have hfirst : ablationCurve (sorting 2) implied ![1, 1] ![2, 1] 10 true = some [1, 1, 1] := by
    rw [ablationCurve_two _ _ _ (i := 0) (j := 1) (by norm_num)]
    norm_num [implied, zeroed]
  have hsecond : ablationCurve (sorting 2) implied ![1, 1] ![1, 2] 10 true = some [1, 0, 1] := by
    rw [ablationCurve_two _ _ _ (i := 1) (j := 0) (by norm_num)]
    norm_num [implied, zeroed]
  have hunchanges : Unchanges (sorting 2) implied ![1, 1] 10 ![2, 1] := ⟨_, hfirst, by norm_num [implied]⟩
  have hlowers : Lowers (sorting 2) implied ![1, 1] 10 ![1, 2] := ⟨_, hsecond, by norm_num [implied]⟩
  have hlow : deletionAuc (sorting 2) implied ![1, 1] ![1, 2] 10 = some (1 / 2) := by
    rw [deletionAuc, hsecond]
    decide +kernel
  refine ⟨hunchanges.deletionAuc, hlow, fun h => ?_⟩
  exact absurd (h.ordered _ _ hunchanges hlowers 0 hunchanges.deletionAuc (1 / 2) hlow) (by norm_num)

/-- An output that is the feature itself is not left as it is by any explanation. -/
theorem only_feature_ranks : Ranks (sorting 1) (fun v => v 0) ![1] 10 := by
  refine ranks_iff.mpr ⟨by decide, fun h => ?_⟩
  obtain ⟨⟨c, hc⟩, -⟩ := h
  exact absurd hc.predict_zero (by decide)

end TwinVoice.Xai
