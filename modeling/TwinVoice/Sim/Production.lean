import Mathlib.Algebra.Order.Floor.Ring
import Mathlib.Algebra.Order.Field.Basic
import Mathlib.Data.Rat.Floor
import Mathlib.Tactic.Linarith
import Mathlib.Tactic.NormNum
import TwinVoice.Sim.Base

/-! # Counted production

A machine's counter collects fractions of a cycle and splits off the whole
ones, which are good parts or rejects as the generator draws. What has been
counted and the fraction that is left are the cycles that the machine has run,
and none of it is lost. -/

namespace TwinVoice.Sim.Production

/-- What the generator draws for one step; no binomial draw leaves its range. -/
structure CycleDraw (K : Type) where
  normal : K
  binomial : Int → K → Int
  binomial_nonneg : ∀ n p, 0 ≤ n → 0 ≤ binomial n p
  binomial_le : ∀ n p, 0 ≤ n → binomial n p ≤ n

/-- The arguments of a step. -/
structure Cycle (K : Type) where
  dt : K
  utilization : K
  slowdown : K
  speed : K
  rejectProb : K
  draw : CycleDraw K

structure ProductionCounter (K : Type) where
  idealCycleTimeS : K
  good : Int
  reject : Int
  cycleTimeS : K
  partialCycles : K

section
variable {K : Type} [Field K] [LinearOrder K]

def ProductionCounter.new (idealCycleTimeS : K) : ProductionCounter K := ⟨idealCycleTimeS, 0, 0, idealCycleTimeS, 0⟩

/-- The cycle time without the noise. -/
def Cycle.nominal (idealCycleTimeS : K) (s : Cycle K) : K := idealCycleTimeS / max s.speed 0.1 * (1 + s.slowdown)

/-- The cycles that a step runs. -/
def Cycle.parts (idealCycleTimeS : K) (s : Cycle K) : K := s.dt * min s.utilization 1 / s.nominal idealCycleTimeS

def Cycle.runs (s : Cycle K) : Bool := 0 < s.dt ∧ 0 < s.utilization

variable [IsStrictOrderedRing K] [FloorRing K]

/-- `int(x)`. -/
def truncated (x : K) : Int := if x < 0 then ⌈x⌉ else ⌊x⌋

namespace ProductionCounter

/-- Some cycles that have been completed; the draw for a negative number of them raises, and leaves the counts. -/
def complete (c : ProductionCounter K) (s : Cycle K) (completed : Int) : ProductionCounter K :=
  if completed < 0 then c
  else
    let rejects := if completed = 0 then 0 else s.draw.binomial completed (min (max s.rejectProb 0) 1)
    { c with good := c.good + (completed - rejects), reject := c.reject + rejects }

/-- `step`. A division by a cycle time of zero raises too, and leaves what has been computed by then. -/
def step (c : ProductionCounter K) (s : Cycle K) : ProductionCounter K :=
  if s.dt ≤ 0 ∨ s.utilization ≤ 0 then c
  else
    let nominal := s.nominal c.idealCycleTimeS
    let c := { c with cycleTimeS := nominal * max (1 + 0.02 * s.draw.normal) 0.5 }
    if nominal = 0 then c
    else
      let partialCycles := c.partialCycles + s.parts c.idealCycleTimeS
      let completed := truncated partialCycles
      { c with partialCycles := partialCycles - completed }.complete s completed

def run (c : ProductionCounter K) (steps : List (Cycle K)) : ProductionCounter K := steps.foldl step c

def total (c : ProductionCounter K) : Int := c.good + c.reject

end ProductionCounter

end

/-! ## One step -/

section
variable {K : Type} [Field K] [LinearOrder K] [IsStrictOrderedRing K] {ideal : K} {s : Cycle K}

theorem Cycle.nominal_pos (hideal : 0 < ideal) (hslowdown : 0 ≤ s.slowdown) : 0 < s.nominal ideal := by
  have hspeed : 0 < max s.speed 0.1 := lt_max_of_lt_right (by norm_num)
  exact mul_pos (div_pos hideal hspeed) (by linarith)

theorem Cycle.parts_nonneg (hideal : 0 < ideal) (hslowdown : 0 ≤ s.slowdown) (hruns : s.runs) : 0 ≤ s.parts ideal := by
  obtain ⟨hdt, hutilization⟩ := of_decide_eq_true hruns
  exact div_nonneg (mul_nonneg hdt.le (le_min hutilization.le zero_le_one)) (nominal_pos hideal hslowdown).le

variable [FloorRing K] {c : ProductionCounter K}

namespace ProductionCounter

/-- The invariant of a counter for an ideal cycle time: it has a fraction of a cycle, and what it counts is not negative. -/
structure Sound (ideal : K) (c : ProductionCounter K) : Prop where
  ideal_eq : c.idealCycleTimeS = ideal
  good_nonneg : 0 ≤ c.good
  reject_nonneg : 0 ≤ c.reject
  partial_nonneg : 0 ≤ c.partialCycles
  partial_lt : c.partialCycles < 1

/-- What a step may do to a counter that runs `parts` cycles. -/
structure Counts (parts : K) (c c' : ProductionCounter K) : Prop where
  good_le : c.good ≤ c'.good
  reject_le : c.reject ≤ c'.reject
  conserved : (c'.total : K) + c'.partialCycles = c.total + c.partialCycles + parts

omit [IsStrictOrderedRing K] in
theorem step_of_idle (h : s.runs = false) : c.step s = c := by
  refine if_pos ?_
  rw [Cycle.runs, decide_eq_false_iff_not, not_and_or, not_lt, not_lt] at h
  exact h

/-- A step that runs moves the whole cycles over and keeps the fraction. -/
theorem step_of_runs (hideal : 0 < c.idealCycleTimeS) (hslowdown : 0 ≤ s.slowdown) (hfraction : 0 ≤ c.partialCycles)
    (hruns : s.runs) : ∃ rejects cycleTimeS,
      0 ≤ rejects ∧ rejects ≤ ⌊c.partialCycles + s.parts c.idealCycleTimeS⌋ ∧
      c.step s = { c with
        good := c.good + (⌊c.partialCycles + s.parts c.idealCycleTimeS⌋ - rejects)
        reject := c.reject + rejects
        cycleTimeS := cycleTimeS
        partialCycles := Int.fract (c.partialCycles + s.parts c.idealCycleTimeS) } := by
  have hparts := Cycle.parts_nonneg hideal hslowdown hruns
  have hsum : 0 ≤ c.partialCycles + s.parts c.idealCycleTimeS := add_nonneg hfraction hparts
  have hcompleted : 0 ≤ ⌊c.partialCycles + s.parts c.idealCycleTimeS⌋ := Int.floor_nonneg.mpr hsum
  have hnominal := (Cycle.nominal_pos hideal hslowdown (s := s)).ne'
  obtain ⟨hdt, hutilization⟩ := of_decide_eq_true hruns
  have hidle : ¬(s.dt ≤ 0 ∨ s.utilization ≤ 0) := not_or.mpr ⟨not_le.mpr hdt, not_le.mpr hutilization⟩
  have htruncated : truncated (c.partialCycles + s.parts c.idealCycleTimeS) =
      ⌊c.partialCycles + s.parts c.idealCycleTimeS⌋ := if_neg (not_lt.mpr hsum)
  have hdrawn := s.draw.binomial_nonneg _ (min (max s.rejectProb 0) 1) hcompleted
  have hmost := s.draw.binomial_le _ (min (max s.rejectProb 0) 1) hcompleted
  refine ⟨if ⌊c.partialCycles + s.parts c.idealCycleTimeS⌋ = 0 then 0
    else s.draw.binomial ⌊c.partialCycles + s.parts c.idealCycleTimeS⌋ (min (max s.rejectProb 0) 1),
    s.nominal c.idealCycleTimeS * max (1 + 0.02 * s.draw.normal) 0.5, ?_, ?_, ?_⟩
  · split
    · exact le_rfl
    · exact hdrawn
  · split
    · exact hcompleted
    · exact hmost
  · rw [step, if_neg hidle]
    dsimp only
    rw [if_neg hnominal, htruncated, complete, if_neg (not_lt.mpr hcompleted)]
    rfl

theorem counts_step (h : Sound ideal c) (hideal : 0 < ideal) (hslowdown : 0 ≤ s.slowdown) :
    Sound ideal (c.step s) ∧ Counts (if s.runs then s.parts ideal else 0) c (c.step s) := by
  obtain rfl := h.ideal_eq
  cases hruns : s.runs with
  | false =>
    rw [step_of_idle hruns]
    exact ⟨h, le_rfl, le_rfl, (add_zero _).symm⟩
  | true =>
    obtain ⟨rejects, cycleTimeS, hleast, hmost, hstep⟩ := step_of_runs hideal hslowdown h.partial_nonneg hruns
    have hgood := sub_nonneg.mpr hmost
    rw [hstep]
    refine ⟨⟨rfl, add_nonneg h.good_nonneg hgood, add_nonneg h.reject_nonneg hleast, Int.fract_nonneg _,
      Int.fract_lt_one _⟩, le_add_of_nonneg_right hgood, le_add_of_nonneg_right hleast, ?_⟩
    have htotal : c.good + (⌊c.partialCycles + s.parts c.idealCycleTimeS⌋ - rejects) + (c.reject + rejects) =
        c.total + ⌊c.partialCycles + s.parts c.idealCycleTimeS⌋ := by
      rw [total]
      ring
    rw [total, htotal, Int.cast_add, add_assoc, Int.floor_add_fract, if_pos rfl, add_assoc]

/-- The cycles that some steps run. -/
def parts (ideal : K) (steps : List (Cycle K)) : K := ((steps.filter Cycle.runs).map (Cycle.parts ideal)).sum

omit [IsStrictOrderedRing K] [FloorRing K] in
theorem parts_cons (ideal : K) (s : Cycle K) (steps : List (Cycle K)) :
    parts ideal (s :: steps) = (if s.runs then s.parts ideal else 0) + parts ideal steps := by
  unfold parts
  cases hruns : s.runs with
  | false => simp [hruns]
  | true => simp [hruns]

/-! ## Runs -/

theorem counts_run (h : Sound ideal c) (hideal : 0 < ideal) {steps : List (Cycle K)}
    (hslowdown : ∀ s ∈ steps, 0 ≤ s.slowdown) : Sound ideal (c.run steps) ∧ Counts (parts ideal steps) c (c.run steps) := by
  induction steps generalizing c with
  | nil => exact ⟨h, le_rfl, le_rfl, (add_zero _).symm⟩
  | cons s steps ih =>
    obtain ⟨hfirst, hrest⟩ := List.forall_mem_cons.mp hslowdown
    obtain ⟨hsound, hcounts⟩ := counts_step h hideal hfirst
    obtain ⟨hlast, hlater⟩ := ih hsound hrest
    refine ⟨hlast, hcounts.good_le.trans hlater.good_le, hcounts.reject_le.trans hlater.reject_le, ?_⟩
    rw [parts_cons, ← add_assoc, ← hcounts.conserved]
    exact hlater.conserved

end ProductionCounter

/-- A new counter has counted what it has run but for a fraction of a cycle, and its counts only grow. -/
theorem production_conserved (hideal : 0 < ideal) (steps : List (Cycle K)) (hslowdown : ∀ s ∈ steps, 0 ≤ s.slowdown) :
    (((ProductionCounter.new ideal).run steps).good : K) + ((ProductionCounter.new ideal).run steps).reject +
        ((ProductionCounter.new ideal).run steps).partialCycles =
      ((steps.filter fun s => 0 < s.dt ∧ 0 < s.utilization).map fun s =>
        s.dt * min s.utilization 1 / (ideal / max s.speed 0.1 * (1 + s.slowdown))).sum ∧
    ((ProductionCounter.new ideal).run steps).partialCycles ∈ Set.Ico 0 1 ∧
    0 ≤ ((ProductionCounter.new ideal).run steps).good ∧ 0 ≤ ((ProductionCounter.new ideal).run steps).reject ∧
    ∀ earlier, earlier <+: steps →
      ((ProductionCounter.new ideal).run earlier).good ≤ ((ProductionCounter.new ideal).run steps).good ∧
      ((ProductionCounter.new ideal).run earlier).reject ≤ ((ProductionCounter.new ideal).run steps).reject := by
  have hnew : ProductionCounter.Sound ideal (ProductionCounter.new ideal) := ⟨rfl, le_rfl, le_rfl, le_rfl, zero_lt_one⟩
  obtain ⟨hsound, hcounts⟩ := ProductionCounter.counts_run hnew hideal hslowdown
  refine ⟨?_, ⟨hsound.partial_nonneg, hsound.partial_lt⟩, hsound.good_nonneg, hsound.reject_nonneg, ?_⟩
  · have hconserved := hcounts.conserved
    have hnone : ((ProductionCounter.new ideal).total : K) + (ProductionCounter.new ideal).partialCycles = 0 := by
      simp [ProductionCounter.new, ProductionCounter.total]
    rw [hnone, zero_add, ProductionCounter.total, Int.cast_add] at hconserved
    exact hconserved
  · intro earlier hprefix
    obtain ⟨later, rfl⟩ := hprefix
    have hearlier : ∀ s ∈ earlier, 0 ≤ s.slowdown := fun s hs => hslowdown s (List.mem_append_left later hs)
    have hlater : ∀ s ∈ later, 0 ≤ s.slowdown := fun s hs => hslowdown s (List.mem_append_right earlier hs)
    have hrun : (ProductionCounter.new ideal).run (earlier ++ later) = ((ProductionCounter.new ideal).run earlier).run later :=
      List.foldl_append
    obtain ⟨hmid, -⟩ := ProductionCounter.counts_run hnew hideal hearlier
    obtain ⟨-, hrest⟩ := ProductionCounter.counts_run hmid hideal hlater
    rw [hrun]
    exact ⟨hrest.good_le, hrest.reject_le⟩

end

/-- Draws of which every part is good. -/
def CycleDraw.good (K : Type) [Zero K] : CycleDraw K := ⟨0, fun _ _ => 0, fun _ _ _ => le_rfl, fun _ _ h => h⟩

/-- Twenty-five seconds of parts that take ten, and a step that is skipped. -/
theorem production_conserved_of_tens :
    (((ProductionCounter.new (10 : ℚ)).run [⟨25, 2, 0, 1, 0, .good ℚ⟩, ⟨-5, 1, 0, 1, 0, .good ℚ⟩]).good : ℚ) +
        ((ProductionCounter.new (10 : ℚ)).run [⟨25, 2, 0, 1, 0, .good ℚ⟩, ⟨-5, 1, 0, 1, 0, .good ℚ⟩]).reject +
        ((ProductionCounter.new (10 : ℚ)).run [⟨25, 2, 0, 1, 0, .good ℚ⟩, ⟨-5, 1, 0, 1, 0, .good ℚ⟩]).partialCycles =
      2.5 := by
  refine (production_conserved (by norm_num : (0 : ℚ) < 10) _ (by simp)).1.trans ?_
  norm_num

/-! ## The counter of a machine -/

def drawOf (draw : Base.CycleDraw) : CycleDraw Rat where
  normal := draw.normal
  binomial n p := (draw.binomial n.toNat p).val
  binomial_nonneg _ _ _ := Int.natCast_nonneg _
  binomial_le n p hn := by
    have hlt := (draw.binomial n.toNat p).isLt
    omega

def counterOf (c : Base.ProductionCounter) : ProductionCounter Rat :=
  ⟨c.idealCycleTimeS, c.good, c.reject, c.cycleTimeS, c.partialCycles⟩

theorem truncated_eq (x : Rat) : Base.truncated x = truncated x := by
  unfold Base.truncated truncated
  split
  · exact Rat.ceil_eq_neg_floor_neg x
  · rfl

theorem counterOf_complete (draw : Base.CycleDraw) (c : Base.ProductionCounter) (completed : Int)
    (dt utilization slowdown speed rejectProb : Rat) :
    counterOf (if completed < 0 then c
      else
        let rejects : Nat := (draw.binomial completed.toNat (min (max rejectProb 0) 1)).val
        { c with good := c.good + (completed.toNat - rejects), reject := c.reject + rejects }) =
      (counterOf c).complete ⟨dt, utilization, slowdown, speed, rejectProb, drawOf draw⟩ completed := by
  unfold ProductionCounter.complete
  split
  · rfl
  · rename_i hcompleted
    have hdrawn : (if completed = 0 then 0 else (drawOf draw).binomial completed (min (max rejectProb 0) 1)) =
        ((draw.binomial completed.toNat (min (max rejectProb 0) 1)).val : Int) := by
      split
      · rename_i hzero
        subst hzero
        exact (congrArg Nat.cast (Nat.lt_one_iff.mp (draw.binomial 0 _).isLt)).symm
      · rfl
    have hgood : ((completed.toNat - (draw.binomial completed.toNat (min (max rejectProb 0) 1)).val : Nat) : Int) =
        completed - (draw.binomial completed.toNat (min (max rejectProb 0) 1)).val := by
      have hlt := (draw.binomial completed.toNat (min (max rejectProb 0) 1)).isLt
      omega
    simp only [hdrawn, counterOf, Nat.cast_add, hgood]

/-- A machine's counter takes the same steps. -/
theorem counterOf_step (draw : Base.CycleDraw) (c : Base.ProductionCounter)
    (dt utilization slowdown speed rejectProb : Rat) :
    counterOf (c.step draw dt utilization slowdown speed rejectProb) =
      (counterOf c).step ⟨dt, utilization, slowdown, speed, rejectProb, drawOf draw⟩ := by
  have htenth : (1 / 10 : Rat) = 0.1 := by norm_num
  have hhundredth : (2 / 100 : Rat) = 0.02 := by norm_num
  have hhalf : (1 / 2 : Rat) = 0.5 := by norm_num
  unfold Base.ProductionCounter.step ProductionCounter.step
  rw [htenth, hhundredth, hhalf]
  by_cases hidle : dt ≤ 0 ∨ utilization ≤ 0
  · rw [if_pos hidle, if_pos hidle]
  · rw [if_neg hidle, if_neg hidle]
    dsimp only [Cycle.nominal, Cycle.parts]
    by_cases hnominal : c.idealCycleTimeS / max speed 0.1 * (1 + slowdown) = 0
    · have hnominal' : (counterOf c).idealCycleTimeS / max speed 0.1 * (1 + slowdown) = 0 := hnominal
      rw [if_pos hnominal, if_pos hnominal']
      rfl
    · have hnominal' : (counterOf c).idealCycleTimeS / max speed 0.1 * (1 + slowdown) ≠ 0 := hnominal
      rw [if_neg hnominal, if_neg hnominal', truncated_eq]
      exact counterOf_complete draw _ _ dt utilization slowdown speed rejectProb

end TwinVoice.Sim.Production
