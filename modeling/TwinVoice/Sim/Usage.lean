import TwinVoice.Lib.Dict
import TwinVoice.Lib.PowerLaw
import TwinVoice.Sim.Physics

/-! # Wear by usage

How fast a process accrues wear at an operating point, from the parameters that
the catalogue gives it: what its constructor takes of them, and the formula of
its class. The formulas are generic in the numbers, and a formula that raises
has no value. -/

namespace TwinVoice.Sim.Usage

open TwinVoice.Lib

/-- An operating point relative to the conditions a life was calibrated at. -/
structure Conditions (K : Type) where
  load : K
  speed : K
  tempC : Option K

structure Arrhenius (K : Type) where
  activationEnergyEv : K
  tRefC : K

/-- What a class keeps of its parameters for its `acceleration`. -/
inductive Law (K : Type)
  | wiener (loadExp speedExp : K)
  | gamma (loadExp speedExp : K)
  | paris (m : K)
  | taylor (n feedExp : K)
  | motorEfficiency (loadExp : K)

/-- `ProcessModel`. -/
inductive ProcessModel
  | wiener | gamma | paris | arrhenius | taylor | motorEfficiency
  deriving DecidableEq

structure ProcessSpec (K : Type) where
  model : ProcessModel
  params : Dict String K
  tempMetric : Option String

section
variable {K : Type} [Field K] [LinearOrder K] (f : Powers K)

/-- The defaults of `Conditions`. -/
def Conditions.reference : Conditions K := ⟨1, 1, none⟩

/-- `1 / x`. -/
def reciprocal (x : K) : Option K := if x = 0 then none else some (1 / x)

/-- `BOLTZMANN_EV_PER_K`. -/
def boltzmannEvPerK : K := 8.617333262e-5

/-- `KELVIN`. -/
def kelvin : K := 273.15

/-- `factor`. -/
def Arrhenius.factor (a : Arrhenius K) (tempC : K) : Option K := do
  let tK := max (tempC + kelvin) 1
  let inverse ← reciprocal (a.tRefC + kelvin)
  return f.exp (min (a.activationEnergyEv / boltzmannEvPerK * (inverse - 1 / tK)) 50.0)

def Law.acceleration (law : Law K) (cond : Conditions K) : Option K :=
  match law with
  | wiener loadExp speedExp | gamma loadExp speedExp => do
    let load ← f.pow (max cond.load 0) loadExp
    let speed ← f.pow (max cond.speed 0) speedExp
    return load * speed
  | paris m => do
    let load ← f.pow (max cond.load 0) m
    return max cond.speed 0 * load
  | taylor n feedExp => do
    let speedExp ← reciprocal n
    let speed ← f.pow (max cond.speed 0) speedExp
    let load ← f.pow (max cond.load 0) feedExp
    return speed * load
  | motorEfficiency loadExp => do
    let load ← f.pow (max cond.load 0) loadExp
    let speed ← f.pow (max cond.speed 0) 0
    return load * speed

end

/-! ## Construction -/

section
variable {K : Type} [Field K]

/-- The arguments that are left for the constructor, the life scattered and the wear begun. -/
def ProcessSpec.arguments (spec : ProcessSpec K) (scatter initial : K) : Option (Dict String K) :=
  let params := (spec.params.pop "ea_ev").pop "t_ref_c"
  (params.get? "life_h").map fun lifeH => (params.set "life_h" (lifeH * scatter)).set "initial" initial

/-- `build_process` leaves all other parameters as they are. -/
theorem ProcessSpec.get?_arguments {spec : ProcessSpec K} {scatter initial : K} {params : Dict String K}
    (h : spec.arguments scatter initial = some params) {name : String}
    (hname : name ∉ ["ea_ev", "t_ref_c", "life_h", "initial"]) : params.get? name = spec.params.get? name := by
  simp only [List.mem_cons, List.not_mem_nil, not_or, or_false] at hname
  obtain ⟨hea, htRef, hlife, hinitial⟩ := hname
  obtain ⟨lifeH, -, hparams⟩ := Option.map_eq_some_iff.mp h
  rw [← hparams, Dict.get?_set, if_neg (Ne.symm hinitial), Dict.get?_set, if_neg (Ne.symm hlife), Dict.get?_pop,
    if_neg (Ne.symm htRef), Dict.get?_pop, if_neg (Ne.symm hea)]

end

section
variable {K : Type} [Field K] [LinearOrder K] (f : Powers K)

/-- The keyword parameters of the class's constructor, without `driver` and `arrhenius`. -/
def ProcessModel.keywords : ProcessModel → List String
  | wiener | gamma | arrhenius => ["life_h", "cv", "load_exp", "speed_exp", "initial"]
  | paris => ["life_h", "rpm", "m", "a0_mm", "a_crit_mm", "stress_mpa", "y", "initial"]
  | taylor => ["life_h", "cutting_speed_m_min", "n", "vb_max_mm", "feed_exp", "initial"]
  | motorEfficiency => ["life_h", "eta0", "k", "cv", "load_exp", "initial"]

/-- Those that have no default. -/
def ProcessModel.required : ProcessModel → List String
  | paris => ["life_h", "rpm"]
  | taylor => ["life_h", "cutting_speed_m_min"]
  | _ => ["life_h"]

/-- `math.isclose`. -/
def isClose (x y : K) : Bool :=
  let size (z : K) := max z (-z)
  size (x - y) ≤ 1e-9 * max (size x) (size y)

/-- `_PROCESS_TYPES[model](**params)`: an unexpected argument, a missing one and the exponent that the
closed form excludes raise. -/
def ProcessModel.construct (model : ProcessModel) (params : Dict String K) : Option (Law K) :=
  let arg (name : String) (otherwise : K) : K := (params.get? name).getD otherwise
  if (∀ e ∈ params, e.1 ∈ model.keywords) ∧ ∀ name ∈ model.required, (params.get? name).isSome then
    match model with
    | wiener => some (.wiener (arg "load_exp" 1) (arg "speed_exp" 0))
    | gamma | arrhenius => some (.gamma (arg "load_exp" 1) (arg "speed_exp" 0))
    | paris => if isClose (arg "m" 3.0) 2.0 then none else some (.paris (arg "m" 3.0))
    | taylor => some (.taylor (arg "n" 0.25) (arg "feed_exp" 0.5))
    | motorEfficiency => some (.motorEfficiency (arg "load_exp" 2.0))
  else none

/-- A process, as far as its rate goes: the state of the wear has no part in it. -/
structure Process (K : Type) [Field K] [LinearOrder K] where
  law : Law K
  arrhenius : Option (Arrhenius K)
  rateMultiplier : K
  positive : 0 < rateMultiplier

/-- `Arrhenius(ea, t_ref) if ea is not None and t_ref is not None else None`. -/
def arrheniusOf (ea tRef : Option K) : Option (Arrhenius K) :=
  match ea, tRef with
  | some ea, some tRef => some ⟨ea, tRef⟩
  | _, _ => none

/-- `build_process`, with what the generator draws. -/
def buildProcess [IsStrictOrderedRing K] (spec : ProcessSpec K) (scatter initial : K) : Option (Process K) := do
  let params ← spec.arguments scatter initial
  let law ← spec.model.construct params
  return ⟨law, arrheniusOf (spec.params.get? "ea_ev") (spec.params.get? "t_ref_c"), 1, one_pos⟩

/-- What is no keyword of the constructor was not among the arguments. -/
theorem ProcessModel.get?_of_construct {model : ProcessModel} {params : Dict String K} {law : Law K}
    (h : model.construct params = some law) {name : String} (hname : name ∉ model.keywords) :
    params.get? name = none := by
  refine Dict.get?_eq_none fun hmem => ?_
  obtain ⟨e, he, rfl⟩ := List.mem_map.mp hmem
  unfold construct at h
  split at h
  · rename_i hchecks
    exact hname (hchecks.1 e he)
  · cases h

/-! ## The rate -/

/-- `factor` times the temperature's, if there is one. -/
def heated (a : Option (Arrhenius K)) (tempC : Option K) (factor : K) : Option K :=
  match a, tempC with
  | some a, some tempC => (a.factor f tempC).map (factor * ·)
  | _, _ => some factor

namespace Process

/-- Reference seconds of wear for each second of operation. -/
def rate (p : Process K) (cond : Conditions K) : Option K := do
  let acceleration ← p.law.acceleration f cond
  heated f p.arrhenius cond.tempC (acceleration * p.rateMultiplier)

/-- The rate in units of that at the reference conditions. -/
def relativeRate (p : Process K) (cond : Conditions K) : Option K := do
  let rate ← p.rate f cond
  let reference ← p.rate f .reference
  return rate / reference

end Process

/-- What happens to the rate of a process in its life. -/
inductive Change (K : Type) [Field K] [LinearOrder K]
  | gradual (rul targetS : K) (positive : 0 < targetS)
  | reset

end

section
variable {K : Type} [Field K] [LinearOrder K] [IsStrictOrderedRing K]

namespace Process

def change (p : Process K) : Change K → Process K
  | .gradual rul targetS positive =>
    if h : targetS < rul then
      { p with
        rateMultiplier := p.rateMultiplier * (rul / targetS)
        positive := mul_pos p.positive (div_pos (positive.trans h) positive) }
    else p
  | .reset => { p with rateMultiplier := 1, positive := one_pos }

@[simp] theorem law_change (p : Process K) (c : Change K) : (p.change c).law = p.law := by
  cases c with
  | gradual rul targetS positive =>
    simp only [change]
    split <;> rfl
  | reset => rfl

@[simp] theorem arrhenius_change (p : Process K) (c : Change K) : (p.change c).arrhenius = p.arrhenius := by
  cases c with
  | gradual rul targetS positive =>
    simp only [change]
    split <;> rfl
  | reset => rfl

/-- A process after some changes. -/
def run (p : Process K) (changes : List (Change K)) : Process K := changes.foldl change p

/-- Its formula is the one it was built with. -/
theorem run_keeps (p : Process K) (changes : List (Change K)) :
    (p.run changes).law = p.law ∧ (p.run changes).arrhenius = p.arrhenius := by
  induction changes generalizing p with
  | nil => exact ⟨rfl, rfl⟩
  | cons c changes ih =>
    obtain ⟨hlaw, harrhenius⟩ := ih (p.change c)
    exact ⟨hlaw.trans (law_change p c), harrhenius.trans (arrhenius_change p c)⟩

end Process

end

section
variable {K : Type} [Field K] [LinearOrder K] (f : Powers K)

/-- The exponents of load and speed, where the formula has any. -/
def Law.exponents : Law K → Option (PowerLaw K)
  | wiener loadExp speedExp | gamma loadExp speedExp => some ⟨loadExp, speedExp⟩
  | paris m => some ⟨m, 1⟩
  | taylor n feedExp => (reciprocal n).map fun speedExp => ⟨feedExp, speedExp⟩
  | motorEfficiency loadExp => some ⟨loadExp, 0⟩

@[simp] theorem heated_none (a : Option (Arrhenius K)) (factor : K) : heated f a none factor = some factor := by
  cases a <;> rfl

/-- A factor that has no temperature in it passes through. -/
theorem heated_mul (a : Option (Arrhenius K)) (tempC : Option K) (x y : K) :
    heated f a tempC (x * y) = (heated f a tempC x).map (· * y) := by
  unfold heated
  split
  · rw [Option.map_map]
    congr 1
    funext z
    exact mul_right_comm x y z
  · rfl

end

/-! ## Over the reals -/

/-- Whatever the class, wear follows a power law of load and speed. -/
theorem Law.acceleration_real (law : Law ℝ) (cond : Conditions ℝ) :
    law.acceleration .real cond =
      law.exponents.bind fun e => e.factor .real (max cond.load 0) (max cond.speed 0) := by
  cases law with
  | wiener loadExp speedExp => rfl
  | gamma loadExp speedExp => rfl
  | motorEfficiency loadExp => rfl
  | paris m =>
    cases hload : Powers.real.pow (max cond.load 0) m with
    | none => simp [acceleration, exponents, PowerLaw.factor, hload]
    | some load => simp [acceleration, exponents, PowerLaw.factor, hload, mul_comm]
  | taylor n feedExp =>
    cases hexp : reciprocal n with
    | none => simp [acceleration, exponents, hexp]
    | some speedExp =>
      cases hload : Powers.real.pow (max cond.load 0) feedExp <;>
        cases hspeed : Powers.real.pow (max cond.speed 0) speedExp <;>
          simp [acceleration, exponents, PowerLaw.factor, hexp, hload, hspeed, mul_comm]

/-- Nothing is accelerated at the reference conditions. -/
theorem Law.acceleration_reference (law : Law ℝ) :
    law.acceleration .real .reference = law.exponents.map fun _ => 1 := by
  rw [acceleration_real]
  cases law.exponents with
  | none => rfl
  | some e => simp [Conditions.reference]

/-- Faults of the past cancel out of the rate relative to that at the reference conditions. -/
theorem Process.relativeRate_eq (p : Process ℝ) (cond : Conditions ℝ) :
    p.relativeRate .real cond = (p.law.acceleration .real cond).bind (heated .real p.arrhenius cond.tempC) := by
  have hmult : p.rateMultiplier ≠ 0 := p.positive.ne'
  have hreference : p.rate .real .reference = p.law.exponents.map fun _ => p.rateMultiplier := by
    rw [rate, Law.acceleration_reference]
    cases p.law.exponents with
    | none => rfl
    | some e => simp [Conditions.reference]
  rw [relativeRate, hreference, rate, Law.acceleration_real]
  cases p.law.exponents with
  | none => rfl
  | some e =>
    cases hfactor : e.factor .real (max cond.load 0) (max cond.speed 0) with
    | none => simp [hfactor]
    | some factor =>
      cases hheat : heated Powers.real p.arrhenius cond.tempC factor <;>
        simp [hfactor, heated_mul, hheat, hmult]

/-! ## The processes of a machine -/

/-- The formula of a machine's process. -/
def lawOf : Base.Degradation → Law Rat
  | .wiener _ _ loadExp speedExp _ _ => .wiener loadExp speedExp
  | .gamma _ _ loadExp speedExp _ => .gamma loadExp speedExp
  | .paris m _ _ _ _ _ _ _ => .paris m
  | .taylor n _ feedExp _ => .taylor n feedExp
  | .motorEfficiency _ _ loadExp _ _ _ => .motorEfficiency loadExp

/-- The machine's platform, where no power raises. -/
def powersOf (math : Base.Math) : Powers Rat := ⟨math.exp, fun x y => some (math.pow x y)⟩

def conditionsOf (cond : Base.Conditions) : Conditions Rat := ⟨cond.load, cond.speed, cond.tempC⟩

def modifierOf (a : Base.Arrhenius) : Arrhenius Rat := ⟨a.activationEnergyEv, a.tRefC⟩

theorem acceleration_lawOf (math : Base.Math) {d : Base.Degradation} (hexp : (lawOf d).exponents ≠ none)
    (cond : Base.Conditions) :
    (lawOf d).acceleration (powersOf math) (conditionsOf cond) = some (d.acceleration math cond) := by
  cases d with
  | wiener => rfl
  | gamma => rfl
  | paris => rfl
  | motorEfficiency => rfl
  | taylor n lifeRefS feedExp wear =>
    by_cases hn : n = 0
    · simp [lawOf, Law.exponents, reciprocal, hn] at hexp
    · simp [lawOf, Law.acceleration, reciprocal, hn, powersOf, conditionsOf, Base.Degradation.acceleration]

theorem factor_modifierOf (math : Base.Math) {a : Base.Arrhenius} (htemp : a.tRefC + kelvin ≠ 0) (tempC : Rat) :
    (modifierOf a).factor (powersOf math) tempC = some (a.factor math tempC) := by
  have hkelvin : (kelvin : Rat) = Base.kelvin := by norm_num [kelvin, Base.kelvin]
  rw [hkelvin] at htemp
  have hinverse : reciprocal (a.tRefC + Base.kelvin) = some (1 / (a.tRefC + Base.kelvin)) := if_neg htemp
  have hboltzmann : (boltzmannEvPerK : Rat) = Base.boltzmannEvPerK := by norm_num [boltzmannEvPerK, Base.boltzmannEvPerK]
  have hmost : (50.0 : Rat) = 50 := by norm_num
  simp only [Arrhenius.factor, modifierOf, hinverse, hkelvin, hboltzmann, hmost]
  rfl

/-- The rate of a machine's process is the one of its formula, where nothing is divided by zero. -/
theorem rate_of_machine (math : Base.Math) {p : Base.Process} (hexp : (lawOf p.degradation).exponents ≠ none)
    (htemp : ∀ a ∈ p.arrhenius, a.tRefC + kelvin ≠ 0) (hpos : 0 < p.rateMultiplier) (cond : Base.Conditions) :
    (⟨lawOf p.degradation, p.arrhenius.map modifierOf, p.rateMultiplier, hpos⟩ : Process Rat).rate (powersOf math)
      (conditionsOf cond) = some (p.rate math cond) := by
  obtain ⟨load, speed, tempC⟩ := cond
  obtain ⟨driver, arrhenius, rateMultiplier, degradation⟩ := p
  rw [Process.rate, acceleration_lawOf math hexp]
  cases arrhenius with
  | none => rfl
  | some a =>
    cases tempC with
    | none => rfl
    | some tempC =>
      have hfactor := factor_modifierOf math (htemp a rfl) tempC
      simp [heated, conditionsOf, hfactor, Base.Process.rate]

end TwinVoice.Sim.Usage
