import TwinVoice.Sim.Usage

/-! # What if

The clone that a what-if question is asked of, built from a component's row and
its damage, and how fast it wears at an operating point. The row holds the
catalogue's parameters of the process that the simulator runs. -/

namespace TwinVoice.Twin.WhatIf

open TwinVoice.Lib TwinVoice.Sim.Usage

/-- Load and speed are fractions of nominal. -/
structure Conditions (K : Type) where
  load : K
  speed : K
  ambientC : Option K

/-- A component of the catalogue; the failure mode that comes with a process is left out. -/
structure ComponentSpec (K : Type) where
  code : String
  name : String
  process : Option (ProcessSpec K)

/-- The numbers, and the one text among them. -/
structure PhysicsParams (K : Type) where
  numbers : Dict String K
  tempMetric : Option String

/-- The row of a component. -/
structure Component (K : Type) where
  code : String
  name : String
  physicsModel : Option String
  physicsParams : PhysicsParams K

structure ComponentState (K : Type) where
  code : String
  name : String
  physicsModel : String
  damage : K
  lifeH : K
  cv : K
  loadExp : K
  speedExp : K
  activationEnergyEv : Option K
  tRefC : Option K

/-! ## The row -/

/-- The catalogue's word for a model. -/
def modelName : ProcessModel → String
  | .wiener => "wiener"
  | .gamma => "gamma"
  | .paris => "paris"
  | .arrhenius => "arrhenius"
  | .taylor => "taylor"
  | .motorEfficiency => "motor_efficiency"

namespace ComponentSpec
variable {K : Type}

/-- `physics_model`. -/
def physicsModel (c : ComponentSpec K) : String := (c.process.map fun s => modelName s.model).getD "none"

/-- `_physics_params`; an empty name of a metric is no name. -/
def physicsParams (c : ComponentSpec K) : PhysicsParams K :=
  match c.process with
  | none => ⟨[], none⟩
  | some s => ⟨s.params, s.tempMetric.filter (· ≠ "")⟩

/-- What the catalogue seeds the table with. -/
def row (c : ComponentSpec K) : Component K := ⟨c.code, c.name, some c.physicsModel, c.physicsParams⟩

end ComponentSpec

/-! ## The clone -/

section
variable {K : Type} [Field K]

/-- `DEFAULT_CV`. -/
def defaultCv : K := 0.15

/-- `BOLTZMANN_EV_PER_K`. -/
def boltzmannEvPerK : K := 8.617333262e-5

/-- `KELVIN`. -/
def kelvin : K := 273.15

theorem boltzmannEvPerK_eq : (boltzmannEvPerK : K) = Sim.Usage.boltzmannEvPerK := rfl

theorem kelvin_eq : (kelvin : K) = Sim.Usage.kelvin := rfl

end

section
variable {K : Type} [Field K] [LinearOrder K]

/-- `x or y`, where zero counts as nothing. -/
def numberOr (x : Option K) (y : K) : K :=
  match x with
  | some x => if x = 0 then y else x
  | none => y

/-- `component_state`. -/
def componentState (component : Component K) (damage : K) : ComponentState K :=
  let params := component.physicsParams.numbers
  { code := component.code
    name := component.name
    physicsModel := (component.physicsModel.filter (· ≠ "")).getD "wiener"
    damage := min (max damage 0) 1
    lifeH := numberOr (params.get? "life_h") 0
    cv := numberOr (params.get? "cv") defaultCv
    loadExp := numberOr (params.get? "load_exp") 1
    speedExp := numberOr (params.get? "speed_exp") 0
    activationEnergyEv := params.get? "ea_ev"
    tRefC := params.get? "t_ref_c" }

/-- Reference time advances this much faster at an operating point. -/
def ComponentState.acceleration (f : Powers K) (s : ComponentState K) (cond : Conditions K) : Option K := do
  let load ← f.pow (max cond.load 0) s.loadExp
  let speed ← f.pow (max cond.speed 0) s.speedExp
  match s.activationEnergyEv, s.tRefC, cond.ambientC with
  | some activationEnergyEv, some tRefC, some ambientC => do
    let tK := max (ambientC + kelvin) 1
    let inverse ← reciprocal (tRefC + kelvin)
    return load * speed * f.exp (min (activationEnergyEv / boltzmannEvPerK * (inverse - 1 / tK)) 50.0)
  | _, _, _ => return load * speed

end

/-! ## Load sensitivity -/

/-- The exponents that the clone wears by. -/
def ComponentState.exponents {K : Type} (s : ComponentState K) : PowerLaw K := ⟨s.loadExp, s.speedExp⟩

/-- The clone takes the temperature as the simulator does. -/
theorem acceleration_real (s : ComponentState ℝ) (cond : Conditions ℝ) :
    s.acceleration .real cond =
      (s.exponents.factor .real (max cond.load 0) (max cond.speed 0)).bind
        (heated .real (arrheniusOf s.activationEnergyEv s.tRefC) cond.ambientC) := by
  obtain ⟨load, speed, ambientC⟩ := cond
  obtain ⟨code, name, physicsModel, damage, lifeH, cv, loadExp, speedExp, activationEnergyEv, tRefC⟩ := s
  simp only [ComponentState.acceleration, ComponentState.exponents, PowerLaw.factor]
  cases hload : Powers.real.pow (max load 0) loadExp with
  | none => rfl
  | some u =>
    cases hspeed : Powers.real.pow (max speed 0) speedExp with
    | none => rfl
    | some v =>
      cases activationEnergyEv with
      | none => rfl
      | some ea =>
        cases tRefC with
        | none => rfl
        | some tRef =>
          cases ambientC with
          | none => rfl
          | some ambient =>
            simp only [arrheniusOf, heated, Arrhenius.factor, Option.bind_eq_bind, Option.bind_some, Option.pure_def,
              kelvin_eq, boltzmannEvPerK_eq]
            cases reciprocal (tRef + Sim.Usage.kelvin) with
            | none => rfl
            | some inverse => rfl

/-- The clone and a process at the same temperature agree everywhere just if their exponents do. -/
theorem acceleration_eq_iff (s : ComponentState ℝ) (p : Process ℝ)
    (harrhenius : p.arrhenius = arrheniusOf s.activationEnergyEv s.tRefC) :
    (∀ load speed tempC,
        s.acceleration .real ⟨load, speed, tempC⟩ = p.relativeRate .real ⟨load, speed, tempC⟩) ↔
      p.law.exponents = some s.exponents := by
  have hone : max (1 : ℝ) 0 = 1 := max_eq_left zero_le_one
  have htwo : max (2 : ℝ) 0 = 2 := max_eq_left zero_le_two
  simp only [acceleration_real, Process.relativeRate_eq, Law.acceleration_real, ← harrhenius]
  constructor
  · intro h
    have hload := h 2 1 none
    have hspeed := h 1 2 none
    cases hlaw : p.law.exponents with
    | none => simp [hlaw, Powers.real_pow_of_pos] at hload
    | some e =>
      simp only [hlaw, hone, htwo, Option.bind_some, heated_none, Option.bind_fun_some] at hload hspeed
      rw [PowerLaw.eq_of_factor_eq hload hspeed]
  · intro h load speed tempC
    rw [h]
    rfl

/-! ## The exponents that a row gives -/

/-- The clone reads the load exponent that the process was built with. -/
def KeepsLoadExponent (model : ProcessModel) (loadExp : Option ℝ) : Prop :=
  match model with
  | .wiener | .gamma | .arrhenius => loadExp ≠ some 0
  | .motorEfficiency => ∃ x, loadExp = some x ∧ x ≠ 0
  | .paris | .taylor => False

theorem numberOr_zero (x : Option ℝ) : numberOr x 0 = x.getD 0 := by
  cases x with
  | none => rfl
  | some x =>
    by_cases hx : x = 0
    · simp [numberOr, hx]
    · simp [numberOr, hx]

/-- Only a zero is mistaken for nothing. -/
theorem getD_eq_numberOr_iff (x : Option ℝ) {y : ℝ} (hy : y ≠ 0) : x.getD y = numberOr x y ↔ x ≠ some 0 := by
  cases x with
  | none => simp [numberOr]
  | some x =>
    by_cases hx : x = 0
    · simp [numberOr, hx, hy.symm]
    · simp [numberOr, hx]

/-- Where the defaults differ, the exponent has to be there. -/
theorem getD_eq_numberOr_of_ne_iff (x : Option ℝ) {y z : ℝ} (hy : y ≠ 0) (hyz : z ≠ y) :
    x.getD z = numberOr x y ↔ ∃ w, x = some w ∧ w ≠ 0 := by
  cases x with
  | none => simp [numberOr, hyz]
  | some x =>
    by_cases hx : x = 0
    · simp [numberOr, hx, hy.symm]
    · simp [numberOr, hx]

theorem exponents_construct_iff {model : ProcessModel} {params : Dict String ℝ} {law : Law ℝ}
    (h : model.construct params = some law) :
    law.exponents = some ⟨numberOr (params.get? "load_exp") 1, numberOr (params.get? "speed_exp") 0⟩ ↔
      KeepsLoadExponent model (params.get? "load_exp") := by
  have hnone (name : String) (hname : name ∉ model.keywords) : params.get? name = none :=
    ProcessModel.get?_of_construct h hname
  unfold ProcessModel.construct at h
  rw [ite_eq_iff] at h
  rcases h with ⟨-, h⟩ | ⟨-, h⟩
  · cases model with
    | wiener | gamma | arrhenius =>
      cases h
      simp [Law.exponents, KeepsLoadExponent, numberOr_zero, getD_eq_numberOr_iff]
    | motorEfficiency =>
      have hspeed := hnone "speed_exp" (by decide)
      cases h
      have hdefault : (2.0 : ℝ) ≠ 1 := by norm_num
      simpa [Law.exponents, KeepsLoadExponent, numberOr_zero, hspeed] using
        getD_eq_numberOr_of_ne_iff (params.get? "load_exp") one_ne_zero hdefault
    | paris =>
      have hspeed := hnone "speed_exp" (by decide)
      rcases ite_eq_iff.mp h with ⟨-, h⟩ | ⟨-, h⟩
      · cases h
      · cases h
        simp [Law.exponents, KeepsLoadExponent, numberOr_zero, hspeed]
    | taylor =>
      have hspeed := hnone "speed_exp" (by decide)
      cases h
      simp [Law.exponents, KeepsLoadExponent, numberOr_zero, hspeed, reciprocal]
  · cases h

/-- The process that the simulator runs for a component of the catalogue. -/
def Runs (c : ComponentSpec ℝ) (s : ProcessSpec ℝ) (p : Process ℝ) : Prop :=
  c.process = some s ∧
    ∃ scatter initial built changes, buildProcess s scatter initial = some built ∧ p = built.run changes

/-- At any time in its life a process has the formula of its class and the temperature of its parameters. -/
theorem Runs.built {c : ComponentSpec ℝ} {s : ProcessSpec ℝ} {p : Process ℝ} (h : Runs c s p) :
    p.arrhenius = arrheniusOf (s.params.get? "ea_ev") (s.params.get? "t_ref_c") ∧
      ∃ params, s.model.construct params = some p.law ∧ params.get? "load_exp" = s.params.get? "load_exp" ∧
        params.get? "speed_exp" = s.params.get? "speed_exp" := by
  obtain ⟨-, scatter, initial, built, changes, hbuilt, rfl⟩ := h
  obtain ⟨hlaw, harrhenius⟩ := built.run_keeps changes
  obtain ⟨params, hparams, hrest⟩ := Option.bind_eq_some_iff.mp hbuilt
  obtain ⟨law, hconstruct, hprocess⟩ := Option.bind_eq_some_iff.mp hrest
  cases hprocess
  rw [harrhenius, hlaw]
  exact ⟨rfl, params, hconstruct, ProcessSpec.get?_arguments hparams (by decide),
    ProcessSpec.get?_arguments hparams (by decide)⟩

/-- The clone of a component wears relative to nominal as the component itself, at every load, speed and
temperature, just if it reads the exponent that the process was built with. -/
theorem load_sensitivity_iff {c : ComponentSpec ℝ} {s : ProcessSpec ℝ} {p : Process ℝ} (h : Runs c s p)
    (damage : ℝ) :
    (∀ load speed tempC, (componentState c.row damage).acceleration .real ⟨load, speed, tempC⟩ =
        p.relativeRate .real ⟨load, speed, tempC⟩) ↔
      KeepsLoadExponent s.model (s.params.get? "load_exp") := by
  obtain ⟨harrhenius, params, hconstruct, hload, hspeed⟩ := h.built
  have hnumbers : c.row.physicsParams.numbers = s.params := by
    rw [ComponentSpec.row, ComponentSpec.physicsParams, h.1]
  have hexponents : (componentState c.row damage).exponents =
      ⟨numberOr (params.get? "load_exp") 1, numberOr (params.get? "speed_exp") 0⟩ := by
    rw [ComponentState.exponents, componentState, hnumbers, hload, hspeed]
  have hsame : p.arrhenius =
      arrheniusOf (componentState c.row damage).activationEnergyEv (componentState c.row damage).tRefC := by
    rw [harrhenius, componentState, hnumbers]
  rw [acceleration_eq_iff _ _ hsame, hexponents, exponents_construct_iff hconstruct, hload]

/-- The barrel of an injection moulder; in the catalogue its heaters wear at one rate under any load. -/
noncomputable def barrelProcess (loadExp : ℝ) : ProcessSpec ℝ :=
  ⟨.gamma, [("life_h", 2000), ("cv", 0.2), ("load_exp", loadExp)], none⟩

noncomputable def barrel (loadExp : ℝ) : ComponentSpec ℝ :=
  ⟨"barrel", "Barrel heater bands", some (barrelProcess loadExp)⟩

theorem runs_barrel (loadExp : ℝ) :
    Runs (barrel loadExp) (barrelProcess loadExp) ⟨.gamma loadExp 0, none, 1, one_pos⟩ :=
  ⟨rfl, 1, 0, _, [], rfl, rfl⟩

/-- With an exponent of one the barrel's clone is right. -/
theorem load_sensitivity_of_linear_barrel : KeepsLoadExponent .gamma (some 1) ∧ ∀ load speed tempC,
    (componentState (barrel 1).row 0).acceleration .real ⟨load, speed, tempC⟩ =
      (⟨.gamma 1 0, none, 1, one_pos⟩ : Process ℝ).relativeRate .real ⟨load, speed, tempC⟩ := by
  have hkept : KeepsLoadExponent .gamma (some 1) := fun h => one_ne_zero (Option.some_inj.mp h)
  exact ⟨hkept, (load_sensitivity_iff (runs_barrel 1) 0).mpr hkept⟩

/-- The barrel of the catalogue at twice the load: its clone wears twice as fast, and it does not. -/
theorem barrel_misread : ¬∀ (c : ComponentSpec ℝ) (s : ProcessSpec ℝ) (p : Process ℝ), Runs c s p →
    ∀ damage load speed tempC, (componentState c.row damage).acceleration .real ⟨load, speed, tempC⟩ =
      p.relativeRate .real ⟨load, speed, tempC⟩ := by
  intro h
  have hbarrel := h _ _ _ (runs_barrel 0) 0 2 1 none
  have hclone : (componentState (barrel 0).row 0).exponents = ⟨1, 0⟩ := by
    simp [ComponentState.exponents, componentState, barrel, barrelProcess, ComponentSpec.row,
      ComponentSpec.physicsParams, Dict.get?_cons, numberOr]
  rw [acceleration_real, hclone, Process.relativeRate_eq] at hbarrel
  simp [PowerLaw.factor, Law.acceleration] at hbarrel

end TwinVoice.Twin.WhatIf
