import Mathlib.Algebra.Order.Ring.Rat
import TwinVoice.Lib.Transition
import TwinVoice.Sim.Base

/-! # What every operation keeps

No operation changes what is fixed about a machine: its spec, and for each
component the failure mode and whether it wears. What the operations have to
keep is that a machine that does not run has no load, and that the failed
component on record is one that wears. -/

namespace TwinVoice.Sim.Base

open TwinVoice.Lib TwinVoice.Lib.Transition

/-! ## What is fixed -/

/-- A component without its wear. -/
structure Slot where
  code : String
  failureMode : Option FailureMode
  wears : Bool

def Component.slot (c : Component) : Slot := ⟨c.code, c.failureMode, c.process.isSome⟩

namespace Machine

def fixed (m : Machine) : Spec × List Slot := (m.spec, m.components.rows.map Component.slot)

section
variable {math : Math} {kind : Subclass} {m m' : Machine}

theorem map_slot_update (t : Table Component) (p : Component → Bool) (f : Component → Component)
    (keepsKey : ∀ c : Component, Keyed.key (f c) = Keyed.key c)
    (h : ∀ c ∈ t.rows, p c = true → (f c).slot = c.slot) :
    (t.update p f keepsKey).rows.map Component.slot = t.rows.map Component.slot := by
  rw [Table.rows_update, List.map_map]
  refine List.map_congr_left fun c hc => ?_
  by_cases hp : p c
  · simp [hp, h c hc hp]
  · simp [hp]

theorem slot_degrade (math : Math) (draw : Draw) (c : Component) (dt : Rat) (cond : Conditions) :
    (c.degrade math draw dt cond).slot = c.slot := by
  simp [Component.degrade, Component.slot]

theorem slot_reset (c : Component) : c.reset.slot = c.slot := by
  simp [Component.reset, Component.slot]

@[simp] theorem fixed_refreshDamage (m : Machine) : m.refreshDamage.fixed = m.fixed := rfl

theorem fixed_degrade (math : Math) (m : Machine) (wear : String → Draw) (dt : Rat) :
    (m.degrade math wear dt).fixed = m.fixed := by
  unfold fixed degrade
  dsimp only
  rw [map_slot_update]
  intro c _ _
  exact slot_degrade math (wear c.code) c dt _

/-! ## The parts of a step -/

theorem checkFailures_cases (m : Machine) :
    (m.checkFailures = (m, []) ∧ (m.state = .down ∨ ∀ c ∈ m.components.rows, c.failed = false)) ∨
      ∃ c ∈ m.components.rows, c.failed = true ∧ m.state ≠ .down ∧ m.checkFailures = m.fail c := by
  unfold checkFailures
  split
  · rename_i hdown
    exact .inl ⟨rfl, .inl hdown⟩
  · rename_i hup
    split
    · rename_i c hfind
      exact .inr ⟨c, List.mem_of_find?_eq_some hfind, List.find?_some hfind, hup, rfl⟩
    · rename_i hnone
      refine .inl ⟨rfl, .inr fun c hc => ?_⟩
      simpa using List.find?_eq_none.mp hnone c hc

theorem updateState_cases (m : Machine) (dt : Rat) (producing : Bool) :
    ((m.updateState dt producing).1 = m ∧ m.state = .down) ∨
      ∃ left, ∃ next ∈ [State.running, .idle, .maintenance], m.state ≠ .down ∧
        (m.updateState dt producing).1 = { m with maintenanceLeftS := left, state := next } := by
  have hnext : (if producing then State.running else .idle) ∈ [State.running, .idle, .maintenance] := by
    cases producing <;> decide
  unfold updateState
  dsimp only
  split
  · rename_i hdown
    exact .inl ⟨rfl, hdown⟩
  · rename_i hup
    split
    · rename_i hmaintenance
      split
      · exact .inr ⟨m.maintenanceLeftS - dt, .maintenance, by decide, hup, by rw [← hmaintenance]⟩
      · exact .inr ⟨m.maintenanceLeftS - dt, _, hnext, hup, rfl⟩
    · exact .inr ⟨m.maintenanceLeftS, _, hnext, hup, rfl⟩

theorem operate_cases (math : Math) (draw : StepDraw) (wasRunning : Bool) (target dt : Rat) (m : Machine) :
    (m.state ≠ .running ∧ m.operate math draw wasRunning target dt = { m with loadPct := 0 }) ∨
      m.state = .running ∧ ∃ loadPct, m.operate math draw wasRunning target dt =
        ({ m with operatingLoadPct := target, loadPct := loadPct }.degrade math draw.wear dt).refreshDamage := by
  unfold operate
  split
  · rename_i hrunning
    exact .inr ⟨of_decide_eq_true hrunning, _, rfl⟩
  · rename_i hrunning
    exact .inl ⟨fun h => hrunning (decide_eq_true h), rfl⟩

theorem produce_cases (m : Machine) (draw : CycleDraw) (dt : Rat) :
    (m.state ≠ .running ∧ m.produce draw dt = m) ∨
      m.state = .running ∧ ∃ utilization slowdown rejectProb, m.produce draw dt =
        { m with counter := m.counter.step draw dt utilization slowdown m.speed rejectProb } := by
  unfold produce
  split
  · rename_i hrunning
    exact .inr ⟨of_decide_eq_true hrunning, _, _, _, rfl⟩
  · rename_i hrunning
    exact .inl ⟨fun h => hrunning (decide_eq_true h), rfl⟩

/-! ## Frames -/

/-- Only wear and the operating state may have changed: not what is fixed, not the counts, not the energy. -/
structure Frame (m m' : Machine) : Prop where
  fixed : m'.fixed = m.fixed
  counter : m'.counter = m.counter
  meterKwh : m'.meterKwh = m.meterKwh

theorem Frame.refl (m : Machine) : Frame m m := ⟨rfl, rfl, rfl⟩

theorem Frame.trans {m₁ m₂ m₃ : Machine} (h : Frame m₁ m₂) (h' : Frame m₂ m₃) : Frame m₁ m₃ :=
  ⟨h'.fixed.trans h.fixed, h'.counter.trans h.counter, h'.meterKwh.trans h.meterKwh⟩

theorem checkFailures_frame (m : Machine) : Frame m m.checkFailures.1 := by
  rcases m.checkFailures_cases with ⟨h, -⟩ | ⟨c, -, -, -, h⟩
  · rw [h]
    exact .refl m
  · rw [h]
    exact ⟨rfl, rfl, rfl⟩

theorem updateState_frame (m : Machine) (dt : Rat) (producing : Bool) : Frame m (m.updateState dt producing).1 := by
  rcases m.updateState_cases dt producing with ⟨h, -⟩ | ⟨left, next, -, -, h⟩
  · rw [h]
    exact .refl m
  · rw [h]
    exact ⟨rfl, rfl, rfl⟩

theorem operate_frame (math : Math) (draw : StepDraw) (wasRunning : Bool) (target dt : Rat) (m : Machine) :
    Frame m (m.operate math draw wasRunning target dt) := by
  rcases m.operate_cases math draw wasRunning target dt with ⟨-, h⟩ | ⟨-, loadPct, h⟩
  · rw [h]
    exact ⟨rfl, rfl, rfl⟩
  · rw [h]
    exact ⟨fixed_degrade math { m with operatingLoadPct := target, loadPct := loadPct } draw.wear dt, rfl, rfl⟩

theorem updateComponent_frame (m : Machine) (code : String) (f : Component → Component) (keepsCode)
    (h : ∀ c ∈ m.components.rows, c.code = code → (f c).slot = c.slot) :
    Frame m (m.updateComponent code f keepsCode) := by
  refine ⟨Prod.ext rfl (map_slot_update _ _ _ keepsCode fun c hc hcode => h c hc ?_), rfl, rfl⟩
  exact of_decide_eq_true hcode

/-- The operating state and the wear are the same. -/
structure Alike (m m' : Machine) : Prop where
  state : m'.state = m.state
  loadPct : m'.loadPct = m.loadPct
  failedComponent : m'.failedComponent = m.failedComponent
  components : m'.components = m.components
  spec : m'.spec = m.spec

theorem measure_alike (math : Math) (kind : Subclass) (dt : Rat) (m : Machine) : Alike m (m.measure math kind dt) :=
  ⟨rfl, rfl, rfl, rfl, rfl⟩

theorem produce_alike (m : Machine) (draw : CycleDraw) (dt : Rat) : Alike m (m.produce draw dt) := by
  rcases m.produce_cases draw dt with ⟨-, h⟩ | ⟨-, utilization, slowdown, rejectProb, h⟩
  · rw [h]
    exact ⟨rfl, rfl, rfl, rfl, rfl⟩
  · rw [h]
    exact ⟨rfl, rfl, rfl, rfl, rfl⟩

theorem Alike.trans {m₁ m₂ m₃ : Machine} (h : Alike m₁ m₂) (h' : Alike m₂ m₃) : Alike m₁ m₃ :=
  ⟨h'.state.trans h.state, h'.loadPct.trans h.loadPct, h'.failedComponent.trans h.failedComponent,
    h'.components.trans h.components, h'.spec.trans h.spec⟩

theorem Alike.fixed (h : Alike m m') : m'.fixed = m.fixed := by
  unfold Machine.fixed
  rw [h.components, h.spec]

/-! ## The failed component on record -/

/-- The failed component on record is one that wears. -/
def Recorded (m : Machine) : Prop :=
  ∀ code, m.failedComponent = some code → ∃ s ∈ m.fixed.2, s.code = code ∧ s.wears = true

theorem Recorded.congr (h : m.Recorded) (hfailed : m'.failedComponent = m.failedComponent)
    (hfixed : m'.fixed = m.fixed) : m'.Recorded := by
  unfold Recorded
  rw [hfailed, hfixed]
  exact h

theorem Recorded.checkFailures (h : m.Recorded) : m.checkFailures.1.Recorded := by
  rcases m.checkFailures_cases with ⟨heq, -⟩ | ⟨c, hc, hfailed, -, heq⟩
  · rw [heq]
    exact h
  · rw [heq]
    intro code hcode
    cases hcode
    refine ⟨c.slot, List.mem_map_of_mem hc, rfl, ?_⟩
    unfold Component.failed at hfailed
    cases hp : c.process with
    | none => rw [hp] at hfailed; cases hfailed
    | some p => simp [Component.slot, hp]

/-- After the check a failed component means that the machine is down. -/
theorem checkFailures_down (m : Machine) (h : ∃ c ∈ m.checkFailures.1.components.rows, c.failed = true) :
    m.checkFailures.1.state = .down := by
  rcases m.checkFailures_cases with ⟨heq, hdown | hnone⟩ | ⟨c, -, -, -, heq⟩
  · rw [heq]
    exact hdown
  · rw [heq] at h
    obtain ⟨c, hc, hfailed⟩ := h
    rw [hnone c hc] at hfailed
    cases hfailed
  · rw [heq]
    rfl

theorem checkFailures_of_down (h : m.state = .down) : m.checkFailures.1.state = .down := by
  unfold checkFailures
  rw [if_pos h]
  exact h

theorem checkFailures_load (h : m.state ≠ .running → m.loadPct = 0) :
    m.checkFailures.1.state ≠ .running → m.checkFailures.1.loadPct = 0 := by
  rcases m.checkFailures_cases with ⟨heq, -⟩ | ⟨c, -, -, -, heq⟩
  · rw [heq]
    exact h
  · rw [heq]
    exact fun _ => rfl

end

end Machine

/-! ## Counts and energy -/

theorem ProductionCounter.le_step (draw : CycleDraw) (c : ProductionCounter)
    (dt utilization slowdown speed rejectProb : Rat) :
    c.good ≤ (c.step draw dt utilization slowdown speed rejectProb).good ∧
      c.reject ≤ (c.step draw dt utilization slowdown speed rejectProb).reject := by
  unfold ProductionCounter.step
  split
  · exact ⟨le_refl _, le_refl _⟩
  · dsimp only
    split
    · exact ⟨le_refl _, le_refl _⟩
    · split
      · exact ⟨le_refl _, le_refl _⟩
      · exact ⟨Nat.le_add_right _ _, Nat.le_add_right _ _⟩

theorem Machine.counter_produce (m : Machine) (draw : CycleDraw) (dt : Rat) :
    (m.counter.good ≤ (m.produce draw dt).counter.good ∧ m.counter.reject ≤ (m.produce draw dt).counter.reject) ∧
      ((m.produce draw dt).counter = m.counter ∨ m.state = .running) := by
  rcases m.produce_cases draw dt with ⟨-, h⟩ | ⟨hrunning, utilization, slowdown, rejectProb, h⟩
  · rw [h]
    exact ⟨⟨le_refl _, le_refl _⟩, .inl rfl⟩
  · rw [h]
    exact ⟨ProductionCounter.le_step draw m.counter dt utilization slowdown m.speed rejectProb, .inr hrunning⟩

theorem Machine.meterKwh_produce (m : Machine) (draw : CycleDraw) (dt : Rat) :
    (m.produce draw dt).meterKwh = m.meterKwh := by
  rcases m.produce_cases draw dt with ⟨-, h⟩ | ⟨-, utilization, slowdown, rejectProb, h⟩
  · rw [h]
  · rw [h]

/-- What makes the power non-negative. -/
structure Spec.Sound (s : Spec) : Prop where
  rated : 0 ≤ s.ratedPowerKw
  nominal : 0 ≤ s.etaNominal
  idle : 0 ≤ s.idlePowerFraction
  idle_le : s.idlePowerFraction ≤ 1

theorem powerKw_nonneg (math : Math) {s : Spec} (h : s.Sound) (demand efficiency : Rat) (running : Bool) (pf : Rat) :
    0 ≤ (electricalState math s.ratedPowerKw demand efficiency s.etaNominal s.idlePowerFraction running pf).powerKw := by
  unfold electricalState
  cases running with
  | false => exact mul_nonneg h.rated h.idle
  | true =>
    have hshaft : 0 ≤ s.idlePowerFraction + (1 - s.idlePowerFraction) * max demand 0 :=
      add_nonneg h.idle (mul_nonneg (sub_nonneg.mpr h.idle_le) (le_max_right _ _))
    have hefficiency : 0 ≤ max efficiency (1 / 20) := le_max_of_le_right (div_nonneg (by decide) (by decide))
    exact div_nonneg (mul_nonneg (mul_nonneg h.rated hshaft) h.nominal) hefficiency

end TwinVoice.Sim.Base
