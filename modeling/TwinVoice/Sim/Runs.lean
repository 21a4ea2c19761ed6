import TwinVoice.Sim.States

/-! # Runs of a machine

Whatever is done to a machine and in whatever order: after a step and after a
sudden fault a failed component means that it is down, it comes up again only
through a reset, and the ground truth gives it no time as long as anything has
failed; the load goes with the state, and counts and energy never go back. -/

namespace TwinVoice.Sim.Base

open TwinVoice.Lib TwinVoice.Lib.Transition

/-- A step and a sudden fault look for failures. -/
def Op.Checks : Op → Prop
  | .step _ _ _ _ | .inject _ .sudden _ => True
  | _ => False

def Op.IsStep : Op → Prop
  | .step _ _ _ _ => True
  | _ => False

def Op.IsReset : Op → Prop
  | .reset _ => True
  | _ => False

/-- What holds of a machine whatever has been done to it. -/
structure Machine.Sound (math : Math) (m : Machine) : Prop where
  load : m.state ≠ .running → m.loadPct = 0
  rul : (∃ c ∈ m.components.rows, c.failed = true) →
    ∃ truth, m.groundTruth math = some truth ∧ truth.trueRulS = some 0

/-- What holds of every operation. -/
structure Op.Sound (op : Op) (m m' : Machine) : Prop where
  down : op.Checks → (∃ c ∈ m'.components.rows, c.failed = true) → m'.state = .down
  stays : m.state = .down → m'.state = .down ∨ op.IsReset
  counts : m'.counter.good = m.counter.good ∧ m'.counter.reject = m.counter.reject ∨ op.IsStep ∧ m'.state = .running
  good : m.counter.good ≤ m'.counter.good
  reject : m.counter.reject ≤ m'.counter.reject
  energy : m.meterKwh ≤ m'.meterKwh

namespace Machine

variable {math : Math} {kind : Subclass} {m m' : Machine}

/-! ## A step -/

/-- The machine as it looks for failures in a step. -/
def worn (math : Math) (draw : StepDraw) (m : Machine) (dt : Rat) (ctx : OperatingContext) (target : Rat) : Machine :=
  let started : Machine := { m with nowS := ctx.nowS }
  (started.updateState dt (ctx.producing && 0 < target)).1.operate math draw m.running target dt

theorem step_eq (math : Math) (kind : Subclass) (draw : StepDraw) (m : Machine) (dt : Rat) (ctx : OperatingContext) :
    ∃ target, (m.step math kind draw dt ctx).1 =
      ((m.worn math draw dt ctx target).checkFailures.1.measure math kind dt).produce draw.cycle dt :=
  ⟨m.loadSetpointPct.getD ctx.planLoadPct, rfl⟩

/-- Until it looks for failures nothing but the state, the wear and the load change, and the state
of a machine that is down does not. -/
theorem worn_spec (math : Math) (m : Machine) (draw : StepDraw) (dt : Rat) (ctx : OperatingContext) (target : Rat) :
    Frame m (m.worn math draw dt ctx target) ∧
      (m.worn math draw dt ctx target).failedComponent = m.failedComponent ∧
      ((m.worn math draw dt ctx target).state ≠ .running → (m.worn math draw dt ctx target).loadPct = 0) ∧
      (m.state = .down → (m.worn math draw dt ctx target).state = .down) := by
  unfold worn
  generalize hstarted : ({ m with nowS := ctx.nowS } : Machine) = started
  have hframe : Frame m started := by
    rw [← hstarted]
    exact ⟨rfl, rfl, rfl⟩
  have hfailed : started.failedComponent = m.failedComponent := by rw [← hstarted]
  have hstate : started.state = m.state := by rw [← hstarted]
  have hnext := hframe.trans (updateState_frame started dt (ctx.producing && 0 < target))
  have hupdate := updateState_cases started dt (ctx.producing && 0 < target)
  dsimp only
  generalize (started.updateState dt (ctx.producing && 0 < target)).1 = next at *
  have hnextFailed : next.failedComponent = m.failedComponent := by
    rcases hupdate with ⟨rfl, -⟩ | ⟨left, state, -, -, rfl⟩
    · exact hfailed
    · exact hfailed
  have hdown : m.state = .down → next.state = .down := by
    intro hm
    rcases hupdate with ⟨rfl, h⟩ | ⟨left, state, -, h, -⟩
    · exact h
    · exact absurd (hstate.trans hm) h
  refine ⟨hnext.trans (operate_frame math draw m.running target dt next), ?_⟩
  rcases next.operate_cases math draw m.running target dt with ⟨-, h⟩ | ⟨hrunning, loadPct, h⟩
  · rw [h]
    exact ⟨hnextFailed, fun _ => rfl, hdown⟩
  · rw [h]
    exact ⟨hnextFailed, fun hnot => absurd hrunning hnot, hdown⟩

/-- What holds between any two operations. -/
structure Inv (m : Machine) : Prop where
  load : m.state ≠ .running → m.loadPct = 0
  recorded : m.Recorded

theorem inv_checkFailures (hload : m.state ≠ .running → m.loadPct = 0) (hrecorded : m.Recorded) :
    m.checkFailures.1.Inv :=
  ⟨checkFailures_load hload, hrecorded.checkFailures⟩

theorem Inv.alike (h : m.Inv) (hlike : Alike m m') : m'.Inv := by
  refine ⟨?_, h.recorded.congr hlike.failedComponent hlike.fixed⟩
  rw [hlike.state, hlike.loadPct]
  exact h.load

theorem step_sound (hspec : m.spec.Sound) (h : m.Inv) (draw : StepDraw) {dt : Rat} (hdt : 0 ≤ dt)
    (ctx : OperatingContext) :
    ((m.step math kind draw dt ctx).1.Inv ∧ (m.step math kind draw dt ctx).1.fixed = m.fixed) ∧
      (Op.step dt hdt ctx draw).Sound m (m.step math kind draw dt ctx).1 := by
  obtain ⟨target, heq⟩ := m.step_eq math kind draw dt ctx
  obtain ⟨hframe, hfailed, hload, hdown⟩ := m.worn_spec math draw dt ctx target
  rw [heq]
  have hchecked := hframe.trans (checkFailures_frame _)
  have hinv := inv_checkFailures hload (h.recorded.congr hfailed hframe.fixed)
  have hfound := checkFailures_down (m.worn math draw dt ctx target)
  have hstays := fun hm => checkFailures_of_down (hdown hm)
  generalize (m.worn math draw dt ctx target).checkFailures.1 = checked at *
  have hmeasured := measure_alike math kind dt checked
  have hlike := hmeasured.trans (produce_alike _ draw.cycle dt)
  obtain ⟨hcounts, hcounted⟩ := (checked.measure math kind dt).counter_produce draw.cycle dt
  have hcounter : (checked.measure math kind dt).counter = m.counter := hchecked.counter
  rw [hcounter] at hcounts hcounted
  refine ⟨⟨hinv.alike hlike, hlike.fixed.trans hchecked.fixed⟩, ?_⟩
  refine ⟨fun _ hc => hlike.state.trans (hfound (hlike.components ▸ hc)), fun hm => .inl (hlike.state.trans (hstays hm)),
    ?_, hcounts.1, hcounts.2, ?_⟩
  · rcases hcounted with hsame | hrunning
    · exact .inl ⟨congrArg ProductionCounter.good hsame, congrArg ProductionCounter.reject hsame⟩
    · exact .inr ⟨trivial, (produce_alike _ draw.cycle dt).state.trans hrunning⟩
  · have hspec' : checked.spec = m.spec := congrArg Prod.fst hchecked.fixed
    have hpower : 0 ≤ (checked.electricalNow math kind).powerKw := powerKw_nonneg math (hspec' ▸ hspec) _ _ _ _
    have hmeter : (checked.measure math kind dt).meterKwh =
        m.meterKwh + (checked.electricalNow math kind).powerKw * dt / 3600 := by
      rw [← hchecked.meterKwh]
      rfl
    rw [meterKwh_produce, hmeter]
    exact le_add_of_nonneg_right (div_nonneg (mul_nonneg hpower hdt) (by decide))

/-! ## The other operations -/

/-- What an operation that only touches wear and setpoints, and finds no failure, keeps. -/
theorem Frame.sound {op : Op} (h : Frame m m') (hdown : op.Checks → (∃ c ∈ m'.components.rows, c.failed = true) →
    m'.state = .down) (hstays : m.state = .down → m'.state = .down ∨ op.IsReset) : op.Sound m m' := by
  refine ⟨hdown, hstays, .inl ?_, ?_, ?_, ?_⟩
  · rw [h.counter]
    exact ⟨rfl, rfl⟩
  · rw [h.counter]
  · rw [h.counter]
  · rw [h.meterKwh]

theorem setProcess_frame {c : Component} (hc : c ∈ m.components.rows) (hwears : c.process.isSome = true) (p : Process) :
    Frame m (m.setProcess c.code p) := by
  refine updateComponent_frame m c.code _ _ fun x hx hcode => ?_
  have hsame : x = c := Option.some.inj ((Table.find_iff.mpr ⟨hx, hcode⟩).symm.trans (Table.find_iff.mpr ⟨hc, rfl⟩))
  rw [hsame]
  simp [Component.slot, hwears]

theorem activate_frame (m : Machine) (code : String) (mode : ActiveMode) : Frame m (m.activate code mode) :=
  updateComponent_frame m code _ _ fun _ _ _ => rfl

/-- An active mode is no wear. -/
theorem failed_activate {code : String} {mode : ActiveMode}
    (h : ∃ c ∈ (m.activate code mode).components.rows, c.failed = true) : ∃ c ∈ m.components.rows, c.failed = true := by
  obtain ⟨c, hc, hfailed⟩ := h
  obtain ⟨x, hx, rfl⟩ := List.mem_map.mp hc
  refine ⟨x, hx, ?_⟩
  split at hfailed
  · exact hfailed
  · exact hfailed

theorem inject_sound (h : m.Inv) {failureMode : String} {mode : FaultMode} {severity : Rat}
    (hinject : (m.inject math failureMode mode severity).map Prod.fst = some m') :
    (m'.Inv ∧ m'.fixed = m.fixed) ∧ (Op.inject failureMode mode severity).Sound m m' := by
  unfold inject at hinject
  cases hfind : m.componentForMode failureMode with
  | none => simp [hfind] at hinject
  | some c =>
    cases hprocess : c.process with
    | none => simp [hfind, hprocess] at hinject
    | some p =>
      have hc : c ∈ m.components.rows := List.mem_of_find?_eq_some hfind
      have hset := fun p' => setProcess_frame hc (by rw [hprocess]; rfl) p'
      simp only [hfind, hprocess, Option.bind_eq_bind, Option.bind_some, Option.map_some, Option.some.injEq] at hinject
      cases mode with
      | gradual =>
        subst hinject
        have hframe := (hset (m.hasten math c severity p)).trans (activate_frame _ c.code ⟨failureMode, .gradual, severity, m.nowS⟩)
        refine ⟨⟨⟨h.load, h.recorded.congr rfl hframe.fixed⟩, hframe.fixed⟩, hframe.sound (fun hnot => hnot.elim) ?_⟩
        exact fun hdown => .inl hdown
      | sudden =>
        subst hinject
        have hjumped : Frame m (m.setProcess c.code (p.jump severity)).refreshDamage :=
          (hset (p.jump severity)).trans ⟨rfl, rfl, rfl⟩
        have hfound := checkFailures_down (m.setProcess c.code (p.jump severity)).refreshDamage
        have hstays := fun hm => checkFailures_of_down (m := (m.setProcess c.code (p.jump severity)).refreshDamage) hm
        have hinv : (m.setProcess c.code (p.jump severity)).refreshDamage.checkFailures.1.Inv :=
          inv_checkFailures h.load (h.recorded.congr rfl hjumped.fixed)
        have hframe := hjumped.trans (checkFailures_frame _)
        generalize (m.setProcess c.code (p.jump severity)).refreshDamage.checkFailures.1 = checked at *
        have hall := hframe.trans (activate_frame checked c.code ⟨failureMode, .sudden, severity, m.nowS⟩)
        refine ⟨⟨⟨hinv.load, hinv.recorded.congr rfl (activate_frame _ _ _).fixed⟩, hall.fixed⟩, hall.sound ?_ ?_⟩
        · exact fun _ hfailed => hfound (failed_activate hfailed)
        · exact fun hdown => .inl (hstays hdown)

theorem renew_fixed (m : Machine) (componentCode : Option String) : (m.renew componentCode).fixed = m.fixed :=
  Prod.ext rfl (map_slot_update _ _ _ Component.key_reset fun c _ _ => slot_reset c)

theorem reset_sound (h : m.Inv) {componentCode : Option String}
    (hreset : (m.reset componentCode).map Prod.fst = some m') :
    (m'.Inv ∧ m'.fixed = m.fixed) ∧ (Op.reset componentCode).Sound m m' := by
  unfold reset at hreset
  split at hreset
  · cases hreset
  · cases hreset
    have hfixed := m.renew_fixed componentCode
    refine ⟨⟨⟨fun _ => rfl, ?_⟩, hfixed⟩, (Frame.mk hfixed rfl rfl).sound (fun hnot => hnot.elim) fun _ => .inr trivial⟩
    intro code hcode
    rw [hfixed]
    exact h.recorded code (Option.filter_eq_some_iff.mp hcode).1

/-- One operation. -/
theorem apply_sound (hspec : m.spec.Sound) (h : m.Inv) {op : Op} (happly : m.apply math kind op = some m') :
    (m'.Inv ∧ m'.fixed = m.fixed) ∧ op.Sound m m' := by
  cases op with
  | step dt nonneg ctx draw =>
    cases happly
    exact step_sound hspec h draw nonneg ctx
  | inject failureMode mode severity => exact inject_sound h happly
  | reset componentCode => exact reset_sound h happly
  | setLoad loadPct =>
    cases happly
    have hframe : Frame m (m.setLoadSetpoint loadPct) := ⟨rfl, rfl, rfl⟩
    exact ⟨⟨⟨h.load, h.recorded⟩, rfl⟩, hframe.sound (fun hnot => hnot.elim) fun hdown => .inl hdown⟩
  | setSpeed speedPct =>
    cases happly
    have hframe : Frame m { m with speedSetpointPct := speedPct } := ⟨rfl, rfl, rfl⟩
    exact ⟨⟨⟨h.load, h.recorded⟩, rfl⟩, hframe.sound (fun hnot => hnot.elim) fun hdown => .inl hdown⟩

/-! ## The ground truth -/

/-- The best so far has no time left. -/
def Spent (best : Option (Option Rat × FailureMode)) : Prop := ∃ mode, best = some (some 0, mode)

/-- The best so far has not less than no time left. -/
def Possible (best : Option (Option Rat × FailureMode)) : Prop := ∀ rul mode, best = some (some rul, mode) → 0 ≤ rul

theorem better_possible {best : Option (Option Rat × FailureMode)} (h : Possible best) (c : Component) :
    Possible (m.better math best c) := by
  unfold better
  split
  · dsimp only
    split
    · intro rul mode heq
      exact Process.trueRul_nonneg math (Prod.mk.inj (Option.some.inj heq)).1
    · exact h
  · exact h

theorem better_spent {best : Option (Option Rat × FailureMode)} (h : Spent best) (c : Component) :
    Spent (m.better math best c) := by
  unfold better
  split
  · rename_i p mode hp hmode
    dsimp only
    split
    · rename_i hbetter
      obtain ⟨mode', rfl⟩ := h
      cases hrul : p.trueRul math (m.conditions c true) with
      | none =>
        rw [hrul] at hbetter
        cases hbetter
      | some rul =>
        rw [hrul] at hbetter
        have hlt : rul < 0 := of_decide_eq_true hbetter
        exact absurd hlt (not_lt.mpr (Process.trueRul_nonneg math hrul))
    · exact h
  · exact h

/-- A failed component leaves no time. -/
theorem better_of_failed {best : Option (Option Rat × FailureMode)} (h : Possible best) {c : Component}
    (hfailed : c.failed = true) (hmode : c.failureMode.isSome = true) : Spent (m.better math best c) := by
  obtain ⟨mode, hmode⟩ := Option.isSome_iff_exists.mp hmode
  unfold Component.failed at hfailed
  cases hp : c.process with
  | none =>
    rw [hp] at hfailed
    cases hfailed
  | some p =>
    rw [hp] at hfailed
    unfold better
    simp only [hp, hmode, Process.trueRul_of_failed math hfailed]
    split
    · exact ⟨mode, rfl⟩
    · rename_i hbetter
      -- what is no longer than nothing is nothing
      cases best with
      | none => exact absurd rfl hbetter
      | some b =>
        obtain ⟨rul, mode'⟩ := b
        cases rul with
        | none => exact absurd rfl hbetter
        | some rul =>
          have hle : ¬ 0 < rul := fun hlt => hbetter (decide_eq_true hlt)
          exact ⟨mode', by rw [le_antisymm (not_lt.mp hle) (h rul mode' rfl)]⟩

theorem search_spent {cs : List Component} {best : Option (Option Rat × FailureMode)} (hbest : Possible best)
    (h : Spent best ∨ ∃ c ∈ cs, c.failed = true ∧ c.failureMode.isSome = true) : Spent (cs.foldl (m.better math) best) := by
  induction cs generalizing best with
  | nil =>
    rcases h with hspent | ⟨c, hc, -⟩
    · exact hspent
    · cases hc
  | cons x xs ih =>
    refine ih (better_possible hbest x) ?_
    rcases h with hspent | ⟨c, hc, hfailed, hmode⟩
    · exact .inl (better_spent hspent x)
    · rcases List.mem_cons.mp hc with rfl | hc
      · exact .inl (better_of_failed hbest hfailed hmode)
      · exact .inr ⟨c, hc, hfailed, hmode⟩

/-- Every component that wears has a failure mode. -/
def Moded (m : Machine) : Prop := ∀ s ∈ m.fixed.2, s.wears = true → s.failureMode.isSome = true

theorem Moded.component (h : m.Moded) {c : Component} (hc : c ∈ m.components.rows) (hwears : c.process.isSome = true) :
    c.failureMode.isSome = true :=
  h c.slot (List.mem_map_of_mem hc) hwears

theorem groundTruth_of_failed (hmodes : m.Moded) (h : m.Inv) (hfailed : ∃ c ∈ m.components.rows, c.failed = true) :
    ∃ truth, m.groundTruth math = some truth ∧ truth.trueRulS = some 0 := by
  unfold groundTruth
  cases hdown : m.failedComponent.filter fun _ => m.state = .down with
  | some code =>
    obtain ⟨s, hs, hcode, hwears⟩ := h.recorded code (Option.filter_eq_some_iff.mp hdown).1
    obtain ⟨c, hc, rfl⟩ := List.mem_map.mp hs
    obtain ⟨mode, hmode⟩ := Option.isSome_iff_exists.mp (hmodes.component hc hwears)
    have hfind : m.components.find code = some c := Table.find_iff.mpr ⟨hc, hcode⟩
    exact ⟨⟨m.damageOf, some 0, some mode.driver, mode.code⟩, by simp [hfind, hmode], rfl⟩
  | none =>
    obtain ⟨c, hc, hfailed⟩ := hfailed
    have hwears : c.process.isSome = true := by
      unfold Component.failed at hfailed
      cases hp : c.process with
      | none => rw [hp] at hfailed; cases hfailed
      | some p => rfl
    have hpossible : Possible none := fun _ _ hnone => by cases hnone
    have hsearch : Spent (m.components.rows.foldl (m.better math) none) :=
      search_spent hpossible (.inr ⟨c, hc, hfailed, hmodes.component hc hwears⟩)
    obtain ⟨mode, hspent⟩ := hsearch
    exact ⟨⟨m.damageOf, some 0, some mode.driver, mode.code⟩, by simp only [hspent], rfl⟩

end Machine

/-! ## Runs -/

/-- Whatever is done to a new machine, it stays sound, and so is every operation on it. -/
theorem machine_sound (math : Math) (kind : Subclass) {spec : Spec} {components : Table Component} (hspec : spec.Sound)
    (hmodes : ∀ c ∈ components.rows, c.process.isSome = true → c.failureMode.isSome = true) {ops : List Op}
    {m : Machine} (h : Run (Fires (Machine.apply math kind)) (Machine.new math kind spec components) ops m) :
    m.Sound math ∧ ∀ op m', m.apply math kind op = some m' → op.Sound m m' := by
  have hkept : m.Inv ∧ m.fixed = (Machine.new math kind spec components).fixed := by
    refine Run.invariant (fun _ m => m.Inv ∧ m.fixed = (Machine.new math kind spec components).fixed)
      ⟨⟨fun _ => rfl, fun code hcode => by cases hcode⟩, rfl⟩ ?_ h
    intro _ m op m' ⟨hinv, hfixed⟩ happly
    have hm : m.spec.Sound := by
      have hsame : m.spec = spec := congrArg Prod.fst hfixed
      rw [hsame]
      exact hspec
    obtain ⟨⟨hinv', hfixed'⟩, -⟩ := Machine.apply_sound hm hinv happly
    exact ⟨hinv', hfixed'.trans hfixed⟩
  obtain ⟨hinv, hfixed⟩ := hkept
  have hmoded : m.Moded := by
    unfold Machine.Moded
    rw [hfixed]
    intro s hs hwears
    obtain ⟨c, hc, rfl⟩ := List.mem_map.mp hs
    exact hmodes c hc hwears
  refine ⟨⟨hinv.load, Machine.groundTruth_of_failed hmoded hinv⟩, ?_⟩
  intro op m' happly
  have hm : m.spec.Sound := by
    have hsame : m.spec = spec := congrArg Prod.fst hfixed
    rw [hsame]
    exact hspec
  exact (Machine.apply_sound hm hinv happly).2

/-- A machine with one bearing that is half worn. -/
def oneBearing : Table Component :=
  ⟨[⟨"bearing", "Bearing", none, some ⟨"bearing_wear", "Bearing wear", "load", 0, 0⟩,
    some ⟨"load", none, 1, .gamma (1 / 1000) 1 1 0 (1 / 2)⟩, []⟩], List.nodup_singleton _⟩

/-- A minute of production, a sudden fault of the bearing, and another minute. -/
theorem machine_sound_bearing :
    let math : Math := ⟨fun _ => 1, fun x => if x = 3 then 1732051 / 1000000 else x, fun x e => if e = 0 then 1 else x⟩
    let kind : Subclass := ⟨fun _ => 0, fun _ _ => ([], [])⟩
    let spec : Spec := ⟨"press", 30, 15, 1 / 5, 9 / 10, 9 / 10, 1 / 100, 1800⟩
    let draw : StepDraw := ⟨0, fun _ => ⟨0, fun shape scale => shape * scale⟩, ⟨0, fun _ _ => 0⟩⟩
    let ops : List Op := [.setLoad 80, .step 60 (by decide) ⟨60, true, 0⟩ draw, .inject "bearing_wear" .sudden 1,
      .step 60 (by decide) ⟨120, true, 0⟩ draw]
    ∃ m, Run (Fires (Machine.apply math kind)) (Machine.new math kind spec oneBearing) ops m ∧
      (m.state = .down ∧ m.counter.good = 1) ∧
      m.Sound math ∧ ∀ op m', m.apply math kind op = some m' → op.Sound m m' := by
  intro math kind spec draw ops
  have hreplay : (replay (Machine.apply math kind) (Machine.new math kind spec oneBearing) ops).map
      (fun m => (m.state, m.counter.good)) = some (.down, 1) := by
    decide +kernel
  obtain ⟨m, hm, hends⟩ := Option.map_eq_some_iff.mp hreplay
  obtain ⟨hstate, hgood⟩ := Prod.mk.inj hends
  have hspec : spec.Sound := ⟨by decide, by decide +kernel, by decide +kernel, by decide +kernel⟩
  have hmodes : ∀ c ∈ oneBearing.rows, c.process.isSome = true → c.failureMode.isSome = true := by decide
  exact ⟨m, run_of_replay hm, ⟨hstate, hgood⟩, machine_sound math kind hspec hmodes (run_of_replay hm)⟩

/-! ## What the commands see -/

def Component.view (c : Component) : Sim.Component :=
  ⟨c.code, c.process.map fun p => ⟨p.rateMultiplier, p.degradation.wearState⟩, c.activeModes⟩

theorem Component.key_view (c : Component) : Keyed.key c.view = Keyed.key c := rfl

/-- The machine as the command handler models it. -/
def Machine.view (m : Machine) : Sim.Machine where
  code := m.spec.code
  components := m.components.map Component.view Component.key_view
  sensorFaults := m.sensorFaults
  state := m.state
  loadPct := m.loadPct
  speedSetpointPct := m.speedSetpointPct
  loadSetpointPct := m.loadSetpointPct
  operatingLoadPct := m.operatingLoadPct
  maintenanceDurationS := m.spec.maintenanceDurationS
  maintenanceLeftS := m.maintenanceLeftS
  failedComponent := m.failedComponent

theorem Component.view_reset (c : Component) : c.reset.view = c.view.reset := by
  unfold Component.view Component.reset Sim.Component.reset
  cases c.process with
  | none => rfl
  | some p => simp [Process.reset, Sim.Process.reset]

theorem codesOf_view (m : Machine) (componentCode : Option String) :
    (m.view.reset componentCode).2 = m.codesOf componentCode := by
  cases componentCode with
  | none =>
    show (m.components.rows.map Component.view).map Sim.Component.code = m.components.rows.map Component.code
    rw [List.map_map]
    rfl
  | some code => rfl

/-- The reset of a command is the reset of the machine. -/
theorem view_reset {m m' : Machine} {componentCode : Option String} {codes : List String}
    (h : m.reset componentCode = some (m', codes)) : m.view.reset componentCode = (m'.view, codes) := by
  unfold Machine.reset at h
  split at h
  · cases h
  · cases h
    have hreset : ∀ codes, (m.view.reset componentCode).2 = codes → m.view.reset componentCode = ({ m.view with
        components := m.view.components.update (fun c => c.code ∈ codes) Sim.Component.reset fun _ => rfl
        sensorFaults := Sim.Machine.clearedFaults m.sensorFaults componentCode
        failedComponent := m.failedComponent.filter fun code => code ∉ codes
        state := .maintenance
        maintenanceLeftS := m.spec.maintenanceDurationS
        loadPct := 0 }, codes) := by
      intro codes hcodes
      subst hcodes
      rfl
    have hcomponents : m.view.components.update (fun c => c.code ∈ m.codesOf componentCode) Sim.Component.reset
        (fun _ => rfl) = (m.renew componentCode).view.components := by
      refine Table.ext_rows ?_
      show (m.components.rows.map Component.view).map _ = (m.components.rows.map _).map Component.view
      rw [List.map_map, List.map_map]
      refine List.map_congr_left fun c _ => ?_
      by_cases hcode : c.code ∈ m.codesOf componentCode
      · have hview : c.view.code ∈ m.codesOf componentCode := hcode
        simp [hcode, hview, Component.view_reset]
      · have hview : c.view.code ∉ m.codesOf componentCode := hcode
        simp [hcode, hview]
    rw [hreset _ (codesOf_view m componentCode), hcomponents]
    rfl

end TwinVoice.Sim.Base
