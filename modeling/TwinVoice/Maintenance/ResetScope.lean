import TwinVoice.Maintenance.Closure
import TwinVoice.Sim.Commands

/-! # What closing an order resets

The command that `close_order` publishes, handled by the simulator. The API
names the component by `component_id`; the simulator reads `component_code`,
finds none and resets the whole machine. -/

namespace TwinVoice.Maintenance

open TwinVoice.Lib TwinVoice.Twin TwinVoice.Sim

/-! ## The broker between the two -/

/-- `json.dumps` and back; an instant is not serialisable. -/
def valueJson : Value → Option Json
  | .null => some .null
  | .bool b => some (.bool b)
  | .text s => some (.text s)
  | .number q => some (.float (.finite q))
  | .instant _ => none

def payload (uuidText : Uuid → String) (c : Command) : Option Json := do
  let params ← c.params.mapM fun e => (valueJson e.2).map fun j => (e.1, j)
  return .object [("command_id", .text (uuidText c.id)), ("params", .object params),
    ("issued_by", .text c.issuedBy), ("tier", .text c.tier)]

/-- An acknowledgement as the API decodes it. -/
def ackParams (a : Ack) : Params :=
  [("command_id", match a.commandId with | .text id => .text id | _ => .null),
    ("command", .text a.command), ("status", .text a.status),
    ("error", match a.error with | some e => .text e | none => .null), ("t", .text a.t)]

/-- The simulator's answer to a published command, and its state afterwards. -/
def simulate (f : Formats) (now : Instant) (uuidText : Uuid → String) (engine : Engine) (c : Command) :
    Delivery × Engine :=
  match handleCommand f now engine c.assetCode c.command (payload uuidText c) with
  | .ok (ack, engine') => (.acked (ackParams ack), engine')
  | .error _ => (.unanswered, engine)

/-! ## Closing an order for a component -/

/-- A row of `components`. -/
structure PlantComponent where
  id : Uuid
  code : String

/-- A close that gets as far as the reset, of an order for a component of a
machine that the simulator runs. -/
structure ComponentClose where
  formats : Formats
  simNow : Instant
  engine : Engine
  env : Env
  actor : CurrentUser
  data : WorkOrderClose
  db : Store
  order : WorkOrder
  asset : Asset
  component : PlantComponent
  machine : Machine
  asked : data.resetDamage = true
  live : db.liveOrder order.id = some order
  unfinished : order.status ∉ terminalStatuses
  stored : env.refusal (db.putOrder env.txStart (data.closed env order)) = none
  wired : env.commands = some fun c _ => (simulate formats simNow env.uuidText engine c).1
  named : env.uuidText env.newCommand ≠ ""
  located : env.assets.find order.assetId = some asset
  simulated : engine.machines.find asset.code = some machine
  forComponent : order.componentId = some component.id
  present : (machine.components.find component.code).isSome

namespace ComponentClose

def command (c : ComponentClose) : Command := resetCommand c.env c.actor c.asset.code c.order

/-- The commands that the call publishes. -/
def published (c : ComponentClose) : List Command :=
  (Tx.serve (closeOrder c.env c.actor c.order.id c.data) c.db).2.2

/-- The simulator once it has handled them. -/
def engineAfter (c : ComponentClose) : Engine :=
  c.published.foldl (fun e command => (simulate c.formats c.simNow c.env.uuidText e command).2) c.engine

def healthAfter (c : ComponentClose) (code : String) : Option Health :=
  (c.engineAfter.machines.find c.asset.code).bind fun m => m.health code

/-- The damage of the component is reset and every other component is as it was. -/
def Scoped (c : ComponentClose) : Prop :=
  (c.healthAfter c.component.code).map Health.damage = some 0 ∧
    ∀ other, other ≠ c.component.code → c.healthAfter other = c.machine.health other

end ComponentClose

/-! ## What the simulator does with a reset -/

theorem reset_target (engine : Engine) {assetCode : String} {m : Machine} {target : Option String}
    (hm : engine.machines.find assetCode = some m) (htarget : ∀ code ∈ target, code ∈ m.codes) :
    ∃ message, engine.reset assetCode target =
      .ok ((engine.putMachine (m.reset target).1).record .info message (some assetCode)) := by
  have hknown : (target.filter fun code => code ∉ m.codes) = none := by
    cases target with
    | none => rfl
    | some code => simp [htarget code rfl]
  refine ⟨"Maintenance reset: " ++ ", ".intercalate (m.reset target).2, ?_⟩
  unfold Engine.reset Engine.machine
  rw [hm]
  simp only [bind, Except.bind, hknown]
  rfl

theorem carryOut_reset (f : Formats) {engine : Engine} {assetCode : String} {m : Machine} {id : String}
    (hid : id ≠ "") (hm : engine.machines.find assetCode = some m) {key : String} {j : Json}
    {target : Option String} (hcode : componentCode [(key, j)] = .ok target)
    (htarget : ∀ code ∈ target, code ∈ m.codes) (more : List (String × Json)) :
    ∃ message, carryOut f engine assetCode "maintenance_reset"
        (some (.object (("command_id", .text id) :: ("params", .object [(key, j)]) :: more))) =
      .ok ((engine.putMachine (m.reset target).1).record .info message (some assetCode)) := by
  obtain ⟨message, hreset⟩ := reset_target engine hm htarget
  refine ⟨message, ?_⟩
  have hcheck : checkCommandId (("command_id", .text id) :: ("params", .object [(key, j)]) :: more) =
      .ok () := if_neg hid
  have hparams : paramsOf (("command_id", .text id) :: ("params", .object [(key, j)]) :: more) =
      .ok [(key, j)] := rfl
  have hmachine : engine.machine assetCode = .ok m := by
    unfold Engine.machine
    rw [hm]
  unfold carryOut parse obey
  simp only [bind, Except.bind, hcheck, hparams, hmachine, hcode, hreset]

/-- A reset command resets what the simulator finds under `component_code`. -/
theorem simulate_reset (f : Formats) (now : Instant) {uuidText : Uuid → String} {engine : Engine}
    {c : Command} {m : Machine} {key : String} {value : Value} {j : Json} {target : Option String}
    (hname : c.command = "maintenance_reset") (hid : uuidText c.id ≠ "")
    (hm : engine.machines.find c.assetCode = some m) (hparams : c.params = [(key, value)])
    (hj : valueJson value = some j) (hcode : componentCode [(key, j)] = .ok target)
    (htarget : ∀ code ∈ target, code ∈ m.codes) :
    let r := simulate f now uuidText engine c
    r.1.accepted = true ∧ sent r.1 = true ∧ r.2.machines = engine.machines.put (m.reset target).1 := by
  intro r
  have hpayload : payload uuidText c = some (.object [("command_id", .text (uuidText c.id)),
      ("params", .object [(key, j)]), ("issued_by", .text c.issuedBy), ("tier", .text c.tier)]) := by
    unfold payload
    rw [hparams]
    simp [hj]
  obtain ⟨message, hrun⟩ := carryOut_reset f hid hm hcode htarget
    [("issued_by", .text c.issuedBy), ("tier", .text c.tier)]
  have hr : r = simulate f now uuidText engine c := rfl
  unfold simulate handleCommand at hr
  rw [hpayload, hname] at hr
  simp only [hrun] at hr
  rw [hr]
  refine ⟨rfl, rfl, ?_⟩
  simp only [Engine.machines_record]
  rfl

/-- The API's own `send_command` names the component by its code. -/
theorem component_code_scope (f : Formats) (now : Instant) {uuidText : Uuid → String} {engine : Engine}
    {c : Command} {m m' : Machine} {code : String}
    (hname : c.command = "maintenance_reset") (hid : uuidText c.id ≠ "")
    (hm : engine.machines.find c.assetCode = some m) (hparams : c.params = [("component_code", .text code)])
    (hcode : code ∈ m.codes)
    (hm' : (simulate f now uuidText engine c).2.machines.find c.assetCode = some m') :
    m'.health code = (m.health code).map Health.fresh ∧
      ∀ other, other ≠ code → m'.health other = m.health other := by
  have htarget : ∀ x ∈ some code, x ∈ m.codes := by
    rintro _ ⟨⟩
    exact hcode
  have hmachines := (simulate_reset f now hname hid hm hparams rfl rfl htarget).2.2
  have hkey : Keyed.key m = c.assetCode := Table.key_of_find hm
  rw [hmachines, Table.find_put, if_pos (show Keyed.key (m.reset (some code)).1 = c.assetCode from hkey),
    hm] at hm'
  cases hm'
  exact ⟨health_of_reset m (.inr rfl), fun other hother => health_of_other m hother⟩

/-- The command of an order names no component code, so all of the machine is reset. -/
theorem simulate_resetCommand (f : Formats) (now : Instant) (env : Env) (actor : CurrentUser)
    (o : WorkOrder) {engine : Engine} {assetCode : String} {m : Machine}
    (hid : env.uuidText env.newCommand ≠ "") (hm : engine.machines.find assetCode = some m) :
    let r := simulate f now env.uuidText engine (resetCommand env actor assetCode o)
    r.1.accepted = true ∧ sent r.1 = true ∧ r.2.machines = engine.machines.put (m.reset none).1 := by
  cases hcomponent : o.componentId with
  | none =>
    have hparams : resetParams env o = [("component_id", .null)] := by rw [resetParams, hcomponent]
    exact simulate_reset f now rfl hid hm hparams rfl rfl nofun
  | some id =>
    have hparams : resetParams env o = [("component_id", .text (env.uuidText id))] := by
      rw [resetParams, hcomponent]
    exact simulate_reset f now rfl hid hm hparams rfl rfl nofun

/-! ## What a close does to the machine -/

namespace ComponentClose

theorem delivery (c : ComponentClose) : resetDelivery c.env c.actor (c.data.closed c.env c.order) =
    some (simulate c.formats c.simNow c.env.uuidText c.engine c.command).1 := by
  unfold resetDelivery
  rw [c.wired, show (c.data.closed c.env c.order).assetId = c.order.assetId from rfl, c.located]
  rfl

/-- The call publishes the one reset. -/
theorem published_eq (c : ComponentClose) : c.published = [c.command] := by
  obtain ⟨haccepted, hsent, -⟩ :=
    simulate_resetCommand c.formats c.simNow c.env c.actor c.order c.named c.simulated
  have hreset := run_resetIfAsked c.env c.actor c.asked (c.data.closed c.env c.order)
    ⟨c.db, c.db.putOrder c.env.txStart (c.data.closed c.env c.order), []⟩
  rw [c.delivery] at hreset
  obtain ⟨channel, asset, -, hasset, -, hrun⟩ := hreset
  obtain rfl : c.asset = asset := Option.some.inj (c.located.symm.trans hasset)
  obtain ⟨hproblem, -⟩ := accepted_passes c.env haccepted
  rw [show simulate c.formats c.simNow c.env.uuidText c.engine c.command = simulate c.formats c.simNow
    c.env.uuidText c.engine (resetCommand c.env c.actor c.asset.code c.order) from rfl, hproblem,
    if_pos hsent] at hrun
  unfold published
  rw [serve_closeOrder c.live c.unfinished c.stored hrun]
  rfl

theorem machines_after (c : ComponentClose) :
    c.engineAfter.machines = c.engine.machines.put (c.machine.reset none).1 := by
  unfold engineAfter
  rw [published_eq, List.foldl_cons, List.foldl_nil]
  exact (simulate_resetCommand c.formats c.simNow c.env c.actor c.order c.named c.simulated).2.2

theorem healthAfter_eq (c : ComponentClose) (code : String) :
    c.healthAfter code = (c.machine.health code).map Health.fresh := by
  have hkey : Keyed.key c.machine = c.asset.code := Table.key_of_find c.simulated
  have hcode : Keyed.key (c.machine.reset none).1 = c.asset.code := hkey
  unfold healthAfter
  rw [machines_after, Table.find_put, if_pos hcode, c.simulated]
  exact health_of_reset c.machine (.inl rfl)

end ComponentClose

/-- A close resets its component, and it leaves the others alone exactly when
each of them is as good as new already. -/
theorem reset_scope_iff (c : ComponentClose) :
    c.Scoped ↔ ∀ other, other ≠ c.component.code → ∀ h, c.machine.health other = some h → h.AsNew := by
  unfold ComponentClose.Scoped
  have hown : (c.healthAfter c.component.code).map Health.damage = some 0 := by
    obtain ⟨x, hx⟩ := Option.isSome_iff_exists.mp c.present
    rw [c.healthAfter_eq, Machine.health, hx]
    rfl
  constructor
  · intro h other hother health hhealth
    have hsame := h.2 other hother
    rw [c.healthAfter_eq, hhealth] at hsame
    exact fresh_eq_iff.mp (Option.some.inj hsame)
  · intro h
    refine ⟨hown, fun other hother => ?_⟩
    rw [c.healthAfter_eq]
    cases hhealth : c.machine.health other with
    | none => rfl
    | some health => rw [Option.map_some, fresh_eq_iff.mpr (h other hother health hhealth)]

/-! An order for the bearing of a press whose spindle is worn as well. -/

def worn (code : String) (damage : Rat) : Component := ⟨code, some ⟨1, .gamma damage⟩, []⟩

def press : Machine where
  code := "press-01"
  components := ⟨[worn "bearing" (4 / 5), worn "spindle" (1 / 2)], by decide⟩
  sensorFaults := []
  state := .running
  loadPct := 80
  speedSetpointPct := 100
  loadSetpointPct := none
  operatingLoadPct := 80
  maintenanceDurationS := 600
  maintenanceLeftS := 0
  failedComponent := none

def pressEngine : Engine := ⟨⟨[press], by decide⟩, 0, []⟩

def plainFormats : Formats := ⟨fun _ => "", fun _ => "", fun _ => ""⟩

def bearingOrder : WorkOrder := { order7 with componentId := some 4 }

/-- The gateway of a plant whose machines are simulated. -/
def wiredOffice : Env :=
  { office 0 10 with
    uuidText := fun _ => "uuid"
    commands := some fun c _ => (simulate plainFormats 0 (fun _ => "uuid") pressEngine c).1 }

def bearingClose : ComponentClose where
  formats := plainFormats
  simNow := 0
  engine := pressEngine
  env := wiredOffice
  actor := mechanic
  data := replaced
  db := ⟨⟨[bearingOrder], by decide⟩, [], Table.empty, Table.empty⟩
  order := bearingOrder
  asset := ⟨1, "press-01"⟩
  component := ⟨4, "bearing"⟩
  machine := press
  asked := rfl
  live := rfl
  unfinished := by decide
  stored := rfl
  wired := rfl
  named := by decide
  located := rfl
  simulated := rfl
  forComponent := rfl
  present := rfl

theorem spindle_is_reset : ¬ bearingClose.Scoped := by
  intro h
  have hspindle := h.2 "spindle" (by decide)
  rw [bearingClose.healthAfter_eq] at hspindle
  exact absurd hspindle (by decide +kernel)

end TwinVoice.Maintenance
