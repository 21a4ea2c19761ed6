import TwinVoice.Lib.Transition
import TwinVoice.Maintenance.Changes
import TwinVoice.Maintenance.Export
import TwinVoice.Pdm.FailureModes

/-! # Orders that are raised of themselves

A task looks at the last prediction of every asset and opens a work order when
a failure mode is likely enough. Any number of workers run it, next to the
requests; what a worker has read may be out of date when it writes. The index
`work_orders_open_mode_uq` is what keeps two of them from opening the same
order. -/

namespace TwinVoice.Maintenance

open TwinVoice.Lib TwinVoice.Lib.Transition TwinVoice.Twin TwinVoice.Pdm

/-! ## What the task reads -/

/-- A row of `assets` that is not deleted. -/
structure LiveAsset where
  id : Uuid
  code : String
  assetType : String

structure Prediction where
  id : Uuid
  time : Instant
  assetId : Uuid
  componentId : Option Uuid
  failureProbabilityCalibrated : Option (Dict String Rat)

structure FailureMode where
  id : Uuid
  assetType : String
  code : String
  name : String
  severity : Nat
  severityRange : 1 ≤ severity ∧ severity ≤ 4

structure Explanation where
  id : Uuid
  predictionId : Uuid

structure KnowledgeBaseEntry where
  failureModeId : Uuid
  likelyCause : String
  parts : List String
  estDurationMin : Option Int
  lang : String

/-- The rows at one moment, and how `f"{probability:.0%}"` writes a number. -/
structure Inputs where
  predictions : List Prediction
  failureModes : List FailureMode
  explanations : List Explanation
  knowledgeBase : List KnowledgeBaseEntry
  percent : Rat → String

/-! ## The rule -/

def defaultProbabilityThreshold : Rat := 3 / 5

def probabilityThresholds : Dict String Rat := [("compressor", 11 / 20), ("hydraulic_press", 13 / 20)]

def maxPredictionAgeMin : Int := 30

def threshold (assetType : String) : Rat := (probabilityThresholds.get? assetType).getD defaultProbabilityThreshold

/-- `PredictionRepository.latest`. -/
def Inputs.latest (inputs : Inputs) (assetId : Uuid) : Option Prediction :=
  newest Prediction.time (inputs.predictions.filter fun p => p.assetId = assetId)

/-- What speaks for an order. -/
structure Finding where
  prediction : Prediction
  mode : FailureMode
  probability : Rat

/-- `_raise_for_asset` up to the failure mode. -/
def assess (inputs : Inputs) (now : Instant) (asset : LiveAsset) : Option Finding :=
  match inputs.latest asset.id with
  | none => none
  | some prediction =>
    if minutes maxPredictionAgeMin < now - prediction.time then none
    else
      match worstMode (orEntries prediction.failureProbabilityCalibrated []) with
      | (none, _) => none
      | (some modeCode, probability) =>
        if probability < threshold asset.assetType then none
        else (inputs.failureModes.find? fun m => m.assetType = asset.assetType && m.code = modeCode).map
          fun mode => ⟨prediction, mode, probability⟩

/-- `open_for_mode`. -/
def openForMode (db : Store) (assetId failureModeId : Uuid) : Option WorkOrder :=
  (db.orders.select fun o => o.deletedAt = none ∧ o.assetId = assetId ∧ o.failureModeId = some failureModeId ∧
    o.status ∈ openStatuses).head?

/-- `_priority`: 1 is most urgent. -/
def priorityOf (probability : Rat) (severity : Nat) : Nat :=
  let score := probability * severity
  if 3 ≤ score then 1 else if 2 ≤ score then 2 else if 1 ≤ score then 3 else 4

theorem priorityOf_range (probability : Rat) (severity : Nat) :
    1 ≤ priorityOf probability severity ∧ priorityOf probability severity ≤ 5 := by
  unfold priorityOf
  dsimp only
  split
  · decide
  · split
    · decide
    · split <;> decide

def Inputs.entry (inputs : Inputs) (mode : FailureMode) : Option KnowledgeBaseEntry :=
  inputs.knowledgeBase.find? fun e => e.failureModeId = mode.id && e.lang = "en"

def Finding.title (f : Finding) (asset : LiveAsset) : String := f.mode.name ++ " predicted on " ++ asset.code

def Finding.description (f : Finding) (inputs : Inputs) : String :=
  "Calibrated probability " ++ inputs.percent f.probability ++ " for failure mode '" ++ f.mode.code ++ "'." ++
    (inputs.entry f.mode).elim "" fun e => " " ++ e.likelyCause

def Finding.duration (f : Finding) (inputs : Inputs) : Option Int :=
  (inputs.entry f.mode).bind KnowledgeBaseEntry.estDurationMin

theorem Finding.title_pos (f : Finding) (asset : LiveAsset) : 1 ≤ (f.title asset).length := by
  have hlength : (f.title asset).length = f.mode.name.length + 14 + asset.code.length := by
    rw [title, String.length_append, String.length_append]
    rfl
  omega

theorem duration_range {est : Option Int} (h : ∀ n ∈ est, 1 ≤ n ∧ n ≤ 10080) :
    ∀ n ∈ est.map Int.toNat, 1 ≤ n ∧ n ≤ 10080 := by
  intro n hn
  obtain ⟨m, hm, rfl⟩ := Option.map_eq_some_iff.mp hn
  have hrange := h m hm
  omega

theorem description_length {description : String} (h : description.length ≤ 4000) :
    ∀ d ∈ some description, d.length ≤ 4000 := by
  rintro _ ⟨⟩
  exact h

theorem no_cost : ∀ c ∈ (none : Option Rat), 0 ≤ c := fun c hc => absurd hc (Option.not_mem_none c)

theorem unplanned_ordered : Ordered none none := by simp [Ordered]

/-- The payload, if the schema takes it. -/
def Finding.order (f : Finding) (inputs : Inputs) (asset : LiveAsset) : Option WorkOrderCreate :=
  if h : (f.title asset).length ≤ 200 ∧ (f.description inputs).length ≤ 4000 ∧
      ∀ n ∈ f.duration inputs, 1 ≤ n ∧ n ≤ 10080 then
    some {
      assetId := asset.id
      componentId := f.prediction.componentId
      type := .predictive
      priority := priorityOf f.probability f.mode.severity
      title := f.title asset
      description := some (f.description inputs)
      failureModeId := some f.mode.id
      predictionId := some f.prediction.id
      explanationId := (inputs.explanations.find? fun e => e.predictionId = f.prediction.id).map Explanation.id
      parts := ((inputs.entry f.mode).elim [] KnowledgeBaseEntry.parts).map fun part => [("code", .text part)]
      estDurationMin := (f.duration inputs).map Int.toNat
      createdVia := .auto
      priorityRange := priorityOf_range f.probability f.mode.severity
      titleLength := ⟨f.title_pos asset, h.1⟩
      descriptionLength := description_length h.2.1
      durationRange := duration_range h.2.2
      costRange := no_cost
      ordered := unplanned_ordered }
  else none

/-! ## The index -/

def WorkOrder.inOpenModeUq (o : WorkOrder) : Bool :=
  o.deletedAt = none && o.failureModeId.isSome && o.status ∈ openStatuses && o.createdVia = .auto

/-- `work_orders_open_mode_uq`. -/
def OpenModeUq (orders : Table WorkOrder) : Prop :=
  ∀ o ∈ orders.rows, ∀ o' ∈ orders.rows, o.inOpenModeUq = true → o'.inOpenModeUq = true → o.assetId = o'.assetId →
    o.failureModeId = o'.failureModeId → o.id = o'.id

instance (orders : Table WorkOrder) : Decidable (OpenModeUq orders) := by
  unfold OpenModeUq
  infer_instance

/-- The schema with the index, which it checks with every statement. -/
def Env.indexed (env : Env) : Env where
  __ := env
  refusal db := if OpenModeUq db.orders then env.refusal db else some "IntegrityError: work_orders_open_mode_uq"

theorem openModeUq_of_accepted {env : Env} {db : Store} (h : env.indexed.refusal db = none) : OpenModeUq db.orders := by
  by_contra hnot
  rw [Env.indexed] at h
  dsimp only at h
  rw [if_neg hnot] at h
  cases h

/-! ## What every request keeps -/

/-- Where an order comes from; no request changes it. -/
structure Origin where
  assetId : Uuid
  failureModeId : Option Uuid
  predictionId : Option Uuid
  type : WorkOrderType
  createdVia : CreatedVia
  deriving DecidableEq

def WorkOrder.origin (o : WorkOrder) : Origin := ⟨o.assetId, o.failureModeId, o.predictionId, o.type, o.createdVia⟩

/-- The index holds, and the orders come from where they may come from. -/
def Kept (known : Origin → Prop) (db : Store) : Prop := OpenModeUq db.orders ∧ ∀ o ∈ db.orders.rows, known o.origin

theorem WorkOrder.origin_stamped (o : WorkOrder) (old : Option WorkOrder) (txStart : Instant) :
    (o.stamped old txStart).origin = o.origin := by
  rw [stamped_eq]
  rfl

section Keeps
variable {env : Env} {known : Origin → Prop}

theorem kept_flush : Tx.Ensures (fun w => ∀ o ∈ w.orders.rows, known o.origin) (flush env.indexed) fun _ => Kept known := by
  intro s t u hs hrun
  obtain ⟨haccepted, rfl⟩ := flush_ok hrun
  exact ⟨openModeUq_of_accepted haccepted, hs⟩

theorem kept_saveOrder {o : WorkOrder} (h : known o.origin) :
    Tx.Ensures (Kept known) (saveOrder env.indexed o) fun _ => Kept known := by
  refine .bind (.write _ fun w hw x hx => ?_) fun _ => kept_flush
  rcases Table.mem_put hx with rfl | ⟨hold, -⟩
  · rw [WorkOrder.origin_stamped]
    exact h
  · exact hw.2 x hold

theorem kept_addOrder {o : WorkOrder} (h : known o.origin) :
    Tx.Ensures (Kept known) (addOrder env.indexed o) fun _ => Kept known := by
  refine .bind .read fun db => .bind (.orRaise _ _) fun orders => .given fun hinsert =>
    .bind (.write _ ?_) fun _ => kept_flush
  rintro w ⟨rfl, hw⟩ x hx
  rcases List.mem_append.mp (Table.rows_insert hinsert ▸ hx) with hold | hnew
  · exact hw.2 x hold
  · rw [List.mem_singleton.mp hnew]
    exact h

theorem kept_of_orders {α : Type} {m : OrderTx α} (h : ∀ s t a, m.run s = (.ok a, t) → t.work.orders = s.work.orders) :
    Tx.Ensures (Kept known) m fun _ => Kept known := by
  intro s t a hs hrun
  rw [Kept, h s t a hrun]
  exact hs

theorem addTasks_orders {tasks : List WorkOrderTask} {s t : Session Store Command} {u : Unit}
    (h : (addTasks env tasks).run s = (.ok u, t)) : t.work.orders = s.work.orders := by
  unfold addTasks at h
  split at h
  · rw [(Tx.pure_ok h).2]
  · obtain ⟨_, s', hwrite, hflush⟩ := Tx.bind_ok h
    obtain rfl := Tx.write_ok hwrite
    obtain ⟨-, rfl⟩ := flush_ok hflush
    rfl

theorem kept_createOrder {actor : Option CurrentUser} {data : WorkOrderCreate} (h : known (data.order env actor).origin) :
    Tx.Ensures (Kept known) (createOrder env.indexed actor data) fun _ => Kept known :=
  .transaction (.bind (.raiseIf _ _) fun _ => .given fun _ => .bind (kept_addOrder h) fun _ =>
    .bind (kept_of_orders fun _ _ _ => addTasks_orders) fun _ => .pure _ fun _ hw => hw)

theorem kept_updateOrder (id : Uuid) (data : WorkOrderUpdate) :
    Tx.Ensures (Kept known) (updateOrder env.indexed id data) fun _ => Kept known := by
  refine .transaction (.bind .read fun db => ?_)
  cases hcheck : updateCheck env.indexed db id data with
  | error failure => exact .raise _
  | ok o =>
    dsimp only
    cases happly : data.apply o with
    | error reason => exact .raise _
    | ok edited =>
      obtain ⟨priority, title, status, parts, -, hrow⟩ := apply_eq happly
      have hfind := (updateCheck_ok hcheck).1
      refine .knowing (c := known o.origin) ?_ fun horigin => ?_
      · rintro w ⟨rfl, hw⟩
        exact hw.2 o (Table.mem_of_find hfind)
      · have hedited : known edited.origin := by
          rw [hrow]
          exact horigin
        exact .bind ((kept_saveOrder hedited).mono (fun _ hw => hw.2) fun _ _ hw => hw) fun _ => .pure _ fun _ hw => hw

theorem kept_closeOrder (actor : CurrentUser) (id : Uuid) (data : WorkOrderClose) :
    Tx.Ensures (Kept known) (closeOrder env.indexed actor id data) fun _ => Kept known := by
  refine .transaction (.bind ensures_orderOr404 fun o => .bind (.raiseIf _ _) fun _ => .given fun _ =>
    .bind (.raiseIf _ _) fun _ => .given fun _ => .bind ?_ fun _ => .bind (kept_of_orders fun _ _ _ hrun => ?_) fun _ =>
      .pure _ fun _ hw => hw)
  · intro s t u hs hrun
    have horigin : known (data.closed env.indexed o).origin := hs.2.2 o (Table.mem_of_find (liveOrder_some hs.1).1)
    exact kept_saveOrder horigin hs.2 hrun
  · rw [resetIfAsked_ok hrun]

theorem kept_placeAll (loaded : List Uuid) (schedule : Schedule) (as : List Assignment) (n : Nat) :
    Tx.Ensures (Kept known) (placeAll env.indexed loaded schedule n as) fun _ => Kept known := by
  induction as generalizing n with
  | nil => exact .pure _ fun _ hw => hw
  | cons a as ih =>
    refine .bind .read fun db => .bind (.orRaise _ _) fun order => .given fun hloaded => ?_
    have hfind : db.orders.find a.orderId = some order := by
      split at hloaded
      · exact hloaded
      · cases hloaded
    refine .knowing (c := known order.origin) ?_ fun horigin => ?_
    · rintro w ⟨rfl, hw⟩
      exact hw.2 order (Table.mem_of_find hfind)
    · have hplaced : known (order.placed (a.item (env.newItemIds n) schedule)).origin := horigin
      exact .bind ((kept_saveOrder hplaced).mono (fun _ hw => hw.2) fun _ _ hw => hw) fun _ =>
        .bind (ih (n + 1)) fun _ => .pure _ fun _ hw => hw

theorem kept_optimise (request : OptimiseRequest) :
    Tx.Ensures (Kept known) (optimise env.indexed request) fun _ => Kept known :=
  .transaction (.bind .read fun _ => .bind
    ((kept_of_orders fun _ _ _ => addSchedule_orders).mono (fun _ hw => hw.2) fun _ _ hw => hw) fun _ =>
      .bind (kept_placeAll _ _ _ _) fun _ => .bind (kept_of_orders fun _ _ _ => addItems_orders) fun _ =>
        .bind (kept_of_orders fun _ _ _ => activateIfAny_orders) fun _ => .pure _ fun _ hw => hw)

theorem saveItem_orders {item : ScheduleItem} {s t : Session Store Command} {u : Unit}
    (h : (saveItem env item).run s = (.ok u, t)) : t.work.orders = s.work.orders := by
  obtain ⟨_, s', hwrite, hflush⟩ := Tx.bind_ok h
  obtain rfl := Tx.write_ok hwrite
  obtain ⟨-, rfl⟩ := flush_ok hflush
  rfl

theorem kept_patchItem (scheduleId itemId : Uuid) (data : ScheduleItemPatch) :
    Tx.Ensures (Kept known) (patchItem env.indexed scheduleId itemId data) fun _ => Kept known := by
  refine .transaction (.bind .read fun db => ?_)
  cases hcheck : patchCheck env.indexed db scheduleId itemId data with
  | error failure => exact .raise _
  | ok item =>
    dsimp only
    refine .knowing (c := ∀ o, db.orders.find item.workOrderId = some o → known o.origin) ?_ fun horigin => ?_
    · rintro w ⟨rfl, hw⟩ o ho
      exact hw.2 o (Table.mem_of_find ho)
    · refine .bind ((kept_of_orders fun _ _ _ => saveItem_orders).mono (fun _ hw => hw.2) fun _ _ hw => hw) fun _ =>
        .bind ?_ fun _ => .pure _ fun _ hw => hw
      unfold moveOrder
      cases ho : db.orders.find item.workOrderId with
      | none => exact .pure _ fun _ hw => hw
      | some o => exact kept_saveOrder (horigin o ho)

/-- A request keeps what holds of the orders, if the order that it creates, if any, may come from where it comes from. -/
theorem Kept.after {db : Store} {call : Call} (h : Kept known db)
    (hnew : ∀ actor data, call = .create actor data → known (data.order env actor).origin) :
    Kept known (Request.after ⟨env.indexed, call⟩ db) := by
  cases call with
  | create actor data => exact (kept_createOrder (hnew actor data rfl)).serve (atomic_createOrder _ actor data) h h
  | update id data => exact (kept_updateOrder id data).serve (atomic_updateOrder _ id data) h h
  | close actor id data => exact (kept_closeOrder actor id data).serve (.transaction (drafts_closeAndReset _ actor id data)) h h
  | optimise request => exact (kept_optimise request).serve (atomic_optimise _ request) h h
  | patch scheduleId itemId data =>
    exact (kept_patchItem scheduleId itemId data).serve (atomic_patchItem _ scheduleId itemId data) h h

end Keeps

/-! ## Workers and requests -/

/-- The rows, and the order that each worker has made up its mind to create. -/
structure Plant where
  store : Store
  decided : Nat → Option WorkOrderCreate

inductive Event
  | request (r : Request)
  | check (worker : Nat) (now : Instant) (inputs : Inputs) (asset : LiveAsset)
  | create (worker : Nat) (env : Env)

/-- What a worker decides on an asset; a payload that the schema refuses is an exception, which the task logs. -/
def decideOrder (inputs : Inputs) (now : Instant) (asset : LiveAsset) (db : Store) : Option WorkOrderCreate :=
  match assess inputs now asset with
  | none => none
  | some f => if (openForMode db asset.id f.mode.id).isSome then none else f.order inputs asset

/-- A worker reads in one statement and writes in another. -/
def Plant.step (p : Plant) : Event → Plant
  | .request r => { p with store := Request.after ⟨r.env.indexed, r.call⟩ p.store }
  | .check worker now inputs asset =>
    { p with decided := Function.update p.decided worker (decideOrder inputs now asset p.store) }
  | .create worker env =>
    match p.decided worker with
    | none => p
    | some data => ⟨Request.after ⟨env.indexed, .create none data⟩ p.store, Function.update p.decided worker none⟩

def Plant.Steps : Plant → Event → Plant → Prop := fun p e p' => p.step e = p'

/-- The order that a finding leads to comes from it. -/
def Finding.origin (f : Finding) (asset : LiveAsset) : Origin :=
  ⟨asset.id, some f.mode.id, some f.prediction.id, .predictive, .auto⟩

theorem Finding.order_origin {f : Finding} {inputs : Inputs} {asset : LiveAsset} {data : WorkOrderCreate}
    (h : f.order inputs asset = some data) (env : Env) (actor : Option CurrentUser) :
    (data.order env actor).origin = f.origin asset := by
  unfold Finding.order at h
  split at h
  · cases h
    rfl
  · cases h

/-- On these grounds the rule asks for an order. -/
structure Grounds (inputs : Inputs) (now : Instant) (asset : LiveAsset) (f : Finding) : Prop where
  newest : f.prediction ∈ inputs.predictions ∧ f.prediction.assetId = asset.id ∧
    ∀ p ∈ inputs.predictions, p.assetId = asset.id → p.time ≤ f.prediction.time
  fresh : now - f.prediction.time ≤ minutes maxPredictionAgeMin
  likely : threshold asset.assetType ≤ f.probability
  worst : f.mode.code ≠ "normal" ∧ ∃ probabilities, f.prediction.failureProbabilityCalibrated = some probabilities ∧
    (f.mode.code, f.probability) ∈ probabilities ∧
      ∀ e ∈ probabilities, e.1 ≠ "normal" → e.2 ≤ f.probability
  known : f.mode ∈ inputs.failureModes ∧ f.mode.assetType = asset.assetType

theorem worstMode_spec {probabilities : Dict String Rat} {modeCode : String} {probability : Rat}
    (h : worstMode probabilities = (some modeCode, probability)) :
    modeCode ≠ "normal" ∧ (modeCode, probability) ∈ probabilities ∧
      ∀ e ∈ probabilities, e.1 ≠ "normal" → e.2 ≤ probability := by
  unfold worstMode at h
  split at h
  · rename_i e hargmax
    cases h
    obtain ⟨hmem, hnormal⟩ := List.mem_filter.mp (List.argmax_mem hargmax)
    refine ⟨of_decide_eq_true hnormal, hmem, fun e' he' hne => ?_⟩
    exact List.le_of_mem_argmax (List.mem_filter.mpr ⟨he', decide_eq_true hne⟩) hargmax
  · cases h

theorem grounds_of_assess {inputs : Inputs} {now : Instant} {asset : LiveAsset} {f : Finding}
    (h : assess inputs now asset = some f) : Grounds inputs now asset f := by
  unfold assess at h
  split at h
  · cases h
  · rename_i prediction hlatest
    split at h
    · cases h
    · rename_i hage
      split at h
      · cases h
      · rename_i modeCode probability hworst
        split at h
        · cases h
        · rename_i hlikely
          obtain ⟨mode, hmode, rfl⟩ := Option.map_eq_some_iff.mp h
          obtain ⟨hmem, hnewest⟩ := newest_spec hlatest
          obtain ⟨hprediction, hasset⟩ := List.mem_filter.mp hmem
          have hfound := List.find?_some hmode
          simp only [Bool.and_eq_true, decide_eq_true_eq] at hfound
          obtain ⟨htype, rfl⟩ := hfound
          obtain ⟨hnormal, hentry, hworse⟩ := worstMode_spec hworst
          refine ⟨⟨hprediction, of_decide_eq_true hasset, fun p hp hpasset => ?_⟩, not_lt.mp hage, not_lt.mp hlikely,
            ⟨hnormal, ?_⟩, ⟨List.mem_of_find?_eq_some hmode, htype⟩⟩
          · exact hnewest p (List.mem_filter.mpr ⟨hp, decide_eq_true hpasset⟩)
          · cases hcalibrated : prediction.failureProbabilityCalibrated with
            | none =>
              rw [hcalibrated] at hentry
              cases hentry
            | some probabilities =>
              have hentries : orEntries (some probabilities) [] = probabilities := by
                rw [orEntries]
                split
                · rename_i hnil
                  exact hnil.symm
                · rfl
              rw [hcalibrated, hentries] at hentry hworse
              exact ⟨probabilities, rfl, hentry, hworse⟩

/-- In these events a worker has found grounds for an order of this origin, and no open one for the mode. -/
def Raised (start : Plant) (es : List Event) (origin : Origin) : Prop :=
  ∃ before worker now inputs asset after p f, es = before ++ .check worker now inputs asset :: after ∧
    Run Plant.Steps start before p ∧ Grounds inputs now asset f ∧ openForMode p.store asset.id f.mode.id = none ∧
    origin = f.origin asset

/-- In these events a client has created an order of this origin that it says is automatic. -/
def Claimed (es : List Event) (origin : Origin) : Prop :=
  ∃ env actor data, .request ⟨env, .create actor data⟩ ∈ es ∧ origin = (data.order env actor).origin

theorem Raised.later {start : Plant} {es : List Event} {origin : Origin} (h : Raised start es origin) (e : Event) :
    Raised start (es ++ [e]) origin := by
  obtain ⟨before, worker, now, inputs, asset, after, p, f, rfl, hrest⟩ := h
  exact ⟨before, worker, now, inputs, asset, after ++ [e], p, f, by simp, hrest⟩

theorem Claimed.later {es : List Event} {origin : Origin} (h : Claimed es origin) (e : Event) :
    Claimed (es ++ [e]) origin := by
  obtain ⟨env, actor, data, hmem, horigin⟩ := h
  exact ⟨env, actor, data, List.mem_append_left _ hmem, horigin⟩

/-- Where an order may come from after these events. -/
def Accounted (start : Plant) (es : List Event) (origin : Origin) : Prop :=
  origin.createdVia = .auto → Raised start es origin ∨ Claimed es origin

theorem Accounted.later {start : Plant} {es : List Event} {origin : Origin} (h : Accounted start es origin) (e : Event) :
    Accounted start (es ++ [e]) origin := by
  intro hauto
  rcases h hauto with hraised | hclaimed
  · exact .inl (hraised.later e)
  · exact .inr (hclaimed.later e)

theorem Kept.mono {known known' : Origin → Prop} (himp : ∀ origin, known origin → known' origin) {db : Store}
    (h : Kept known db) : Kept known' db := ⟨h.1, fun o ho => himp o.origin (h.2 o ho)⟩

structure Inv (start : Plant) (es : List Event) (p : Plant) : Prop where
  kept : Kept (Accounted start es) p.store
  decided : ∀ worker data, p.decided worker = some data →
    ∀ env actor, Raised start es (data.order env actor).origin

theorem inv_step {start p : Plant} {es : List Event} (h : Inv start es p) (hrun : Run Plant.Steps start es p) (e : Event) :
    Inv start (es ++ [e]) (p.step e) := by
  have hkept : Kept (Accounted start (es ++ [e])) p.store := h.kept.mono fun _ ho => ho.later e
  have hdecided : ∀ worker data, p.decided worker = some data →
      ∀ env actor, Raised start (es ++ [e]) (data.order env actor).origin :=
    fun worker data hdata env actor => (h.decided worker data hdata env actor).later e
  cases e with
  | request r =>
    refine ⟨hkept.after fun actor data hcall hauto => .inr ?_, hdecided⟩
    obtain ⟨env, call⟩ := r
    cases hcall
    exact ⟨env, actor, data, by simp, rfl⟩
  | check worker now inputs asset =>
    refine ⟨hkept, fun worker' data hdata env actor => ?_⟩
    have hdata' : Function.update p.decided worker (decideOrder inputs now asset p.store) worker' = some data := hdata
    by_cases hworker : worker' = worker
    · subst hworker
      rw [Function.update_self] at hdata'
      unfold decideOrder at hdata'
      split at hdata'
      · cases hdata'
      · rename_i f hassess
        split at hdata'
        · cases hdata'
        · rename_i hopen
          have hnone : openForMode p.store asset.id f.mode.id = none := by simpa using hopen
          exact ⟨es, worker', now, inputs, asset, [], p, f, rfl, hrun, grounds_of_assess hassess, hnone,
            Finding.order_origin hdata' env actor⟩
    · rw [Function.update_of_ne hworker] at hdata'
      exact hdecided worker' data hdata' env actor
  | create worker env =>
    rw [Plant.step]
    cases hdata : p.decided worker with
    | none => exact ⟨hkept, hdecided⟩
    | some data =>
      refine ⟨hkept.after fun actor data' hcall _ => .inl ?_, fun worker' data' hdata' env' actor => ?_⟩
      · cases hcall
        exact hdecided worker data hdata env none
      · have hkeep : Function.update p.decided worker none worker' = some data' := hdata'
        by_cases hworker : worker' = worker
        · subst hworker
          rw [Function.update_self] at hkeep
          cases hkeep
        · rw [Function.update_of_ne hworker] at hkeep
          exact hdecided worker' data' hkeep env' actor

/-- However the workers and the requests take turns: no asset has two open automatic orders for one failure mode, and
every automatic order was raised on grounds that held when a worker looked, if no client has claimed it to be one. -/
theorem automatic_orders {start p : Plant} {es : List Event} (hempty : start.store.orders = Table.empty)
    (hidle : ∀ worker, start.decided worker = none) (h : Run Plant.Steps start es p) :
    OpenModeUq p.store.orders ∧ ∀ o ∈ p.store.orders.rows, o.createdVia = .auto →
      Raised start es o.origin ∨ Claimed es o.origin := by
  have hinv : Inv start es p := by
    induction h with
    | nil =>
      refine ⟨⟨fun o ho => ?_, fun o ho => ?_⟩, fun worker data hdata => ?_⟩
      · rw [hempty] at ho
        cases ho
      · rw [hempty] at ho
        cases ho
      · rw [hidle] at hdata
        cases hdata
    | snoc hrun hstep ih =>
      cases hstep
      exact inv_step ih hrun _
  exact ⟨hinv.kept.1, hinv.kept.2⟩

/-! Two workers find the same press about to overheat, and neither has seen the order of the other. -/

def overheating : Inputs where
  predictions := [⟨5, 0, 1, none, some [("none", 1 / 10), ("overheating", 9 / 10)]⟩]
  failureModes := [⟨3, "hydraulic_press", "overheating", "Overheating", 4, by decide⟩]
  explanations := []
  knowledgeBase := []
  percent := fun _ => "90%"

def idlePlant : Plant := ⟨emptyStore, fun _ => none⟩

def twoWorkers : List Event :=
  [.check 1 0 overheating ⟨1, "press-01", "hydraulic_press"⟩, .check 2 0 overheating ⟨1, "press-01", "hydraulic_press"⟩,
    .create 1 (office 7 0), .create 2 (office 8 0)]

theorem automatic_orders_two_workers : ∃ p, Run Plant.Steps idlePlant twoWorkers p ∧
    p.store.orders.rows.map (fun o => (o.id, o.createdVia)) = [(7, .auto)] ∧ OpenModeUq p.store.orders ∧
      ∀ o ∈ p.store.orders.rows, o.createdVia = .auto →
        Raised idlePlant twoWorkers o.origin ∨ Claimed twoWorkers o.origin := by
  have hrun : Run Plant.Steps idlePlant twoWorkers (twoWorkers.foldl Plant.step idlePlant) :=
    .snoc (.snoc (.snoc (.snoc .nil rfl) rfl) rfl) rfl
  have hrows : (twoWorkers.foldl Plant.step idlePlant).store.orders.rows.map (fun o => (o.id, o.createdVia)) =
      [(7, .auto)] := by
    decide +kernel
  exact ⟨_, hrun, hrows, automatic_orders rfl (fun _ => rfl) hrun⟩

/-! ## A pass -/

/-- A run of the task: one asset after the other, each with what its transaction finds. -/
def raisePredictiveOrders (worker : Nat) (now : Instant) (inputs : Inputs) (assets : List (LiveAsset × Env)) : List Event :=
  assets.flatMap fun a => [.check worker now inputs a.1, .create worker a.2]

def Plant.run (p : Plant) (es : List Event) : Plant := es.foldl Plant.step p

/-- What one asset of a pass does to the orders. -/
def Plant.raiseForAsset (p : Plant) (now : Instant) (inputs : Inputs) (a : LiveAsset × Env) : Store :=
  match decideOrder inputs now a.1 p.store with
  | none => p.store
  | some data => Request.after ⟨a.2.indexed, .create none data⟩ p.store

def Plant.one (p : Plant) (worker : Nat) (now : Instant) (inputs : Inputs) (a : LiveAsset × Env) : Plant :=
  (p.step (.check worker now inputs a.1)).step (.create worker a.2)

theorem Plant.store_one (p : Plant) (worker : Nat) (now : Instant) (inputs : Inputs) (a : LiveAsset × Env) :
    (p.one worker now inputs a).store = p.raiseForAsset now inputs a := by
  have hdecided : (p.step (.check worker now inputs a.1)).decided worker = decideOrder inputs now a.1 p.store :=
    Function.update_self ..
  have hstep (q : Plant) : (q.step (.create worker a.2)).store = match q.decided worker with
      | none => q.store
      | some data => Request.after ⟨a.2.indexed, .create none data⟩ q.store := by
    rw [Plant.step]
    cases q.decided worker <;> rfl
  rw [Plant.one, hstep, hdecided, raiseForAsset]
  rfl

theorem Plant.run_pass_cons (p : Plant) (worker : Nat) (now : Instant) (inputs : Inputs) (a : LiveAsset × Env)
    (assets : List (LiveAsset × Env)) : p.run (raisePredictiveOrders worker now inputs (a :: assets)) =
      (p.one worker now inputs a).run (raisePredictiveOrders worker now inputs assets) := rfl

/-- A creation adds its order, or fails and adds nothing. -/
theorem createOrder_rows (env : Env) (actor : Option CurrentUser) (data : WorkOrderCreate) (db : Store) :
    (Request.after ⟨env, .create actor data⟩ db).orders.rows = db.orders.rows ++ [data.order env actor] ∨
    (Request.after ⟨env, .create actor data⟩ db).orders.rows = db.orders.rows ∧
      ∃ e, (Tx.serve (createOrder env actor data) db).1 = .error e := by
  have hadds : Tx.Ensures (fun w => w.orders.rows = db.orders.rows) (createOrder env actor data)
      fun _ w => w.orders.rows = db.orders.rows ++ [data.order env actor] := by
    refine .transaction (.bind (.raiseIf _ _) fun _ => .given fun _ => .bind
      (Q := fun _ w => w.orders.rows = db.orders.rows ++ [data.order env actor]) ?_ fun _ =>
        .bind (Q := fun _ w => w.orders.rows = db.orders.rows ++ [data.order env actor]) ?_ fun _ => .pure _ fun _ hw => hw)
    · refine .bind .read fun w => .bind (.orRaise _ _) fun orders => .given fun hinsert =>
        .bind (.write _ ?_) fun _ => ensures_flush
      rintro w ⟨rfl, hw⟩
      exact (Table.rows_insert hinsert).trans (by rw [hw])
    · intro s t u hs hrun
      rw [addTasks_orders hrun]
      exact hs
  rcases atomic_createOrder env actor data db with hsame | ⟨o, s, hrun, hafter⟩
  · cases hanswer : (Tx.serve (createOrder env actor data) db).1 with
    | error e => exact .inr ⟨congrArg (Table.rows ∘ Store.orders) hsame, e, rfl⟩
    | ok o =>
      obtain ⟨s, hrun, hstored⟩ := Tx.serve_answered hanswer
      have hcommitted : (createOrder env actor data).run ⟨db, db, []⟩ = (.ok o, { s with stored := s.work }) := by
        unfold createOrder Tx.transaction
        rw [Tx.run_bind, hrun]
        rfl
      left
      show (Tx.serve (createOrder env actor data) db).2.1.orders.rows = _
      rw [show (Tx.serve (createOrder env actor data) db).2.1 = s.work from hstored]
      have hrows := hadds rfl hcommitted
      exact hrows
  · left
    show (Tx.serve (createOrder env actor data) db).2.1.orders.rows = _
    rw [hafter]
    exact hadds rfl hrun

theorem openForMode_isSome {db : Store} {assetId failureModeId : Uuid} :
    (openForMode db assetId failureModeId).isSome ↔ ∃ o ∈ db.orders.rows, o.deletedAt = none ∧ o.assetId = assetId ∧
      o.failureModeId = some failureModeId ∧ o.status ∈ openStatuses := by
  rw [openForMode, List.isSome_head?]
  constructor
  · intro hne
    obtain ⟨o, ho⟩ := List.exists_mem_of_ne_nil _ hne
    obtain ⟨hmem, hopen⟩ := Table.mem_select.mp ho
    exact ⟨o, hmem, of_decide_eq_true hopen⟩
  · rintro ⟨o, hmem, hopen⟩
    exact List.ne_nil_of_mem (Table.mem_select.mpr ⟨hmem, decide_eq_true hopen⟩)

/-- An order that is open stays so while only new rows are added. -/
theorem openForMode_mono {db db' : Store} {new : List WorkOrder} (hrows : db'.orders.rows = db.orders.rows ++ new)
    {assetId failureModeId : Uuid} (h : (openForMode db assetId failureModeId).isSome) :
    (openForMode db' assetId failureModeId).isSome := by
  obtain ⟨o, ho, hopen⟩ := openForMode_isSome.mp h
  exact openForMode_isSome.mpr ⟨o, hrows ▸ List.mem_append_left new ho, hopen⟩

theorem Finding.order_open {f : Finding} {inputs : Inputs} {asset : LiveAsset} {data : WorkOrderCreate}
    (h : f.order inputs asset = some data) (env : Env) {db : Store} (hmem : data.order env none ∈ db.orders.rows) :
    (openForMode db asset.id f.mode.id).isSome := by
  have horigin := Finding.order_origin h env none
  refine openForMode_isSome.mpr ⟨_, hmem, rfl, congrArg Origin.assetId horigin, congrArg Origin.failureModeId horigin, ?_⟩
  simp [WorkOrderCreate.order, openStatuses]

/-- The order that a finding asks for cannot be made: the schema does not take its payload, or refuses its row. -/
def Fails (p : Plant) (inputs : Inputs) (a : LiveAsset × Env) (f : Finding) : Prop :=
  f.order inputs a.1 = none ∨ ∃ data e, f.order inputs a.1 = some data ∧
    (Tx.serve (createOrder a.2.indexed none data) p.store).1 = .error e

theorem raiseForAsset_cases (p : Plant) (now : Instant) (inputs : Inputs) (a : LiveAsset × Env) :
    (∃ new, (p.raiseForAsset now inputs a).orders.rows = p.store.orders.rows ++ new ∧
      (new.map WorkOrder.assetId).Sublist [a.1.id]) ∧
    ∀ f, assess inputs now a.1 = some f →
      (openForMode (p.raiseForAsset now inputs a) a.1.id f.mode.id).isSome ∨ Fails p inputs a f := by
  unfold Plant.raiseForAsset
  cases hdecided : decideOrder inputs now a.1 p.store with
  | none =>
    refine ⟨⟨[], by simp, by simp⟩, fun f hf => ?_⟩
    unfold decideOrder at hdecided
    rw [hf] at hdecided
    dsimp only at hdecided
    split at hdecided
    · rename_i hopen
      exact .inl hopen
    · exact .inr (.inl hdecided)
  | some data =>
    obtain ⟨f', hf', horder⟩ : ∃ f', assess inputs now a.1 = some f' ∧ f'.order inputs a.1 = some data := by
      unfold decideOrder at hdecided
      split at hdecided
      · cases hdecided
      · rename_i f' hf'
        split at hdecided
        · cases hdecided
        · exact ⟨f', hf', hdecided⟩
    rcases createOrder_rows a.2.indexed none data p.store with hrows | ⟨hrows, e, herror⟩
    · refine ⟨⟨[data.order a.2.indexed none], hrows, ?_⟩, fun f hf => .inl ?_⟩
      · have hasset := congrArg Origin.assetId (Finding.order_origin horder a.2.indexed none)
        rw [List.map_singleton, show (data.order a.2.indexed none).assetId = a.1.id from hasset]
      · cases hf.symm.trans hf'
        exact Finding.order_open horder a.2.indexed (hrows ▸ by simp)
    · refine ⟨⟨[], hrows.trans (by simp), by simp⟩, fun f hf => .inr (.inr ⟨data, e, ?_, herror⟩)⟩
      cases hf.symm.trans hf'
      exact horder

end TwinVoice.Maintenance
