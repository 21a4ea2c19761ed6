import TwinVoice.Maintenance.Schedules

/-! # What a request does to the orders

Five operations write to orders. `Change` says what any of them can do to one
row, with the guard under which it does it: only `close_order` sets an outcome,
but an edit may set any status and a drag does not look at the status at all. -/

namespace TwinVoice.Maintenance

open TwinVoice.Lib TwinVoice.Twin

/-- A call of one of the operations that write to orders. -/
inductive Call
  | create (actor : Option CurrentUser) (data : WorkOrderCreate)
  | update (id : Uuid) (data : WorkOrderUpdate)
  | close (actor : CurrentUser) (id : Uuid) (data : WorkOrderClose)
  | optimise (request : OptimiseRequest)
  | patch (scheduleId itemId : Uuid) (data : ScheduleItemPatch)

structure Request where
  env : Env
  call : Call

/-- The store that a request leaves committed. -/
def Request.after (r : Request) (db : Store) : Store :=
  match r.call with
  | .create actor data => (Tx.serve (createOrder r.env actor data) db).2.1
  | .update id data => (Tx.serve (updateOrder r.env id data) db).2.1
  | .close actor id data => (Tx.serve (closeOrder r.env actor id data) db).2.1
  | .optimise request => (Tx.serve (optimise r.env request) db).2.1
  | .patch scheduleId itemId data => (Tx.serve (patchItem r.env scheduleId itemId data) db).2.1

/-! ## The pieces -/

section Pieces

variable {env : Env} {s t : Session Store Command} {u : Unit} {P : Store → Prop}

theorem flush_ok (h : (flush env).run s = (.ok u, t)) : env.refusal s.work = none ∧ s = t := by
  unfold flush at h
  obtain ⟨db, s', hread, h₁⟩ := Tx.bind_ok h
  obtain ⟨rfl, rfl⟩ := Tx.read_ok hread
  cases hr : env.refusal s.work with
  | none =>
    simp only [hr] at h₁
    exact ⟨rfl, (Tx.pure_ok h₁).2⟩
  | some reason =>
    simp only [hr] at h₁
    cases h₁

theorem saveOrder_ok {o : WorkOrder} (h : (saveOrder env o).run s = (.ok u, t)) :
    t = { s with work := s.work.putOrder env.txStart o } ∧ env.refusal t.work = none := by
  obtain ⟨_, s', hwrite, hflush⟩ := Tx.bind_ok h
  obtain rfl := Tx.write_ok hwrite
  obtain ⟨hr, rfl⟩ := flush_ok hflush
  exact ⟨rfl, hr⟩

theorem liveOrder_some {db : Store} {id : Uuid} {o : WorkOrder} (h : db.liveOrder id = some o) :
    db.orders.find id = some o ∧ o.deletedAt = none := by
  obtain ⟨hfind, hlive⟩ := Option.filter_eq_some_iff.mp h
  exact ⟨hfind, by simpa using hlive⟩

theorem orderOr404_ok {id : Uuid} {o : WorkOrder} (h : (orderOr404 env id).run s = (.ok o, t)) :
    s.work.liveOrder id = some o ∧ s = t := by
  obtain ⟨db, s', hread, h₁⟩ := Tx.bind_ok h
  obtain ⟨rfl, rfl⟩ := Tx.read_ok hread
  exact Tx.orRaise_ok h₁

theorem ensures_flush : Tx.Ensures P (flush env) fun _ => P := by
  refine .bind .read fun db => ?_
  cases env.refusal db with
  | none => exact .pure _ fun _ hw => hw.2
  | some reason => exact .raise _

theorem ensures_orderOr404 {id : Uuid} :
    Tx.Ensures P (orderOr404 env id) fun o w => w.liveOrder id = some o ∧ P w := by
  refine .bind .read fun db => (Tx.Ensures.orRaise _ _).mono (fun _ hw => hw) ?_
  rintro o w ⟨hlive, rfl, hP⟩
  exact ⟨hlive, hP⟩

theorem drafts_flush (env : Env) : Tx.Drafts (flush env) := by
  refine .bind .read fun db => ?_
  split
  · exact .pure _
  · exact .raise _

theorem drafts_saveOrder (env : Env) (o : WorkOrder) : Tx.Drafts (saveOrder env o) :=
  .bind (.write _) fun _ => drafts_flush env

theorem drafts_orderOr404 (env : Env) (id : Uuid) : Tx.Drafts (orderOr404 env id) :=
  .bind .read fun _ => .orRaise _ _

end Pieces

/-- An edit that passes the checks of the columns. -/
theorem apply_eq {data : WorkOrderUpdate} {o o' : WorkOrder} (h : data.apply o = .ok o') :
    ∃ priority title status parts, data.status.required "status" o.status = .ok status ∧
      o' = { o with
        priority := priority
        title := title
        description := data.description.nullable o.description
        status := status
        plannedStart := data.plannedStart.nullable o.plannedStart
        plannedEnd := data.plannedEnd.nullable o.plannedEnd
        technicianId := data.technicianId.nullable o.technicianId
        parts := parts
        estDurationMin := data.estDurationMin.nullable o.estDurationMin
        estCost := data.estCost.nullable o.estCost } := by
  unfold WorkOrderUpdate.apply at h
  cases hp : data.priority.required "priority" o.priority with
  | error e => rw [hp] at h; cases h
  | ok priority =>
  cases ht : data.title.required "title" o.title with
  | error e => rw [hp, ht] at h; cases h
  | ok title =>
  cases hs : data.status.required "status" o.status with
  | error e => rw [hp, ht, hs] at h; cases h
  | ok status =>
  cases hq : data.parts.required "parts" o.parts with
  | error e => rw [hp, ht, hs, hq] at h; cases h
  | ok parts =>
    rw [hp, ht, hs, hq] at h
    cases h
    exact ⟨priority, title, status, parts, rfl, rfl⟩

/-- An edit keeps the id and sets the status that was sent, if any. -/
theorem apply_ok {data : WorkOrderUpdate} {o o' : WorkOrder} (h : data.apply o = .ok o') :
    o'.id = o.id ∧ o'.status = data.status.join.getD o.status := by
  obtain ⟨priority, title, status, parts, hs, rfl⟩ := apply_eq h
  refine ⟨rfl, ?_⟩
  unfold Sent.required at hs
  split at hs
  · rename_i hsent
    rw [hsent, ← Except.ok.inj hs]
    rfl
  · rename_i hsent
    rw [hsent, ← Except.ok.inj hs]
    rfl
  · cases hs

/-! What a reset leads to is decided by its delivery. -/

/-- The exception that a delivery leads to. -/
def resetProblem (env : Env) : Delivery → Option Problem
  | .notConnected => some (.serviceUnavailable "MQTT broker unavailable; command not sent")
  | .publishFailed => some (.serviceUnavailable "MQTT publish failed; command not sent")
  | .unanswered => none
  | .acked ack =>
    match ackStatus ack with
    | none => none
    | some status =>
      if status = .text "accepted" then none
      else some (.badGateway ("Simulator rejected maintenance reset: " ++ rejection env ack status))

def sent : Delivery → Bool
  | .notConnected | .publishFailed => false
  | .unanswered | .acked _ => true

theorem run_resetDamage (env : Env) (channel : Channel) (assetCode : String) (o : WorkOrder)
    (actor : CurrentUser) (s : Session Store Command) :
    let command := resetCommand env actor assetCode o
    let delivery := channel command (seconds 5)
    (resetDamage env channel assetCode o actor).run s =
      ((match resetProblem env delivery with | none => .ok () | some p => .error (.problem p)),
        { s with log := s.log ++ if sent delivery then [command] else [] }) := by
  intro command delivery
  have hdelivery : channel (resetCommand env actor assetCode o) (seconds 5) = delivery := rfl
  unfold resetDamage execute
  rw [Tx.run_bind, hdelivery]
  cases delivery with
  | notConnected => simp [resetProblem, sent]
  | publishFailed => simp [resetProblem, sent]
  | unanswered => simp [resetProblem, sent, command]
  | acked ack =>
    simp only [Tx.run_bind, Tx.run_emit, Tx.andThen_ok, Tx.run_pure, resetProblem, sent, if_true]
    cases ackStatus ack with
    | none => rfl
    | some status =>
      dsimp only
      split <;> rfl

/-- The reset touches no row. -/
theorem resetIfAsked_frame (env : Env) (actor : CurrentUser) (data : WorkOrderClose) (o : WorkOrder)
    (s : Session Store Command) :
    let t := ((resetIfAsked env actor data o).run s).2
    t.work = s.work ∧ t.stored = s.stored := by
  unfold resetIfAsked
  split
  · split
    · rw [run_resetDamage]
      exact ⟨rfl, rfl⟩
    · exact ⟨rfl, rfl⟩
  · exact ⟨rfl, rfl⟩

theorem resetIfAsked_ok {env : Env} {actor : CurrentUser} {data : WorkOrderClose} {o : WorkOrder}
    {s t : Session Store Command} {u : Unit}
    (h : (resetIfAsked env actor data o).run s = (.ok u, t)) : t.work = s.work := by
  have hwork := (resetIfAsked_frame env actor data o s).1
  rwa [h] at hwork

theorem updateCheck_ok {env : Env} {db : Store} {id : Uuid} {data : WorkOrderUpdate} {o : WorkOrder}
    (h : updateCheck env db id data = .ok o) :
    db.orders.find id = some o ∧ o.status ∉ terminalStatuses := by
  unfold updateCheck at h
  split at h
  · cases h
  · rename_i order hlive
    split at h
    · cases h
    · rename_i hstatus
      split at h
      · cases h
      · split at h
        · cases h
          exact ⟨(liveOrder_some hlive).1, hstatus⟩
        · cases h

theorem WorkOrder.stamped_eq (o : WorkOrder) (old : Option WorkOrder) (txStart : Instant) :
    o.stamped old txStart = { o with updatedAt := (o.stamped old txStart).updatedAt } := by
  unfold stamped
  split <;> rfl

/-- Only the row that is saved changes. -/
theorem find_putOrder {db : Store} {old : WorkOrder} (o : WorkOrder)
    (h : db.orders.find o.id = some old) (txStart : Instant) (k : Uuid) :
    (db.putOrder txStart o).orders.find k =
      if o.id = k then some (o.stamped (some old) txStart) else db.orders.find k := by
  unfold Store.putOrder
  have hkey : Keyed.key (o.stamped (some old) txStart) = o.id := by
    rw [WorkOrder.stamped_eq]
    rfl
  rw [h, Table.find_put, hkey]
  split
  · rename_i hk
    subst hk
    rw [h, Option.map_some]
  · rfl

/-! ## What a request can do to an order -/

def WorkOrder.Placeable (o : WorkOrder) : Prop := o.status = .«open» ∨ o.status = .scheduled

inductive Edit (r : Request) (db : Store) (o o' : WorkOrder) : Prop
  | updated (data : WorkOrderUpdate) (call : r.call = .update o.id data)
      (check : updateCheck r.env db o.id data = .ok o) (status : o'.status = data.status.join.getD o.status)
  | closed (actor : CurrentUser) (data : WorkOrderClose) (call : r.call = .close actor o.id data)
      (live : o.status ∉ terminalStatuses) (outcome : o'.outcome = some data.outcome)
      (started : o'.actualStart.isSome) (ended : o'.actualEnd.isSome)
  | placed (live : o.Placeable) (status : o'.status = .scheduled)
  | dragged (scheduleId itemId : Uuid) (data : ScheduleItemPatch) (item : ScheduleItem)
      (call : r.call = .patch scheduleId itemId data)
      (check : patchCheck r.env db scheduleId itemId data = .ok item)
      (order : item.workOrderId = o.id) (status : o'.status = o.status)

inductive Change (r : Request) (db : Store) (t' : Table WorkOrder) (id : Uuid) : Prop
  | kept (same : t'.find id = db.orders.find id)
  | created (o : WorkOrder) (fresh : db.orders.find id = none) (there : t'.find id = some o)
      (status : o.status = .«open»)
  | edited (o o' : WorkOrder) (before : db.orders.find id = some o) (after : t'.find id = some o')
      (edit : Edit r db o o')

/-- A request that saves one row and commits. -/
theorem Change.save {r : Request} {db : Store} {o : WorkOrder} (o' : WorkOrder) (txStart : Instant)
    (hfind : db.orders.find o.id = some o) (hid : o'.id = o.id)
    (edit : Edit r db o (o'.stamped (some o) txStart)) (id : Uuid) :
    Change r db (db.putOrder txStart o').orders id := by
  have hput := find_putOrder o' (hid ▸ hfind) txStart id
  by_cases hk : o'.id = id
  · rw [if_pos hk] at hput
    rw [hid] at hk
    subst hk
    exact .edited o _ hfind hput edit
  · rw [if_neg hk] at hput
    exact .kept hput

theorem change_of_transaction {α : Type} {r : Request} {db : Store} {m : OrderTx α}
    (hm : Tx.Atomic (Tx.transaction m))
    (hok : ∀ a s, m.run ⟨db, db, []⟩ = (.ok a, s) → ∀ id, Change r db s.work.orders id) (id : Uuid) :
    Change r db (Tx.serve (Tx.transaction m) db).2.1.orders id := by
  rcases hm db with h | ⟨a, s, hrun, h⟩
  · rw [h]
    exact .kept rfl
  · obtain ⟨u, hbody, hwork⟩ := Tx.transaction_ok hrun
    rw [h, hwork]
    exact hok a u hbody id

theorem atomic_createOrder (env : Env) (actor : Option CurrentUser) (data : WorkOrderCreate) :
    Tx.Atomic (createOrder env actor data) := by
  refine .transaction (.bind (.raiseIf _ _) fun _ => .bind ?_ fun _ => .bind ?_ fun _ => .pure _)
  · exact .bind .read fun _ => .bind (.orRaise _ _) fun _ => .bind (.write _) fun _ => drafts_flush env
  · unfold addTasks
    split
    · exact .pure _
    · exact .bind (.write _) fun _ => drafts_flush env

theorem createOrder_change (env : Env) (actor : Option CurrentUser) (data : WorkOrderCreate)
    (db : Store) (id : Uuid) :
    Change ⟨env, .create actor data⟩ db (Tx.serve (createOrder env actor data) db).2.1.orders id := by
  refine change_of_transaction (atomic_createOrder env actor data) ?_ id
  · intro o s h id
    obtain ⟨_, s₁, hasset, h₁⟩ := Tx.bind_ok h
    obtain ⟨-, rfl⟩ := Tx.raiseIf_ok hasset
    obtain ⟨_, s₂, hadd, h₂⟩ := Tx.bind_ok h₁
    obtain ⟨_, s₃, htasks, h₃⟩ := Tx.bind_ok h₂
    obtain ⟨rfl, rfl⟩ := Tx.pure_ok h₃
    have horders : s₃.work.orders = s₂.work.orders := by
      unfold addTasks at htasks
      split at htasks
      · rw [(Tx.pure_ok htasks).2]
      · obtain ⟨_, s', hwrite, hflush⟩ := Tx.bind_ok htasks
        obtain rfl := Tx.write_ok hwrite
        obtain ⟨-, rfl⟩ := flush_ok hflush
        rfl
    rw [horders]
    obtain ⟨_, s', hread, h₄⟩ := Tx.bind_ok hadd
    obtain ⟨rfl, rfl⟩ := Tx.read_ok hread
    obtain ⟨t', s', hinsert, h₅⟩ := Tx.bind_ok h₄
    obtain ⟨hfresh, rfl⟩ := Tx.orRaise_ok hinsert
    obtain ⟨_, s', hwrite, hflush⟩ := Tx.bind_ok h₅
    obtain rfl := Tx.write_ok hwrite
    obtain ⟨-, rfl⟩ := flush_ok hflush
    have hfind := Table.find_insert hfresh id
    by_cases hk : Keyed.key (data.order env actor) = id
    · rw [if_pos hk] at hfind
      refine .created _ ?_ hfind rfl
      rw [← hk]
      exact Table.fresh_of_insert hfresh
    · rw [if_neg hk] at hfind
      exact .kept hfind

theorem atomic_updateOrder (env : Env) (key : Uuid) (data : WorkOrderUpdate) :
    Tx.Atomic (updateOrder env key data) := by
  refine .transaction (.bind .read fun db => ?_)
  split
  · exact .raise _
  · split
    · exact .raise _
    · exact .bind (drafts_saveOrder env _) fun _ => .pure _

theorem updateOrder_change (env : Env) (key : Uuid) (data : WorkOrderUpdate) (db : Store) (id : Uuid) :
    Change ⟨env, .update key data⟩ db (Tx.serve (updateOrder env key data) db).2.1.orders id := by
  refine change_of_transaction (atomic_updateOrder env key data) ?_ id
  · intro o' s h id
    obtain ⟨_, s₁, hread, h₁⟩ := Tx.bind_ok h
    obtain ⟨rfl, rfl⟩ := Tx.read_ok hread
    cases hcheck : updateCheck env db key data with
    | error failure =>
      simp only [hcheck] at h₁
      cases h₁
    | ok o =>
      simp only [hcheck] at h₁
      obtain ⟨hfind, -⟩ := updateCheck_ok hcheck
      obtain rfl : o.id = key := Table.key_of_find hfind
      cases happly : data.apply o with
      | error reason =>
        simp only [happly] at h₁
        cases h₁
      | ok edited =>
        simp only [happly] at h₁
        obtain ⟨_, s₂, hsave, h₂⟩ := Tx.bind_ok h₁
        obtain ⟨rfl, rfl⟩ := Tx.pure_ok h₂
        obtain ⟨rfl, -⟩ := saveOrder_ok hsave
        obtain ⟨hid, hstatus⟩ := apply_ok happly
        refine Change.save (r := ⟨env, .update o.id data⟩) edited env.txStart hfind hid
          (.updated data rfl hcheck ?_) id
        rw [WorkOrder.stamped_eq]
        exact hstatus

theorem drafts_closeAndReset (env : Env) (actor : CurrentUser) (id : Uuid) (data : WorkOrderClose) :
    Tx.Drafts (closeAndReset env actor id data) := by
  refine .bind (drafts_orderOr404 env id) fun o => .bind (.raiseIf _ _) fun _ =>
    .bind (.raiseIf _ _) fun _ => .bind (drafts_saveOrder env _) fun _ => ?_
  exact .bind (fun s => (resetIfAsked_frame env actor data _ s).2) fun _ => .pure _

theorem closeOrder_change (env : Env) (actor : CurrentUser) (key : Uuid) (data : WorkOrderClose)
    (db : Store) (id : Uuid) :
    Change ⟨env, .close actor key data⟩ db (Tx.serve (closeOrder env actor key data) db).2.1.orders id := by
  refine change_of_transaction (.transaction (drafts_closeAndReset env actor key data)) ?_ id
  · intro o' s h id
    obtain ⟨o, s₁, hget, h₁⟩ := Tx.bind_ok h
    obtain ⟨hlive, rfl⟩ := orderOr404_ok hget
    obtain ⟨hfind, -⟩ := liveOrder_some hlive
    obtain ⟨_, s₂, hdone, h₂⟩ := Tx.bind_ok h₁
    obtain ⟨hclosed, rfl⟩ := Tx.raiseIf_ok hdone
    obtain ⟨_, s₃, hgone, h₃⟩ := Tx.bind_ok h₂
    obtain ⟨hcancelled, rfl⟩ := Tx.raiseIf_ok hgone
    obtain ⟨_, s₄, hsave, h₄⟩ := Tx.bind_ok h₃
    obtain ⟨rfl, -⟩ := saveOrder_ok hsave
    obtain ⟨_, s₅, hreset, h₅⟩ := Tx.bind_ok h₄
    obtain ⟨rfl, rfl⟩ := Tx.pure_ok h₅
    obtain rfl : o.id = key := Table.key_of_find hfind
    rw [resetIfAsked_ok hreset]
    have hstatus : o.status ∉ terminalStatuses := by simp [terminalStatuses, hclosed, hcancelled]
    refine Change.save (data.closed env o) env.txStart hfind rfl
      (.closed actor data rfl hstatus ?_ ?_ ?_) id
    all_goals
      rw [WorkOrder.stamped_eq]
      rfl

theorem addSchedule_orders {env : Env} {schedule : Schedule} {s t : Session Store Command} {u : Unit}
    (h : (addSchedule env schedule).run s = (.ok u, t)) : t.work.orders = s.work.orders := by
  obtain ⟨_, s₁, hread, h₁⟩ := Tx.bind_ok h
  obtain ⟨rfl, rfl⟩ := Tx.read_ok hread
  obtain ⟨_, s₂, hinsert, h₂⟩ := Tx.bind_ok h₁
  obtain ⟨-, rfl⟩ := Tx.orRaise_ok hinsert
  obtain ⟨_, s₃, hwrite, hflush⟩ := Tx.bind_ok h₂
  obtain rfl := Tx.write_ok hwrite
  obtain ⟨-, rfl⟩ := flush_ok hflush
  rfl

theorem addItems_orders {env : Env} {items : List ScheduleItem} {s t : Session Store Command} {u : Unit}
    (h : (addItems env items).run s = (.ok u, t)) : t.work.orders = s.work.orders := by
  obtain ⟨_, s₁, hread, h₁⟩ := Tx.bind_ok h
  obtain ⟨rfl, rfl⟩ := Tx.read_ok hread
  obtain ⟨_, s₂, hinsert, h₂⟩ := Tx.bind_ok h₁
  obtain ⟨-, rfl⟩ := Tx.orRaise_ok hinsert
  obtain ⟨_, s₃, hwrite, hflush⟩ := Tx.bind_ok h₂
  obtain rfl := Tx.write_ok hwrite
  obtain ⟨-, rfl⟩ := flush_ok hflush
  rfl

theorem activateIfAny_orders {env : Env} {request : OptimiseRequest} {result : SolveResult}
    {schedule stored : Schedule} {s t : Session Store Command}
    (h : (activateIfAny env request result schedule).run s = (.ok stored, t)) :
    t.work.orders = s.work.orders := by
  unfold activateIfAny at h
  split at h
  · obtain ⟨_, s₁, hwrite, h₁⟩ := Tx.bind_ok h
    obtain rfl := Tx.write_ok hwrite
    obtain ⟨_, s₂, hflush, h₂⟩ := Tx.bind_ok h₁
    obtain ⟨-, rfl⟩ := flush_ok hflush
    obtain ⟨_, s₃, hwrite', h₃⟩ := Tx.bind_ok h₂
    obtain rfl := Tx.write_ok hwrite'
    obtain ⟨_, s₄, hflush', h₄⟩ := Tx.bind_ok h₃
    obtain ⟨-, rfl⟩ := flush_ok hflush'
    obtain ⟨-, rfl⟩ := Tx.pure_ok h₄
    rfl
  · rw [← (Tx.pure_ok h).2]

/-! The optimiser writes to the orders it has loaded only, and those stay open
or scheduled while it goes through the assignments. -/

def AllPlaceable (t : Table WorkOrder) (ids : List Uuid) : Prop :=
  ∀ id ∈ ids, ∃ o, t.find id = some o ∧ o.Placeable

/-- Some placeable orders have become scheduled; nothing else has happened. -/
def Replanned (t t' : Table WorkOrder) : Prop :=
  ∀ id, t'.find id = t.find id ∨
    ∃ o o', t.find id = some o ∧ t'.find id = some o' ∧ o.Placeable ∧ o'.status = .scheduled

theorem Replanned.trans {t t' t'' : Table WorkOrder} (h : Replanned t t') (h' : Replanned t' t'') :
    Replanned t t'' := by
  intro id
  rcases h' id with hsame' | ⟨o₁, o₂, ho₁, ho₂, hlive, hstatus⟩
  · rw [hsame']
    exact h id
  · rcases h id with hsame | ⟨o, o', ho, ho', hplaceable, -⟩
    · exact .inr ⟨o₁, o₂, hsame ▸ ho₁, ho₂, hlive, hstatus⟩
    · exact .inr ⟨o, o₂, ho, ho₂, hplaceable, hstatus⟩

theorem AllPlaceable.replanned {t t' : Table WorkOrder} {ids : List Uuid} (h : AllPlaceable t ids)
    (hr : Replanned t t') : AllPlaceable t' ids := by
  intro id hid
  rcases hr id with hsame | ⟨o, o', -, ho', -, hstatus⟩
  · rw [hsame]
    exact h id hid
  · exact ⟨o', ho', .inr hstatus⟩

theorem placed_status {o : WorkOrder} (h : o.Placeable) (item : ScheduleItem) :
    (o.placed item).status = .scheduled := by
  unfold WorkOrder.placed
  rcases h with h | h <;> rw [h] <;> rfl

theorem Replanned.place {db : Store} {o : WorkOrder} (hfind : db.orders.find o.id = some o)
    (h : o.Placeable) (item : ScheduleItem) (txStart : Instant) :
    Replanned db.orders (db.putOrder txStart (o.placed item)).orders := by
  intro id
  rw [find_putOrder (o.placed item) hfind txStart id]
  by_cases hk : (o.placed item).id = id
  · rw [if_pos hk]
    refine .inr ⟨o, _, hk ▸ hfind, rfl, h, ?_⟩
    rw [WorkOrder.stamped_eq]
    exact placed_status h item
  · rw [if_neg hk]
    exact .inl rfl

theorem placeAll_ok {env : Env} {loaded : List Uuid} {schedule : Schedule} {as : List Assignment} :
    ∀ {n : Nat} {items : List ScheduleItem} {s t : Session Store Command},
    (placeAll env loaded schedule n as).run s = (.ok items, t) → AllPlaceable s.work.orders loaded →
    Replanned s.work.orders t.work.orders := by
  induction as with
  | nil =>
    intro n items s t h _ id
    rw [← (Tx.pure_ok h).2]
    exact .inl rfl
  | cons a as ih =>
    intro n items s t h hall
    obtain ⟨db, s₁, hread, h₁⟩ := Tx.bind_ok h
    obtain ⟨rfl, rfl⟩ := Tx.read_ok hread
    obtain ⟨o, s₂, horder, h₂⟩ := Tx.bind_ok h₁
    obtain ⟨hloaded, rfl⟩ := Tx.orRaise_ok horder
    obtain ⟨_, s₃, hsave, h₃⟩ := Tx.bind_ok h₂
    obtain ⟨rfl, -⟩ := saveOrder_ok hsave
    obtain ⟨_, s₄, hrest, h₄⟩ := Tx.bind_ok h₃
    obtain ⟨-, rfl⟩ := Tx.pure_ok h₄
    split at hloaded
    case isFalse => cases hloaded
    case isTrue hmem =>
    obtain ⟨o', hfind, hplaceable⟩ := hall a.orderId hmem
    obtain rfl : o = o' := Option.some.inj (hloaded.symm.trans hfind)
    have hid : o.id = a.orderId := Table.key_of_find hloaded
    rw [← hid] at hfind
    have hplace := Replanned.place hfind hplaceable (a.item (env.newItemIds n) schedule) env.txStart
    exact hplace.trans (ih hrest (hall.replanned hplace))

theorem drafts_placeAll (env : Env) (loaded : List Uuid) (schedule : Schedule) :
    ∀ (n : Nat) (as : List Assignment), Tx.Drafts (placeAll env loaded schedule n as)
  | _, [] => .pure _
  | n, _ :: as => .bind .read fun _ => .bind (.orRaise _ _) fun _ => .bind (drafts_saveOrder env _)
      fun _ => .bind (drafts_placeAll env loaded schedule (n + 1) as) fun _ => .pure _

theorem placeable_schedulable (db : Store) (assetIds : List Uuid) :
    AllPlaceable db.orders ((schedulable db assetIds).map WorkOrder.id) := by
  intro id hid
  obtain ⟨o, ho, rfl⟩ := List.mem_map.mp hid
  obtain ⟨hrow, hp⟩ := Table.mem_select.mp ((List.mem_insertionSort _).mp ho)
  refine ⟨o, Table.find_iff.mpr ⟨hrow, rfl⟩, ?_⟩
  simp only [WorkOrder.schedulable, Bool.and_eq_true, decide_eq_true_eq, Bool.decide_and] at hp
  simpa [WorkOrder.Placeable] using hp.1.2

theorem atomic_optimise (env : Env) (request : OptimiseRequest) : Tx.Atomic (optimise env request) := by
  refine .transaction (.bind .read fun db => .bind ?_ fun _ => .bind (drafts_placeAll env _ _ _ _) fun items =>
    .bind ?_ fun _ => .bind ?_ fun _ => .pure _)
  · exact .bind .read fun _ => .bind (.orRaise _ _) fun _ => .bind (.write _) fun _ => drafts_flush env
  · exact .bind .read fun _ => .bind (.orRaise _ _) fun _ => .bind (.write _) fun _ => drafts_flush env
  · unfold activateIfAny
    split
    · exact .bind (.write _) fun _ => .bind (drafts_flush env) fun _ => .bind (.write _) fun _ =>
        .bind (drafts_flush env) fun _ => .pure _
    · exact .pure _

/-- The orders that a run of the optimiser leaves are those that were there, or
those that the loop over its assignments has made of them. -/
theorem optimise_orders (env : Env) (request : OptimiseRequest) (db : Store) :
    let result := env.solve (schedulable db request.assetIds)
      (slotCount request.horizonStart request.horizonEnd) request.weights
    let after := (Tx.serve (optimise env request) db).2.1
    after.orders = db.orders ∨ ∃ (items : List ScheduleItem) (s t : Session Store Command),
      (placeAll env ((schedulable db request.assetIds).map WorkOrder.id) (request.schedule env result) 0
        result.assignments).run s = (.ok items, t) ∧ s.work.orders = db.orders ∧
        after.orders = t.work.orders := by
  intro result after
  rcases atomic_optimise env request db with hsame | ⟨out, t, hrun, hafter⟩
  · exact .inl (congrArg Store.orders hsame)
  · obtain ⟨s, hbody, hwork⟩ := Tx.transaction_ok hrun
    have h : after = s.work := hafter.trans hwork
    obtain ⟨_, s₁, hread, h₁⟩ := Tx.bind_ok hbody
    obtain ⟨rfl, rfl⟩ := Tx.read_ok hread
    obtain ⟨_, s₂, hschedule, h₂⟩ := Tx.bind_ok h₁
    obtain ⟨items, s₃, hplace, h₃⟩ := Tx.bind_ok h₂
    obtain ⟨_, s₄, hitems, h₄⟩ := Tx.bind_ok h₃
    obtain ⟨_, s₅, hactivate, h₅⟩ := Tx.bind_ok h₄
    obtain ⟨-, rfl⟩ := Tx.pure_ok h₅
    refine .inr ⟨items, s₂, s₃, hplace, addSchedule_orders hschedule, ?_⟩
    rw [h, activateIfAny_orders hactivate, addItems_orders hitems]

theorem optimise_change (env : Env) (request : OptimiseRequest) (db : Store) (id : Uuid) :
    Change ⟨env, .optimise request⟩ db (Tx.serve (optimise env request) db).2.1.orders id := by
  rcases optimise_orders env request db with hsame | ⟨items, s, t, hplace, hfirst, hlast⟩
  · exact .kept (by rw [hsame])
  · have hall : AllPlaceable s.work.orders ((schedulable db request.assetIds).map WorkOrder.id) := by
      rw [hfirst]
      exact placeable_schedulable db request.assetIds
    have hchange := placeAll_ok hplace hall id
    rw [← hlast, hfirst] at hchange
    rcases hchange with hsame | ⟨o, o', ho, ho', hlive, hscheduled⟩
    · exact .kept hsame
    · exact .edited o o' ho ho' (.placed hlive hscheduled)

theorem atomic_patchItem (env : Env) (scheduleId itemId : Uuid) (data : ScheduleItemPatch) :
    Tx.Atomic (patchItem env scheduleId itemId data) := by
  refine .transaction (.bind .read fun db => ?_)
  split
  · exact .raise _
  · refine .bind (.bind (.write _) fun _ => drafts_flush env) fun _ => .bind ?_ fun _ => .pure _
    unfold moveOrder
    split
    · exact drafts_saveOrder env _
    · exact .pure _

theorem patchItem_change (env : Env) (scheduleId itemId : Uuid) (data : ScheduleItemPatch) (db : Store)
    (id : Uuid) : Change ⟨env, .patch scheduleId itemId data⟩ db
      (Tx.serve (patchItem env scheduleId itemId data) db).2.1.orders id := by
  refine change_of_transaction (atomic_patchItem env scheduleId itemId data) ?_ id
  · intro moved s h id
    obtain ⟨_, s₁, hread, h₁⟩ := Tx.bind_ok h
    obtain ⟨rfl, rfl⟩ := Tx.read_ok hread
    cases hcheck : patchCheck env db scheduleId itemId data with
    | error failure =>
      simp only [hcheck] at h₁
      cases h₁
    | ok item =>
      simp only [hcheck] at h₁
      obtain ⟨_, s₂, hitem, h₂⟩ := Tx.bind_ok h₁
      obtain ⟨_, s₃, hmove, h₃⟩ := Tx.bind_ok h₂
      obtain ⟨-, rfl⟩ := Tx.pure_ok h₃
      obtain ⟨_, s', hwrite, hflush⟩ := Tx.bind_ok hitem
      obtain rfl := Tx.write_ok hwrite
      obtain ⟨-, rfl⟩ := flush_ok hflush
      unfold moveOrder at hmove
      cases ho : db.orders.find item.workOrderId with
      | none =>
        rw [ho] at hmove
        rw [← (Tx.pure_ok hmove).2]
        exact .kept rfl
      | some o =>
        rw [ho] at hmove
        obtain ⟨rfl, -⟩ := saveOrder_ok hmove
        have hid : o.id = item.workOrderId := Table.key_of_find ho
        rw [← hid] at ho
        show Change _ db (db.putOrder env.txStart (o.inSlot (data.moved env (some o) item))).orders id
        refine Change.save (r := ⟨env, .patch scheduleId itemId data⟩)
          (o.inSlot (data.moved env (some o) item)) env.txStart ho rfl
          (.dragged scheduleId itemId data item rfl hcheck hid.symm ?_) id
        rw [WorkOrder.stamped_eq]
        rfl

/-- What a request does to the row of an id. -/
theorem Request.change (r : Request) (db : Store) (id : Uuid) : Change r db (r.after db).orders id := by
  obtain ⟨env, call⟩ := r
  cases call with
  | create actor data => exact createOrder_change env actor data db id
  | update key data => exact updateOrder_change env key data db id
  | close actor key data => exact closeOrder_change env actor key data db id
  | optimise request => exact optimise_change env request db id
  | patch scheduleId itemId data => exact patchItem_change env scheduleId itemId data db id

/-! A small plant: one machine, one technician, and an optimiser that places
every order in the first hour of the horizon. -/

def emptyStore : Store := ⟨Table.empty, [], Table.empty, Table.empty⟩

def plant : Table Asset := ⟨[⟨1, "press-01"⟩], by decide⟩

def placesFirst (orders : List WorkOrder) : SolveResult where
  status := "OPTIMAL"
  assignments := orders.map fun o => ⟨o.id, some 2, 0, 4, 0, 0⟩
  objectiveValue := some 0
  solveMs := 1
  unscheduled := []

/-- A request of a service without a command channel. -/
def office (newId : Uuid) (now : Instant) : Env where
  now := now
  txStart := now
  uuidText := fun id => toString id
  str := fun _ => ""
  assets := plant
  technicians := ⟨[⟨2⟩], by decide⟩
  refusal := fun _ => none
  newId := newId
  newNumber := newId
  newItemIds := fun n => n
  newCommand := 0
  commands := none
  riskAt := fun _ _ => 0
  solve := fun orders _ _ => placesFirst orders

end TwinVoice.Maintenance
