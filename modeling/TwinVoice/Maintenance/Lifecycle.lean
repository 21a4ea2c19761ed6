import TwinVoice.Lib.Transition
import TwinVoice.Maintenance.Changes

/-! # The lifecycle of a work order

Over every sequence of requests: once an order is closed or cancelled it stays
as it is, and what is closed has been closed by `close_order`. The condition
names the two requests that break this. -/

namespace TwinVoice.Maintenance

open TwinVoice.Lib TwinVoice.Lib.Transition TwinVoice.Twin

def Step (db : Store) (r : Request) (db' : Store) : Prop := r.after db = db'

/-- No edit that goes through sets an order closed, and no drag that goes
through is of an item whose order is closed or cancelled. -/
def Lawful (db : Store) (r : Request) : Prop :=
  match r.call with
  | .update id data => ∀ o, updateCheck r.env db id data = .ok o → data.status ≠ some (some .closed)
  | .patch scheduleId itemId data => ∀ item, patchCheck r.env db scheduleId itemId data = .ok item →
      ∀ o, db.orders.find item.workOrderId = some o → o.status ∉ terminalStatuses
  | _ => True

theorem Change.terminal {r : Request} {db : Store} {t' : Table WorkOrder} {o : WorkOrder} {id : Uuid}
    (h : Change r db t' id) (hlawful : Lawful db r) (hfind : db.orders.find id = some o)
    (hdone : o.status ∈ terminalStatuses) : t'.find id = some o := by
  cases h with
  | kept same => rw [same, hfind]
  | created _ fresh _ _ => rw [hfind] at fresh; cases fresh
  | edited x x' before after edit =>
    obtain rfl : o = x := Option.some.inj (hfind.symm.trans before)
    exfalso
    cases edit with
    | updated data call check status => exact (updateCheck_ok check).2 hdone
    | closed actor data call live _ _ _ => exact live hdone
    | placed live status =>
      unfold terminalStatuses at hdone
      rcases live with live | live <;> rw [live] at hdone <;> simp at hdone
    | dragged scheduleId itemId data item call check order status =>
      unfold Lawful at hlawful
      rw [call] at hlawful
      obtain rfl : o.id = id := Table.key_of_find hfind
      exact hlawful item check o (order ▸ hfind) hdone

/-- One of these requests has closed the order, with its outcome and both times. -/
def ClosedBy (es : List Request) (o : WorkOrder) : Prop :=
  ∃ env actor data, ⟨env, .close actor o.id data⟩ ∈ es ∧ o.outcome = some data.outcome ∧
    o.actualStart.isSome ∧ o.actualEnd.isSome

theorem Change.closing {r : Request} {db : Store} {t' : Table WorkOrder} {o' : WorkOrder} {id : Uuid}
    (h : Change r db t' id) (hlawful : Lawful db r) (hfind : t'.find id = some o')
    (hclosed : o'.status = .closed) : db.orders.find id = some o' ∨ ClosedBy [r] o' := by
  cases h with
  | kept same => exact .inl (same ▸ hfind)
  | created x _ there status =>
    obtain rfl : o' = x := Option.some.inj (hfind.symm.trans there)
    rw [status] at hclosed
    cases hclosed
  | edited x x' before after edit =>
    obtain rfl : o' = x' := Option.some.inj (hfind.symm.trans after)
    have hid : o'.id = x.id := (Table.key_of_find hfind).trans (Table.key_of_find before).symm
    cases edit with
    | updated data call check status =>
      unfold Lawful at hlawful
      rw [call] at hlawful
      have hsent := hlawful x check
      have hlive := (updateCheck_ok check).2
      rw [hclosed] at status
      cases hstatus : data.status with
      | none =>
        rw [hstatus] at status
        exact absurd (by rw [terminalStatuses, ← status.symm]; simp) hlive
      | some s =>
        cases s with
        | none =>
          rw [hstatus] at status
          exact absurd (by rw [terminalStatuses, ← status.symm]; simp) hlive
        | some s =>
          rw [hstatus] at status
          exact absurd (by rw [hstatus, show s = .closed from status.symm]) hsent
    | closed actor data call _ outcome started ended =>
      obtain ⟨env, call'⟩ := r
      obtain rfl : call' = .close actor x.id data := call
      exact .inr ⟨env, actor, data, by rw [hid]; exact List.mem_singleton_self _, outcome, started, ended⟩
    | placed _ status => rw [status] at hclosed; cases hclosed
    | dragged scheduleId itemId data item call check order status =>
      unfold Lawful at hlawful
      rw [call] at hlawful
      obtain rfl : x.id = id := Table.key_of_find before
      have hlive := hlawful item check x (order ▸ before)
      rw [status] at hclosed
      exact absurd (by rw [terminalStatuses, hclosed]; simp) hlive

/-- From a plant without work orders, as long as every request is lawful: an
order that is closed or cancelled stays as it is, and one that is closed has
been closed by `close_order`. -/
theorem lifecycle {start db db' : Store} {es fs : List Request} (hstart : start.orders = Table.empty)
    (h : Run (Guarded Step Lawful) start es db) (h' : Run (Guarded Step Lawful) db fs db') :
    (∀ id o, db.orders.find id = some o → o.status ∈ terminalStatuses →
      db'.orders.find id = some o) ∧
    (∀ id o, db.orders.find id = some o → o.status = .closed → ClosedBy es o) := by
  constructor
  · intro id o hfind hdone
    refine Run.invariant (fun _ (db : Store) => db.orders.find id = some o) hfind ?_ h'
    rintro fs db₁ r db₂ hfind ⟨hlawful, rfl⟩
    exact (r.change db₁ id).terminal hlawful hfind hdone
  · refine Run.invariant (fun es (db : Store) => ∀ id o, db.orders.find id = some o →
      o.status = .closed → ClosedBy es o) ?_ ?_ h
    · intro id o hfind
      rw [hstart] at hfind
      cases hfind
    · rintro es db₁ r db₂ ih ⟨hlawful, rfl⟩ id o hfind hclosed
      rcases (r.change db₁ id).closing hlawful hfind hclosed with hbefore | ⟨env, actor, data, hmem, hrest⟩
      · obtain ⟨env, actor, data, hmem, hrest⟩ := ih id o hbefore hclosed
        exact ⟨env, actor, data, List.mem_append_left _ hmem, hrest⟩
      · exact ⟨env, actor, data, List.mem_append_right _ hmem, hrest⟩

/-! Order 7 is created, placed by the optimiser in the first hour, and closed. -/

def newOrder : WorkOrderCreate := { assetId := 1, title := "Replace bearing" }

def closing : WorkOrderClose := { outcome := "bearing replaced", resetDamage := false }

def setStatus (status : WorkOrderStatus) : WorkOrderUpdate := { status := some (some status) }

def planner : CurrentUser := ⟨"planner", 3⟩

def create7 : Request := ⟨office 7 0, .create none newOrder⟩

def close7 : Request := ⟨office 0 5, .close planner 7 closing⟩

def editClosed7 : Request := ⟨office 0 5, .update 7 (setStatus .closed)⟩

def optimiseAll : Request := ⟨office 8 1, .optimise
  { horizonStart := 0, horizonEnd := minutes 120 }⟩

def dragItem : Request := ⟨office 0 6, .patch 8 0 { startsAt := some (minutes 30) }⟩

/-- Closed by `close_order`, then reopened in vain. -/
theorem lifecycle_of_closed :
    let db := close7.after (create7.after emptyStore)
    let db' := Request.after ⟨office 0 6, .update 7 (setStatus .«open»)⟩ db
    (∀ id o, db.orders.find id = some o → o.status ∈ terminalStatuses →
      db'.orders.find id = some o) ∧
    (∀ id o, db.orders.find id = some o → o.status = .closed → ClosedBy [create7, close7] o) := by
  intro db db'
  refine lifecycle (show emptyStore.orders = Table.empty from rfl) ?_ (Run.snoc .nil ⟨?_, rfl⟩)
  · exact (Run.snoc (Run.snoc .nil ⟨trivial, rfl⟩) ⟨trivial, rfl⟩ :
      Run (Guarded Step Lawful) emptyStore ([create7] ++ [close7]) db)
  · exact fun _ _ => by decide

/-- An edit closes an order that has no outcome, and a drag moves an order
that has been closed. -/
theorem lifecycle_broken :
    (¬ ∀ es db, Run Step emptyStore es db → ∀ id o, db.orders.find id = some o →
      o.status = .closed → o.outcome.isSome ∧ o.actualStart.isSome ∧ o.actualEnd.isSome) ∧
    (¬ ∀ es db fs db', Run Step emptyStore es db → Run Step db fs db' →
      ∀ id o, db.orders.find id = some o → o.status ∈ terminalStatuses →
        db'.orders.find id = some o) := by
  constructor
  · intro h
    have hrun : Run Step emptyStore ([create7] ++ [editClosed7])
        (editClosed7.after (create7.after emptyStore)) := .snoc (.snoc .nil rfl) rfl
    have hclosed := (h _ _ hrun 7 _ rfl rfl).1
    cases hclosed
  · intro h
    have hrun : Run Step emptyStore (([create7] ++ [optimiseAll]) ++ [close7])
        (close7.after (optimiseAll.after (create7.after emptyStore))) :=
      .snoc (.snoc (.snoc .nil rfl) rfl) rfl
    have hsame := h _ _ [dragItem] _ hrun (Run.snoc .nil rfl) 7 _ rfl (by decide)
    have hstart := congrArg (Option.map WorkOrder.plannedStart) hsame
    exact absurd hstart (by decide)

end TwinVoice.Maintenance
