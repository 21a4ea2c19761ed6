import TwinVoice.Lib.Choices
import TwinVoice.Maintenance.Replanning

/-! # The report of conflicts after a drag

`_conflicts` takes every instant for the slot it lies in before it looks for
overlaps. An overlap that lies within one slot is lost on the way: the later
item starts in the slot in which the earlier ends. No other is, and nothing is
reported that does not overlap. -/

namespace TwinVoice.Maintenance

open TwinVoice.Lib TwinVoice.Lib.Transition TwinVoice.Twin

/-! ## The report -/

/-- `_slot_of`. -/
def slotOf (time horizonStart : Instant) : Int := (time - horizonStart) / minutes slotMinutes

/-- An `Assignment` as `_conflicts` makes it of an item. -/
structure Bar where
  orderId : Uuid
  technicianId : Option Uuid
  startSlot : Int
  endSlot : Int

inductive ConflictKind
  | technician | line
  deriving DecidableEq

structure Conflict where
  first : Uuid
  second : Uuid
  kind : ConflictKind
  deriving DecidableEq

def sameTechnician (technician technician' : Option Uuid) : Bool := technician.isSome && technician = technician'

/-- The lines of orders: nothing for an order that is not there, and the empty
text for one whose asset is not. -/
abbrev Lines := Uuid → Option (Option Uuid)

def sameLine (lines : Lines) (order order' : Uuid) : Bool :=
  (lines order).isSome && (lines order').isSome && lines order = lines order'

/-- The entry for two bars that overlap. -/
def conflictOf (lines : Lines) (order order' : Uuid) (technician technician' : Option Uuid) : Option Conflict :=
  if sameTechnician technician technician' then some ⟨order, order', .technician⟩
  else if sameLine lines order order' then some ⟨order, order', .line⟩
  else none

/-- `optimiser.conflicts`. -/
def conflicts (assignments : List Bar) (lines : Lines) : List Conflict :=
  sweep (fun first second => first.endSlot ≤ second.startSlot)
    (fun first second => conflictOf lines first.orderId second.orderId first.technicianId second.technicianId)
    (assignments.insertionSort fun a b => a.startSlot ≤ b.startSlot)

def ScheduleItem.bar (item : ScheduleItem) (horizonStart : Instant) : Bar where
  orderId := item.workOrderId
  technicianId := item.technicianId
  startSlot := slotOf item.startsAt horizonStart
  endSlot := slotOf item.endsAt horizonStart

section
variable (assets : Assets) (db : Store)

def linesIn : Lines := fun order => (db.orders.find order).map fun o => (assets o.assetId).map AssetRow.lineId

/-- `_conflicts`. -/
def conflictsIn (horizonStart : Instant) (items : List ScheduleItem) : List Conflict :=
  conflicts (items.map fun item => item.bar horizonStart) (linesIn assets db)

/-- `repo.items`: the database gives items with one start in any order. -/
structure InOrder (scheduleId : Uuid) (items : List ScheduleItem) : Prop where
  all : items.Perm (db.items.select fun i => i.scheduleId = scheduleId)
  sorted : items.Pairwise fun i j => i.startsAt ≤ j.startsAt

/-! ## What it should say -/

/-- The half-open intervals have an instant in common. -/
def Intersect (i j : ScheduleItem) : Prop := i.startsAt < j.endsAt ∧ j.startsAt < i.endsAt

instance decidableIntersect (i j : ScheduleItem) : Decidable (Intersect i j) := inferInstanceAs (Decidable (_ ∧ _))

/-- The line of the asset of the item's order. -/
def lineOf (i : ScheduleItem) : Option Uuid :=
  (db.orders.find i.workOrderId).bind fun o => (assets o.assetId).map AssetRow.lineId

/-- One technician, or one line. -/
def Share (i j : ScheduleItem) : Prop :=
  (∃ t ∈ i.technicianId, j.technicianId = some t) ∨ ∃ l ∈ lineOf assets db i, lineOf assets db j = some l

instance decidableShare (i j : ScheduleItem) : Decidable (Share assets db i j) := inferInstanceAs (Decidable (_ ∨ _))

/-- The pairs of items that are in conflict, by their orders. -/
def trueConflicts (items : List ScheduleItem) : List (Uuid × Uuid) :=
  ((pairs items).filter fun p => Share assets db p.1 p.2 ∧ Intersect p.1 p.2).map fun p =>
    (p.1.workOrderId, p.2.workOrderId)

/-- Of two items in conflict the later one does not start in the slot in which
the earlier one ends. -/
def SlotsTell (horizonStart : Instant) (items : List ScheduleItem) : Prop :=
  items.Pairwise fun i j => Share assets db i j → Intersect i j →
    slotOf j.startsAt horizonStart ≠ slotOf i.endsAt horizonStart

/-- What the schema sees to: an item ends after it starts, and an order has its asset. -/
structure WellFormed : Prop where
  ranged : ∀ i ∈ db.items.rows, i.startsAt < i.endsAt
  linked : ∀ o ∈ db.orders.rows, (assets o.assetId).isSome

end

/-! ## Slots and instants -/

theorem slotOf_mono {x y : Instant} (h : x ≤ y) (horizonStart : Instant) :
    slotOf x horizonStart ≤ slotOf y horizonStart := by
  have hscaled (a b s : Int) (hab : a ≤ b) :
      (a - s) / (((15 : Nat) : Int) * 60 * 1000000) ≤ (b - s) / (((15 : Nat) : Int) * 60 * 1000000) := by omega
  exact hscaled x y horizonStart h

theorem conflictOf_isSome {assets : Assets} {db : Store} (hlinked : ∀ o ∈ db.orders.rows, (assets o.assetId).isSome)
    (i j : ScheduleItem) :
    (conflictOf (linesIn assets db) i.workOrderId j.workOrderId i.technicianId j.technicianId).map
        (fun c => (c.first, c.second)) =
      if Share assets db i j then some (i.workOrderId, j.workOrderId) else none := by
  have htechnician : sameTechnician i.technicianId j.technicianId = true ↔
      ∃ t ∈ i.technicianId, j.technicianId = some t := by
    unfold sameTechnician
    cases i.technicianId <;> cases j.technicianId <;> simp [eq_comm]
  have hline : sameLine (linesIn assets db) i.workOrderId j.workOrderId = true ↔
      ∃ l ∈ lineOf assets db i, lineOf assets db j = some l := by
    unfold sameLine linesIn lineOf
    cases hi : db.orders.find i.workOrderId with
    | none => simp
    | some o =>
      obtain ⟨asset, hasset⟩ := Option.isSome_iff_exists.mp (hlinked o (Table.mem_of_find hi))
      cases hj : db.orders.find j.workOrderId with
      | none => simp
      | some o' =>
        obtain ⟨asset', hasset'⟩ := Option.isSome_iff_exists.mp (hlinked o' (Table.mem_of_find hj))
        simp [hasset, hasset', eq_comm]
  unfold conflictOf
  by_cases ht : sameTechnician i.technicianId j.technicianId = true
  · rw [if_pos ht, if_pos (show Share assets db i j from .inl (htechnician.mp ht))]
    rfl
  · rw [if_neg ht]
    by_cases hl : sameLine (linesIn assets db) i.workOrderId j.workOrderId = true
    · rw [if_pos hl, if_pos (show Share assets db i j from .inr (hline.mp hl))]
      rfl
    · have hneither : ¬Share assets db i j := fun h => h.elim (ht ∘ htechnician.mpr) (hl ∘ hline.mpr)
      rw [if_neg hl, if_neg hneither]
      rfl

/-- The sweep looks at every pair: the items come in the order of their slots. -/
theorem conflictsIn_eq (assets : Assets) (db : Store) {items : List ScheduleItem}
    (hsorted : items.Pairwise fun i j => i.startsAt ≤ j.startsAt) (horizonStart : Instant) :
    conflictsIn assets db horizonStart items = (pairs items).filterMap fun p =>
      if slotOf p.1.endsAt horizonStart ≤ slotOf p.2.startsAt horizonStart then none
      else conflictOf (linesIn assets db) p.1.workOrderId p.2.workOrderId p.1.technicianId p.2.technicianId := by
  have hbars : (items.map fun item => item.bar horizonStart).Pairwise fun a b => a.startSlot ≤ b.startSlot :=
    List.pairwise_map.mpr (hsorted.imp fun h => slotOf_mono h horizonStart)
  unfold conflictsIn conflicts
  rw [hbars.insertionSort_eq, sweep_eq, pairs_map, List.filterMap_map]
  · refine List.filterMap_congr fun p _ => ?_
    simp only [Function.comp_apply, Prod.map_apply', decide_eq_true_iff]
    rfl
  · refine fun a _ => hbars.imp fun hle hends => ?_
    rw [decide_eq_true_iff] at hends ⊢
    exact hends.trans hle

/-- The slots of two items overlap only if the items do. -/
theorem intersect_of_slots {i j : ScheduleItem} {horizonStart : Instant} (hranged : j.startsAt < j.endsAt)
    (hsorted : i.startsAt ≤ j.startsAt) (h : slotOf j.startsAt horizonStart < slotOf i.endsAt horizonStart) :
    Intersect i j := by
  refine ⟨hsorted.trans_lt hranged, ?_⟩
  by_contra hapart
  exact absurd (slotOf_mono (not_lt.mp hapart) horizonStart) (not_le.mpr h)

theorem trueConflicts_eq (assets : Assets) (db : Store) (items : List ScheduleItem) :
    trueConflicts assets db items = (pairs items).filterMap fun p =>
      if Share assets db p.1 p.2 ∧ Intersect p.1 p.2 then some (p.1.workOrderId, p.2.workOrderId) else none := by
  unfold trueConflicts
  rw [← List.filterMap_eq_filter, List.map_filterMap]
  refine List.filterMap_congr fun p _ => ?_
  unfold Option.guard
  by_cases h : Share assets db p.1 p.2 ∧ Intersect p.1 p.2
  · rw [if_pos (decide_eq_true h), if_pos h]
    rfl
  · rw [if_neg (by simpa using h), if_neg h]
    rfl

/-- There are no false alarms, and the report is exact if no overlap gets lost in a slot. -/
theorem conflictsIn_iff {assets : Assets} {db : Store} (hlinked : ∀ o ∈ db.orders.rows, (assets o.assetId).isSome)
    {items : List ScheduleItem} (hranged : ∀ i ∈ items, i.startsAt < i.endsAt)
    (hsorted : items.Pairwise fun i j => i.startsAt ≤ j.startsAt) (horizonStart : Instant) :
    (conflictsIn assets db horizonStart items).map (fun c => (c.first, c.second)) = trueConflicts assets db items ↔
      SlotsTell assets db horizonStart items := by
  have hstart := forall_mem_pairs.mpr hsorted
  -- where the slots overlap the two searches agree, elsewhere the report is silent
  have hagree (p : ScheduleItem × ScheduleItem) (hp : p ∈ pairs items)
      (hslots : ¬slotOf p.1.endsAt horizonStart ≤ slotOf p.2.startsAt horizonStart) :
      (if Share assets db p.1 p.2 then some (p.1.workOrderId, p.2.workOrderId) else none) =
        if Share assets db p.1 p.2 ∧ Intersect p.1 p.2 then some (p.1.workOrderId, p.2.workOrderId) else none := by
    have hintersect := intersect_of_slots (hranged _ (mem_of_mem_pairs hp).2) (hstart p hp) (not_le.mp hslots)
    simp only [hintersect, and_true]
  rw [conflictsIn_eq assets db hsorted, trueConflicts_eq, List.map_filterMap, filterMap_eq_iff]
  · unfold SlotsTell
    rw [← forall_mem_pairs]
    refine forall₂_congr fun p hp => ?_
    by_cases hslots : slotOf p.1.endsAt horizonStart ≤ slotOf p.2.startsAt horizonStart
    · rw [if_pos hslots, Option.map_none, eq_comm, ite_eq_right_iff]
      constructor
      · exact fun h hshare hintersect => absurd (h ⟨hshare, hintersect⟩) (by simp)
      · exact fun h hboth => absurd ((slotOf_mono hboth.2.2.le _).antisymm hslots) (h hboth.1 hboth.2)
    · rw [if_neg hslots, conflictOf_isSome hlinked]
      exact iff_of_true (hagree p hp hslots) fun _ _ h => hslots h.ge
  · intro p hp
    by_cases hslots : slotOf p.1.endsAt horizonStart ≤ slotOf p.2.startsAt horizonStart
    · exact .inl (by rw [if_pos hslots, Option.map_none])
    · rw [if_neg hslots, conflictOf_isSome hlinked]
      exact .inr (hagree p hp hslots)

/-! ## Every sequence of drags -/

/-- A call of `patch_item`. -/
structure Drag where
  env : Env
  scheduleId : Uuid
  itemId : Uuid
  data : ScheduleItemPatch

def Drag.after (d : Drag) (db : Store) : Store :=
  (Tx.serve (patchItem d.env d.scheduleId d.itemId d.data) db).2.1

def DragStep (db : Store) (d : Drag) (db' : Store) : Prop := d.after db = db'

/-- What the drag answers: the item, and the conflicts in the plan that it
leaves, with the items as the database gives them. -/
structure Drag.Answers (d : Drag) (assets : Assets) (db : Store) (moved : ScheduleItem) (items : List ScheduleItem)
    (report : List Conflict) : Prop where
  item : (Tx.serve (patchItem d.env d.scheduleId d.itemId d.data) db).1 = .ok moved
  order : InOrder (d.after db) d.scheduleId items
  report : ∃ schedule, db.schedules.find d.scheduleId = some schedule ∧
    report = conflictsIn assets (d.after db) schedule.horizonStart items

theorem patchCheck_ordered {env : Env} {db : Store} {scheduleId itemId : Uuid} {data : ScheduleItemPatch}
    {item : ScheduleItem} (h : patchCheck env db scheduleId itemId data = .ok item) :
    (data.slot item).1 < (data.slot item).2 := by
  unfold patchCheck at h
  split at h
  · cases h
  · split at h
    · cases h
    · dsimp only at h
      split at h
      · cases h
      · rename_i hordered
        split at h
        · cases h
        · split at h
          · cases h
            exact not_le.mp hordered
          · cases h

theorem wellFormed_saveOrder {assets : Assets} {env : Env} {o : WorkOrder} (h : (assets o.assetId).isSome) :
    Tx.Ensures (WellFormed assets) (saveOrder env o) fun _ => WellFormed assets := by
  refine .bind (.write _ fun w hw => ⟨hw.ranged, fun x hx => ?_⟩) fun _ => ensures_flush
  rcases Table.mem_put hx with rfl | ⟨hold, -⟩
  · rw [WorkOrder.stamped_eq]
    exact h
  · exact hw.linked x hold

theorem wellFormed_saveItem {assets : Assets} {env : Env} {item : ScheduleItem} (h : item.startsAt < item.endsAt) :
    Tx.Ensures (WellFormed assets) (saveItem env item) fun _ => WellFormed assets := by
  refine .bind (.write _ fun w hw => ⟨fun x hx => ?_, hw.linked⟩) fun _ => ensures_flush
  rcases Table.mem_put hx with rfl | ⟨hold, -⟩
  · exact h
  · exact hw.ranged x hold

/-- A drag keeps what the schema sees to. -/
theorem wellFormed_patchItem (assets : Assets) (env : Env) (scheduleId itemId : Uuid) (data : ScheduleItemPatch) :
    Tx.Ensures (WellFormed assets) (patchItem env scheduleId itemId data) fun _ => WellFormed assets := by
  refine .transaction (.bind .read fun db => ?_)
  cases hcheck : patchCheck env db scheduleId itemId data with
  | error failure => exact .raise _
  | ok item =>
    have hmoved : (data.moved env (db.orders.find item.workOrderId) item).startsAt <
        (data.moved env (db.orders.find item.workOrderId) item).endsAt := patchCheck_ordered hcheck
    refine .knowing (c := ∀ o ∈ db.orders.rows, (assets o.assetId).isSome) ?_ fun hlinked => ?_
    · rintro w ⟨rfl, hw⟩
      exact hw.linked
    · refine .bind ((wellFormed_saveItem hmoved).mono (fun _ hw => hw.2) fun _ _ hw => hw) fun _ =>
        .bind (Q := fun _ => WellFormed assets) ?_ fun _ => .pure _ fun _ hw => hw
      unfold moveOrder
      cases ho : db.orders.find item.workOrderId with
      | none => exact .pure _ fun _ hw => hw
      | some o => exact wellFormed_saveOrder (hlinked o (Table.mem_of_find ho))

theorem wellFormed_of_drags {assets : Assets} {start db : Store} {ds : List Drag} (hstart : WellFormed assets start)
    (h : Run DragStep start ds db) : WellFormed assets db := by
  refine Run.invariant (fun _ => WellFormed assets) hstart ?_ h
  rintro _ db₁ d _ hdb rfl
  exact (wellFormed_patchItem assets d.env d.scheduleId d.itemId d.data).serve (atomic_patchItem _ _ _ _) hdb hdb

/-- After any drags: the conflicts that the next one reports are those that
there are, exactly if none of them lies within one slot. -/
theorem drag_report_iff {assets : Assets} {start db : Store} {ds : List Drag} (hstart : WellFormed assets start)
    (hrun : Run DragStep start ds db) (d : Drag) {moved : ScheduleItem} {items : List ScheduleItem}
    {report : List Conflict} (hanswer : d.Answers assets db moved items report) :
    report.map (fun c => (c.first, c.second)) = trueConflicts assets (d.after db) items ↔
      ∀ schedule, db.schedules.find d.scheduleId = some schedule →
        SlotsTell assets (d.after db) schedule.horizonStart items := by
  obtain ⟨-, hitems, schedule, hschedule, rfl⟩ := hanswer
  have hafter : WellFormed assets (d.after db) := wellFormed_of_drags hstart (hrun.snoc rfl)
  have hranged : ∀ i ∈ items, i.startsAt < i.endsAt := fun i hi =>
    hafter.ranged i (Table.mem_select.mp (hitems.all.mem_iff.mp hi)).1
  rw [conflictsIn_iff hafter.linked hranged hitems.sorted]
  constructor
  · rintro h schedule' hschedule'
    rwa [← Option.some.inj (hschedule.symm.trans hschedule')]
  · exact fun h => h schedule hschedule

/-! Two orders on one line, the first of them to the fiftieth minute, and the
second one dragged into its time. -/

def slotPlan : Schedule := ⟨5, 0, 0, minutes 240, {}, none, none, none, true⟩

def firstItem : ScheduleItem := ⟨1, 5, 7, some 2, 0, minutes 50, some 0, some 0, false⟩

def secondItem (start : Instant) : ScheduleItem := ⟨2, 5, 8, none, start, start + minutes 60, some 0, some 0, true⟩

def twoItems : Store :=
  { twoOrders with
    schedules := ⟨[slotPlan], by decide⟩
    items := ⟨[firstItem, { secondItem (minutes 120) with manuallyAdjusted := false }], by decide⟩ }

def dragTo (start : Instant) : Drag := ⟨office 0 6, 5, 2, { startsAt := some start }⟩

theorem twoItems_wellFormed : WellFormed lineOfTwo twoItems := by
  constructor <;> decide

theorem dragTo_forty : (dragTo (minutes 40)).Answers lineOfTwo twoItems (secondItem (minutes 40))
    [firstItem, secondItem (minutes 40)] [⟨7, 8, .line⟩] :=
  ⟨rfl, ⟨.of_eq rfl, by decide⟩, slotPlan, rfl, by decide⟩

theorem dragTo_fortySeven : (dragTo (minutes 47)).Answers lineOfTwo twoItems (secondItem (minutes 47))
    [firstItem, secondItem (minutes 47)] [] :=
  ⟨rfl, ⟨.of_eq rfl, by decide⟩, slotPlan, rfl, by decide⟩

theorem drag_report_forty :
    [(7, 8)] = trueConflicts lineOfTwo ((dragTo (minutes 40)).after twoItems) [firstItem, secondItem (minutes 40)] := by
  refine (drag_report_iff twoItems_wellFormed .nil (dragTo (minutes 40)) dragTo_forty).mpr fun schedule hschedule => ?_
  obtain rfl : slotPlan = schedule := Option.some.inj hschedule
  unfold SlotsTell
  decide

theorem drag_unreported : ¬ ∀ assets start db ds, WellFormed assets start → Run DragStep start ds db →
    ∀ d moved items report, Drag.Answers d assets db moved items report →
      report.map (fun c => (c.first, c.second)) = trueConflicts assets (d.after db) items := by
  intro h
  exact absurd (h lineOfTwo twoItems twoItems [] twoItems_wellFormed .nil _ _ _ _ dragTo_fortySeven) (by decide)

end TwinVoice.Maintenance
