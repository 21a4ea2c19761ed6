import Mathlib.Algebra.Group.Nat.Defs
import Mathlib.Data.List.Sort
import TwinVoice.Lib.Csv
import TwinVoice.Lib.Json
import TwinVoice.Lib.Xml
import TwinVoice.Maintenance.Model

/-! # The export of work orders

One page of the listing is written as CSV, as JSON or as a list of maintenance
work requests in XML. What a format writes of the orders on the page is read
back, in XML but for the line ends and the control characters of a title. The
page ends after 200 orders. -/

namespace TwinVoice.Maintenance

open TwinVoice.Lib

def WorkOrderType.name : WorkOrderType → String
  | .corrective => "corrective"
  | .preventive => "preventive"
  | .predictive => "predictive"

/-- `OPEN_STATUSES`. -/
def openStatuses : List WorkOrderStatus := [.«open», .scheduled, .inProgress]

/-! ## The listing -/

structure OrderFilters where
  assetId : Option Uuid := none
  status : Option WorkOrderStatus := none
  type : Option WorkOrderType := none
  technicianId : Option Uuid := none
  openOnly : Bool := false

def OrderFilters.admits (f : OrderFilters) (o : WorkOrder) : Bool :=
  f.assetId.all (o.assetId = ·) && f.status.all (o.status = ·) && f.type.all (o.type = ·) &&
    f.technicianId.all (o.technicianId = some ·) && (!f.openOnly || o.status ∈ openStatuses)

/-- The orders that match a filter. A deleted one does not. -/
def matching (db : Store) (f : OrderFilters) : List WorkOrder :=
  db.orders.select fun o => o.deletedAt = none ∧ f.admits o

/-- `ORDER BY created_at DESC`. How it orders the rows of one instant is left
open. -/
structure NewestFirst where
  order : List WorkOrder → List WorkOrder
  perm : ∀ rows, (order rows).Perm rows
  sorted : ∀ rows, (order rows).Pairwise fun a b => b.createdAt ≤ a.createdAt

structure PageParams where
  page : Nat
  size : Nat

/-- The orders of a page, and how many match. -/
def listFiltered (newest : NewestFirst) (db : Store) (params : PageParams) (f : OrderFilters) :
    List WorkOrder × Nat :=
  (((newest.order (matching db f)).drop ((params.page - 1) * params.size)).take params.size, (matching db f).length)

/-! ## The texts of ids and times -/

def fixedDigits (base width n : Nat) : List Char :=
  (List.range width).reverse.map fun i => Nat.digitChar (n / base ^ i % base)

/-- `str` of an id. -/
def uuidText (id : Uuid) : String :=
  let hex := fixedDigits 16 32 id
  String.ofList (hex.take 8 ++ '-' :: (hex.drop 8).take 4 ++ '-' :: (hex.drop 12).take 4 ++
    '-' :: (hex.drop 16).take 4 ++ '-' :: hex.drop 20)

/-- The year, month and day of a day since the epoch. A year is counted from
March, so that the leap day is its last. -/
def civil (day : Int) : Nat × Nat × Nat :=
  let shifted := day + 719468
  let era := shifted / 146097
  let dayOfEra := shifted % 146097
  let yearOfEra := (dayOfEra - dayOfEra / 1460 + dayOfEra / 36524 - dayOfEra / 146096) / 365
  let dayOfYear := dayOfEra - (365 * yearOfEra + yearOfEra / 4 - yearOfEra / 100)
  let month := (5 * dayOfYear + 2) / 153
  let year := yearOfEra + era * 400 + if month < 10 then 0 else 1
  (year.toNat, (if month < 10 then month + 3 else month - 9).toNat, (dayOfYear - (153 * month + 2) / 5 + 1).toNat)

/-- `isoformat` of a time in a zone, whose offset from UTC is in minutes. -/
def isoformat (zone : Instant → Int) (t : Instant) : String :=
  let offset := zone t
  let micros := (t + minutes offset) % seconds 86400
  let second := (micros / 1000000).toNat
  let fraction := (micros % 1000000).toNat
  let (year, month, day) := civil ((t + minutes offset) / seconds 86400)
  String.ofList
    (fixedDigits 10 4 year ++ '-' :: fixedDigits 10 2 month ++ '-' :: fixedDigits 10 2 day ++
      'T' :: fixedDigits 10 2 (second / 3600) ++ ':' :: fixedDigits 10 2 (second / 60 % 60) ++
      ':' :: fixedDigits 10 2 (second % 60) ++ (if fraction = 0 then [] else '.' :: fixedDigits 10 6 fraction) ++
      (if offset < 0 then '-' else '+') :: fixedDigits 10 2 (offset.natAbs / 60) ++
      ':' :: fixedDigits 10 2 (offset.natAbs % 60))

/-! ## Rows -/

inductive Cell
  | int (n : Nat)
  | text (s : String)
  deriving DecidableEq

def Cell.str : Cell → String
  | .int n => toString n
  | .text s => s

def Cell.json : Cell → Json.Document
  | .int n => .int n
  | .text s => .str s

structure ExportRow where
  number : Nat
  assetId : String
  type : String
  priority : Nat
  title : String
  status : String
  plannedStart : String
  plannedEnd : String
  technicianId : String
  estDurationMin : Cell
  outcome : String

def ExportRow.items (r : ExportRow) : Dict String Cell :=
  [("number", .int r.number), ("asset_id", .text r.assetId), ("type", .text r.type), ("priority", .int r.priority),
    ("title", .text r.title), ("status", .text r.status), ("planned_start", .text r.plannedStart),
    ("planned_end", .text r.plannedEnd), ("technician_id", .text r.technicianId),
    ("est_duration_min", r.estDurationMin), ("outcome", .text r.outcome)]

def exportRow (zone : Instant → Int) (o : WorkOrder) : ExportRow where
  number := o.number
  assetId := uuidText o.assetId
  type := o.type.name
  priority := o.priority
  title := o.title
  status := o.status.name
  plannedStart := o.plannedStart.elim "" (isoformat zone)
  plannedEnd := o.plannedEnd.elim "" (isoformat zone)
  technicianId := o.technicianId.elim "" uuidText
  -- `or`: no duration and a duration of zero are the same to it
  estDurationMin := (o.estDurationMin.filter (· ≠ 0)).elim (.text "") .int
  outcome := o.outcome.getD ""

/-! ## Formats -/

inductive ExportFormat
  | csv | json | b2mml
  deriving DecidableEq

def ExportRow.texts (r : ExportRow) : Dict String String := r.items.map fun e => (e.1, e.2.str)

def ExportRow.json (r : ExportRow) : Json.Document := .obj (r.items.map fun e => (e.1, e.2.json))

def tag (s : String) (h : s.toList ≠ [] ∧ s.toList.all Xml.isNameChar = true := by decide) : Xml.Name := ⟨s.toList, h⟩

def leaf (name : Xml.Name) (text : String) : Xml.Element := { tag := name, text }

def orderId (number : Nat) : String := "WO-" ++ String.ofList ((Nat.toDigits 10 number).leftpad 6 '0')

def maintenanceWorkRequest (row : ExportRow) : Xml.Element where
  tag := tag "MaintenanceWorkRequest"
  children := [
    leaf (tag "ID") (orderId row.number),
    leaf (tag "Description") row.title,
    leaf (tag "WorkType") row.type,
    leaf (tag "Priority") (toString row.priority),
    leaf (tag "State") row.status,
    { tag := tag "RequestedSchedule",
      children := [leaf (tag "StartTime") row.plannedStart, leaf (tag "EndTime") row.plannedEnd] },
    leaf (tag "EquipmentID") row.assetId]

def maintenanceWorkRequestList (rows : List ExportRow) : Xml.Element where
  tag := tag "MaintenanceWorkRequestList"
  attributes := [(tag "xmlns", "http://www.mesa.org/xml/B2MML-V0600")]
  children := rows.map maintenanceWorkRequest

def b2mml (rows : List ExportRow) : String := Xml.document (maintenanceWorkRequestList rows)

/-- The names of the first row's columns. -/
def fieldNames : List ExportRow → List String
  | [] => ["number"]
  | row :: _ => row.items.map Prod.fst

/-- The content, its media type and the name of the file. `none` is the
`ValueError` of a row with a key that is no field name. -/
def exportOrders (zone : Instant → Int) (newest : NewestFirst) (db : Store) (fmt : ExportFormat) (f : OrderFilters) :
    Option (String × String × String) :=
  let orders := (listFiltered newest db ⟨1, 200⟩ f).1
  let rows := orders.map (exportRow zone)
  match fmt with
  | .json => some (Json.write (.arr (rows.map ExportRow.json)), "application/json", "work-orders.json")
  | .b2mml => some (b2mml rows, "application/xml", "work-orders.xml")
  | .csv => (Csv.writeNamed (fieldNames rows) (rows.map ExportRow.texts)).map (·, "text/csv", "work-orders.csv")

/-! ## A complete export -/

/-- The values of an order's fields, as texts but for the numbers. A field that
is not set is empty. -/
def orderFields (zone : Instant → Int) (o : WorkOrder) : ExportRow where
  number := o.number
  assetId := uuidText o.assetId
  type := o.type.name
  priority := o.priority
  title := o.title
  status := o.status.name
  plannedStart := o.plannedStart.elim "" (isoformat zone)
  plannedEnd := o.plannedEnd.elim "" (isoformat zone)
  technicianId := o.technicianId.elim "" uuidText
  estDurationMin := o.estDurationMin.elim (.text "") .int
  outcome := o.outcome.elim "" id

/-- What a reader of the format finds in a content is these rows. -/
def Lists : ExportFormat → String → List ExportRow → Prop
  | .csv, content, rows => Csv.readNamed content = some (rows.map ExportRow.texts)
  | .json, content, rows => Json.loads content = some (.arr (rows.map ExportRow.json))
  | .b2mml, content, rows => Xml.read content = some (Xml.events (maintenanceWorkRequestList rows))

def Exports (zone : Instant → Int) (newest : NewestFirst) (db : Store) (f : OrderFilters) (fmt : ExportFormat)
    (rows : List ExportRow) : Prop :=
  ∃ found, exportOrders zone newest db fmt f = some found ∧ Lists fmt found.1 rows

/-- Each format lists every order that matches once, with the values of its
fields. -/
def CompleteExport (zone : Instant → Int) (newest : NewestFirst) (db : Store) (f : OrderFilters) : Prop :=
  ∀ fmt, ∃ listed : List WorkOrder, listed.Perm (matching db f) ∧
    Exports zone newest db f fmt (listed.map (orderFields zone))

/-! ## What a format lists -/

def exportedRows (zone : Instant → Int) (newest : NewestFirst) (db : Store) (f : OrderFilters) : List ExportRow :=
  (listFiltered newest db ⟨1, 200⟩ f).1.map (exportRow zone)

section
variable {zone : Instant → Int} {newest : NewestFirst} {db : Store} {f : OrderFilters} {rows : List ExportRow}

theorem readNamed_rows (rows : List ExportRow) :
    (Csv.writeNamed (fieldNames rows) (rows.map ExportRow.texts)).bind Csv.readNamed =
      some (rows.map ExportRow.texts) := by
  cases rows with
  | nil => exact Csv.readNamed_writeNamed (List.nodup_singleton _) (List.cons_ne_nil _ _) nofun
  | cons row rows =>
    have hnodup : (fieldNames (row :: rows)).Nodup := by
      rw [fieldNames, ExportRow.items]
      simp
    refine Csv.readNamed_writeNamed hnodup (List.cons_ne_nil _ _) fun entry hentry => ?_
    obtain ⟨r, -, rfl⟩ := List.mem_map.mp hentry
    rfl

theorem exports_csv_iff :
    Exports zone newest db f .csv rows ↔
      (exportedRows zone newest db f).map ExportRow.texts = rows.map ExportRow.texts := by
  have hread := readNamed_rows (exportedRows zone newest db f)
  obtain ⟨content, hwritten, hcontent⟩ := Option.bind_eq_some_iff.mp hread
  have hexport : exportOrders zone newest db .csv f = some (content, "text/csv", "work-orders.csv") :=
    congrArg (Option.map _) hwritten
  constructor
  · intro ⟨found, hfound, hlists⟩
    rw [hexport, Option.some.injEq] at hfound
    subst hfound
    exact Option.some.inj (hcontent.symm.trans hlists)
  · intro h
    exact ⟨_, hexport, hcontent.trans (congrArg some h)⟩

theorem exports_json_iff :
    Exports zone newest db f .json rows ↔
      (exportedRows zone newest db f).map ExportRow.json = rows.map ExportRow.json := by
  have hread := Json.loads_write (.arr ((exportedRows zone newest db f).map ExportRow.json))
  constructor
  · intro ⟨found, hfound, hlists⟩
    rw [exportOrders, Option.some.injEq] at hfound
    subst hfound
    exact Json.Document.arr.inj (Option.some.inj (hread.symm.trans hlists))
  · intro h
    exact ⟨_, rfl, hread.trans (congrArg (some ∘ Json.Document.arr) h)⟩

theorem exports_b2mml_iff :
    Exports zone newest db f .b2mml rows ↔
      Xml.read (b2mml (exportedRows zone newest db f)) = some (Xml.events (maintenanceWorkRequestList rows)) := by
  constructor
  · intro ⟨found, hfound, hlists⟩
    rw [exportOrders, Option.some.injEq] at hfound
    subst hfound
    exact hlists
  · intro h
    exact ⟨_, rfl, h⟩

end

/-! ## The texts of a request -/

def isPrintable (c : Char) : Bool := ' '.toNat ≤ c.toNat && c.toNat ≤ '~'.toNat

theorem isReadable_of_printable {cs : List Char} (h : cs.all isPrintable = true) :
    Xml.isReadable (String.ofList cs) = true := by
  have hprintable : ∀ c ∈ cs, ' '.toNat ≤ c.toNat ∧ c.toNat ≤ '~'.toNat := fun c hc => by
    simpa [isPrintable] using List.all_eq_true.mp h c hc
  rw [Xml.isReadable, String.toList_ofList, Bool.and_eq_true, List.all_eq_true, decide_eq_true_eq]
  refine ⟨fun c hc => ?_, fun hmem => absurd (hprintable _ hmem).1 (by decide)⟩
  obtain ⟨hlow, hhigh⟩ := hprintable c hc
  have hbelow : c.toNat ≤ 0xd7ff := hhigh.trans (by decide)
  simp [Xml.isXmlChar, hbelow, show 32 ≤ c.toNat from hlow]

theorem isPrintable_digitChar {n : Nat} (h : n < 16) : isPrintable (Nat.digitChar n) = true := by
  revert n
  decide

theorem all_fixedDigits {base : Nat} (h : 0 < base ∧ base ≤ 16) (width n : Nat) :
    (fixedDigits base width n).all isPrintable = true := by
  rw [List.all_eq_true]
  intro c hc
  obtain ⟨i, -, rfl⟩ := List.mem_map.mp hc
  exact isPrintable_digitChar ((Nat.mod_lt _ h.1).trans_le h.2)

theorem all_toDigits (n : Nat) : (Nat.toDigits 10 n).all isPrintable = true := by
  rw [List.all_eq_true]
  intro c hc
  have hdigit := Nat.isDigit_of_mem_toDigits (by decide) (by decide) hc
  simp only [Char.isDigit, Bool.and_eq_true, decide_eq_true_eq] at hdigit
  have hlow : '0'.toNat ≤ c.toNat := UInt32.le_iff_toNat_le.mp hdigit.1
  have hhigh : c.toNat ≤ '9'.toNat := UInt32.le_iff_toNat_le.mp hdigit.2
  rw [isPrintable, Bool.and_eq_true, decide_eq_true_eq, decide_eq_true_eq]
  exact ⟨le_trans (by decide) hlow, le_trans hhigh (by decide)⟩

theorem isReadable_isoformat (zone : Instant → Int) (t : Instant) : Xml.isReadable (isoformat zone t) = true := by
  have hdigits (width n : Nat) : (fixedDigits 10 width n).all isPrintable = true := all_fixedDigits (by decide) width n
  have hmarks : ['-', 'T', ':', '.', '+'].all isPrintable = true := by decide
  simp only [List.all_cons, Bool.and_eq_true] at hmarks
  refine isReadable_of_printable ?_
  have hfraction (n : Nat) : (if n = 0 then [] else '.' :: fixedDigits 10 6 n).all isPrintable = true := by
    split
    · rfl
    · simp [hdigits, hmarks]
  have hsign (offset : Int) : isPrintable (if offset < 0 then '-' else '+') = true := by
    split <;> simp [hmarks]
  simp only [List.all_append, List.all_cons, hdigits, hmarks, hfraction, hsign, Bool.and_self]

theorem isReadable_uuidText (id : Uuid) : Xml.isReadable (uuidText id) = true := by
  have hhex := all_fixedDigits (show 0 < 16 ∧ 16 ≤ 16 by decide) 32 id
  have htake {cs : List Char} (h : cs.all isPrintable = true) (k : Nat) : (cs.take k).all isPrintable = true :=
    List.all_eq_true.mpr fun c hc => List.all_eq_true.mp h c (List.mem_of_mem_take hc)
  have hdrop (k : Nat) : ((fixedDigits 16 32 id).drop k).all isPrintable = true :=
    List.all_eq_true.mpr fun c hc => List.all_eq_true.mp hhex c (List.mem_of_mem_drop hc)
  have hmark : isPrintable '-' = true := by decide
  refine isReadable_of_printable ?_
  simp only [List.all_append, List.all_cons, htake hhex, hdrop, htake (hdrop _), hmark, Bool.and_self]

theorem isReadable_orderId (number : Nat) : Xml.isReadable (orderId number) = true := by
  have hmark : "WO-".toList.all isPrintable = true := by decide
  have hpad (n : Nat) : (List.replicate n '0').all isPrintable = true := by
    rw [List.all_eq_true]
    intro c hc
    rw [List.eq_of_mem_replicate hc]
    rfl
  have hall : ("WO-".toList ++ (Nat.toDigits 10 number).leftpad 6 '0').all isPrintable = true := by
    rw [List.leftpad, List.all_append, List.all_append, hmark, hpad, all_toDigits]
    rfl
  have htext : orderId number = String.ofList ("WO-".toList ++ (Nat.toDigits 10 number).leftpad 6 '0') := by
    rw [String.ofList_append, String.ofList_toList, orderId]
  rw [htext]
  exact isReadable_of_printable hall

theorem readable_leaf (name : Xml.Name) (text : String) :
    (Xml.events (leaf name text)).all Xml.Event.readable = Xml.isReadable text := by
  rw [leaf, Xml.events]
  split
  · rename_i hempty
    subst hempty
    rfl
  · simp [Xml.eventsAll, Xml.Event.readable, Xml.Event.legal]

/-- All texts of a request but its title are made of ASCII. -/
theorem readable_maintenanceWorkRequest (zone : Instant → Int) (o : WorkOrder) :
    (Xml.events (maintenanceWorkRequest (orderFields zone o))).all Xml.Event.readable = Xml.isReadable o.title := by
  have hpriority : Xml.isReadable o.priority.repr = true := by
    rw [Nat.repr_eq_ofList_toDigits]
    exact isReadable_of_printable (all_toDigits _)
  have htype : Xml.isReadable o.type.name = true := by cases o.type <;> rfl
  have hstatus : Xml.isReadable o.status.name = true := by cases o.status <;> rfl
  have htime (t : Option Instant) : Xml.isReadable (t.elim "" (isoformat zone)) = true := by
    cases t with
    | none => rfl
    | some t => exact isReadable_isoformat zone t
  simp [maintenanceWorkRequest, orderFields, Xml.events, Xml.eventsAll, readable_leaf, isReadable_orderId,
    hpriority, htype, hstatus, htime, isReadable_uuidText, Xml.Event.readable, Xml.Event.legal]

theorem readable_maintenanceWorkRequestList (zone : Instant → Int) (orders : List WorkOrder) :
    (Xml.events (maintenanceWorkRequestList (orders.map (orderFields zone)))).all Xml.Event.readable =
      orders.all fun o => Xml.isReadable o.title := by
  have hname : "http://www.mesa.org/xml/B2MML-V0600".toList.all Xml.isXmlChar = true := by decide
  have hchildren : (Xml.eventsAll ((orders.map (orderFields zone)).map maintenanceWorkRequest)).all
      Xml.Event.readable = orders.all fun o => Xml.isReadable o.title := by
    rw [Xml.all_eventsAll, List.all_map, List.all_map]
    exact congrArg orders.all (funext (readable_maintenanceWorkRequest zone))
  rw [maintenanceWorkRequestList, Xml.events, List.all_cons, List.all_append, List.all_append, if_pos rfl, hchildren]
  simp only [Xml.Event.readable, Xml.Event.legal, List.map_cons, List.map_nil, List.all_cons, List.all_nil, hname,
    Bool.and_true, Bool.true_and]

/-! ## When an export is complete -/

section
variable {zone : Instant → Int} {newest : NewestFirst} {db : Store} {f : OrderFilters}

theorem exportRow_eq {o : WorkOrder} (h : o.estDurationMin ≠ some 0) : exportRow zone o = orderFields zone o := by
  have hduration : o.estDurationMin.filter (· ≠ 0) = o.estDurationMin := by
    cases hn : o.estDurationMin with
    | none => rfl
    | some n =>
      rw [hn, ne_eq, Option.some.injEq] at h
      exact Option.filter_some_pos (decide_eq_true h)
  have houtcome : o.outcome.getD "" = o.outcome.elim "" id := by
    cases o.outcome <;> rfl
  rw [exportRow, hduration, houtcome, orderFields]

/-- A duration of zero is in no row that is exported. -/
theorem exportRow_duration (o : WorkOrder) : (exportRow zone o).estDurationMin ≠ .int 0 := by
  have hduration : (exportRow zone o).estDurationMin = (o.estDurationMin.filter (· ≠ 0)).elim (.text "") .int := rfl
  rw [hduration]
  cases o.estDurationMin with
  | none => exact nofun
  | some n =>
    by_cases hn : n = 0
    · subst hn
      exact nofun
    · have hkept : (some n).filter (· ≠ 0) = some n := Option.filter_some_pos (decide_eq_true hn)
      rw [hkept]
      exact fun hzero => hn (Cell.int.inj hzero)

theorem estDurationMin_of_json {r r' : ExportRow} (h : r.json = r'.json) : r.estDurationMin = r'.estDurationMin := by
  have hitems := Json.Document.obj.inj h
  simp only [ExportRow.items, List.map_cons, List.map_nil, List.cons.injEq, Prod.mk.injEq] at hitems
  obtain ⟨-, -, -, -, -, -, -, -, -, ⟨-, hduration⟩, -⟩ := hitems
  cases hr : r.estDurationMin <;> cases hr' : r'.estDurationMin <;> rw [hr, hr'] at hduration
  · exact congrArg Cell.int (Int.ofNat.inj (Json.Document.int.inj hduration))
  · cases hduration
  · cases hduration
  · exact congrArg Cell.text (Json.Document.str.inj hduration)

theorem length_le_of_complete (h : CompleteExport zone newest db f) : (matching db f).length ≤ 200 := by
  obtain ⟨listed, hperm, hexports⟩ := h .csv
  have hlen := congrArg List.length (exports_csv_iff.mp hexports)
  simp only [exportedRows, listFiltered, List.length_map, List.length_take, hperm.length_eq, Nat.sub_self, Nat.zero_mul,
    List.drop_zero, (newest.perm _).length_eq] at hlen
  omega

theorem duration_of_complete (h : CompleteExport zone newest db f) {o : WorkOrder} (ho : o ∈ matching db f) :
    o.estDurationMin ≠ some 0 := by
  intro hzero
  obtain ⟨listed, hperm, hexports⟩ := h .json
  have hmem : (orderFields zone o).json ∈ (listed.map (orderFields zone)).map ExportRow.json :=
    List.mem_map_of_mem (List.mem_map_of_mem (hperm.mem_iff.mpr ho))
  rw [← exports_json_iff.mp hexports] at hmem
  obtain ⟨row, hrow, hjson⟩ := List.mem_map.mp hmem
  obtain ⟨o', -, rfl⟩ := List.mem_map.mp hrow
  refine exportRow_duration o' ((estDurationMin_of_json hjson).trans ?_)
  rw [orderFields, hzero]
  rfl

theorem title_of_complete (h : CompleteExport zone newest db f) {o : WorkOrder} (ho : o ∈ matching db f) :
    Xml.isReadable o.title = true := by
  obtain ⟨listed, hperm, hexports⟩ := h .b2mml
  have hreadable := Xml.read_readable (exports_b2mml_iff.mp hexports)
  rw [readable_maintenanceWorkRequestList, List.all_eq_true] at hreadable
  exact hreadable o (hperm.mem_iff.mpr ho)

/-- An export lists each order that matches once, with the values of its
fields, exactly if one page holds them all, none has a duration of zero, and
their titles are texts of XML without a carriage return. -/
theorem completeExport_iff (zone : Instant → Int) (newest : NewestFirst) (db : Store) (f : OrderFilters) :
    CompleteExport zone newest db f ↔ (matching db f).length ≤ 200 ∧
      ∀ o ∈ matching db f, o.estDurationMin ≠ some 0 ∧ Xml.isReadable o.title = true := by
  constructor
  · intro h
    exact ⟨length_le_of_complete h, fun o ho => ⟨duration_of_complete h ho, title_of_complete h ho⟩⟩
  · intro ⟨hlen, heach⟩
    have hperm : (newest.order (matching db f)).Perm (matching db f) := newest.perm _
    have hpage : (listFiltered newest db ⟨1, 200⟩ f).1 = newest.order (matching db f) := by
      have hall : (newest.order (matching db f)).length ≤ 200 := hperm.length_eq.trans_le hlen
      rw [listFiltered, Nat.sub_self, Nat.zero_mul, List.drop_zero, List.take_of_length_le hall]
    have hrows : exportedRows zone newest db f = (newest.order (matching db f)).map (orderFields zone) := by
      rw [exportedRows, hpage]
      exact List.map_congr_left fun o ho => exportRow_eq (heach o (hperm.mem_iff.mp ho)).1
    intro fmt
    refine ⟨newest.order (matching db f), hperm, ?_⟩
    cases fmt with
    | csv => exact exports_csv_iff.mpr (congrArg _ hrows)
    | json => exact exports_json_iff.mpr (congrArg _ hrows)
    | b2mml =>
      rw [exports_b2mml_iff, hrows, b2mml, Xml.read_document_iff, readable_maintenanceWorkRequestList,
        List.all_eq_true]
      exact fun o ho => (heach o (hperm.mem_iff.mp ho)).2

end

/-! ## More orders than a page holds -/

/-- A stable sort. -/
def stableNewest : NewestFirst where
  order rows := rows.mergeSort fun a b => b.createdAt ≤ a.createdAt
  perm rows := List.mergeSort_perm rows _
  sorted rows := by
    refine (List.pairwise_mergeSort ?_ ?_ rows).imp fun h => of_decide_eq_true h
    · intro a b c hab hbc
      exact decide_eq_true ((of_decide_eq_true hbc).trans (of_decide_eq_true hab))
    · intro a b
      rw [Bool.or_eq_true, decide_eq_true_eq, decide_eq_true_eq]
      exact le_total _ _

/-- The inspections that a planner opens, one a minute. -/
def inspection (n : Nat) : WorkOrder where
  id := n
  number := n
  assetId := 1
  componentId := none
  type := .preventive
  priority := 3
  title := "Inspection"
  description := none
  failureModeId := none
  predictionId := none
  explanationId := none
  status := .«open»
  plannedStart := none
  plannedEnd := none
  actualStart := none
  actualEnd := none
  technicianId := none
  parts := []
  estDurationMin := none
  estCost := none
  riskBeforeSlot := none
  createdBy := none
  createdVia := .ui
  outcome := none
  predictionWasCorrect := none
  createdAt := minutes n
  updatedAt := minutes n
  deletedAt := none

def inspections (count : Nat) : Store where
  orders := ⟨(List.range count).map inspection, by
    rw [List.map_map]
    exact (List.map_id (List.range count)).symm ▸ List.nodup_range⟩
  tasks := []
  schedules := .empty
  items := .empty

theorem two_hundred_one_inspections : ¬ CompleteExport (fun _ => 0) stableNewest (inspections 201) {} := by
  intro h
  have hlen := length_le_of_complete h
  have hall : matching (inspections 201) {} = (List.range 201).map inspection := by
    refine List.filter_eq_self.mpr fun o ho => ?_
    obtain ⟨n, -, rfl⟩ := List.mem_map.mp ho
    rfl
  rw [hall, List.length_map, List.length_range] at hlen
  exact absurd hlen (by decide)

end TwinVoice.Maintenance
