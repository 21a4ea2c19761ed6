import TwinVoice.Lib.Table
import TwinVoice.Lib.Transition
import TwinVoice.Reports.Data

/-! # The archive of reports

A request queues a row. A worker that the broker hands the row's task to reads
the row, says that it is running, composes and renders the report, writes the
file and says on the row how it ended. The broker may hand over a task again,
also to a worker next to one that is still at it, and a worker may be lost
between any two of its statements. A file is written piece by piece. -/

namespace TwinVoice.Reports.Generation

open TwinVoice.Lib TwinVoice.Lib.Transition TwinVoice.Xai

/-! ## Rows and files -/

inductive Role
  | technician | manager | engineer | admin
  deriving DecidableEq

def formatText : ReportFormat → String
  | .pdf => "pdf"
  | .docx => "docx"
  | .md => "md"
  | .html => "html"

/-- A row of `reports`. -/
structure Row where
  id : Uuid
  report : Report
  data : Option Data
  summaryText : Option String
  summaryAudit : Option SummaryAudit
  fileUri : Option String
  error : Option String
  createdAt : Instant
  finishedAt : Option Instant

instance : Keyed Row Uuid := ⟨Row.id⟩

def Row.status (row : Row) : String := row.report.status

/-- How ids and dates are written, and where the archive is. -/
structure Names where
  archiveRoot : String
  uuid : Uuid → String
  year : Instant → String
  month : Instant → String
  day : Instant → String

/-- Two ids are written differently, in hexadecimal digits and hyphens. -/
structure Names.Lawful (n : Names) : Prop where
  inj : ∀ i j, n.uuid i = n.uuid j → i = j
  plain : ∀ i, '/' ∉ (n.uuid i).toList ∧ '.' ∉ (n.uuid i).toList

/-- `_archive_path`, of a report with this `id` that was created then. -/
def archivePath (n : Names) (id : Uuid) (createdAt : Instant) (fmt : ReportFormat) : String :=
  n.archiveRoot ++ "/" ++ n.year createdAt ++ "/" ++ n.month createdAt ++ "/" ++ (n.uuid id ++ "." ++ formatText fmt)

/-- What follows the last of these characters. -/
theorem eq_of_last {c : Char} {s t b d : List Char} (hb : c ∉ b) (hd : c ∉ d) (h : s ++ c :: b = t ++ c :: d) : b = d := by
  rcases List.append_eq_append_iff.mp h with ⟨u, rfl, hu⟩ | ⟨u, rfl, hu⟩
  · cases u with
    | nil => exact (List.cons.inj hu).2
    | cons x u =>
      obtain ⟨-, rfl⟩ := List.cons.inj hu
      exact absurd (List.mem_append_right u List.mem_cons_self) hb
  · cases u with
    | nil => exact (List.cons.inj hu).2.symm
    | cons x u =>
      obtain ⟨-, rfl⟩ := List.cons.inj hu
      exact absurd (List.mem_append_right u List.mem_cons_self) hd

theorem formatText_plain (fmt : ReportFormat) : '/' ∉ (formatText fmt).toList ∧ '.' ∉ (formatText fmt).toList := by
  cases fmt <;> decide

/-- Two reports have no path in common. -/
theorem id_of_archivePath {n : Names} (hn : n.Lawful) {id id' : Uuid} {createdAt createdAt' : Instant}
    {fmt fmt' : ReportFormat} (h : archivePath n id createdAt fmt = archivePath n id' createdAt' fmt') : id = id' := by
  have hpath (id : Uuid) (createdAt : Instant) (fmt : ReportFormat) : (archivePath n id createdAt fmt).toList =
      (n.archiveRoot ++ "/" ++ n.year createdAt ++ "/" ++ n.month createdAt).toList ++
        '/' :: ((n.uuid id).toList ++ '.' :: (formatText fmt).toList) := by
    simp [archivePath]
  have hname (id : Uuid) (fmt : ReportFormat) : '/' ∉ (n.uuid id).toList ++ '.' :: (formatText fmt).toList := by
    simp [(hn.plain id).1, (formatText_plain fmt).1]
  have hlast := congrArg String.toList h
  rw [hpath, hpath] at hlast
  have hfile := eq_of_last (hname id fmt) (hname id' fmt') hlast
  have hext := eq_of_last (formatText_plain fmt).2 (formatText_plain fmt').2 hfile
  rw [hext] at hfile
  exact hn.inj _ _ (String.toList_inj.mp (List.append_cancel_right hfile))

/-! ## Rendering -/

structure Context where
  reportId : String
  type : ReportType
  title : String
  scopeName : String
  periodStart : Instant
  periodEnd : Instant
  generatedAt : Instant
  data : Data
  charts : List (String × String)
  summaryText : String
  summaryAudit : SummaryAudit
  llmModel : String
  lang : String

/-- The builders of `report_data`, on the database as a worker finds it. -/
structure Builders where
  machineHealth : Uuid → Instant → Instant → Except Failure (MachineHealth Double)
  weeklyMaintenance : Scope → Uuid → Instant → Instant → Except Failure (WeeklyMaintenance Double)
  energy : Scope → Uuid → Instant → Instant → Except Failure (EnergyUse Double)
  benchmark : Instant → Instant → Except Failure BenchmarkFigures
  latestFailureAt : Uuid → Option Instant
  incident : Uuid → Instant → Except Failure Incident
  scopeName : Scope → Uuid → String

/-- What a worker works with: the builders, the texts, the paraphrase of the model if there is one, the charts, and the
writers of the formats. `pdf` is nothing where the libraries of the paginator are missing or fail. -/
structure Tools where
  builders : Builders
  texts : Texts
  repr : Data → String
  iso : Instant → String
  candidate : Option String
  charts : ReportType → Data → List (String × String)
  llmModel : String
  renderMarkdown : Context → Except Failure (List UInt8)
  renderDocx : Context → Except Failure (List UInt8)
  renderHtml : Context → Except Failure (List UInt8)
  renderPdf : List UInt8 → Option (List UInt8)

/-- `_assemble`. -/
def assemble (b : Builders) (r : Report) : Except Failure Figures :=
  match r.type with
  | .machineHealth => (b.machineHealth r.scopeId r.periodStart r.periodEnd).map .machineHealth
  | .weeklyMaintenance => (b.weeklyMaintenance r.scope r.scopeId r.periodStart r.periodEnd).map .weeklyMaintenance
  | .energy => (b.energy r.scope r.scopeId r.periodStart r.periodEnd).map .energy
  | .benchmark => (b.benchmark r.periodStart r.periodEnd).map .benchmark
  | .incident => (b.incident r.scopeId ((b.latestFailureAt r.scopeId).getD r.periodEnd)).map .incident

def title : ReportType → String
  | .machineHealth => "Machine health report"
  | .weeklyMaintenance => "Weekly maintenance report"
  | .energy => "Energy report"
  | .benchmark => "Model benchmark report"
  | .incident => "Incident report"

/-- The bytes, and the format that they are in. -/
def render (t : Tools) (context : Context) : ReportFormat → Except Failure (List UInt8 × ReportFormat)
  | .md => (t.renderMarkdown context).map fun bytes => (bytes, .md)
  | .docx => (t.renderDocx context).map fun bytes => (bytes, .docx)
  | .html => (t.renderHtml context).map fun html => (html, .html)
  | .pdf => (t.renderHtml context).map fun html =>
    match t.renderPdf html with
    | some bytes => (bytes, .pdf)
    | none => (html, .html)

/-- A report that has been rendered. -/
structure Output where
  context : Context
  content : List UInt8
  produced : ReportFormat

/-- `generate`, from `_assemble` to `render`, for the row as it was read. -/
def produce (n : Names) (t : Tools) (row : Row) (generatedAt : Instant) : Except Failure Output := do
  let figures ← assemble t.builders row.report
  let data := figures.data t.iso
  let (text, audit) ← compose t.texts t.repr row.report.type data t.candidate
  let context : Context :=
    { reportId := n.uuid row.id
      type := row.report.type
      title := title row.report.type
      scopeName := t.builders.scopeName row.report.scope row.report.scopeId
      periodStart := row.report.periodStart
      periodEnd := row.report.periodEnd
      generatedAt := generatedAt
      data := data
      charts := t.charts row.report.type data
      summaryText := text
      summaryAudit := audit
      llmModel := t.llmModel
      lang := "en" }
  let (content, produced) ← render t context row.report.format
  return ⟨context, content, produced⟩

/-! ## What is written to the row -/

/-- A column is written if its value is not the one that was read. -/
def assign {α : Type} [DecidableEq α] (read new current : α) : α := if new = read then current else new

/-- `report.status = "running"`. -/
def begin (read row : Row) : Row :=
  { row with report := { row.report with status := assign read.status "running" row.status } }

theorem begin_key (read row : Row) : Keyed.key (begin read row) = Keyed.key row := rfl

/-- The columns of a report that is done; `same` compares figures. The status that the session knows is running. -/
def finish (same : Data → Data → Bool) (n : Names) (read : Row) (o : Output) (now : Instant) (row : Row) : Row :=
  { row with
    data := if read.data.any (same o.context.data) then row.data else some o.context.data
    summaryText := assign read.summaryText (some o.context.summaryText) row.summaryText
    summaryAudit := assign read.summaryAudit (some o.context.summaryAudit) row.summaryAudit
    report := { row.report with format := assign read.report.format o.produced row.report.format, status := "done" }
    fileUri := assign read.fileUri (some (archivePath n read.id read.createdAt o.produced)) row.fileUri
    error := assign read.error none row.error
    finishedAt := assign read.finishedAt (some now) row.finishedAt }

theorem finish_key (same : Data → Data → Bool) (n : Names) (read : Row) (o : Output) (now : Instant) (row : Row) :
    Keyed.key (finish same n read o now row) = Keyed.key row := rfl

def fail (read : Row) (message : String) (now : Instant) (row : Row) : Row :=
  { row with
    report := { row.report with status := "failed" }
    error := assign read.error (some (String.ofList (message.toList.take 2000))) row.error
    finishedAt := assign read.finishedAt (some now) row.finishedAt }

theorem fail_key (read : Row) (message : String) (now : Instant) (row : Row) :
    Keyed.key (fail read message now row) = Keyed.key row := rfl

/-! ## The workers -/

/-- What a worker does next. -/
inductive Stage
  | read
  | running
  | rendered (o : Output)
  | writing (o : Output)
  | written (o : Output)
  | raised (message : String)

structure Job where
  row : Row
  stage : Stage

/-- The database, the archive and what each worker is at. -/
structure Archive where
  rows : Table Row
  files : String → Option (List UInt8)
  jobs : Nat → Option Job

def empty : Archive := ⟨Table.empty, fun _ => none, fun _ => none⟩

inductive Event
  | request (id : Uuid) (env : Environment) (payload : ReportCreate) (now createdAt : Instant) (via : String)
  | deliver (worker : Nat) (id : Uuid)
  | start (worker : Nat)
  | render (worker : Nat) (tools : Tools) (generatedAt : Instant)
  /-- The file is opened and empty. -/
  | create (worker : Nat)
  /-- So much of the content is in the file. -/
  | write (worker : Nat) (count : Nat)
  | close (worker : Nat)
  | ioError (worker : Nat) (message : String)
  | commit (worker : Nat) (now : Instant)
  | lose (worker : Nat)

/-- `str(exc)`. -/
def failureText : Failure → String
  | .problem p => p.text
  | .crash reason => reason

namespace Archive
variable (same : Data → Data → Bool) (n : Names)

def setJob (a : Archive) (worker : Nat) (job : Option Job) : Archive :=
  { a with jobs := Function.update a.jobs worker job }

def setFile (a : Archive) (path : String) (content : List UInt8) : Archive :=
  { a with files := Function.update a.files path (some content) }

/-- `UPDATE` of the columns that the session has changed. -/
def setRow (a : Archive) (id : Uuid) (f : Row → Row) (keepsKey : ∀ r : Row, Keyed.key (f r) = Keyed.key r) : Archive :=
  { a with rows := a.rows.modify id f keepsKey }

/-- `generate` as far as its first commit. -/
def deliver (a : Archive) (worker : Nat) (id : Uuid) : Archive :=
  match a.rows.find id with
  | none => a
  | some row => if row.status = "done" then a else a.setJob worker (some ⟨row, .read⟩)

def startJob (a : Archive) (worker : Nat) (row : Row) : Archive :=
  (a.setRow row.id (begin row) (begin_key row)).setJob worker (some ⟨row, .running⟩)

def renderJob (a : Archive) (worker : Nat) (row : Row) (tools : Tools) (generatedAt : Instant) : Archive :=
  a.setJob worker <| some <|
    match produce n tools row generatedAt with
    | .ok o => ⟨row, .rendered o⟩
    | .error e => ⟨row, .raised (failureText e)⟩

def writeJob (a : Archive) (worker : Nat) (row : Row) (o : Output) (content : List UInt8) (stage : Stage) : Archive :=
  (a.setFile (archivePath n row.id row.createdAt o.produced) content).setJob worker (some ⟨row, stage⟩)

def step (a : Archive) : Event → Option Archive
  | .request id env payload now createdAt via =>
    match Reports.request env payload now via with
    | .error _ => none
    | .ok report =>
      (a.rows.insert ⟨id, report, none, none, none, none, none, createdAt, none⟩).map fun rows => { a with rows := rows }
  | .deliver worker id =>
    match a.jobs worker with
    | none => some (a.deliver worker id)
    | some _ => none
  | .start worker =>
    match a.jobs worker with
    | some ⟨row, .read⟩ => some (a.startJob worker row)
    | _ => none
  | .render worker tools generatedAt =>
    match a.jobs worker with
    | some ⟨row, .running⟩ => some (a.renderJob n worker row tools generatedAt)
    | _ => none
  | .create worker =>
    match a.jobs worker with
    | some ⟨row, .rendered o⟩ => some (a.writeJob n worker row o [] (.writing o))
    | _ => none
  | .write worker count =>
    match a.jobs worker with
    | some ⟨row, .writing o⟩ => some (a.writeJob n worker row o (o.content.take count) (.writing o))
    | _ => none
  | .close worker =>
    match a.jobs worker with
    | some ⟨row, .writing o⟩ => some (a.writeJob n worker row o o.content (.written o))
    | _ => none
  | .ioError worker message =>
    match a.jobs worker with
    | some ⟨row, .rendered _⟩ | some ⟨row, .writing _⟩ => some (a.setJob worker (some ⟨row, .raised message⟩))
    | _ => none
  | .commit worker now =>
    match a.jobs worker with
    | some ⟨row, .written o⟩ =>
      some ((a.setRow row.id (finish same n row o now) (finish_key same n row o now)).setJob worker none)
    | some ⟨row, .raised message⟩ => some ((a.setRow row.id (fail row message now) (fail_key row message now)).setJob worker none)
    | _ => none
  | .lose worker => some (a.setJob worker none)

/-! ## Readers -/

/-- `visible_types`; nothing means every type. -/
def visibleTypes (roles : List Role) : Option (List ReportType) :=
  if .engineer ∈ roles ∨ .admin ∈ roles then none
  else if .technician ∈ roles then some [.machineHealth, .weeklyMaintenance, .incident]
  else if .manager ∈ roles then some [.machineHealth, .weeklyMaintenance, .energy, .incident]
  else some []

def mediaType : ReportFormat → String
  | .pdf => "application/pdf"
  | .docx => "application/vnd.openxmlformats-officedocument.wordprocessingml.document"
  | .md => "text/markdown; charset=utf-8"
  | .html => "text/html; charset=utf-8"

def filename (row : Row) : String :=
  row.report.type.text ++ "-" ++ n.year row.createdAt ++ n.month row.createdAt ++ n.day row.createdAt ++ "-" ++
    String.ofList ((n.uuid row.id).toList.take 8) ++ "." ++ formatText row.report.format

/-- The file of a report: its bytes, media type and name for a download. -/
def file (a : Archive) (roles : List Role) (id : Uuid) : Except Problem (List UInt8 × String × String) :=
  match a.rows.find id with
  | none => .error (.notFound ("Report " ++ n.uuid id ++ " not found"))
  | some row =>
    if (visibleTypes roles).any fun types => row.report.type ∉ types then
      .error (.forbidden "You do not have access to this report type")
    else
      match row.fileUri with
      | none => .error (.conflict ("That report is " ++ row.status))
      | some path =>
        if row.status ≠ "done" then .error (.conflict ("That report is " ++ row.status))
        else
          match a.files path with
          | none => .error (.notFound "The report file is no longer in the archive")
          | some content => .ok (content, mediaType row.report.format, filename n row)

end Archive

/-! ## What a step does -/

section
variable {same : Data → Data → Bool} {n : Names}

/-- A row that has just been queued. -/
def queued (id : Uuid) (report : Report) (createdAt : Instant) : Row :=
  ⟨id, report, none, none, none, none, none, createdAt, none⟩

/-- Everything that a step can be. -/
inductive Steps (same : Data → Data → Bool) (n : Names) (a : Archive) : Event → Archive → Prop
  | request {id env payload now createdAt via report rows} : Reports.request env payload now via = .ok report →
      a.rows.insert (queued id report createdAt) = some rows →
      Steps same n a (.request id env payload now createdAt via) { a with rows := rows }
  | ignore {worker id} : Steps same n a (.deliver worker id) a
  | deliver {worker id row} : a.jobs worker = none → a.rows.find id = some row → row.status ≠ "done" →
      Steps same n a (.deliver worker id) (a.setJob worker (some ⟨row, .read⟩))
  | start {worker row} : a.jobs worker = some ⟨row, .read⟩ → Steps same n a (.start worker) (a.startJob worker row)
  | render {worker row tools generatedAt o} : a.jobs worker = some ⟨row, .running⟩ → produce n tools row generatedAt = .ok o →
      Steps same n a (.render worker tools generatedAt) (a.setJob worker (some ⟨row, .rendered o⟩))
  | refuse {worker row tools generatedAt e} : a.jobs worker = some ⟨row, .running⟩ → produce n tools row generatedAt = .error e →
      Steps same n a (.render worker tools generatedAt) (a.setJob worker (some ⟨row, .raised (failureText e)⟩))
  | create {worker row o} : a.jobs worker = some ⟨row, .rendered o⟩ →
      Steps same n a (.create worker) (a.writeJob n worker row o [] (.writing o))
  | write {worker count row o} : a.jobs worker = some ⟨row, .writing o⟩ →
      Steps same n a (.write worker count) (a.writeJob n worker row o (o.content.take count) (.writing o))
  | close {worker row o} : a.jobs worker = some ⟨row, .writing o⟩ →
      Steps same n a (.close worker) (a.writeJob n worker row o o.content (.written o))
  | ioError {worker message row stage} : a.jobs worker = some ⟨row, stage⟩ → stage ≠ .read →
      Steps same n a (.ioError worker message) (a.setJob worker (some ⟨row, .raised message⟩))
  | done {worker now row o} : a.jobs worker = some ⟨row, .written o⟩ →
      Steps same n a (.commit worker now)
        ((a.setRow row.id (finish same n row o now) (finish_key same n row o now)).setJob worker none)
  | failed {worker now row message} : a.jobs worker = some ⟨row, .raised message⟩ →
      Steps same n a (.commit worker now) ((a.setRow row.id (fail row message now) (fail_key row message now)).setJob worker none)
  | lose {worker} : Steps same n a (.lose worker) (a.setJob worker none)

theorem steps_of_step {a b : Archive} {e : Event} (h : Fires (Archive.step same n) a e b) : Steps same n a e b := by
  have h : Archive.step same n a e = some b := h
  cases e with
  | request id env payload now createdAt via =>
    simp only [Archive.step] at h
    split at h
    · cases h
    · rename_i report hreport
      obtain ⟨rows, hrows, rfl⟩ := Option.map_eq_some_iff.mp h
      exact .request hreport hrows
  | deliver worker id =>
    simp only [Archive.step] at h
    split at h
    · rename_i hfree
      cases Option.some.inj h
      unfold Archive.deliver
      split
      · exact .ignore
      · rename_i row hrow
        split
        · exact .ignore
        · rename_i hdone
          exact .deliver hfree hrow hdone
    · cases h
  | start worker =>
    simp only [Archive.step] at h
    split at h
    · rename_i row hjob
      cases h
      exact .start hjob
    · cases h
  | render worker tools generatedAt =>
    simp only [Archive.step] at h
    split at h
    · rename_i row hjob
      cases h
      unfold Archive.renderJob
      cases hproduce : produce n tools row generatedAt with
      | ok o => exact .render hjob hproduce
      | error e => exact .refuse hjob hproduce
    · cases h
  | create worker =>
    simp only [Archive.step] at h
    split at h
    · rename_i row o hjob
      cases h
      exact .create hjob
    · cases h
  | write worker count =>
    simp only [Archive.step] at h
    split at h
    · rename_i row o hjob
      cases h
      exact .write hjob
    · cases h
  | close worker =>
    simp only [Archive.step] at h
    split at h
    · rename_i row o hjob
      cases h
      exact .close hjob
    · cases h
  | ioError worker message =>
    simp only [Archive.step] at h
    split at h
    · rename_i hjob
      cases h
      exact .ioError hjob nofun
    · rename_i hjob
      cases h
      exact .ioError hjob nofun
    · cases h
  | commit worker now =>
    simp only [Archive.step] at h
    split at h
    · rename_i row o hjob
      cases h
      exact .done hjob
    · rename_i row message hjob
      cases h
      exact .failed hjob
    · cases h
  | lose worker =>
    cases h
    exact .lose

/-! ## What was asked for -/

/-- What a request says of a report, which nothing changes. -/
structure Asked where
  id : Uuid
  createdAt : Instant
  type : ReportType
  scope : Scope
  scopeId : Uuid
  periodStart : Instant
  periodEnd : Instant
  requestedVia : String

def Row.asked (row : Row) : Asked :=
  ⟨row.id, row.createdAt, row.report.type, row.report.scope, row.report.scopeId, row.report.periodStart,
    row.report.periodEnd, row.report.requestedVia⟩

def Asked.path (x : Asked) (n : Names) (fmt : ReportFormat) : String := archivePath n x.id x.createdAt fmt

/-- The table has the request. -/
def Asks (rows : Table Row) (x : Asked) : Prop := ∃ row, rows.find x.id = some row ∧ row.asked = x

/-- A worker has rendered this in the run, for this request. -/
def Rendered (n : Names) (es : List Event) (x : Asked) (o : Output) : Prop :=
  ∃ worker tools generatedAt row, Event.render worker tools generatedAt ∈ es ∧ row.asked = x ∧
    produce n tools row generatedAt = .ok o

theorem Rendered.later {es : List Event} {x : Asked} {o : Output} (h : Rendered n es x o) (e : Event) :
    Rendered n (es ++ [e]) x o := by
  obtain ⟨worker, tools, generatedAt, row, hmem, hrow, ho⟩ := h
  exact ⟨worker, tools, generatedAt, row, List.mem_append_left _ hmem, hrow, ho⟩

/-! ## Whatever the workers do -/

abbrev Files := String → Option (List UInt8)

/-- A row names a file that is there, and is not done without one. -/
structure Filed (n : Names) (files : Files) (row : Row) : Prop where
  done : row.status = "done" → row.fileUri.isSome = true
  there : ∀ path ∈ row.fileUri, (files path).isSome = true
  own : ∀ path ∈ row.fileUri, ∃ fmt, path = row.asked.path n fmt

/-- The table has the row that a worker has read, with a file if it had one then. -/
def Knows (rows : Table Row) (read : Row) : Prop :=
  ∃ row, rows.find read.id = some row ∧ row.asked = read.asked ∧ (read.fileUri.isSome = true → row.fileUri.isSome = true)

/-- What the worker has in hand was rendered for this request, and is in its file when it says so. -/
def Backed (n : Names) (es : List Event) (files : Files) (x : Asked) : Stage → Prop
  | .rendered o | .writing o => Rendered n es x o
  | .written o => Rendered n es x o ∧ (files (x.path n o.produced)).isSome = true
  | .read | .running | .raised _ => True

structure Sound (n : Names) (es : List Event) (a : Archive) : Prop where
  rows : ∀ id row, a.rows.find id = some row → Filed n a.files row
  files : ∀ path content, a.files path = some content →
    ∃ x o, Asks a.rows x ∧ Rendered n es x o ∧ path = x.path n o.produced ∧ content <+: o.content
  known : ∀ worker job, a.jobs worker = some job → Knows a.rows job.row
  backed : ∀ worker job, a.jobs worker = some job → Backed n es a.files job.row.asked job.stage

theorem Backed.later {es : List Event} {files : Files} {x : Asked} {stage : Stage} (h : Backed n es files x stage)
    (e : Event) : Backed n (es ++ [e]) files x stage := by
  cases stage with
  | rendered o => exact Rendered.later h e
  | writing o => exact Rendered.later h e
  | written o => exact ⟨h.1.later e, h.2⟩
  | _ => trivial

theorem Sound.later {es : List Event} {a : Archive} (h : Sound n es a) (e : Event) : Sound n (es ++ [e]) a where
  rows := h.rows
  files := by
    intro path content hpath
    obtain ⟨x, o, hasks, hrendered, hcontent⟩ := h.files path content hpath
    exact ⟨x, o, hasks, hrendered.later e, hcontent⟩
  known := h.known
  backed := fun worker job hjob => (h.backed worker job hjob).later e

theorem jobs_setJob (a : Archive) (worker : Nat) (job : Option Job) (w : Nat) :
    (a.setJob worker job).jobs w = if w = worker then job else a.jobs w := Function.update_apply ..

theorem Sound.setJob {es : List Event} {a : Archive} (h : Sound n es a) (worker : Nat) {job : Option Job}
    (hjob : ∀ j ∈ job, Knows a.rows j.row ∧ Backed n es a.files j.row.asked j.stage) : Sound n es (a.setJob worker job) where
  rows := h.rows
  files := h.files
  known := by
    intro w j hj
    rw [jobs_setJob] at hj
    split at hj
    · exact (hjob j hj).1
    · exact h.known w j hj
  backed := by
    intro w j hj
    rw [jobs_setJob] at hj
    split at hj
    · exact (hjob j hj).2
    · exact h.backed w j hj

theorem files_setFile (a : Archive) (path : String) (content : List UInt8) (p : String) :
    (a.setFile path content).files p = if p = path then some content else a.files p := Function.update_apply ..

/-- No file is ever removed. -/
theorem isSome_setFile {a : Archive} (path : String) (content : List UInt8) {p : String} (h : (a.files p).isSome = true) :
    ((a.setFile path content).files p).isSome = true := by
  rw [files_setFile]
  split
  · rfl
  · exact h

theorem Sound.setFile {es : List Event} {a : Archive} (h : Sound n es a) {x : Asked} {o : Output} {content : List UInt8}
    (hasks : Asks a.rows x) (hrendered : Rendered n es x o) (hcontent : content <+: o.content) :
    Sound n es (a.setFile (x.path n o.produced) content) where
  rows := fun id row hrow =>
    { h.rows id row hrow with there := fun path hpath => isSome_setFile _ _ ((h.rows id row hrow).there path hpath) }
  files := by
    intro path c hpath
    rw [files_setFile] at hpath
    split at hpath
    · rename_i hsame
      cases hpath
      exact ⟨x, o, hasks, hrendered, hsame, hcontent⟩
    · exact h.files path c hpath
  known := h.known
  backed := by
    intro w j hj
    have hbacked := h.backed w j hj
    cases hstage : j.stage with
    | written o' =>
      rw [hstage] at hbacked
      exact ⟨hbacked.1, isSome_setFile _ _ hbacked.2⟩
    | _ =>
      rw [hstage] at hbacked
      exact hbacked

/-! A change of a row that leaves what was asked for. -/

theorem find_setRow (a : Archive) (id : Uuid) (f : Row → Row) (hf) (id' : Uuid) :
    (a.setRow id f hf).rows.find id' = if id' = id then (a.rows.find id').map f else a.rows.find id' :=
  a.rows.find_modify id f hf id'

theorem Asks.setRow {a : Archive} {x : Asked} (h : Asks a.rows x) {id : Uuid} {f : Row → Row} (hf)
    (hasked : ∀ r, (f r).asked = r.asked) : Asks (a.setRow id f hf).rows x := by
  obtain ⟨row, hrow, rfl⟩ := h
  unfold Asks
  rw [find_setRow]
  split
  · exact ⟨f row, by rw [hrow]; rfl, hasked row⟩
  · exact ⟨row, hrow, rfl⟩

theorem Knows.setRow {a : Archive} {read : Row} (h : Knows a.rows read) {id : Uuid} {f : Row → Row} (hf)
    (hasked : ∀ r, (f r).asked = r.asked) (huri : ∀ r, r.fileUri.isSome = true → (f r).fileUri.isSome = true) :
    Knows (a.setRow id f hf).rows read := by
  obtain ⟨row, hrow, hsame, hfile⟩ := h
  unfold Knows
  rw [find_setRow]
  split
  · exact ⟨f row, by rw [hrow]; rfl, (hasked row).trans hsame, fun hread => huri row (hfile hread)⟩
  · exact ⟨row, hrow, hsame, hfile⟩

theorem Sound.setRow {es : List Event} {a : Archive} (h : Sound n es a) (id : Uuid) {f : Row → Row} (hf)
    (hasked : ∀ r, (f r).asked = r.asked) (huri : ∀ r, r.fileUri.isSome = true → (f r).fileUri.isSome = true)
    (hfiled : ∀ row, a.rows.find id = some row → Filed n a.files (f row)) : Sound n es (a.setRow id f hf) where
  rows := by
    intro id' row hrow
    rw [find_setRow] at hrow
    split at hrow
    · rename_i hid
      subst hid
      obtain ⟨before, hbefore, rfl⟩ := Option.map_eq_some_iff.mp hrow
      exact hfiled before hbefore
    · exact h.rows id' row hrow
  files := by
    intro path content hpath
    obtain ⟨x, o, hasks, hcontent⟩ := h.files path content hpath
    exact ⟨x, o, hasks.setRow hf hasked, hcontent⟩
  known := fun worker job hjob => (h.known worker job hjob).setRow hf hasked huri
  backed := h.backed

/-! The columns. -/

theorem isSome_assign {α : Type} [DecidableEq α] {read new current : Option α} (hnew : new.isSome = true)
    (hcurrent : read.isSome = true → current.isSome = true) : (assign read new current).isSome = true := by
  unfold assign
  split
  · rename_i hread
    exact hcurrent (hread ▸ hnew)
  · exact hnew

theorem begin_filed {files : Files} {row : Row} (h : Filed n files row) (read : Row) : Filed n files (begin read row) where
  done := by
    intro hstatus
    have hstatus : assign read.status "running" row.status = "done" := hstatus
    unfold assign at hstatus
    split at hstatus
    · exact h.done hstatus
    · exact absurd hstatus (by decide)
  there := h.there
  own := h.own

theorem fail_filed {files : Files} {read row : Row} (h : Filed n files row) (message : String) (now : Instant) :
    Filed n files (fail read message now row) where
  done := fun hstatus => absurd hstatus (show "failed" ≠ "done" by decide)
  there := h.there
  own := h.own

theorem finish_filed {files : Files} {read row : Row} {o : Output} (h : Filed n files row) (now : Instant)
    (hasked : row.asked = read.asked) (hread : read.fileUri.isSome = true → row.fileUri.isSome = true)
    (hfile : (files (read.asked.path n o.produced)).isSome = true) : Filed n files (finish same n read o now row) where
  done := fun _ => isSome_assign rfl hread
  there := by
    intro path hpath
    have hpath : assign read.fileUri (some (read.asked.path n o.produced)) row.fileUri = some path := hpath
    unfold assign at hpath
    split at hpath
    · exact h.there path hpath
    · cases hpath
      exact hfile
  own := by
    intro path hpath
    have hpath : assign read.fileUri (some (read.asked.path n o.produced)) row.fileUri = some path := hpath
    unfold assign at hpath
    split at hpath
    · exact h.own path hpath
    · cases hpath
      exact ⟨o.produced, congrArg (Asked.path · n o.produced) hasked.symm⟩

theorem request_status {env : Environment} {payload : ReportCreate} {now : Instant} {via : String} {report : Report}
    (h : Reports.request env payload now via = .ok report) : report.status = "queued" := by
  unfold Reports.request at h
  cases hscope : resolveScope env payload.scope payload.scopeId with
  | error e =>
    rw [hscope] at h
    cases h
  | ok scope =>
    simp only [hscope, bind, Except.bind] at h
    split at h
    · cases h
    · cases h
      rfl

theorem queued_filed {files : Files} {id : Uuid} {report : Report} {createdAt : Instant} (h : report.status = "queued") :
    Filed n files (queued id report createdAt) where
  done := fun hstatus => absurd (h.symm.trans hstatus) (by decide)
  there := by simp [queued]
  own := by simp [queued]

theorem Sound.step {es : List Event} {a b : Archive} {e : Event} (h : Sound n es a)
    (hstep : Fires (Archive.step same n) a e b) : Sound n (es ++ [e]) b := by
  have hlater := h.later e
  have hknows {worker : Nat} {row : Row} {stage : Stage} (hjob : a.jobs worker = some ⟨row, stage⟩) : Knows a.rows row :=
    h.known worker _ hjob
  have hasks {worker : Nat} {row : Row} {stage : Stage} (hjob : a.jobs worker = some ⟨row, stage⟩) :
      Asks a.rows row.asked := by
    obtain ⟨current, hcurrent, hsame, -⟩ := hknows hjob
    exact ⟨current, hcurrent, hsame⟩
  cases steps_of_step hstep with
  | @request id _ _ _ createdAt _ report rows hreport hrows =>
    have hfresh := Table.fresh_of_insert hrows
    have hkept {id' : Uuid} {row : Row} (hrow : a.rows.find id' = some row) : rows.find id' = some row := by
      rw [Table.find_insert hrows]
      split
      · rename_i hid
        rw [← hid, hfresh] at hrow
        cases hrow
      · exact hrow
    refine ⟨?_, ?_, ?_, hlater.backed⟩
    · intro id' row hrow
      rw [Table.find_insert hrows] at hrow
      split at hrow
      · cases hrow
        exact queued_filed (request_status hreport)
      · exact hlater.rows id' row hrow
    · intro path content hpath
      obtain ⟨x, o, ⟨row, hrow, hasked⟩, hcontent⟩ := hlater.files path content hpath
      exact ⟨x, o, ⟨row, hkept hrow, hasked⟩, hcontent⟩
    · intro worker job hjob
      obtain ⟨row, hrow, hsame⟩ := hlater.known worker job hjob
      exact ⟨row, hkept hrow, hsame⟩
  | ignore => exact hlater
  | @deliver worker id row _ hrow _ =>
    obtain rfl : row.id = id := Table.key_of_find hrow
    refine hlater.setJob worker ?_
    rintro _ ⟨⟩
    exact ⟨⟨row, hrow, rfl, fun huri => huri⟩, trivial⟩
  | @start worker row hjob =>
    have hset := hlater.setRow row.id (begin_key row) (fun _ => rfl) (fun _ huri => huri)
      fun current hcurrent => begin_filed (h.rows _ current hcurrent) row
    refine hset.setJob worker ?_
    rintro _ ⟨⟩
    exact ⟨(hknows hjob).setRow _ (fun _ => rfl) fun _ huri => huri, trivial⟩
  | @render worker row tools generatedAt o hjob ho =>
    refine hlater.setJob worker ?_
    rintro _ ⟨⟩
    exact ⟨hknows hjob, worker, tools, generatedAt, row, List.mem_append_right _ List.mem_cons_self, rfl, ho⟩
  | @refuse worker _ _ _ _ hjob _ =>
    refine hlater.setJob worker ?_
    rintro _ ⟨⟩
    exact ⟨hknows hjob, trivial⟩
  | @create worker row o hjob =>
    have hbacked := hlater.backed worker _ hjob
    refine (hlater.setFile (hasks hjob) hbacked List.nil_prefix).setJob worker ?_
    rintro _ ⟨⟩
    exact ⟨hknows hjob, hbacked⟩
  | @write worker count row o hjob =>
    have hbacked := hlater.backed worker _ hjob
    refine (hlater.setFile (hasks hjob) hbacked (List.take_prefix count _)).setJob worker ?_
    rintro _ ⟨⟩
    exact ⟨hknows hjob, hbacked⟩
  | @close worker row o hjob =>
    have hbacked := hlater.backed worker _ hjob
    refine (hlater.setFile (hasks hjob) hbacked (List.prefix_refl _)).setJob worker ?_
    rintro _ ⟨⟩
    refine ⟨hknows hjob, hbacked, ?_⟩
    show ((a.setFile (row.asked.path n o.produced) o.content).files (row.asked.path n o.produced)).isSome = true
    rw [files_setFile, if_pos rfl]
    rfl
  | @ioError worker _ _ _ hjob _ =>
    refine hlater.setJob worker ?_
    rintro _ ⟨⟩
    exact ⟨hknows hjob, trivial⟩
  | @done worker now row o hjob =>
    obtain ⟨current, hcurrent, hasked, hread⟩ := hknows hjob
    have hset := hlater.setRow row.id (finish_key same n row o now) (fun _ => rfl)
      (fun r huri => isSome_assign rfl fun _ => huri) ?_
    · exact hset.setJob worker (by simp)
    · intro r hr
      obtain rfl := Option.some.inj (hcurrent.symm.trans hr)
      exact finish_filed (h.rows _ _ hcurrent) now hasked hread (h.backed worker _ hjob).2
  | @failed worker now row message hjob =>
    have hset := hlater.setRow row.id (fail_key row message now) (fun _ => rfl)
      (fun _ huri => huri) fun current hcurrent => fail_filed (h.rows _ current hcurrent) message now
    exact hset.setJob worker (by simp)
  | lose => exact hlater.setJob _ (by simp)

/-! ## One worker for each report -/

/-- The broker hands over a task only if no worker is at it. -/
def Alone (a : Archive) : Event → Prop
  | .deliver _ id => ∀ worker job, a.jobs worker = some job → job.row.id ≠ id
  | _ => True

def Row.running (row : Row) : Row := { row with report := { row.report with status := "running" } }

/-- The row of a job, as the table has it. -/
def Job.current (job : Job) : Row :=
  match job.stage with
  | .read => job.row
  | _ => job.row.running

/-- Nothing of a rendering is on the row. -/
structure Row.Blank (row : Row) : Prop where
  data : row.data = none
  summaryText : row.summaryText = none
  summaryAudit : row.summaryAudit = none
  fileUri : row.fileUri = none

/-- The row and the file are of one rendering. -/
structure Kept (n : Names) (es : List Event) (files : Files) (row : Row) (o : Output) : Prop where
  rendered : Rendered n es row.asked o
  data : row.data = some o.context.data
  summaryText : row.summaryText = some o.context.summaryText
  summaryAudit : row.summaryAudit = some o.context.summaryAudit
  format : row.report.format = o.produced
  fileUri : row.fileUri = some (row.asked.path n o.produced)
  file : files (row.asked.path n o.produced) = some o.content

structure Single (n : Names) (es : List Event) (a : Archive) : Prop where
  apart : ∀ w w' job job', a.jobs w = some job → a.jobs w' = some job' → job.row.id = job'.row.id → w = w'
  pending : ∀ w job, a.jobs w = some job → job.row.status ≠ "done"
  held : ∀ w job, a.jobs w = some job → a.rows.find job.row.id = some job.current
  whole : ∀ w row o, a.jobs w = some ⟨row, .written o⟩ → a.files (row.asked.path n o.produced) = some o.content
  blank : ∀ id row, a.rows.find id = some row → row.status ≠ "done" → row.Blank
  kept : ∀ id row, a.rows.find id = some row → row.status = "done" → ∃ o, Kept n es a.files row o

theorem Job.current_status {job : Job} (h : job.row.status ≠ "done") : job.current.status ≠ "done" := by
  unfold Job.current
  split
  · exact h
  · exact fun hdone => absurd hdone (show "running" ≠ "done" by decide)

theorem Job.current_id (job : Job) : job.current.id = job.row.id := by
  unfold Job.current
  split <;> rfl

theorem Single.later {es : List Event} {a : Archive} (h : Single n es a) (e : Event) : Single n (es ++ [e]) a :=
  { h with
    kept := by
      intro id row hrow hdone
      obtain ⟨o, ho⟩ := h.kept id row hrow hdone
      exact ⟨o, { ho with rendered := ho.rendered.later e }⟩ }

theorem Single.setJob {es : List Event} {a : Archive} (h : Single n es a) {w : Nat} {job : Option Job}
    (happart : ∀ j ∈ job, ∀ w' j', a.jobs w' = some j' → w' ≠ w → j'.row.id ≠ j.row.id)
    (hheld : ∀ j ∈ job, j.row.status ≠ "done" ∧ a.rows.find j.row.id = some j.current)
    (hwhole : ∀ row o, job = some ⟨row, .written o⟩ → a.files (row.asked.path n o.produced) = some o.content) :
    Single n es (a.setJob w job) where
  apart := by
    intro w₁ w₂ j₁ j₂ hj₁ hj₂ hid
    rw [jobs_setJob] at hj₁ hj₂
    split at hj₁ <;> split at hj₂
    · rename_i h₁ h₂
      rw [h₁, h₂]
    · rename_i h₁ h₂
      exact absurd hid.symm (happart j₁ hj₁ w₂ j₂ hj₂ h₂)
    · rename_i h₁ h₂
      exact absurd hid (happart j₂ hj₂ w₁ j₁ hj₁ h₁)
    · exact h.apart w₁ w₂ j₁ j₂ hj₁ hj₂ hid
  pending := by
    intro w' j hj
    rw [jobs_setJob] at hj
    split at hj
    · exact (hheld j hj).1
    · exact h.pending w' j hj
  held := by
    intro w' j hj
    rw [jobs_setJob] at hj
    split at hj
    · exact (hheld j hj).2
    · exact h.held w' j hj
  whole := by
    intro w' row o hj
    rw [jobs_setJob] at hj
    split at hj
    · exact hwhole row o hj
    · exact h.whole w' row o hj
  blank := h.blank
  kept := h.kept

theorem Single.leave {es : List Event} {a : Archive} (h : Single n es a) (w : Nat) : Single n es (a.setJob w none) :=
  h.setJob (by simp) (by simp) (by simp)

theorem free_setJob {es : List Event} {a : Archive} (h : Single n es a) {w : Nat} {job : Job} (hjob : a.jobs w = some job) :
    ∀ w' job', (a.setJob w none).jobs w' = some job' → job'.row.id ≠ job.row.id := by
  intro w' job' hjob' hid
  rw [jobs_setJob] at hjob'
  split at hjob'
  · cases hjob'
  · rename_i hw
    exact hw (h.apart w' w job' job hjob' hjob hid)

/-- A row that no worker is at changes. -/
theorem Single.setRow {es : List Event} {a : Archive} (h : Single n es a) (id : Uuid) {f : Row → Row} (hf)
    (hfree : ∀ w job, a.jobs w = some job → job.row.id ≠ id)
    (hblank : ∀ row, a.rows.find id = some row → (f row).status ≠ "done" → (f row).Blank)
    (hkept : ∀ row, a.rows.find id = some row → (f row).status = "done" → ∃ o, Kept n es a.files (f row) o) :
    Single n es (a.setRow id f hf) where
  apart := h.apart
  pending := h.pending
  held := by
    intro w job hjob
    rw [find_setRow, if_neg (hfree w job hjob)]
    exact h.held w job hjob
  whole := h.whole
  blank := by
    intro id' row hrow hdone
    rw [find_setRow] at hrow
    split at hrow
    · rename_i hid
      subst hid
      obtain ⟨before, hbefore, rfl⟩ := Option.map_eq_some_iff.mp hrow
      exact hblank before hbefore hdone
    · exact h.blank id' row hrow hdone
  kept := by
    intro id' row hrow hdone
    rw [find_setRow] at hrow
    split at hrow
    · rename_i hid
      subst hid
      obtain ⟨before, hbefore, rfl⟩ := Option.map_eq_some_iff.mp hrow
      exact hkept before hbefore hdone
    · exact h.kept id' row hrow hdone

theorem setJob_setRow_setJob (a : Archive) (w : Nat) (job job' : Option Job) {id : Uuid} {f : Row → Row} (hf) :
    ((a.setJob w job).setRow id f hf).setJob w job' = (a.setRow id f hf).setJob w job' := by
  simp [Archive.setJob, Archive.setRow, Function.update_idem]

theorem files_setFile_of_ne (hn : n.Lawful) (a : Archive) {x y : Asked} (hid : x.id ≠ y.id) (fmt fmt' : ReportFormat)
    (content : List UInt8) : (a.setFile (x.path n fmt) content).files (y.path n fmt') = a.files (y.path n fmt') := by
  rw [files_setFile, if_neg]
  exact fun hpath => hid (id_of_archivePath hn hpath).symm

/-- The file of a report that is not done, and that no worker has written, changes. -/
theorem Single.setFile (hn : n.Lawful) {es : List Event} {a : Archive} (h : Single n es a) {x : Asked} (fmt : ReportFormat)
    (content : List UInt8) (hfree : ∀ w row o, a.jobs w = some ⟨row, .written o⟩ → row.id ≠ x.id)
    (hrow : ∀ row, a.rows.find x.id = some row → row.status ≠ "done") : Single n es (a.setFile (x.path n fmt) content) where
  apart := h.apart
  pending := h.pending
  held := h.held
  whole := by
    intro w row o hjob
    rw [files_setFile_of_ne hn a (y := row.asked) (hfree w row o hjob).symm]
    exact h.whole w row o hjob
  blank := h.blank
  kept := by
    intro id row hfound hdone
    obtain ⟨o, ho⟩ := h.kept id row hfound hdone
    have hid : x.id ≠ row.asked.id := by
      obtain rfl : row.id = id := Table.key_of_find hfound
      intro hid
      exact hrow row (hid ▸ hfound) hdone
    exact ⟨o, { ho with file := (files_setFile_of_ne hn a hid ..).trans ho.file }⟩

theorem Job.current_eq {row : Row} {stage : Stage} (h : stage ≠ .read) : Job.current ⟨row, stage⟩ = row.running := by
  cases stage with
  | read => exact absurd rfl h
  | _ => rfl

/-- A worker goes on with the report that it is at. -/
theorem Single.goOn {es : List Event} {a : Archive} (h : Single n es a) {w : Nat} {row : Row} {stage : Stage}
    (hjob : a.jobs w = some ⟨row, stage⟩) (hstage : stage ≠ .read) {stage' : Stage} (hstage' : stage' ≠ .read)
    (hwhole : ∀ o, stage' = .written o → a.files (row.asked.path n o.produced) = some o.content) :
    Single n es (a.setJob w (some ⟨row, stage'⟩)) := by
  have hpending : row.status ≠ "done" := h.pending w _ hjob
  refine h.setJob ?_ ?_ ?_
  · rintro _ ⟨⟩ w' job hw' hne hid
    exact hne (h.apart w' w job _ hw' hjob hid)
  · rintro _ ⟨⟩
    have hheld := h.held w _ hjob
    refine ⟨hpending, ?_⟩
    rw [Job.current_eq hstage] at hheld
    rw [Job.current_eq hstage']
    exact hheld
  · rintro _ o ⟨⟩
    exact hwhole o rfl

theorem Single.writeJob (hn : n.Lawful) {es : List Event} {a : Archive} (h : Single n es a) {w : Nat} {row : Row}
    {stage : Stage} (hjob : a.jobs w = some ⟨row, stage⟩) (hstage : stage ≠ .read) (o : Output) {content : List UInt8}
    {stage' : Stage} (hstage' : stage' ≠ .read) (hwhole : ∀ o', stage' = .written o' → o' = o ∧ content = o.content) :
    Single n es (a.writeJob n w row o content stage') := by
  have hrunning : Single n es (a.setJob w (some ⟨row, .running⟩)) := h.goOn hjob hstage (by simp) (by simp)
  have hset := hrunning.setFile hn (x := row.asked) o.produced content ?_ ?_
  · have hjob' : ((a.setJob w (some ⟨row, .running⟩)).setFile (row.asked.path n o.produced) content).jobs w =
        some ⟨row, .running⟩ := Function.update_self ..
    have hlast := hset.goOn hjob' (by simp) hstage' ?_
    · have hsame : ((a.setJob w (some ⟨row, .running⟩)).setFile (row.asked.path n o.produced) content).setJob w
          (some ⟨row, stage'⟩) = a.writeJob n w row o content stage' := by
        simp [Archive.setJob, Archive.setFile, Archive.writeJob, Function.update_idem, Asked.path, Row.asked]
      exact hsame ▸ hlast
    · intro o' ho'
      obtain ⟨rfl, rfl⟩ := hwhole o' ho'
      exact (files_setFile ..).trans (if_pos rfl)
  · intro w' row' o' hjob'
    rw [jobs_setJob] at hjob'
    split at hjob'
    · cases hjob'
    · rename_i hw
      exact fun hid => hw (h.apart w' w _ _ hjob' hjob hid)
  · intro current hcurrent
    have hheld := h.held w _ hjob
    obtain rfl := Option.some.inj (hcurrent.symm.trans hheld)
    exact Job.current_status (h.pending w _ hjob)

/-! The columns, when nobody else writes them. -/

theorem begin_self (row : Row) : begin row row = row.running := by
  unfold begin assign Row.running
  split
  · rename_i hstatus
    have hstatus : row.report.status = "running" := hstatus.symm
    rw [← hstatus]
    rfl
  · rfl

theorem assign_self {α : Type} [DecidableEq α] (read new : α) : assign read new read = new := by
  unfold assign
  split
  · rename_i hread
    exact hread.symm
  · rfl

theorem Row.Blank.running {row : Row} (h : row.Blank) : row.running.Blank := ⟨h.data, h.summaryText, h.summaryAudit, h.fileUri⟩

theorem finish_kept {es : List Event} {files : Files} {row : Row} {o : Output} (h : row.Blank) (now : Instant)
    (hrendered : Rendered n es row.asked o) (hfile : files (row.asked.path n o.produced) = some o.content) :
    Kept n es files (finish same n row o now row.running) o where
  rendered := hrendered
  data := by simp [finish, h.data]
  summaryText := assign_self ..
  summaryAudit := assign_self ..
  format := assign_self ..
  fileUri := assign_self ..
  file := hfile

theorem Single.step (hn : n.Lawful) {es : List Event} {a b : Archive} {e : Event} (hsound : Sound n es a)
    (h : Single n es a) (halone : Alone a e) (hstep : Fires (Archive.step same n) a e b) : Single n (es ++ [e]) b := by
  have hlater := h.later e
  have hblank {w : Nat} {row : Row} {stage : Stage} (hjob : a.jobs w = some ⟨row, stage⟩) : row.Blank := by
    have hcurrent := h.blank _ _ (h.held w _ hjob) (Job.current_status (h.pending w _ hjob))
    cases stage with
    | read => exact hcurrent
    | _ => exact ⟨hcurrent.data, hcurrent.summaryText, hcurrent.summaryAudit, hcurrent.fileUri⟩
  cases steps_of_step hstep with
  | @request id _ _ _ createdAt _ report rows hreport hrows =>
    have hfresh := Table.fresh_of_insert hrows
    have hstatus := request_status hreport
    refine { hlater with held := ?_, blank := ?_, kept := ?_ }
    · intro w job hjob
      have hheld := h.held w job hjob
      rw [Table.find_insert hrows, if_neg]
      · exact hheld
      · intro hid
        rw [← hid, hfresh] at hheld
        cases hheld
    · intro id' row hrow hdone
      rw [Table.find_insert hrows] at hrow
      split at hrow
      · cases hrow
        exact ⟨rfl, rfl, rfl, rfl⟩
      · exact h.blank id' row hrow hdone
    · intro id' row hrow hdone
      rw [Table.find_insert hrows] at hrow
      split at hrow
      · cases hrow
        exact absurd (hstatus.symm.trans hdone) (by decide)
      · exact hlater.kept id' row hrow hdone
  | ignore => exact hlater
  | @deliver w id row hfree hrow hdone =>
    obtain rfl : row.id = id := Table.key_of_find hrow
    refine hlater.setJob ?_ ?_ (by simp)
    · rintro _ ⟨⟩ w' job hjob _
      exact halone w' job hjob
    · rintro _ ⟨⟩
      exact ⟨hdone, hrow⟩
  | @start w row hjob =>
    have hheld : a.rows.find row.id = some row := h.held w _ hjob
    have hpending : row.status ≠ "done" := h.pending w _ hjob
    have hfree := free_setJob h hjob
    have hset := (hlater.leave w).setRow row.id (begin_key row) hfree ?_ ?_
    · rw [Archive.startJob, ← setJob_setRow_setJob a w none]
      refine hset.setJob ?_ ?_ (by simp)
      · rintro _ ⟨⟩ w' job hjob' _
        exact hfree w' job hjob'
      · rintro _ ⟨⟩
        refine ⟨hpending, (find_setRow ..).trans ?_⟩
        rw [if_pos rfl]
        exact (congrArg (Option.map (begin row)) hheld).trans (congrArg some (begin_self row))
    · intro current hcurrent _
      obtain rfl := Option.some.inj (hheld.symm.trans hcurrent)
      rw [begin_self]
      exact (hblank hjob).running
    · intro current hcurrent hdone
      obtain rfl := Option.some.inj (hheld.symm.trans hcurrent)
      rw [begin_self] at hdone
      exact absurd hdone (show "running" ≠ "done" by decide)
  | @render w row tools generatedAt o hjob ho => exact hlater.goOn hjob (by simp) (by simp) (by simp)
  | @refuse w row tools generatedAt error hjob _ => exact hlater.goOn hjob (by simp) (by simp) (by simp)
  | @create w row o hjob => exact hlater.writeJob hn hjob (by simp) o (by simp) (by simp)
  | @write w count row o hjob => exact hlater.writeJob hn hjob (by simp) o (by simp) (by simp)
  | @close w row o hjob =>
    refine hlater.writeJob hn hjob (by simp) o (by simp) ?_
    rintro _ ⟨⟩
    exact ⟨rfl, rfl⟩
  | @ioError w message row stage hjob hstage => exact hlater.goOn hjob hstage (by simp) (by simp)
  | @done w now row o hjob =>
    have hheld : a.rows.find row.id = some row.running := h.held w _ hjob
    rw [← setJob_setRow_setJob a w none]
    refine ((hlater.leave w).setRow row.id _ (free_setJob h hjob) ?_ ?_).leave w
    · intro current _ hdone
      exact absurd (show (finish same n row o now current).status = "done" from rfl) hdone
    · intro current hcurrent _
      obtain rfl := Option.some.inj (hheld.symm.trans hcurrent)
      exact ⟨o, finish_kept (hblank hjob) now ((hsound.backed w _ hjob).1.later _) (h.whole w row o hjob)⟩
  | @failed w now row message hjob =>
    have hheld : a.rows.find row.id = some row.running := h.held w _ hjob
    have hrow := hblank hjob
    rw [← setJob_setRow_setJob a w none]
    refine ((hlater.leave w).setRow row.id _ (free_setJob h hjob) ?_ ?_).leave w
    · intro current hcurrent _
      obtain rfl := Option.some.inj (hheld.symm.trans hcurrent)
      exact ⟨hrow.data, hrow.summaryText, hrow.summaryAudit, hrow.fileUri⟩
    · intro current _ hdone
      exact absurd hdone (show "failed" ≠ "done" by decide)
  | @lose w => exact hlater.leave w

/-- A row that is done, and its file, stay as they are. -/
theorem Single.settled (hn : n.Lawful) {es : List Event} {a b : Archive} {e : Event} (h : Single n es a)
    (hstep : Fires (Archive.step same n) a e b) {id : Uuid} {row : Row} (hrow : a.rows.find id = some row)
    (hdone : row.status = "done") :
    b.rows.find id = some row ∧ ∀ fmt, b.files (row.asked.path n fmt) = a.files (row.asked.path n fmt) := by
  obtain rfl : row.id = id := Table.key_of_find hrow
  have hother {w : Nat} {read : Row} {stage : Stage} (hjob : a.jobs w = some ⟨read, stage⟩) : row.id ≠ read.id := by
    intro hid
    have hheld := h.held w _ hjob
    obtain rfl := Option.some.inj (hrow.symm.trans (hid ▸ hheld))
    exact Job.current_status (h.pending w _ hjob) hdone
  have hset {w : Nat} {read : Row} {stage : Stage} (hjob : a.jobs w = some ⟨read, stage⟩) (f : Row → Row) (hf) :
      (a.setRow read.id f hf).rows.find row.id = some row := by
    rw [find_setRow, if_neg (hother hjob)]
    exact hrow
  have hfile {w : Nat} {read : Row} {stage : Stage} (hjob : a.jobs w = some ⟨read, stage⟩) (o : Output)
      (content : List UInt8) (fmt : ReportFormat) :
      (a.setFile (read.asked.path n o.produced) content).files (row.asked.path n fmt) = a.files (row.asked.path n fmt) :=
    files_setFile_of_ne hn a (fun hid => hother hjob hid.symm) ..
  cases steps_of_step hstep with
  | request _ hrows =>
    refine ⟨?_, fun _ => rfl⟩
    rw [Table.find_insert hrows, if_neg]
    · exact hrow
    · intro hid
      have hfresh := Table.fresh_of_insert hrows
      rw [hid, hrow] at hfresh
      cases hfresh
  | ignore => exact ⟨hrow, fun _ => rfl⟩
  | deliver => exact ⟨hrow, fun _ => rfl⟩
  | start hjob => exact ⟨hset hjob _ (begin_key _), fun _ => rfl⟩
  | render => exact ⟨hrow, fun _ => rfl⟩
  | refuse => exact ⟨hrow, fun _ => rfl⟩
  | create hjob => exact ⟨hrow, hfile hjob _ _⟩
  | write hjob => exact ⟨hrow, hfile hjob _ _⟩
  | close hjob => exact ⟨hrow, hfile hjob _ _⟩
  | ioError => exact ⟨hrow, fun _ => rfl⟩
  | @done _ now _ o hjob => exact ⟨hset hjob _ (finish_key same n _ o now), fun _ => rfl⟩
  | @failed _ now _ message hjob => exact ⟨hset hjob _ (fail_key _ message now), fun _ => rfl⟩
  | lose => exact ⟨hrow, fun _ => rfl⟩

/-! ## Runs -/

theorem sound_empty : Sound n [] empty where
  rows := by simp [empty, Table.empty, Table.find]
  files := by simp [empty]
  known := by simp [empty]
  backed := by simp [empty]

theorem single_empty : Single n [] empty where
  apart := by simp [empty]
  pending := by simp [empty]
  held := by simp [empty]
  whole := by simp [empty]
  blank := by simp [empty, Table.empty, Table.find]
  kept := by simp [empty, Table.empty, Table.find]

theorem sound_run {es : List Event} {a : Archive} (h : Run (Fires (Archive.step same n)) empty es a) : Sound n es a :=
  Run.invariant (Sound n) sound_empty (fun _ _ _ _ => Sound.step) h

theorem single_run (hn : n.Lawful) {es : List Event} {a : Archive}
    (h : Run (Guarded (Fires (Archive.step same n)) Alone) empty es a) : Sound n es a ∧ Single n es a := by
  refine Run.invariant (fun es a => Sound n es a ∧ Single n es a) ⟨sound_empty, single_empty⟩ ?_ h
  intro es t e u ht hstep
  exact ⟨ht.1.step hstep.2, ht.2.step hn ht.1 hstep.1 hstep.2⟩

/-- Who has one of these roles sees reports of this type. -/
def Visible (roles : List Role) (type : ReportType) : Prop := ∀ types ∈ Archive.visibleTypes roles, type ∈ types

theorem produce_context {tools : Tools} {row : Row} {generatedAt : Instant} {o : Output}
    (h : produce n tools row generatedAt = .ok o) : o.context.reportId = n.uuid row.id ∧
      o.context.type = row.report.type ∧ o.context.periodStart = row.report.periodStart ∧
      o.context.periodEnd = row.report.periodEnd := by
  unfold produce at h
  cases hfigures : assemble tools.builders row.report with
  | error e =>
    rw [hfigures] at h
    cases h
  | ok figures =>
    cases hcompose : compose tools.texts tools.repr row.report.type (figures.data tools.iso) tools.candidate with
    | error e =>
      simp only [hfigures, hcompose, bind, Except.bind] at h
      cases h
    | ok composed =>
      simp only [hfigures, hcompose, bind, Except.bind] at h
      split at h
      · cases h
      · cases h
        exact ⟨rfl, rfl, rfl, rfl⟩

/-- What has been rendered for a request says so. -/
theorem Rendered.context {es : List Event} {x : Asked} {o : Output} (h : Rendered n es x o) :
    o.context.reportId = n.uuid x.id ∧ o.context.type = x.type ∧ o.context.periodStart = x.periodStart ∧
      o.context.periodEnd = x.periodEnd := by
  obtain ⟨_, _, _, _, _, rfl, ho⟩ := h
  exact produce_context ho

theorem any_eq_false_iff {roles : List Role} {type : ReportType} :
    ((Archive.visibleTypes roles).any fun types => type ∉ types) = false ↔ Visible roles type := by
  unfold Visible
  cases Archive.visibleTypes roles <;> simp

theorem file_of_done {a : Archive} {id : Uuid} {row : Row} {path : String} {content : List UInt8} {roles : List Role}
    (hrow : a.rows.find id = some row) (hvisible : Visible roles row.report.type) (hdone : row.status = "done")
    (huri : row.fileUri = some path) (hcontent : a.files path = some content) :
    a.file n roles id = .ok (content, Archive.mediaType row.report.format, Archive.filename n row) := by
  have hseen := any_eq_false_iff.mpr hvisible
  unfold Archive.file
  rw [hrow]
  dsimp only
  rw [if_neg (by rw [hseen]; decide), huri]
  dsimp only
  rw [if_neg (not_not.mpr hdone), hcontent]

/-- If no task is handed to a worker while another is at it, a report that is done stays as it is for good; its row holds
what one rendering has made, and its file is served as that rendering has written it. -/
theorem done_for_good (hn : n.Lawful) {es fs : List Event} {a b : Archive}
    (h : Run (Guarded (Fires (Archive.step same n)) Alone) empty es a) {id : Uuid} {row : Row}
    (hrow : a.rows.find id = some row) (hdone : row.status = "done")
    (h' : Run (Guarded (Fires (Archive.step same n)) Alone) a fs b) :
    b.rows.find id = some row ∧ ∃ o, Rendered n es row.asked o ∧ row.data = some o.context.data ∧
      row.summaryText = some o.context.summaryText ∧ row.summaryAudit = some o.context.summaryAudit ∧
      row.report.format = o.produced ∧ ∀ roles, Visible roles row.report.type →
        b.file n roles id = .ok (o.content, Archive.mediaType o.produced, Archive.filename n row) := by
  obtain ⟨hsound, hsingle⟩ := single_run hn h
  obtain ⟨o, ho⟩ := hsingle.kept id row hrow hdone
  have hlater : (Sound n (es ++ fs) b ∧ Single n (es ++ fs) b) ∧ b.rows.find id = some row ∧
      b.files (row.asked.path n o.produced) = some o.content := by
    refine Run.invariant (fun gs c => (Sound n (es ++ gs) c ∧ Single n (es ++ gs) c) ∧ c.rows.find id = some row ∧
      c.files (row.asked.path n o.produced) = some o.content) ?_ ?_ h'
    · rw [List.append_nil]
      exact ⟨⟨hsound, hsingle⟩, hrow, ho.file⟩
    · rintro gs c e d ⟨⟨hsoundc, hsinglec⟩, hrowc, hfilec⟩ ⟨halone, hstep⟩
      rw [← List.append_assoc]
      obtain ⟨hrowd, hfiled⟩ := hsinglec.settled hn hstep hrowc hdone
      exact ⟨⟨hsoundc.step hstep, hsinglec.step hn hsoundc halone hstep⟩, hrowd, (hfiled _).trans hfilec⟩
  obtain ⟨-, hrowb, hfileb⟩ := hlater
  refine ⟨hrowb, o, ho.rendered, ho.data, ho.summaryText, ho.summaryAudit, ho.format, ?_⟩
  intro roles hvisible
  rw [← ho.format]
  exact file_of_done hrowb hvisible hdone ho.fileUri hfileb

end

/-! Two workers are at one report, and one of them is still writing when the other says that it is done; or one worker
does it, and another report is requested. -/

def names : Names where
  archiveRoot := "data/reports"
  uuid id := String.ofList (List.replicate id 'a')
  year _ := "2026"
  month _ := "03"
  day _ := "09"

theorem lawful_names : names.Lawful where
  inj i j h := by simpa [names] using congrArg (fun s : String => s.toList.length) h
  plain i := by
    have hplain (c : Char) (hc : c ≠ 'a') : c ∉ (names.uuid i).toList := by
      simp [names, List.mem_replicate, hc]
    exact ⟨hplain '/' (by decide), hplain '.' (by decide)⟩

def plainTools : Tools where
  builders :=
    { machineHealth := fun _ _ _ => .error (.crash "")
      weeklyMaintenance := fun _ _ _ _ => .error (.crash "")
      energy := fun _ _ _ _ => .error (.crash "")
      benchmark := fun _ _ => .ok ⟨none, []⟩
      latestFailureAt := fun _ => none
      incident := fun _ _ => .error (.crash "")
      scopeName := fun _ _ => "Plant" }
  texts := ⟨Nlu.asciiTables, Char.isDigit, fun s => s, fun _ => none⟩
  repr _ := ""
  iso _ := ""
  candidate := none
  charts _ _ := []
  llmModel := ""
  renderMarkdown context := .ok (context.summaryText.toList.map fun c => c.toNat.toUInt8)
  renderDocx _ := .error (.crash "")
  renderHtml _ := .error (.crash "")
  renderPdf _ := none

def requestBenchmark : Event :=
  .request 7 ⟨fun _ _ _ _ _ => .error (.crash ""), fun _ => ⟨0, 0, 1, 1, 1⟩, some 1⟩ ⟨.benchmark, none, none, none, none, .md⟩
    0 0 "ui"

def twice : List Event :=
  [requestBenchmark, .deliver 0 7, .deliver 1 7, .start 0, .start 1, .render 0 plainTools 5, .render 1 plainTools 6,
    .create 0, .close 0, .create 1, .write 1 10, .commit 0 7]

def sameFigures (_ _ : Data) : Bool := false

def requestEnergy : Event :=
  .request 8 ⟨fun _ _ _ _ _ => .error (.crash ""), fun _ => ⟨0, 0, 1, 1, 1⟩, some 1⟩ ⟨.energy, none, none, none, none, .pdf⟩
    9 9 "ui"

def once : List Event :=
  [.start 0, .render 0 plainTools 6, .create 0, .write 0 10, .close 0, .commit 0 7]

/-- In a run without deliveries nothing is handed to a second worker. -/
theorem run_undelivered {same : Data → Data → Bool} {n : Names} {a b : Archive} {es : List Event}
    (h : Run (Fires (Archive.step same n)) a es b) (hes : ∀ e ∈ es, ∀ worker id, e ≠ .deliver worker id) :
    Run (Guarded (Fires (Archive.step same n)) Alone) a es b := by
  induction h with
  | nil => exact .nil
  | @snoc es t e u _ hstep ih =>
    refine (ih fun e' he' => hes e' (List.mem_append_left _ he')).snoc ⟨?_, hstep⟩
    cases e with
    | deliver worker id => exact absurd rfl (hes _ (List.mem_append_right _ List.mem_cons_self) worker id)
    | _ => trivial

theorem done_for_good_once : ∃ (a b : Archive) (row : Row) (o : Output),
    a.rows.find 7 = some row ∧ Rendered names (requestBenchmark :: .deliver 0 7 :: once) row.asked o ∧
      row.summaryText = some o.context.summaryText ∧
      Run (Guarded (Fires (Archive.step sameFigures names)) Alone) a [requestEnergy] b ∧
      b.file names [.engineer] 7 = .ok (o.content, Archive.mediaType o.produced, Archive.filename names row) := by
  obtain ⟨a₁, h₁, hfree⟩ : ∃ a₁, Archive.step sameFigures names empty requestBenchmark = some a₁ ∧ ∀ w, a₁.jobs w = none :=
    ⟨_, rfl, fun _ => rfl⟩
  have hdone : ((replay (Archive.step sameFigures names) empty (requestBenchmark :: .deliver 0 7 :: once)).bind fun a =>
      (replay (Archive.step sameFigures names) a [requestEnergy]).bind fun _ => (a.rows.find 7).map Row.status) =
        some "done" := by
    decide +kernel
  obtain ⟨a, ha, hrest⟩ := Option.bind_eq_some_iff.mp hdone
  obtain ⟨b, hb, hstatus⟩ := Option.bind_eq_some_iff.mp hrest
  obtain ⟨row, hrow, hdone⟩ := Option.map_eq_some_iff.mp hstatus
  obtain ⟨a₁', h₁', hafter⟩ := Option.bind_eq_some_iff.mp ha
  obtain rfl := Option.some.inj (h₁.symm.trans h₁')
  obtain ⟨a₂, h₂, honce⟩ := Option.bind_eq_some_iff.mp hafter
  have hrun : Run (Guarded (Fires (Archive.step sameFigures names)) Alone) empty
      (requestBenchmark :: .deliver 0 7 :: once) a := by
    refine Run.cons ⟨trivial, h₁⟩ (Run.cons ⟨?_, h₂⟩ (run_undelivered (run_of_replay honce) (by simp [once])))
    intro worker job hjob
    rw [hfree] at hjob
    cases hjob
  have hlater : Run (Guarded (Fires (Archive.step sameFigures names)) Alone) a [requestEnergy] b :=
    run_undelivered (run_of_replay hb) (by simp [requestEnergy])
  obtain ⟨-, o, hrendered, -, htext, -, -, hfile⟩ := done_for_good lawful_names hrun hrow hdone hlater
  exact ⟨a, b, row, o, hrow, hrendered, htext, hlater, hfile [.engineer] (by simp [Visible, Archive.visibleTypes])⟩

end TwinVoice.Reports.Generation
