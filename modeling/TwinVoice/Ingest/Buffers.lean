import TwinVoice.Lib.Transition
import Mathlib.Algebra.BigOperators.Group.Finset.Basic
import Mathlib.Data.Fintype.Basic

/-! # The buffers of the ingest consumer

Messages append rows to three buffers, and a flush copies and clears all
three under `_buffer_lock` and then inserts what it copied, one batch for each
table. The thread that handles messages, the timer thread and the shutdown run
this code interleaved; here every instruction that touches the lock, a buffer
or a table is one step of one of any number of threads. -/

namespace TwinVoice.Ingest.Buffers

open TwinVoice.Lib.Transition

/-- `BATCH_SIZE`. -/
def batchSize : Nat := 500

/-- `_buffer`, `_energy_buffer`, `_production_buffer` and their tables. -/
inductive Kind
  | telemetry | energy | production
  deriving DecidableEq

/-- What a message comes to: a production row, an energy row and telemetry rows. -/
structure Message (Row : Type) where
  production : Option Row
  energy : Option Row
  telemetry : List Row

/-- Where a thread is in `_flush_buffer`. -/
inductive Point
  | acquire
  | copy (k : Kind)
  | clear (k : Kind)
  | release
  | insert (k : Kind)
  deriving DecidableEq

/-- The next instruction, if the flush has one. -/
def Point.next : Point → Option Point
  | .acquire => some (.copy .telemetry)
  | .copy .telemetry => some (.copy .energy)
  | .copy .energy => some (.copy .production)
  | .copy .production => some (.clear .telemetry)
  | .clear .telemetry => some (.clear .energy)
  | .clear .energy => some (.clear .production)
  | .clear .production => some .release
  | .release => some (.insert .telemetry)
  | .insert .telemetry => some (.insert .energy)
  | .insert .energy => some (.insert .production)
  | .insert .production => none

/-- Where a thread is, and what it holds in local variables there. -/
inductive Pc (Row : Type)
  | idle
  /-- in `_handle_asset_metrics`, before the production row is appended -/
  | production (m : Message Row)
  | energy (m : Message Row)
  /-- before `with self._buffer_lock`, if there are telemetry rows -/
  | telemetry (rows : List Row)
  /-- in the `with` block, before `extend` -/
  | locked (rows : List Row)
  /-- before `len(self._buffer) >= BATCH_SIZE` -/
  | extended
  /-- at the end of the `with` block -/
  | unlocking
  /-- in `_flush_buffer`, called from the `with` block or not -/
  | flush (p : Point) (nested : Bool) (taken : Kind → List Row)

/-- Where the caller of `_flush_buffer` goes on. -/
def Pc.returned {Row : Type} (nested : Bool) : Pc Row := if nested then .unlocking else .idle

/-- The instruction of a flush after this one. -/
def Pc.after {Row : Type} (p : Point) (nested : Bool) (taken : Kind → List Row) : Pc Row :=
  match p.next with
  | some q => .flush q nested taken
  | none => .returned nested

/-- The consumer, its tables and, for the statements only, the rows that were
ever appended and those that a table refused. -/
structure State (Row : Type) (n : Nat) where
  lock : Option (Fin n)
  buffer : Kind → List Row
  thread : Fin n → Pc Row
  stored : Kind → List Row
  appended : Kind → List Row
  refused : Kind → List Row

section
variable {Row : Type} {n : Nat}

namespace State

def goto (s : State Row n) (t : Fin n) (pc : Pc Row) : State Row n :=
  { s with thread := Function.update s.thread t pc }

/-- `append` and `extend`. -/
def append (s : State Row n) (k : Kind) (rows : List Row) : State Row n :=
  { s with
    buffer := Function.update s.buffer k (s.buffer k ++ rows)
    appended := Function.update s.appended k (s.appended k ++ rows) }

end State

/-- The rows that a table takes and refuses when they are inserted one by one. -/
def sift (takes : List Row → Row → Bool) (stored : List Row) : List Row → List Row × List Row
  | [] => ([], [])
  | r :: rows =>
    if takes stored r then
      let rest := sift takes (stored ++ [r]) rows
      (r :: rest.1, rest.2)
    else
      let rest := sift takes stored rows
      (rest.1, r :: rest.2)

/-- `_insert`: one transaction for the batch, so a refused row or a failing
database rolls all of it back, and the exception is logged. -/
def State.insert (takes : Kind → List Row → Row → Bool) (s : State Row n) (k : Kind) (rows : List Row)
    (works : Bool) : State Row n :=
  let refused := (sift (takes k) (s.stored k) rows).2
  { s with
    stored := if works ∧ refused = [] then Function.update s.stored k (s.stored k ++ rows) else s.stored
    refused := Function.update s.refused k (s.refused k ++ refused) }

/-- An insert into one table leaves the others alone. -/
theorem State.insert_of_ne (takes : Kind → List Row → Row → Bool) (s : State Row n) {k k' : Kind}
    (rows : List Row) (works : Bool) (hk : k' ≠ k) :
    (s.insert takes k rows works).stored k' = s.stored k' ∧
      (s.insert takes k rows works).refused k' = s.refused k' := by
  refine ⟨?_, Function.update_of_ne hk ..⟩
  simp only [State.insert]
  split
  · exact Function.update_of_ne hk ..
  · rfl

inductive Event (Row : Type) (n : Nat)
  /-- a thread starts on a message -/
  | message (t : Fin n) (m : Message Row)
  /-- a thread calls `_flush_buffer`: the timer's, or the one that shuts down -/
  | flush (t : Fin n)
  /-- a thread executes its next instruction; `works` says whether the database does -/
  | run (t : Fin n) (works : Bool)

/-- An instruction of `_flush_buffer`. -/
def runFlush (takes : Kind → List Row → Row → Bool) (s : State Row n) (t : Fin n) (works : Bool)
    (p : Point) (nested : Bool) (taken : Kind → List Row) : Option (State Row n) :=
  match p with
  | .acquire =>
    if s.lock = none then some ({ s with lock := some t }.goto t (.after p nested taken)) else none
  | .copy k => some (s.goto t (.after p nested (Function.update taken k (s.buffer k))))
  | .clear k =>
    some ({ s with buffer := Function.update s.buffer k [] }.goto t (.after p nested taken))
  | .release =>
    -- nothing to insert: the early return
    some ({ s with lock := none }.goto t
      (if taken .telemetry = [] ∧ taken .energy = [] ∧ taken .production = [] then .returned nested
        else .after p nested taken))
  | .insert k => some ((s.insert takes k (taken k) works).goto t (.after p nested taken))

def step (takes : Kind → List Row → Row → Bool) (s : State Row n) : Event Row n → Option (State Row n)
  | .message t m =>
    match s.thread t with
    | .idle => some (s.goto t (.production m))
    | _ => none
  | .flush t =>
    match s.thread t with
    | .idle => some (s.goto t (.flush .acquire false fun _ => []))
    | _ => none
  | .run t works =>
    match s.thread t with
    | .idle => none
    | .production m => some ((s.append .production m.production.toList).goto t (.energy m))
    | .energy m => some ((s.append .energy m.energy.toList).goto t (.telemetry m.telemetry))
    | .telemetry rows =>
      if rows = [] then some (s.goto t .idle)
      else if s.lock = none then some ({ s with lock := some t }.goto t (.locked rows))
      else none
    | .locked rows => some ((s.append .telemetry rows).goto t .extended)
    | .extended =>
      some (s.goto t (if batchSize ≤ (s.buffer .telemetry).length then .flush .acquire true fun _ => []
        else .unlocking))
    | .unlocking => some ({ s with lock := none }.goto t .idle)
    | .flush p nested taken => runFlush takes s t works p nested taken

/-- A consumer that has started: nothing buffered, every thread idle. -/
def start : State Row n where
  lock := none
  buffer _ := []
  thread _ := .idle
  stored _ := []
  appended _ := []
  refused _ := []

/-! ## The cases of a step -/

section
variable (takes : Kind → List Row → Row → Bool) {s u : State Row n}

inductive Flushes (s : State Row n) (t : Fin n) (works nested : Bool) (taken : Kind → List Row) :
    Point → State Row n → Prop
  | acquire : s.lock = none → Flushes s t works nested taken .acquire
      ({ s with lock := some t }.goto t (.after .acquire nested taken))
  | copy {k} : Flushes s t works nested taken (.copy k)
      (s.goto t (.after (.copy k) nested (Function.update taken k (s.buffer k))))
  | clear {k} : Flushes s t works nested taken (.clear k)
      ({ s with buffer := Function.update s.buffer k [] }.goto t (.after (.clear k) nested taken))
  | nothing : (∀ k, taken k = []) → Flushes s t works nested taken .release
      ({ s with lock := none }.goto t (.returned nested))
  | release : Flushes s t works nested taken .release
      ({ s with lock := none }.goto t (.after .release nested taken))
  | insert {k} : Flushes s t works nested taken (.insert k)
      ((s.insert takes k (taken k) works).goto t (.after (.insert k) nested taken))

inductive Steps (s : State Row n) : Event Row n → State Row n → Prop
  | message {t m} : s.thread t = .idle → Steps s (.message t m) (s.goto t (.production m))
  | flush {t} : s.thread t = .idle →
      Steps s (.flush t) (s.goto t (.flush .acquire false fun _ => []))
  | production {t works m} : s.thread t = .production m →
      Steps s (.run t works) ((s.append .production m.production.toList).goto t (.energy m))
  | energy {t works m} : s.thread t = .energy m →
      Steps s (.run t works) ((s.append .energy m.energy.toList).goto t (.telemetry m.telemetry))
  | noTelemetry {t works} : s.thread t = .telemetry [] → Steps s (.run t works) (s.goto t .idle)
  | lock {t works rows} : s.thread t = .telemetry rows → s.lock = none →
      Steps s (.run t works) ({ s with lock := some t }.goto t (.locked rows))
  | extend {t works rows} : s.thread t = .locked rows →
      Steps s (.run t works) ((s.append .telemetry rows).goto t .extended)
  | full {t works} : s.thread t = .extended → batchSize ≤ (s.buffer .telemetry).length →
      Steps s (.run t works) (s.goto t (.flush .acquire true fun _ => []))
  | notFull {t works} : s.thread t = .extended → (s.buffer .telemetry).length < batchSize →
      Steps s (.run t works) (s.goto t .unlocking)
  | unlock {t works} : s.thread t = .unlocking →
      Steps s (.run t works) ({ s with lock := none }.goto t .idle)
  | flushing {t works p nested taken u} : s.thread t = .flush p nested taken →
      Flushes takes s t works nested taken p u → Steps s (.run t works) u

theorem flushes_of_runFlush {t : Fin n} {works : Bool} {p : Point} {nested : Bool}
    {taken : Kind → List Row} (h : runFlush takes s t works p nested taken = some u) :
    Flushes takes s t works nested taken p u := by
  cases p with
  | acquire =>
    simp only [runFlush] at h
    split at h
    · cases h
      exact .acquire ‹_›
    · cases h
  | copy k =>
    cases h
    exact .copy
  | clear k =>
    cases h
    exact .clear
  | release =>
    simp only [runFlush] at h
    split at h
    · rename_i hnone
      cases h
      refine .nothing fun k => ?_
      cases k <;> simp [hnone]
    · cases h
      exact .release
  | insert k =>
    cases h
    exact .insert

theorem steps_of_step {e : Event Row n} (h : Fires (step takes) s e u) : Steps takes s e u := by
  have h : step takes s e = some u := h
  cases e with
  | message t m =>
    cases hpc : s.thread t <;> simp only [step, hpc] at h <;> cases h
    exact .message hpc
  | flush t =>
    cases hpc : s.thread t <;> simp only [step, hpc] at h <;> cases h
    exact .flush hpc
  | run t works =>
    cases hpc : s.thread t <;> simp only [step, hpc] at h
    case idle => cases h
    case production m => cases h; exact .production hpc
    case energy m => cases h; exact .energy hpc
    case telemetry rows =>
      split at h
      · rename_i hnone
        cases h
        exact .noTelemetry (hnone ▸ hpc)
      · split at h
        · cases h
          exact .lock hpc ‹_›
        · cases h
    case locked rows => cases h; exact .extend hpc
    case extended =>
      cases h
      split
      · exact .full hpc ‹_›
      · exact .notFull hpc (Nat.lt_of_not_le ‹_›)
    case unlocking => cases h; exact .unlock hpc
    case flush p nested taken => exact .flushing hpc (flushes_of_runFlush takes h)

end

end

end TwinVoice.Ingest.Buffers
