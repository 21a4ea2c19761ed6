import TwinVoice.Voice.Turns
import Std.Data.String.ToInt

/-! # Which utterances act

`_handle_control` tells "repeat" and "cancel" apart and takes every other
control phrase for a confirmation, and it does so without a look at the
confidence of the transcript. So "slower" runs the pending action as "confirm"
does, and so does a "confirm" that the recogniser doubts. Both results say
exactly when. -/

namespace TwinVoice.Voice

open TwinVoice.Lib TwinVoice.Nlu

variable {W : Type}

/-- The session after one utterance on a committed database. -/
def afterUtterance (w : Wiring) (env : Env W) (actor : CurrentUser) (data : UtteranceIn)
    (db : Database W) : Session (Database W) Event :=
  ((handle w env actor data).run ⟨db, db, []⟩).2

/-- The tool of a stored action was called. -/
def RunsAction (log : List Event) : Prop :=
  ∃ id tool params, Event.toolRun (some id) tool params ∈ log

def CreatesReadBack (db db' : Database W) : Prop :=
  ∃ id, db.actions.find id = none ∧ (db'.actions.find id).isSome

/-- The action that a control phrase of this utterance finds waiting, if
`confirm` would find nothing against it. -/
def held (w : Wiring) (env : Env W) (actor : CurrentUser) (data : UtteranceIn) (db : Database W) :
    Option VoiceAction :=
  (heard w env actor data db).bind fun (session, db') => confirmable w env actor session db'

/-- The two control phrases that `_handle_control` passes on to `confirm`. -/
def reachesConfirm (w : Wiring) (data : UtteranceIn) : Prop :=
  controlWord w.grammar.tables w.catalogue data.text = some .confirm ∨
    controlWord w.grammar.tables w.catalogue data.text = some .slower

instance (w : Wiring) (data : UtteranceIn) : Decidable (reachesConfirm w data) :=
  inferInstanceAs (Decidable (_ ∨ _))

theorem not_runsAction_nil : ¬RunsAction [] := by
  rintro ⟨_, _, _, hmem⟩
  cases hmem

theorem runsAction_map (w : Wiring) (o : Option VoiceAction) :
    RunsAction (o.toList.map (confirmedRun w)) ↔ o.isSome := by
  cases o with
  | none =>
    refine ⟨fun h => absurd h not_runsAction_nil, nofun⟩
  | some a => exact ⟨fun _ => rfl, fun _ => ⟨a.id, a.tool, _, List.mem_singleton_self _⟩⟩

theorem Spoke.not_runsAction {w : Wiring} {env : Env W} {result : RouterResult}
    {s t : Session (Database W) Event} (h : Spoke w env result s t) (hs : s.log = []) :
    ¬RunsAction t.log := by
  rintro ⟨id, tool, params, hmem⟩
  cases h with
  | quiet log _ => rw [log, hs] at hmem; cases hmem
  | ranNow p _ log _ =>
    rw [log, hs] at hmem
    cases List.mem_singleton.mp hmem
  | readBack turn p lang _ log =>
    rw [log, hs] at hmem
    cases List.mem_singleton.mp hmem

/-- Handling an utterance calls the tool of a stored action exactly when the
phrase reaches `confirm` and an action is held. -/
theorem runsAction_iff (w : Wiring) (env : Env W) (actor : CurrentUser) (data : UtteranceIn)
    (db : Database W) :
    RunsAction (afterUtterance w env actor data db).log ↔
      reachesConfirm w data ∧ (held w env actor data db).isSome := by
  have h := handle_ends w env actor data db
  change Handled w env actor data db (afterUtterance w env actor data db) at h
  cases h with
  | failed log stored nothing =>
    rw [log]
    refine ⟨fun hruns => absurd hruns not_runsAction_nil, ?_⟩
    rintro ⟨hword, hheld⟩
    have hnone := nothing (by cases hword <;> simp_all)
    unfold held at hheld
    rw [hnone] at hheld
    cases hheld
  | intent session result db' base plain tier spoke whole doubt =>
    refine ⟨fun hruns => absurd hruns (spoke.not_runsAction rfl), ?_⟩
    rintro ⟨hword, -⟩
    unfold reachesConfirm at hword
    rw [plain] at hword
    cases hword <;> contradiction
  | control session control db' db'' base word hears work registry obeyed =>
    have hheld : held w env actor data db = confirmable w env actor session db'' := by
      unfold held
      rw [hears, Option.bind_some]
    have hword : reachesConfirm w data ↔ control = .confirm ∨ control = .slower := by
      unfold reachesConfirm
      simp [word]
    rw [obeyed.log, hheld, hword, List.nil_append]
    by_cases hkind : control = .confirm ∨ control = .slower
    · rw [if_pos hkind, runsAction_map]
      exact ⟨fun h => ⟨hkind, h⟩, fun h => h.2⟩
    · rw [if_neg hkind]
      exact ⟨fun h => absurd h not_runsAction_nil, fun h => absurd h.1 hkind⟩

/-- Only a confirm phrase runs the pending action, unless the utterance is a
"slower" phrase that finds an action waiting. -/
theorem confirm_phrase_only_iff (w : Wiring) (env : Env W) (actor : CurrentUser) (data : UtteranceIn)
    (db : Database W) :
    (RunsAction (afterUtterance w env actor data db).log →
        isConfirm w.grammar.tables w.catalogue data.text) ↔
      ¬(controlWord w.grammar.tables w.catalogue data.text = some .slower ∧
        (held w env actor data db).isSome) := by
  rw [runsAction_iff, ← controlWord_confirm]
  constructor
  · rintro h ⟨hslower, hheld⟩
    have hconfirm := h ⟨.inr hslower, hheld⟩
    rw [hslower] at hconfirm
    cases hconfirm
  · rintro h ⟨hword, hheld⟩
    cases hword with
    | inl hconfirm => exact hconfirm
    | inr hslower => exact absurd ⟨hslower, hheld⟩ h

/-! A work order has been read back in a session, and the operator asks the
assistant to slow down. -/

def decimalCodec : Codec where
  isoformat := Int.repr
  fromisoformat := String.toInt?
  fromisoformat_isoformat := Int.toInt?_repr
  uuidText := Nat.repr
  parseUuid s := if s.toList.all Char.isDigit then some (Nat.ofDigitChars 10 s.toList 0) else none
  str
    | .text s => s
    | _ => ""

def plainWiring : Wiring where
  grammar := ⟨asciiTables, fun _ => none, fun _ _ slots => slots,
    fun _ slots _ => slots.map fun e => (e.1, .text e.2)⟩
  catalogue := shipped
  codec := decimalCodec
  resolve _ _ := (none, [])
  rank _ _ := []
  requiredArguments _ := []
  compose intent _ _ _ := intent
  citations _ := []
  readback intent _ _ := intent
  didYouMean _ _ := "Did you mean"
  notUnderstood _ := "I didn't understand that."

def operator : CurrentUser := ⟨"operator", 1⟩

/-- Every tool does what it is asked and answers with an empty record. -/
def obligingTool : Tool Unit := fun _ _ registry => ⟨registry, none, .done []⟩

def atSecond (n : Int) : Env Unit where
  now := seconds n
  later := seconds n
  txStart := seconds n
  allowT3 := false
  verify _ _ := .ok false
  tools _ := some obligingTool
  llm := none
  newSession := 1
  newTurn := 11
  newAction := 21

def waitingAction : VoiceAction where
  id := 20
  turnId := 10
  tool := "create_work_order"
  params := [("asset_id", .text "5"), ("task", .text "inspect the bearing")]
  tier := .t2
  readback := "Creating work order: inspect the bearing on Press 04."
  status := .pending
  validationErrors := none
  expiresAt := some (seconds 10)
  confirmedAt := none
  secondFactorOk := none
  executedAt := none
  result := none
  error := none
  createdAt := 0

def waitingTurn : VoiceTurn where
  id := 10
  sessionId := 1
  «at» := 0
  transcript := "inspect the bearing on press four"
  transcriptConfidence := none
  sttMs := none
  snrDb := none
  intent := "create_work_order"
  slots := none
  intentConfidence := 1
  router := .rules
  tier := some .t2
  responseText := some "Creating work order: inspect the bearing on Press 04."
  citations := none

/-- The database right after the read-back. -/
def waitingDatabase : Database Unit where
  sessions := ⟨[⟨1, some 1, "voice", none, "en", DialogueContext.empty⟩], by decide⟩
  turns := ⟨[waitingTurn], by decide⟩
  actions := ⟨[waitingAction], by decide⟩
  registry := ⟨[⟨5, "press-04", "Press 04", "running", none⟩], [], [], [], [], ()⟩

def say (text : String) (confidence : Option Rat) : UtteranceIn :=
  ⟨text, some 1, none, "voice", confidence, none, none⟩

theorem slower_runs_action :
    ¬(RunsAction (afterUtterance plainWiring (atSecond 5) operator (say "Slow down!" none)
        waitingDatabase).log →
      isConfirm plainWiring.grammar.tables plainWiring.catalogue "Slow down!") := by
  rw [runsAction_iff]
  decide +kernel

/-! ## Doubted transcripts -/

theorem not_createsReadBack {t t' : Table VoiceAction} {db db' : Database W}
    (hbefore : db.actions = t) (hafter : db'.actions = t') (he : Evolves [] t t') :
    ¬CreatesReadBack db db' := by
  rintro ⟨id, hnone, hsome⟩
  obtain ⟨b, hb⟩ := Option.isSome_iff_exists.mp hsome
  rw [hbefore] at hnone
  rw [hafter] at hb
  have hid : b.id = id := Table.key_of_find hb
  cases he.origin b (Table.mem_of_find hb) with
  | kept h => rw [hid, hnone] at h; cases h
  | settled _ h _ _ => rw [hid, hnone] at h; cases h
  | new _ _ _ said _ => cases said

/-- What is committed after a doubted transcript has no row that was not there before. -/
theorem doubted_reads_nothing_back (w : Wiring) (env : Env W) (actor : CurrentUser)
    {data : UtteranceIn} (db : Database W) (hd : data.doubted = true) :
    ¬CreatesReadBack db (afterUtterance w env actor data db).stored := by
  have h := handle_ends w env actor data db
  change Handled w env actor data db (afterUtterance w env actor data db) at h
  generalize afterUtterance w env actor data db = t at h
  cases h with
  | failed log stored nothing => exact not_createsReadBack rfl stored (.refl _ _)
  | intent session result db' base plain tier spoke whole doubt =>
    obtain ⟨-, hwork⟩ := doubt hd
    have hexpired : Evolves [] db.actions (expireStale db' env.now).actions :=
      base ▸ .expireStale db' env.now
    cases whole with
    | inl hsame => exact not_createsReadBack rfl (by rw [hsame, base]) (.refl _ _)
    | inr hall => exact not_createsReadBack rfl (by rw [hall, hwork]) hexpired
  | control session control db' db'' base word hears work registry obeyed =>
    have hexpired : Evolves [] db.actions db''.actions := work ▸ .expireStale db env.now
    cases obeyed.keeps.stored with
    | inl hsame => exact not_createsReadBack rfl (by rw [hsame, base]) (.refl _ _)
    | inr hmoved => exact not_createsReadBack rfl rfl (hexpired.trans hmoved)

/-- A doubted transcript neither reads an action back nor runs one, unless it
is a phrase that reaches `confirm` while an action is held. -/
theorem doubted_never_acts_iff (w : Wiring) (env : Env W) (actor : CurrentUser) (data : UtteranceIn)
    (db : Database W) :
    (data.doubted = true →
        ¬CreatesReadBack db (afterUtterance w env actor data db).stored ∧
          ¬RunsAction (afterUtterance w env actor data db).log) ↔
      ¬(data.doubted = true ∧ reachesConfirm w data ∧ (held w env actor data db).isSome) := by
  rw [← runsAction_iff]
  constructor
  · rintro h ⟨hd, hruns⟩
    exact (h hd).2 hruns
  · intro h hd
    exact ⟨doubted_reads_nothing_back w env actor db hd, fun hruns => h ⟨hd, hruns⟩⟩

/-- A "confirm" that the recogniser gives one chance in ten. -/
theorem doubted_confirm_runs_action :
    ¬((say "confirm" (some (1 / 10))).doubted = true →
      ¬CreatesReadBack waitingDatabase (afterUtterance plainWiring (atSecond 5) operator
          (say "confirm" (some (1 / 10))) waitingDatabase).stored ∧
        ¬RunsAction (afterUtterance plainWiring (atSecond 5) operator
          (say "confirm" (some (1 / 10))) waitingDatabase).log) := by
  intro h
  have hdoubted : (say "confirm" (some (1 / 10))).doubted = true := by decide +kernel
  refine (h hdoubted).2 ?_
  rw [runsAction_iff]
  decide +kernel

end TwinVoice.Voice
