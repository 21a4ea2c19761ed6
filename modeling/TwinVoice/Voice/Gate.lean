import TwinVoice.Lib.Transition
import TwinVoice.Voice.Control

/-! # The safety gate over runs of requests

Requests come one after another, and between them anything outside
`voice_actions` and `voice_turns` may change. Whatever a run has done, a tool
whose tier needs a confirmation is called only for an action that was read
back before, and only when every check of `confirm` passes at that moment.
That the action is called once needs that no confirmed tool dies before
anything is committed: its row is then still pending. -/

namespace TwinVoice.Voice

open TwinVoice.Lib TwinVoice.Lib.Transition TwinVoice.Nlu

variable {W : Type}

inductive Request
  | utterance (data : UtteranceIn)
  | confirm (actionId : Uuid) (pin : Option String)
  | cancel (actionId : Uuid)

/-- What happens next: a request is served, or data of other modules changes. -/
inductive Occurrence (W : Type)
  | request (env : Env W) (actor : CurrentUser) (request : Request)
  | elsewhere (sessions : Table VoiceSession) (registry : Registry W)

/-- The committed database and everything said so far. -/
structure Plant (W : Type) where
  db : Database W
  history : List Event

/-- The session after a request on a committed database. -/
def serve (w : Wiring) (env : Env W) (actor : CurrentUser) (request : Request) (db : Database W) :
    Session (Database W) Event :=
  match request with
  | .utterance data => afterUtterance w env actor data db
  | .confirm id pin => ((confirm w env actor id pin "en").run ⟨db, db, []⟩).2
  | .cancel id => ((cancel id).run ⟨db, db, []⟩).2

def said (w : Wiring) (s : Plant W) : Occurrence W → List Event
  | .request env actor request => (serve w env actor request s.db).log
  | .elsewhere _ _ => []

def next (w : Wiring) (s : Plant W) : Occurrence W → Plant W
  | .request env actor request =>
    let t := serve w env actor request s.db
    ⟨t.stored, s.history ++ t.log⟩
  | .elsewhere sessions registry => ⟨{ s.db with sessions := sessions, registry := registry }, s.history⟩

def Next (w : Wiring) (s : Plant W) (o : Occurrence W) (t : Plant W) : Prop := t = next w s o

/-- The tool call that a request makes for a stored action, and its result. -/
def confirmedResult (w : Wiring) (s : Plant W) : Occurrence W → Option (ToolResult W)
  | .request env actor (.confirm id pin) =>
    (s.db.actions.find id).bind fun a =>
      if check w env actor s.db.registry a pin = .clear
      then (env.tools a.tool).map (confirmedCall w env actor "en" s.db a) else none
  | .request env actor (.utterance data) =>
    if reachesConfirm w data then
      (heard w env actor data s.db).bind fun (session, db) =>
        (confirmable w env actor session db).bind fun a =>
          (env.tools a.tool).map (confirmedCall w env actor (data.lang.getD session.lang) db a)
    else none
  | _ => none

/-- No tool that this occurrence confirms dies with nothing committed. -/
def Survives (w : Wiring) (s : Plant W) (o : Occurrence W) : Prop :=
  (confirmedResult w s o).all (fun r => !r.diesUncommitted) = true

instance (w : Wiring) (s : Plant W) (o : Occurrence W) : Decidable (Survives w s o) :=
  inferInstanceAs (Decidable (_ = true))

theorem check_clear {w : Wiring} {env : Env W} {actor : CurrentUser} {reg : Registry W}
    {a : VoiceAction} {pin : Option String} (h : check w env actor reg a pin = .clear) :
    a.status = .pending ∧ a.windowClosed env.later = false ∧
      validate w.codec reg a env.later = .ok [] ∧
      (needsSecondFactor a.tier = true →
        env.allowT3 = true ∧ ∃ p, pin = some p ∧ env.verify actor.sub p = .ok true) := by
  unfold check at h
  by_cases hp : a.status ≠ .pending
  · rw [if_pos hp] at h; cases h
  by_cases hw : a.windowClosed env.later = true
  · rw [if_neg hp, if_pos hw] at h; cases h
  by_cases h3 : (needsSecondFactor a.tier && !env.allowT3) = true
  · rw [if_neg hp, if_neg hw, if_pos h3] at h; cases h
  rw [if_neg hp, if_neg hw, if_neg h3] at h
  cases hf : secondFactor env actor a.tier pin with
  | error failure => rw [hf] at h; cases h
  | ok passed =>
    cases passed with
    | false => rw [hf] at h; cases h
    | true =>
      rw [hf] at h
      refine ⟨not_not.mp hp, Bool.not_eq_true _ ▸ hw, ?_, fun hneeds => ?_⟩
      · cases hv : validate w.codec reg a env.later with
        | error reason => simp only [hv] at h; cases h
        | ok errors =>
          cases errors with
          | nil => rfl
          | cons e es => simp only [hv] at h; cases h
      · refine ⟨by simpa [hneeds] using h3, ?_⟩
        unfold secondFactor secondFactorOk at hf
        rw [if_pos hneeds] at hf
        cases pin with
        | none => cases hf
        | some p =>
          by_cases hempty : p = ""
          · simp only [hempty, if_true] at hf; cases hf
          · simp only [hempty, if_false] at hf
            exact ⟨p, rfl, hf⟩

/-- A `readBack` event as `_read_back` makes them. -/
def ReadBackOf (w : Wiring) (a : VoiceAction) (resolved : Params) : Prop :=
  a.params = w.codec.jsonable resolved ∧ w.catalogue.tier a.tool = some a.tier

/-- The PIN that comes with a request. -/
def Request.pin : Request → Option String
  | .confirm _ pin => pin
  | _ => none

/-- What one request says, with what it rests on. -/
inductive Says (w : Wiring) (env : Env W) (actor : CurrentUser) (pin : Option String)
    (db : Database W) (survives : Prop) (t : Session (Database W) Event) : Prop
  | nothing (log : t.log = [])
  | ranNow (tool : String) (p : Params) (tier : Tier) (known : w.catalogue.tier tool = some tier)
      (free : needsConfirmation tier = false) (log : t.log = [.toolRun none tool p])
  | readBack (a : VoiceAction) (p : Params) (made : ReadBackOf w a p) (log : t.log = [.readBack a p])
  | ran (a : VoiceAction) (stored : db.actions.find a.id = some a)
      (clear : check w env actor db.registry a pin = .clear) (log : t.log = [confirmedRun w a])
      (settled : survives → Settled t.stored.actions a.id)

theorem utterance_speaks (w : Wiring) (env : Env W) (actor : CurrentUser) (data : UtteranceIn)
    (s : Plant W) :
    let t := afterUtterance w env actor data s.db
    Evolves t.log s.db.actions t.stored.actions ∧
      Says w env actor none s.db (Survives w s (.request env actor (.utterance data))) t := by
  intro t
  have hends : Handled w env actor data s.db t := handle_ends w env actor data s.db
  clear_value t
  cases hends with
  | failed log stored nothing => exact ⟨stored ▸ .refl _ _, .nothing log⟩
  | intent session result db' base plain tier spoke whole doubt =>
    have hexpired : Evolves t.log s.db.actions (expireStale db' env.now).actions :=
      base ▸ .expireStale db' env.now
    have hwork : Evolves t.log s.db.actions t.work.actions := by
      cases spoke with
      | quiet log work => exact work ▸ hexpired
      | ranNow p free log work => exact work ▸ hexpired
      | readBack turn p lang work log =>
        exact hexpired.trans (.insert work (by rw [log]; exact List.mem_singleton_self _))
    refine ⟨?_, ?_⟩
    · cases whole with
      | inl hsame => rw [hsame, base]; exact .refl _ _
      | inr hall => exact hall ▸ hwork
    · cases spoke with
      | quiet log _ => exact .nothing log
      | ranNow p free log _ => exact .ranNow result.intent p result.tier tier free log
      | readBack turn p lang _ log => exact .readBack _ p ⟨rfl, tier⟩ log
  | control session control db' db'' base word hears work registry obeyed =>
    have hexpired : Evolves t.log s.db.actions db''.actions := work ▸ .expireStale s.db env.now
    refine ⟨?_, ?_⟩
    · cases obeyed.keeps.stored with
      | inl hsame => rw [hsame, base]; exact .refl _ _
      | inr hmoved => exact hexpired.trans hmoved.anyLog
    by_cases hkind : control = .confirm ∨ control = .slower
    · have hlog := obeyed.log
      rw [if_pos hkind] at hlog
      cases hc : confirmable w env actor session db'' with
      | none => rw [hc] at hlog; exact .nothing hlog
      | some a =>
        rw [hc] at hlog
        obtain ⟨hp, hclear⟩ := Option.filter_eq_some_iff.mp hc
        simp only [decide_eq_true_eq] at hclear
        obtain ⟨hfind, hpending, -⟩ := pendingForSession_some hp
        have hbefore : Evolves [] s.db.actions db''.actions := work ▸ .expireStale s.db env.now
        refine .ran a (hbefore.pending_before hfind hpending) (registry ▸ hclear.1) hlog fun hlives => ?_
        obtain ⟨run, hrun⟩ := Option.isSome_iff_exists.mp hclear.2
        refine obeyed.settled a run hc hrun ?_ hkind
        have hword : reachesConfirm w data := by
          unfold reachesConfirm
          rw [word]
          exact hkind.imp (congrArg some) (congrArg some)
        simpa [Survives, confirmedResult, hword, hears, hc, hrun] using hlives
    · have hlog := obeyed.log
      rw [if_neg hkind] at hlog
      exact .nothing hlog

theorem confirm_speaks (w : Wiring) (env : Env W) (actor : CurrentUser) (id : Uuid)
    (pin : Option String) (s : Plant W) :
    let t := ((confirm w env actor id pin "en").run ⟨s.db, s.db, []⟩).2
    Evolves t.log s.db.actions t.stored.actions ∧
      Says w env actor pin s.db (Survives w s (.request env actor (.confirm id pin))) t := by
  intro t
  cases hfind : s.db.actions.find id with
  | none =>
    have ht : t = ⟨s.db, s.db, []⟩ := confirm_missing w env actor pin "en" hfind
    rw [ht]
    exact ⟨.refl _ _, .nothing rfl⟩
  | some a =>
    have hid : a.id = id := Table.key_of_find hfind
    subst hid
    obtain ⟨hkeeps, hends⟩ := confirm_ends w env actor pin "en" (s := ⟨s.db, s.db, []⟩) hfind
    refine ⟨?_, ?_⟩
    · cases hkeeps.stored with
      | inl hsame => exact hsame ▸ .refl _ _
      | inr hmoved => exact hmoved.anyLog
    cases hends with
    | stopped log why => exact .nothing log
    | ran run known clear log work stored =>
      refine .ran a hfind clear log fun hlives => stored ?_
      simpa [Survives, confirmedResult, hfind, clear, known] using hlives

theorem cancel_speaks (w : Wiring) (env : Env W) (actor : CurrentUser) (id : Uuid) (s : Plant W)
    (survives : Prop) :
    let t := ((cancel id).run ⟨s.db, s.db, []⟩).2
    Evolves t.log s.db.actions t.stored.actions ∧ Says w env actor none s.db survives t := by
  intro t
  cases hfind : s.db.actions.find id with
  | none =>
    have ht : t = ⟨s.db, s.db, []⟩ := cancel_missing hfind
    rw [ht]
    exact ⟨.refl _ _, .nothing rfl⟩
  | some a =>
    have hid : a.id = id := Table.key_of_find hfind
    subst hid
    obtain ⟨hkeeps, hlog⟩ := cancel_ends (s := ⟨s.db, s.db, []⟩) hfind
    refine ⟨?_, .nothing hlog⟩
    cases hkeeps.stored with
    | inl hsame => exact hsame ▸ .refl _ _
    | inr hmoved => exact hmoved.anyLog

theorem serve_speaks (w : Wiring) (env : Env W) (actor : CurrentUser) (request : Request)
    (s : Plant W) :
    let t := serve w env actor request s.db
    Evolves t.log s.db.actions t.stored.actions ∧
      Says w env actor request.pin s.db (Survives w s (.request env actor request)) t := by
  cases request with
  | utterance data => exact utterance_speaks w env actor data s
  | confirm id pin => exact confirm_speaks w env actor id pin s
  | cancel id => exact cancel_speaks w env actor id s _

/-! ## Runs -/

/-- The event is a call of a tool for the action `id`. -/
def Event.runs (id : Uuid) : Event → Bool
  | .toolRun (some i) _ _ => i = id
  | _ => false

/-- How often the tool of an action has been called. -/
def timesRun (id : Uuid) (history : List Event) : Nat := history.countP (Event.runs id)

/-- A row of `voice_actions` was read back as it stands. -/
def Announced (w : Wiring) (history : List Event) (a : VoiceAction) : Prop :=
  ∃ a₀ resolved, Event.readBack a₀ resolved ∈ history ∧ ReadBackOf w a₀ resolved ∧ SameAction a₀ a

structure Inv (w : Wiring) (s : Plant W) : Prop where
  announced : ∀ a ∈ s.db.actions.rows, Announced w s.history a
  settled : ∀ id, 0 < timesRun id s.history → Settled s.db.actions id
  once : ∀ id, timesRun id s.history ≤ 1

theorem Announced.mono {w : Wiring} {history more : List Event} {a : VoiceAction}
    (h : Announced w history a) : Announced w (history ++ more) a := by
  obtain ⟨a₀, resolved, hmem, hmade, hsame⟩ := h
  exact ⟨a₀, resolved, List.mem_append_left _ hmem, hmade, hsame⟩

/-- Every row after a request was announced before it or by it. -/
theorem announced_evolves {w : Wiring} {history log : List Event} {t t' : Table VoiceAction}
    (hbefore : ∀ a ∈ t.rows, Announced w history a)
    (hmade : ∀ a p, Event.readBack a p ∈ log → ReadBackOf w a p) (he : Evolves log t t') :
    ∀ a ∈ t'.rows, Announced w (history ++ log) a := by
  intro b hb
  cases he.origin b hb with
  | kept h => exact (hbefore b (Table.mem_of_find h)).mono
  | settled a h same _ =>
    have hafter : Announced w (history ++ log) a := (hbefore a (Table.mem_of_find h)).mono
    obtain ⟨a₀, resolved, hmem, hmade₀, hsame⟩ := hafter
    exact ⟨a₀, resolved, hmem, hmade₀, hsame.trans same⟩
  | new _ a p hmem same =>
    exact ⟨a, p, List.mem_append_right _ hmem, hmade a p hmem, same⟩

theorem timesRun_append (id : Uuid) (history log : List Event) :
    timesRun id (history ++ log) = timesRun id history + timesRun id log :=
  List.countP_append

theorem timesRun_confirmedRun (w : Wiring) (a : VoiceAction) (id : Uuid) :
    timesRun id [confirmedRun w a] = if a.id = id then 1 else 0 := by
  simp [timesRun, confirmedRun, Event.runs, List.countP_cons]

theorem Inv.serve {w : Wiring} {env : Env W} {actor : CurrentUser} {pin : Option String}
    {survives : Prop} {s : Plant W} {t : Session (Database W) Event} (h : Inv w s)
    (hevolves : Evolves t.log s.db.actions t.stored.actions)
    (hspoken : Says w env actor pin s.db survives t) (hlives : survives) :
    Inv w ⟨t.stored, s.history ++ t.log⟩ := by
  have hsettled : ∀ id, 0 < timesRun id s.history → Settled t.stored.actions id :=
    fun id hid => (h.settled id hid).evolves hevolves
  have hsilent : (∀ id, timesRun id t.log = 0) →
      (∀ a p, Event.readBack a p ∈ t.log → ReadBackOf w a p) →
      Inv w ⟨t.stored, s.history ++ t.log⟩ := by
    intro hzero hmade
    refine ⟨announced_evolves h.announced hmade hevolves, fun id hid => ?_, fun id => ?_⟩
    · rw [timesRun_append, hzero id] at hid
      exact hsettled id hid
    · rw [timesRun_append, hzero id]
      exact h.once id
  cases hspoken with
  | nothing log =>
    exact hsilent (by rw [log]; exact fun _ => rfl) (by rw [log]; exact fun _ _ hm => nomatch hm)
  | ranNow tool p tier known free log =>
    refine hsilent (by rw [log]; exact fun _ => rfl) fun a q hm => ?_
    rw [log] at hm
    cases List.mem_singleton.mp hm
  | readBack a p made log =>
    refine hsilent (by rw [log]; exact fun _ => rfl) fun b q hm => ?_
    rw [log] at hm
    cases List.mem_singleton.mp hm
    exact made
  | ran a stored clear log settled =>
    -- The row is pending before the call, so it has not been called yet, and settled after it.
    have hnever : timesRun a.id s.history = 0 := by
      by_contra hne
      obtain ⟨b, hb, hdone⟩ := h.settled a.id (Nat.pos_of_ne_zero hne)
      rw [stored] at hb
      cases hb
      exact hdone (check_clear clear).1
    have hcount : ∀ id, timesRun id (s.history ++ t.log) =
        timesRun id s.history + if a.id = id then 1 else 0 := by
      intro id
      rw [timesRun_append, log, timesRun_confirmedRun]
    refine ⟨announced_evolves h.announced (fun b q hm => ?_) hevolves, fun id hid => ?_, fun id => ?_⟩
    · rw [log] at hm
      cases List.mem_singleton.mp hm
    · by_cases hid' : a.id = id
      · exact hid' ▸ settled hlives
      · refine hsettled id ?_
        change 0 < timesRun id (s.history ++ t.log) at hid
        rwa [hcount, if_neg hid'] at hid
    · change timesRun id (s.history ++ t.log) ≤ 1
      rw [hcount]
      have := h.once id
      by_cases hid' : a.id = id
      · subst hid'
        rw [hnever, if_pos rfl]
      · rw [if_neg hid']
        exact this

theorem Inv.step {w : Wiring} {s : Plant W} {o : Occurrence W} (h : Inv w s) (hlives : Survives w s o) :
    Inv w (next w s o) := by
  cases o with
  | elsewhere sessions registry => exact ⟨h.announced, h.settled, h.once⟩
  | request env actor request =>
    obtain ⟨hevolves, hspoken⟩ := serve_speaks w env actor request s
    exact h.serve hevolves hspoken hlives

/-! ## The gate -/

/-- Instants stand under the datetime keys, and nothing that is text does. -/
def DatetimesInPlace (p : Params) : Prop :=
  ∀ e ∈ p, match e.2 with
    | .instant _ => e.1 ∈ datetimeParams
    | .text _ => e.1 ∉ datetimeParams
    | _ => True

/-- Storing parameters and reviving them gives them back. -/
theorem reviveParams_jsonable (c : Codec) {p : Params} (h : DatetimesInPlace p) :
    c.reviveParams (c.jsonable p) = p := by
  induction p with
  | nil => rfl
  | cons e es ih =>
    have htail := ih fun x hx => h x (List.mem_cons_of_mem _ hx)
    have hhead := h e List.mem_cons_self
    obtain ⟨key, v⟩ := e
    unfold Codec.reviveParams Codec.jsonable at htail ⊢
    rw [List.map_cons, List.filterMap_cons]
    cases v with
    | instant t =>
      simp only at hhead
      simp only [if_pos hhead, c.fromisoformat_isoformat, Option.map_some, htail]
    | text s =>
      simp only at hhead
      simp only [if_neg hhead, htail]
    | null | bool | number => simp only [htail]

/-- Everything that stands behind the call of a gated tool for the row `a`. -/
structure Passed (w : Wiring) (env : Env W) (actor : CurrentUser) (pin : Option String) (s : Plant W)
    (tool : String) (params : Params) (tier : Tier) (a : VoiceAction) : Prop where
  stored : s.db.actions.find a.id = some a
  readBack : ∃ a₀ resolved, Event.readBack a₀ resolved ∈ s.history ∧ a₀.id = a.id ∧ a₀.tool = tool ∧
    params = w.codec.reviveParams (w.codec.jsonable resolved) ∧
    (DatetimesInPlace resolved → params = resolved)
  pending : a.status = .pending
  unexpired : a.windowClosed env.later = false
  valid : validate w.codec s.db.registry a env.later = .ok []
  factor : tier = .t3 → env.allowT3 = true ∧ ∃ p, pin = some p ∧ env.verify actor.sub p = .ok true

/-- What an occurrence in this state passes before it calls a tool of tier T2 or T3. -/
def Gate (w : Wiring) (s : Plant W) : Occurrence W → Prop
  | .request env actor request =>
    ∀ action tool params tier,
      Event.toolRun action tool params ∈ (serve w env actor request s.db).log →
      w.catalogue.tier tool = some tier → needsConfirmation tier = true →
      ∃ a, action = some a.id ∧ Passed w env actor request.pin s tool params tier a
  | .elsewhere _ _ => True

theorem Inv.gate {w : Wiring} {s : Plant W} (h : Inv w s) (o : Occurrence W) : Gate w s o := by
  cases o with
  | elsewhere sessions registry => trivial
  | request env actor request =>
    intro action tool params tier hmem htier hgated
    obtain ⟨-, hspoken⟩ := serve_speaks w env actor request s
    cases hspoken with
    | nothing log => rw [log] at hmem; cases hmem
    | readBack a p made log => rw [log] at hmem; cases List.mem_singleton.mp hmem
    | ranNow tool p tier' known free log =>
      rw [log] at hmem
      cases List.mem_singleton.mp hmem
      rw [known] at htier
      cases htier
      rw [free] at hgated
      cases hgated
    | ran a stored clear log settled =>
      rw [log] at hmem
      cases List.mem_singleton.mp hmem
      obtain ⟨hpending, hopen, hvalid, hfactor⟩ := check_clear clear
      obtain ⟨a₀, resolved, hsaid, ⟨hparams, htier₀⟩, hsame⟩ :=
        h.announced a (Table.mem_of_find stored)
      have hrevived : w.codec.reviveParams a.params =
          w.codec.reviveParams (w.codec.jsonable resolved) := by
        rw [hsame.params, hparams]
      refine ⟨a, rfl, ⟨stored, ⟨a₀, resolved, hsaid, hsame.id.symm, hsame.tool.symm, hrevived, ?_⟩,
        hpending, hopen, hvalid, fun ht3 => hfactor ?_⟩⟩
      · exact fun hplaced => hrevived.trans (reviveParams_jsonable w.codec hplaced)
      · rw [hsame.tool, htier₀, ← hsame.tier] at htier
        cases htier
        rw [ht3]
        rfl

/-- A run starts before the first row of `voice_actions`, on any other data. -/
structure Start (s : Plant W) : Prop where
  actions : s.db.actions.rows = []
  history : s.history = []

theorem Inv.start {w : Wiring} {s : Plant W} (h : Start s) : Inv w s := by
  refine ⟨fun a ha => ?_, fun id hid => ?_, fun id => ?_⟩
  · rw [h.actions] at ha
    cases ha
  · rw [h.history] at hid
    cases hid
  · rw [h.history]
    exact Nat.zero_le 1

/-- In every run whose confirmed tools all survive, gated tools run only through the gate,
and each action at most once. -/
theorem voice_gate {w : Wiring} {s₀ s : Plant W} {es : List (Occurrence W)} (hstart : Start s₀)
    (hrun : Run (Guarded (Next w) (Survives w)) s₀ es s) :
    (∀ o, Gate w s o) ∧ ∀ id, timesRun id s.history ≤ 1 := by
  have hinv : Inv w s := by
    refine hrun.guarded (Inv.start hstart) ?_
    intro t o u ht hlives hnext
    exact hnext ▸ ht.step hlives
  exact ⟨hinv.gate, hinv.once⟩

/-! A report is asked for in a session of its own and then confirmed. Its tool
builds a `ReportCreate`, which a machine-health report without a machine does
not satisfy: a `ValidationError`, which is no `ProblemError`. -/

def reportWiring : Wiring :=
  { plainWiring with
    grammar := { plainWiring.grammar with
      match? := fun text =>
        if text = "generate the machine health report"
        then some ⟨"generate_report", "en", [("type", "machine_health")], 19 / 20⟩ else none }
    requiredArguments := fun _ => ["type"] }

/-- `generate_report` when the report is about no machine. -/
def reportTool : Tool Unit := fun _ params registry =>
  ⟨registry, none,
    if params.get? "scope_id" = none then .died "ValidationError" else .done []⟩

def reportEnv (second : Int) (turn : Uuid) (tool : Tool Unit) : Env Unit :=
  { atSecond second with tools := fun _ => some tool, newTurn := turn, newAction := turn + 100 }

/-- A session and nothing else. -/
def quietPlant : Plant Unit where
  db := {
    sessions := waitingDatabase.sessions
    turns := Table.empty
    actions := Table.empty
    registry := ⟨[], [], [], [], [], ()⟩ }
  history := []

def asks (second : Int) (turn : Uuid) (tool : Tool Unit) (text : String) : Occurrence Unit :=
  .request (reportEnv second turn tool) operator (.utterance (say text none))

def reportAsked (tool : Tool Unit) : Plant Unit :=
  next reportWiring quietPlant (asks 0 1 tool "generate the machine health report")

theorem voice_gate_report :
    let asked := reportAsked obligingTool
    let confirmed := next reportWiring asked (asks 2 2 obligingTool "confirm")
    timesRun 101 confirmed.history = 1 ∧
      (∀ o, Gate reportWiring confirmed o) ∧ ∀ id, timesRun id confirmed.history ≤ 1 := by
  intro asked confirmed
  obtain ⟨hasked, hconfirmed, honce⟩ :
      Survives reportWiring quietPlant
        (asks 0 1 obligingTool "generate the machine health report") ∧
      Survives reportWiring asked (asks 2 2 obligingTool "confirm") ∧
      timesRun 101 confirmed.history = 1 := by decide +kernel
  have hrun : Run (Guarded (Next reportWiring) (Survives reportWiring)) quietPlant _ confirmed :=
    (Run.nil.snoc ⟨hasked, rfl⟩).snoc ⟨hconfirmed, rfl⟩
  exact ⟨honce, voice_gate ⟨rfl, rfl⟩ hrun⟩

/-- The tool dies, the action stays pending, and the operator says it again. -/
theorem report_runs_twice :
    ¬∀ es s, Run (Next reportWiring) quietPlant es s → ∀ id, timesRun id s.history ≤ 1 := by
  intro h
  let once := next reportWiring (reportAsked reportTool) (asks 2 2 reportTool "confirm")
  let twice := next reportWiring once (asks 4 3 reportTool "confirm")
  have hrun : Run (Next reportWiring) quietPlant _ twice :=
    ((Run.nil.snoc rfl).snoc rfl : Run (Next reportWiring) quietPlant _ once).snoc rfl
  have htwice : timesRun 101 twice.history = 2 := by decide +kernel
  have := h _ _ hrun 101
  omega

end TwinVoice.Voice
