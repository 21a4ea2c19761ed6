import TwinVoice.Voice.Confirm

/-! # What one utterance does

An utterance that is no control phrase says at most one thing: it runs a tool
whose tier needs no confirmation, or it reads one action back. A control
phrase works on the action that `heard` and `pendingForSession` find. -/

namespace TwinVoice.Voice

open TwinVoice.Lib TwinVoice.Nlu

variable {W : Type}

theorem pendingForSession_some {db : Database W} {sessionId : Uuid} {now : Instant} {a : VoiceAction}
    (h : pendingForSession db sessionId now = some a) :
    db.actions.find a.id = some a ∧ a.status = .pending ∧ sessionIdOf db a = some sessionId := by
  obtain ⟨hmem, hp⟩ := Table.mem_select.mp (newest_mem h)
  simp only [Bool.and_eq_true, decide_eq_true_eq] at hp
  exact ⟨Table.find_iff.mpr ⟨hmem, rfl⟩, hp.1.1, hp.2⟩

/-! ## Intents -/

/-- What the way of an intent says, and what it does to the actions it works on. -/
inductive Spoke (w : Wiring) (env : Env W) (result : RouterResult) (s t : Session (Database W) Event) :
    Prop
  | quiet (log : t.log = s.log) (work : t.work.actions = s.work.actions)
  | ranNow (p : Params) (tier : needsConfirmation result.tier = false)
      (log : t.log = s.log ++ [.toolRun none result.intent p])
      (work : t.work.actions = s.work.actions)
  | readBack (turn : VoiceTurn) (p : Params) (lang : String)
      (work : s.work.actions.insert (readBackAction w env turn result p lang) = some t.work.actions)
      (log : t.log = s.log ++ [.readBack (readBackAction w env turn result p lang) p])

/-- The committed actions are those from before, or those of the open transaction. -/
def Whole (s t : Session (Database W) Event) : Prop :=
  t.stored = s.stored ∨ t.stored.actions = t.work.actions

theorem executeNow_ends (w : Wiring) (env : Env W) (actor : CurrentUser) (session : VoiceSession)
    (result : RouterResult) (resolution : Resolution) (lang : String) (base : TurnResponse)
    (htier : needsConfirmation result.tier = false) (s : Session (Database W) Event) :
    let t := ((executeNow w env actor session result resolution lang base).run s).2
    Spoke w env result s t ∧ Whole s t := by
  intro t
  have ht : t = ((executeNow w env actor session result resolution lang base).run s).2 := rfl
  simp only [executeNow, Tx.run_bind] at ht
  cases hrun : env.tools result.intent with
  | none =>
    rw [run_callTool_unknown hrun] at ht
    rw [ht]
    exact ⟨.quiet rfl rfl, .inl rfl⟩
  | some run =>
    rw [run_callTool hrun] at ht
    generalize run _ resolution.params s.work.registry = r at ht
    obtain ⟨registry, committed, ending⟩ := r
    cases ending <;> cases committed <;> rw [ht]
    all_goals first
      | exact ⟨.ranNow resolution.params htier rfl rfl, .inl rfl⟩
      | exact ⟨.ranNow resolution.params htier rfl rfl, .inr rfl⟩

theorem readBack_ends (w : Wiring) (env : Env W) (turn : VoiceTurn) (result : RouterResult)
    (p : Params) (lang : String) (base : TurnResponse) (s : Session (Database W) Event) :
    let t := ((readBack w env turn result p lang base).run s).2
    Spoke w env result s t ∧ Whole s t := by
  intro t
  have ht : t = ((readBack w env turn result p lang base).run s).2 := rfl
  simp only [readBack, Tx.run_ite] at ht
  by_cases hoff : (needsSecondFactor result.tier && !env.allowT3) = true
  · rw [if_pos hoff] at ht
    rw [ht]
    exact ⟨.quiet rfl rfl, .inl rfl⟩
  · rw [if_neg hoff] at ht
    simp only [Tx.run_bind, Tx.run_read, Tx.andThen_ok] at ht
    cases hins : s.work.actions.insert (readBackAction w env turn result p lang) with
    | none =>
      rw [hins, Tx.run_orRaise_none, Tx.andThen_error] at ht
      rw [ht]
      exact ⟨.quiet rfl rfl, .inl rfl⟩
    | some actions =>
      rw [hins, Tx.run_orRaise_some, Tx.andThen_ok] at ht
      rw [ht]
      exact ⟨.readBack turn p lang hins rfl, .inl rfl⟩

theorem respondResolved_ends (w : Wiring) (env : Env W) (actor : CurrentUser) (session : VoiceSession)
    (turn : VoiceTurn) (result : RouterResult) (resolution : Resolution) (lang : String)
    (base : TurnResponse) (s : Session (Database W) Event) :
    let t := ((respondResolved w env actor session turn result resolution lang base).run s).2
    Spoke w env result s t ∧ Whole s t := by
  intro t
  have ht : t = ((respondResolved w env actor session turn result resolution lang base).run s).2 := rfl
  unfold respondResolved at ht
  cases ha : resolution.ask with
  | some ask =>
    rw [ha] at ht
    rw [ht]
    exact ⟨.quiet rfl rfl, .inl rfl⟩
  | none =>
    simp only [ha, Tx.run_ite] at ht
    by_cases htier : needsConfirmation result.tier = true
    · rw [if_pos htier] at ht
      rw [ht]
      exact readBack_ends w env turn result resolution.params lang base s
    · rw [if_neg htier] at ht
      rw [ht]
      exact executeNow_ends w env actor session result resolution lang base
        (Bool.not_eq_true _ ▸ htier) s

theorem respond_doubted (w : Wiring) (env : Env W) (actor : CurrentUser) (session : VoiceSession)
    (turn : VoiceTurn) (result : RouterResult) {data : UtteranceIn} (lang : String)
    (hd : data.doubted = true) (s : Session (Database W) Event) :
    ((respond w env actor session turn result data lang).run s).2 = s := by
  simp only [respond, Tx.run_bind, Tx.run_read, Tx.andThen_ok, hd, if_true, Tx.run_pure]

theorem respond_ends (w : Wiring) (env : Env W) (actor : CurrentUser) (session : VoiceSession)
    (turn : VoiceTurn) (result : RouterResult) (data : UtteranceIn) (lang : String)
    (s : Session (Database W) Event) :
    let t := ((respond w env actor session turn result data lang).run s).2
    Spoke w env result s t ∧ Whole s t := by
  intro t
  have ht : t = ((respond w env actor session turn result data lang).run s).2 := rfl
  have hsame : t = s → Spoke w env result s t ∧ Whole s t := by
    intro h
    rw [h]
    exact ⟨.quiet rfl rfl, .inl rfl⟩
  by_cases hd : data.doubted = true
  · exact hsame (ht.trans (respond_doubted w env actor session turn result lang hd s))
  by_cases hu : (!result.understood) = true
  · refine hsame (ht.trans ?_)
    simp only [respond, Tx.run_bind, Tx.run_read, Tx.andThen_ok, if_neg hd, if_pos hu,
      Tx.run_pure]
  simp only [respond, Tx.run_bind, Tx.run_read, Tx.andThen_ok, if_neg hd, if_neg hu] at ht
  cases hr : resolveSlots w s.work.registry session result env.now with
  | error reason =>
    rw [hr] at ht
    exact hsame ht
  | ok resolution =>
    rw [hr] at ht
    rw [ht]
    -- Saving the dialogue context changes neither the actions nor what is stored.
    obtain ⟨hspoke, hwhole⟩ := respondResolved_ends w env actor session turn result resolution lang
      (baseResponse w session turn result lang) ((saveContext session resolution.context).run s).2
    refine ⟨?_, hwhole⟩
    cases hspoke with
    | quiet log work => exact .quiet log work
    | ranNow p tier log work => exact .ranNow p tier log work
    | readBack turn p lang work log => exact .readBack turn p lang work log

/-- Bookkeeping: nothing is said and no action changes, but the session may be committed. -/
structure Closes (s t : Session (Database W) Event) : Prop where
  log : t.log = s.log
  work : t.work.actions = s.work.actions
  whole : Whole s t

theorem Closes.refl (s : Session (Database W) Event) : Closes s s := ⟨rfl, rfl, .inl rfl⟩

theorem Closes.andThen {α β : Type} {f : α → VoiceTx W β} (hf : ∀ a s, Closes s ((f a).run s).2)
    (r : Except Failure α × Session (Database W) Event) : Closes r.2 (Tx.andThen f r).2 := by
  obtain ⟨answer, s⟩ := r
  cases answer with
  | ok a => exact hf a s
  | error failure => exact .refl s

theorem Whole.closes {s t u : Session (Database W) Event} (h : Whole s t) (hc : Closes t u) :
    Whole s u := by
  cases hc.whole with
  | inr hall => exact .inr hall
  | inl hsame =>
    cases h with
    | inl hstored => exact .inl (hsame.trans hstored)
    | inr hall => exact .inr (by rw [hsame, hall, hc.work])

theorem Spoke.closes {w : Wiring} {env : Env W} {result : RouterResult}
    {s t u : Session (Database W) Event} (h : Spoke w env result s t) (hc : Closes t u) :
    Spoke w env result s u := by
  cases h with
  | quiet log work => exact .quiet (hc.log.trans log) (hc.work.trans work)
  | ranNow p tier log work => exact .ranNow p tier (hc.log.trans log) (hc.work.trans work)
  | readBack turn p lang work log =>
    exact .readBack turn p lang (hc.work ▸ work) (hc.log.trans log)

theorem handleIntent_ends (w : Wiring) (env : Env W) (actor : CurrentUser) (session : VoiceSession)
    (data : UtteranceIn) (result : RouterResult) (lang : String) (s : Session (Database W) Event) :
    let t := ((handleIntent w env actor session data result lang).run s).2
    Spoke w env result s t ∧ Whole s t ∧
      (data.doubted = true → t.log = s.log ∧ t.work.actions = s.work.actions) := by
  intro t
  have ht : t = ((handleIntent w env actor session data result lang).run s).2 := rfl
  simp only [handleIntent, addTurn, Tx.run_bind, Tx.run_read, Tx.andThen_ok] at ht
  cases hins : s.work.turns.insert (intentTurn w env session data result) with
  | none =>
    rw [hins] at ht
    rw [ht]
    exact ⟨.quiet rfl rfl, .inl rfl, fun _ => ⟨rfl, rfl⟩⟩
  | some turns =>
    rw [hins] at ht
    simp only [Tx.run_orRaise_some, Tx.andThen_ok, Tx.run_write, Tx.run_bind] at ht
    let s' : Session (Database W) Event := { s with work := { s.work with turns := turns } }
    let turn := intentTurn w env session data result
    have hcloses : Closes ((respond w env actor session turn result data lang).run s').2 t :=
      ht ▸ Closes.andThen (fun _ _ => ⟨rfl, rfl, .inr rfl⟩) _
    obtain ⟨hspoke, hwhole⟩ := respond_ends w env actor session turn result data lang s'
    refine ⟨?_, hwhole.closes hcloses, fun hd => ?_⟩
    · cases hspoke.closes hcloses with
      | quiet log work => exact .quiet log work
      | ranNow p tier log work => exact .ranNow p tier log work
      | readBack turn p lang work log => exact .readBack turn p lang work log
    · rw [hcloses.log, hcloses.work, respond_doubted w env actor session turn result lang hd s']
      exact ⟨rfl, rfl⟩

/-! ## Control phrases -/

/-- The action that a confirmation at this point would run. -/
def confirmable (w : Wiring) (env : Env W) (actor : CurrentUser) (session : VoiceSession)
    (db : Database W) : Option VoiceAction :=
  (pendingForSession db session.id env.now).filter fun a =>
    check w env actor db.registry a none = .clear ∧ (env.tools a.tool).isSome

/-- What a control phrase says, and that it only settles actions. -/
structure Obeyed (w : Wiring) (env : Env W) (actor : CurrentUser) (session : VoiceSession)
    (lang : String) (control : Control) (s t : Session (Database W) Event) : Prop where
  keeps : Keeps s t
  log : t.log = s.log ++
    if control = .confirm ∨ control = .slower then
      (confirmable w env actor session s.work).toList.map (confirmedRun w)
    else []
  settled : ∀ a run, confirmable w env actor session s.work = some a → env.tools a.tool = some run →
    (confirmedCall w env actor lang s.work a run).diesUncommitted = false →
    (control = .confirm ∨ control = .slower) → Settled t.stored.actions a.id

theorem Keeps.closes {s t u : Session (Database W) Event} (h : Keeps s t) (hc : Closes t u) :
    Keeps s u := by
  refine ⟨hc.work ▸ h.work, ?_⟩
  cases hc.whole with
  | inl hsame =>
    rw [hsame]
    exact h.stored
  | inr hall =>
    refine .inr ?_
    rw [hall, hc.work]
    exact h.work

theorem answerControl_closes (base : TurnResponse) (turn : VoiceTurn) (text : String)
    (action : Option VoiceAction) (s : Session (Database W) Event) :
    Closes s ((answerControl base turn text action).run s).2 :=
  ⟨rfl, rfl, .inr rfl⟩

/-- A phrase that does not reach `confirm` says nothing. -/
theorem Obeyed.quiet {w : Wiring} {env : Env W} {actor : CurrentUser} {session : VoiceSession}
    {lang : String} {control : Control} {s t : Session (Database W) Event} (hkeeps : Keeps s t)
    (hlog : t.log = s.log)
    (hnone : control = .confirm ∨ control = .slower → confirmable w env actor session s.work = none) :
    Obeyed w env actor session lang control s t := by
  refine ⟨hkeeps, ?_, fun a _ ha _ _ hkind => ?_⟩
  · rw [hlog]
    split
    · rename_i hkind
      rw [hnone hkind]
      simp
    · simp
  · rw [hnone hkind] at ha
    cases ha

/-- The way of "confirm" and "slower" through `confirm`. -/
theorem Obeyed.confirm (w : Wiring) (env : Env W) (actor : CurrentUser) {session : VoiceSession}
    (lang : String) {control : Control} (hkind : control = .confirm ∨ control = .slower)
    {s u : Session (Database W) Event} {a : VoiceAction}
    (hp : pendingForSession s.work session.id env.now = some a)
    (hclose : Closes ((confirm w env actor a.id none lang).run s).2 u) :
    Obeyed w env actor session lang control s u := by
  obtain ⟨hkeeps, hends⟩ := confirm_ends w env actor none lang (pendingForSession_some hp).1
  have hkeeps' := hkeeps.closes hclose
  cases hends with
  | stopped log why =>
    refine .quiet hkeeps' (hclose.log.trans log) fun _ => ?_
    unfold confirmable
    rw [hp, Option.filter_eq_none_iff]
    intro b hb hclear
    cases hb
    simp only [decide_eq_true_eq, Option.isSome_iff_ne_none] at hclear
    cases why with
    | inl hcheck => exact hcheck hclear.1
    | inr hknown => exact hclear.2 hknown
  | ran run known clear log work stored =>
    have hcall : confirmable w env actor session s.work = some a := by
      unfold confirmable
      rw [hp, Option.filter_eq_some_iff]
      exact ⟨rfl, by simp [clear, known]⟩
    refine ⟨hkeeps', ?_, fun b run' hb hrun' hlives _ => ?_⟩
    · rw [hclose.log, log, if_pos hkind, hcall]
      rfl
    · rw [hcall] at hb
      cases hb
      rw [known] at hrun'
      cases hrun'
      cases hclose.whole with
      | inl hsame =>
        rw [hsame]
        exact stored hlives
      | inr hall =>
        rw [hall, hclose.work]
        exact work

theorem obeyControl_ends (w : Wiring) (env : Env W) (actor : CurrentUser) (session : VoiceSession)
    (turn : VoiceTurn) (control : Control) (lang : String) (base : TurnResponse)
    (s : Session (Database W) Event) :
    Obeyed w env actor session lang control s
      ((obeyControl w env actor session turn control lang base).run s).2 := by
  generalize ht : ((obeyControl w env actor session turn control lang base).run s).2 = t
  simp only [obeyControl, Tx.run_bind, Tx.run_read, Tx.andThen_ok, Tx.run_ite] at ht
  by_cases hrepeat : control = .repeat
  · rw [if_pos hrepeat] at ht
    have hc : Closes s t := ht ▸ answerControl_closes _ _ _ _ s
    exact .quiet ((Keeps.refl s).closes hc) hc.log (by rw [hrepeat]; nofun)
  rw [if_neg hrepeat] at ht
  cases hp : pendingForSession s.work session.id env.now with
  | none =>
    rw [hp] at ht
    have hc : Closes s t := ht ▸ answerControl_closes _ _ _ _ s
    exact .quiet ((Keeps.refl s).closes hc) hc.log fun _ => by unfold confirmable; rw [hp]; rfl
  | some a =>
    simp only [hp, Tx.run_bind, Tx.run_ite] at ht
    by_cases hcancel : control = .cancel
    · rw [if_pos hcancel] at ht
      have hc : Closes ((cancel a.id).run s).2 t :=
        ht ▸ Closes.andThen (fun _ _ => answerControl_closes _ _ _ _ _) _
      obtain ⟨hkeeps, hlog⟩ := cancel_ends (pendingForSession_some hp).1
      exact .quiet (hkeeps.closes hc) (hc.log.trans hlog) (by rw [hcancel]; nofun)
    · rw [if_neg hcancel] at ht
      have hkind : control = .confirm ∨ control = .slower := by
        cases control with
        | confirm => exact .inl rfl
        | cancel => exact absurd rfl hcancel
        | «repeat» => exact absurd rfl hrepeat
        | slower => exact .inr rfl
      exact .confirm w env actor _ hkind hp
        (ht ▸ Closes.andThen (fun _ _ => answerControl_closes _ _ _ _ _) _)

theorem run_handleControl_refused (w : Wiring) (env : Env W) (actor : CurrentUser)
    (session : VoiceSession) (data : UtteranceIn) (result : RouterResult) (control : Control)
    {s : Session (Database W) Event}
    (hins : s.work.turns.insert (controlTurn env session data result control) = none) :
    (handleControl w env actor session data result control).run s = (.error integrityError, s) := by
  simp only [handleControl, addTurn, Tx.run_bind, Tx.run_read, Tx.andThen_ok, hins,
    Tx.run_orRaise_none, Tx.andThen_error]

theorem run_handleControl (w : Wiring) (env : Env W) (actor : CurrentUser) (session : VoiceSession)
    (data : UtteranceIn) (result : RouterResult) (control : Control) {s : Session (Database W) Event}
    {turns : Table VoiceTurn}
    (hins : s.work.turns.insert (controlTurn env session data result control) = some turns) :
    (handleControl w env actor session data result control).run s =
      (obeyControl w env actor session (controlTurn env session data result control) control
        (data.lang.getD session.lang) (baseResponse w session
          (controlTurn env session data result control) result (data.lang.getD session.lang))).run
        { s with work := { s.work with turns := turns } } := by
  simp only [handleControl, addTurn, Tx.run_bind, Tx.run_read, Tx.andThen_ok, hins,
    Tx.run_orRaise_some, Tx.run_write]

/-! ## The whole utterance -/

/-- The session that the utterance belongs to, and the database once it is open. -/
def opened (env : Env W) (actor : CurrentUser) (data : UtteranceIn) (db : Database W) :
    Option (VoiceSession × Database W) :=
  match data.sessionId with
  | some id => (db.sessions.find id).map fun session => (session, db)
  | none => (db.sessions.insert (newSession env actor data)).map fun sessions =>
      (newSession env actor data, { db with sessions := sessions })

/-- What a control phrase acts on: the session and the database as it then is. -/
def heard (w : Wiring) (env : Env W) (actor : CurrentUser) (data : UtteranceIn) (db : Database W) :
    Option (VoiceSession × Database W) :=
  (opened env actor data db).bind fun (session, db) =>
    (route w.grammar w.catalogue data.text env.now (data.lang.getD session.lang) env.llm).toOption.bind
      fun result =>
        (result.control.bind fun control =>
          db.turns.insert (controlTurn env session data result control)).map fun turns =>
            (session, { expireStale db env.now with turns := turns })

theorem opened_eq {env : Env W} {actor : CurrentUser} {data : UtteranceIn} {db db' : Database W}
    {session : VoiceSession} (h : opened env actor data db = some (session, db')) :
    ∃ sessions, db' = { db with sessions := sessions } := by
  unfold opened at h
  split at h
  · obtain ⟨_, _, heq⟩ := Option.map_eq_some_iff.mp h
    cases heq
    exact ⟨db.sessions, rfl⟩
  · obtain ⟨sessions, _, heq⟩ := Option.map_eq_some_iff.mp h
    cases heq
    exact ⟨sessions, rfl⟩

theorem opened_actions {env : Env W} {actor : CurrentUser} {data : UtteranceIn} {db db' : Database W}
    {session : VoiceSession} (h : opened env actor data db = some (session, db')) :
    db'.actions = db.actions ∧ db'.registry = db.registry := by
  obtain ⟨sessions, rfl⟩ := opened_eq h
  exact ⟨rfl, rfl⟩

theorem run_openSession (env : Env W) (actor : CurrentUser) (data : UtteranceIn) (db : Database W) :
    (∃ failure, opened env actor data db = none ∧
      (openSession env actor data).run ⟨db, db, []⟩ = (.error failure, ⟨db, db, []⟩)) ∨
    ∃ session db', opened env actor data db = some (session, db') ∧
      (openSession env actor data).run ⟨db, db, []⟩ = (.ok session, ⟨db', db', []⟩) := by
  unfold openSession opened
  simp only [Tx.run_bind, Tx.run_read, Tx.andThen_ok]
  cases data.sessionId with
  | some id =>
    cases hfind : db.sessions.find id with
    | none => simp [hfind]
    | some session => simp [hfind]
  | none =>
    cases hins : db.sessions.insert (newSession env actor data) with
    | none => simp
    | some sessions => simp

/-- How `handle` ends on a committed database. -/
inductive Handled (w : Wiring) (env : Env W) (actor : CurrentUser) (data : UtteranceIn)
    (db : Database W) (t : Session (Database W) Event) : Prop
  | failed (log : t.log = []) (stored : t.stored.actions = db.actions)
      (nothing : controlWord w.grammar.tables w.catalogue data.text ≠ none →
        heard w env actor data db = none)
  | intent (session : VoiceSession) (result : RouterResult) (db' : Database W)
      (base : db'.actions = db.actions) (plain : controlWord w.grammar.tables w.catalogue data.text = none)
      (tier : w.catalogue.tier result.intent = some result.tier)
      (spoke : Spoke w env result ⟨db', expireStale db' env.now, []⟩ t)
      (whole : Whole ⟨db', expireStale db' env.now, []⟩ t)
      (doubt : data.doubted = true → t.log = [] ∧
        t.work.actions = (expireStale db' env.now).actions)
  | control (session : VoiceSession) (control : Control) (db' db'' : Database W)
      (base : db'.actions = db.actions) (word : controlWord w.grammar.tables w.catalogue data.text = some control)
      (hears : heard w env actor data db = some (session, db''))
      (work : db''.actions = (expireStale db env.now).actions) (registry : db''.registry = db.registry)
      (obeyed : Obeyed w env actor session (data.lang.getD session.lang) control ⟨db', db'', []⟩ t)

theorem handle_ends (w : Wiring) (env : Env W) (actor : CurrentUser) (data : UtteranceIn)
    (db : Database W) : Handled w env actor data db ((handle w env actor data).run ⟨db, db, []⟩).2 := by
  generalize ht : ((handle w env actor data).run ⟨db, db, []⟩).2 = t
  simp only [handle, Tx.run_bind] at ht
  rcases run_openSession env actor data db with ⟨failure, hopen, hrun⟩ | ⟨session, db', hopen, hrun⟩
  · rw [hrun] at ht
    subst ht
    exact .failed rfl rfl fun _ => by unfold heard; rw [hopen]; rfl
  obtain ⟨hactions, hregistry⟩ := opened_actions hopen
  simp only [hrun, Tx.andThen_ok, Tx.run_bind, Tx.run_write] at ht
  cases hroute : route w.grammar w.catalogue data.text env.now (data.lang.getD session.lang) env.llm with
  | error reason =>
    rw [hroute] at ht
    subst ht
    refine .failed rfl hactions fun _ => ?_
    unfold heard
    simp only [hopen, Option.bind_some, hroute, Except.toOption, Option.bind_none]
  | ok result =>
    obtain ⟨htier, hcontrol⟩ := route_ok hroute
    rw [hroute] at ht
    simp only [orCrash, Tx.run_pure, Tx.andThen_ok] at ht
    cases hc : result.control with
    | none =>
      rw [hc] at ht hcontrol
      obtain ⟨hspoke, hwhole, hdoubt⟩ := handleIntent_ends w env actor session data result
        (data.lang.getD session.lang) ⟨db', expireStale db' env.now, []⟩
      rw [ht] at hspoke hwhole hdoubt
      exact .intent session result db' hactions hcontrol.symm htier hspoke hwhole hdoubt
    | some control =>
      rw [hc] at ht hcontrol
      have hheard : heard w env actor data db =
          (db'.turns.insert (controlTurn env session data result control)).map fun turns =>
            (session, { expireStale db' env.now with turns := turns }) := by
        unfold heard
        simp only [hopen, Option.bind_some, hroute, Except.toOption, hc]
      cases hins : db'.turns.insert (controlTurn env session data result control) with
      | none =>
        rw [hins] at hheard
        simp only [run_handleControl_refused w env actor session data result control
          (s := ⟨db', expireStale db' env.now, []⟩) hins] at ht
        subst ht
        exact .failed rfl hactions fun _ => hheard
      | some turns =>
        rw [hins] at hheard
        simp only [run_handleControl w env actor session data result control
          (s := ⟨db', expireStale db' env.now, []⟩) hins] at ht
        refine .control session control db' _ hactions hcontrol.symm hheard ?_ hregistry
          (ht ▸ obeyControl_ends w env actor session _ control _ _ _)
        simp only [expireStale, hactions]

end TwinVoice.Voice
