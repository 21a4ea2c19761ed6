import TwinVoice.Voice.Gate

/-! # How long a machine is remembered

The dialogue context goes stale two minutes after it was last touched, and a
turn that names a machine touches it. So does every turn that is run at once:
help, a plant question or a navigation gives the machine another two minutes.
Where no such turn keeps it, a machine that is taken from the context was named
in the last two minutes. -/

namespace TwinVoice.Voice

open TwinVoice.Lib TwinVoice.Lib.Transition TwinVoice.Nlu

variable {W : Type}

/-! ## What a turn names -/

/-- The session and the reading of an utterance whose slots are resolved. -/
def understoodAs (w : Wiring) (env : Env W) (actor : CurrentUser) (data : UtteranceIn) (db : Database W) :
    Option (VoiceSession × RouterResult) :=
  (opened env actor data db).bind fun here =>
    (route w.grammar w.catalogue data.text env.now (data.lang.getD here.1.lang) env.llm).toOption.bind fun result =>
      if result.control.isNone && !data.doubted && result.understood then some (here.1, result) else none

/-- What a spoken reference is looked for among. -/
def references (w : Wiring) (reg : Registry W) (result : RouterResult) : List AssetRef :=
  if result.intent = "get_kpi" ∨ "scope" ∈ result.slots.keys
  then reg.assetRefs w.codec ++ reg.lineRefs w.codec else reg.assetRefs w.codec

def namesMachine (w : Wiring) (reg : Registry W) (result : RouterResult) : Bool :=
  match spokenReference result.slots with
  | some spoken => (w.resolve (w.codec.text spoken) (references w reg result)).1.isSome
  | none => false

/-- The session whose remembered machine the utterance is resolved with. -/
def usesRemembered (w : Wiring) (env : Env W) (actor : CurrentUser) (data : UtteranceIn) (db : Database W) :
    Option Uuid :=
  (understoodAs w env actor data db).bind fun heard =>
    if (spokenReference heard.2.slots).isNone && (liveContext heard.1.context env.now).currentAssetId.isSome
    then some heard.1.id else none

/-- What the tool answers, if the utterance is run at once. -/
def answeredAtOnce (w : Wiring) (env : Env W) (actor : CurrentUser) (lang : String) (reg : Registry W)
    (session : VoiceSession) (result : RouterResult) : Option Params :=
  match resolveSlots w reg session result env.now with
  | .error _ => none
  | .ok resolution =>
    if resolution.ask.isNone && !needsConfirmation result.tier then
      (env.tools result.intent).bind fun run =>
        match (run ⟨actor, env.later, lang, some session.id, resolution.context⟩ resolution.params reg).ending with
        | .done output => some output
        | .refused _ | .died _ => none
    else none

/-- The utterance is run at once, and a machine is remembered when it is answered
or is in the answer. -/
def keepsAlive (w : Wiring) (env : Env W) (actor : CurrentUser) (lang : String) (reg : Registry W)
    (session : VoiceSession) (result : RouterResult) : Bool :=
  (answeredAtOnce w env actor lang reg session result).any fun output =>
    (liveContext session.context env.later).currentAssetId.isSome || (outputText w.codec output "asset_id").isSome

/-! ## Timed turns -/

/-- The database, the time, and when a machine was last named in each session,
which is on no row of the database. -/
structure Talk (W : Type) where
  db : Database W
  clock : Instant
  lastNamed : Uuid → Option Instant

/-- A request is served, a session is started over REST, or data of other modules changes. -/
inductive Happening (W : Type)
  | request (env : Env W) (actor : CurrentUser) (request : Request)
  | start (id : Uuid) (userId : Uuid) (channel : String) (device : Option String) (lang : String)
  | elsewhere (registry : Registry W)

def lastNamedAfter (w : Wiring) (env : Env W) (actor : CurrentUser) (data : UtteranceIn) (s : Talk W) (id : Uuid) :
    Option Instant :=
  match understoodAs w env actor data s.db with
  | some heard => if namesMachine w s.db.registry heard.2 && heard.1.id = id then some env.later else s.lastNamed id
  | none => s.lastNamed id

def Talk.next (w : Wiring) (s : Talk W) : Happening W → Talk W
  | .request env actor (.utterance data) =>
    ⟨(serve w env actor (.utterance data) s.db).stored, env.later, lastNamedAfter w env actor data s⟩
  | .request env actor request => { s with db := (serve w env actor request s.db).stored, clock := env.later }
  | .start id userId channel device lang =>
    let session : VoiceSession := ⟨id, some userId, channel, device, lang, DialogueContext.empty⟩
    { s with db := { s.db with sessions := (s.db.sessions.insert session).getD s.db.sessions } }
  | .elsewhere registry => { s with db := { s.db with registry := registry } }

/-- Time does not go back. -/
def Timely (s : Talk W) : Happening W → Prop
  | .request env _ _ => s.clock ≤ env.now ∧ env.now ≤ env.later
  | .start _ _ _ _ _ | .elsewhere _ => True

def Goes (w : Wiring) (s : Talk W) (h : Happening W) (t : Talk W) : Prop := Timely s h ∧ t = s.next w h

/-- A turn that is run at once names a machine, or none is remembered by then. -/
def NamesOrForgets (w : Wiring) (s : Talk W) : Happening W → Prop
  | .request env actor (.utterance data) =>
    (understoodAs w env actor data s.db).all (fun heard => namesMachine w s.db.registry heard.2 ||
      !keepsAlive w env actor (data.lang.getD heard.1.lang) s.db.registry heard.1 heard.2) = true
  | _ => True

/-! ## Contexts that are no younger than the last name -/

/-- A machine that is remembered was not touched after it was last named. -/
def Recent (lastNamed : Option Instant) (context : DialogueContext) : Prop :=
  context.currentAssetId.isSome →
    ∃ touched named, context.touchedAt = some touched ∧ lastNamed = some named ∧ touched ≤ named

def AllRecent (lastNamed : Uuid → Option Instant) (db : Database W) : Prop :=
  ∀ id session, db.sessions.find id = some session → Recent (lastNamed id) session.context

theorem Recent.live {lastNamed : Option Instant} {context : DialogueContext} (h : Recent lastNamed context)
    {now : Instant} (hlive : (liveContext context now).currentAssetId.isSome) :
    ∃ named, lastNamed = some named ∧ now - named ≤ contextTtl := by
  unfold liveContext at hlive
  cases htouched : context.touchedAt with
  | none =>
    rw [htouched] at hlive
    obtain ⟨touched, -, hsome, -⟩ := h hlive
    rw [htouched] at hsome
    cases hsome
  | some touched =>
    rw [htouched] at hlive
    dsimp only at hlive
    split at hlive
    · cases hlive
    · obtain ⟨touched', named, hsome, hnamed, hle⟩ := h hlive
      obtain rfl := Option.some.inj (htouched.symm.trans hsome)
      have hage (now touched named ttl : Int) (hfresh : ¬now - touched > ttl) (hle : touched ≤ named) :
          now - named ≤ ttl := by omega
      exact ⟨named, hnamed, hage _ _ _ _ ‹_› hle⟩

theorem Recent.later {old new : Option Instant} {context : DialogueContext} (h : Recent old context)
    (hnew : ∀ named, old = some named → ∃ named', new = some named' ∧ named ≤ named') : Recent new context := by
  intro hremembered
  obtain ⟨touched, named, htouched, hnamed, hle⟩ := h hremembered
  obtain ⟨named', hnamed', hle'⟩ := hnew named hnamed
  exact ⟨touched, named', htouched, hnamed', Int.le_trans hle hle'⟩

theorem recent_empty (lastNamed : Option Instant) : Recent lastNamed DialogueContext.empty := by
  intro h
  cases h

/-- A context that is touched is as old as the machine that is named meanwhile. -/
theorem recent_remember {named now : Instant} (hle : now ≤ named) (context : DialogueContext)
    (assetId assetCode predictionId explanationId : Option String) :
    Recent (some named) (remember context now assetId assetCode predictionId explanationId) :=
  fun _ => ⟨now, named, rfl, rfl, hle⟩

/-- Where nothing is remembered and nothing is named, nothing is to go stale. -/
theorem recent_remember_nothing (lastNamed : Option Instant) {context : DialogueContext} {now : Instant}
    (hforgot : (liveContext context now).currentAssetId = none) (assetCode predictionId explanationId : Option String) :
    Recent lastNamed (remember context now none assetCode predictionId explanationId) := by
  intro h
  have hnone : (remember context now none assetCode predictionId explanationId).currentAssetId = none := hforgot
  rw [hnone] at h
  cases h

/-! ## One turn -/

/-- What slot resolution does to the context: only a machine that is named touches it. -/
def Touched (w : Wiring) (reg : Registry W) (session : VoiceSession) (result : RouterResult) (now : Instant)
    (context : DialogueContext) : Prop :=
  context = session.context ∨
    namesMachine w reg result = true ∧ ∃ id code, context = remember session.context now (some id) code none none

theorem context_resolveReference {w : Wiring} {reg : Registry W} {result : RouterResult} {spoken : Value}
    {found : Option AssetRef} {alternatives : List AssetRef}
    (h : w.resolve (w.codec.text spoken) (references w reg result) = (found, alternatives)) (session : VoiceSession)
    (now : Instant) :
    (resolveReference w reg session result spoken now).context =
      found.elim session.context fun ref => remember session.context now (some ref.id) (some ref.code) none none := by
  unfold references at h
  unfold resolveReference
  dsimp only
  rw [h]
  cases found <;> rfl

theorem touched_resolveMachine (w : Wiring) (reg : Registry W) (session : VoiceSession) (result : RouterResult)
    (now : Instant) :
    Touched w reg session result now (resolveMachine w reg session result now).context := by
  unfold resolveMachine
  cases hspoken : spokenReference result.slots with
  | none =>
    refine .inl ?_
    dsimp only
    unfold resolveFromContext
    split <;> rfl
  | some spoken =>
    dsimp only
    cases hfound : w.resolve (w.codec.text spoken) (references w reg result) with
    | mk found alternatives =>
      rw [context_resolveReference hfound]
      cases found with
      | none => exact .inl rfl
      | some ref =>
        refine .inr ⟨?_, ref.id, some ref.code, rfl⟩
        unfold namesMachine
        rw [hspoken]
        dsimp only
        rw [hfound]
        rfl

theorem touched_resolveSlots {w : Wiring} {reg : Registry W} {session : VoiceSession} {result : RouterResult}
    {now : Instant} {resolution : Resolution} (h : resolveSlots w reg session result now = .ok resolution) :
    Touched w reg session result now resolution.context := by
  rcases resolveSlots_ok h with ⟨-, rfl⟩ | ⟨-, alarm, rfl, -⟩
  · exact touched_resolveMachine w reg session result now
  · rw [context_completeSlots]
    exact touched_resolveMachine w reg session result now

section
variable {w : Wiring} {env : Env W} {actor : CurrentUser} {reg : Registry W} {named : Uuid → Option Instant}

/-- The view of a turn, up to the call of its tool. -/
def Hears (reg : Registry W) (named : Uuid → Option Instant) (db : Database W) : Prop :=
  db.registry = reg ∧ AllRecent named db

theorem AllRecent.sessions {db db' : Database W} (h : AllRecent named db) (hsame : db'.sessions = db.sessions) :
    AllRecent named db' := by
  intro id session hfind
  rw [hsame] at hfind
  exact h id session hfind

/-- A statement that writes nothing of the sessions. -/
theorem upholds_write {f : Database W → Database W} (h : ∀ db, (f db).sessions = db.sessions) :
    Tx.Upholds (AllRecent named) (AllRecent named) (Tx.write f : VoiceTx W Unit) fun _ => AllRecent named :=
  .write f fun db hdb => hdb.sessions (h db)

theorem upholds_commit :
    Tx.Upholds (AllRecent named) (AllRecent named) (Tx.commit : VoiceTx W Unit) fun _ => AllRecent named :=
  .commit fun _ h => h

theorem AllRecent.modify {db : Database W} (h : AllRecent named db) {id : Uuid} {context : DialogueContext}
    (hcontext : Recent (named id) context) :
    AllRecent named { db with
      sessions := db.sessions.modify id (fun r => { r with context := context }) fun _ => rfl } := by
  intro id' row hfind
  rw [Table.find_modify] at hfind
  split at hfind
  · subst_vars
    obtain ⟨row', hrow', rfl⟩ := Option.map_eq_some_iff.mp hfind
    exact hcontext
  · exact h id' row hfind

theorem upholds_callTool (action : Option Uuid) (tool : String) (context : ToolContext) (params : Params) :
    Tx.Upholds (AllRecent named) (Hears reg named) (callTool env action tool context params)
      fun answer db => AllRecent named db ∧ ∀ output, answer = .ok output →
        ∃ run, env.tools tool = some run ∧ (run context params reg).ending = .done output := by
  intro s t r hstored hview hrun
  cases htool : env.tools tool with
  | none =>
    rw [run_callTool_unknown htool] at hrun
    cases hrun
    refine ⟨hstored, fun a ha => ?_⟩
    cases ha
  | some run =>
    rw [run_callTool htool, hview.1] at hrun
    obtain ⟨hanswer, rfl⟩ := Prod.mk.inj hrun
    refine ⟨?_, fun answer hok => ⟨hview.2.sessions rfl, fun output hdone => ⟨run, rfl, ?_⟩⟩⟩
    · unfold afterTool
      cases (run context params reg).committed with
      | none => exact hstored
      | some registry => exact hview.2.sessions rfl
    · rw [hok, hdone] at hanswer
      cases hending : (run context params reg).ending with
      | done output' =>
        rw [hending] at hanswer
        cases hanswer
        rfl
      | refused problem =>
        rw [hending] at hanswer
        cases hanswer
      | died reason =>
        rw [hending] at hanswer
        cases hanswer

/-- The end of a turn that is run at once. -/
theorem upholds_executeNow {session : VoiceSession} {result : RouterResult} {resolution : Resolution} {lang : String}
    (hresolved : resolveSlots w reg session result env.now = .ok resolution) (hask : resolution.ask = none)
    (htier : needsConfirmation result.tier = false)
    (hnamed : namesMachine w reg result = true → named session.id = some env.later)
    (hquiet : namesMachine w reg result = true ∨ keepsAlive w env actor lang reg session result = false)
    (base : TurnResponse) :
    Tx.Upholds (AllRecent named) (Hears reg named) (executeNow w env actor session result resolution lang base)
      fun _ => AllRecent named := by
  refine .bind (upholds_callTool _ _ _ _) fun answer => ?_
  cases answer with
  | error problem => exact .pure _ fun _ h => h.1
  | ok output =>
    refine Tx.Upholds.knowing (c := ∃ run, env.tools result.intent = some run ∧
      (run ⟨actor, env.later, lang, some session.id, resolution.context⟩ resolution.params reg).ending = .done output)
      (fun _ h => h.2 output rfl) ?_
    rintro ⟨run, htool, hdone⟩
    have hrecent : Recent (named session.id) (remember resolution.context env.later
        (outputText w.codec output "asset_id") (outputText w.codec output "asset_code")
        (outputText w.codec output "prediction_id") (outputText w.codec output "explanation_id")) := by
      cases hnames : namesMachine w reg result with
      | true =>
        rw [hnamed hnames]
        exact recent_remember (Int.le_refl _) _ _ _ _ _
      | false =>
        have hcontext : resolution.context = session.context := by
          rcases touched_resolveSlots hresolved with hsame | ⟨htrue, -⟩
          · exact hsame
          · rw [hnames] at htrue
            cases htrue
        have hanswered : answeredAtOnce w env actor lang reg session result = some output := by
          unfold answeredAtOnce
          rw [hresolved]
          simp only [hask, htier, Option.isNone_none, Bool.not_false, Bool.and_true, if_true, htool, Option.bind_some]
          rw [hdone]
        have hforgot : (liveContext session.context env.later).currentAssetId = none ∧
            outputText w.codec output "asset_id" = none := by
          rcases hquiet with htrue | hnot
          · rw [hnames] at htrue
            cases htrue
          · unfold keepsAlive at hnot
            rw [hanswered, Option.any_some, Bool.or_eq_false_iff] at hnot
            exact ⟨Option.isNone_iff_eq_none.mp (Option.isSome_eq_false_iff.mp hnot.1),
              Option.isNone_iff_eq_none.mp (Option.isSome_eq_false_iff.mp hnot.2)⟩
        rw [hcontext, hforgot.2]
        exact recent_remember_nothing _ hforgot.1 _ _ _
    exact .bind (.write _ fun _ h => h.1.modify hrecent) fun _ => .pure _ fun _ h => h

theorem upholds_readBack (turn : VoiceTurn) (result : RouterResult) (params : Params)
    (lang : String) (base : TurnResponse) :
    Tx.Upholds (AllRecent named) (AllRecent named) (readBack w env turn result params lang base)
      fun _ => AllRecent named := by
  unfold readBack
  split
  · exact .pure _ fun _ h => h
  · exact .bind .read fun db => .bind (.orRaise _ _) fun actions =>
      .bind (.write _ fun _ h => h.2.2.sessions rfl) fun _ =>
        .bind (.emit _) fun _ => .pure _ fun _ h => h

theorem upholds_respond {session : VoiceSession} (turn : VoiceTurn) {result : RouterResult} {data : UtteranceIn}
    {lang : String} (htime : env.now ≤ env.later) (hsession : Recent (named session.id) session.context)
    (hheard : data.doubted = false → result.understood = true →
      (namesMachine w reg result = true → named session.id = some env.later) ∧
        (namesMachine w reg result = true ∨ keepsAlive w env actor lang reg session result = false)) :
    Tx.Upholds (AllRecent named) (Hears reg named) (respond w env actor session turn result data lang)
      fun _ => AllRecent named := by
  refine .bind .read fun db => ?_
  split
  · exact .pure _ fun _ h => h.2.2
  split
  · exact .pure _ fun _ h => h.2.2
  rename_i hdoubted hunderstood
  obtain ⟨hnamed, hquiet⟩ := hheard (Bool.not_eq_true _ ▸ hdoubted) (by simpa using hunderstood)
  refine Tx.Upholds.knowing (c := db.registry = reg) (fun _ h => h.1 ▸ h.2.1) ?_
  rintro rfl
  cases hresolved : resolveSlots w db.registry session result env.now with
  | error reason =>
    exact Tx.Upholds.bind (Q := fun _ _ => False) (.raise _) fun _ => .knowing (fun _ h => h) False.elim
  | ok resolution =>
    have hcontext : Recent (named session.id) resolution.context := by
      rcases touched_resolveSlots hresolved with hsame | ⟨hnames, id, code, hcontext⟩
      · rw [hsame]
        exact hsession
      · rw [hcontext, hnamed hnames]
        exact recent_remember htime _ _ _ _ _
    refine Tx.Upholds.bind (Q := fun r db' => r = resolution ∧ Hears db.registry named db')
      (.pure _ fun _ h => ⟨rfl, h.2⟩) fun r => .knowing (fun _ h => h.1) ?_
    rintro rfl
    refine .bind (Q := fun _ => Hears db.registry named)
      (.write _ fun _ h => ⟨h.2.1, h.2.2.modify hcontext⟩) fun _ => ?_
    unfold respondResolved
    split
    · exact .pure _ fun _ h => h.2
    rename_i hask
    split
    · exact (upholds_readBack _ _ _ _ _).mono (fun _ h => h.2) fun _ _ h => h
    rename_i htier
    exact upholds_executeNow hresolved hask (Bool.not_eq_true _ ▸ htier) hnamed hquiet _

theorem upholds_handleIntent {session : VoiceSession} {result : RouterResult} {data : UtteranceIn} {lang : String}
    (htime : env.now ≤ env.later) (hsession : Recent (named session.id) session.context)
    (hheard : data.doubted = false → result.understood = true →
      (namesMachine w reg result = true → named session.id = some env.later) ∧
        (namesMachine w reg result = true ∨ keepsAlive w env actor lang reg session result = false)) :
    Tx.Upholds (AllRecent named) (Hears reg named) (handleIntent w env actor session data result lang)
      fun _ => AllRecent named := by
  refine .bind (Q := fun _ => Hears reg named) ?_ fun _ =>
    .bind (upholds_respond _ htime hsession hheard) fun response =>
      .bind (upholds_write fun _ => rfl) fun _ => .bind upholds_commit fun _ => .pure _ fun _ h => h
  exact .bind .read fun db => .bind (.orRaise _ _) fun turns => .write _ fun _ h => ⟨h.2.2.1, h.2.2.2.sessions rfl⟩

/-! ## Control phrases -/

theorem upholds_actionOr404 (id : Uuid) :
    Tx.Upholds (AllRecent named) (AllRecent named) (actionOr404 (W := W) id) fun _ => AllRecent named :=
  .bind .read fun _ => (Tx.Upholds.orRaise _ _).mono (fun _ h => h) fun _ _ h => h.2.2

theorem upholds_execute (action : VoiceAction) (lang : String) :
    Tx.Upholds (AllRecent named) (AllRecent named) (execute w env actor action lang) fun _ => AllRecent named := by
  have hend (a : VoiceAction) (text : String) : Tx.Upholds (AllRecent named) (AllRecent named)
      (do saveAction (W := W) a; Tx.commit; pure (a, text)) fun _ => AllRecent named :=
    .bind (upholds_write fun _ => rfl) fun _ => .bind upholds_commit fun _ => .pure _ fun _ h => h
  refine .bind (upholds_write fun _ => rfl) fun _ => .bind .read fun db => ?_
  refine .bind (.mono (R := Hears db.registry named) (upholds_callTool _ _ _ _)
    (fun _ h => ⟨by rw [h.1], h.2⟩) fun _ _ h => h.1) fun answer => ?_
  cases answer with
  | error problem => exact hend _ _
  | ok output => exact hend _ _

theorem upholds_confirm (id : Uuid) (pin : Option String) (lang : String) :
    Tx.Upholds (AllRecent named) (AllRecent named) (confirm w env actor id pin lang) fun _ => AllRecent named := by
  refine .bind (upholds_actionOr404 id) fun action => .bind .read fun db => ?_
  have hsettle (a : VoiceAction) (failure : Failure) : Tx.Upholds (AllRecent named)
      (fun w => db = w ∧ AllRecent named w) (do
        saveAction (W := W) a; Tx.commit; Tx.raise failure : VoiceTx W (VoiceAction × String)) fun _ => AllRecent named :=
    .bind (.write _ fun _ h => h.2.sessions rfl) fun _ => .bind upholds_commit fun _ => .raise _
  cases check w env actor db.registry action pin with
  | notPending => exact .raise _
  | pinUnavailable failure => exact .raise _
  | broken reason => exact .raise _
  | windowClosed => exact hsettle _ _
  | t3Disabled => exact hsettle _ _
  | pinWrong => exact hsettle _ _
  | invalid errors =>
    exact .bind (.write _ fun _ h => h.2.sessions rfl) fun _ => .bind upholds_commit fun _ => .pure _ fun _ h => h
  | clear => exact (upholds_execute action lang).mono (fun _ h => h.2) fun _ _ h => h

theorem upholds_cancel (id : Uuid) :
    Tx.Upholds (AllRecent named) (AllRecent named) (cancel (W := W) id) fun _ => AllRecent named := by
  refine .bind (upholds_actionOr404 id) fun action => ?_
  split
  · exact .raise _
  · exact .bind (upholds_write fun _ => rfl) fun _ => .bind upholds_commit fun _ => .pure _ fun _ h => h

theorem upholds_handleControl {session : VoiceSession} {data : UtteranceIn} {result : RouterResult} {control : Control} :
    Tx.Upholds (AllRecent named) (AllRecent named) (handleControl w env actor session data result control)
      fun _ => AllRecent named := by
  have hanswer (base : TurnResponse) (turn : VoiceTurn) (text : String) (action : Option VoiceAction) :
      Tx.Upholds (AllRecent named) (AllRecent named) (answerControl (W := W) base turn text action)
        fun _ => AllRecent named :=
    .bind (upholds_write fun _ => rfl) fun _ => .bind upholds_commit fun _ => .pure _ fun _ h => h
  refine .bind (Q := fun _ => AllRecent named) ?_ fun _ => ?_
  · exact .bind .read fun db => .bind (.orRaise _ _) fun turns => .write _ fun _ h => h.2.2.sessions rfl
  refine .bind .read fun db => ?_
  split
  · exact (hanswer _ _ _ _).mono (fun _ h => h.2) fun _ _ h => h
  split
  · exact (hanswer _ _ _ _).mono (fun _ h => h.2) fun _ _ h => h
  · dsimp only
    split
    · exact .bind ((upholds_cancel _).mono (fun _ h => h.2) fun _ _ h => h) fun _ => hanswer _ _ _ _
    · exact .bind ((upholds_confirm _ none _).mono (fun _ h => h.2) fun _ _ h => h) fun _ => hanswer _ _ _ _

end

/-! ## Runs of turns -/

theorem allRecent_opened {named : Uuid → Option Instant} {env : Env W} {actor : CurrentUser} {data : UtteranceIn}
    {db db' : Database W} {session : VoiceSession} (h : AllRecent named db)
    (hopen : opened env actor data db = some (session, db')) :
    AllRecent named db' ∧ Recent (named session.id) session.context := by
  unfold opened at hopen
  split at hopen
  · obtain ⟨row, hfind, heq⟩ := Option.map_eq_some_iff.mp hopen
    obtain ⟨rfl, rfl⟩ := Prod.mk.inj heq
    have hrecent := h _ _ hfind
    rw [← Table.key_of_find hfind] at hrecent
    exact ⟨h, hrecent⟩
  · obtain ⟨sessions, hins, heq⟩ := Option.map_eq_some_iff.mp hopen
    obtain ⟨rfl, rfl⟩ := Prod.mk.inj heq
    refine ⟨fun id row hfind => ?_, recent_empty _⟩
    rw [Table.find_insert hins] at hfind
    split at hfind
    · cases hfind
      exact recent_empty _
    · exact h id row hfind

theorem allRecent_utterance {w : Wiring} {env : Env W} {actor : CurrentUser} {data : UtteranceIn} {db : Database W}
    {named : Uuid → Option Instant} (h : AllRecent named db) (htime : env.now ≤ env.later)
    (hheard : ∀ session result, understoodAs w env actor data db = some (session, result) →
      (namesMachine w db.registry result = true → named session.id = some env.later) ∧
        (namesMachine w db.registry result = true ∨
          keepsAlive w env actor (data.lang.getD session.lang) db.registry session result = false)) :
    AllRecent named (afterUtterance w env actor data db).stored := by
  generalize ht : afterUtterance w env actor data db = t
  unfold afterUtterance at ht
  simp only [handle, Tx.run_bind] at ht
  rcases run_openSession env actor data db with ⟨failure, hopen, hrun⟩ | ⟨session, db', hopen, hrun⟩
  · rw [hrun] at ht
    subst ht
    exact h
  obtain ⟨hall, hsession⟩ := allRecent_opened h hopen
  have hexpired : AllRecent named (expireStale db' env.now) := hall.sessions rfl
  simp only [hrun, Tx.andThen_ok, Tx.run_bind, Tx.run_write] at ht
  cases hroute : route w.grammar w.catalogue data.text env.now (data.lang.getD session.lang) env.llm with
  | error reason =>
    rw [hroute] at ht
    subst ht
    exact hall
  | ok result =>
    rw [hroute] at ht
    simp only [orCrash, Tx.run_pure, Tx.andThen_ok] at ht
    cases hcontrol : result.control with
    | some control =>
      rw [hcontrol] at ht
      have hrest : Tx.Upholds (AllRecent named) (AllRecent named)
          (handleControl w env actor session data result control) fun _ => AllRecent named := upholds_handleControl
      rw [← ht]
      exact (hrest hall hexpired rfl).1
    | none =>
      rw [hcontrol] at ht
      have hunderstood (hdoubted : data.doubted = false) (hunder : result.understood = true) :
          understoodAs w env actor data db = some (session, result) := by
        unfold understoodAs
        rw [hopen]
        dsimp only [Option.bind_some]
        rw [hroute]
        simp [Except.toOption, hcontrol, hdoubted, hunder]
      have hview : Hears db.registry named (expireStale db' env.now) := ⟨(opened_actions hopen).2, hexpired⟩
      have hrest : Tx.Upholds (AllRecent named) (Hears db.registry named)
          (handleIntent w env actor session data result (data.lang.getD session.lang)) fun _ => AllRecent named :=
        upholds_handleIntent htime hsession fun hdoubted hunder => hheard _ _ (hunderstood hdoubted hunder)
      rw [← ht]
      exact (hrest hall hview rfl).1

/-- No machine was named yet, and none is remembered. -/
structure Talk.Opening (s : Talk W) : Prop where
  forgotten : ∀ id session, s.db.sessions.find id = some session → session.context.currentAssetId = none
  unnamed : ∀ id, s.lastNamed id = none

structure Talk.Current (s : Talk W) : Prop where
  recent : AllRecent s.lastNamed s.db
  past : ∀ id named, s.lastNamed id = some named → named ≤ s.clock

theorem Talk.Opening.current {s : Talk W} (h : s.Opening) : s.Current := by
  refine ⟨fun id session hfind hremembered => ?_, fun id named hnamed => ?_⟩
  · rw [h.forgotten id session hfind] at hremembered
    cases hremembered
  · rw [h.unnamed id] at hnamed
    cases hnamed

/-- Naming a machine only moves the time at which it was last named on. -/
theorem Talk.Current.lastNamedAfter {s : Talk W} (h : s.Current) (w : Wiring) {env : Env W} (actor : CurrentUser)
    (data : UtteranceIn) (htime : s.clock ≤ env.later) (id : Uuid) :
    (∀ named, s.lastNamed id = some named →
      ∃ named', Voice.lastNamedAfter w env actor data s id = some named' ∧ named ≤ named') ∧
    ∀ named, Voice.lastNamedAfter w env actor data s id = some named → named ≤ env.later := by
  have hpast (named : Instant) (hnamed : s.lastNamed id = some named) : named ≤ env.later :=
    Int.le_trans (h.past id named hnamed) htime
  unfold Voice.lastNamedAfter
  split
  · split
    · refine ⟨fun named hnamed => ⟨env.later, rfl, hpast named hnamed⟩, fun named hnamed => ?_⟩
      cases hnamed
      exact Int.le_refl _
    · exact ⟨fun named hnamed => ⟨named, hnamed, Int.le_refl _⟩, hpast⟩
  · exact ⟨fun named hnamed => ⟨named, hnamed, Int.le_refl _⟩, hpast⟩

theorem Talk.Current.step {w : Wiring} {s : Talk W} {h : Happening W} (hs : s.Current)
    (hquiet : NamesOrForgets w s h) (htime : Timely s h) : (s.next w h).Current := by
  cases h with
  | start id userId channel device lang =>
    refine ⟨fun id' session hfind => ?_, hs.past⟩
    unfold Talk.next at hfind
    dsimp only at hfind
    cases hins : s.db.sessions.insert ⟨id, some userId, channel, device, lang, DialogueContext.empty⟩ with
    | none =>
      rw [hins] at hfind
      exact hs.recent id' session hfind
    | some sessions =>
      rw [hins, Option.getD_some, Table.find_insert hins] at hfind
      split at hfind
      · cases hfind
        exact recent_empty _
      · exact hs.recent id' session hfind
  | elsewhere registry => exact ⟨hs.recent.sessions rfl, hs.past⟩
  | request env actor request =>
    have hlater : s.clock ≤ env.later := Int.le_trans htime.1 htime.2
    have hpast (id : Uuid) (named : Instant) (hnamed : s.lastNamed id = some named) : named ≤ env.later :=
      Int.le_trans (hs.past id named hnamed) hlater
    cases request with
    | confirm id pin => exact ⟨((upholds_confirm id pin "en") hs.recent hs.recent rfl).1, hpast⟩
    | cancel id => exact ⟨((upholds_cancel id) hs.recent hs.recent rfl).1, hpast⟩
    | utterance data =>
      refine ⟨allRecent_utterance (fun id session hfind => ?_) htime.2 fun session result hheard => ⟨fun hnames => ?_, ?_⟩,
        fun id => (hs.lastNamedAfter w actor data hlater id).2⟩
      · exact (hs.recent id session hfind).later (hs.lastNamedAfter w actor data hlater id).1
      · show Voice.lastNamedAfter w env actor data s session.id = some env.later
        unfold Voice.lastNamedAfter
        rw [hheard]
        dsimp only
        rw [hnames, if_pos (by simp)]
      · unfold NamesOrForgets at hquiet
        dsimp only at hquiet
        rw [hheard, Option.all_some, Bool.or_eq_true, Bool.not_eq_true'] at hquiet
        exact hquiet

theorem opened_of_understoodAs {w : Wiring} {env : Env W} {actor : CurrentUser} {data : UtteranceIn} {db : Database W}
    {session : VoiceSession} {result : RouterResult} (h : understoodAs w env actor data db = some (session, result)) :
    ∃ db', opened env actor data db = some (session, db') := by
  obtain ⟨⟨session', db'⟩, hopen, hrest⟩ := Option.bind_eq_some_iff.mp h
  obtain ⟨result', -, hsome⟩ := Option.bind_eq_some_iff.mp hrest
  split at hsome
  · cases hsome
    exact ⟨db', hopen⟩
  · cases hsome

def pressWiring : Wiring :=
  { plainWiring with
    grammar := { plainWiring.grammar with
      match? := fun text =>
        if text = "how is the press" then some ⟨"get_machine_status", "en", [("asset", "press")], 19 / 20⟩
        else if text = "how is it" then some ⟨"get_machine_status", "en", [], 19 / 20⟩
        else if text = "help" then some ⟨"help", "en", [], 19 / 20⟩ else none }
    resolve := fun _ refs => (refs.head?, [])
    requiredArguments := fun intent => if intent = "get_machine_status" then ["asset_id"] else [] }

/-- A status report names the machine that it is about. -/
def statusTool : Tool Unit := fun _ params registry =>
  ⟨registry, none, .done (params.filter fun e => e.1 = "asset_id")⟩

def asked (second : Int) (turn : Uuid) (text : String) : Happening Unit :=
  .request { atSecond second with
    tools := fun name => some (if name = "get_machine_status" then statusTool else obligingTool), newTurn := turn }
    operator (.utterance (say text none))

def opening : Talk Unit where
  db := { waitingDatabase with turns := Table.empty, actions := Table.empty }
  clock := 0
  lastNamed := fun _ => none

theorem opening_opening : opening.Opening := by
  refine ⟨fun id session hfind => ?_, fun _ => rfl⟩
  have hrow : session ∈ [(⟨1, some 1, "voice", none, "en", DialogueContext.empty⟩ : VoiceSession)] :=
    Table.mem_of_find hfind
  rw [List.mem_singleton.mp hrow]
  rfl

end TwinVoice.Voice
