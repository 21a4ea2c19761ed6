import TwinVoice.Voice.Turns

/-! # The transcript of a session

A turn is a row of `voice_turns`, and the rows stand in the order in which the
turns were taken. An utterance that is not lost as a whole adds its own turn at
the end; nothing else adds one, removes one or moves one to another session. -/

namespace TwinVoice.Voice

open TwinVoice.Lib TwinVoice.Nlu

variable {W : Type}

/-- Which session each turn belongs to, in the order of the turns. -/
def order (turns : Table VoiceTurn) : List (Uuid × Uuid) := turns.rows.map fun t => (t.id, t.sessionId)

/-- The turn that the session took last. -/
def latestTurn (db : Database W) (sessionId : Uuid) : Option Uuid :=
  ((db.turns.select fun t => t.sessionId = sessionId).map VoiceTurn.id).getLast?

theorem latestTurn_order (db : Database W) (sessionId : Uuid) :
    latestTurn db sessionId =
      (((order db.turns).filter fun e => e.2 = sessionId).map Prod.fst).getLast? := by
  unfold latestTurn order Table.select
  rw [List.filter_map, List.map_map]
  rfl

theorem latestTurn_congr {db db' : Database W} (h : order db'.turns = order db.turns)
    (sessionId : Uuid) : latestTurn db' sessionId = latestTurn db sessionId := by
  rw [latestTurn_order, latestTurn_order, h]

theorem latestTurn_append {db db' : Database W} {turn sid : Uuid}
    (h : order db'.turns = order db.turns ++ [(turn, sid)]) (sessionId : Uuid) :
    latestTurn db' sessionId = if sid = sessionId then some turn else latestTurn db sessionId := by
  rw [latestTurn_order, latestTurn_order, h, List.filter_append, List.map_append]
  by_cases hsid : sid = sessionId
  · rw [if_pos hsid, List.filter_singleton]
    simp [hsid]
  · rw [if_neg hsid, List.filter_singleton]
    simp [hsid]

/-- The session of an action is the one that its turn belongs to. -/
theorem sessionIdOf_eq_some {db : Database W} {a : VoiceAction} {sessionId : Uuid} :
    sessionIdOf db a = some sessionId ↔ (a.turnId, sessionId) ∈ order db.turns := by
  unfold sessionIdOf order
  rw [Option.map_eq_some_iff, List.mem_map]
  constructor
  · rintro ⟨turn, hfind, hsid⟩
    exact ⟨turn, Table.mem_of_find hfind, Prod.ext (Table.key_of_find hfind) hsid⟩
  · rintro ⟨turn, hmem, heq⟩
    obtain ⟨hid, hsid⟩ := Prod.mk.inj heq
    exact ⟨turn, Table.find_iff.mpr ⟨hmem, hid⟩, hsid⟩

theorem order_insert {turns turns' : Table VoiceTurn} {turn : VoiceTurn}
    (h : turns.insert turn = some turns') :
    order turns' = order turns ++ [(turn.id, turn.sessionId)] := by
  unfold order
  rw [Table.rows_insert h, List.map_append]
  rfl

/-- A turn that is saved again keeps its place. -/
theorem order_saved {turns : Table VoiceTurn} {turn : VoiceTurn}
    (h : (turn.id, turn.sessionId) ∈ order turns) :
    order (turns.modify turn.id (fun r => { turn with id := r.id }) fun _ => rfl) = order turns := by
  obtain ⟨old, hold, hsame⟩ := List.mem_map.mp h
  obtain ⟨hid, hsid⟩ := Prod.mk.inj hsame
  unfold order Table.modify
  rw [Table.rows_update, List.map_map]
  refine List.map_congr_left fun r hr => ?_
  rw [Function.comp_apply]
  by_cases hkey : (Keyed.key r == turn.id) = true
  · have hfind : ∀ x ∈ turns.rows, x.id = turn.id → turns.find turn.id = some x :=
      fun x hx hx' => Table.find_iff.mpr ⟨hx, hx'⟩
    have hr' : r = old := by
      have := (hfind r hr (beq_iff_eq.mp hkey)).symm.trans (hfind old hold hid)
      exact Option.some.inj this
    rw [if_pos hkey, hr', hsid]
  · rw [if_neg hkey]

/-! ## What a piece of a request does to it -/

/-- A tool call does what its entry in the log, its registry and its commit do. -/
theorem callTool_along {R : Session (Database W) Event → Session (Database W) Event → Prop}
    [IsPreorder _ R] {env : Env W} {action : Option Uuid} {tool : String} {context : ToolContext}
    {params : Params}
    (hcall : Tx.Along R (Tx.emit (.toolRun action tool params) : VoiceTx W Unit))
    (hwrite : ∀ registry, Tx.Along R (setRegistry registry))
    (hcommit : Tx.Along R (Tx.commit : VoiceTx W Unit)) :
    Tx.Along R (callTool env action tool context params) := by
  unfold callTool
  cases env.tools tool with
  | none => exact .raise _
  | some run =>
    refine .bind hcall fun _ => .bind .read fun db => .bind ?_ fun _ => .bind (hwrite _) fun _ => ?_
    · unfold keep
      cases (run context params db.registry).committed with
      | none => exact .pure ()
      | some registry => exact .bind (hwrite registry) fun _ => hcommit
    · cases (run context params db.registry).ending with
      | done output => exact .pure _
      | refused problem => exact .pure _
      | died reason => exact .raise _

/-- The transcript stays as it is, and what is read back is read back in this turn. -/
structure Minds (turn : Uuid) (s t : Session (Database W) Event) : Prop where
  work : order t.work.turns = order s.work.turns
  stored : t.stored = s.stored ∨ order t.stored.turns = order s.work.turns
  said : ∀ a p, Event.readBack a p ∈ t.log → Event.readBack a p ∈ s.log ∨ a.turnId = turn

theorem Minds.refl (turn : Uuid) (s : Session (Database W) Event) : Minds turn s s :=
  ⟨rfl, .inl rfl, fun _ _ h => .inl h⟩

theorem Minds.trans {turn : Uuid} {s t u : Session (Database W) Event} (h : Minds turn s t)
    (h' : Minds turn t u) : Minds turn s u := by
  refine ⟨h'.work.trans h.work, ?_, fun a p hmem => ?_⟩
  · cases h'.stored with
    | inl hsame => rw [hsame]; exact h.stored
    | inr hall => exact .inr (hall.trans h.work)
  · cases h'.said a p hmem with
    | inl hbefore => exact h.said a p hbefore
    | inr hturn => exact .inr hturn

instance (turn : Uuid) : IsPreorder (Session (Database W) Event) (Minds turn) where
  refl := Minds.refl turn
  trans _ _ _ := Minds.trans

/-- The same, once the turn has its place in the session. -/
def Within (turn sessionId : Uuid) (s t : Session (Database W) Event) : Prop :=
  (turn, sessionId) ∈ order s.work.turns → Minds turn s t

instance (turn sessionId : Uuid) :
    IsPreorder (Session (Database W) Event) (Within turn sessionId) where
  refl s _ := .refl turn s
  trans s t u h h' hplace := by
    have hfirst : Minds turn s t := h hplace
    exact hfirst.trans (h' (hfirst.work ▸ hplace))

section
variable (turn : Uuid)

theorem Minds.write {f : Database W → Database W} (h : ∀ db, (f db).turns = db.turns) :
    Tx.Along (Minds turn) (Tx.write f : VoiceTx W Unit) :=
  fun s => ⟨congrArg order (h s.work), .inl rfl, fun _ _ hmem => .inl hmem⟩

theorem Minds.commit : Tx.Along (Minds turn) (Tx.commit : VoiceTx W Unit) :=
  fun _ => ⟨rfl, .inr rfl, fun _ _ hmem => .inl hmem⟩

theorem Minds.emit {e : Event} (h : ∀ a p, e = .readBack a p → a.turnId = turn) :
    Tx.Along (Minds turn) (Tx.emit e : VoiceTx W Unit) := by
  refine fun s => ⟨rfl, .inl rfl, fun a p hmem => ?_⟩
  cases List.mem_append.mp hmem with
  | inl hbefore => exact .inl hbefore
  | inr hnew => exact .inr (h a p (List.mem_singleton.mp hnew).symm)

theorem Minds.callTool (env : Env W) (action : Option Uuid) (tool : String) (context : ToolContext)
    (params : Params) : Tx.Along (Minds turn) (callTool env action tool context params) :=
  callTool_along (.emit turn fun _ _ h => nomatch h) (fun _ => .write turn fun _ => rfl) (.commit turn)

theorem Minds.execute (w : Wiring) (env : Env W) (actor : CurrentUser) (action : VoiceAction)
    (lang : String) : Tx.Along (Minds turn) (execute w env actor action lang) := by
  have hsave : ∀ a : VoiceAction, Tx.Along (Minds turn) (saveAction (W := W) a) :=
    fun _ => .write turn fun _ => rfl
  refine .bind (hsave _) fun _ => .bind .read fun db => .bind (.callTool turn _ _ _ _ _) fun r => ?_
  cases r with
  | error problem => exact .bind (hsave _) fun _ => .bind (.commit turn) fun _ => .pure _
  | ok output => exact .bind (hsave _) fun _ => .bind (.commit turn) fun _ => .pure _

theorem Minds.actionOr404 (id : Uuid) : Tx.Along (Minds turn) (actionOr404 (W := W) id) :=
  .bind .read fun _ => .orRaise _ _

theorem Minds.confirm (w : Wiring) (env : Env W) (actor : CurrentUser) (id : Uuid)
    (pin : Option String) (lang : String) :
    Tx.Along (Minds turn) (confirm w env actor id pin lang) := by
  refine .bind (.actionOr404 turn id) fun action => .bind .read fun db => ?_
  have hsettle : ∀ (a : VoiceAction) (failure : Failure), Tx.Along (Minds turn) (do
      saveAction (W := W) a; Tx.commit; Tx.raise failure : VoiceTx W (VoiceAction × String)) :=
    fun _ _ => .bind (.write turn fun _ => rfl) fun _ => .bind (.commit turn) fun _ => .raise _
  cases check w env actor db.registry action pin with
  | notPending => exact .raise _
  | pinUnavailable failure => exact .raise _
  | broken reason => exact .raise _
  | windowClosed => exact hsettle _ _
  | t3Disabled => exact hsettle _ _
  | pinWrong => exact hsettle _ _
  | invalid errors =>
    exact .bind (.write turn fun _ => rfl) fun _ => .bind (.commit turn) fun _ => .pure _
  | clear => exact .execute turn w env actor action lang

theorem Minds.cancel (id : Uuid) : Tx.Along (Minds turn) (cancel (W := W) id) := by
  refine .bind (.actionOr404 turn id) fun action => ?_
  split
  · exact .raise _
  · exact .bind (.write turn fun _ => rfl) fun _ => .bind (.commit turn) fun _ => .pure _

theorem Minds.executeNow (w : Wiring) (env : Env W) (actor : CurrentUser) (session : VoiceSession)
    (result : RouterResult) (resolution : Resolution) (lang : String) (base : TurnResponse) :
    Tx.Along (Minds turn) (executeNow w env actor session result resolution lang base) := by
  refine .bind (.callTool turn _ _ _ _ _) fun r => ?_
  cases r with
  | error problem => exact .pure _
  | ok output => exact .bind (.write turn fun _ => rfl) fun _ => .pure _

end

theorem Minds.readBack (w : Wiring) (env : Env W) (turn : VoiceTurn) (result : RouterResult)
    (params : Params) (lang : String) (base : TurnResponse) :
    Tx.Along (Minds turn.id) (readBack w env turn result params lang base) := by
  unfold Voice.readBack
  split
  · exact .pure _
  · have hsaid : Tx.Along (Minds turn.id)
        (Tx.emit (.readBack (readBackAction w env turn result params lang) params) :
          VoiceTx W Unit) := by
      refine .emit turn.id fun a p h => ?_
      cases h
      rfl
    exact .bind .read fun db => .bind (.orRaise _ _) fun actions =>
      .bind (.write turn.id fun _ => rfl) fun _ => .bind hsaid fun _ => .pure _

theorem Minds.respond (w : Wiring) (env : Env W) (actor : CurrentUser) (session : VoiceSession)
    (turn : VoiceTurn) (result : RouterResult) (data : UtteranceIn) (lang : String) :
    Tx.Along (Minds turn.id) (respond w env actor session turn result data lang) := by
  refine .bind .read fun db => ?_
  split
  · exact .pure _
  split
  · exact .pure _
  refine .bind ?_ fun resolution => .bind (.write turn.id fun _ => rfl) fun _ => ?_
  · cases resolveSlots w db.registry session result env.now with
    | ok resolution => exact .pure _
    | error reason => exact .raise _
  · unfold respondResolved
    split
    · exact .pure _
    split
    · exact .readBack w env turn result _ lang _
    · exact .executeNow turn.id w env actor session result resolution lang _

theorem Within.saveTurn (turn : VoiceTurn) :
    Tx.Along (Within turn.id turn.sessionId) (saveTurn (W := W) turn) :=
  fun _ hplace => ⟨order_saved hplace, .inl rfl, fun _ _ hmem => .inl hmem⟩

theorem Minds.within {turn sessionId : Uuid} {α : Type} {m : VoiceTx W α}
    (h : Tx.Along (Minds turn) m) : Tx.Along (Within turn sessionId) m :=
  h.mono fun _ _ hst _ => hst

theorem Within.answerControl (base : TurnResponse) (turn : VoiceTurn) (text : String)
    (action : Option VoiceAction) :
    Tx.Along (Within turn.id turn.sessionId) (answerControl (W := W) base turn text action) :=
  .bind (.saveTurn { turn with responseText := some text }) fun _ =>
    .bind (Minds.within (.commit turn.id)) fun _ => .pure _

theorem Within.obeyControl (w : Wiring) (env : Env W) (actor : CurrentUser) (session : VoiceSession)
    (turn : VoiceTurn) (control : Control) (lang : String) (base : TurnResponse) :
    Tx.Along (Within turn.id turn.sessionId)
      (obeyControl w env actor session turn control lang base) := by
  refine .bind .read fun db => ?_
  split
  · exact .answerControl _ _ _ _
  split
  · exact .answerControl _ _ _ _
  · dsimp only
    split
    · exact .bind (Minds.within (.cancel turn.id _)) fun _ => .answerControl _ _ _ _
    · exact .bind (Minds.within (.confirm turn.id w env actor _ none lang)) fun _ =>
        .answerControl _ _ _ _

/-! ## What answers a read-back settles it -/

/-- A settled action stays settled, and so it is in whatever gets committed. -/
def Settling (id : Uuid) (s t : Session (Database W) Event) : Prop :=
  Settled s.work.actions id →
    Settled t.work.actions id ∧ (t.stored = s.stored ∨ Settled t.stored.actions id)

instance (id : Uuid) : IsPreorder (Session (Database W) Event) (Settling id) where
  refl _ hs := ⟨hs, .inl rfl⟩
  trans s t u h h' hs := by
    obtain ⟨ht, hstored⟩ := h hs
    obtain ⟨hu, hstored'⟩ := h' ht
    refine ⟨hu, ?_⟩
    cases hstored' with
    | inl hsame => rw [hsame]; exact hstored
    | inr hsettled => exact .inr hsettled

theorem Settled.put {t : Table VoiceAction} {id : Uuid} {b : VoiceAction} (h : Settled t id)
    (done : b.status ≠ .pending) : Settled (putAction t b) id := by
  obtain ⟨a, hfind, hstatus⟩ := h
  unfold Settled putAction
  rw [Table.find_modify, hfind]
  by_cases hid : id = b.id
  · rw [if_pos hid]
    exact ⟨_, rfl, done⟩
  · rw [if_neg hid]
    exact ⟨a, rfl, hstatus⟩

section
variable (id : Uuid)

theorem Settling.write {f : Database W → Database W} (h : ∀ db, (f db).actions = db.actions) :
    Tx.Along (Settling id) (Tx.write f : VoiceTx W Unit) := by
  intro s hs
  exact ⟨(h s.work).symm ▸ hs, .inl rfl⟩

theorem Settling.commit : Tx.Along (Settling id) (Tx.commit : VoiceTx W Unit) :=
  fun _ hs => ⟨hs, .inr hs⟩

theorem Settling.saveAction {a : VoiceAction} (done : a.status ≠ .pending) :
    Tx.Along (Settling id) (saveAction (W := W) a) :=
  fun _ hs => ⟨hs.put done, .inl rfl⟩

theorem Settling.callTool (env : Env W) (action : Option Uuid) (tool : String)
    (context : ToolContext) (params : Params) :
    Tx.Along (Settling id) (callTool env action tool context params) :=
  callTool_along (fun _ hs => ⟨hs, .inl rfl⟩) (fun _ => .write id fun _ => rfl) (.commit id)

theorem Settling.answerControl (base : TurnResponse) (turn : VoiceTurn) (text : String)
    (action : Option VoiceAction) :
    Tx.Along (Settling id) (answerControl (W := W) base turn text action) :=
  .bind (.write id fun _ => rfl) fun _ => .bind (.commit id) fun _ => .pure _

end

/-- From the action as it is found: it is settled, also in whatever is committed. -/
def Settles (id : Uuid) (s t : Session (Database W) Event) : Prop :=
  Settled t.work.actions id ∧ (t.stored = s.stored ∨ Settled t.stored.actions id)

theorem saveAction_settles {α : Type} {s : Session (Database W) Event} {a b : VoiceAction}
    {rest : Unit → VoiceTx W α} (hfind : s.work.actions.find b.id = some a)
    (done : b.status ≠ .pending) (hrest : ∀ u, Tx.Along (Settling b.id) (rest u)) :
    Settles b.id s ((saveAction b >>= rest).run s).2 :=
  hrest () _ ⟨b, find_putAction hfind, done⟩

theorem execute_settles (w : Wiring) (env : Env W) (actor : CurrentUser) (lang : String)
    {s : Session (Database W) Event} {a : VoiceAction} (hfind : s.work.actions.find a.id = some a) :
    Settles a.id s ((execute w env actor a lang).run s).2 := by
  have hid : (a.confirm env.later).id = a.id :=
    ((SameAction.factorPassed a).trans ⟨rfl, rfl, rfl, rfl⟩).id
  unfold execute
  refine hid ▸ saveAction_settles (hid ▸ hfind) (by rintro ⟨⟩) fun _ => .bind .read fun db =>
    .bind (.callTool _ _ _ _ _ _) fun r => ?_
  cases r with
  | error problem =>
    exact .bind (.saveAction _ (by rintro ⟨⟩)) fun _ => .bind (.commit _) fun _ => .pure _
  | ok output =>
    exact .bind (.saveAction _ (by rintro ⟨⟩)) fun _ => .bind (.commit _) fun _ => .pure _

/-- `confirm` fails without a trace, or settles the action it finds. -/
theorem confirm_settles (w : Wiring) (env : Env W) (actor : CurrentUser) (pin : Option String)
    (lang : String) {s : Session (Database W) Event} {a : VoiceAction}
    (hfind : s.work.actions.find a.id = some a) :
    let r := (confirm w env actor a.id pin lang).run s
    (∃ failure, r = (.error failure, s)) ∨ Settles a.id s r.2 := by
  intro r
  have hruns : ConfirmRuns w env actor pin lang a s r := confirm_runs w env actor pin lang hfind
  cases hruns with
  | failed why failure ends => exact .inl ⟨failure, ends⟩
  | settled why b same done work stored log =>
    have hsettled : Settled r.2.work.actions a.id := by
      rw [work, ← same.id]
      exact ⟨b, find_putAction (same.id ▸ hfind), done⟩
    exact .inr ⟨hsettled, .inr (stored ▸ hsettled)⟩
  | cleared clear ends => exact .inr (ends ▸ execute_settles w env actor lang hfind)

theorem cancel_settles {s : Session (Database W) Event} {a : VoiceAction}
    (hfind : s.work.actions.find a.id = some a) :
    let r := (cancel a.id).run s
    (∃ failure, r = (.error failure, s)) ∨ Settles a.id s r.2 := by
  intro r
  have hr : r = (cancel a.id).run s := rfl
  rw [cancel, Tx.run_bind, run_actionOr404 hfind, Tx.andThen_ok] at hr
  by_cases hp : a.status ≠ .pending
  · rw [if_pos hp] at hr
    exact .inl ⟨_, hr⟩
  · rw [if_neg hp] at hr
    refine .inr (hr ▸ saveAction_settles (b := { a with status := .cancelled }) hfind
      (by rintro ⟨⟩) fun _ => ?_)
    exact .bind (.commit _) fun _ => .pure _

/-- A phrase that is not "repeat" leaves its pending action settled, if it leaves anything. -/
theorem obeyControl_settles (w : Wiring) (env : Env W) (actor : CurrentUser) (session : VoiceSession)
    (turn : VoiceTurn) {control : Control} (lang : String) (base : TurnResponse)
    {s : Session (Database W) Event} {a : VoiceAction} (hcontrol : control ≠ .repeat)
    (hp : pendingForSession s.work session.id env.now = some a) :
    let t := ((obeyControl w env actor session turn control lang base).run s).2
    t.stored = s.stored ∨ Settled t.stored.actions a.id := by
  intro t
  have hfind : s.work.actions.find a.id = some a := (pendingForSession_some hp).1
  have hanswer : ∀ r : Except Failure (VoiceAction × String) × Session (Database W) Event,
      (∃ failure, r = (.error failure, s)) ∨ Settles a.id s r.2 → ∀ u,
      u = (Tx.andThen (fun response => answerControl base turn response.2 (some response.1)) r).2 →
      u.stored = s.stored ∨ Settled u.stored.actions a.id := by
    rintro r (⟨failure, rfl⟩ | ⟨hwork, hstored⟩) u hu
    · exact .inl (by rw [hu]; rfl)
    · obtain ⟨-, hends⟩ := Tx.Along.andThen (R := Settling a.id) (s := r.2)
        (fun response => Settling.answerControl a.id base turn response.2 (some response.1))
        (refl_of _ _) hwork
      rw [← hu] at hends
      cases hends with
      | inl hsame => rw [hsame]; exact hstored
      | inr hsettled => exact .inr hsettled
  have ht : t = ((obeyControl w env actor session turn control lang base).run s).2 := rfl
  simp only [obeyControl, Tx.run_bind, Tx.run_read, Tx.andThen_ok, Tx.run_ite, if_neg hcontrol, hp] at ht
  split at ht
  · exact hanswer _ (cancel_settles hfind) t ht
  · exact hanswer _ (confirm_settles w env actor none lang hfind) t ht

/-! ## The whole utterance -/

/-- The turn is taken: it is the last one, and all that is read back is read back in it. -/
structure Takes (turn sessionId : Uuid) (s t : Session (Database W) Event) : Prop where
  fresh : s.work.turns.find turn = none
  last : order t.stored.turns = order s.work.turns ++ [(turn, sessionId)]
  said : ∀ a p, Event.readBack a p ∈ t.log → Event.readBack a p ∈ s.log ∨ a.turnId = turn

theorem addTurn_takes {α : Type} {turn : VoiceTurn} {rest : Unit → VoiceTx W α}
    (hrest : ∀ u, Tx.Along (Within turn.id turn.sessionId) (rest u))
    (s : Session (Database W) Event) :
    let t := ((addTurn turn >>= rest).run s).2
    t.stored = s.stored ∨ Takes turn.id turn.sessionId s t := by
  intro t
  have ht : t = ((addTurn turn >>= rest).run s).2 := rfl
  simp only [addTurn, Tx.run_bind, Tx.run_read, Tx.andThen_ok] at ht
  cases hins : s.work.turns.insert turn with
  | none =>
    rw [hins, Tx.run_orRaise_none, Tx.andThen_error, Tx.andThen_error] at ht
    exact .inl (by rw [ht])
  | some turns =>
    rw [hins, Tx.run_orRaise_some, Tx.andThen_ok, Tx.run_write, Tx.andThen_ok] at ht
    have horder := order_insert hins
    have hplace : (turn.id, turn.sessionId) ∈ order turns := by
      rw [horder]
      exact List.mem_append_right _ (List.mem_singleton_self _)
    have hminds := hrest () { s with work := { s.work with turns := turns } } hplace
    rw [← ht] at hminds
    cases hminds.stored with
    | inl hsame => exact .inl hsame
    | inr hall => exact .inr ⟨Table.fresh_of_insert hins, hall.trans horder, hminds.said⟩

theorem handleIntent_takes (w : Wiring) (env : Env W) (actor : CurrentUser) (session : VoiceSession)
    (data : UtteranceIn) (result : RouterResult) (lang : String) (s : Session (Database W) Event) :
    let t := ((handleIntent w env actor session data result lang).run s).2
    t.stored = s.stored ∨ Takes env.newTurn session.id s t := by
  let turn := intentTurn w env session data result
  refine addTurn_takes (fun _ => ?_) s
  refine .bind (Minds.within (.respond w env actor session turn result data lang)) fun response => ?_
  exact .bind (.saveTurn { turn with
      responseText := some response.text, citations := some (w.codec.jsonable response.citations) })
    fun _ => .bind (Minds.within (.commit turn.id)) fun _ => .pure _

theorem handleControl_takes (w : Wiring) (env : Env W) (actor : CurrentUser) (session : VoiceSession)
    (data : UtteranceIn) (result : RouterResult) (control : Control)
    (s : Session (Database W) Event) :
    let t := ((handleControl w env actor session data result control).run s).2
    t.stored = s.stored ∨ Takes env.newTurn session.id s t := by
  let turn := controlTurn env session data result control
  exact addTurn_takes (fun _ => .obeyControl w env actor session turn control _ _) s

theorem opened_turns {env : Env W} {actor : CurrentUser} {data : UtteranceIn} {db db' : Database W}
    {session : VoiceSession} (h : opened env actor data db = some (session, db')) :
    db'.turns = db.turns := by
  obtain ⟨sessions, rfl⟩ := opened_eq h
  rfl

/-- What a control phrase acts on has the turn of the phrase at its end. -/
theorem heard_some {w : Wiring} {env : Env W} {actor : CurrentUser} {data : UtteranceIn}
    {db db'' : Database W} {session : VoiceSession}
    (h : heard w env actor data db = some (session, db'')) :
    (∃ db', opened env actor data db = some (session, db')) ∧
      db''.actions = (expireStale db env.now).actions ∧
      order db''.turns = order db.turns ++ [(env.newTurn, session.id)] := by
  obtain ⟨⟨session', db'⟩, hopen, hrest⟩ := Option.bind_eq_some_iff.mp h
  obtain ⟨result, hroute, hrest⟩ := Option.bind_eq_some_iff.mp hrest
  obtain ⟨turns, hturns, heq⟩ := Option.map_eq_some_iff.mp hrest
  obtain ⟨control, -, hins⟩ := Option.bind_eq_some_iff.mp hturns
  cases heq
  refine ⟨⟨db', hopen⟩, ?_, ?_⟩
  · simp only [expireStale, (opened_actions hopen).1]
  · rw [← opened_turns hopen]
    exact order_insert hins

theorem mem_expireStale {db : Database W} {now : Instant} {a : VoiceAction}
    (h : a ∈ (expireStale db now).actions.rows) (hp : a.status = .pending) :
    a ∈ db.actions.rows ∧ a.windowClosed now = false := by
  obtain ⟨b, hb, hab⟩ := List.mem_map.mp h
  by_cases hstale : (decide (b.status = .pending) && b.windowClosed now) = true
  · rw [if_pos hstale] at hab
    rw [← hab] at hp
    cases hp
  · rw [if_neg hstale] at hab
    subst hab
    rw [hp] at hstale
    exact ⟨hb, by simpa using hstale⟩

/-- What the sweep leaves pending. -/
theorem mem_expireStale_of_open {db : Database W} {now : Instant} {a : VoiceAction}
    (h : a ∈ db.actions.rows) (hopen : a.windowClosed now = false) :
    a ∈ (expireStale db now).actions.rows :=
  List.mem_map.mpr ⟨a, h, by simp [hopen]⟩

/-- How an utterance leaves the transcript and the pending actions. -/
inductive Took (w : Wiring) (env : Env W) (actor : CurrentUser) (data : UtteranceIn)
    (db : Database W) (t : Session (Database W) Event) : Prop
  | lost (turns : t.stored.turns = db.turns) (actions : t.stored.actions = db.actions)
  | taken (session : VoiceSession) (db' : Database W)
      (opens : opened env actor data db = some (session, db'))
      (fresh : db.turns.find env.newTurn = none)
      (last : order t.stored.turns = order db.turns ++ [(env.newTurn, session.id)])
      (pending : ∀ b ∈ t.stored.actions.rows, b.status = .pending →
        (b ∈ db.actions.rows ∧ b.windowClosed env.now = false) ∨
          (b.turnId = env.newTurn ∧ b.expiresAt.isSome ∧ ∃ p, Event.readBack b p ∈ t.log))
      (answers : ∀ control, controlWord w.grammar.tables w.catalogue data.text = some control →
        control ≠ .repeat → ∃ db'', heard w env actor data db = some (session, db'') ∧
          ∀ a, pendingForSession db'' session.id env.now = some a → Settled t.stored.actions a.id)
      (left : ∀ b ∈ db.actions.rows, b.status = .pending → b.windowClosed env.now = false →
        (∀ control, controlWord w.grammar.tables w.catalogue data.text = some control →
          control = .repeat) → b ∈ t.stored.actions.rows)

theorem Spoke.pending {w : Wiring} {env : Env W} {result : RouterResult} {db : Database W}
    {s t : Session (Database W) Event} {b : VoiceAction} (h : Spoke w env result s t)
    (hwork : s.work.actions = (expireStale db env.now).actions) (hb : b ∈ t.work.actions.rows)
    (hp : b.status = .pending) :
    (b ∈ db.actions.rows ∧ b.windowClosed env.now = false) ∨
      (b.expiresAt.isSome ∧ ∃ p, Event.readBack b p ∈ t.log) := by
  cases h with
  | quiet log work => exact .inl (mem_expireStale (hwork ▸ work ▸ hb) hp)
  | ranNow p tier log work => exact .inl (mem_expireStale (hwork ▸ work ▸ hb) hp)
  | readBack turn p lang work log =>
    rw [Table.rows_insert work, List.mem_append, List.mem_singleton, hwork] at hb
    cases hb with
    | inl hold => exact .inl (mem_expireStale hold hp)
    | inr hnew =>
      refine .inr ⟨by rw [hnew]; rfl, p, ?_⟩
      rw [log, hnew]
      exact List.mem_append_right _ (List.mem_singleton_self _)

/-- No way of an intent takes an action away. -/
theorem Spoke.left {w : Wiring} {env : Env W} {result : RouterResult}
    {s t : Session (Database W) Event} {b : VoiceAction} (h : Spoke w env result s t)
    (hb : b ∈ s.work.actions.rows) : b ∈ t.work.actions.rows := by
  cases h with
  | quiet log work => exact work ▸ hb
  | ranNow p tier log work => exact work ▸ hb
  | readBack turn p lang work log =>
    rw [Table.rows_insert work]
    exact List.mem_append_left _ hb

theorem obeyControl_repeat (w : Wiring) (env : Env W) (actor : CurrentUser) (session : VoiceSession)
    (turn : VoiceTurn) (lang : String) (base : TurnResponse) (s : Session (Database W) Event) :
    ((obeyControl w env actor session turn .repeat lang base).run s).2.stored.actions =
      s.work.actions := by
  simp only [obeyControl, Tx.run_bind, Tx.run_read, Tx.andThen_ok, if_true]
  rfl

theorem Takes.stored_ne {turn sessionId : Uuid} {s t : Session (Database W) Event}
    (h : Takes turn sessionId s t) (hs : s.stored.turns = s.work.turns) : t.stored ≠ s.stored := by
  intro hsame
  have hlast := h.last
  rw [hsame, hs] at hlast
  exact absurd hlast (by simp)

theorem handle_took (w : Wiring) (env : Env W) (actor : CurrentUser) (data : UtteranceIn)
    (db : Database W) : Took w env actor data db ((handle w env actor data).run ⟨db, db, []⟩).2 := by
  generalize ht : ((handle w env actor data).run ⟨db, db, []⟩).2 = t
  simp only [handle, Tx.run_bind] at ht
  rcases run_openSession env actor data db with ⟨failure, hopen, hrun⟩ | ⟨session, db', hopen, hrun⟩
  · rw [hrun] at ht
    subst ht
    exact .lost rfl rfl
  obtain ⟨hactions, -⟩ := opened_actions hopen
  have hturns := opened_turns hopen
  have hlost : t.stored = db' → Took w env actor data db t :=
    fun hsame => .lost (hsame ▸ hturns) (hsame ▸ hactions)
  have hexpired : (expireStale db' env.now).actions = (expireStale db env.now).actions := by
    simp only [expireStale, hactions]
  simp only [hrun, Tx.andThen_ok, Tx.run_bind, Tx.run_write] at ht
  cases hroute : route w.grammar w.catalogue data.text env.now (data.lang.getD session.lang) env.llm with
  | error reason =>
    rw [hroute] at ht
    subst ht
    exact hlost rfl
  | ok result =>
    obtain ⟨-, hcontrol⟩ := route_ok hroute
    rw [hroute] at ht
    simp only [orCrash, Tx.run_pure, Tx.andThen_ok] at ht
    cases hc : result.control with
    | none =>
      rw [hc] at ht hcontrol
      obtain ⟨hspoke, hwhole, -⟩ := handleIntent_ends w env actor session data result
        (data.lang.getD session.lang) ⟨db', expireStale db' env.now, []⟩
      have htakes := handleIntent_takes w env actor session data result
        (data.lang.getD session.lang) ⟨db', expireStale db' env.now, []⟩
      simp only [ht] at hspoke hwhole htakes
      cases htakes with
      | inl hsame => exact hlost hsame
      | inr htaken =>
        refine .taken session db' hopen (hturns ▸ htaken.fresh) (hturns ▸ htaken.last) ?_ ?_ ?_
        · intro b hb hp
          rw [hwhole.resolve_left (htaken.stored_ne rfl)] at hb
          refine (hspoke.pending hexpired hb hp).imp id ?_
          rintro ⟨htimed, p, hsaid⟩
          exact ⟨(htaken.said b p hsaid).resolve_left List.not_mem_nil, htimed, p, hsaid⟩
        · intro control hword
          rw [← hcontrol] at hword
          cases hword
        · intro b hb _ hopen' _
          rw [hwhole.resolve_left (htaken.stored_ne rfl)]
          exact hspoke.left (hexpired ▸ mem_expireStale_of_open hb hopen')
    | some control =>
      rw [hc] at ht hcontrol
      have htakes := handleControl_takes w env actor session data result control
        ⟨db', expireStale db' env.now, []⟩
      simp only [ht] at htakes
      cases htakes with
      | inl hsame => exact hlost hsame
      | inr htaken =>
        have hnew := htaken.stored_ne rfl
        cases hins : db'.turns.insert (controlTurn env session data result control) with
        | none =>
          rw [run_handleControl_refused w env actor session data result control
            (s := ⟨db', expireStale db' env.now, []⟩) hins] at ht
          exact absurd (congrArg Session.stored ht.symm) hnew
        | some turns =>
          have hheard : heard w env actor data db =
              some (session, { expireStale db' env.now with turns := turns }) := by
            unfold heard
            simp only [hopen, Option.bind_some, hroute, Except.toOption, hc, hins, Option.map_some]
          rw [run_handleControl w env actor session data result control
            (s := ⟨db', expireStale db' env.now, []⟩) hins] at ht
          have hobeyed := obeyControl_ends w env actor session
            (controlTurn env session data result control) control (data.lang.getD session.lang)
            (baseResponse w session (controlTurn env session data result control) result
              (data.lang.getD session.lang)) ⟨db', { expireStale db' env.now with turns := turns }, []⟩
          rw [ht] at hobeyed
          refine .taken session db' hopen (hturns ▸ htaken.fresh) (hturns ▸ htaken.last) ?_ ?_ ?_
          · intro b hb hp
            have hmoved := hobeyed.keeps.stored.resolve_left hnew
            have hbefore := hmoved.pending_before (Table.find_iff.mpr ⟨hb, rfl⟩) hp
            exact .inl (mem_expireStale (hexpired ▸ Table.mem_of_find hbefore) hp)
          · intro control' hword hrepeat
            rw [← hcontrol] at hword
            cases hword
            refine ⟨_, hheard, fun a hp => ?_⟩
            have hsettles := obeyControl_settles w env actor session
              (controlTurn env session data result control) (data.lang.getD session.lang)
              (baseResponse w session (controlTurn env session data result control) result
                (data.lang.getD session.lang))
              (s := ⟨db', { expireStale db' env.now with turns := turns }, []⟩) hrepeat hp
            simp only [ht] at hsettles
            exact hsettles.resolve_left hnew
          · intro b hb _ hopen' hrepeat
            cases hrepeat control hcontrol.symm
            have hsame := obeyControl_repeat w env actor session
              (controlTurn env session data result .repeat) (data.lang.getD session.lang)
              (baseResponse w session (controlTurn env session data result .repeat) result
                (data.lang.getD session.lang)) ⟨db', { expireStale db' env.now with turns := turns }, []⟩
            rw [ht] at hsame
            rw [hsame]
            exact hexpired ▸ mem_expireStale_of_open hb hopen'

end TwinVoice.Voice
