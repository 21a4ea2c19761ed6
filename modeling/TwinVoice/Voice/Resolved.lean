import TwinVoice.Nlu.Fuzzy
import TwinVoice.Nlu.ReadBack
import TwinVoice.Voice.Expiry
import TwinVoice.Voice.Tools

/-! # What a read-back stores

The service with the slot parser, the matcher, the signatures and the
read-backs that ship. An action that is read back carries the parameters which
slot resolution came to: the typed slots, the machine that was spoken or
remembered, and the alarm or explanation that goes with it. -/

namespace TwinVoice.Voice

open TwinVoice.Lib TwinVoice.Nlu

variable {W : Type}

/-! ## Where a read-back comes from -/

/-- What an intent that resolved is met with: it is read back, or its tool runs at once. -/
def reaction (w : Wiring) (env : Env W) (turn : VoiceTurn) (result : RouterResult) (params : Params) (lang : String) :
    Event :=
  if needsConfirmation result.tier = true then .readBack (readBackAction w env turn result params lang) params
  else .toolRun none result.intent params

/-- The action `a` reads back what the utterance resolved to. -/
structure ReadBackFrom (w : Wiring) (env : Env W) (actor : CurrentUser) (data : UtteranceIn) (db : Database W)
    (a : VoiceAction) (p : Params) (session : VoiceSession) (result : RouterResult) (resolution : Resolution) :
    Prop where
  heard : understoodAs w env actor data db = some (session, result)
  routed : route w.grammar w.catalogue data.text env.now (data.lang.getD session.lang) env.llm = .ok result
  resolved : resolveSlots w db.registry session result env.now = .ok resolution
  answered : resolution.ask = none
  gated : needsConfirmation result.tier = true
  params : p = resolution.params
  action : ∃ turn, a = readBackAction w env turn result p (data.lang.getD session.lang)

/-- The tool ran at once with what the utterance resolved to. -/
structure RanFrom (w : Wiring) (env : Env W) (actor : CurrentUser) (data : UtteranceIn) (db : Database W)
    (tool : String) (p : Params) (session : VoiceSession) (result : RouterResult) (resolution : Resolution) :
    Prop where
  heard : understoodAs w env actor data db = some (session, result)
  routed : route w.grammar w.catalogue data.text env.now (data.lang.getD session.lang) env.llm = .ok result
  resolved : resolveSlots w db.registry session result env.now = .ok resolution
  answered : resolution.ask = none
  intent : tool = result.intent
  params : p = resolution.params

section
variable {w : Wiring} {env : Env W} {actor : CurrentUser} {session : VoiceSession} {turn : VoiceTurn}
  {result : RouterResult} {data : UtteranceIn} {lang : String} {base : TurnResponse} {s : Session (Database W) Event}
  {e : Event}

theorem readBack_log {params : Params} (h : e ∈ ((readBack w env turn result params lang base).run s).2.log) :
    e ∈ s.log ∨ e = .readBack (readBackAction w env turn result params lang) params := by
  simp only [readBack, Tx.run_ite] at h
  by_cases hoff : (needsSecondFactor result.tier && !env.allowT3) = true
  · rw [if_pos hoff] at h
    exact .inl h
  · rw [if_neg hoff] at h
    simp only [Tx.run_bind, Tx.run_read, Tx.andThen_ok] at h
    cases hins : s.work.actions.insert (readBackAction w env turn result params lang) with
    | none =>
      rw [hins, Tx.run_orRaise_none, Tx.andThen_error] at h
      exact .inl h
    | some actions =>
      rw [hins, Tx.run_orRaise_some, Tx.andThen_ok] at h
      exact (List.mem_append.mp h).imp_right List.mem_singleton.mp

theorem executeNow_log {resolution : Resolution}
    (h : e ∈ ((executeNow w env actor session result resolution lang base).run s).2.log) :
    e ∈ s.log ∨ e = .toolRun none result.intent resolution.params := by
  simp only [executeNow, Tx.run_bind] at h
  cases hrun : env.tools result.intent with
  | none =>
    rw [run_callTool_unknown hrun] at h
    exact .inl h
  | some run =>
    rw [run_callTool hrun] at h
    generalize run _ resolution.params s.work.registry = r at h
    have hlog : e ∈ s.log ++ [Event.toolRun none result.intent resolution.params] := by
      obtain ⟨registry, committed, ending⟩ := r
      cases ending with
      | done output => exact h
      | refused problem => exact h
      | died reason => exact h
    exact (List.mem_append.mp hlog).imp_right List.mem_singleton.mp

/-- `_respond` reacts to what the slots of an understood utterance resolve to. -/
theorem respond_log (h : e ∈ ((respond w env actor session turn result data lang).run s).2.log) (hnew : e ∉ s.log) :
    data.doubted = false ∧ result.understood = true ∧ ∃ resolution,
      resolveSlots w s.work.registry session result env.now = .ok resolution ∧ resolution.ask = none ∧
        e = reaction w env turn result resolution.params lang := by
  by_cases hd : data.doubted = true
  · rw [respond_doubted w env actor session turn result lang hd s] at h
    exact absurd h hnew
  simp only [respond, Tx.run_bind, Tx.run_read, Tx.andThen_ok, if_neg hd] at h
  by_cases hu : (!result.understood) = true
  · rw [if_pos hu] at h
    exact absurd h hnew
  rw [if_neg hu] at h
  refine ⟨Bool.not_eq_true _ ▸ hd, by simpa using hu, ?_⟩
  cases hr : resolveSlots w s.work.registry session result env.now with
  | error reason =>
    rw [hr] at h
    exact absurd h hnew
  | ok resolution =>
    rw [hr] at h
    refine ⟨resolution, rfl, ?_⟩
    have hresolved : e ∈ ((respondResolved w env actor session turn result resolution lang
        (baseResponse w session turn result lang)).run ((saveContext session resolution.context).run s).2).2.log := h
    unfold respondResolved at hresolved
    cases hask : resolution.ask with
    | some ask =>
      rw [hask] at hresolved
      exact absurd hresolved hnew
    | none =>
      simp only [hask, Tx.run_ite] at hresolved
      refine ⟨rfl, ?_⟩
      unfold reaction
      by_cases htier : needsConfirmation result.tier = true
      · rw [if_pos htier] at hresolved ⊢
        exact (readBack_log hresolved).resolve_left hnew
      · rw [if_neg htier] at hresolved ⊢
        exact (executeNow_log hresolved).resolve_left hnew

theorem handleIntent_log (h : e ∈ ((handleIntent w env actor session data result lang).run s).2.log)
    (hnew : e ∉ s.log) : data.doubted = false ∧ result.understood = true ∧ ∃ resolution,
      resolveSlots w s.work.registry session result env.now = .ok resolution ∧ resolution.ask = none ∧
        e = reaction w env (intentTurn w env session data result) result resolution.params lang := by
  generalize ht : ((handleIntent w env actor session data result lang).run s).2 = t at h
  simp only [handleIntent, addTurn, Tx.run_bind, Tx.run_read, Tx.andThen_ok] at ht
  cases hins : s.work.turns.insert (intentTurn w env session data result) with
  | none =>
    rw [hins] at ht
    rw [← ht] at h
    exact absurd h hnew
  | some turns =>
    rw [hins] at ht
    simp only [Tx.run_orRaise_some, Tx.andThen_ok, Tx.run_write, Tx.run_bind] at ht
    let s' : Session (Database W) Event := { s with work := { s.work with turns := turns } }
    let turn := intentTurn w env session data result
    have hcloses : Closes ((respond w env actor session turn result data lang).run s').2 t :=
      ht ▸ Closes.andThen (fun _ _ => ⟨rfl, rfl, .inr rfl⟩) _
    rw [hcloses.log] at h
    exact respond_log (s := s') h hnew

/-- A control phrase runs the tool of a stored action, and nothing else. -/
theorem handleControl_log {control : Control}
    (h : e ∈ ((handleControl w env actor session data result control).run s).2.log) :
    e ∈ s.log ∨ ∃ a, e = confirmedRun w a := by
  cases hins : s.work.turns.insert (controlTurn env session data result control) with
  | none =>
    rw [run_handleControl_refused w env actor session data result control hins] at h
    exact .inl h
  | some turns =>
    rw [run_handleControl w env actor session data result control hins, (obeyControl_ends w env actor session _ control
      _ _ _).log] at h
    refine (List.mem_append.mp h).imp_right fun hsaid => ?_
    split at hsaid
    · obtain ⟨b, -, heq⟩ := List.mem_map.mp hsaid
      exact ⟨b, heq.symm⟩
    · cases hsaid

/-- An utterance is met with what it was understood as, or with the run of a stored action. -/
theorem afterUtterance_log {db : Database W} (h : e ∈ (afterUtterance w env actor data db).log) :
    (∃ a, e = confirmedRun w a) ∨ ∃ session result resolution turn,
      understoodAs w env actor data db = some (session, result) ∧
      route w.grammar w.catalogue data.text env.now (data.lang.getD session.lang) env.llm = .ok result ∧
      resolveSlots w db.registry session result env.now = .ok resolution ∧ resolution.ask = none ∧
      e = reaction w env turn result resolution.params (data.lang.getD session.lang) := by
  unfold afterUtterance at h
  simp only [handle, Tx.run_bind] at h
  rcases run_openSession env actor data db with ⟨failure, -, hrun⟩ | ⟨session, db', hopen, hrun⟩
  · rw [hrun] at h
    cases h
  simp only [hrun, Tx.andThen_ok, Tx.run_bind, Tx.run_write] at h
  cases hroute : route w.grammar w.catalogue data.text env.now (data.lang.getD session.lang) env.llm with
  | error reason =>
    rw [hroute] at h
    cases h
  | ok result =>
    rw [hroute] at h
    simp only [orCrash, Tx.run_pure, Tx.andThen_ok] at h
    cases hc : result.control with
    | some control =>
      rw [hc] at h
      exact .inl ((handleControl_log h).resolve_left List.not_mem_nil)
    | none =>
      rw [hc] at h
      obtain ⟨hplain, hunderstood, resolution, hresolved, hask, hsaid⟩ := handleIntent_log h List.not_mem_nil
      have hregistry : (expireStale db' env.now).registry = db.registry := (opened_actions hopen).2
      refine .inr ⟨session, result, resolution, _, ?_, hroute, hregistry ▸ hresolved, hask, hsaid⟩
      unfold understoodAs
      simp only [hopen, Option.bind_some, hroute, Except.toOption, hc, Option.isNone_none, hplain, Bool.not_false,
        hunderstood, Bool.and_self, if_true]

end

/-- A read-back says what an understood utterance resolved to. -/
theorem readBackFrom {w : Wiring} {env : Env W} {actor : CurrentUser} {data : UtteranceIn} {db : Database W}
    {a : VoiceAction} {p : Params} (h : Event.readBack a p ∈ (afterUtterance w env actor data db).log) :
    ∃ session result resolution, ReadBackFrom w env actor data db a p session result resolution := by
  obtain ⟨b, hrun⟩ | ⟨session, result, resolution, turn, hheard, hroute, hresolved, hask, hsaid⟩ := afterUtterance_log h
  · cases hrun
  unfold reaction at hsaid
  split at hsaid
  · rename_i hgated
    cases hsaid
    exact ⟨session, result, resolution, hheard, hroute, hresolved, hask, hgated, rfl, turn, rfl⟩
  · cases hsaid

/-- A tool that runs at once runs with what an understood utterance resolved to. -/
theorem ranFrom {w : Wiring} {env : Env W} {actor : CurrentUser} {data : UtteranceIn} {db : Database W}
    {tool : String} {p : Params} (h : Event.toolRun none tool p ∈ (afterUtterance w env actor data db).log) :
    ∃ session result resolution, RanFrom w env actor data db tool p session result resolution := by
  obtain ⟨b, hrun⟩ | ⟨session, result, resolution, turn, hheard, hroute, hresolved, hask, hsaid⟩ := afterUtterance_log h
  · cases hrun
  unfold reaction at hsaid
  split at hsaid
  · cases hsaid
  · cases hsaid
    exact ⟨session, result, resolution, hheard, hroute, hresolved, hask, rfl, rfl⟩

/-! ## What slots resolve to -/

theorem Params.get?_set (p : Params) (key : String) (v : Value) (k : String) :
    (p.set key v).get? k = if key = k then some v else p.get? k := Dict.get?_set p key v k

/-- Where the machine in the parameters comes from. -/
inductive MachineFrom (w : Wiring) (reg : Registry W) (session : VoiceSession) (result : RouterResult)
    (now : Instant) (params : Params) : Prop
  | spoken (v : Value) (ref : AssetRef) (reference : spokenReference result.slots = some v)
      (found : (w.resolve (w.codec.text v) (references w reg result)).1 = some ref)
      (entries : params = (result.slots.set "asset_id" (.text ref.id)).set "asset_label" (.text ref.name))
  | remembered (id : String) (silent : spokenReference result.slots = none)
      (live : (liveContext session.context now).currentAssetId = some id)
      (entries : params = (result.slots.set "asset_id" (.text id)).set "asset_label"
        (((liveContext session.context now).currentAssetLabel.map Value.text).getD .null))
  | nothing (silent : spokenReference result.slots = none)
      (live : (liveContext session.context now).currentAssetId = none) (entries : params = result.slots)

/-- The machine is the only thing that it brings. -/
theorem MachineFrom.get?_other {w : Wiring} {reg : Registry W} {session : VoiceSession} {result : RouterResult}
    {now : Instant} {base : Params} (h : MachineFrom w reg session result now base) {key : String}
    (hkey : key ∉ ["asset_id", "asset_label"]) : base.get? key = result.slots.get? key := by
  obtain ⟨hid, hlabel⟩ : "asset_id" ≠ key ∧ "asset_label" ≠ key := by
    simpa [eq_comm] using hkey
  cases h with
  | spoken v ref reference found entries =>
    rw [entries, Params.get?_set, if_neg hlabel, Params.get?_set, if_neg hid]
  | remembered id silent live entries =>
    rw [entries, Params.get?_set, if_neg hlabel, Params.get?_set, if_neg hid]
  | nothing silent live entries => rw [entries]

/-- The stored parameters `p`, from those `base` that the machine and the slots make. -/
structure StoredFrom (w : Wiring) (reg : Registry W) (session : VoiceSession) (result : RouterResult)
    (now : Instant) (base p : Params) : Prop where
  machine : MachineFrom w reg session result now base
  others : ∀ key ∉ ["alarm_id", "explanation_id"], p.get? key = base.get? key
  alarm : result.intent = "acknowledge_alarm" → ∃ id, p.get? "alarm_id" = some (.text id) ∧
    resolveAlarm w.codec reg (base.get? "asset_id") (liveContext session.context now) = .ok (some id)
  explanation : result.intent = "give_feedback" → p.get? "explanation_id" =
    ((liveContext session.context now).lastExplanationId.map Value.text).or (base.get? "explanation_id")
  complete : missingQuestion w result p = none
  inPlace : DatetimesInPlace base → DatetimesInPlace p

theorem resolveReference_from {w : Wiring} {reg : Registry W} {session : VoiceSession} {result : RouterResult}
    {now : Instant} {v : Value} {found : Option AssetRef} {alternatives : List AssetRef}
    (h : w.resolve (w.codec.text v) (references w reg result) = (found, alternatives))
    (hkpi : result.intent ≠ "get_kpi") (hask : (resolveReference w reg session result v now).ask = none) :
    ∃ ref, found = some ref ∧ (resolveReference w reg session result v now).params =
      (result.slots.set "asset_id" (.text ref.id)).set "asset_label" (.text ref.name) := by
  unfold references at h
  unfold resolveReference at *
  dsimp only at hask ⊢
  rw [h] at hask ⊢
  cases found with
  | none => cases hask
  | some ref => exact ⟨ref, rfl, if_neg hkpi⟩

theorem resolveMachine_from {w : Wiring} {reg : Registry W} {session : VoiceSession} {result : RouterResult}
    {now : Instant} (hkpi : result.intent ≠ "get_kpi") (hask : (resolveMachine w reg session result now).ask = none) :
    MachineFrom w reg session result now (resolveMachine w reg session result now).params := by
  unfold resolveMachine at *
  cases hspoken : spokenReference result.slots with
  | some v =>
    simp only [hspoken] at hask ⊢
    cases hfound : w.resolve (w.codec.text v) (references w reg result) with
    | mk found alternatives =>
      obtain ⟨ref, rfl, hparams⟩ := resolveReference_from hfound hkpi hask
      exact .spoken v ref hspoken (congrArg Prod.fst hfound) hparams
  | none =>
    simp only
    unfold resolveFromContext
    cases hlive : (liveContext session.context now).currentAssetId with
    | none => exact .nothing hspoken hlive rfl
    | some id =>
      refine .remembered id hspoken hlive ?_
      simp only [if_neg hkpi]
      cases (liveContext session.context now).currentAssetLabel <;> rfl

theorem DatetimesInPlace.set {p : Params} {key : String} {v : Value} (h : DatetimesInPlace p)
    (hv : DatetimesInPlace [(key, v)]) : DatetimesInPlace (p.set key v) := by
  intro e he
  obtain ⟨hold, -⟩ | rfl := (Dict.mem_set (d := p)).mp he
  · exact h e hold
  · exact hv _ List.mem_cons_self

theorem datetimesInPlace_text {key : String} (hkey : key ∉ datetimeParams) (s : String) :
    DatetimesInPlace [(key, .text s)] := by
  intro e he
  rw [List.mem_singleton.mp he]
  exact hkey

theorem datetimesInPlace_instant {key : String} (hkey : key ∈ datetimeParams) (t : Instant) :
    DatetimesInPlace [(key, .instant t)] := by
  intro e he
  rw [List.mem_singleton.mp he]
  exact hkey

theorem completeSlots_alarm {w : Wiring} {result : RouterResult} {context : DialogueContext} {r : Resolution}
    {id : String} (hintent : result.intent = "acknowledge_alarm") :
    (completeSlots w result context r (some (some id))).params = r.params.set "alarm_id" (.text id) := by
  unfold completeSlots
  dsimp only
  cases context.lastExplanationId with
  | none => rfl
  | some e => exact if_neg (by rw [hintent]; decide)

theorem completeSlots_plain (w : Wiring) (result : RouterResult) (context : DialogueContext) (r : Resolution) :
    (completeSlots w result context r none).params =
      if result.intent = "give_feedback" then
        context.lastExplanationId.elim r.params fun id => r.params.set "explanation_id" (.text id)
      else r.params := by
  unfold completeSlots
  dsimp only
  cases context.lastExplanationId with
  | none => exact (ite_self _).symm
  | some e => rfl

/-- What is asked for nothing is stored as it was resolved. -/
theorem resolveSlots_stored {w : Wiring} {reg : Registry W} {session : VoiceSession} {result : RouterResult}
    {now : Instant} {resolution : Resolution} (hkpi : result.intent ≠ "get_kpi")
    (h : resolveSlots w reg session result now = .ok resolution) (hask : resolution.ask = none) :
    ∃ base, StoredFrom w reg session result now base resolution.params := by
  rcases resolveSlots_ok h with ⟨hasked, rfl⟩ | ⟨hfree, alarm, rfl, halarm, hother⟩
  · rw [hask] at hasked
    cases hasked
  refine ⟨(resolveMachine w reg session result now).params, ?_⟩
  have hmachine := resolveMachine_from hkpi hfree
  generalize resolveMachine w reg session result now = r at *
  generalize hcontext : liveContext session.context now = context at *
  by_cases hintent : result.intent = "acknowledge_alarm"
  · obtain ⟨id, rfl, hresolved⟩ := halarm hintent
    cases id with
    | none => cases hask
    | some id =>
      refine ⟨hmachine, fun key hkey => ?_, fun _ => ⟨id, ?_, hcontext ▸ hresolved⟩, fun h => ?_, hask, fun h => ?_⟩
      · have hne : "alarm_id" ≠ key := fun h => hkey (by rw [← h]; decide)
        rw [completeSlots_alarm hintent, Params.get?_set, if_neg hne]
      · rw [completeSlots_alarm hintent, Params.get?_set, if_pos rfl]
      · rw [hintent] at h
        exact absurd h (by decide)
      · rw [completeSlots_alarm hintent]
        exact h.set (datetimesInPlace_text (by decide) id)
  · obtain rfl := hother hintent
    refine ⟨hmachine, fun key hkey => ?_, fun h => absurd h hintent, fun h => ?_, hask, fun h => ?_⟩
    · have hne : "explanation_id" ≠ key := fun h => hkey (by rw [← h]; decide)
      rw [completeSlots_plain]
      split
      · cases context.lastExplanationId with
        | none => rfl
        | some e => rw [Option.elim_some, Params.get?_set, if_neg hne]
      · rfl
    · rw [completeSlots_plain, if_pos h, hcontext]
      cases context.lastExplanationId with
      | none => rfl
      | some e => rw [Option.elim_some, Params.get?_set, if_pos rfl, Option.map_some, Option.some_or]
    · rw [completeSlots_plain]
      split
      · cases context.lastExplanationId with
        | none => exact h
        | some e => exact h.set (datetimesInPlace_text (by decide) e)
      · exact h

/-! ## The slots of the shipped grammar -/

/-- Only a slot of type `datetime` has an instant, and it has nothing else. -/
theorem parseSlot_instant {x : Lexicon} {type value : String} {now : Instant} {v : Value}
    (h : x.parseSlot type value now = some v) : (∃ t, v = .instant t) ↔ type = "datetime" := by
  by_cases htype : type = "datetime"
  · subst htype
    obtain ⟨t, -, rfl⟩ := Option.map_eq_some_iff.mp h
    exact ⟨fun _ => rfl, fun _ => ⟨t, rfl⟩⟩
  · refine ⟨?_, fun h => absurd h htype⟩
    rintro ⟨t, rfl⟩
    unfold Lexicon.parseSlot at h
    split at h
    all_goals simp_all

theorem datetimesInPlace_parseSlot {x : Lexicon} {slot : Slot} {value : String} {now : Instant} {v : Value}
    (hslot : slot.type = "datetime" ↔ slot.name ∈ datetimeParams)
    (h : x.parseSlot slot.type value now = some v) : DatetimesInPlace [(slot.name, v)] := by
  intro e he
  rw [List.mem_singleton.mp he]
  have hinstant := parseSlot_instant h
  cases v with
  | instant t => exact hslot.mp (hinstant.mp ⟨t, rfl⟩)
  | text s =>
    intro hkey
    obtain ⟨t, ht⟩ := hinstant.mpr (hslot.mpr hkey)
    cases ht
  | null | bool | number => trivial

theorem datetimesInPlace_addSlot {x : Lexicon} {now : Instant} {raw : List (String × String)} {parsed : Params}
    {slot : Slot} (h : DatetimesInPlace parsed) (hslot : slot.type = "datetime" ↔ slot.name ∈ datetimeParams) :
    DatetimesInPlace (x.addSlot now raw parsed slot) := by
  unfold Lexicon.addSlot
  split
  · exact h
  · split
    · exact fun e he => h e (List.mem_filter.mp he).1
    · rename_i v hv
      have hset := h.set (datetimesInPlace_parseSlot hslot hv)
      split
      · exact (hset.set (datetimesInPlace_instant (by decide) _)).set (datetimesInPlace_instant (by decide) _)
      · exact hset

theorem datetimesInPlace_parseSlots {x : Lexicon} {intent : Intent}
    (hslots : ∀ s ∈ intent.slots, s.type = "datetime" ↔ s.name ∈ datetimeParams) (raw : List (String × String))
    (now : Instant) : DatetimesInPlace (x.parseSlots intent raw now) := by
  unfold Lexicon.parseSlots
  have hfold (slots : List Slot) (parsed : Params) (h : DatetimesInPlace parsed)
      (hall : ∀ s ∈ slots, s.type = "datetime" ↔ s.name ∈ datetimeParams) :
      DatetimesInPlace (slots.foldl (x.addSlot now raw) parsed) := by
    induction slots generalizing parsed with
    | nil => exact h
    | cons slot slots ih =>
      obtain ⟨hslot, hrest⟩ := List.forall_mem_cons.mp hall
      exact ih _ (datetimesInPlace_addSlot h hslot) hrest
  exact hfold _ _ (fun e he => absurd he List.not_mem_nil) hslots

theorem DatetimesInPlace.machine {w : Wiring} {reg : Registry W} {session : VoiceSession} {result : RouterResult}
    {now : Instant} {base : Params} (h : DatetimesInPlace result.slots)
    (hmachine : MachineFrom w reg session result now base) : DatetimesInPlace base := by
  have hid (id : String) : DatetimesInPlace (result.slots.set "asset_id" (.text id)) :=
    h.set (datetimesInPlace_text (by decide) id)
  cases hmachine with
  | spoken v ref reference found entries =>
    rw [entries]
    exact (hid ref.id).set (datetimesInPlace_text (by decide) ref.name)
  | remembered id silent live entries =>
    rw [entries]
    refine (hid id).set ?_
    cases (liveContext session.context now).currentAssetLabel with
    | none =>
      intro e he
      rw [List.mem_singleton.mp he]
      trivial
    | some label => exact datetimesInPlace_text (by decide) label
  | nothing silent live entries => exact entries ▸ h

/-- The service with everything that ships; what stays open are the rule templates, the scores of the
matcher and the narrator. -/
def shippedWiring (w : Wiring) (x : Lexicon) (scorer : String → String → Rat) : Wiring := { w with
  grammar := { w.grammar with
    tables := x.tables
    inferMissing := x.inferMissing
    parseSlots := x.parseSlots }
  catalogue := shipped
  resolve := x.resolve scorer
  rank := fun query refs => (x.rank scorer query refs).map Candidate.ref
  requiredArguments := requiredArguments
  readback := readback w.codec }

/-- The intents that are read back. -/
def gatedTools : List String :=
  ["acknowledge_alarm", "create_work_order", "generate_report", "set_simulation_scenario", "give_feedback"]

/-- The type that the catalogue gives a slot of an intent. -/
def slotType (intent name : String) : Option String :=
  ((shipped.get intent).bind fun i => i.slots.find? (·.name = name)).map Slot.type

theorem shipped_gated : ∀ i ∈ shipped.intents, needsConfirmation i.tier = true → i.name ∈ gatedTools := by
  decide

theorem shipped_slots : ∀ i ∈ shipped.intents, (i.slots.map Slot.name).Nodup ∧
    (∀ s ∈ i.slots, s.name ∉ Lexicon.boundKeys) ∧ (∀ s ∈ i.slots, s.type = "period" → s.name = "period") ∧
    ((∃ s ∈ i.slots, s.type = "period") ↔ slotType i.name "period" = some "period") := by
  decide

variable {w : Wiring} {x : Lexicon} {scorer : String → String → Rat} {env : Env W} {actor : CurrentUser}
  {data : UtteranceIn} {db : Database W} {a : VoiceAction} {p : Params} {session : VoiceSession}
  {result : RouterResult} {resolution : Resolution}

/-- The slots of a routed utterance that are no bounds of a period. -/
theorem get?_routed {lang : String} (h : route (shippedWiring w x scorer).grammar (shippedWiring w x scorer).catalogue
    data.text env.now lang env.llm = .ok result) {key : String} (hkey : key ∉ Lexicon.boundKeys) :
    result.slots.get? key = (slotType result.intent key).bind fun type =>
      (result.rawSlots.lookup key).bind fun v => x.parseSlot type v env.now := by
  obtain ⟨intent, hget, hslots⟩ := route_slots h
  have hget' : shipped.get result.intent = some intent := hget
  unfold slotType
  rw [hslots, hget', Option.bind_some]
  refine (Lexicon.get?_parseSlots (shipped_slots intent (List.mem_of_find?_eq_some hget)).1 hkey).trans ?_
  cases intent.slots.find? (·.name = key) <;> rfl

namespace ReadBackFrom

variable (h : ReadBackFrom (shippedWiring w x scorer) env actor data db a p session result resolution)

include h

theorem intent_gated : result.intent ∈ gatedTools := by
  obtain ⟨htier, -⟩ := route_ok h.routed
  obtain ⟨intent, hget, hintent⟩ := Option.map_eq_some_iff.mp htier
  rw [← Catalogue.get_name hget]
  exact shipped_gated intent (List.mem_of_find?_eq_some hget) (hintent ▸ h.gated)

theorem get?_slots {key : String} (hkey : key ∉ Lexicon.boundKeys) :
    result.slots.get? key = (slotType result.intent key).bind fun type =>
      (result.rawSlots.lookup key).bind fun v => x.parseSlot type v env.now :=
  get?_routed h.routed hkey

theorem get?_bound {key : String} (hkey : key ∈ Lexicon.boundKeys) :
    result.slots.get? key = if slotType result.intent "period" = some "period"
      then x.spokenBound env.now result.rawSlots key none else none := by
  obtain ⟨intent, hget, hslots⟩ := route_slots h.routed
  obtain ⟨-, hnames, hperiod, hiff⟩ := shipped_slots intent (List.mem_of_find?_eq_some hget)
  rw [hslots, ← Catalogue.get_name hget]
  refine (Lexicon.get?_parseSlots_bound hnames hperiod hkey).trans ?_
  exact if_congr hiff rfl rfl

theorem nodup_slots : (result.slots.map Prod.fst).Nodup := by
  obtain ⟨intent, -, hslots⟩ := route_slots h.routed
  rw [hslots]
  exact Lexicon.nodup_parseSlots x intent _ _

/-- The keys that no slot of a gated intent has. -/
def unspokenKeys : List String := ["asset_id", "asset_label", "alarm_id", "explanation_id", "scope_id", "scope_label",
  "technician_id", "technician_label", "est_duration_min", "severity", "format"]

theorem get?_unspoken {key : String} (hkey : key ∈ unspokenKeys) : result.slots.get? key = none := by
  have hnone : ∀ intent ∈ gatedTools, ∀ key ∈ unspokenKeys, key ∉ Lexicon.boundKeys ∧ slotType intent key = none := by
    decide
  obtain ⟨hbound, htype⟩ := hnone _ h.intent_gated _ hkey
  rw [h.get?_slots hbound, htype, Option.bind_none]

theorem stored : ∃ base, StoredFrom (shippedWiring w x scorer) db.registry session result env.now base p := by
  have hkpi : result.intent ≠ "get_kpi" := by
    intro heq
    have hgated := h.intent_gated
    rw [heq] at hgated
    exact absurd hgated (by decide)
  rw [h.params]
  exact resolveSlots_stored hkpi h.resolved h.answered

/-- Apart from what the machine, the alarm and the explanation bring, the parameters are the slots. -/
theorem get?_params {key : String}
    (hkey : key ∉ ["asset_id", "asset_label", "alarm_id", "explanation_id"]) : p.get? key = result.slots.get? key := by
  obtain ⟨hid, hlabel, halarm, hexplanation⟩ :
      key ≠ "asset_id" ∧ key ≠ "asset_label" ∧ key ≠ "alarm_id" ∧ key ≠ "explanation_id" := by
    simpa using hkey
  obtain ⟨base, hstored⟩ := h.stored
  rw [hstored.others key (by simp [halarm, hexplanation])]
  exact hstored.machine.get?_other (by simp [hid, hlabel])

/-- Confirmation revives the parameters as they were resolved. -/
theorem revived : w.codec.reviveParams a.params = p := by
  obtain ⟨base, hstored⟩ := h.stored
  obtain ⟨turn, ha⟩ := h.action
  obtain ⟨intent, hget, hslots⟩ := route_slots h.routed
  have hshipped : ∀ i ∈ shipped.intents, ∀ s ∈ i.slots, s.type = "datetime" ↔ s.name ∈ datetimeParams := by decide
  have hplace : DatetimesInPlace result.slots :=
    hslots ▸ datetimesInPlace_parseSlots (hshipped intent (List.mem_of_find?_eq_some hget)) _ _
  rw [ha]
  exact reviveParams_jsonable w.codec (hstored.inPlace (hplace.machine hstored.machine))

end ReadBackFrom

end TwinVoice.Voice
