import TwinVoice.Voice.Resolved

/-! # What a read-back names

The operator agrees to a sentence, and the tool then gets the stored
parameters. This compares the two, parameter by parameter. The machine is
named when it was spoken; a remembered one is read back as "the asset", since
no turn stores a label. A period is named by its bucket alone, so only a
present one is. The defaults of a tool and the explanation that a feedback is
about have no words in the sentence. -/

namespace TwinVoice.Voice

open TwinVoice.Lib TwinVoice.Nlu

variable {W : Type}

/-! ## Naming -/

/-- Every parameter of a tool with the value it gets, defaults included. -/
def arguments (tool : String) (params : Params) : List (String × Value) :=
  (signature tool).map fun e => (e.1, (argument tool params e.1).getD .null)

def Registry.machine (reg : Registry W) (id : Uuid) : Option Asset := reg.assets.find? fun a => a.id = id

def Registry.alarmMachine (reg : Registry W) (id : Uuid) : Option Asset :=
  (reg.alarms.find? fun a => a.id = id).bind fun alarm => reg.machine alarm.assetId

/-- The parameters that stand for a machine. -/
def machineKeys : List String := ["asset_id", "alarm_id"]

/-- The machine that a tool acts on through one of its parameters. -/
def machineBehind (c : Codec) (reg : Registry W) (key : String) (v : Value) : Option Asset :=
  (c.parseUuid (c.text v)).bind fun id => if key = "alarm_id" then reg.alarmMachine id else reg.machine id

/-- The words that name the value of a parameter. -/
def wordsFor (c : Codec) (key : String) (v : Value) : List String :=
  if key = "type" then [unscored (c.text v)]
  else if key = "format" then [String.ofList ((c.text v).toList.map Char.toUpper)]
  else if key = "scope" then if c.text v = "plant" then ["plant", "the plant"] else [c.text v]
  else [spokenValue c v]

/-- The sentence, of which `said` is what its fields say, names the value of a parameter. -/
def Names (c : Codec) (reg : Registry W) (now : Instant) (params : Params) (said : String → Option String)
    (key : String) (v : Value) : Prop :=
  v = .null ∨
    if key ∈ machineKeys then ∀ machine, machineBehind c reg key v = some machine → said "asset" = some machine.name
    else if key ∈ Lexicon.boundKeys then
      ∃ code, said "period" = some code ∧
        params.get? "period_start" = some (.instant (bucketBounds code 0 now).start) ∧
        params.get? "period_end" = some (.instant (bucketBounds code 0 now).stop)
    else ∃ words ∈ wordsFor c key v, said key = some words

/-- What the sentence is made from: the slots as they were spoken, over the parameters. -/
def spokenOver (slots params : Params) : Params := slots.foldl (fun p e => p.set e.1 e.2) params

/-- The read-back of the action names everything that its tool gets. -/
def NamesEverything (c : Codec) (reg : Registry W) (now : Instant) (slots : Params) (lang : String)
    (a : VoiceAction) : Prop :=
  let params := c.reviveParams a.params
  ∀ e ∈ arguments a.tool params,
    Names c reg now params (readbackSays c a.tool (spokenOver slots params) lang) e.1 e.2

/-! ## When a parameter is named -/

/-- The machine that the dialogue context leads to. -/
def remembered (c : Codec) (reg : Registry W) (intent : String) (context : DialogueContext) : Option Asset :=
  match context.currentAssetId with
  | some id => (c.parseUuid id).bind reg.machine
  | none =>
    if intent = "acknowledge_alarm" then (context.lastAlarmId.bind c.parseUuid).bind reg.alarmMachine else none

/-- What the read-back calls a remembered machine. -/
def rememberedName (context : DialogueContext) : String :=
  (context.currentAssetId.bind fun _ => context.currentAssetLabel.filter (· ≠ "")).getD "the asset"

/-- The machine was spoken and has a name; or it is called what the read-back calls a remembered one. -/
def TellsMachine (w : Wiring) (reg : Registry W) (session : VoiceSession) (result : RouterResult) (now : Instant) :
    Prop :=
  match spokenReference result.slots with
  | some spoken =>
    ∀ ref, (w.resolve (w.codec.text spoken) (references w reg result)).1 = some ref → ref.name ≠ ""
  | none =>
    let context := liveContext session.context now
    ∀ machine, remembered w.codec reg result.intent context = some machine →
      machine.name = rememberedName context

/-- No period was spoken, or a present one. -/
def PresentPeriod (x : Lexicon) (result : RouterResult) : Prop :=
  ∀ spoken, result.rawSlots.lookup "period" = some spoken → (x.periodTerm spoken).2 = 0

def NamedWhen (w : Wiring) (x : Lexicon) (reg : Registry W) (session : VoiceSession) (result : RouterResult)
    (now : Instant) (key : String) : Prop :=
  if key ∈ machineKeys then TellsMachine w reg session result now
  else if key ∈ Lexicon.boundKeys then PresentPeriod x result
  else if key = "explanation_id" then (liveContext session.context now).lastExplanationId = none
  else key ∉ ["est_duration_min", "severity"]

/-! ## The fields of a template -/

def Part.field? : Part → Option String
  | .text _ => none
  | .field name => some name

/-- The fields of a tool's read-back in a language. -/
def templateFields (tool lang : String) : List String :=
  ((readbackTemplate tool lang).getD []).filterMap Part.field?

theorem mem_filterMap_field? {parts : List Part} {name : String} :
    name ∈ parts.filterMap Part.field? ↔ .field name ∈ parts := by
  rw [List.mem_filterMap]
  constructor
  · rintro ⟨part, hpart, hname⟩
    cases part with
    | text s => cases hname
    | field other => exact Option.some.inj hname ▸ hpart
  · exact fun h => ⟨_, h, rfl⟩

/-- A language without a template of its own gets the English one. -/
theorem readbackTemplate_cases {tool : String} (htool : tool ∈ gatedTools) (lang : String) :
    ∃ l ∈ ["en", "hi"], readbackTemplate tool lang = readbackTemplate tool l := by
  have hlanguages : ∀ tool ∈ gatedTools,
      ((readbackTemplates.lookup tool).getD []).map Prod.fst = ["en", "hi"] := by decide
  by_cases hen : lang = "en"
  · exact ⟨"en", by decide, by rw [hen]⟩
  by_cases hhi : lang = "hi"
  · exact ⟨"hi", by decide, by rw [hhi]⟩
  refine ⟨"en", by decide, ?_⟩
  have hkeys := hlanguages tool htool
  unfold readbackTemplate
  cases hlookup : readbackTemplates.lookup tool with
  | none => rfl
  | some byLang =>
    rw [hlookup, Option.getD_some] at hkeys
    have hnone : byLang.lookup lang = none := Dict.get?_eq_none (by rw [hkeys]; simp [hen, hhi])
    rw [Option.bind_some, Option.bind_some, hnone, Option.none_or, Option.or_self]

/-- What a field says, in every language, if the tool's read-back has it. -/
theorem readbackSays_eq {tool : String} (htool : tool ∈ gatedTools) (c : Codec) (slots : Params)
    (lang field : String) :
    readbackSays c tool slots lang field =
      if field ∈ templateFields tool "en" then some (readbackField c slots lang field).words else none := by
  have hsame : ∀ tool ∈ gatedTools, ∀ l ∈ ["en", "hi"], (readbackTemplate tool l).isSome ∧
      (∀ f ∈ templateFields tool l, f ∈ templateFields tool "en") ∧
      ∀ f ∈ templateFields tool "en", f ∈ templateFields tool l := by decide
  obtain ⟨l, hl, hlang⟩ := readbackTemplate_cases htool lang
  obtain ⟨hsome, hfrom, hto⟩ := hsame tool htool l hl
  obtain ⟨parts, hparts⟩ := Option.isSome_iff_exists.mp hsome
  have hfield : .field field ∈ parts ↔ field ∈ templateFields tool "en" := by
    have hmem : field ∈ templateFields tool l ↔ .field field ∈ parts := by
      unfold templateFields
      rw [hparts]
      exact mem_filterMap_field?
    exact hmem.symm.trans ⟨hfrom field, hto field⟩
  unfold readbackSays
  rw [hlang, hparts]
  exact if_congr hfield rfl rfl

/-! ## The machine -/

/-- The rows of a table of the registry have ids of their own, and an id is read as it is written. -/
structure Registry.Sound (reg : Registry W) (c : Codec) : Prop where
  ids : ∀ id, c.parseUuid (c.uuidText id) = some id
  assets : (reg.assets.map Asset.id).Nodup
  alarms : (reg.alarms.map Alarm.id).Nodup

namespace Registry.Sound

variable {c : Codec} {reg : Registry W} (hsound : reg.Sound c)

include hsound

/-- A reference leads back to the machine that it was made from. -/
theorem assetRef {ref : AssetRef} (href : ref ∈ reg.assetRefs c) :
    ∃ machine, c.parseUuid ref.id = some machine.id ∧ reg.machine machine.id = some machine ∧
      machine.name = ref.name := by
  obtain ⟨machine, hmachine, rfl⟩ := List.mem_map.mp href
  exact ⟨machine, hsound.ids _, find_of_nodup hsound.assets (List.mem_of_mem_filter hmachine), rfl⟩

/-- The alarm that is looked for by a machine leads back to the machine. -/
theorem resolvedAlarm {v : Value} {context : DialogueContext} {alarmId : String}
    (h : resolveAlarm c reg (some v) context = .ok (some alarmId)) :
    (c.parseUuid alarmId).bind reg.alarmMachine = (c.parseUuid (c.text v)).bind reg.machine := by
  unfold resolveAlarm Codec.uuid at h
  dsimp only at h
  cases hid : c.parseUuid (c.text v) with
  | none =>
    rw [hid] at h
    cases h
  | some id =>
    rw [hid] at h
    obtain ⟨alarm, hnewest, rfl⟩ := Option.map_eq_some_iff.mp (Except.ok.inj h)
    obtain ⟨hrow, hactive⟩ := List.mem_filter.mp (newest_mem hnewest)
    have hasset : alarm.assetId = id := (of_decide_eq_true hactive).1
    rw [hsound.ids, Option.bind_some, Option.bind_some]
    unfold Registry.alarmMachine
    rw [find_of_nodup hsound.alarms hrow, Option.bind_some, hasset]

end Registry.Sound

/-- The keys that are said word for word, or not at all. -/
def plainKeys : List String := ["task", "when", "technician_id", "scenario", "verdict", "reason", "scope_id"]

theorem plain_apart : ∀ key ∈ "type" :: "scope" :: "format" :: plainKeys, key ∉ machineKeys ∧ key ∉ Lexicon.boundKeys ∧
    key ∉ ["asset_id", "asset_label", "alarm_id", "explanation_id"] := by decide

/-- Only the tools with a machine among their parameters say one. -/
theorem machineKeys_tools : ∀ tool ∈ gatedTools, ∀ key ∈ machineKeys, key ∈ (signature tool).map Prod.fst →
    key ∈ requiredArguments tool ∧ ((signature tool).lookup key).join = none ∧ "asset" ∈ templateFields tool "en" ∧
      slotType tool "scope" = none ∧ (key = "alarm_id" → tool = "acknowledge_alarm") := by decide

/-- With a machine in the parameters, that is the one behind the machine argument. -/
theorem StoredFrom.behind_machine {w : Wiring} {reg : Registry W} {session : VoiceSession} {result : RouterResult}
    {now : Instant} {base p : Params} (hsound : reg.Sound w.codec)
    (hstored : StoredFrom w reg session result now base p) {key machineId : String}
    (hkey : key ∈ machineKeys) (htool : key = "alarm_id" → result.intent = "acknowledge_alarm")
    (hbase : base.get? "asset_id" = some (.text machineId)) :
    ∃ id, p.get? key = some (.text id) ∧ machineBehind w.codec reg key (.text id) =
      (w.codec.parseUuid machineId).bind reg.machine := by
  obtain rfl | rfl : key = "asset_id" ∨ key = "alarm_id" := by simpa [machineKeys] using hkey
  · exact ⟨machineId, (hstored.others _ (by decide)).trans hbase, rfl⟩
  · obtain ⟨id, hid, hresolved⟩ := hstored.alarm (htool rfl)
    rw [hbase] at hresolved
    exact ⟨id, hid, hsound.resolvedAlarm hresolved⟩

namespace ReadBackFrom

variable {w : Wiring} {x : Lexicon} {scorer : String → String → Rat} {env : Env W} {actor : CurrentUser}
  {data : UtteranceIn} {db : Database W} {a : VoiceAction} {p : Params} {session : VoiceSession}
  {result : RouterResult} {resolution : Resolution}
  (h : ReadBackFrom (shippedWiring w x scorer) env actor data db a p session result resolution)

include h

theorem get?_spokenOver (key : String) :
    (spokenOver result.slots p).get? key = (result.slots.get? key).or (p.get? key) :=
  Dict.get?_update h.nodup_slots p key

/-- A slot that is no time is text. -/
theorem get?_text {key : String} (hwhen : key ≠ "when") (hbound : key ∉ Lexicon.boundKeys) {v : Value}
    (hv : result.slots.get? key = some v) : ∃ s, v = .text s := by
  have htypes : ∀ i ∈ shipped.intents, i.name ∈ gatedTools →
      ∀ s ∈ i.slots, s.type ≠ "number" ∧ (s.type = "datetime" → s.name = "when") := by decide
  rw [h.get?_slots hbound] at hv
  obtain ⟨type, htype, hrest⟩ := Option.bind_eq_some_iff.mp hv
  obtain ⟨spoken, -, hparsed⟩ := Option.bind_eq_some_iff.mp hrest
  obtain ⟨slot, hslot, rfl⟩ := Option.map_eq_some_iff.mp htype
  obtain ⟨intent, hget, hfind⟩ := Option.bind_eq_some_iff.mp hslot
  have hgated : intent.name ∈ gatedTools := Catalogue.get_name hget ▸ h.intent_gated
  obtain ⟨hnumber, hdatetime⟩ :=
    htypes intent (List.mem_of_find?_eq_some hget) hgated slot (List.mem_of_find?_eq_some hfind)
  have hname : slot.name = key := by simpa using List.find?_some hfind
  exact Lexicon.parseSlot_text hnumber (fun htype => hwhen (hname.symm.trans (hdatetime htype))) hparsed

/-- What a spoken machine or scope is called is not empty. -/
theorem truthy_text {key : String} (hwhen : key ≠ "when") (hbound : key ∉ Lexicon.boundKeys) {v : Value}
    (hv : result.slots.truthy? key = some v) : ∃ s, v = .text s ∧ s ≠ "" := by
  obtain ⟨hget, htruthy⟩ := Option.filter_eq_some_iff.mp hv
  obtain ⟨s, rfl⟩ := h.get?_text hwhen hbound hget
  exact ⟨s, rfl, by simpa [Value.truthy] using htruthy⟩

/-- What the read-back says for the machine. -/
theorem assetWords (lang : String) :
    (readbackField w.codec (spokenOver result.slots p) lang "asset").words =
      (((p.truthy? "asset_label").or ((result.slots.truthy? "asset").or (result.slots.truthy? "scope"))).map
        w.codec.text).getD "the asset" := by
  have hlabel : (spokenOver result.slots p).truthy? "asset_label" = p.truthy? "asset_label" := by
    unfold Params.truthy?
    rw [h.get?_spokenOver, h.get?_unspoken (by decide), Option.none_or]
  have hslot (key : String) (hkey : key ∉ ["asset_id", "asset_label", "alarm_id", "explanation_id"]) :
      (spokenOver result.slots p).truthy? key = result.slots.truthy? key := by
    unfold Params.truthy?
    rw [h.get?_spokenOver, h.get?_params hkey, Option.or_self]
  show ((["asset_label", "asset", "scope"].findSome? fun key =>
    (spokenOver result.slots p).truthy? key).map w.codec.text).getD "the asset" = _
  rw [List.findSome?_cons, List.findSome?_cons, List.findSome?_cons, List.findSome?_nil, hlabel,
    hslot "asset" (by decide), hslot "scope" (by decide)]
  cases p.truthy? "asset_label" <;> cases result.slots.truthy? "asset" <;>
    cases result.slots.truthy? "scope" <;> rfl

/-- A parameter without a default is there. -/
theorem required {key : String} (hkey : key ∈ requiredArguments result.intent) : p.get? key ≠ none := by
  obtain ⟨base, hstored⟩ := h.stored
  have hcomplete := hstored.complete
  unfold missingQuestion at hcomplete
  refine (Dict.mem_keys_iff (d := p)).mp ?_
  cases hfind : ((shippedWiring w x scorer).requiredArguments result.intent).find? (· ∉ p.keys) with
  | some name =>
    rw [hfind] at hcomplete
    cases hcomplete
  | none =>
    have hall := List.find?_eq_none.mp hfind key hkey
    by_contra hnot
    exact hall (decide_eq_true hnot)

/-- A spoken machine is the one behind the machine argument. -/
theorem behind_spoken (hsound : db.registry.Sound w.codec) {base : Params}
    (hstored : StoredFrom (shippedWiring w x scorer) db.registry session result env.now base p) {key : String}
    (hkey : key ∈ machineKeys) (htool : key = "alarm_id" → result.intent = "acknowledge_alarm")
    (hscope : slotType result.intent "scope" = none) {v : Value} {ref : AssetRef}
    (found : ((shippedWiring w x scorer).resolve (w.codec.text v)
      (references (shippedWiring w x scorer) db.registry result)).1 = some ref)
    (entries : base = (result.slots.set "asset_id" (.text ref.id)).set "asset_label" (.text ref.name)) :
    ∃ id machine, p.get? key = some (.text id) ∧ machineBehind w.codec db.registry key (.text id) = some machine ∧
      machine.name = ref.name := by
  have hbase : base.get? "asset_id" = some (.text ref.id) := by
    rw [entries, Params.get?_set, if_neg (by decide), Params.get?_set, if_pos rfl]
  have hkpi : result.intent ≠ "get_kpi" := fun heq => by
    have hgated := h.intent_gated
    rw [heq] at hgated
    exact absurd hgated (by decide)
  have hnone : "scope" ∉ result.slots.keys := by
    refine fun hmem => (Dict.mem_keys_iff (d := result.slots)).mp hmem ?_
    exact (h.get?_slots (by decide)).trans (by rw [hscope, Option.bind_none])
  have hassets : references (shippedWiring w x scorer) db.registry result = db.registry.assetRefs w.codec :=
    if_neg (not_or.mpr ⟨hkpi, hnone⟩)
  rw [hassets] at found
  obtain ⟨machine, hparse, hmachine, hname⟩ := hsound.assetRef (Lexicon.resolve_mem found)
  obtain ⟨id, hid, hbehind⟩ := StoredFrom.behind_machine (w := shippedWiring w x scorer) hsound hstored hkey htool hbase
  refine ⟨id, machine, hid, hbehind.trans ?_, hname⟩
  show (w.codec.parseUuid ref.id).bind db.registry.machine = some machine
  rw [hparse, Option.bind_some, hmachine]

/-- Without a spoken machine, the one behind the machine argument is the remembered one. -/
theorem behind_remembered (hsound : db.registry.Sound w.codec) {base : Params}
    (hstored : StoredFrom (shippedWiring w x scorer) db.registry session result env.now base p) {key : String}
    (hkey : key ∈ machineKeys) (htool : key = "alarm_id" → result.intent = "acknowledge_alarm")
    (hrequired : p.get? key ≠ none) (hsilent : spokenReference result.slots = none) :
    ∃ id, p.get? key = some (.text id) ∧ machineBehind w.codec db.registry key (.text id) =
      remembered w.codec db.registry result.intent (liveContext session.context env.now) := by
  unfold remembered
  cases hstored.machine with
  | spoken v ref reference found entries =>
    rw [hsilent] at reference
    cases reference
  | remembered machineId silent live entries =>
    have hbase : base.get? "asset_id" = some (.text machineId) := by
      rw [entries, Params.get?_set, if_neg (by decide), Params.get?_set, if_pos rfl]
    rw [live]
    exact StoredFrom.behind_machine (w := shippedWiring w x scorer) hsound hstored hkey htool hbase
  | nothing silent live entries =>
    have hbase : base.get? "asset_id" = none := entries ▸ h.get?_unspoken (by decide)
    obtain rfl | rfl : key = "asset_id" ∨ key = "alarm_id" := by simpa [machineKeys] using hkey
    · exact absurd ((hstored.others _ (by decide)).trans hbase) hrequired
    · obtain ⟨id, hid, hresolved⟩ := hstored.alarm (htool rfl)
      rw [hbase] at hresolved
      have hlast : (liveContext session.context env.now).lastAlarmId = some id := Except.ok.inj hresolved
      refine ⟨id, hid, ?_⟩
      rw [live, hlast]
      simp only [htool, if_true, Option.bind_some]
      rfl

/-- The words for a spoken machine are its name, if it has one. -/
theorem assetWords_spoken (lang : String) {base : Params}
    (hstored : StoredFrom (shippedWiring w x scorer) db.registry session result env.now base p) {ref : AssetRef}
    (entries : base = (result.slots.set "asset_id" (.text ref.id)).set "asset_label" (.text ref.name)) :
    (readbackField w.codec (spokenOver result.slots p) lang "asset").words = ref.name ↔ ref.name ≠ "" := by
  have hlabel : p.get? "asset_label" = some (.text ref.name) := by
    rw [hstored.others _ (by decide), entries, Params.get?_set, if_pos rfl]
  have htruthy : p.truthy? "asset_label" = if ref.name ≠ "" then some (.text ref.name) else none := by
    unfold Params.truthy?
    rw [hlabel, Option.filter_some]
    exact if_congr (by simp [Value.truthy]) rfl rfl
  rw [h.assetWords, htruthy]
  by_cases hname : ref.name = ""
  · -- Another slot, or "the asset", is said in place of an empty name.
    refine ⟨fun hwords => ?_, fun hne => absurd hname hne⟩
    rw [hname, if_neg (by simp), Option.none_or] at hwords
    cases hother : (result.slots.truthy? "asset").or (result.slots.truthy? "scope") with
    | none =>
      rw [hother] at hwords
      have hasset : "the asset" = "" := hwords
      exact absurd hasset (by decide)
    | some v =>
      rw [hother] at hwords
      have htext : ∃ s, v = .text s ∧ s ≠ "" := by
        rcases Option.or_eq_some_iff.mp hother with hasset | ⟨-, hscope⟩
        · exact h.truthy_text (by decide) (by decide) hasset
        · exact h.truthy_text (by decide) (by decide) hscope
      obtain ⟨s, rfl, hne⟩ := htext
      exact absurd hwords hne
  · rw [if_pos hname, Option.some_or]
    exact iff_of_true rfl hname

/-- The words for a machine that was not spoken. -/
theorem assetWords_silent (lang : String) {base : Params}
    (hstored : StoredFrom (shippedWiring w x scorer) db.registry session result env.now base p)
    (hsilent : spokenReference result.slots = none) :
    (readbackField w.codec (spokenOver result.slots p) lang "asset").words =
      rememberedName (liveContext session.context env.now) := by
  unfold spokenReference at hsilent
  obtain ⟨hasset, -, hscope⟩ : result.slots.truthy? "asset" = none ∧ result.slots.truthy? "alarm" = none ∧
      result.slots.truthy? "scope" = none := by
    simpa [Option.or_eq_none_iff] using hsilent
  rw [h.assetWords, hasset, hscope, Option.or_none, Option.or_none]
  unfold Params.truthy? rememberedName
  rw [hstored.others _ (by decide)]
  cases hstored.machine with
  | spoken v ref reference found entries =>
    unfold spokenReference at reference
    rw [hsilent] at reference
    cases reference
  | nothing silent live entries =>
    rw [live, entries, h.get?_unspoken (by decide)]
    rfl
  | remembered id silent live entries =>
    rw [live, entries, Params.get?_set, if_pos rfl]
    cases (liveContext session.context env.now).currentAssetLabel with
    | none => rfl
    | some label =>
      rw [Option.map_some, Option.getD_some, Option.filter_some, Option.bind_some, Option.filter_some]
      by_cases hlabel : label = ""
      · simp [Value.truthy, hlabel]
      · simp [Value.truthy, hlabel, Codec.text]

/-- A machine argument is named exactly when the machine is told. -/
theorem names_machine (hsound : db.registry.Sound w.codec) (lang : String) {key : String} (hkey : key ∈ machineKeys)
    (hsig : key ∈ (signature result.intent).map Prod.fst) :
    Names w.codec db.registry env.now p
        (readbackSays w.codec result.intent (spokenOver result.slots p) lang) key
        ((argument result.intent p key).getD .null) ↔
      TellsMachine (shippedWiring w x scorer) db.registry session result env.now := by
  obtain ⟨hrequired, hdefault, hfield, hscope, htool⟩ := machineKeys_tools _ h.intent_gated _ hkey hsig
  obtain ⟨base, hstored⟩ := h.stored
  have hargument {id : String} (hid : p.get? key = some (.text id)) :
      (argument result.intent p key).getD .null = .text id := by
    unfold argument
    rw [hid, Option.some_or, Option.getD_some]
  have hnames {id : String} : Names w.codec db.registry env.now p
      (readbackSays w.codec result.intent (spokenOver result.slots p) lang) key (.text id) ↔
      ∀ machine, machineBehind w.codec db.registry key (.text id) = some machine →
        (readbackField w.codec (spokenOver result.slots p) lang "asset").words = machine.name := by
    unfold Names
    rw [if_pos hkey, or_iff_right nofun, readbackSays_eq h.intent_gated, if_pos hfield]
    simp only [Option.some.injEq]
  unfold TellsMachine
  cases hspoken : spokenReference result.slots with
  | some spoken =>
    cases hstored.machine with
    | spoken v ref reference found entries =>
      rw [hspoken] at reference
      cases reference
      obtain ⟨id, machine, hid, hbehind, hname⟩ := h.behind_spoken hsound hstored hkey htool hscope found entries
      rw [hargument hid, hnames, hbehind]
      simp only [Option.some.injEq, forall_eq']
      rw [hname, h.assetWords_spoken lang hstored entries]
      constructor
      · rintro hne other hother
        rw [found] at hother
        exact Option.some.inj hother ▸ hne
      · exact fun hall => hall ref found
    | remembered id silent live entries =>
      rw [hspoken] at silent
      cases silent
    | nothing silent live entries =>
      rw [hspoken] at silent
      cases silent
  | none =>
    obtain ⟨id, hid, hbehind⟩ := h.behind_remembered hsound hstored hkey htool (h.required hrequired) hspoken
    rw [hargument hid, hnames, hbehind, h.assetWords_silent lang hstored hspoken]
    exact forall_congr' fun machine => imp_congr_right fun _ => eq_comm

/-! ## The other parameters -/

/-- A parameter that nothing was said for is not named, unless it is left out. -/
theorem not_names_unsaid (lang : String) {key : String} (hkey : key ∉ machineKeys ∧ key ∉ Lexicon.boundKeys)
    (hfield : key ∉ templateFields result.intent "en") {v : Value} :
    Names w.codec db.registry env.now p
        (readbackSays w.codec result.intent (spokenOver result.slots p) lang) key v ↔ v = .null := by
  unfold Names
  rw [if_neg hkey.1, if_neg hkey.2, readbackSays_eq h.intent_gated, if_neg hfield]
  exact or_iff_left (by simp)

theorem names_explanation (lang : String) (hsig : "explanation_id" ∈ (signature result.intent).map Prod.fst) :
    Names w.codec db.registry env.now p
        (readbackSays w.codec result.intent (spokenOver result.slots p) lang) "explanation_id"
        ((argument result.intent p "explanation_id").getD .null) ↔
      (liveContext session.context env.now).lastExplanationId = none := by
  have htools : ∀ tool ∈ gatedTools, "explanation_id" ∈ (signature tool).map Prod.fst →
      tool = "give_feedback" ∧ "explanation_id" ∉ templateFields tool "en" ∧
        ((signature tool).lookup "explanation_id").join = some .null := by decide
  obtain ⟨htool, hfield, hdefault⟩ := htools _ h.intent_gated hsig
  obtain ⟨base, hstored⟩ := h.stored
  have hbase : base.get? "explanation_id" = none :=
    (hstored.machine.get?_other (by decide)).trans (h.get?_unspoken (by decide))
  rw [h.not_names_unsaid lang (by decide) hfield]
  unfold argument
  rw [hstored.explanation htool, hbase, hdefault, Option.or_none]
  cases (liveContext session.context env.now).lastExplanationId with
  | none => exact iff_of_true rfl rfl
  | some id => exact iff_of_false nofun nofun

/-- A period is named exactly when it is the present one. -/
theorem names_bound (lang : String) {key : String} (hkey : key ∈ Lexicon.boundKeys)
    (hsig : key ∈ (signature result.intent).map Prod.fst) :
    Names w.codec db.registry env.now p
        (readbackSays w.codec result.intent (spokenOver result.slots p) lang) key
        ((argument result.intent p key).getD .null) ↔ PresentPeriod x result := by
  have htools : ∀ tool ∈ gatedTools, ∀ key ∈ Lexicon.boundKeys, key ∈ (signature tool).map Prod.fst →
      key ∉ machineKeys ∧ ((signature tool).lookup key).join = some .null ∧ "period" ∈ templateFields tool "en" ∧
        slotType tool "period" = some "period" := by decide
  obtain ⟨hmachine, hdefault, hfield, htype⟩ := htools _ h.intent_gated _ hkey hsig
  have hbound (k : String) (hk : k ∈ Lexicon.boundKeys) :
      p.get? k = x.spokenBound env.now result.rawSlots k none := by
    have hother : k ∉ ["asset_id", "asset_label", "alarm_id", "explanation_id"] := by
      have hapart : ∀ k ∈ Lexicon.boundKeys, k ∉ ["asset_id", "asset_label", "alarm_id", "explanation_id"] := by decide
      exact hapart k hk
    rw [h.get?_params hother, h.get?_bound hk, if_pos htype]
  have hperiod : (spokenOver result.slots p).get? "period" =
      (result.rawSlots.lookup "period").map fun v => .text (x.parsePeriod v env.now).code := by
    rw [h.get?_spokenOver, h.get?_params (by decide), Option.or_self, h.get?_slots (by decide), htype]
    cases result.rawSlots.lookup "period" <;> rfl
  unfold PresentPeriod argument
  rw [hbound key hkey, hdefault]
  unfold Lexicon.spokenBound
  cases hraw : result.rawSlots.lookup "period" with
  | none =>
    exact iff_of_true (.inl rfl) nofun
  | some spoken =>
    obtain ⟨hcode, hne⟩ := bucketBounds_code (x.periodTerm spoken).1 (x.periodTerm spoken).2 0 env.now env.now
    have hsays : readbackSays w.codec result.intent (spokenOver result.slots p) lang "period" =
        some (x.parsePeriod spoken env.now).code := by
      rw [readbackSays_eq h.intent_gated, if_pos hfield]
      show some (phrase w.codec ((spokenOver result.slots p).get? "period") " for this " " " lang).words = _
      rw [hperiod, hraw, Option.map_some]
      unfold phrase
      have hwords : ¬(Value.text (x.parsePeriod spoken env.now).code = .null ∨
          Value.text (x.parsePeriod spoken env.now).code = .text "") := by
        rintro (hnull | hempty)
        · cases hnull
        · exact hne (Value.text.inj hempty)
      simp only [if_neg hwords]
      rfl
    have hedge (k : String) (hk : k ∈ Lexicon.boundKeys) :
        p.get? k = some (.instant (Lexicon.boundOf k (x.parsePeriod spoken env.now))) := by
      rw [hbound k hk]
      unfold Lexicon.spokenBound
      rw [hraw, Option.elim_some]
    have hpresent : Names w.codec db.registry env.now p
        (readbackSays w.codec result.intent (spokenOver result.slots p) lang) key
        (.instant (Lexicon.boundOf key (x.parsePeriod spoken env.now))) ↔ (x.periodTerm spoken).2 = 0 := by
      unfold Names
      rw [if_neg hmachine, if_pos hkey, or_iff_right nofun, hsays, hedge "period_start" (by decide),
        hedge "period_end" (by decide)]
      constructor
      · rintro ⟨code, hsaid, hstart, -⟩
        rw [← Option.some.inj hsaid] at hstart
        by_contra hoffset
        refine bucketBounds_start_ne (x.periodTerm spoken).1 hoffset env.now ?_
        exact (Value.instant.inj (Option.some.inj hstart)).trans (congrArg Period.start hcode)
      · intro hoffset
        have hsame : x.parsePeriod spoken env.now = bucketBounds (x.periodTerm spoken).1 0 env.now := by
          unfold Lexicon.parsePeriod
          rw [hoffset]
        refine ⟨_, rfl, ?_, ?_⟩
        · exact congrArg (fun q : Period => some (Value.instant q.start)) (hsame.trans hcode.symm)
        · exact congrArg (fun q : Period => some (Value.instant q.stop)) (hsame.trans hcode.symm)
    refine hpresent.trans ⟨fun hoffset s hs => ?_, fun hall => hall spoken rfl⟩
    exact Option.some.inj hs ▸ hoffset

/-- A value is named by the words of its own field. -/
theorem names_words (lang : String) {key words : String} {v : Value}
    (hkey : key ∈ "type" :: "scope" :: "format" :: plainKeys) (hfield : key ∈ templateFields result.intent "en")
    (hwords : words ∈ wordsFor w.codec key v)
    (hsaid : (readbackField w.codec (spokenOver result.slots p) lang key).words = words) :
    Names w.codec db.registry env.now p (readbackSays w.codec result.intent (spokenOver result.slots p) lang) key v := by
  obtain ⟨hmachine, hbound, -⟩ := plain_apart key hkey
  refine .inr ?_
  rw [if_neg hmachine, if_neg hbound, readbackSays_eq h.intent_gated, if_pos hfield]
  exact ⟨words, hwords, congrArg some hsaid⟩

/-- Apart from the keys of the machine, the sentence is made from the slots. -/
theorem get?_plain {key : String} (hkey : key ∈ "type" :: "scope" :: "format" :: plainKeys) :
    (spokenOver result.slots p).get? key = result.slots.get? key ∧ p.get? key = result.slots.get? key := by
  obtain ⟨-, -, hother⟩ := plain_apart key hkey
  rw [h.get?_spokenOver, h.get?_params hother, Option.or_self]
  exact ⟨rfl, rfl⟩

/-- Slots that are said as they stand, with what is said without one. -/
theorem names_saidOr (lang : String) {key otherwise : String} (hkey : key ∈ plainKeys) (hwhen : key ≠ "when")
    (hsaid : readbackField w.codec (spokenOver result.slots p) lang key =
      saidOr w.codec (spokenOver result.slots p) key otherwise)
    (hfield : key ∈ templateFields result.intent "en")
    (hdefault : ((signature result.intent).lookup key).join = none ∨
      ((signature result.intent).lookup key).join = some (.text otherwise)) :
    Names w.codec db.registry env.now p (readbackSays w.codec result.intent (spokenOver result.slots p) lang) key
      ((argument result.intent p key).getD .null) := by
  have hmem : key ∈ "type" :: "scope" :: "format" :: plainKeys := by simp [hkey]
  obtain ⟨-, hbound, -⟩ := plain_apart key hmem
  have hwordsFor (s : String) : wordsFor w.codec key (.text s) = [s] := by
    have hown : ∀ key ∈ plainKeys, key ≠ "type" ∧ key ≠ "format" ∧ key ≠ "scope" := by decide
    obtain ⟨htype, hformat, hscope⟩ := hown key hkey
    unfold wordsFor
    rw [if_neg htype, if_neg hformat, if_neg hscope]
    rfl
  have hown (s : String) : s ∈ wordsFor w.codec key (.text s) := by
    rw [hwordsFor]
    exact List.mem_cons_self
  obtain ⟨hspoken, hparams⟩ := h.get?_plain hmem
  unfold argument
  rw [hparams]
  cases hv : result.slots.get? key with
  | some v =>
    obtain ⟨s, rfl⟩ := h.get?_text hwhen hbound hv
    refine h.names_words lang hmem hfield (hown s) ?_
    rw [hsaid]
    unfold saidOr
    rw [hspoken, hv]
    rfl
  | none =>
    rw [Option.none_or]
    rcases hdefault with hnone | htext
    · exact .inl (by rw [hnone]; rfl)
    · rw [htext]
      refine h.names_words lang hmem hfield (hown otherwise) ?_
      rw [hsaid]
      unfold saidOr
      rw [hspoken, hv]
      rfl

/-- Slots that are said with a phrase of their own, and not at all when they are left out. -/
theorem names_phrase (lang : String) {key leadEn leadHi : String} (hkey : key ∈ ["when", "reason"])
    (hsaid : readbackField w.codec (spokenOver result.slots p) lang key =
      phrase w.codec ((spokenOver result.slots p).get? key) leadEn leadHi lang)
    (hfield : key ∈ templateFields result.intent "en")
    (hdefault : ((signature result.intent).lookup key).join = some .null) :
    Names w.codec db.registry env.now p (readbackSays w.codec result.intent (spokenOver result.slots p) lang) key
      ((argument result.intent p key).getD .null) := by
  have hmem : key ∈ "type" :: "scope" :: "format" :: plainKeys := by
    have hsub : ∀ key ∈ ["when", "reason"], key ∈ "type" :: "scope" :: "format" :: plainKeys := by decide
    exact hsub key hkey
  obtain ⟨hspoken, hparams⟩ := h.get?_plain hmem
  unfold argument
  rw [hparams, hdefault]
  cases hv : result.slots.get? key with
  | none => exact .inl rfl
  | some v =>
    by_cases hnull : v = .null
    · exact .inl hnull
    have hown : spokenValue w.codec v ∈ wordsFor w.codec key v := by
      have hother : ∀ key ∈ ["when", "reason"], key ≠ "type" ∧ key ≠ "format" ∧ key ≠ "scope" := by decide
      obtain ⟨htype, hformat, hscope⟩ := hother key hkey
      unfold wordsFor
      rw [if_neg htype, if_neg hformat, if_neg hscope]
      exact List.mem_cons_self
    refine h.names_words lang hmem hfield hown ?_
    rw [hsaid, hspoken, hv]
    unfold phrase
    by_cases hempty : v = .text ""
    · subst hempty
      rfl
    · simp only [hnull, hempty, or_self, if_false]

/-- What a gated intent has no slot for is left to its default. -/
theorem argument_unspoken (key : String) (hkey : key ∈ unspokenKeys)
    (hother : key ∉ ["asset_id", "asset_label", "alarm_id", "explanation_id"]) :
    argument result.intent p key = ((signature result.intent).lookup key).join := by
  unfold argument
  rw [h.get?_params hother, h.get?_unspoken hkey, Option.none_or]

/-- A report type is one of those in the vocabulary. -/
theorem reportType {v : Value} (htype : slotType result.intent "type" = some "report_type")
    (hv : result.slots.get? "type" = some v) : ∃ s ∈ reportTypeTerms.map Prod.snd, v = .text s := by
  rw [h.get?_slots (by decide), htype, Option.bind_some] at hv
  obtain ⟨spoken, -, hparsed⟩ := Option.bind_eq_some_iff.mp hv
  obtain ⟨s, hlookup, rfl⟩ := Option.map_eq_some_iff.mp hparsed
  unfold Lexicon.lookup at hlookup
  split at hlookup
  · cases hlookup
  · obtain ⟨before, after, hterms, -⟩ := List.lookup_eq_some_iff.mp hlookup
    refine ⟨s, ?_, rfl⟩
    rw [hterms]
    simp

theorem names_type (lang : String) (hsig : "type" ∈ (signature result.intent).map Prod.fst) :
    Names w.codec db.registry env.now p (readbackSays w.codec result.intent (spokenOver result.slots p) lang) "type"
      ((argument result.intent p "type").getD .null) := by
  have htools : ∀ tool ∈ gatedTools, "type" ∈ (signature tool).map Prod.fst →
      "type" ∈ templateFields tool "en" ∧ ((signature tool).lookup "type").join = none ∧
        slotType tool "type" = some "report_type" := by decide
  obtain ⟨hfield, hdefault, htype⟩ := htools _ h.intent_gated hsig
  have hmem : "type" ∈ "type" :: "scope" :: "format" :: plainKeys := List.mem_cons_self
  obtain ⟨hspoken, hparams⟩ := h.get?_plain hmem
  unfold argument
  rw [hparams, hdefault, Option.or_none]
  cases hv : result.slots.get? "type" with
  | none => exact .inl rfl
  | some v =>
    obtain ⟨s, hs, rfl⟩ := h.reportType htype hv
    have hsaid : saidOr w.codec (spokenOver result.slots p) "type" "" = ⟨"", s⟩ := by
      unfold saidOr
      rw [hspoken, hv]
      rfl
    have hwords : ∀ s ∈ reportTypeTerms.map Prod.snd, unscored s ≠ "" := by decide
    refine h.names_words lang hmem hfield (List.mem_singleton_self (unscored s)) ?_
    show (if unscored (saidOr w.codec (spokenOver result.slots p) "type" "").words = "" then "machine health"
      else unscored (saidOr w.codec (spokenOver result.slots p) "type" "").words) = unscored s
    rw [hsaid, if_neg (hwords s hs)]

theorem names_scope (lang : String) (hsig : "scope" ∈ (signature result.intent).map Prod.fst) :
    Names w.codec db.registry env.now p (readbackSays w.codec result.intent (spokenOver result.slots p) lang) "scope"
      ((argument result.intent p "scope").getD .null) := by
  have htools : ∀ tool ∈ gatedTools, "scope" ∈ (signature tool).map Prod.fst →
      "scope" ∈ templateFields tool "en" ∧ ((signature tool).lookup "scope").join = some (.text "plant") ∧
        slotType tool "scope" = some "asset" := by decide
  obtain ⟨hfield, hdefault, htype⟩ := htools _ h.intent_gated hsig
  have hmem : "scope" ∈ "type" :: "scope" :: "format" :: plainKeys := List.mem_cons_of_mem _ List.mem_cons_self
  obtain ⟨hspoken, hparams⟩ := h.get?_plain hmem
  have hlabel : (spokenOver result.slots p).get? "scope_label" = none := by
    rw [h.get?_spokenOver, h.get?_params (by decide), h.get?_unspoken (by decide), Option.or_self]
  have hsaid : (readbackField w.codec (spokenOver result.slots p) lang "scope").words =
      ((result.slots.truthy? "scope").map w.codec.text).getD "the plant" := by
    show ((["scope_label", "scope"].findSome? fun key =>
      (spokenOver result.slots p).truthy? key).map w.codec.text).getD "the plant" = _
    unfold Params.truthy?
    rw [List.findSome?_cons, List.findSome?_cons, List.findSome?_nil, hlabel, hspoken]
    cases (result.slots.get? "scope").filter Value.truthy <;> rfl
  unfold argument
  rw [hparams, hdefault]
  cases hv : result.slots.get? "scope" with
  | none =>
    have hown : "the plant" ∈ wordsFor w.codec "scope" (.text "plant") := by simp [wordsFor, Codec.text]
    refine h.names_words lang hmem hfield hown ?_
    rw [hsaid]
    unfold Params.truthy?
    rw [hv]
    rfl
  | some v =>
    have hspokenSlot := hv
    rw [h.get?_slots (by decide), htype, Option.bind_some] at hspokenSlot
    obtain ⟨spoken, -, hparsed⟩ := Option.bind_eq_some_iff.mp hspokenSlot
    obtain ⟨s, hs, rfl⟩ := Option.map_eq_some_iff.mp hparsed
    have hown : s ∈ wordsFor w.codec "scope" (.text s) := by
      by_cases hplant : s = "plant" <;> simp [wordsFor, Codec.text, hplant]
    refine h.names_words lang hmem hfield hown ?_
    rw [hsaid]
    unfold Params.truthy?
    rw [hv, Option.filter_some, if_pos (by simp [Value.truthy, Lexicon.parseAsset_ne_empty hs])]
    rfl

theorem names_format (lang : String) (hsig : "format" ∈ (signature result.intent).map Prod.fst) :
    Names w.codec db.registry env.now p (readbackSays w.codec result.intent (spokenOver result.slots p) lang) "format"
      ((argument result.intent p "format").getD .null) := by
  have htools : ∀ tool ∈ gatedTools, "format" ∈ (signature tool).map Prod.fst →
      "format" ∈ templateFields tool "en" ∧ ((signature tool).lookup "format").join = some (.text "pdf") := by decide
  obtain ⟨hfield, hdefault⟩ := htools _ h.intent_gated hsig
  rw [h.argument_unspoken "format" (by decide) (by decide), hdefault]
  have hown : "PDF" ∈ wordsFor w.codec "format" (.text "pdf") := by
    have hupper : String.ofList ("pdf".toList.map Char.toUpper) = "PDF" := by decide
    exact List.mem_singleton.mpr hupper.symm
  exact h.names_words lang (by decide) hfield hown rfl

/-- The keys that are said word for word are always named. -/
theorem names_plain (lang : String) {key : String} (hkey : key ∈ plainKeys)
    (hsig : key ∈ (signature result.intent).map Prod.fst) :
    Names w.codec db.registry env.now p (readbackSays w.codec result.intent (spokenOver result.slots p) lang) key
      ((argument result.intent p key).getD .null) := by
  have hsaidKeys : ∀ tool ∈ gatedTools, ∀ e ∈ [("task", "maintenance"), ("scenario", "a fault"), ("verdict", "disagree")],
      e.1 ∈ (signature tool).map Prod.fst → e.1 ∈ plainKeys ∧ e.1 ≠ "when" ∧ e.1 ∈ templateFields tool "en" ∧
        (((signature tool).lookup e.1).join = none ∨ ((signature tool).lookup e.1).join = some (.text e.2)) := by decide
  have hphraseKeys : ∀ tool ∈ gatedTools, ∀ key ∈ ["when", "reason"], key ∈ (signature tool).map Prod.fst →
      key ∈ templateFields tool "en" ∧ ((signature tool).lookup key).join = some .null := by decide
  have hidKeys : ∀ tool ∈ gatedTools, ∀ key ∈ ["technician_id", "scope_id"], key ∈ (signature tool).map Prod.fst →
      key ∈ unspokenKeys ∧ ((signature tool).lookup key).join = some .null ∧
        key ∉ ["asset_id", "asset_label", "alarm_id", "explanation_id"] := by decide
  have hsaid (otherwise : String) (hfield : readbackField w.codec (spokenOver result.slots p) lang key =
      saidOr w.codec (spokenOver result.slots p) key otherwise)
      (he : (key, otherwise) ∈ [("task", "maintenance"), ("scenario", "a fault"), ("verdict", "disagree")]) :
      Names w.codec db.registry env.now p (readbackSays w.codec result.intent (spokenOver result.slots p) lang) key
        ((argument result.intent p key).getD .null) := by
    obtain ⟨-, hwhen, htemplate, hdefault⟩ := hsaidKeys _ h.intent_gated _ he hsig
    exact h.names_saidOr lang hkey hwhen hfield htemplate hdefault
  have hphrase (leadEn leadHi : String) (hfield : readbackField w.codec (spokenOver result.slots p) lang key =
      phrase w.codec ((spokenOver result.slots p).get? key) leadEn leadHi lang) (hmem : key ∈ ["when", "reason"]) :
      Names w.codec db.registry env.now p (readbackSays w.codec result.intent (spokenOver result.slots p) lang) key
        ((argument result.intent p key).getD .null) := by
    obtain ⟨htemplate, hdefault⟩ := hphraseKeys _ h.intent_gated _ hmem hsig
    exact h.names_phrase lang hmem hfield htemplate hdefault
  have hid (hmem : key ∈ ["technician_id", "scope_id"]) : Names w.codec db.registry env.now p
      (readbackSays w.codec result.intent (spokenOver result.slots p) lang) key
        ((argument result.intent p key).getD .null) := by
    obtain ⟨hunspoken, hdefault, hother⟩ := hidKeys _ h.intent_gated _ hmem hsig
    rw [h.argument_unspoken _ hunspoken hother, hdefault]
    exact .inl rfl
  simp only [plainKeys, List.mem_cons, List.not_mem_nil, or_false] at hkey
  rcases hkey with rfl | rfl | rfl | rfl | rfl | rfl | rfl
  · exact hsaid "maintenance" rfl (by decide)
  · exact hphrase ", " ", " rfl (by decide)
  · exact hid (by decide)
  · exact hsaid "a fault" rfl (by decide)
  · exact hsaid "disagree" rfl (by decide)
  · exact hphrase ": " ": " rfl (by decide)
  · exact hid (by decide)

/-- Each parameter of the tool is named exactly when it is said to be. -/
theorem names_iff (hsound : db.registry.Sound w.codec) (lang : String) {key : String}
    (hsig : key ∈ (signature result.intent).map Prod.fst) :
    Names w.codec db.registry env.now p (readbackSays w.codec result.intent (spokenOver result.slots p) lang) key
        ((argument result.intent p key).getD .null) ↔
      NamedWhen (shippedWiring w x scorer) x db.registry session result env.now key := by
  have hkeys : ∀ tool ∈ gatedTools, ∀ key ∈ (signature tool).map Prod.fst,
      key ∈ machineKeys ++ Lexicon.boundKeys ++ ["explanation_id"] ++ ["est_duration_min", "severity"] ++
        ["type", "scope", "format"] ++ plainKeys := by decide
  have hunsaid : ∀ tool ∈ gatedTools, ∀ key ∈ ["est_duration_min", "severity"], key ∈ (signature tool).map Prod.fst →
      key ∉ templateFields tool "en" ∧ key ∈ unspokenKeys ∧
        (((signature tool).lookup key).join.getD .null) ≠ .null := by decide
  have hnamed : ∀ key ∈ ["type", "scope", "format"] ++ plainKeys, key ∉ machineKeys ∧ key ∉ Lexicon.boundKeys ∧
      key ≠ "explanation_id" ∧ key ∉ ["est_duration_min", "severity"] := by decide
  unfold NamedWhen
  have hkey := hkeys _ h.intent_gated _ hsig
  rw [List.append_assoc _ _ plainKeys] at hkey
  simp only [List.mem_append (t := ["type", "scope", "format"] ++ plainKeys), List.mem_append
    (t := ["est_duration_min", "severity"]), List.mem_append (t := ["explanation_id"]),
    List.mem_append (t := Lexicon.boundKeys)] at hkey
  rcases hkey with (((hmachine | hbound) | hexplanation) | hnumber) | hsaid
  · rw [if_pos hmachine]
    exact h.names_machine hsound lang hmachine hsig
  · have hapart : ∀ key ∈ Lexicon.boundKeys, key ∉ machineKeys := by decide
    rw [if_neg (hapart key hbound), if_pos hbound]
    exact h.names_bound lang hbound hsig
  · obtain rfl := List.mem_singleton.mp hexplanation
    rw [if_neg (by decide), if_neg (by decide), if_pos rfl]
    exact h.names_explanation lang hsig
  · obtain ⟨hfield, hunspoken, hdefault⟩ := hunsaid _ h.intent_gated _ hnumber hsig
    have hapart : ∀ key ∈ ["est_duration_min", "severity"], key ∉ machineKeys ∧ key ∉ Lexicon.boundKeys ∧
        key ≠ "explanation_id" ∧ key ∉ ["asset_id", "asset_label", "alarm_id", "explanation_id"] := by decide
    obtain ⟨hm, hb, he, hother⟩ := hapart key hnumber
    rw [if_neg hm, if_neg hb, if_neg he, h.not_names_unsaid lang ⟨hm, hb⟩ hfield,
      h.argument_unspoken _ hunspoken hother]
    exact iff_of_false hdefault (not_not.mpr hnumber)
  · obtain ⟨hm, hb, he, hn⟩ := hnamed key hsaid
    rw [if_neg hm, if_neg hb, if_neg he]
    refine iff_of_true ?_ hn
    rcases List.mem_append.mp hsaid with hcode | hplain
    · simp only [List.mem_cons, List.not_mem_nil, or_false] at hcode
      rcases hcode with rfl | rfl | rfl
      · exact h.names_type lang hsig
      · exact h.names_scope lang hsig
      · exact h.names_format lang hsig
    · exact h.names_plain lang hplain hsig

end ReadBackFrom

/-- In the action that an utterance reads back, each parameter of the tool is named exactly when `NamedWhen` says so,
so the sentence names everything exactly when that holds of each of them. -/
theorem readback_names_iff {w : Wiring} {x : Lexicon} {scorer : String → String → Rat} {env : Env W}
    {actor : CurrentUser} {data : UtteranceIn} {db : Database W} (hsound : db.registry.Sound w.codec)
    {a : VoiceAction} {p : Params}
    (hread : Event.readBack a p ∈ (afterUtterance (shippedWiring w x scorer) env actor data db).log) :
    ∃ session result, understoodAs (shippedWiring w x scorer) env actor data db = some (session, result) ∧
      let lang := data.lang.getD session.lang
      let slots := spokenOver result.slots p
      let named := NamedWhen (shippedWiring w x scorer) x db.registry session result env.now
      a.readback = readback w.codec a.tool slots lang ∧
        (∀ e ∈ arguments a.tool p,
          Names w.codec db.registry env.now p (readbackSays w.codec a.tool slots lang) e.1 e.2 ↔ named e.1) ∧
        (NamesEverything w.codec db.registry env.now result.slots lang a ↔
          ∀ key ∈ (signature a.tool).map Prod.fst, named key) := by
  obtain ⟨session, result, resolution, h⟩ := readBackFrom hread
  obtain ⟨turn, ha⟩ := h.action
  have htool : a.tool = result.intent := by rw [ha]; rfl
  refine ⟨session, result, h.heard, ?_⟩
  intro lang slots named
  have hiff : ∀ e ∈ arguments a.tool p,
      Names w.codec db.registry env.now p (readbackSays w.codec a.tool slots lang) e.1 e.2 ↔ named e.1 := by
    intro e he
    rw [htool] at he ⊢
    obtain ⟨entry, hentry, rfl⟩ := List.mem_map.mp he
    exact h.names_iff hsound lang (List.mem_map_of_mem hentry)
  refine ⟨by rw [ha]; rfl, hiff, ?_⟩
  unfold NamesEverything
  rw [h.revived]
  dsimp only
  constructor
  · intro hall key hkey
    obtain ⟨entry, hentry, rfl⟩ := List.mem_map.mp hkey
    have hmem := List.mem_map_of_mem (f := fun e : String × Option Value =>
      (e.1, (argument a.tool p e.1).getD .null)) hentry
    exact (hiff _ hmem).mp (hall _ hmem)
  · intro hall e he
    refine (hiff e he).mpr (hall e.1 ?_)
    obtain ⟨entry, hentry, rfl⟩ := List.mem_map.mp he
    exact List.mem_map_of_mem hentry

/-! A report is asked for, and then an alarm of the press is to be
acknowledged, which was named in the turn before. -/

/-- The service with three phrases of the grammar and a matcher that scores nothing. -/
def pressService : Wiring :=
  shippedWiring { plainWiring with
    grammar := { plainWiring.grammar with
      match? := fun text =>
        if text = "generate the weekly report for this week"
        then some ⟨"generate_report", "en", [("type", "weekly"), ("period", "this week")], 19 / 20⟩
        else if text = "generate the machine health report"
        then some ⟨"generate_report", "en", [("type", "machine health")], 19 / 20⟩
        else if text = "acknowledge the alarm" then some ⟨"acknowledge_alarm", "en", [], 19 / 20⟩ else none } }
    ⟨asciiTables, Char.isDigit, fun _ => none⟩ fun _ _ => 0

/-- The press was named, in a turn that leaves no label. -/
def namedContext : DialogueContext :=
  { DialogueContext.empty with currentAssetId := some "5", currentAssetCode := some "press-04", touchedAt := some 0 }

/-- The session has the press in its context, and one of its alarms is active. -/
def namedDatabase : Database Unit where
  sessions := ⟨[⟨1, some 1, "voice", none, "en", namedContext⟩], by decide⟩
  turns := Table.empty
  actions := Table.empty
  registry := ⟨[⟨5, "press-04", "Press 04", "running", none⟩], [], [], [], [⟨7, 5, "active", 0⟩], ()⟩

theorem decimalCodec_ids (id : Uuid) : decimalCodec.parseUuid (decimalCodec.uuidText id) = some id := by
  show (if (Nat.repr id).toList.all Char.isDigit then some (Nat.ofDigitChars 10 (Nat.repr id).toList 0) else none) =
    some id
  rw [Nat.toList_repr, if_pos, Nat.ofDigitChars_ten_toDigits]
  exact List.all_eq_true.mpr fun c hc => Nat.isDigit_of_mem_toDigits (by decide) (by decide) hc

theorem namedDatabase_sound : namedDatabase.registry.Sound decimalCodec :=
  ⟨decimalCodec_ids, by decide, by decide⟩

/-- A read-back of the fifth second. -/
def readAtFive (tool : String) (params : Params) (text : String) : VoiceAction where
  id := 21
  turnId := 11
  tool := tool
  params := decimalCodec.jsonable params
  tier := .t2
  readback := text
  status := .pending
  validationErrors := none
  expiresAt := some (seconds 15)
  confirmedAt := none
  secondFactorOk := none
  executedAt := none
  result := none
  error := none
  createdAt := seconds 5

def weeklyParams : Params := [("type", .text "weekly_maintenance"), ("period", .text "week"),
  ("period_start", .instant (seconds (-259200))), ("period_end", .instant (seconds 345600)),
  ("asset_id", .text "5"), ("asset_label", .null)]

def weeklyReport : VoiceAction := readAtFive "generate_report" weeklyParams
  "Generating the weekly maintenance report for the plant for this week, as PDF. Say confirm or cancel."

/-- What is left by the request for the weekly report, and what it is understood as. -/
theorem weeklyReport_asked :
    (Event.readBack weeklyReport weeklyParams ∈ (afterUtterance pressService (atSecond 5) operator
        (say "generate the weekly report for this week" none) namedDatabase).log ∧
      (afterUtterance pressService (atSecond 5) operator (say "generate the weekly report for this week" none)
        namedDatabase).stored.actions.find 21 = some weeklyReport) ∧
    ∀ e ∈ understoodAs pressService (atSecond 5) operator (say "generate the weekly report for this week" none)
        namedDatabase,
      e.1.context = namedContext ∧ e.2.intent = "generate_report" ∧ e.2.slots = weeklyParams.take 4 ∧
        e.2.rawSlots.lookup "period" = some "this week" := by
  -- One evaluation for all of them.
  decide +kernel

theorem readback_names_report : ∃ session result,
    understoodAs pressService (atSecond 5) operator (say "generate the weekly report for this week" none)
      namedDatabase = some (session, result) ∧
    NamesEverything decimalCodec namedDatabase.registry (seconds 5) result.slots session.lang weeklyReport := by
  obtain ⟨⟨hread, -⟩, hasked⟩ := weeklyReport_asked
  obtain ⟨session, result, hheard, -, -, hall⟩ := readback_names_iff namedDatabase_sound hread
  obtain ⟨-, -, -, hperiod⟩ := hasked _ hheard
  refine ⟨session, result, hheard, hall.mpr fun key hkey => ?_⟩
  have hkeys : ∀ key ∈ (signature weeklyReport.tool).map Prod.fst, key ∉ machineKeys ∧ key ≠ "explanation_id" ∧
      key ∉ ["est_duration_min", "severity"] := by decide
  obtain ⟨hm, he, hn⟩ := hkeys key hkey
  unfold NamedWhen
  rw [if_neg hm, if_neg he]
  split
  · intro spoken hspoken
    rw [hperiod] at hspoken
    cases hspoken
    decide
  · exact hn

def acknowledgeParams : Params :=
  [("asset_id", .text "5"), ("asset_label", .null), ("alarm_id", .text "7")]

/-- The press is only "the asset", because it was named in the turn before. -/
def acknowledgement : VoiceAction := readAtFive "acknowledge_alarm" acknowledgeParams
  "Acknowledging the open alarm on the asset. Say confirm or cancel."

theorem remembered_machine_unnamed :
    ¬ ∀ (w : Wiring) (x : Lexicon) (scorer : String → String → Rat) (env : Env Unit) (actor : CurrentUser)
      (data : UtteranceIn) (db : Database Unit) (a : VoiceAction) (p : Params) (session : VoiceSession)
      (result : RouterResult), db.registry.Sound w.codec →
      Event.readBack a p ∈ (afterUtterance (shippedWiring w x scorer) env actor data db).log →
      understoodAs (shippedWiring w x scorer) env actor data db = some (session, result) →
      NamesEverything w.codec db.registry env.now result.slots (data.lang.getD session.lang) a := by
  intro h
  have hasked : Event.readBack acknowledgement acknowledgeParams ∈ (afterUtterance pressService (atSecond 5) operator
        (say "acknowledge the alarm" none) namedDatabase).log ∧
      (understoodAs pressService (atSecond 5) operator (say "acknowledge the alarm" none) namedDatabase).isSome ∧
      ∀ e ∈ understoodAs pressService (atSecond 5) operator (say "acknowledge the alarm" none) namedDatabase,
        e.2.slots = [] ∧ e.1.lang = "en" := by decide +kernel
  obtain ⟨hread, hunderstood, hheard⟩ := hasked
  obtain ⟨⟨session, result⟩, hsome⟩ := Option.isSome_iff_exists.mp hunderstood
  obtain ⟨hslots, hlang⟩ := hheard _ hsome
  have hnames := h _ _ _ (atSecond 5) operator (say "acknowledge the alarm" none) namedDatabase _ _ session result
    namedDatabase_sound hread hsome
  have halarm : ("alarm_id", Value.text "7") ∈ arguments acknowledgement.tool
      (decimalCodec.reviveParams acknowledgement.params) := by decide +kernel
  rcases hnames _ halarm with hnull | hmachine
  · cases hnull
  · rw [if_pos (by decide)] at hmachine
    have hsays := hmachine ⟨5, "press-04", "Press 04", "running", none⟩ (by decide +kernel)
    dsimp only at hslots hlang
    have hlang' : (say "acknowledge the alarm" none).lang.getD session.lang = "en" := hlang
    rw [hslots, hlang'] at hsays
    exact absurd hsays (by decide +kernel)

end TwinVoice.Voice
