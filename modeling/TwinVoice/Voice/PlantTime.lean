import TwinVoice.Nlu.Buckets
import TwinVoice.Nlu.SpokenTimes
import TwinVoice.Voice.Resolved

/-! # The time at the plant

`handle` reads the clock in UTC, and so do the slots that it resolves. At a
plant with another offset they are what the plant's clock would give only when
no day and no time of day is spoken of: an hour, and an hour that begins alike
in both zones. -/

namespace TwinVoice.Nlu

open TwinVoice.Lib

/-- The offset of a time zone is less than a day. -/
structure UtcOffset where
  micros : Int
  above : -dayMicros < micros
  below : micros < dayMicros

/-- The same value with its instant moved. -/
def shifted (d : Duration) : Value → Value
  | .instant t => .instant (t + d)
  | v => v

namespace UtcOffset

variable (o : UtcOffset)

theorem eq_zero_of_dvd (h : dayMicros ∣ o.micros) : o.micros = 0 :=
  Int.eq_zero_of_abs_lt_dvd h (abs_lt.mpr ⟨o.above, o.below⟩)

/-- The clock of the plant, as a count that its calendar reads like UTC. -/
def wall (now : Instant) : Instant := now + o.micros

/-- The instant at which the plant's clock shows the time. -/
def utc (t : Instant) : Instant := t - o.micros

/-- A value read off the plant's clock. -/
def fromWall (v : Value) : Value := shifted (-o.micros) v

theorem fromWall_instant (t : Instant) : o.fromWall (.instant t) = .instant (o.utc t) :=
  congrArg Value.instant Int.sub_eq_add_neg.symm

/-- A bucket of the plant begins when the one in UTC does: every hour if the zones differ by hours,
and nothing else unless they are the same. -/
theorem utc_start_iff (bucket : String) (k : Int) (now : Instant) :
    o.utc (bucketBounds bucket k (o.wall now)).start = (bucketBounds bucket k now).start ↔
      if bucket = "hour" then hourMicros ∣ o.micros else o.micros = 0 := by
  unfold utc wall
  by_cases hhour : bucket = "hour"
  · have hsame (t d k : Int) : t + d - (t + d) % 3600000000 + k * 3600000000 - d =
        t - t % 3600000000 + k * 3600000000 ↔ 3600000000 ∣ d := by omega
    rw [if_pos hhour]
    unfold bucketBounds
    rw [if_pos hhour, if_pos hhour]
    exact hsame now o.micros k
  · rw [if_neg hhour]
    have hdvd := dayMicros_dvd_start_sub hhour k (now + o.micros) now
    refine ⟨fun heq => o.eq_zero_of_dvd ?_, fun hzero => ?_⟩
    · have hdiff : (bucketBounds bucket k (now + o.micros)).start - (bucketBounds bucket k now).start = o.micros := by
        rw [← heq, sub_sub_cancel]
      rwa [hdiff] at hdvd
    · rw [hzero, Int.add_zero, Int.sub_zero]

theorem utc_stop_of_hour {bucket : String} (h : bucket = "hour") (k : Int) (now : Instant)
    (hstart : o.utc (bucketBounds bucket k (o.wall now)).start = (bucketBounds bucket k now).start) :
    o.utc (bucketBounds bucket k (o.wall now)).stop = (bucketBounds bucket k now).stop := by
  unfold utc bucketBounds at *
  rw [if_pos h, if_pos h] at *
  dsimp only at *
  rw [← hstart]
  ring

/-- A spoken time of the plant is not the one in UTC unless the zones are the same. -/
theorem utc_parseDatetime {x : Lexicon} {text : String} {now t t' : Instant} (h : x.parseDatetime text now = some t)
    (h' : x.parseDatetime text (o.wall now) = some t') (heq : o.utc t' = t) : o.micros = 0 := by
  obtain ⟨days, rfl, -⟩ := Lexicon.parseDatetime_eq h
  obtain ⟨days', rfl, -⟩ := Lexicon.parseDatetime_eq h'
  unfold utc Lexicon.spokenOn at heq
  rw [midnightOf_eq, midnightOf_eq] at heq
  have hmoved (n n' hour : Int) (h : n' * 86400000000 + hour + days' * 86400000000 - o.micros =
      n * 86400000000 + hour + days * 86400000000) : o.micros = 86400000000 * (n' + days' - n - days) := by omega
  exact o.eq_zero_of_dvd ⟨_, hmoved _ _ _ heq⟩

end UtcOffset

/-! ## Slots in the plant's time -/

variable {x : Lexicon} {intent : Intent} {raw : List (String × String)} {o : UtcOffset} {now : Instant}

/-- What the slot parsers give for the current time expressed in the plant's time zone. -/
def localSlots (x : Lexicon) (intent : Intent) (raw : List (String × String)) (o : UtcOffset) (now : Instant) :
    Params :=
  Dict.mapValues o.fromWall (x.parseSlots intent raw (o.wall now))

/-- No span names a time, and a period is one of hours that begin alike in both zones. -/
def ZoneFree (x : Lexicon) (intent : Intent) (raw : List (String × String)) (o : UtcOffset) : Prop :=
  ∀ slot ∈ intent.slots, ∀ span, raw.lookup slot.name = some span →
    (slot.type = "datetime" → ¬ x.NamesTime span) ∧
    (slot.type = "period" → (x.periodTerm span).1 = "hour" ∧ hourMicros ∣ o.micros)

theorem code_of_bucket (bucket : String) (k : Int) (now now' : Instant) :
    (bucketBounds bucket k now).code = (bucketBounds bucket k now').code := by
  unfold bucketBounds
  split_ifs <;> rfl

/-- Only a spoken time depends on the clock; a period is known by its code. -/
theorem parseSlot_fromWall {type span : String} (htime : type = "datetime" → ¬ x.NamesTime span) :
    (x.parseSlot type span (o.wall now)).map o.fromWall = x.parseSlot type span now := by
  have hunresolved (t : Instant) (hnot : ¬ x.NamesTime span) : x.parseDatetime span t = none :=
    Option.not_isSome_iff_eq_none.mp fun hsome => hnot ((x.parseDatetime_isSome_iff span t).mp hsome)
  have htext (v : Option String) : (v.map Value.text).map o.fromWall = v.map Value.text := by
    rw [Option.map_map]
    rfl
  have hnumber (v : Option Rat) : (v.map Value.number).map o.fromWall = v.map Value.number := by
    rw [Option.map_map]
    rfl
  unfold Lexicon.parseSlot
  split
  case h_3 => exact hnumber _
  case h_9 => exact congrArg (fun code => some (Value.text code)) (code_of_bucket _ _ _ _)
  case h_10 =>
    rw [hunresolved _ (htime rfl), hunresolved _ (htime rfl)]
    rfl
  all_goals first
    | exact htext _
    | rfl

theorem fromWall_set (p : Params) (key : String) (v : Value) :
    Dict.mapValues o.fromWall (p.set key v) = Params.set (Dict.mapValues o.fromWall p) key (o.fromWall v) :=
  Dict.mapValues_set _ _ _ _

theorem addSlot_fromWall (parsed : Params) {slot : Slot}
    (htime : ∀ span, raw.lookup slot.name = some span → slot.type = "datetime" → ¬ x.NamesTime span)
    (hperiod : ∀ span, raw.lookup slot.name = some span → slot.type = "period" →
      (x.periodTerm span).1 = "hour" ∧ hourMicros ∣ o.micros) :
    Dict.mapValues o.fromWall (x.addSlot (o.wall now) raw parsed slot) =
      x.addSlot now raw (Dict.mapValues o.fromWall parsed) slot := by
  unfold Lexicon.addSlot
  cases hspan : raw.lookup slot.name with
  | none => rfl
  | some span =>
    have hvalue : (x.parseSlot slot.type span (o.wall now)).map o.fromWall = x.parseSlot slot.type span now :=
      parseSlot_fromWall (htime span hspan)
    dsimp only
    rw [← hvalue]
    cases x.parseSlot slot.type span (o.wall now) with
    | none => exact Dict.mapValues_pop o.fromWall parsed slot.name
    | some v =>
      rw [Option.map_some]
      dsimp only
      by_cases htype : slot.type = "period"
      · obtain ⟨hhour, hdvd⟩ := hperiod span hspan htype
        have hstart := (o.utc_start_iff (x.periodTerm span).1 (x.periodTerm span).2 now).mpr (by rwa [if_pos hhour])
        have hstop := o.utc_stop_of_hour hhour _ _ hstart
        have hstartValue : o.fromWall (.instant (x.parsePeriod span (o.wall now)).start) =
            .instant (x.parsePeriod span now).start := by
          rw [UtcOffset.fromWall_instant]
          exact congrArg Value.instant hstart
        have hstopValue : o.fromWall (.instant (x.parsePeriod span (o.wall now)).stop) =
            .instant (x.parsePeriod span now).stop := by
          rw [UtcOffset.fromWall_instant]
          exact congrArg Value.instant hstop
        rw [if_pos htype, if_pos htype, ← hstartValue, ← hstopValue]
        rw [fromWall_set, fromWall_set, fromWall_set]
      · rw [if_neg htype, if_neg htype, fromWall_set]

theorem localSlots_of_zoneFree (h : ZoneFree x intent raw o) :
    localSlots x intent raw o now = x.parseSlots intent raw now := by
  have hfold (slots : List Slot) (hslots : slots ⊆ intent.slots) (parsed : Params) :
      Dict.mapValues o.fromWall (slots.foldl (x.addSlot (o.wall now) raw) parsed) =
        slots.foldl (x.addSlot now raw) (Dict.mapValues o.fromWall parsed) := by
    induction slots generalizing parsed with
    | nil => rfl
    | cons slot slots ih =>
      obtain ⟨hslot, hslots⟩ := List.cons_subset.mp hslots
      rw [List.foldl_cons, List.foldl_cons, ih hslots, addSlot_fromWall]
      · exact fun span hspan => (h slot hslot span hspan).1
      · exact fun span hspan => (h slot hslot span hspan).2
  exact hfold _ (List.Subset.refl _) []

theorem localSlots_of_zero (h : o.micros = 0) : localSlots x intent raw o now = x.parseSlots intent raw now := by
  have hsame (v : Value) : o.fromWall v = v := by
    cases v with
    | instant t =>
      show Value.instant (t + -o.micros) = _
      rw [h, Int.neg_zero, Int.add_zero]
    | null | bool | text | number => rfl
  have hmap (d : Params) : Dict.mapValues o.fromWall d = d := by
    unfold Dict.mapValues
    simp only [hsame]
    exact List.map_id d
  unfold localSlots UtcOffset.wall
  rw [hmap, h, Int.add_zero]

/-- The slots of a plant in another zone are the ones in UTC just when no zone matters. -/
theorem localSlots_eq_iff (hnames : (intent.slots.map Slot.name).Nodup)
    (hbound : ∀ s ∈ intent.slots, s.name ∉ Lexicon.boundKeys)
    (hperiod : ∀ s ∈ intent.slots, s.type = "period" → s.name = "period") :
    localSlots x intent raw o now = x.parseSlots intent raw now ↔ o.micros = 0 ∨ ZoneFree x intent raw o := by
  refine ⟨fun heq => or_iff_not_imp_left.mpr fun hzone slot hslot span hspan => ?_,
    fun h => h.elim localSlots_of_zero localSlots_of_zoneFree⟩
  refine ⟨fun htype hnamesTime => hzone ?_, fun htype => ?_⟩
  · have hget := congrArg (fun d => Dict.get? d slot.name) heq
    have hfind := find_of_nodup hnames hslot
    rw [localSlots, Dict.get?_mapValues, Lexicon.get?_parseSlots hnames (hbound slot hslot),
      Lexicon.get?_parseSlots hnames (hbound slot hslot), hfind, hspan] at hget
    obtain ⟨t, ht⟩ := Option.isSome_iff_exists.mp ((x.parseDatetime_isSome_iff span now).mpr hnamesTime)
    obtain ⟨t', ht'⟩ := Option.isSome_iff_exists.mp ((x.parseDatetime_isSome_iff span (o.wall now)).mpr hnamesTime)
    simp only [Option.bind_some, htype, Lexicon.parseSlot, ht, ht', Option.map_some, Option.some.injEq] at hget
    rw [UtcOffset.fromWall_instant] at hget
    exact o.utc_parseDatetime ht ht' (Value.instant.inj hget)
  · have hget := congrArg (fun d => Dict.get? d "period_start") heq
    have hkey : "period_start" ∈ Lexicon.boundKeys := by decide
    have hsome : ∃ s ∈ intent.slots, s.type = "period" := ⟨slot, hslot, htype⟩
    rw [hperiod slot hslot htype] at hspan
    rw [localSlots, Dict.get?_mapValues, Lexicon.get?_parseSlots_bound hbound hperiod hkey,
      Lexicon.get?_parseSlots_bound hbound hperiod hkey, if_pos hsome, if_pos hsome, Lexicon.spokenBound,
      Lexicon.spokenBound, hspan] at hget
    simp only [Option.elim_some, Option.map_some, Option.some.injEq, Lexicon.boundOf, if_true,
      UtcOffset.fromWall_instant, Value.instant.injEq] at hget
    unfold Lexicon.parsePeriod at hget
    rw [UtcOffset.utc_start_iff] at hget
    by_cases hhour : (x.periodTerm span).1 = "hour"
    · rw [if_pos hhour] at hget
      exact ⟨hhour, hget⟩
    · rw [if_neg hhour] at hget
      exact absurd hget hzone

end TwinVoice.Nlu

namespace TwinVoice.Voice

open TwinVoice.Lib TwinVoice.Nlu

variable {W : Type}

/-! ## What an utterance is answered with -/

/-- What `handle` routes an utterance to. -/
def routedAs (w : Wiring) (env : Env W) (actor : CurrentUser) (data : UtteranceIn) (db : Database W) :
    Option RouterResult :=
  (opened env actor data db).bind fun here =>
    (route w.grammar w.catalogue data.text env.now (data.lang.getD here.1.lang) env.llm).toOption

theorem routedAs_route {w : Wiring} {env : Env W} {actor : CurrentUser} {data : UtteranceIn} {db : Database W}
    {result : RouterResult} (h : routedAs w env actor data db = some result) : ∃ session : VoiceSession,
      route w.grammar w.catalogue data.text env.now (data.lang.getD session.lang) env.llm = .ok result := by
  obtain ⟨here, -, hroute⟩ := Option.bind_eq_some_iff.mp h
  refine ⟨here.1, ?_⟩
  cases hresult : route w.grammar w.catalogue data.text env.now (data.lang.getD here.1.lang) env.llm with
  | error reason =>
    rw [hresult] at hroute
    cases hroute
  | ok other =>
    rw [hresult] at hroute
    cases hroute
    rfl

section
variable {w : Wiring} {env : Env W} {actor : CurrentUser} {session : VoiceSession} {turn : VoiceTurn}
  {result : RouterResult} {data : UtteranceIn} {db : Database W} {lang : String} {base response : TurnResponse}
  {s t : Session (Database W) Event}

theorem executeNow_slots {resolution : Resolution}
    (h : (executeNow w env actor session result resolution lang base).run s = (.ok response, t)) :
    response.slots = base.slots := by
  obtain ⟨outcome, u, -, h⟩ := Tx.bind_ok h
  cases outcome with
  | error problem =>
    obtain ⟨rfl, -⟩ := Tx.pure_ok h
    rfl
  | ok output =>
    obtain ⟨-, u, -, h⟩ := Tx.bind_ok h
    obtain ⟨rfl, -⟩ := Tx.pure_ok h
    rfl

theorem readBack_slots {params : Params}
    (h : (readBack w env turn result params lang base).run s = (.ok response, t)) : response.slots = base.slots := by
  unfold readBack at h
  split at h
  · obtain ⟨rfl, -⟩ := Tx.pure_ok h
    rfl
  · obtain ⟨db, u, -, h⟩ := Tx.bind_ok h
    obtain ⟨actions, u, -, h⟩ := Tx.bind_ok h
    obtain ⟨-, u, -, h⟩ := Tx.bind_ok h
    obtain ⟨-, u, -, h⟩ := Tx.bind_ok h
    obtain ⟨rfl, -⟩ := Tx.pure_ok h
    rfl

/-- Every answer to an intent carries the slots that were resolved. -/
theorem respond_slots (h : (respond w env actor session turn result data lang).run s = (.ok response, t)) :
    response.slots = w.codec.jsonable result.slots := by
  obtain ⟨db, u, -, h⟩ := Tx.bind_ok h
  split at h
  · obtain ⟨rfl, -⟩ := Tx.pure_ok h
    rfl
  split at h
  · obtain ⟨rfl, -⟩ := Tx.pure_ok h
    rfl
  obtain ⟨resolution, u, -, h⟩ := Tx.bind_ok h
  obtain ⟨-, u, -, h⟩ := Tx.bind_ok h
  unfold respondResolved at h
  split at h
  · obtain ⟨rfl, -⟩ := Tx.pure_ok h
    rfl
  split at h
  · exact readBack_slots h
  · exact executeNow_slots h

/-- The slots of `handle` are those of the route it takes. -/
theorem handle_slots (h : (handle w env actor data).run ⟨db, db, []⟩ = (.ok response, t)) :
    ∃ result, routedAs w env actor data db = some result ∧
      (result.control = none → response.slots = w.codec.jsonable result.slots) := by
  obtain ⟨session, u, hopen, h⟩ := Tx.bind_ok h
  obtain ⟨-, u', -, h⟩ := Tx.bind_ok h
  obtain ⟨result, u'', hroute, h⟩ := Tx.bind_ok h
  refine ⟨result, ?_, fun hcontrol => ?_⟩
  · rcases run_openSession env actor data db with ⟨failure, -, hrun⟩ | ⟨session', db', hopened, hrun⟩
    · rw [hrun] at hopen
      cases hopen
    · rw [hrun] at hopen
      cases hopen
      unfold routedAs
      rw [hopened, Option.bind_some]
      cases hresult : route w.grammar w.catalogue data.text env.now (data.lang.getD session.lang) env.llm with
      | error reason =>
        rw [hresult] at hroute
        cases hroute
      | ok result' =>
        rw [hresult] at hroute
        obtain ⟨rfl, -⟩ := Tx.pure_ok hroute
        rfl
  · rw [hcontrol] at h
    obtain ⟨-, v, -, h⟩ := Tx.bind_ok h
    obtain ⟨answer, v', hanswer, h⟩ := Tx.bind_ok h
    obtain ⟨-, v'', -, h⟩ := Tx.bind_ok h
    obtain ⟨-, v''', -, h⟩ := Tx.bind_ok h
    obtain ⟨rfl, -⟩ := Tx.pure_ok h
    exact respond_slots hanswer

end

/-- The slots that `handle` resolves are in the plant's time just when no zone matters. -/
theorem routed_slots_local_iff (w : Wiring) (x : Lexicon) (scorer : String → String → Rat) (env : Env W)
    (actor : CurrentUser) (data : UtteranceIn) (db : Database W) (result : RouterResult) (intent : Intent)
    (o : UtcOffset) (h : routedAs (shippedWiring w x scorer) env actor data db = some result)
    (hintent : shipped.get result.intent = some intent) :
    result.slots = localSlots x intent result.rawSlots o env.now ↔
      o.micros = 0 ∨ ZoneFree x intent result.rawSlots o := by
  obtain ⟨session, hroute⟩ := routedAs_route h
  obtain ⟨found, hfound, hslots⟩ := route_slots hroute
  obtain rfl := Option.some_inj.mp (hfound.symm.trans hintent)
  obtain ⟨hnames, hbound, hperiod, -⟩ := shipped_slots found (List.mem_of_find?_eq_some hintent)
  rw [hslots, eq_comm]
  exact localSlots_eq_iff hnames hbound hperiod

/-! A filter change is planned for Friday morning on a Thursday at ten in the
evening; at a plant five and a half hours ahead it is Friday already. -/

def plantService : Wiring :=
  shippedWiring { plainWiring with
    grammar := { plainWiring.grammar with
      match? := fun text =>
        if text = "schedule a filter change for the press on friday morning"
        then some ⟨"create_work_order", "en",
          [("task", "a filter change"), ("asset", "the press"), ("when", "friday morning")], 19 / 20⟩
        else none } }
    asciiLexicon fun _ _ => 0

def thursdayEvening : Env Unit := atSecond 79200

def indianTime : UtcOffset := ⟨19800000000, by decide, by decide⟩

def fridayOrder : UtteranceIn := say "schedule a filter change for the press on friday morning" none

def orderIntent : Intent :=
  ⟨"create_work_order", .t2, [⟨"asset", "asset", true, some "current_asset"⟩, ⟨"task", "text", true, none⟩,
    ⟨"when", "datetime", false, none⟩, ⟨"technician", "text", false, none⟩]⟩

theorem fridayOrder_routed : ∃ result,
    routedAs plantService thursdayEvening operator fridayOrder waitingDatabase = some result ∧
    shipped.get result.intent = some orderIntent ∧ result.slots =
      [("asset", .text "press"), ("task", .text "a filter change"), ("when", .instant (32 * hourMicros))] ∧
    result.rawSlots = [("task", "a filter change"), ("asset", "the press"), ("when", "friday morning")] := by
  have hheard : (routedAs plantService thursdayEvening operator fridayOrder waitingDatabase).isSome ∧
      ∀ r ∈ routedAs plantService thursdayEvening operator fridayOrder waitingDatabase,
        r.intent = "create_work_order" ∧ r.slots =
          [("asset", .text "press"), ("task", .text "a filter change"), ("when", .instant (32 * hourMicros))] ∧
        r.rawSlots = [("task", "a filter change"), ("asset", "the press"), ("when", "friday morning")] := by
    decide +kernel
  obtain ⟨hsome, hall⟩ := hheard
  obtain ⟨result, hresult⟩ := Option.isSome_iff_exists.mp hsome
  obtain ⟨hintent, hslots⟩ := hall result hresult
  exact ⟨result, hresult, by rw [hintent]; rfl, hslots⟩

theorem friday_order_local : ∃ result,
    routedAs plantService thursdayEvening operator fridayOrder waitingDatabase = some result ∧
    (result.slots = localSlots asciiLexicon orderIntent result.rawSlots indianTime thursdayEvening.now ↔
      indianTime.micros = 0 ∨ ZoneFree asciiLexicon orderIntent result.rawSlots indianTime) := by
  obtain ⟨result, hrouted, hintent, -⟩ := fridayOrder_routed
  exact ⟨result, hrouted, routed_slots_local_iff _ _ _ thursdayEvening operator fridayOrder waitingDatabase result
    orderIntent indianTime hrouted hintent⟩

/-- Friday morning is eight o'clock in UTC, half past one in the afternoon at the plant. -/
theorem friday_morning_in_utc :
    ¬∀ (w : Wiring) (x : Lexicon) (scorer : String → String → Rat) (env : Env Unit) (actor : CurrentUser)
      (data : UtteranceIn) (db : Database Unit) (result : RouterResult) (intent : Intent) (o : UtcOffset),
      routedAs (shippedWiring w x scorer) env actor data db = some result → shipped.get result.intent = some intent →
      result.slots = localSlots x intent result.rawSlots o env.now := by
  intro h
  obtain ⟨result, hrouted, hintent, hslots, hraw⟩ := fridayOrder_routed
  have heq := h _ _ _ thursdayEvening operator fridayOrder waitingDatabase result orderIntent indianTime hrouted
    hintent
  rw [hslots, hraw] at heq
  exact absurd heq (by decide +kernel)

end TwinVoice.Voice
