import TwinVoice.Ingest.EdgePredictions
import TwinVoice.Lib.Relay
import TwinVoice.Lib.Traversal

/-! # Replayed edge predictions

The edge sends a prediction again after a reconnect, and the broker may
deliver what it was sent once more. What a message comes to is a record of two
rows; a replay finds the first of them and changes nothing. -/

namespace TwinVoice.Ingest.EdgePredictions

open TwinVoice.Lib
open TwinVoice.Sim (Double)

/-- What is on record of a message. -/
structure Record (Card : Type) where
  prediction : Prediction
  explanation : Option (Explanation Card)

section
variable {Card : Type} (p : Platform Card)

/-- The values of the message. -/
def record (m : EdgePrediction) : Option (Record Card) := do
  let assetId ← p.assetMap.get? m.assetCode
  let model ← resolveModel p.models m.modelVersion
  let id ← p.uuid m.id
  let prediction ← (predictionOf m id assetId model.id).toOption
  let explanation ← (explanationOf p m id assetId).toOption
  return ⟨prediction, explanation⟩

/-- The values as the tables hold them, if they take them. -/
def saved (r : Record Card) : Option (Record Card) :=
  match columns p r.prediction with
  | none => none
  | some prediction =>
    if p.takesPrediction prediction = true ∧ r.explanation.all p.takesExplanation = true
    then some ⟨prediction, r.explanation⟩ else none

/-- The asset code makes a topic from which it can be read back. -/
def Addressed (m : EdgePrediction) : Prop := m.assetCode ≠ "" ∧ '/' ∉ m.assetCode.toList

instance (m : EdgePrediction) : Decidable (Addressed m) := inferInstanceAs (Decidable (_ ∧ _))

/-- What the consumer keeps of the message. -/
def kept (m : EdgePrediction) : Option (Record Card) :=
  if Addressed m then (record p m).bind (saved p) else none

/-- A message as the broker delivers it, on the topic of its asset. -/
structure Delivery where
  payload : ByteArray
  message : EdgePrediction
  valid : p.validate payload = some message

def receive (s : State Card) (d : Delivery p) : State Card :=
  processEdgePrediction p s (predTopic d.message.assetCode) d.payload

end

/-! ## The topic -/

theorem assetFromPredTopic_predTopic {code : String} :
    assetFromPredTopic (predTopic code) = some code ↔ code ≠ "" ∧ '/' ∉ code.toList := by
  unfold assetFromPredTopic
  constructor
  · intro h
    split at h
    · rename_i first second third hsplit
      split at h
      · rename_i hfirst
        cases h
        refine ⟨hfirst.2, Segments.split_free '/' (predTopic code) code ?_⟩
        simp [hsplit]
      · cases h
    · cases h
  · intro h
    obtain ⟨hne, hfree⟩ := h
    have hsplit : Segments.split '/' (predTopic code) = ["twinvoice", "pred", code] := by
      refine Segments.split_eq_iff.mpr ⟨by simp, ?_, ?_⟩
      · intro part hpart
        simp only [List.mem_cons, List.not_mem_nil, or_false] at hpart
        rcases hpart with rfl | rfl | rfl
        · decide
        · decide
        · exact hfree
      · simp [predTopic, predTopicPrefix, Segments.join, List.intercalate]
    rw [hsplit]
    exact if_pos ⟨rfl, hne⟩

section
variable {Card : Type} {p : Platform Card}

/-! ## What a message comes to -/

theorem record_eq_some {m : EdgePrediction} {r : Record Card} : record p m = some r ↔
    ∃ assetId model id, p.assetMap.get? m.assetCode = some assetId ∧
      resolveModel p.models m.modelVersion = some model ∧ p.uuid m.id = some id ∧
      predictionOf m id assetId model.id = .ok r.prediction ∧ explanationOf p m id assetId = .ok r.explanation := by
  unfold record
  simp only [Option.bind_eq_bind, Option.bind_eq_some_iff, toOption_eq_some, Option.pure_def, Option.some.injEq]
  constructor
  · intro h
    obtain ⟨assetId, hasset, model, hmodel, id, hid, prediction, hprediction, explanation, hexplanation, hr⟩ := h
    subst hr
    exact ⟨assetId, model, id, hasset, hmodel, hid, hprediction, hexplanation⟩
  · intro h
    obtain ⟨assetId, model, id, hasset, hmodel, hid, hprediction, hexplanation⟩ := h
    exact ⟨assetId, hasset, model, hmodel, id, hid, _, hprediction, _, hexplanation, rfl⟩

theorem saved_eq_some {r r' : Record Card} : saved p r = some r' ↔
    columns p r.prediction = some r'.prediction ∧ p.takesPrediction r'.prediction = true ∧
      r.explanation.all p.takesExplanation = true ∧ r'.explanation = r.explanation := by
  unfold saved
  constructor
  · intro h
    split at h
    · cases h
    · rename_i prediction hcolumns
      split at h
      · rename_i htakes
        cases h
        exact ⟨hcolumns, htakes.1, htakes.2, rfl⟩
      · cases h
  · intro h
    obtain ⟨hcolumns, hprediction, hexplanation, hsame⟩ := h
    rw [hcolumns]
    obtain ⟨prediction, explanation⟩ := r'
    dsimp only at hprediction hsame ⊢
    rw [if_pos ⟨hprediction, hexplanation⟩, hsame]

theorem predictionOf_key {m : EdgePrediction} {id assetId modelId : Uuid} {r : Prediction}
    (h : predictionOf m id assetId modelId = .ok r) : r.id = id ∧ r.time = m.time := by
  obtain ⟨latency, -, hr⟩ := bind_eq_ok h
  cases hr
  exact ⟨rfl, rfl⟩

theorem columns_key {r r' : Prediction} (h : columns p r = some r') : r'.id = r.id ∧ r'.time = r.time := by
  obtain ⟨coverage, -, hr⟩ := Option.map_eq_some_iff.mp h
  cases hr
  exact ⟨rfl, rfl⟩

theorem explanationOf_key {m : EdgePrediction} {id assetId : Uuid} {e : Explanation Card}
    (h : explanationOf p m id assetId = .ok (some e)) : e.predictionId = id := by
  unfold explanationOf at h
  split at h
  · cases h
  · split at h
    · cases h
    · obtain ⟨computeMs, -, he⟩ := bind_eq_ok h
      cases he
      rfl

/-- Both rows are under the id of the message. -/
theorem kept_key {m : EdgePrediction} {r : Record Card} (h : kept p m = some r) :
    p.uuid m.id = some r.prediction.id ∧ r.prediction.time = m.time ∧
      ∀ e, r.explanation = some e → e.predictionId = r.prediction.id := by
  unfold kept at h
  split at h
  · obtain ⟨given, hrecord, hsaved⟩ := Option.bind_eq_some_iff.mp h
    obtain ⟨assetId, model, id, -, -, hid, hprediction, hexplanation⟩ := record_eq_some.mp hrecord
    obtain ⟨hcolumns, -, -, hsame⟩ := saved_eq_some.mp hsaved
    obtain ⟨hgiven, htime⟩ := predictionOf_key hprediction
    obtain ⟨hrow, hrowtime⟩ := columns_key hcolumns
    refine ⟨?_, hrowtime.trans htime, ?_⟩
    · rw [hid, hrow, hgiven]
    · intro e he
      rw [hsame] at he
      rw [he] at hexplanation
      rw [explanationOf_key hexplanation, hrow, hgiven]
  · cases h

/-! ## One delivery -/

theorem insertPrediction_eq_ok {t t' : Table Prediction} {r : Prediction} :
    insertPrediction p t r = .ok t' ↔
      ∃ row, columns p r = some row ∧ p.takesPrediction row = true ∧ t.insert row = some t' := by
  unfold insertPrediction
  cases hcolumns : columns p r with
  | none => simp
  | some row =>
    by_cases htakes : p.takesPrediction row = true
    · cases hinsert : t.insert row <;> simp [htakes, hinsert]
    · simp [htakes]

theorem insertExplanation_eq_ok {t t' : Table (Explanation Card)} {e : Explanation Card} :
    insertExplanation p t (some e) = .ok t' ↔ p.takesExplanation e = true ∧ t.insert e = some t' := by
  unfold insertExplanation
  by_cases htakes : p.takesExplanation e = true
  · cases hinsert : t.insert e <;> simp [htakes, hinsert]
  · simp [htakes]

theorem rows_insertExplanation {t t' : Table (Explanation Card)} {e : Option (Explanation Card)}
    (h : insertExplanation p t e = .ok t') :
    e.all p.takesExplanation = true ∧ t'.rows = t.rows ++ e.toList := by
  cases e with
  | none =>
    cases h
    simp
  | some e =>
    obtain ⟨htakes, hinsert⟩ := insertExplanation_eq_ok.mp h
    exact ⟨htakes, Table.rows_insert hinsert⟩

theorem store_eq_ok {db db' : Database Card} {m : EdgePrediction} {assetId : Uuid} {stored : StoredEdgePrediction} :
    storeEdgePrediction p db m assetId = .ok (some (db', stored)) ↔
      ∃ model id prediction explanation, resolveModel p.models m.modelVersion = some model ∧
        p.uuid m.id = some id ∧ db.predictions.find (m.time, id) = none ∧
        predictionOf m id assetId model.id = .ok prediction ∧
        insertPrediction p db.predictions prediction = .ok db'.predictions ∧
        explanationOf p m id assetId = .ok explanation ∧
        insertExplanation p db.explanations explanation = .ok db'.explanations ∧ stored = storedOf m id := by
  unfold storeEdgePrediction
  constructor
  · intro h
    split at h
    · cases h
    · rename_i model hmodel
      split at h
      · cases h
      · rename_i id hid
        split at h
        · cases h
        · rename_i hfind
          obtain ⟨prediction, hprediction, h⟩ := bind_eq_ok h
          obtain ⟨predictions, hpredictions, h⟩ := bind_eq_ok h
          obtain ⟨explanation, hexplanation, h⟩ := bind_eq_ok h
          obtain ⟨explanations, hexplanations, h⟩ := bind_eq_ok h
          cases h
          exact ⟨model, id, prediction, explanation, hmodel, hid, Option.not_isSome_iff_eq_none.mp hfind,
            hprediction, hpredictions, hexplanation, hexplanations, rfl⟩
  · intro h
    obtain ⟨model, id, prediction, explanation, hmodel, hid, hfind, hprediction, hpredictions, hexplanation,
      hexplanations, hstored⟩ := h
    obtain ⟨predictions, explanations⟩ := db'
    subst hstored
    dsimp only at hpredictions hexplanations
    simp [hmodel, hid, hfind, hprediction, hpredictions, hexplanation, hexplanations, bind, Except.bind, pure, Except.pure]

/-- What a message does, on the topic of its asset. -/
def absorb (p : Platform Card) (s : State Card) (m : EdgePrediction) : State Card :=
  processValid p s (predTopic m.assetCode) m

theorem receive_eq (s : State Card) (d : Delivery p) : receive p s d = absorb p s d.message := by
  unfold receive processEdgePrediction
  rw [d.valid]
  rfl

/-- If anything changes, it is the record of the message that is added. -/
theorem absorb_eq (s : State Card) (m : EdgePrediction) : absorb p s m = s ∨
    ∃ r, kept p m = some r ∧ s.db.predictions.find (m.time, r.prediction.id) = none := by
  unfold absorb processValid
  split
  · exact .inl rfl
  · rename_i htopic
    split
    · exact .inl rfl
    · rename_i assetId hasset
      split
      · rename_i db' stored hstore
        refine .inr ?_
        obtain ⟨model, id, prediction, explanation, hmodel, hid, hfind, hprediction, hpredictions, hexplanation,
          hexplanations, -⟩ := store_eq_ok.mp hstore
        obtain ⟨row, hcolumns, htakes, -⟩ := insertPrediction_eq_ok.mp hpredictions
        have haddressed : Addressed m := assetFromPredTopic_predTopic.mp (not_not.mp htopic).symm
        have hrecord : record p m = some ⟨prediction, explanation⟩ :=
          record_eq_some.mpr ⟨assetId, model, id, hasset, hmodel, hid, hprediction, hexplanation⟩
        have hsaved : saved p ⟨prediction, explanation⟩ = some ⟨row, explanation⟩ :=
          saved_eq_some.mpr ⟨hcolumns, htakes, (rows_insertExplanation hexplanations).1, rfl⟩
        refine ⟨⟨row, explanation⟩, ?_, ?_⟩
        · unfold kept
          rw [if_pos haddressed, hrecord]
          exact hsaved
        · rw [(columns_key hcolumns).1, (predictionOf_key hprediction).1]
          exact hfind
      · exact .inl rfl
      · exact .inl rfl

/-- The first time, the record is added and told. -/
theorem absorb_first {s : State Card} {m : EdgePrediction} {r : Record Card} (h : kept p m = some r)
    (hprediction : s.db.predictions.find (m.time, r.prediction.id) = none)
    (hexplanation : ∀ e, r.explanation = some e → s.db.explanations.find e.predictionId = none) :
    (absorb p s m).db.predictions.rows = s.db.predictions.rows ++ [r.prediction] ∧
      (absorb p s m).db.explanations.rows = s.db.explanations.rows ++ r.explanation.toList ∧
      (absorb p s m).told = s.told ++ [storedOf m r.prediction.id] := by
  have hkey := kept_key h
  unfold kept at h
  split at h
  · rename_i haddressed
    obtain ⟨given, hrecord, hsaved⟩ := Option.bind_eq_some_iff.mp h
    obtain ⟨assetId, model, id, hasset, hmodel, hid, hgiven, hexplained⟩ := record_eq_some.mp hrecord
    obtain ⟨hcolumns, htakes, htakesAll, hsame⟩ := saved_eq_some.mp hsaved
    rw [hsame] at hexplanation ⊢
    have hid' : id = r.prediction.id := Option.some.inj (hid.symm.trans hkey.1)
    have hfree : s.db.predictions.find (Keyed.key r.prediction) = none := by
      show s.db.predictions.find (r.prediction.time, r.prediction.id) = none
      rw [hkey.2.1]
      exact hprediction
    obtain ⟨predictions, hpredictions⟩ := Option.isSome_iff_exists.mp (Table.insert_isSome.mpr hfree)
    have hexplanations : ∃ explanations, insertExplanation p s.db.explanations given.explanation = .ok explanations := by
      cases he : given.explanation with
      | none => exact ⟨_, rfl⟩
      | some e =>
        obtain ⟨explanations, hinsert⟩ := Option.isSome_iff_exists.mp (Table.insert_isSome.mpr (hexplanation e he))
        rw [he] at htakesAll
        exact ⟨explanations, insertExplanation_eq_ok.mpr ⟨by simpa using htakesAll, hinsert⟩⟩
    obtain ⟨explanations, hexplanations⟩ := hexplanations
    have hstore : storeEdgePrediction p s.db m assetId = .ok (some (⟨predictions, explanations⟩, storedOf m id)) :=
      store_eq_ok.mpr ⟨model, id, given.prediction, given.explanation, hmodel, hid, hid' ▸ hprediction, hgiven,
        insertPrediction_eq_ok.mpr ⟨r.prediction, hcolumns, htakes, hpredictions⟩, hexplained, hexplanations, rfl⟩
    have habsorb : absorb p s m = ⟨⟨predictions, explanations⟩, s.told ++ [storedOf m id]⟩ := by
      unfold absorb processValid
      rw [if_neg (not_not.mpr (assetFromPredTopic_predTopic.mpr haddressed).symm), hasset]
      dsimp only
      rw [hstore]
    rw [habsorb]
    exact ⟨Table.rows_insert hpredictions, (rows_insertExplanation hexplanations).2, by rw [hid']⟩
  · cases h

/-! ## Any number of deliveries -/

/-- No two messages have the same id. -/
def DistinctIds (p : Platform Card) (ms : List EdgePrediction) : Prop :=
  ∀ m ∈ ms, ∀ m' ∈ ms, ∀ id, p.uuid m.id = some id → p.uuid m'.id = some id → m = m'

/-- Nothing is on record under the ids of the messages. -/
def Unrecorded (p : Platform Card) (db : Database Card) (ms : List EdgePrediction) : Prop :=
  ∀ m ∈ ms, ∀ id, p.uuid m.id = some id →
    (∀ r ∈ db.predictions.rows, r.id ≠ id) ∧ ∀ e ∈ db.explanations.rows, e.predictionId ≠ id

/-- The records of the messages have been added, and told. -/
structure Added (p : Platform Card) (s₀ : State Card) (messages : List EdgePrediction) (s : State Card)
    (records : List (Record Card)) : Prop where
  made : messages.map (kept p) = records.map some
  predictions : s.db.predictions.rows = s₀.db.predictions.rows ++ records.map Record.prediction
  explanations : s.db.explanations.rows = s₀.db.explanations.rows ++ records.filterMap Record.explanation
  told : s.told.map StoredEdgePrediction.predictionId =
    s₀.told.map StoredEdgePrediction.predictionId ++ records.map fun r => r.prediction.id

theorem Added.of_mem {s₀ s : State Card} {messages : List EdgePrediction} {records : List (Record Card)}
    (h : Added p s₀ messages s records) {r : Record Card} (hr : r ∈ records) : ∃ m ∈ messages, kept p m = some r := by
  have hmem : some r ∈ messages.map (kept p) := by
    rw [h.made]
    exact List.mem_map_of_mem hr
  obtain ⟨m, hm, hkept⟩ := List.mem_map.mp hmem
  exact ⟨m, hm, hkept⟩

theorem Added.mem {s₀ s : State Card} {messages : List EdgePrediction} {records : List (Record Card)}
    (h : Added p s₀ messages s records) {m : EdgePrediction} (hm : m ∈ messages) : ∃ r ∈ records, kept p m = some r := by
  have hmem : kept p m ∈ records.map some := by
    rw [← h.made]
    exact List.mem_map_of_mem hm
  obtain ⟨r, hr, hkept⟩ := List.mem_map.mp hmem
  exact ⟨r, hr, hkept.symm⟩

theorem Added.first {s₀ s : State Card} {messages : List EdgePrediction} {records : List (Record Card)}
    {ms : List EdgePrediction} (h : Added p s₀ messages s records) (hdistinct : DistinctIds p ms)
    (hnew : Unrecorded p s₀.db ms) (hmessages : ∀ m ∈ messages, m ∈ ms) {m : EdgePrediction} (hm : m ∈ ms)
    {r : Record Card} (hkept : kept p m = some r) (hfirst : m ∉ messages) :
    Added p s₀ (messages ++ [m]) (absorb p s m) (records ++ [r]) := by
  obtain ⟨hid, -, hexplanationId⟩ := kept_key hkept
  have hother : ∀ r' ∈ records, r'.prediction.id ≠ r.prediction.id := by
    intro r' hr' hsame
    obtain ⟨m', hm', hkept'⟩ := h.of_mem hr'
    have hid' := (kept_key hkept').1
    rw [hsame] at hid'
    exact hfirst (hdistinct m hm m' (hmessages m' hm') _ hid hid' ▸ hm')
  have hprediction : s.db.predictions.find (m.time, r.prediction.id) = none := by
    refine Table.find_eq_none.mpr ?_
    intro hmem
    obtain ⟨row, hrow, hkey⟩ := List.mem_map.mp hmem
    have hrowid : row.id = r.prediction.id := congrArg Prod.snd hkey
    rw [h.predictions, List.mem_append] at hrow
    rcases hrow with hrow | hrow
    · exact (hnew m hm _ hid).1 row hrow hrowid
    · obtain ⟨r', hr', hprediction⟩ := List.mem_map.mp hrow
      exact hother r' hr' (hprediction ▸ hrowid)
  have hexplanation : ∀ e, r.explanation = some e → s.db.explanations.find e.predictionId = none := by
    intro e he
    refine Table.find_eq_none.mpr ?_
    intro hmem
    obtain ⟨e', he', hkey⟩ := List.mem_map.mp hmem
    have heid : e'.predictionId = r.prediction.id := Eq.trans hkey (hexplanationId e he)
    rw [h.explanations, List.mem_append] at he'
    rcases he' with he' | he'
    · exact (hnew m hm _ hid).2 e' he' heid
    · obtain ⟨r', hr', hexplained⟩ := List.mem_filterMap.mp he'
      obtain ⟨m', -, hkept'⟩ := h.of_mem hr'
      refine hother r' hr' ?_
      rw [← (kept_key hkept').2.2 e' hexplained]
      exact heid
  obtain ⟨hpredictions, hexplanations, htold⟩ := absorb_first hkept hprediction hexplanation
  refine ⟨?_, ?_, ?_, ?_⟩
  · rw [List.map_append, List.map_append, h.made, List.map_singleton, hkept, List.map_singleton]
  · rw [hpredictions, h.predictions, List.map_append, List.map_singleton, List.append_assoc]
  · rw [hexplanations, h.explanations, List.filterMap_append, List.append_assoc]
    cases he : r.explanation <;> simp [he]
  · rw [htold, List.map_append, h.told, List.map_append, List.append_assoc]
    rfl

theorem Added.again {s₀ s : State Card} {messages : List EdgePrediction} {records : List (Record Card)}
    (h : Added p s₀ messages s records) {m : EdgePrediction} (hm : m ∈ messages) : absorb p s m = s := by
  obtain hsame | hadded := absorb_eq (p := p) s m
  · exact hsame
  · obtain ⟨r, hkept, hfind⟩ := hadded
    obtain ⟨r', hr', hkept'⟩ := h.mem hm
    obtain rfl := Option.some.inj (hkept.symm.trans hkept')
    have hrow : r.prediction ∈ s.db.predictions.rows := by
      rw [h.predictions]
      exact List.mem_append_right _ (List.mem_map_of_mem hr')
    have hkey : (m.time, r.prediction.id) ∈ s.db.predictions.rows.map Keyed.key := by
      rw [← (kept_key hkept).2.1]
      exact List.mem_map_of_mem hrow
    exact absurd hkey (Table.find_eq_none.mp hfind)

/-- Whatever is delivered in whatever order, the messages that can be kept are kept, each once. -/
theorem added_receive {ds : List (Delivery p)} {s : State Card} (hdistinct : DistinctIds p (ds.map Delivery.message))
    (hnew : Unrecorded p s.db (ds.map Delivery.message)) :
    ∃ messages, messages.Nodup ∧ (∀ m, m ∈ messages ↔ m ∈ ds.map Delivery.message ∧ (kept p m).isSome = true) ∧
      ∃ records, Added p s messages (ds.foldl (receive p) s) records := by
  have hfold : ds.foldl (receive p) s = (ds.map Delivery.message).foldl (absorb p) s := by
    rw [List.foldl_map]
    congr 1
    funext s d
    exact receive_eq s d
  rw [hfold]
  refine Once.exists_kept (fun messages t => ∃ records, Added p s messages t records) ?_ ?_ ?_ ?_
  · exact ⟨[], rfl, (List.append_nil _).symm, (List.append_nil _).symm, (List.append_nil _).symm⟩
  · intro messages t m hadded hmessages hm hkeepable hfirst
    obtain ⟨records, hadded⟩ := hadded
    obtain ⟨r, hkept⟩ := Option.isSome_iff_exists.mp hkeepable
    exact ⟨records ++ [r], hadded.first hdistinct hnew hmessages hm hkept hfirst⟩
  · intro messages t m hadded _ hm
    obtain ⟨records, hadded⟩ := hadded
    rw [hadded.again hm]
    exact ⟨records, hadded⟩
  · intro messages t m hadded hrefused
    obtain hsame | hkept := absorb_eq (p := p) t m
    · rw [hsame]
      exact hadded
    · obtain ⟨r, hkept, -⟩ := hkept
      exact absurd (by rw [hkept]; rfl) hrefused

end

end TwinVoice.Ingest.EdgePredictions
