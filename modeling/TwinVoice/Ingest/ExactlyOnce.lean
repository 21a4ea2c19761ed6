import Mathlib
import TwinVoice.Ingest.Replays

/-! # Edge predictions on record exactly once

Store-and-forward and quality of service 1 deliver each prediction at least
once, and the consumer keeps it at most once. Whether its row holds what the
message says depends on the defaults of the table. -/

namespace TwinVoice.Ingest.EdgePredictions

open TwinVoice.Lib
open TwinVoice.Sim (Double)

section
variable {Card : Type} (p : Platform Card)

/-- The message carries attributions. -/
def Explained (m : EdgePrediction) : Prop := ∃ e, m.explanation = some e ∧ e.attributions ≠ []

/-- What has been delivered is on record, each message once and with its values and explained if it
carried attributions, and nothing else has been added. -/
def ExactlyOnce (ds : List (Delivery p)) (db db' : Database Card) : Prop :=
  ∃ messages : List EdgePrediction, messages.Nodup ∧ (∀ m, m ∈ messages ↔ m ∈ ds.map Delivery.message) ∧
    (∀ m ∈ messages, ∀ r, record p m = some r → (r.explanation.isSome = true ↔ Explained m)) ∧
    ∃ records : List (Record Card), messages.map (record p) = records.map some ∧
      db'.predictions.rows = db.predictions.rows ++ records.map Record.prediction ∧
      db'.explanations.rows = db.explanations.rows ++ records.filterMap Record.explanation

/-- There is something to store for the message, and the tables take it. -/
structure Storable (m : EdgePrediction) : Prop where
  addressed : Addressed m
  asset : (p.assetMap.get? m.assetCode).isSome = true
  id : (p.uuid m.id).isSome = true
  finite : (m.latencyMs.inferMs.add (m.latencyMs.explainMs.getD (.finite 0))).Finite
  taken : ∀ r, record p m = some r → (saved p r).isSome = true

/-- The message states the coverage of its remaining life, to the digits that are stored. -/
def CoverageStated (m : EdgePrediction) : Prop :=
  ∃ rul coverage, m.rul = some rul ∧ rul.coverage = some coverage ∧ p.numeric coverage = some coverage

end

section
variable {Card : Type} {p : Platform Card}

/-! ## When the record is that of the messages -/

theorem explanation_isSome_iff {m : EdgePrediction} {r : Record Card} (h : record p m = some r) :
    r.explanation.isSome = true ↔ Explained m := by
  obtain ⟨assetId, model, id, -, -, -, -, hexplanation⟩ := record_eq_some.mp h
  unfold explanationOf at hexplanation
  unfold Explained
  split at hexplanation
  · rename_i hnone
    rw [← Except.ok.inj hexplanation, hnone]
    simp
  · rename_i e he
    split at hexplanation
    · rename_i hempty
      rw [← Except.ok.inj hexplanation, he]
      simp [hempty]
    · rename_i hne
      obtain ⟨computeMs, -, hsome⟩ := bind_eq_ok hexplanation
      rw [← Except.ok.inj hsome]
      exact iff_of_true rfl ⟨e, he, hne⟩

/-- The defaults of the table do not replace what the message says. -/
theorem columns_eq_self {m : EdgePrediction} {id assetId modelId : Uuid} {r : Prediction}
    (h : predictionOf m id assetId modelId = .ok r) : columns p r = some r ↔ CoverageStated p m := by
  obtain ⟨latency, -, hr⟩ := bind_eq_ok h
  have hunit : r.rulUnit = m.rul.map RulInterval.unit := by
    cases hr
    rfl
  have hcoverage : r.rulCoverage = m.rul.bind RulInterval.coverage := by
    cases hr
    rfl
  unfold columns
  constructor
  · intro hcolumns
    obtain ⟨coverage, hcolumn, hrow⟩ := Option.map_eq_some_iff.mp hcolumns
    have hstated : r.rulCoverage = some coverage := by
      rw [← hrow]
    rw [hstated] at hcolumn
    rw [hcoverage] at hstated
    obtain ⟨rul, hrul, hsome⟩ := Option.bind_eq_some_iff.mp hstated
    exact ⟨rul, coverage, hrul, hsome, hcolumn⟩
  · intro hstated
    obtain ⟨rul, coverage, hrul, hsome, hnumeric⟩ := hstated
    have hrulCoverage : r.rulCoverage = some coverage := by
      rw [hcoverage, hrul]
      exact hsome
    have hrulUnit : some (r.rulUnit.getD "cycles") = r.rulUnit := by
      rw [hunit, hrul]
      rfl
    have hcolumn : rulCoverageColumn p r.rulCoverage = some coverage := by
      rw [hrulCoverage]
      exact hnumeric
    rw [hcolumn, Option.map_some, hrulUnit, ← hrulCoverage]

theorem roundMs_eq_ok {x : Double} : (∃ n, roundMs x = .ok n) ↔ x.Finite := by
  cases x with
  | finite q => exact iff_of_true ⟨_, rfl⟩ ⟨q, rfl⟩
  | nan => exact iff_of_false (by simp [roundMs]) (by simp [Double.Finite])
  | infinity negative => exact iff_of_false (by simp [roundMs]) (by simp [Double.Finite])

theorem predictionOf_isOk_iff {m : EdgePrediction} {id assetId modelId : Uuid} :
    (∃ r, predictionOf m id assetId modelId = .ok r) ↔
      (m.latencyMs.inferMs.add (m.latencyMs.explainMs.getD (.finite 0))).Finite := by
  rw [← roundMs_eq_ok]
  constructor
  · intro h
    obtain ⟨r, hr⟩ := h
    obtain ⟨latency, hlatency, -⟩ := bind_eq_ok hr
    exact ⟨latency, hlatency⟩
  · intro h
    obtain ⟨latency, hlatency⟩ := h
    unfold predictionOf
    rw [hlatency]
    exact ⟨_, rfl⟩

/-- Where the sum of the two latencies can be rounded, so can the second. -/
theorem explanationOf_isOk {m : EdgePrediction}
    (h : (m.latencyMs.inferMs.add (m.latencyMs.explainMs.getD (.finite 0))).Finite) (id assetId : Uuid) :
    ∃ e, explanationOf p m id assetId = .ok e := by
  have hcompute : ∃ ms, m.latencyMs.explainMs.mapM roundMs = .ok ms := by
    cases hexplain : m.latencyMs.explainMs with
    | none => exact ⟨none, rfl⟩
    | some x =>
      rw [hexplain, Option.getD_some] at h
      obtain ⟨ms, hms⟩ := roundMs_eq_ok.mpr (Double.finite_add_iff.mp h).2
      refine ⟨some ms, ?_⟩
      show Functor.map some (roundMs x) = _
      rw [hms]
      rfl
  obtain ⟨ms, hms⟩ := hcompute
  unfold explanationOf
  split
  · exact ⟨_, rfl⟩
  · split
    · exact ⟨_, rfl⟩
    · rw [hms]
      exact ⟨_, rfl⟩

theorem storable_iff {m : EdgePrediction} (hmodel : (resolveModel p.models m.modelVersion).isSome = true) :
    Storable p m ↔ ∃ r, kept p m = some r := by
  constructor
  · intro h
    obtain ⟨assetId, hasset⟩ := Option.isSome_iff_exists.mp h.asset
    obtain ⟨id, hid⟩ := Option.isSome_iff_exists.mp h.id
    obtain ⟨model, hmodel⟩ := Option.isSome_iff_exists.mp hmodel
    obtain ⟨prediction, hprediction⟩ := predictionOf_isOk_iff.mpr h.finite
    obtain ⟨explanation, hexplanation⟩ := explanationOf_isOk (p := p) h.finite id assetId
    have hrecord : record p m = some ⟨prediction, explanation⟩ :=
      record_eq_some.mpr ⟨assetId, model, id, hasset, hmodel, hid, hprediction, hexplanation⟩
    obtain ⟨r, hr⟩ := Option.isSome_iff_exists.mp (h.taken _ hrecord)
    refine ⟨r, ?_⟩
    unfold kept
    rw [if_pos h.addressed, hrecord]
    exact hr
  · intro h
    obtain ⟨r, hkept⟩ := h
    unfold kept at hkept
    split at hkept
    · rename_i haddressed
      obtain ⟨given, hrecord, hsaved⟩ := Option.bind_eq_some_iff.mp hkept
      obtain ⟨assetId, model, id, hasset, -, hid, hprediction, -⟩ := record_eq_some.mp hrecord
      refine ⟨haddressed, by rw [hasset]; rfl, by rw [hid]; rfl, predictionOf_isOk_iff.mp ⟨_, hprediction⟩, ?_⟩
      intro given' hgiven'
      rw [hrecord] at hgiven'
      cases hgiven'
      rw [hsaved]
      rfl
    · cases hkept

/-- The tables change nothing of what they are given but the coverage and the unit. -/
theorem kept_of_record {m : EdgePrediction} {given r : Record Card} (hrecord : record p m = some given)
    (hkept : kept p m = some r) :
    (r.prediction = given.prediction ↔ CoverageStated p m) ∧ r.explanation = given.explanation := by
  obtain ⟨assetId, model, id, -, -, -, hprediction, -⟩ := record_eq_some.mp hrecord
  unfold kept at hkept
  split at hkept
  · rw [hrecord] at hkept
    obtain ⟨hcolumns, -, -, hsame⟩ := saved_eq_some.mp hkept
    refine ⟨?_, hsame⟩
    rw [← columns_eq_self hprediction, hcolumns, Option.some_inj]
  · cases hkept

theorem record_of_kept {m : EdgePrediction} {r : Record Card} (h : kept p m = some r) :
    ∃ given, record p m = some given := by
  unfold kept at h
  split at h
  · obtain ⟨given, hrecord, -⟩ := Option.bind_eq_some_iff.mp h
    exact ⟨given, hrecord⟩
  · cases h

theorem record_id {m : EdgePrediction} {given : Record Card} (h : record p m = some given) :
    p.uuid m.id = some given.prediction.id := by
  obtain ⟨assetId, model, id, -, -, hid, hprediction, -⟩ := record_eq_some.mp h
  rw [hid, (predictionOf_key hprediction).1]

end

/-! ## A platform with one machine -/

/-- A prediction for `cnc-01`, with the coverage and the attributions that it may carry. -/
def sample (id : String) (coverage : Option Double) (attributions : List EdgeAttribution) : EdgePrediction where
  id := id
  assetCode := "cnc-01"
  time := 0
  windowStart := -300000000
  windowEnd := 0
  modelVersion := "rul-cnc_mill:2026"
  rul := some { point := .finite 40, low := .finite 31, high := .finite 49, coverage := coverage }
  explanation := some { attributions := attributions }
  latencyMs := { inferMs := .finite (3 / 2), explainMs := some (.finite 8) }

def sampleText (id coverage attributions : String) : ByteArray :=
  ("\x7b\"id\": \"" ++ id ++ "\", \"asset_code\": \"cnc-01\", \"time\": \"1970-01-01T00:00:00Z\", " ++
    "\"window_start\": \"1969-12-31T23:55:00Z\", \"window_end\": \"1970-01-01T00:00:00Z\", " ++
    "\"model_version\": \"rul-cnc_mill:2026\", \"rul\": \x7b\"point\": 40.0, \"low\": 31.0, \"high\": 49.0, " ++
    "\"coverage\": " ++ coverage ++ "\x7d, \"explanation\": \x7b\"attributions\": [" ++ attributions ++ "]\x7d, " ++
    "\"latency_ms\": \x7b\"infer_ms\": 1.5, \"explain_ms\": 8.0\x7d\x7d").toUTF8

/-- The model is registered, the asset known, and two texts are messages. -/
def cell (text text' : ByteArray) (m m' : EdgePrediction) : Platform Unit where
  validate payload := if payload = text then some m else if payload = text' then some m' else none
  uuid s :=
    let digits := s.toList.filter (· ≠ '-')
    if digits.length = 32 ∧ digits.all Char.isDigit then some (digits.foldl (fun n c => 16 * n + (c.toNat - '0'.toNat)) 0)
    else none
  models := [⟨7, "rul-cnc_mill", "2026", "candidate", none⟩]
  assetMap := [("cnc-01", 3)]
  reasonCard _ _ _ := none
  numeric x := match x with
    | .finite q =>
      let held : Rat := roundInt (q * 100) / 100
      if -10 < held ∧ held < 10 then some (.finite held) else none
    | .nan => some .nan
    | .infinity _ => none
  takesPrediction _ := true
  takesExplanation _ := true

theorem cell_text (text text' : ByteArray) (m m' : EdgePrediction) : (cell text text' m m').validate text = some m :=
  if_pos rfl

theorem cell_text' {text text' : ByteArray} (h : text' ≠ text) (m m' : EdgePrediction) :
    (cell text text' m m').validate text' = some m' := (if_neg h).trans (if_pos rfl)

def nothing : State Unit := ⟨⟨Table.empty, Table.empty⟩, []⟩

end TwinVoice.Ingest.EdgePredictions
